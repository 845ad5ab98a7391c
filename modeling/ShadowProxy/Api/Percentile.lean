import ShadowProxy.Api.Summary
import ShadowProxy.Data.Interpolation
import Mathlib.Data.Rat.Floor

/-! What `_percentile` computes, and the order of what a summary reports. -/

namespace ShadowProxy

open Data

namespace SqlComparisonStore

variable {values values' : List ℤ} {q q' v : ℚ}

def ReadsInside (values : List ℤ) (q v : ℚ) : Prop :=
  ∃ lo hi : Fin values.mergeSort.length, lo.val = ⌊(values.length - 1 : ℕ) * q⌋.toNat ∧
    hi.val = min (lo.val + 1) (values.length - 1) ∧
      v = values.mergeSort.get lo + (values.mergeSort.get hi - values.mergeSort.get lo) *
      ((values.length - 1 : ℕ) * q - lo.val)

def sortedLevel (values : List ℤ) (i : ℕ) : ℚ := (level 0 values.mergeSort i : ℤ)

lemma mergeSort_eq (values : List ℤ) : values.mergeSort = values.insertionSort (· ≤ ·) :=
  List.mergeSort_eq_insertionSort (· ≤ ·) values

lemma mergeSort_ne_nil (hne : values ≠ []) : values.mergeSort ≠ [] := by
  rwa [ne_eq, ← List.length_eq_zero_iff, List.length_mergeSort, List.length_eq_zero_iff]

lemma sortedLevel_mono (values : List ℤ) : Monotone (sortedLevel values) := by
  have hsorted : values.mergeSort.Pairwise (· ≤ ·) := mergeSort_eq values ▸ List.pairwise_insertionSort _ _
  exact fun _ _ hij => Int.cast_le.mpr (level_mono hsorted hij)

lemma sortedLevel_le_sortedLevel (h : List.Forall₂ (· ≤ ·) values values') (i : ℕ) :
    sortedLevel values i ≤ sortedLevel values' i := by
  have hsorted : List.Forall₂ (· ≤ ·) values.mergeSort values'.mergeSort := by
    rw [mergeSort_eq, mergeSort_eq]
    exact forall₂_insertionSort h
  exact Int.cast_le.mpr (level_le_level hsorted i)

lemma sortedLevel_eq_of_perm (h : values.Perm values') : sortedLevel values = sortedLevel values' := by
  have hperm : (values.insertionSort (· ≤ ·)).Perm (values'.insertionSort (· ≤ ·)) :=
    ((List.perm_insertionSort _ values).trans h).trans (List.perm_insertionSort _ values').symm
  have hsorted : values.mergeSort = values'.mergeSort := by
    rw [mergeSort_eq, mergeSort_eq]
    exact hperm.eq_of_pairwise (fun _ _ _ _ => le_antisymm) (List.pairwise_insertionSort _ _)
      (List.pairwise_insertionSort _ _)
  funext i
  rw [sortedLevel, sortedLevel, hsorted]

lemma sortedLevel_mem (hne : values ≠ []) (i : ℕ) : ∃ x ∈ values, sortedLevel values i = x :=
  ⟨_, (List.mergeSort_perm values _).subset (level_mem (mergeSort_ne_nil hne) i), rfl⟩

lemma sortedLevel_eq_get (i : Fin values.mergeSort.length) : sortedLevel values i = values.mergeSort.get i := by
  have hmin : min i.val (values.mergeSort.length - 1) = i.val := by omega
  simp only [sortedLevel, level, hmin, List.getD, List.getElem?_eq_getElem i.isLt, Option.getD_some,
    List.get_eq_getElem]

lemma sortedLevel_min (values : List ℤ) (i : ℕ) :
    sortedLevel values (min i (values.length - 1)) = sortedLevel values i := by
  simp only [sortedLevel, level, List.length_mergeSort, min_assoc, min_self]

lemma position_nonneg (hq0 : 0 ≤ q) (n : ℕ) : 0 ≤ (n : ℚ) * q := mul_nonneg n.cast_nonneg hq0

lemma floor_position_le (hq1 : q ≤ 1) (n : ℕ) : ⌊(n : ℚ) * q⌋₊ ≤ n :=
  Nat.floor_le_of_le (mul_le_of_le_one_right n.cast_nonneg hq1)

lemma percentile_eq (hq1 : q ≤ 1) (hne : values ≠ []) :
    percentile values q = some (interpolate (sortedLevel values) ((values.length - 1 : ℕ) * q)) := by
  rw [percentile]
  split
  · rename_i hsorted
    exact (mergeSort_ne_nil hne hsorted).elim
  · rename_i x hsorted
    have hlength : values.length = 1 := by rw [← List.length_mergeSort values, hsorted, List.length_singleton]
    simp [interpolate, sortedLevel, level, hlength, hsorted]
  · have hfloor := floor_position_le hq1 (values.length - 1)
    simp only [interpolate, sortedLevel, level, Int.floor_toNat, List.length_mergeSort]
    rw [Nat.min_eq_left hfloor]

lemma readsInside (hq1 : q ≤ 1) (hne : values ≠ []) :
    ReadsInside values q (interpolate (sortedLevel values) ((values.length - 1 : ℕ) * q)) := by
  have hlast : values.length - 1 < values.mergeSort.length := by
    rw [List.length_mergeSort]
    exact Nat.sub_one_lt (mt List.length_eq_zero_iff.mp hne)
  have hlo : ⌊((values.length - 1 : ℕ) : ℚ) * q⌋₊ < values.mergeSort.length :=
    (floor_position_le hq1 _).trans_lt hlast
  have hhi : min (⌊((values.length - 1 : ℕ) : ℚ) * q⌋₊ + 1) (values.length - 1) < values.mergeSort.length :=
    (min_le_right _ _).trans_lt hlast
  refine ⟨⟨_, hlo⟩, ⟨_, hhi⟩, (Int.floor_toNat _).symm, rfl, ?_⟩
  rw [← sortedLevel_eq_get ⟨_, hlo⟩, ← sortedLevel_eq_get ⟨_, hhi⟩, interpolate]
  simp only [sortedLevel_min]

lemma interpolate_between (hq0 : 0 ≤ q) (hne : values ≠ []) :
    (values.min hne : ℚ) ≤ interpolate (sortedLevel values) ((values.length - 1 : ℕ) * q) ∧
      interpolate (sortedLevel values) ((values.length - 1 : ℕ) * q) ≤ values.max hne := by
  have hmono := sortedLevel_mono values
  constructor
  · obtain ⟨x, hx, hlevel⟩ := sortedLevel_mem hne ⌊((values.length - 1 : ℕ) : ℚ) * q⌋₊
    have hmin : (values.min hne : ℚ) ≤ x := Int.cast_le.mpr (List.min_le_of_mem hx)
    exact (hlevel ▸ hmin).trans (le_interpolate hmono (position_nonneg hq0 _))
  · obtain ⟨x, hx, hlevel⟩ := sortedLevel_mem hne (⌊((values.length - 1 : ℕ) : ℚ) * q⌋₊ + 1)
    have hmax : (x : ℚ) ≤ values.max hne := Int.cast_le.mpr (List.le_max_of_mem hx)
    exact (interpolate_le hmono).trans (hlevel ▸ hmax)

lemma percentile_le_of_le (hq0 : 0 ≤ q) (hqq : q ≤ q') (hq1 : q' ≤ 1) (hne : values ≠ []) :
    ∃ v v', percentile values q = some v ∧ percentile values q' = some v' ∧ v ≤ v' := by
  refine ⟨_, _, percentile_eq (hqq.trans hq1) hne, percentile_eq hq1 hne, ?_⟩
  exact interpolate_mono (sortedLevel_mono values) (position_nonneg hq0 _)
    (mul_le_mul_of_nonneg_left hqq (Nat.cast_nonneg _))

lemma median_le (values : List ℤ) :
    ∀ p50 ∈ percentile values (1 / 2), ∀ p95 ∈ percentile values (19 / 20), p50 ≤ p95 := by
  have hzero : (0 : ℚ) ≤ 1 / 2 := by norm_num
  have hqq : (1 / 2 : ℚ) ≤ 19 / 20 := by norm_num
  have hone : (19 / 20 : ℚ) ≤ 1 := by norm_num
  intro p50 hp50 p95 hp95
  by_cases hne : values = []
  · simp [hne, percentile] at hp50
  · obtain ⟨v, v', hv, hv', hle⟩ := percentile_le_of_le hzero hqq hone hne
    obtain rfl := Option.some.inj (hp50.symm.trans hv)
    obtain rfl := Option.some.inj (hp95.symm.trans hv')
    exact hle

end SqlComparisonStore

open SqlComparisonStore

theorem percentile_ordered :
    (∀ (values : List ℤ) (hne : values ≠ []) (q : ℚ), 0 ≤ q → q ≤ 1 → ∃ v, percentile values q = some v ∧
      ReadsInside values q v ∧ values.min hne ≤ v ∧ v ≤ values.max hne ∧
      (∀ values', values.Perm values' → percentile values' q = some v) ∧
      (∀ q' ≤ 1, q ≤ q' → ∃ v', percentile values q' = some v' ∧ v ≤ v') ∧
      ∀ values', List.Forall₂ (· ≤ ·) values values' → ∃ v', percentile values' q = some v' ∧ v ≤ v') ∧
    ∀ now window t₁ t₂ t₃, let stats := summaryAcross now window t₁ t₂ t₃
      (∀ p50 ∈ stats.primaryLatencyP50Ms, ∀ p95 ∈ stats.primaryLatencyP95Ms, p50 ≤ p95) ∧
        ∀ p50 ∈ stats.candidateLatencyP50Ms, ∀ p95 ∈ stats.candidateLatencyP95Ms, p50 ≤ p95 := by
  refine ⟨fun values hne q hq0 hq1 => ?_, fun now window t₁ t₂ t₃ => ⟨median_le _, median_le _⟩⟩
  obtain ⟨hmin, hmax⟩ := interpolate_between hq0 hne
  refine ⟨_, percentile_eq hq1 hne, readsInside hq1 hne, hmin, hmax, ?_, ?_, ?_⟩
  · intro values' hperm
    have hne' : values' ≠ [] := fun h => hne (hperm.trans (.of_eq h)).eq_nil
    rw [percentile_eq hq1 hne', hperm.length_eq, sortedLevel_eq_of_perm hperm]
  · intro q' hq1' hqq
    obtain ⟨v, v', hv, hv', hle⟩ := percentile_le_of_le hq0 hqq hq1' hne
    exact ⟨v', hv', Option.some.inj (hv.symm.trans (percentile_eq hq1 hne)) ▸ hle⟩
  · intro values' hle
    have hne' : values' ≠ [] := by
      rintro rfl
      cases hle
      exact hne rfl
    refine ⟨_, percentile_eq hq1 hne', ?_⟩
    rw [hle.length_eq]
    exact interpolate_le_interpolate (sortedLevel_le_sortedLevel hle) (position_nonneg hq0 _)

theorem percentile_ordered_three : ∃ v, percentile [30, 10, 20] (1 / 4) = some v ∧ 10 ≤ v ∧ v ≤ 30 ∧
    percentile [10, 20, 30] (1 / 4) = some v := by
  have hne : ([30, 10, 20] : List ℤ) ≠ [] := by decide
  have hmin : ([30, 10, 20] : List ℤ).min hne = 10 := rfl
  have hmax : ([30, 10, 20] : List ℤ).max hne = 30 := rfl
  obtain ⟨v, hv, -, hge, hle, hperm, -⟩ :=
    percentile_ordered.1 [30, 10, 20] hne (1 / 4) (by norm_num) (by norm_num)
  rw [hmin] at hge
  rw [hmax] at hle
  exact ⟨v, hv, by simpa using hge, by simpa using hle, hperm _ (by decide)⟩

end ShadowProxy

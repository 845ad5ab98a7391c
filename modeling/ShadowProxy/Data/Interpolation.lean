import Mathlib.Algebra.Order.Floor.Semiring
import Mathlib.Algebra.Order.Field.Basic
import Mathlib.Data.List.Sort
import Mathlib.Tactic.Ring

/-! Interpolation between the entries of a sorted list. -/

namespace ShadowProxy.Data

section Interpolate

variable {K : Type} [Field K] [LinearOrder K] [IsStrictOrderedRing K] [FloorSemiring K] {f g : ℕ → K} {x y : K}

def interpolate (f : ℕ → K) (x : K) : K := f ⌊x⌋₊ + (f (⌊x⌋₊ + 1) - f ⌊x⌋₊) * (x - ⌊x⌋₊)

lemma le_interpolate (hf : Monotone f) (hx : 0 ≤ x) : f ⌊x⌋₊ ≤ interpolate f x := by
  have hstep : 0 ≤ f (⌊x⌋₊ + 1) - f ⌊x⌋₊ := sub_nonneg.mpr (hf (Nat.le_succ _))
  have hfrac : 0 ≤ x - ⌊x⌋₊ := sub_nonneg.mpr (Nat.floor_le hx)
  exact le_add_of_nonneg_right (mul_nonneg hstep hfrac)

lemma interpolate_le (hf : Monotone f) : interpolate f x ≤ f (⌊x⌋₊ + 1) := by
  have hstep : 0 ≤ f (⌊x⌋₊ + 1) - f ⌊x⌋₊ := sub_nonneg.mpr (hf (Nat.le_succ _))
  have hfrac : x - ⌊x⌋₊ ≤ 1 := (sub_le_iff_le_add'.mpr (Nat.lt_floor_add_one x).le)
  calc
    interpolate f x ≤ f ⌊x⌋₊ + (f (⌊x⌋₊ + 1) - f ⌊x⌋₊) * 1 := by
      rw [interpolate]
      exact add_le_add_right (mul_le_mul_of_nonneg_left hfrac hstep) _
    _ = f (⌊x⌋₊ + 1) := by rw [mul_one, add_sub_cancel]

lemma interpolate_mono (hf : Monotone f) (hx : 0 ≤ x) (hxy : x ≤ y) : interpolate f x ≤ interpolate f y := by
  rcases (Nat.floor_mono hxy).eq_or_lt with hfloor | hfloor
  · have hstep : 0 ≤ f (⌊x⌋₊ + 1) - f ⌊x⌋₊ := sub_nonneg.mpr (hf (Nat.le_succ _))
    rw [interpolate, interpolate, ← hfloor]
    exact add_le_add_right (mul_le_mul_of_nonneg_left (sub_le_sub_right hxy _) hstep) _
  · calc
      interpolate f x ≤ f (⌊x⌋₊ + 1) := interpolate_le hf
      _ ≤ f ⌊y⌋₊ := hf hfloor
      _ ≤ interpolate f y := le_interpolate hf (hx.trans hxy)

lemma interpolate_le_interpolate (hfg : ∀ i, f i ≤ g i) (hx : 0 ≤ x) : interpolate f x ≤ interpolate g x := by
  have hconvex : ∀ h : ℕ → K, interpolate h x = h ⌊x⌋₊ * (1 - (x - ⌊x⌋₊)) + h (⌊x⌋₊ + 1) * (x - ⌊x⌋₊) := by
    intro h
    rw [interpolate]
    ring
  have hfrac : 0 ≤ x - ⌊x⌋₊ := sub_nonneg.mpr (Nat.floor_le hx)
  have hrest : 0 ≤ 1 - (x - ⌊x⌋₊) := sub_nonneg.mpr (sub_le_iff_le_add'.mpr (Nat.lt_floor_add_one x).le)
  rw [hconvex f, hconvex g]
  exact add_le_add (mul_le_mul_of_nonneg_right (hfg _) hrest) (mul_le_mul_of_nonneg_right (hfg _) hfrac)

end Interpolate

section Sorting

variable {α : Type} [LinearOrder α] {a b : α} {xs ys : List α}

lemma orderedInsert_eq_cons (h : (a :: xs).Pairwise (· ≤ ·)) : xs.orderedInsert (· ≤ ·) a = a :: xs := by
  cases xs with
  | nil => rfl
  | cons x xs => exact List.orderedInsert_cons_of_le _ _ ((List.pairwise_cons.mp h).1 x List.mem_cons_self)

lemma forall₂_orderedInsert (hab : a ≤ b) (h : List.Forall₂ (· ≤ ·) xs ys) (hxs : xs.Pairwise (· ≤ ·))
    (hys : ys.Pairwise (· ≤ ·)) :
    List.Forall₂ (· ≤ ·) (xs.orderedInsert (· ≤ ·) a) (ys.orderedInsert (· ≤ ·) b) := by
  induction h generalizing a b with
  | nil => exact .cons hab .nil
  | @cons x y xs ys hxy h ih =>
    have hrest : ∀ {a b : α}, a ≤ b →
        List.Forall₂ (· ≤ ·) (xs.orderedInsert (· ≤ ·) a) (ys.orderedInsert (· ≤ ·) b) :=
      fun hab => ih hab hxs.of_cons hys.of_cons
    by_cases ha : a ≤ x <;> by_cases hb : b ≤ y
    · rw [List.orderedInsert_cons_of_le _ _ ha, List.orderedInsert_cons_of_le _ _ hb]
      exact .cons hab (.cons hxy h)
    · -- `y` moves down to `a`, and `b` to `x`
      have hxb : x ≤ b := hxy.trans (not_le.mp hb).le
      rw [List.orderedInsert_cons_of_le _ _ ha, List.orderedInsert_of_not_le _ _ hb, ← orderedInsert_eq_cons hxs]
      exact .cons (ha.trans hxy) (hrest hxb)
    · have hxb : x ≤ b := (not_le.mp ha).le.trans hab
      rw [List.orderedInsert_of_not_le _ _ ha, List.orderedInsert_cons_of_le _ _ hb, ← orderedInsert_eq_cons hys]
      exact .cons hxb (hrest (hab.trans hb))
    · rw [List.orderedInsert_of_not_le _ _ ha, List.orderedInsert_of_not_le _ _ hb]
      exact .cons hxy (hrest hab)

lemma forall₂_insertionSort (h : List.Forall₂ (· ≤ ·) xs ys) :
    List.Forall₂ (· ≤ ·) (xs.insertionSort (· ≤ ·)) (ys.insertionSort (· ≤ ·)) := by
  induction h with
  | nil => exact .nil
  | cons hxy h ih =>
    exact forall₂_orderedInsert hxy ih (List.pairwise_insertionSort _ _) (List.pairwise_insertionSort _ _)

end Sorting

section Level

variable {α : Type} (d : α) (xs ys : List α)

def level (i : ℕ) : α := xs.getD (min i (xs.length - 1)) d

variable {d xs ys}

lemma level_eq_getElem (hne : xs ≠ []) (i : ℕ) :
    ∃ h : min i (xs.length - 1) < xs.length, level d xs i = xs[min i (xs.length - 1)] := by
  have hlength : 0 < xs.length := List.length_pos_iff.mpr hne
  have hlt : min i (xs.length - 1) < xs.length := by omega
  exact ⟨hlt, by simp only [level, List.getD, List.getElem?_eq_getElem hlt, Option.getD_some]⟩

lemma level_mem (hne : xs ≠ []) (i : ℕ) : level d xs i ∈ xs := by
  obtain ⟨hlt, hget⟩ := level_eq_getElem (d := d) hne i
  exact hget ▸ List.getElem_mem hlt

lemma level_mono [LinearOrder α] (hsorted : xs.Pairwise (· ≤ ·)) : Monotone (level d xs) := by
  intro i j hij
  by_cases hne : xs = []
  · subst hne
    exact le_rfl
  · obtain ⟨hi, hgeti⟩ := level_eq_getElem (d := d) hne i
    obtain ⟨hj, hgetj⟩ := level_eq_getElem (d := d) hne j
    rw [hgeti, hgetj]
    exact hsorted.sortedLE.getElem_le_getElem_of_le (by omega)

lemma level_le_level [LinearOrder α] (h : List.Forall₂ (· ≤ ·) xs ys) (i : ℕ) : level d xs i ≤ level d ys i := by
  have hget : ∀ i, xs.getD i d ≤ ys.getD i d := by
    induction h with
    | nil => exact fun i => le_rfl
    | cons hxy _ ih =>
      intro i
      cases i with
      | zero => exact hxy
      | succ i => exact ih i
  rw [level, level, h.length_eq]
  exact hget _

end Level

end ShadowProxy.Data

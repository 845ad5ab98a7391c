import Mathlib.Data.List.Sort
import Mathlib.Order.Defs.LinearOrder

/-! Pages of a list that each query sorts anew by a key, with ties in any order. -/

namespace ShadowProxy.Data.Paging

variable {α κ : Type} [LinearOrder κ] (key : α → κ)

structure Ordered (rows o : List α) : Prop where
  perm : o.Perm rows
  sorted : o.Pairwise fun a b => key b ≤ key a

def IsPage (rows : List α) (limit offset : ℕ) (page : List α) : Prop :=
  ∃ o, Ordered key rows o ∧ page = (o.drop offset).take limit

inductive PagesFrom (rows : List α) (limit : ℕ) : ℕ → List (List α) → Prop
  | done {offset : ℕ} : IsPage key rows limit offset [] → PagesFrom rows limit offset []
  | more {offset : ℕ} {page : List α} {pages : List (List α)} : IsPage key rows limit offset page → page ≠ [] →
      PagesFrom rows limit (offset + limit) pages → PagesFrom rows limit offset (page :: pages)

def before (rows : List α) (a : α) : ℕ := rows.countP fun b => key a < key b

def through (rows : List α) (a : α) : ℕ := rows.countP fun b => key a ≤ key b

def Splits (rows : List α) (n : ℕ) : Prop := ∃ a ∈ rows, before key rows a < n ∧ n < through key rows a

section Sorted

variable {key} {rows o o' : List α} {n : ℕ}

lemma exists_ordered (key : α → κ) (rows : List α) : ∃ o, Ordered key rows o := by
  have : Std.Total fun a b : α => key b ≤ key a := ⟨fun a b => le_total (key b) (key a)⟩
  have : IsTrans α fun a b => key b ≤ key a := ⟨fun _ _ _ h h' => le_trans h' h⟩
  exact ⟨rows.insertionSort fun a b => key b ≤ key a, List.perm_insertionSort _ _, List.pairwise_insertionSort _ _⟩

lemma getElem_iff_lt_countP {p : α → Bool} (h : o.Pairwise fun a b => p b = true → p a = true)
    (hn : n < o.length) : p o[n] = true ↔ n < o.countP p := by
  induction o generalizing n with
  | nil => cases hn
  | cons a o ih =>
    rw [List.pairwise_cons] at h
    cases hp : p a with
    | false =>
      have hnone : ∀ b ∈ a :: o, p b = false := by
        refine List.forall_mem_cons.mpr ⟨hp, fun b hb => ?_⟩
        by_contra hb'
        exact absurd (h.1 b hb (by simpa using hb')) (by simp [hp])
      rw [List.countP_eq_zero.mpr fun b hb => by simp [hnone b hb]]
      simp [hnone _ (List.getElem_mem hn)]
    | true =>
      rw [List.countP_cons_of_pos hp]
      cases n with
      | zero => simp [hp]
      | succ n => simpa using ih h.2 (by simpa using hn)

lemma take_countP {p : α → Bool} (h : o.Pairwise fun a b => p b = true → p a = true) :
    o.take (o.countP p) = o.filter p := by
  induction o with
  | nil => rfl
  | cons a o ih =>
    rw [List.pairwise_cons] at h
    cases hp : p a with
    | false =>
      have hnone : ∀ b ∈ a :: o, ¬ p b = true := by
        refine List.forall_mem_cons.mpr ⟨by simp [hp], fun b hb hb' => ?_⟩
        exact absurd (h.1 b hb hb') (by simp [hp])
      rw [List.countP_eq_zero.mpr hnone, List.filter_eq_nil_iff.mpr hnone, List.take_zero]
    | true => rw [List.countP_cons_of_pos hp, List.filter_cons_of_pos hp, List.take_succ_cons, ih h.2]

lemma Ordered.before_iff (ho : Ordered key rows o) (a : α) (hn : n < o.length) :
    key a < key o[n] ↔ n < before key rows a := by
  have hupward : o.Pairwise fun b c => decide (key a < key c) = true → decide (key a < key b) = true :=
    ho.sorted.imp fun hbc hc => decide_eq_true (lt_of_lt_of_le (of_decide_eq_true hc) hbc)
  rw [before, ← ho.perm.countP_eq, ← getElem_iff_lt_countP hupward hn, decide_eq_true_eq]

lemma Ordered.through_upward (ho : Ordered key rows o) (a : α) :
    o.Pairwise fun b c => decide (key a ≤ key c) = true → decide (key a ≤ key b) = true :=
  ho.sorted.imp fun hbc hc => decide_eq_true ((of_decide_eq_true hc).trans hbc)

lemma Ordered.through_iff (ho : Ordered key rows o) (a : α) (hn : n < o.length) :
    key a ≤ key o[n] ↔ n < through key rows a := by
  rw [through, ← ho.perm.countP_eq, ← getElem_iff_lt_countP (ho.through_upward a) hn, decide_eq_true_eq]

lemma Ordered.take_perm (ho : Ordered key rows o) (ho' : Ordered key rows o') (hn : ¬ Splits key rows n) :
    (o.take n).Perm (o'.take n) := by
  have hlength : o.length = o'.length := ho.perm.length_eq.trans ho'.perm.length_eq.symm
  rcases n with - | n
  · rfl
  rcases Nat.lt_or_ge n o.length with hlt | hge
  · let a := o[n]
    have hmem : a ∈ rows := ho.perm.subset (List.getElem_mem hlt)
    have hbefore : before key rows a ≤ n := not_lt.mp fun h => lt_irrefl _ ((ho.before_iff a hlt).mpr h)
    have hthrough : n < through key rows a := (ho.through_iff a hlt).mp le_rfl
    have hn' : n + 1 = through key rows a :=
      le_antisymm hthrough (not_lt.mp fun h => hn ⟨a, hmem, Nat.lt_succ_of_le hbefore, h⟩)
    have htake : ∀ {l : List α}, Ordered key rows l → l.take (n + 1) = l.filter fun b => key a ≤ key b := by
      intro l hl
      rw [hn', through, ← hl.perm.countP_eq, take_countP (hl.through_upward a)]
    rw [htake ho, htake ho']
    exact (ho.perm.trans ho'.perm.symm).filter _
  · rw [List.take_of_length_le (by omega), List.take_of_length_le (by omega)]
    exact ho.perm.trans ho'.perm.symm

lemma Ordered.page_perm (ho : Ordered key rows o) (ho' : Ordered key rows o') {limit : ℕ}
    (hn : ¬ Splits key rows n) (hn' : ¬ Splits key rows (n + limit)) :
    ((o.drop n).take limit).Perm ((o'.drop n).take limit) := by
  have htake := ho.take_perm ho' hn'
  rw [List.take_add, List.take_add] at htake
  exact (List.perm_append_left_iff _).mp (htake.trans ((ho.take_perm ho' hn).symm.append_right _))

end Sorted

section Clean

variable {key} {rows o : List α} {limit : ℕ}

lemma Ordered.pairwise_take_drop (ho : Ordered key rows o) (n : ℕ) :
    ∀ a ∈ o.take n, ∀ b ∈ o.drop n, key b ≤ key a := by
  have hsplit := ho.sorted
  rw [← List.take_append_drop n o, List.pairwise_append] at hsplit
  exact hsplit.2.2

lemma PagesFrom.flatten {i : ℕ} {pages : List (List α)} (hlimit : 0 < limit) (ho : Ordered key rows o)
    (hclean : ∀ i, ¬ Splits key rows (i * limit)) (h : PagesFrom key rows limit (i * limit) pages) :
    pages.flatten.Perm (o.drop (i * limit)) ∧ pages.flatten.Pairwise fun a b => key b ≤ key a := by
  generalize hoffset : i * limit = offset at h
  induction h generalizing i with
  | done h =>
    obtain ⟨o', ho', hpage⟩ := h
    have hempty := congrArg List.length hpage.symm
    rw [List.length_take, List.length_drop, List.length_nil, ho'.perm.length_eq, ← ho.perm.length_eq] at hempty
    rw [List.drop_eq_nil_of_le (by omega)]
    exact ⟨.nil, .nil⟩
  | @more offset page pages h _ _ ih =>
    obtain ⟨o', ho', rfl⟩ := h
    subst hoffset
    have hnext : (i + 1) * limit = i * limit + limit := Nat.succ_mul i limit
    obtain ⟨hperm, hsorted⟩ := ih hnext
    have hpage := ho'.page_perm ho (hclean i) (hnext ▸ hclean (i + 1))
    rw [List.flatten_cons]
    constructor
    · have hrest : o.drop (i * limit) = (o.drop (i * limit)).take limit ++ o.drop (i * limit + limit) := by
        rw [← List.drop_drop, List.take_append_drop]
      rw [hrest]
      exact hpage.append hperm
    · refine List.pairwise_append.mpr ⟨?_, hsorted, fun a ha b hb => ?_⟩
      · exact (ho'.sorted.sublist (List.drop_sublist _ _)).sublist (List.take_sublist _ _)
      · have ha' : a ∈ o.take (i * limit + limit) := by
          rw [List.take_add]
          exact List.mem_append_right _ (hpage.subset ha)
        exact ho.pairwise_take_drop _ a ha' b (hperm.subset hb)

end Clean

section Tied

variable {key} {rows o : List α} {limit : ℕ}

lemma exists_paging (hlimit : 0 < limit) (ho : Ordered key rows o) (offset : ℕ) :
    ∃ pages, PagesFrom key rows limit offset pages := by
  induction hn : o.length - offset using Nat.strongRecOn generalizing offset with
  | _ n ih =>
    by_cases hpage : (o.drop offset).take limit = []
    · exact ⟨[], .done ⟨o, ho, hpage.symm⟩⟩
    · have hlt : offset < o.length := by
        by_contra hge
        rw [List.drop_eq_nil_of_le (by omega), List.take_nil] at hpage
        exact hpage rfl
      obtain ⟨pages, hpages⟩ := ih (o.length - (offset + limit)) (by omega) (offset + limit) rfl
      exact ⟨_ :: pages, .more ⟨o, ho, rfl⟩ hpage hpages⟩

lemma page_ne_nil (hlimit : 0 < limit) {n : ℕ} (hn : n < o.length) : (o.drop n).take limit ≠ [] := by
  intro hpage
  have hlength := congrArg List.length hpage
  rw [List.length_take, List.length_drop, List.length_nil] at hlength
  omega

lemma PagesFrom.extend (hlimit : 0 < limit) (ho : Ordered key rows o) {i : ℕ} (hi : i * limit < o.length)
    {pages : List (List α)} (h : PagesFrom key rows limit (i * limit) pages) :
    ∃ front, PagesFrom key rows limit 0 (front ++ pages) := by
  induction i generalizing pages with
  | zero => exact ⟨[], by simpa using h⟩
  | succ i ih =>
    rw [Nat.succ_mul] at hi h
    obtain ⟨front, hfront⟩ := ih (by omega) (.more ⟨o, ho, rfl⟩ (page_ne_nil hlimit (by omega)) h)
    exact ⟨front ++ [(o.drop (i * limit)).take limit], by simpa using hfront⟩

lemma getElem_mem_page {n m : ℕ} (hle : n ≤ m) (hlt : m < n + limit) (hm : m < o.length) :
    o[m] ∈ (o.drop n).take limit := by
  have hlength : m - n < ((o.drop n).take limit).length := by
    rw [List.length_take, List.length_drop]
    omega
  have hget : ((o.drop n).take limit)[m - n] = o[m] := by
    rw [List.getElem_take, List.getElem_drop]
    congr 1
    omega
  exact hget ▸ List.getElem_mem hlength

lemma Ordered.swap {n : ℕ} (ho : Ordered key rows o) (hn : n + 1 < o.length) (hkey : key o[n] = key o[n + 1]) :
    Ordered key rows (o.take n ++ o[n + 1] :: o[n] :: o.drop (n + 2)) := by
  have hsplit : o = o.take n ++ o[n] :: o[n + 1] :: o.drop (n + 2) := by
    rw [← List.drop_eq_getElem_cons, ← List.drop_eq_getElem_cons, List.take_append_drop]
  constructor
  · refine List.Perm.trans ?_ ho.perm
    conv_rhs => rw [hsplit]
    exact (List.Perm.swap _ _ _).append_left _
  · have hsorted := ho.sorted
    rw [hsplit] at hsorted
    simp only [List.pairwise_append, List.pairwise_cons, List.forall_mem_cons] at hsorted ⊢
    obtain ⟨htake, ⟨⟨-, hn₁⟩, hn₂, hdrop⟩, hcross⟩ := hsorted
    exact ⟨htake, ⟨⟨hkey.le, hn₂⟩, hn₁, hdrop⟩, fun a ha =>
      ⟨(hcross a ha).2.1, (hcross a ha).1, (hcross a ha).2.2⟩⟩

lemma exists_repeated (hlimit : 0 < limit) (hrows : rows.Nodup) {i : ℕ} (hsplits : Splits key rows (i * limit)) :
    ∃ pages, PagesFrom key rows limit 0 pages ∧ ¬ pages.flatten.Perm rows := by
  obtain ⟨o, ho⟩ := exists_ordered key rows
  obtain ⟨a, ha, hbefore, hthrough⟩ := hsplits
  obtain ⟨j, rfl⟩ : ∃ j, i = j + 1 := Nat.exists_eq_succ_of_ne_zero (by rintro rfl; simp at hbefore)
  rw [Nat.succ_mul] at hbefore hthrough
  obtain ⟨m, hm⟩ : ∃ m, m + 1 = j * limit + limit := ⟨j * limit + limit - 1, by omega⟩
  rw [← hm] at hbefore hthrough
  have hlt : m + 1 < o.length := by
    rw [ho.perm.length_eq]
    exact hthrough.trans_le List.countP_le_length
  have htied : ∀ n (hn : n < o.length), before key rows a ≤ n → n < through key rows a → key o[n] = key a := by
    intro n hn hle hlt
    refine le_antisymm (not_lt.mp fun h => ?_) ((ho.through_iff a hn).mpr hlt)
    exact absurd ((ho.before_iff a hn).mp h) (not_lt.mpr hle)
  have hkey : key o[m] = key o[m + 1] :=
    (htied m (by omega) (by omega) (by omega)).trans (htied (m + 1) hlt (by omega) hthrough).symm
  -- the last row of one page comes again as the first row of the next
  have hswap := ho.swap hlt hkey
  set o' := o.take m ++ o[m + 1] :: o[m] :: o.drop (m + 2) with ho'
  have hlength : o'.length = o.length := hswap.perm.length_eq.trans ho.perm.length_eq.symm
  have hlast : o[m] ∈ (o.drop (j * limit)).take limit := getElem_mem_page (by omega) (by omega) (by omega)
  have hlt' : m + 1 < o'.length := hlength ▸ hlt
  have hagain : o[m] ∈ (o'.drop (m + 1)).take limit := by
    have hget : o'[m + 1] = o[m] := by
      simp only [ho']
      rw [List.getElem_append_right (by simp)]
      simp [Nat.min_eq_left (by omega : m ≤ o.length)]
    exact hget ▸ getElem_mem_page le_rfl (by omega) hlt'
  obtain ⟨rest, hrest⟩ := exists_paging hlimit ho (m + 1 + limit)
  have hpages : PagesFrom key rows limit (m + 1) ((o'.drop (m + 1)).take limit :: rest) :=
    .more ⟨o', hswap, rfl⟩ (page_ne_nil hlimit (by omega)) hrest
  rw [hm] at hpages
  obtain ⟨front, hfront⟩ := PagesFrom.extend hlimit ho (by omega)
    (.more ⟨o, ho, rfl⟩ (page_ne_nil hlimit (by omega)) hpages)
  refine ⟨_, hfront, fun hperm => ?_⟩
  have hnodup := hperm.nodup_iff.mpr hrows
  simp only [List.flatten_append, List.flatten_cons] at hnodup
  have hapart := (List.nodup_append.mp (List.nodup_append.mp hnodup).2.1).2.2
  exact hapart _ hlast _ (List.mem_append_left _ (hm ▸ hagain)) rfl

end Tied

section Partition

variable {key} {rows : List α} {limit : ℕ}

theorem partition_iff (hlimit : 0 < limit) (hrows : rows.Nodup) : (∀ pages, PagesFrom key rows limit 0 pages →
      pages.flatten.Perm rows ∧ pages.flatten.Pairwise fun a b => key b ≤ key a) ↔ ∀ i,
        ¬ Splits key rows (i * limit) := by
  constructor
  · intro h i hsplits
    obtain ⟨pages, hpages, hnot⟩ := exists_repeated hlimit hrows hsplits
    exact hnot (h pages hpages).1
  · intro hclean pages hpages
    obtain ⟨o, ho⟩ := exists_ordered key rows
    obtain ⟨hperm, hsorted⟩ := PagesFrom.flatten (i := 0) hlimit ho hclean (by simpa using hpages)
    rw [Nat.zero_mul, List.drop_zero] at hperm
    exact ⟨hperm.trans ho.perm, hsorted⟩

lemma same_pages_iff (key : α → κ) (rows rows' : List α) :
    (∀ limit offset page, IsPage key rows limit offset page ↔ IsPage key rows' limit offset page) ↔
    rows.Perm rows' := by
  constructor
  · intro h
    obtain ⟨o, ho⟩ := exists_ordered key rows
    have hall : IsPage key rows (rows.length + rows'.length) 0 o :=
      ⟨o, ho, by rw [List.drop_zero, List.take_of_length_le (by rw [ho.perm.length_eq]; omega)]⟩
    obtain ⟨o', ho', hpage⟩ := (h _ _ _).mp hall
    rw [List.drop_zero, List.take_of_length_le (by rw [ho'.perm.length_eq]; omega)] at hpage
    exact ho.perm.symm.trans (hpage ▸ ho'.perm)
  · intro h limit offset page
    constructor
    · rintro ⟨o, ho, hpage⟩
      exact ⟨o, ⟨ho.perm.trans h, ho.sorted⟩, hpage⟩
    · rintro ⟨o, ho, hpage⟩
      exact ⟨o, ⟨ho.perm.trans h.symm, ho.sorted⟩, hpage⟩

end Partition

end ShadowProxy.Data.Paging

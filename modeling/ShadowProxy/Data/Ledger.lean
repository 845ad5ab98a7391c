import Mathlib.Data.List.Nodup
import Mathlib.Data.List.Perm.Basic
import Mathlib.Data.List.Perm.Lattice

/-! What has gone through a queue that is first in, first out, and may lose its oldest element. -/

namespace ShadowProxy.Data

variable {α : Type} [DecidableEq α]

/-- Everything accepted has been taken, is still in the queue, or has been evicted, each in its order. -/
structure Ledger (accepted evicted taken items : List α) : Prop where
  nodup : accepted.Nodup
  evicted_nodup : evicted.Nodup
  evicted_subset : evicted ⊆ accepted
  order : taken ++ items = accepted.filter fun a => a ∉ evicted

namespace Ledger

variable {accepted evicted taken items : List α} {a : α}

lemma nil : Ledger ([] : List α) [] [] [] := ⟨List.nodup_nil, List.nodup_nil, List.Subset.refl _, rfl⟩

lemma mem (h : Ledger accepted evicted taken items) : a ∈ taken ++ items ↔ a ∈ accepted ∧ a ∉ evicted := by
  rw [h.order, List.mem_filter, decide_eq_true_eq]

lemma put (h : Ledger accepted evicted taken items) (ha : a ∉ accepted) :
    Ledger (accepted ++ [a]) evicted taken (items ++ [a]) where
  nodup := List.nodup_append.mpr ⟨h.nodup, List.nodup_singleton a, fun b hb c hc he =>
    ha (List.mem_singleton.mp hc ▸ he ▸ hb)⟩
  evicted_nodup := h.evicted_nodup
  evicted_subset := fun b hb => List.mem_append_left _ (h.evicted_subset hb)
  order := by
    have hev : a ∉ evicted := fun he => ha (h.evicted_subset he)
    rw [← List.append_assoc, h.order, List.filter_append]
    simp [hev]

lemma take {l : List α} (h : Ledger accepted evicted taken (l ++ items)) :
    Ledger accepted evicted (taken ++ l) items where
  nodup := h.nodup
  evicted_nodup := h.evicted_nodup
  evicted_subset := h.evicted_subset
  order := by rw [List.append_assoc, h.order]

lemma taken_nodup (h : Ledger accepted evicted taken items) : (taken ++ items).Nodup := by
  rw [h.order]
  exact h.nodup.filter _

lemma evict (h : Ledger accepted evicted taken (a :: items)) : Ledger accepted (evicted ++ [a]) taken items where
  nodup := h.nodup
  evicted_nodup := by
    have hmem : a ∈ taken ++ a :: items := by simp
    refine List.nodup_append.mpr ⟨h.evicted_nodup, List.nodup_singleton a, fun b hb c hc he => ?_⟩
    obtain rfl := List.mem_singleton.mp hc
    exact (h.mem.mp hmem).2 (he ▸ hb)
  evicted_subset := by
    intro b hb
    rcases List.mem_append.mp hb with hb | hb
    · exact h.evicted_subset hb
    · obtain rfl := List.mem_singleton.mp hb
      exact (h.mem.mp (by simp)).1
  order := by
    have hnd := h.taken_nodup
    have hne : ∀ b ∈ taken ++ items, b ≠ a := by
      rintro b hb rfl
      rw [List.nodup_middle] at hnd
      exact (List.nodup_cons.mp hnd).1 hb
    have hsplit : (accepted.filter fun b => b ∉ evicted ++ [a]) = (taken ++ a :: items).filter fun b => b ≠ a := by
      rw [h.order, List.filter_filter]
      apply List.filter_congr
      intro b _
      by_cases hb : b = a <;> by_cases he : b ∈ evicted <;> simp [hb, he]
    rw [hsplit, List.filter_append, List.filter_cons_of_neg (by simp), ← List.filter_append]
    exact (List.filter_eq_self.mpr fun b hb => decide_eq_true (hne b hb)).symm

lemma perm (h : Ledger accepted evicted taken items) : accepted.Perm (taken ++ items ++ evicted) := by
  have hdisjoint : ∀ b ∈ taken ++ items, b ∉ evicted := fun b hb => (h.mem.mp hb).2
  refine (List.perm_ext_iff_of_nodup h.nodup ?_).mpr fun b => ?_
  · refine List.nodup_append.mpr ⟨h.taken_nodup, h.evicted_nodup, fun b hb c hc he => ?_⟩
    exact hdisjoint b hb (he ▸ hc)
  · rw [List.mem_append, h.mem]
    constructor
    · intro hb
      by_cases he : b ∈ evicted
      · exact .inr he
      · exact .inl ⟨hb, he⟩
    · rintro (hb | hb)
      · exact hb.1
      · exact h.evicted_subset hb

end Ledger

section Slots

variable {β : Type} {f : β → Option α} {l : List β} {i : ℕ} {b b' : β} {a : α}

omit [DecidableEq α]

lemma filterMap_set_some (h : l[i]? = some b) (hb : f b = none) (hb' : f b' = some a) :
    ((l.set i b').filterMap f).Perm (a :: l.filterMap f) := by
  induction l generalizing i with
  | nil => simp at h
  | cons c l ih =>
    cases i with
    | zero =>
      simp only [List.getElem?_cons_zero, Option.some.injEq] at h
      subst h
      simp [hb, hb']
    | succ i =>
      simp only [List.getElem?_cons_succ] at h
      cases hc : f c with
      | none => simpa [hc] using ih h
      | some d =>
        simp only [List.set_cons_succ, List.filterMap_cons, hc]
        exact ((ih h).cons d).trans (List.Perm.swap a d _)

lemma filterMap_set_none (h : l[i]? = some b) (hb : f b = some a) (hb' : f b' = none) :
    (l.filterMap f).Perm (a :: (l.set i b').filterMap f) := by
  obtain ⟨hlt, hget⟩ := List.getElem?_eq_some_iff.mp h
  have hset : (l.set i b')[i]? = some b' := by simp [hlt]
  have hback := filterMap_set_some hset hb' hb
  have hid : (l.set i b').set i b = l := by
    rw [List.set_set, ← hget, List.set_getElem_self]
  rwa [hid] at hback

lemma filterMap_set_same (h : l[i]? = some b) (hb : f b' = f b) : (l.set i b').filterMap f = l.filterMap f := by
  induction l generalizing i with
  | nil => simp at h
  | cons c l ih =>
    cases i with
    | zero =>
      simp only [List.getElem?_cons_zero, Option.some.injEq] at h
      subst h
      simp [List.filterMap_cons, hb]
    | succ i =>
      simp only [List.getElem?_cons_succ] at h
      simp only [List.set_cons_succ, List.filterMap_cons, ih h]

end Slots

end ShadowProxy.Data

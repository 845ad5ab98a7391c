import Mathlib.Data.List.Basic

/-! Tables: lists of records that are looked up and updated by a key. -/

namespace ShadowProxy.Data.Table

variable {α κ : Type} [DecidableEq κ] (key : α → κ)

def lookup (k : κ) (t : List α) : Option α := t.find? fun a => key a = k

def modify (k : κ) (f : α → α) (t : List α) : List α := t.map fun a => if key a = k then f a else a

variable {key}

lemma mem_of_lookup {k : κ} {t : List α} {a : α} (h : lookup key k t = some a) : a ∈ t ∧ key a = k :=
  ⟨List.mem_of_find?_eq_some h, by simpa using List.find?_some h⟩

lemma lookup_eq_none {k : κ} {t : List α} : lookup key k t = none ↔ ∀ a ∈ t, key a ≠ k := by
  simp [lookup]

lemma lookup_of_mem {t : List α} (hn : (t.map key).Nodup) {a : α} (h : a ∈ t) :
    lookup key (key a) t = some a := by
  induction t with
  | nil => cases h
  | cons b t ih =>
    simp only [List.map_cons, List.nodup_cons] at hn
    rcases List.mem_cons.mp h with rfl | h
    · simp [lookup]
    · have hne : key b ≠ key a := fun he => hn.1 (he ▸ List.mem_map_of_mem h)
      have hl := ih hn.2 h
      simp only [lookup] at hl ⊢
      rw [List.find?_cons_of_neg (by simpa using hne), hl]

lemma lookup_append (k : κ) (t : List α) (a : α) :
    lookup key k (t ++ [a]) = (lookup key k t).or (if key a = k then some a else none) := by
  by_cases h : key a = k <;> simp [lookup, List.find?_append, h]

lemma lookup_append_of_some {k : κ} {t : List α} {b : α} (h : lookup key k t = some b) (a : α) :
    lookup key k (t ++ [a]) = some b := by
  simp [lookup_append, h]

lemma lookup_filter (p : κ → Bool) (k : κ) (t : List α) :
    lookup key k (t.filter fun a => p (key a)) = if p k then lookup key k t else none := by
  induction t with
  | nil => simp [lookup]
  | cons a t ih =>
    by_cases hk : key a = k
    · subst hk
      cases hp : p (key a) with
      | true => simp [lookup, hp]
      | false => simpa [hp] using ih
    · cases hp : p (key a) with
      | true => simpa [lookup, hp, hk] using ih
      | false => simpa [lookup, hp, hk] using ih

variable {f : α → α} (hf : ∀ a, key (f a) = key a)

include hf

lemma lookup_modify_self (k : κ) (t : List α) :
    lookup key k (modify key k f t) = (lookup key k t).map f := by
  induction t with
  | nil => rfl
  | cons a t ih =>
    by_cases h : key a = k
    · simp [lookup, modify, h, hf]
    · simpa [lookup, modify, h] using ih

lemma lookup_modify_ne {k k' : κ} (h : k' ≠ k) (t : List α) :
    lookup key k' (modify key k f t) = lookup key k' t := by
  induction t with
  | nil => rfl
  | cons a t ih =>
    by_cases hk : key a = k
    · have hne : key a ≠ k' := fun he => h (he.symm.trans hk)
      simpa [lookup, modify, hk, hf, Ne.symm h] using ih
    · by_cases hk' : key a = k'
      · simp [lookup, modify, hk', h]
      · simpa [lookup, modify, hk, hk'] using ih

lemma map_key_modify (k : κ) (t : List α) : (modify key k f t).map key = t.map key := by
  induction t with
  | nil => rfl
  | cons a t ih =>
    by_cases h : key a = k <;> simpa [modify, h, hf] using ih

lemma modify_filter (p : κ → Bool) (k : κ) (t : List α) :
    modify key k f (t.filter fun a => p (key a)) = (modify key k f t).filter fun a => p (key a) := by
  have hkey : ∀ a, key (if key a = k then f a else a) = key a := fun a => by
    split
    · exact hf a
    · rfl
  simp only [modify, List.filter_map, Function.comp_def, hkey]

lemma foldl_modify {ks : List κ} (hn : ks.Nodup) (t : List α) :
    ks.foldl (fun t k => modify key k f t) t = t.map fun a => if key a ∈ ks then f a else a := by
  induction ks generalizing t with
  | nil => simp
  | cons k ks ih =>
    rw [List.nodup_cons] at hn
    rw [List.foldl_cons, ih hn.2, modify, List.map_map]
    refine List.map_congr_left fun a _ => ?_
    by_cases hk : key a = k
    · simp [hk, hf, hn.1]
    · simp [hk]

omit hf in
lemma modify_of_lookup_none {k : κ} {t : List α} (h : lookup key k t = none) : modify key k f t = t := by
  rw [lookup_eq_none] at h
  refine (List.map_congr_left fun a ha => ?_).trans (List.map_id t)
  exact if_neg (h a ha)

omit hf in
lemma countP_modify {k : κ} {t : List α} (hn : (t.map key).Nodup) {a : α} (ha : lookup key k t = some a)
    (p : α → Bool) : (modify key k f t).countP p + (p a).toNat = t.countP p + (p (f a)).toNat := by
  induction t with
  | nil => cases ha
  | cons b t ih =>
    rw [List.map_cons, List.nodup_cons] at hn
    by_cases hb : key b = k
    · have hnone : lookup key k t = none := lookup_eq_none.mpr fun c hc he =>
        hn.1 (hb.trans he.symm ▸ List.mem_map_of_mem hc)
      obtain rfl : b = a := by simpa [lookup, hb] using ha
      have hrest := modify_of_lookup_none (f := f) hnone
      rw [modify] at hrest ⊢
      rw [List.map_cons, hrest, if_pos hb, List.countP_cons, List.countP_cons]
      cases p b <;> cases p (f b) <;> simp
    · have ha' : lookup key k t = some a := by simpa [lookup, hb] using ha
      have hrest := ih hn.2 ha'
      rw [modify] at hrest ⊢
      rw [List.map_cons, if_neg hb, List.countP_cons, List.countP_cons]
      omega

end ShadowProxy.Data.Table

import Mathlib.Data.List.Forall2
import Mathlib.Data.List.Infix

/-! Regular expressions that are rows of character classes, and leftmost substitution for them. -/

namespace ShadowProxy.Data

/-- A class of characters, taken once or as often as it can be. -/
structure Piece (α : Type) where
  accepts : α → Bool
  repeats : Bool := false

namespace Piece

variable {α : Type}

inductive Matches : List (Piece α) → List α → Prop
  | nil : Matches [] []
  | last {k : Piece α} {ks : List (Piece α)} {x : α} {w : List α} : k.accepts x = true → Matches ks w →
      Matches (k :: ks) (x :: w)
  | again {k : Piece α} {ks : List (Piece α)} {x : α} {w : List α} : k.repeats = true → k.accepts x = true →
      Matches (k :: ks) w → Matches (k :: ks) (x :: w)

def after : List (Piece α) → List α → Option (List α)
  | [], s => some s
  | _ :: _, [] => none
  | k :: ks, x :: s =>
    if k.accepts x then if k.repeats then (after (k :: ks) s).or (after ks s) else after ks s
    else none

lemma after_sound {ks : List (Piece α)} {s t : List α} (h : after ks s = some t) :
    ∃ w, Matches ks w ∧ s = w ++ t := by
  fun_induction after ks s with
  | case1 s => exact ⟨[], .nil, Option.some.inj h⟩
  | case2 => cases h
  | case3 k ks x s haccepts hrepeats ihagain ihlast =>
    rcases Option.or_eq_some_iff.mp h with h | ⟨-, h⟩
    · obtain ⟨w, hw, rfl⟩ := ihagain h
      exact ⟨x :: w, .again hrepeats haccepts hw, rfl⟩
    · obtain ⟨w, hw, rfl⟩ := ihlast h
      exact ⟨x :: w, .last haccepts hw, rfl⟩
  | case4 k ks x s haccepts _ ih =>
    obtain ⟨w, hw, rfl⟩ := ih h
    exact ⟨x :: w, .last haccepts hw, rfl⟩
  | case5 => cases h

lemma after_complete {ks : List (Piece α)} {w : List α} (h : Matches ks w) (t : List α) :
    (after ks (w ++ t)).isSome = true := by
  induction h with
  | nil => simp [after]
  | @last k ks x w haccepts _ ih =>
    rw [List.cons_append, after, if_pos haccepts]
    split
    · rw [Option.isSome_or, ih, Bool.or_true]
    · exact ih
  | again hrepeats haccepts _ ih =>
    rw [List.cons_append, after, if_pos haccepts, if_pos hrepeats, Option.isSome_or, ih, Bool.true_or]

lemma Matches.accepted {ks : List (Piece α)} {w : List α} (h : Matches ks w) :
    ∀ x ∈ w, ∃ k ∈ ks, k.accepts x = true := by
  induction h with
  | nil => exact fun x hx => (List.not_mem_nil hx).elim
  | last haccepts _ ih =>
    refine List.forall_mem_cons.mpr ⟨⟨_, List.mem_cons_self, haccepts⟩, fun x hx => ?_⟩
    obtain ⟨k, hk, hx⟩ := ih x hx
    exact ⟨k, List.mem_cons_of_mem _ hk, hx⟩
  | again _ haccepts _ ih => exact List.forall_mem_cons.mpr ⟨⟨_, List.mem_cons_self, haccepts⟩, ih⟩

lemma Matches.alike {ks : List (Piece α)} {w w' : List α} (h : Matches ks w)
    (halike : List.Forall₂ (fun x y => ∀ k ∈ ks, k.accepts x = k.accepts y) w w') : Matches ks w' := by
  induction h generalizing w' with
  | nil =>
    cases halike
    exact .nil
  | last haccepts _ ih =>
    cases halike with
    | cons hx hw =>
      refine .last ((hx _ List.mem_cons_self).symm.trans haccepts) (ih (hw.imp fun x y h k hk => ?_))
      exact h k (List.mem_cons_of_mem _ hk)
  | again hrepeats haccepts _ ih =>
    cases halike with
    | cons hx hw => exact .again hrepeats ((hx _ List.mem_cons_self).symm.trans haccepts) (ih hw)

lemma Matches.cons {k : Piece α} {ks : List (Piece α)} {w : List α} (h : Matches (k :: ks) w) :
    ∃ x v, w = x :: v ∧ k.accepts x = true ∧ (k.repeats = false → Matches ks v) := by
  cases h with
  | last haccepts hv => exact ⟨_, _, rfl, haccepts, fun _ => hv⟩
  | again hrepeats haccepts hv => exact ⟨_, _, rfl, haccepts, fun h => absurd (hrepeats.symm.trans h) (by decide)⟩

inductive Begins (R : α → α → Prop) : List α → List (Piece α) → Prop
  | nil {ks : List (Piece α)} : Begins R [] ks
  | last {x : α} {k : Piece α} {ks : List (Piece α)} : (∀ y, k.accepts y = true → R x y) → Begins R [x] (k :: ks)
  | cons {x : α} {xs : List α} {k : Piece α} {ks : List (Piece α)} : k.repeats = false →
      (∀ y, k.accepts y = true → R x y) → Begins R xs ks → Begins R (x :: xs) (k :: ks)

lemma Begins.exists_front {R : α → α → Prop} {xs : List α} {ks : List (Piece α)} (h : Begins R xs ks) {w : List α}
    (hw : Matches ks w) : ∃ u, u <+: w ∧ List.Forall₂ R xs u := by
  induction h generalizing w with
  | nil => exact ⟨[], List.nil_prefix, .nil⟩
  | last hR =>
    obtain ⟨y, v, rfl, haccepts, -⟩ := hw.cons
    exact ⟨[y], ⟨v, rfl⟩, .cons (hR y haccepts) .nil⟩
  | cons hrepeats hR _ ih =>
    obtain ⟨y, v, rfl, haccepts, hrest⟩ := hw.cons
    obtain ⟨u, hu, halike⟩ := ih (hrest hrepeats)
    exact ⟨y :: u, List.cons_prefix_cons.mpr ⟨rfl, hu⟩, .cons (hR y haccepts) halike⟩

end Piece

structure Pattern (α : Type) where
  first : Piece α
  rest : List (Piece α)

namespace Pattern

variable {α : Type} (p q : Pattern α)

def pieces : List (Piece α) := p.first :: p.rest

def Matches (w : List α) : Prop := Piece.Matches p.pieces w

def Occurs (s : List α) : Prop := ∃ w, p.Matches w ∧ w <:+: s

def OccursInFront (s : List α) : Prop := ∃ w, p.Matches w ∧ w <+: s

def Reads (x : α) : Prop := ∃ k ∈ p.pieces, k.accepts x = true

def Alike (x y : α) : Prop := ∀ k ∈ p.pieces, k.accepts x = k.accepts y

lemma after_length_lt {p : Pattern α} {s t : List α} (h : Piece.after p.pieces s = some t) :
    t.length < s.length := by
  obtain ⟨w, hw, rfl⟩ := Piece.after_sound h
  obtain ⟨x, v, rfl, -, -⟩ := hw.cons
  rw [List.length_append, List.length_cons]
  omega

/-- `re.sub` -/
def sub (r : List α) : List α → List α
  | [] => []
  | x :: s =>
    match _h : Piece.after p.pieces (x :: s) with
    | some t => r ++ sub r t
    | none => x :: sub r s
termination_by s => s.length
decreasing_by
  · exact after_length_lt _h
  · exact Nat.lt_succ_self _

variable {p q} {s t r : List α}

lemma not_occurs_nil : ¬ p.Occurs [] := by
  rintro ⟨w, hw, hinfix⟩
  obtain ⟨x, v, rfl, -, -⟩ := hw.cons
  exact List.cons_ne_nil _ _ (List.infix_nil.mp hinfix)

lemma occurs_cons {x : α} : p.Occurs (x :: s) ↔ p.OccursInFront (x :: s) ∨ p.Occurs s := by
  simp only [Occurs, OccursInFront, List.infix_cons_iff, and_or_left, exists_or]

lemma Occurs.mono (h : p.Occurs s) (hst : s <:+: t) : p.Occurs t := by
  obtain ⟨w, hw, hws⟩ := h
  exact ⟨w, hw, hws.trans hst⟩

lemma OccursInFront.occurs (h : p.OccursInFront s) : p.Occurs s := by
  obtain ⟨w, hw, hws⟩ := h
  exact ⟨w, hw, hws.isInfix⟩

lemma not_occursInFront_of_after (h : Piece.after p.pieces s = none) : ¬ p.OccursInFront s := by
  rintro ⟨w, hw, t, rfl⟩
  simpa [h] using Piece.after_complete hw t

lemma sub_eq_self (h : ¬ p.Occurs s) : p.sub r s = s := by
  fun_induction sub p r s with
  | case1 => rfl
  | case2 x s t hafter =>
    obtain ⟨w, hw, hs⟩ := Piece.after_sound hafter
    exact (h ⟨w, hw, hs ▸ (List.prefix_append w t).isInfix⟩).elim
  | case3 x s hafter ih => rw [ih fun hs => h (occurs_cons.mpr (.inr hs))]

section Stop

variable {w a b : List α} {stop : α}

lemma prefix_of_not_mem (hstop : stop ∉ w) (h : w <+: a ++ stop :: b) : w <+: a := by
  have hfront : a ++ [stop] <+: a ++ stop :: b := ⟨b, by simp⟩
  rcases List.prefix_or_prefix_of_prefix h hfront with h | h
  · rcases List.prefix_concat_iff.mp h with rfl | h
    · simp at hstop
    · exact h
  · exact (hstop (h.subset (by simp))).elim

lemma infix_of_not_mem (hstop : stop ∉ w) (h : w <:+: a ++ stop :: b) : w <:+: a ∨ w <:+: b := by
  induction a with
  | nil =>
    rcases List.infix_cons_iff.mp h with h | h
    · exact .inl (prefix_of_not_mem (a := []) hstop h).isInfix
    · exact .inr h
  | cons x a ih =>
    rcases List.infix_cons_iff.mp h with h | h
    · exact .inl (prefix_of_not_mem (a := x :: a) hstop h).isInfix
    · exact (ih h).imp_left fun h => List.infix_cons h

end Stop

lemma not_occurs_of_tails (h : s.tails.all (fun t => (Piece.after p.pieces t).isNone) = true) : ¬ p.Occurs s := by
  induction s with
  | nil => exact not_occurs_nil
  | cons x s ih =>
    rw [List.tails_cons, List.all_cons, Bool.and_eq_true] at h
    rintro hoccurs
    rcases occurs_cons.mp hoccurs with hfront | hs
    · exact not_occursInFront_of_after (Option.isNone_iff_eq_none.mp h.1) hfront
    · exact ih h.2 hs

lemma not_reads_of_all {x : α} (h : (p.pieces.all fun k => !k.accepts x) = true) : ¬ p.Reads x := by
  rintro ⟨k, hk, haccepts⟩
  simpa [haccepts] using List.all_eq_true.mp h k hk

lemma alike_of_all {x y : α} (h : (p.pieces.all fun k => k.accepts x == k.accepts y) = true) : p.Alike x y :=
  fun k hk => beq_iff_eq.mp (List.all_eq_true.mp h k hk)

lemma Matches.not_mem {w : List α} {x : α} (hw : p.Matches w) (hx : ¬ p.Reads x) : x ∉ w :=
  fun h => hx (Piece.Matches.accepted hw x h)

/-- A text in place of the matches of one pattern that no match of another pattern can lead out of. Its head
may be read together with what is before it, but then the match it replaces could be as well. -/
structure Mask (p q : Pattern α) where
  head : List α
  opening : α
  body : List α
  closing : α
  opening_unread : ¬ q.Reads opening
  closing_unread : ¬ q.Reads closing
  head_alike : ∀ w, p.Matches w → ∃ u, u <+: w ∧ List.Forall₂ q.Alike head u
  not_occurs : ¬ q.Occurs (head ++ opening :: (body ++ [closing]))

namespace Mask

def text (mask : Mask p q) : List α := mask.head ++ mask.opening :: (mask.body ++ [mask.closing])

variable (mask : Mask p q)

lemma alike_front {u : List α} (hread : ∀ x ∈ u, q.Reads x) (h : u <+: p.sub mask.text s) :
    ∃ v, v <+: s ∧ List.Forall₂ q.Alike u v := by
  fun_induction sub p mask.text s generalizing u with
  | case1 =>
    obtain rfl := List.prefix_nil.mp h
    exact ⟨[], List.nil_prefix, .nil⟩
  | case2 x s t hafter =>
    obtain ⟨w, hw, hs⟩ := Piece.after_sound hafter
    obtain ⟨v, hv, halike⟩ := mask.head_alike w hw
    have hhead : u <+: mask.head := by
      rw [text, List.append_assoc, List.cons_append] at h
      exact prefix_of_not_mem (fun hx => mask.opening_unread (hread _ hx)) h
    refine ⟨v.take u.length, ?_, ?_⟩
    · rw [hs]
      exact ((List.take_prefix _ _).trans hv).trans (List.prefix_append w t)
    · have htake := List.forall₂_take u.length halike
      rwa [← List.prefix_iff_eq_take.mp hhead] at htake
  | case3 x s hafter ih =>
    cases u with
    | nil => exact ⟨[], List.nil_prefix, .nil⟩
    | cons y u =>
      obtain ⟨rfl, hu⟩ := List.cons_prefix_cons.mp h
      obtain ⟨v, hv, halike⟩ := ih (fun x hx => hread x (List.mem_cons_of_mem _ hx)) hu
      exact ⟨y :: v, List.cons_prefix_cons.mpr ⟨rfl, hv⟩, .cons (fun k hk => rfl) halike⟩

lemma not_occurs_sub (hskip : ∀ t, t <:+ s → Piece.after p.pieces t = none → ¬ q.OccursInFront t) :
    ¬ q.Occurs (p.sub mask.text s) := by
  fun_induction sub p mask.text s with
  | case1 => exact not_occurs_nil
  | case2 x s t hafter ih =>
    rintro ⟨w, hw, hinfix⟩
    have hsplit : mask.text ++ p.sub mask.text t =
        (mask.head ++ mask.opening :: mask.body) ++ mask.closing :: p.sub mask.text t := by simp [text]
    rw [hsplit] at hinfix
    rcases infix_of_not_mem (hw.not_mem mask.closing_unread) hinfix with h | h
    · refine mask.not_occurs ⟨w, hw, h.trans ⟨[], [mask.closing], by simp⟩⟩
    · refine ih (fun t' ht' => hskip t' ?_) ⟨w, hw, h⟩
      obtain ⟨v, -, hs⟩ := Piece.after_sound hafter
      exact ht'.trans (hs ▸ List.suffix_append v t)
  | case3 x s hafter ih =>
    intro hoccurs
    rcases occurs_cons.mp hoccurs with ⟨w, hw, hprefix⟩ | hs
    · have hfront : w <+: p.sub mask.text (x :: s) := by
        rw [sub, hafter]
        exact hprefix
      obtain ⟨v, hv, halike⟩ := mask.alike_front (Piece.Matches.accepted hw) hfront
      exact hskip _ (List.suffix_refl _) hafter ⟨v, Piece.Matches.alike hw halike, hv⟩
    · exact ih (fun t ht => hskip t (ht.trans (List.suffix_cons x s))) hs

theorem not_occurs_self (mask : Mask p p) (s : List α) : ¬ p.Occurs (p.sub mask.text s) :=
  mask.not_occurs_sub fun _ _ hafter => not_occursInFront_of_after hafter

theorem not_occurs_other (h : ¬ q.Occurs s) : ¬ q.Occurs (p.sub mask.text s) :=
  mask.not_occurs_sub fun _ ht _ hfront => h (hfront.occurs.mono ht.isInfix)

end Mask

end Pattern

end ShadowProxy.Data

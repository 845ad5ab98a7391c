import ShadowProxy.Data.Pattern
import ShadowProxy.Evaluator

/-! What is masked in a value before it is logged. -/

namespace ShadowProxy

open Data

inductive Loggable (κ α : Type) where
  | str (s : Str)
  | dict (items : List (κ × Loggable κ α))
  | list (xs : List (Loggable κ α))
  | other (a : α)

lemma Loggable.induct {κ α : Type} {P : Loggable κ α → Prop} (str : ∀ s, P (.str s))
    (dict : ∀ items, (∀ m ∈ items, P m.2) → P (.dict items)) (list : ∀ xs, (∀ x ∈ xs, P x) → P (.list xs))
    (other : ∀ a, P (.other a)) (v : Loggable κ α) : P v :=
  Loggable.rec str dict list other (by simp) (fun _ _ hm hms => List.forall_mem_cons.mpr ⟨hm, hms⟩) (by simp)
    (fun _ _ hx hxs => List.forall_mem_cons.mpr ⟨hx, hxs⟩) (fun _ _ hx => hx) v

namespace Redact

variable (alnum : Char → Bool)

/-- `\w`: what else than ASCII is alphanumeric is left to the tables of Unicode. -/
def word (c : Char) : Bool := c.isAlphanum || c == '_' || (decide (128 ≤ c.toNat) && alnum c)

def char (x : Char) : Piece Char where
  accepts c := c == x

def oneOrMore (accepts : Char → Bool) : Piece Char where
  accepts := accepts
  repeats := true

/-- A letter under `(?i)`, of those that have no case variant outside of ASCII. -/
def letter (x : Char) : Piece Char where
  accepts c := c == x || c == x.toUpper

/-- `[a-z0-9\-_\.]` under `(?i)` -/
def token (c : Char) : Bool :=
  c.isAlphanum || c == '-' || c == '_' || c == '.' || c == 'İ' || c == 'ı' || c == 'ſ' || c == '\u212A'

/-- `[\w.+-]+@[\w-]+\.[\w.-]+` -/
def emailRe : Pattern Char where
  first := oneOrMore fun c => word alnum c || c == '.' || c == '+' || c == '-'
  rest := [char '@', oneOrMore fun c => word alnum c || c == '-', char '.',
    oneOrMore fun c => word alnum c || c == '.' || c == '-']

/-- `(?i)bearer\s+[a-z0-9\-_\.]+` -/
def bearerRe : Pattern Char where
  first := letter 'b'
  rest := [letter 'e', letter 'a', letter 'r', letter 'e', letter 'r', oneOrMore isSpace, oneOrMore token]

def redactStr (s : Str) : Str := bearerRe.sub "Bearer [REDACTED]" ((emailRe alnum).sub "[REDACTED_EMAIL]" s)

variable {κ α : Type}

mutual

def redact : Loggable κ α → Loggable κ α
  | .str s => .str (redactStr alnum s)
  | .dict items => .dict (redactItems items)
  | .list xs => .list (redactList xs)
  | .other a => .other a

def redactItems : List (κ × Loggable κ α) → List (κ × Loggable κ α)
  | [] => []
  | (k, v) :: items => (k, redact v) :: redactItems items

def redactList : List (Loggable κ α) → List (Loggable κ α)
  | [] => []
  | v :: xs => redact v :: redactList xs

end

mutual

def strings : Loggable κ α → List Str
  | .str s => [s]
  | .dict items => stringsItems items
  | .list xs => stringsList xs
  | .other _ => []

def stringsItems : List (κ × Loggable κ α) → List Str
  | [] => []
  | (_, v) :: items => strings v ++ stringsItems items

def stringsList : List (Loggable κ α) → List Str
  | [] => []
  | v :: xs => strings v ++ stringsList xs

end

mutual

def shape : Loggable κ α → Loggable κ α
  | .str _ => .str []
  | .dict items => .dict (shapeItems items)
  | .list xs => .list (shapeList xs)
  | .other a => .other a

def shapeItems : List (κ × Loggable κ α) → List (κ × Loggable κ α)
  | [] => []
  | (k, v) :: items => (k, shape v) :: shapeItems items

def shapeList : List (Loggable κ α) → List (Loggable κ α)
  | [] => []
  | v :: xs => shape v :: shapeList xs

end

variable {alnum}

section Bearer

variable {q : Pattern Char}

lemma bearer_begins
    (h : ("bear".toList.all fun x => q.pieces.all fun k => k.accepts x == k.accepts x.toUpper) = true) {s : Str}
    (hs : Piece.Begins q.Alike s [oneOrMore isSpace, oneOrMore token]) :
    Piece.Begins q.Alike ("Bearer".toList ++ s) bearerRe.pieces := by
  have hletter : ∀ x ∈ "bear".toList, ∀ y, (letter x).accepts y = true → q.Alike x y ∧ q.Alike x.toUpper y := by
    intro x hx y hy
    have hcase : q.Alike x x.toUpper := Pattern.alike_of_all (List.all_eq_true.mp h x hx)
    obtain rfl | rfl : y = x ∨ y = x.toUpper := by simpa [letter] using hy
    · exact ⟨fun k _ => rfl, fun k hk => (hcase k hk).symm⟩
    · exact ⟨hcase, fun k _ => rfl⟩
  refine .cons rfl (fun y hy => (hletter 'b' (by decide) y hy).2) ?_
  refine .cons rfl (fun y hy => (hletter 'e' (by decide) y hy).1) ?_
  refine .cons rfl (fun y hy => (hletter 'a' (by decide) y hy).1) ?_
  refine .cons rfl (fun y hy => (hletter 'r' (by decide) y hy).1) ?_
  refine .cons rfl (fun y hy => (hletter 'e' (by decide) y hy).1) ?_
  exact .cons rfl (fun y hy => (hletter 'r' (by decide) y hy).1) hs

lemma ne_of_isSpace {x c : Char} (hx : isSpace x = false) (hc : isSpace c = true) : (c == x) = false := by
  apply beq_false_of_ne
  rintro rfl
  exact absurd (hx.symm.trans hc) (by decide)

lemma isAlphanum_of_isSpace {c : Char} (hc : isSpace c = true) : c.isAlphanum = false := by
  refine Bool.eq_false_iff.mpr fun halnum => ?_
  have hranges : ((decide ('A'.val ≤ c.val ∧ c.val ≤ 'Z'.val) || ('a'.val ≤ c.val && c.val ≤ 'z'.val)) ||
      ('0'.val ≤ c.val && c.val ≤ '9'.val)) = true := halnum
  simp only [Bool.or_eq_true, Bool.and_eq_true, decide_eq_true_eq, UInt32.le_iff_toNat_le] at hranges
  change ((65 ≤ c.toNat ∧ c.toNat ≤ 90) ∨ (97 ≤ c.toNat ∧ c.toNat ≤ 122)) ∨
    (48 ≤ c.toNat ∧ c.toNat ≤ 57) at hranges
  simp only [isSpace, Bool.or_eq_true, Bool.and_eq_true, decide_eq_true_eq] at hc
  omega

lemma token_of_isSpace {c : Char} (hc : isSpace c = true) : token c = false := by
  simp only [token, isAlphanum_of_isSpace hc, Bool.false_or, Bool.or_eq_false_iff]
  refine ⟨⟨⟨⟨⟨⟨?_, ?_⟩, ?_⟩, ?_⟩, ?_⟩, ?_⟩, ?_⟩ <;> exact ne_of_isSpace (by decide) hc

lemma space_alike {c : Char} (hc : isSpace c = true) : bearerRe.Alike ' ' c := by
  have hletter : ∀ x, isSpace x = false → isSpace x.toUpper = false →
      (letter x).accepts ' ' = (letter x).accepts c := by
    intro x hx hupper
    simp only [letter, ne_of_isSpace hx hc, ne_of_isSpace hupper hc, ne_of_isSpace hx (c := ' ') rfl,
      ne_of_isSpace hupper (c := ' ') rfl]
  simp only [Pattern.Alike, Pattern.pieces, bearerRe, List.forall_mem_cons, List.not_mem_nil, false_imp_iff]
  refine ⟨hletter 'b' ?_ ?_, hletter 'e' ?_ ?_, hletter 'a' ?_ ?_, hletter 'r' ?_ ?_, hletter 'e' ?_ ?_,
    hletter 'r' ?_ ?_, hc.symm, (token_of_isSpace hc).symm, fun _ => trivial⟩ <;> decide

end Bearer

/-- No part of an address goes on into or over the text in its place. -/
def emailMask : Pattern.Mask (emailRe alnum) (emailRe alnum) where
  head := []
  opening := '['
  body := "REDACTED_EMAIL"
  closing := ']'
  opening_unread := Pattern.not_reads_of_all rfl
  closing_unread := Pattern.not_reads_of_all rfl
  head_alike _ _ := ⟨[], List.nil_prefix, .nil⟩
  not_occurs := Pattern.not_occurs_of_tails rfl

/-- `Bearer` may be the end of an address, but then any spelling of it could be. -/
def bearerMaskEmail : Pattern.Mask bearerRe (emailRe alnum) where
  head := "Bearer"
  opening := ' '
  body := "[REDACTED"
  closing := ']'
  opening_unread := Pattern.not_reads_of_all rfl
  closing_unread := Pattern.not_reads_of_all rfl
  head_alike _ hw := (bearer_begins rfl .nil).exists_front hw
  not_occurs := Pattern.not_occurs_of_tails rfl

def bearerMask : Pattern.Mask bearerRe bearerRe where
  head := "Bearer "
  opening := '['
  body := "REDACTED"
  closing := ']'
  opening_unread := Pattern.not_reads_of_all rfl
  closing_unread := Pattern.not_reads_of_all rfl
  head_alike _ hw := (bearer_begins rfl (.last fun _ hc => space_alike hc)).exists_front hw
  not_occurs := Pattern.not_occurs_of_tails rfl

lemma not_occurs_redactStr (alnum : Char → Bool) (s : Str) :
    ¬ (emailRe alnum).Occurs (redactStr alnum s) ∧ ¬ bearerRe.Occurs (redactStr alnum s) :=
  ⟨bearerMaskEmail.not_occurs_other (emailMask.not_occurs_self s), bearerMask.not_occurs_self _⟩

lemma redactStr_redactStr (s : Str) : redactStr alnum (redactStr alnum s) = redactStr alnum s := by
  obtain ⟨hemail, hbearer⟩ := not_occurs_redactStr alnum s
  rw [redactStr, Pattern.sub_eq_self hemail, Pattern.sub_eq_self hbearer]

lemma redactItems_eq (items : List (κ × Loggable κ α)) :
    redactItems alnum items = items.map fun m => (m.1, redact alnum m.2) := by
  induction items with
  | nil => rfl
  | cons m items ih => rw [redactItems, ih, List.map_cons]

lemma redactList_eq (xs : List (Loggable κ α)) : redactList alnum xs = xs.map (redact alnum) := by
  induction xs with
  | nil => rfl
  | cons x xs ih => rw [redactList, ih, List.map_cons]

lemma stringsItems_eq (items : List (κ × Loggable κ α)) :
    stringsItems items = items.flatMap fun m => strings m.2 := by
  induction items with
  | nil => rfl
  | cons m items ih => rw [stringsItems, ih, List.flatMap_cons]

lemma stringsList_eq (xs : List (Loggable κ α)) : stringsList xs = xs.flatMap strings := by
  induction xs with
  | nil => rfl
  | cons x xs ih => rw [stringsList, ih, List.flatMap_cons]

lemma shapeItems_eq (items : List (κ × Loggable κ α)) :
    shapeItems items = items.map fun m => (m.1, shape m.2) := by
  induction items with
  | nil => rfl
  | cons m items ih => rw [shapeItems, ih, List.map_cons]

lemma shapeList_eq (xs : List (Loggable κ α)) : shapeList xs = xs.map shape := by
  induction xs with
  | nil => rfl
  | cons x xs ih => rw [shapeList, ih, List.map_cons]

variable (v : Loggable κ α)

lemma strings_redact : strings (redact alnum v) = (strings v).map (redactStr alnum) := by
  induction v using Loggable.induct with
  | str s => rfl
  | dict items ih =>
    rw [redact, strings, strings, redactItems_eq, stringsItems_eq, stringsItems_eq, List.flatMap_map,
      List.map_flatMap]
    exact List.flatMap_congr ih
  | list xs ih =>
    rw [redact, strings, strings, redactList_eq, stringsList_eq, stringsList_eq, List.flatMap_map,
      List.map_flatMap]
    exact List.flatMap_congr ih
  | other a => rfl

lemma redact_redact : redact alnum (redact alnum v) = redact alnum v := by
  induction v using Loggable.induct with
  | str s => rw [redact, redact, redactStr_redactStr]
  | dict items ih =>
    rw [redact, redact, redactItems_eq, redactItems_eq, List.map_map]
    exact congrArg _ (List.map_congr_left fun m hm => congrArg _ (ih m hm))
  | list xs ih =>
    rw [redact, redact, redactList_eq, redactList_eq, List.map_map]
    exact congrArg _ (List.map_congr_left ih)
  | other a => rfl

lemma shape_redact : shape (redact alnum v) = shape v := by
  induction v using Loggable.induct with
  | str s => rfl
  | dict items ih =>
    rw [redact, shape, shape, redactItems_eq, shapeItems_eq, shapeItems_eq, List.map_map]
    exact congrArg _ (List.map_congr_left fun m hm => congrArg _ (ih m hm))
  | list xs ih =>
    rw [redact, shape, shape, redactList_eq, shapeList_eq, shapeList_eq, List.map_map]
    exact congrArg _ (List.map_congr_left ih)
  | other a => rfl

theorem redact_complete (alnum : Char → Bool) (v : Loggable κ α) :
    (∀ s ∈ strings (redact alnum v), ¬ (emailRe alnum).Occurs s ∧ ¬ bearerRe.Occurs s) ∧
      redact alnum (redact alnum v) = redact alnum v ∧ shape (redact alnum v) = shape v := by
  refine ⟨fun s hs => ?_, redact_redact v, shape_redact v⟩
  rw [strings_redact] at hs
  obtain ⟨t, -, rfl⟩ := List.mem_map.mp hs
  exact not_occurs_redactStr alnum t

end Redact

end ShadowProxy

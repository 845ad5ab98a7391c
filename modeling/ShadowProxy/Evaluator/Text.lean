import ShadowProxy.Data.Readable
import ShadowProxy.Evaluator

/-! Stripping, and the texts Python makes of the values out of a JSON text. -/

namespace ShadowProxy

abbrev White (w : Str) : Prop := ∀ c ∈ w, isSpace c = true

lemma lstrip_append {w : Str} (h : White w) (s : Str) : lstrip (w ++ s) = lstrip s :=
  List.dropWhile_append_of_pos h

lemma lstrip_cons {c : Char} (h : isSpace c = false) (s : Str) : lstrip (c :: s) = c :: s :=
  List.dropWhile_cons_of_neg (by simp [h])

lemma rstrip_append (s : Str) {w : Str} (h : White w) : rstrip (s ++ w) = rstrip s := by
  have hr : White w.reverse := fun c hc => h c (List.mem_reverse.mp hc)
  rw [rstrip, List.reverse_append, List.dropWhile_append_of_pos hr, rstrip]

lemma rstrip_concat (s : Str) {c : Char} (h : isSpace c = false) : rstrip (s ++ [c]) = s ++ [c] := by
  simp [rstrip, h]

lemma White.append {v w : Str} (hv : White v) (hw : White w) : White (v ++ w) := fun c hc =>
  (List.mem_append.mp hc).elim (hv c) (hw c)

lemma strip_fixed {s : Str} (h : ∀ c ∈ s, isSpace c = false) : strip s = s := by
  have hl : lstrip s = s := by
    cases s with
    | nil => rfl
    | cons c s => exact lstrip_cons (h c List.mem_cons_self) s
  rw [strip, hl]
  obtain rfl | ⟨s, c, rfl⟩ := List.eq_nil_or_concat' s
  · rfl
  · exact rstrip_concat s (h c (by simp))

lemma strip_bracketed {c d : Char} (hc : isSpace c = false) (hd : isSpace d = false) (s : Str) :
    strip (c :: s ++ [d]) = c :: s ++ [d] := by
  rw [strip, List.cons_append, lstrip_cons hc, ← List.cons_append, rstrip_concat _ hd]

/-- `str` of an `int` -/
def decimal : ℤ → Str
  | .ofNat n => Nat.toDigits 10 n
  | .negSucc n => '-' :: Nat.toDigits 10 (n + 1)

def hex (width n : ℕ) : Str := (Nat.toDigits 16 n).leftpad width '0'

def quoteOf (s : Str) : Char := if '\'' ∈ s ∧ '"' ∉ s then '"' else '\''

section Printable

variable (printable : Char → Bool)

def escapeChar (quote c : Char) : Str :=
  if c = quote ∨ c = '\\' then ['\\', c]
  else if c = '\t' then ['\\', 't']
  else if c = '\n' then ['\\', 'n']
  else if c = '\r' then ['\\', 'r']
  else if printable c then [c]
  else if c.toNat < 0x100 then '\\' :: 'x' :: hex 2 c.toNat
  else if c.toNat < 0x10000 then '\\' :: 'u' :: hex 4 c.toNat
  else '\\' :: 'U' :: hex 8 c.toNat

def reprStr (s : Str) : Str :=
  let quote := quoteOf s
  quote :: (s.flatMap (escapeChar printable quote) ++ [quote])

def join (sep : Str) : List Str → Str
  | [] => []
  | [t] => t
  | t :: t' :: ts => t ++ sep ++ join sep (t' :: ts)

lemma join_eq_intercalate (sep : Str) (ts : List Str) : join sep ts = sep.intercalate ts := by
  induction ts with
  | nil => rfl
  | cons t ts ih =>
    cases ts with
    | nil => simp [join]
    | cons t' ts => rw [join, ih, List.intercalate_cons_cons, List.append_assoc]

mutual

def Json.repr : Json → Str
  | .null => "None"
  | .bool true => "True"
  | .bool false => "False"
  | .int n => decimal n
  | .float x => x.repr
  | .str s => reprStr printable s
  | .arr xs => "[".toList ++ join ", " (Json.reprItems xs) ++ "]".toList
  | .obj ms => "\x7b".toList ++ join ", " (Json.reprMembers ms) ++ "\x7d".toList

def Json.reprItems : List Json → List Str
  | [] => []
  | x :: xs => x.repr :: Json.reprItems xs

def Json.reprMembers : List (Str × Json) → List Str
  | [] => []
  | (k, x) :: ms => (reprStr printable k ++ ": ".toList ++ x.repr) :: Json.reprMembers ms

end

/-- `str` leaves a string as it is. -/
def Json.text : Json → Str
  | .str s => s
  | x => x.repr printable

end Printable

example : Json.text (fun _ => true) (.obj [("a", .arr [.int (-1), .bool true]), ("b", .str "it's")]) =
    "\x7b'a': [-1, True], 'b': \"it's\"\x7d".toList := by decide

lemma Json.induct {P : Json → Prop} (null : P .null) (bool : ∀ b, P (.bool b)) (int : ∀ n, P (.int n))
    (float : ∀ x, P (.float x)) (str : ∀ s, P (.str s)) (arr : ∀ xs, (∀ x ∈ xs, P x) → P (.arr xs))
    (obj : ∀ ms, (∀ m ∈ ms, P m.2) → P (.obj ms)) (v : Json) : P v :=
  Json.rec null bool int float str arr obj (by simp) (fun _ _ hx hxs => List.forall_mem_cons.mpr ⟨hx, hxs⟩)
    (by simp)
    (fun _ _ hm hms => List.forall_mem_cons.mpr ⟨hm, hms⟩) (fun _ _ hx => hx) v

lemma Json.reprItems_eq (printable : Char → Bool) (xs : List Json) :
    Json.reprItems printable xs = xs.map (Json.repr printable) := by
  induction xs with
  | nil => rfl
  | cons x xs ih => rw [Json.reprItems, ih, List.map_cons]

def entryText (printable : Char → Bool) (m : Str × Json) : Str :=
  reprStr printable m.1 ++ ": ".toList ++ m.2.repr printable

lemma Json.reprMembers_eq (printable : Char → Bool) (ms : List (Str × Json)) :
    Json.reprMembers printable ms = ms.map (entryText printable) := by
  induction ms with
  | nil => rfl
  | cons m ms ih => rw [Json.reprMembers, ih, List.map_cons, entryText]

end ShadowProxy

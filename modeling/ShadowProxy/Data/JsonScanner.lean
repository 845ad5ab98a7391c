import Mathlib.Data.List.TakeWhile
import ShadowProxy.Data.JsonText

/-! The scanner of `json.loads`, and the texts it should read. -/

namespace ShadowProxy.Data.JsonText

inductive Constant where
  | null
  | true
  | false
  | nan
  | infinity
  | negInfinity
  deriving DecidableEq

/-- What a scanner makes of the parts of a text. A string is given by its code points. -/
structure Builder (ν : Type) where
  constant : Constant → ν
  int : Text → ν
  float : Text → ν
  str : List ℕ → ν
  arr : List ν → ν
  obj : List (List ℕ × ν) → ν

/-- A decode error with the text from its position on, or a limit of the interpreter. -/
inductive Failure where
  | decode (msg rest : Text)
  | recursion
  | digits
  deriving DecidableEq

/-- How deep a text may nest, and how many digits an integer may have: any number if this is 0. -/
structure Limits where
  depth : ℕ
  digits : ℕ

abbrev Scanned (α : Type) := Except Failure (α × Text)

def Limits.fits (lim : Limits) (n : Text) : Prop := lim.digits = 0 ∨ n.length ≤ lim.digits

instance (lim : Limits) (n : Text) : Decidable (lim.fits n) :=
  inferInstanceAs (Decidable (lim.digits = 0 ∨ n.length ≤ lim.digits))

section Scanner

def skip (s : Text) : Text := s.dropWhile fun c => decide (blank c)

def isDigit (c : Char) : Bool := "0123456789".toList.contains c

def hexValue (c : Char) : Option ℕ :=
  if '0' ≤ c ∧ c ≤ '9' then some (c.toNat - '0'.toNat)
  else if 'a' ≤ c ∧ c ≤ 'f' then some (c.toNat - 'a'.toNat + 10)
  else if 'A' ≤ c ∧ c ≤ 'F' then some (c.toNat - 'A'.toNat + 10)
  else none

def hexNumber (h : Text) : Option ℕ :=
  h.foldl (fun n c => n.bind fun n => (hexValue c).map fun d => 16 * n + d) (some 0)

def escapes : List (Char × ℕ) :=
  [('"', 0x22), ('\\', 0x5c), ('/', 0x2f), ('b', 0x08), ('f', 0x0c), ('n', 0x0a), ('r', 0x0d), ('t', 0x09)]

/-- The values between the quotes of a string, `\uXXXX` giving one each. -/
def scanUnits (quoted : Text) : Text → Scanned (List ℕ)
  | [] => .error (.decode "Unterminated string starting at".toList quoted)
  | c :: s =>
    if c = '"' then .ok ([], s)
    else if c = '\\' then
      match s with
      | [] => .error (.decode "Unterminated string starting at".toList quoted)
      | e :: s =>
        if e = 'u' then
          match s with
          | h₁ :: h₂ :: h₃ :: h₄ :: s =>
            -- the closing quote must still come
            if s = [] then .error (.decode "Invalid \\uXXXX escape".toList (e :: h₁ :: h₂ :: h₃ :: h₄ :: s))
            else
              match hexNumber [h₁, h₂, h₃, h₄] with
              | none => .error (.decode "Invalid \\uXXXX escape".toList (e :: h₁ :: h₂ :: h₃ :: h₄ :: s))
              | some u => (scanUnits quoted s).map fun r => (u :: r.1, r.2)
          | s => .error (.decode "Invalid \\uXXXX escape".toList (e :: s))
        else
          match escapes.lookup e with
          | none => .error (.decode "Invalid \\escape".toList (c :: e :: s))
          | some u => (scanUnits quoted s).map fun r => (u :: r.1, r.2)
    else if c.toNat < 0x20 then .error (.decode "Invalid control character at".toList (c :: s))
    else (scanUnits quoted s).map fun r => (c.toNat :: r.1, r.2)

def joinSurrogates : List ℕ → List ℕ
  | h :: l :: us =>
    if (0xD800 ≤ h ∧ h ≤ 0xDBFF) ∧ 0xDC00 ≤ l ∧ l ≤ 0xDFFF then
      (0x10000 + (h - 0xD800) * 0x400 + (l - 0xDC00)) :: joinSurrogates us
    else h :: joinSurrogates (l :: us)
  | us => us

def scanString (quoted s : Text) : Scanned (List ℕ) := (scanUnits quoted s).map fun r => (joinSurrogates r.1, r.2)

def splitSign (signs : Text) : Text → Text × Text
  | [] => ([], [])
  | c :: s => if signs.contains c then ([c], s) else ([], c :: s)

def scanNatural : Text → Option (Text × Text)
  | [] => none
  | c :: s =>
    if c = '0' then some (['0'], s)
    else if isDigit c then some (c :: s.takeWhile isDigit, s.dropWhile isDigit)
    else none

def scanFraction : Text → Text × Text
  | [] => ([], [])
  | c :: s =>
    if c = '.' ∧ s.takeWhile isDigit ≠ [] then (c :: s.takeWhile isDigit, s.dropWhile isDigit) else ([], c :: s)

def scanExponent : Text → Text × Text
  | [] => ([], [])
  | c :: s =>
    let r := splitSign ['+', '-'] s
    if (c = 'e' ∨ c = 'E') ∧ r.2.takeWhile isDigit ≠ [] then
      (c :: (r.1 ++ r.2.takeWhile isDigit), r.2.dropWhile isDigit)
    else ([], c :: s)

def words : List (Text × Constant) :=
  [("null".toList, .null), ("true".toList, .true), ("false".toList, .false), ("NaN".toList, .nan),
    ("Infinity".toList, .infinity), ("-Infinity".toList, .negInfinity)]

def scanWord (s : Text) : Option (Constant × Text) :=
  words.findSome? fun w => if w.1.isPrefixOf s then some (w.2, s.drop w.1.length) else none

section Items

variable {α : Type} (close : Char) (trailing : Text) (scan : Text → Scanned α)

/-- The items of a list that is not empty. No list has more items than characters. -/
def scanItems : ℕ → Text → Scanned (List α)
  | 0, s => .error (.decode "Expecting value".toList s)
  | n + 1, s =>
    match scan s with
    | .error e => .error e
    | .ok (v, rest) =>
      match skip rest with
      | [] => .error (.decode "Expecting ',' delimiter".toList [])
      | c :: t =>
        if c = close then .ok ([v], t)
        else if c = ',' then
          if (skip t).head? = some close then .error (.decode trailing (c :: t))
          else (scanItems n (skip t)).map fun r => (v :: r.1, r.2)
        else .error (.decode "Expecting ',' delimiter".toList (c :: t))

def scanList (s : Text) : Scanned (List α) :=
  if (skip s).head? = some close then .ok ([], (skip s).tail)
  else scanItems close trailing scan ((skip s).length + 1) (skip s)

end Items

variable {ν : Type}

def scanMember (scan : Text → Scanned ν) : Text → Scanned (List ℕ × ν)
  | [] => .error (.decode "Expecting property name enclosed in double quotes".toList [])
  | c :: s =>
    if c = '"' then
      match scanString (c :: s) s with
      | .error e => .error e
      | .ok (k, rest) =>
        match skip rest with
        | [] => .error (.decode "Expecting ':' delimiter".toList [])
        | d :: t =>
          if d = ':' then (scan (skip t)).map fun r => ((k, r.1), r.2)
          else .error (.decode "Expecting ':' delimiter".toList (d :: t))
    else .error (.decode "Expecting property name enclosed in double quotes".toList (c :: s))

variable (b : Builder ν) (lim : Limits)

def scanNumber (s : Text) : Scanned ν :=
  let r := splitSign ['-'] s
  match scanNatural r.2 with
  | none => .error (.decode "Expecting value".toList s)
  | some (n, t) =>
    let f := scanFraction t
    let e := scanExponent f.2
    if f.1 = [] ∧ e.1 = [] then
      if lim.fits n then .ok (b.int (r.1 ++ n), e.2) else .error .digits
    else .ok (b.float (r.1 ++ (n ++ (f.1 ++ e.1))), e.2)

def scanPlain (s : Text) : Scanned ν :=
  match scanWord s with
  | some (k, rest) => .ok (b.constant k, rest)
  | none => scanNumber b lim s

def scanValue (arr obj : Text → Scanned ν) : Text → Scanned ν
  | [] => .error (.decode "Expecting value".toList [])
  | c :: s =>
    if c = '"' then (scanString (c :: s) s).map fun r => (b.str r.1, r.2)
    else if c = '[' then arr s
    else if c = '\x7b' then obj s
    else scanPlain b lim (c :: s)

/-- `scan_once` where so many brackets may still open. -/
def scanOnce : ℕ → Text → Scanned ν
  | 0 => scanValue b lim (fun _ => .error .recursion) fun _ => .error .recursion
  | d + 1 => scanValue b lim
      (fun s => (scanList ']' "Illegal trailing comma before end of array".toList (scanOnce d) s).map fun r =>
        (b.arr r.1, r.2))
      fun s => (scanList '\x7d' "Illegal trailing comma before end of object".toList
        (scanMember (scanOnce d)) s).map
        fun r => (b.obj r.1, r.2)

def decode (s : Text) : Except Failure ν :=
  if s.head? = some '\uFEFF' then .error (.decode "Unexpected UTF-8 BOM (decode using utf-8-sig)".toList s)
  else
    match scanOnce b lim lim.depth (skip s) with
    | .error e => .error e
    | .ok (v, rest) => if skip rest = [] then .ok v else .error (.decode "Extra data".toList (skip rest))

end Scanner

section Meaning

inductive Units : Text → List ℕ → Prop
  | nil : Units [] []
  | plain {c : Char} {s : Text} {us : List ℕ} : c ≠ '"' → c ≠ '\\' → 0x20 ≤ c.toNat → Units s us →
      Units (c :: s) (c.toNat :: us)
  | escape {e : Char} {u : ℕ} {s : Text} {us : List ℕ} : (e, u) ∈ escapes → Units s us →
      Units ('\\' :: e :: s) (u :: us)
  | unicode {h s : Text} {u : ℕ} {us : List ℕ} : h.length = 4 → hexNumber h = some u → Units s us →
      Units ('\\' :: 'u' :: (h ++ s)) (u :: us)

variable {α ν : Type}

def Around (D : Text → α → Prop) (t : Text) (v : α) : Prop :=
  ∃ w s w', Blank w ∧ D s v ∧ Blank w' ∧ t = w ++ (s ++ w')

inductive ItemsOf (D : Text → α → Prop) : Text → List α → Prop
  | last {t : Text} {v : α} : D t v → ItemsOf D t [v]
  | cons {t rest : Text} {v : α} {vs : List α} : D t v → ItemsOf D rest vs → ItemsOf D (t ++ ',' :: rest) (v :: vs)

def ListOf (close : Char) (D : Text → α → Prop) (t : Text) (vs : List α) : Prop :=
  ∃ s, t = s ++ [close] ∧ (Blank s ∧ vs = [] ∨ ItemsOf (Around D) s vs)

inductive Entry (D : Text → ν → Prop) : Text → List ℕ × ν → Prop
  | mk {k w w' s : Text} {us : List ℕ} {v : ν} : Units k us → Blank w → Blank w' → D s v →
      Entry D ('"' :: (k ++ '"' :: (w ++ ':' :: (w' ++ s)))) (joinSurrogates us, v)

variable (b : Builder ν) (lim : Limits)

inductive Scalar : Text → ν → Prop
  | constant {w : Text} {k : Constant} : (w, k) ∈ words → Scalar w (b.constant k)
  | int {sign n : Text} : sign ∈ [[], ['-']] → Natural n → lim.fits n → Scalar (sign ++ n) (b.int (sign ++ n))
  | float {sign n f e : Text} : sign ∈ [[], ['-']] → Natural n → Fraction f → Exponent e → ¬ (f = [] ∧ e = []) →
      Scalar (sign ++ (n ++ (f ++ e))) (b.float (sign ++ (n ++ (f ++ e))))
  | str {s : Text} {us : List ℕ} : Units s us → Scalar ('"' :: (s ++ ['"'])) (b.str (joinSurrogates us))

def Denotes : ℕ → Text → ν → Prop
  | 0 => Scalar b lim
  | d + 1 => fun t v => Scalar b lim t v ∨
      (∃ s vs, t = '[' :: s ∧ v = b.arr vs ∧ ListOf ']' (Denotes d) s vs) ∨
      ∃ s ms, t = '\x7b' :: s ∧ v = b.obj ms ∧ ListOf '\x7d' (Entry (Denotes d)) s ms

end Meaning

end ShadowProxy.Data.JsonText

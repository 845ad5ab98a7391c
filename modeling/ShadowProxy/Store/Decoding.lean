import ShadowProxy.Data.JsonGrammar
import ShadowProxy.Util.Hashing

/-! `json.dumps` as the raw store and the mismatch tape call it, and `json.loads`. -/

namespace ShadowProxy

open Data.JsonText (Builder Constant Failure Limits)

section Loads

/-- A Python string as text: one with a lone surrogate is none. -/
def textOf (cs : List ℕ) : Option Str := cs.mapM fun n => if n.isValidChar then some (Char.ofNat n) else none

def readInt : Str → ℤ
  | '-' :: ds => -(Nat.ofDigitChars 10 ds 0 : ℤ)
  | ds => Nat.ofDigitChars 10 ds 0

/-- A key given twice keeps its first place and its last value. -/
def dictOf (ms : List (Str × Json)) : List (Str × Json) := ms.foldl (fun d m => Json.setMember m.1 m.2 d) []

def constantOf : Constant → Json
  | .null => .null
  | .true => .bool true
  | .false => .bool false
  | .nan => .float ⟨"nan"⟩
  | .infinity => .float ⟨"inf"⟩
  | .negInfinity => .float ⟨"-inf"⟩

variable (readFloat : Str → PyFloat)

def jsonBuilder : Builder (Option Json) where
  constant k := some (constantOf k)
  int t := some (.int (readInt t))
  float t := some (.float (readFloat t))
  str cs := (textOf cs).map .str
  arr vs := (vs.mapM id).map .arr
  obj ms := (ms.mapM fun m => (textOf m.1).bind fun k => m.2.map fun v => (k, v)).map fun ms => .obj (dictOf ms)

/-- `json.loads`, or nothing where a string of the value has a lone surrogate. -/
def Json.loads (lim : Limits) (s : Str) : Except Failure (Option Json) :=
  Data.JsonText.decode (jsonBuilder readFloat) lim s

end Loads

structure DumpsStyle where
  ensureAscii : Bool
  itemSeparator : Str
  keySeparator : Str

section Encode

def encodeChar (ascii : Bool) (c : Char) : Str :=
  if ascii = false ∨ c.toNat < 0x7f then dumpsChar c
  else if c.toNat < 0x10000 then '\\' :: 'u' :: hex 4 c.toNat
  else '\\' :: 'u' :: (hex 4 (0xD800 + (c.toNat - 0x10000) / 0x400) ++
    '\\' :: 'u' :: hex 4 (0xDC00 + (c.toNat - 0x10000) % 0x400))

variable (style : DumpsStyle)

def encodeStr (s : Str) : Str := '"' :: (s.flatMap (encodeChar style.ensureAscii) ++ ['"'])

mutual

def Json.encode : Json → Str
  | .null => "null"
  | .bool true => "true"
  | .bool false => "false"
  | .int n => decimal n
  | .float x => x.dumps
  | .str s => encodeStr style s
  | .arr xs => "[".toList ++ join style.itemSeparator (Json.encodeItems xs) ++ "]".toList
  | .obj ms => "\x7b".toList ++ join style.itemSeparator (Json.encodeMembers ms) ++ "\x7d".toList

def Json.encodeItems : List Json → List Str
  | [] => []
  | x :: xs => x.encode :: Json.encodeItems xs

def Json.encodeMembers : List (Str × Json) → List Str
  | [] => []
  | (k, x) :: ms => (encodeStr style k ++ style.keySeparator ++ x.encode) :: Json.encodeMembers ms

end

end Encode

mutual

def Json.largest (step : ℕ) (int : ℤ → ℕ) : Json → ℕ
  | .int n => int n
  | .arr xs => Json.largestItem step int xs + step
  | .obj ms => Json.largestMember step int ms + step
  | _ => 0

def Json.largestItem (step : ℕ) (int : ℤ → ℕ) : List Json → ℕ
  | [] => 0
  | x :: xs => max (x.largest step int) (Json.largestItem step int xs)

def Json.largestMember (step : ℕ) (int : ℤ → ℕ) : List (Str × Json) → ℕ
  | [] => 0
  | (_, x) :: ms => max (x.largest step int) (Json.largestMember step int ms)

end

def Json.depth (v : Json) : ℕ := v.largest 1 fun _ => 0

def Json.digits (v : Json) : ℕ := v.largest 0 fun n => (Nat.toDigits 10 n.natAbs).length

/-- Whether a number is written with a fraction or an exponent. -/
def floatBuilder : Builder Bool where
  constant _ := false
  int _ := false
  float _ := true
  str _ := false
  arr _ := false
  obj _ := false

def floatText (s : Str) : Bool :=
  match Data.JsonText.scanNumber floatBuilder ⟨0, 0⟩ s with
  | .ok (true, []) => true
  | _ => false

/-- `float(repr(x))` is `x`. -/
def PyFloat.rereads (readFloat : Str → PyFloat) (x : PyFloat) : Bool :=
  x.repr = ("nan" : Str) || x.repr = ("inf" : Str) || x.repr = ("-inf" : Str) ||
    (floatText x.repr && readFloat x.repr = x)

mutual

/-- A value as Python can have it: dictionaries with distinct keys, and floats with their own texts. -/
def Json.isPython (readFloat : Str → PyFloat) : Json → Bool
  | .float x => x.rereads readFloat
  | .arr xs => Json.isPythonItems readFloat xs
  | .obj ms => (ms.map Prod.fst).Nodup && Json.isPythonMembers readFloat ms
  | _ => true

def Json.isPythonItems (readFloat : Str → PyFloat) : List Json → Bool
  | [] => true
  | x :: xs => x.isPython readFloat && Json.isPythonItems readFloat xs

def Json.isPythonMembers (readFloat : Str → PyFloat) : List (Str × Json) → Bool
  | [] => true
  | (_, x) :: ms => x.isPython readFloat && Json.isPythonMembers readFloat ms

end

def Json.Within (lim : Limits) (v : Json) : Prop := v.depth ≤ lim.depth ∧ (lim.digits = 0 ∨ v.digits ≤ lim.digits)

instance (lim : Limits) (v : Json) : Decidable (v.Within lim) :=
  inferInstanceAs (Decidable (v.depth ≤ lim.depth ∧ (lim.digits = 0 ∨ v.digits ≤ lim.digits)))

/-- `json.dumps`, or nothing where a limit of the interpreter stops it. -/
def Json.dumpsWith (style : DumpsStyle) (lim : Limits) (v : Json) : Option Str :=
  if v.Within lim then some (v.encode style) else none

def archiveStyle : DumpsStyle := ⟨false, ", ", ": "⟩

def tapeStyle : DumpsStyle := ⟨true, ", ", ": "⟩

def hashStyle : DumpsStyle := ⟨false, ",", ":"⟩

end ShadowProxy

import Mathlib.Data.Int.Basic
import Mathlib.Data.List.Basic

/-! Python values as they come out of JSON, and the dictionary operations the proxy applies to them. -/

namespace ShadowProxy

abbrev Str := List Char

instance : Coe String Str := ⟨String.toList⟩

/-- A float is identified with its `repr`. -/
structure PyFloat where
  repr : Str
  deriving DecidableEq

inductive Json where
  | null
  | bool (b : Bool)
  | int (n : ℤ)
  | float (x : PyFloat)
  | str (s : Str)
  | arr (xs : List Json)
  | obj (members : List (Str × Json))

/-- What a failed put of a raw object leaves behind. -/
inductive PutFailure where
  | unwritten
  | torn
  | written
  deriving DecidableEq

inductive Exn where
  | keyError
  | indexError
  | typeError
  | attributeError
  | valueError
  | recursionError
  | jsonDecodeError (msg : Str)
  | validationError
  | http (statusCode : ℤ) (detail : Str)
  | database
  | rawStore (failure : PutFailure)
  | llmTimeout (message : Str)
  | llmCall (message : Str) (statusCode : Option ℤ)
  deriving DecidableEq

mutual

def Json.decEq : (a b : Json) → Decidable (a = b)
  | .null, .null => isTrue rfl
  | .bool a, .bool b => decidable_of_iff (a = b) (by simp)
  | .int a, .int b => decidable_of_iff (a = b) (by simp)
  | .float a, .float b => decidable_of_iff (a = b) (by simp)
  | .str a, .str b => decidable_of_iff (a = b) (by simp)
  | .arr a, .arr b =>
    match Json.decEqList a b with
    | isTrue h => isTrue (h ▸ rfl)
    | isFalse h => isFalse fun he => h (by simpa using he)
  | .obj a, .obj b =>
    match Json.decEqMembers a b with
    | isTrue h => isTrue (h ▸ rfl)
    | isFalse h => isFalse fun he => h (by simpa using he)
  | .null, .bool _ | .null, .int _ | .null, .float _ | .null, .str _ | .null, .arr _ | .null, .obj _
  | .bool _, .null | .bool _, .int _ | .bool _, .float _ | .bool _, .str _ | .bool _, .arr _
  | .bool _, .obj _ | .int _, .null | .int _, .bool _ | .int _, .float _ | .int _, .str _
  | .int _, .arr _ | .int _, .obj _ | .float _, .null | .float _, .bool _ | .float _, .int _
  | .float _, .str _ | .float _, .arr _ | .float _, .obj _ | .str _, .null | .str _, .bool _
  | .str _, .int _ | .str _, .float _ | .str _, .arr _ | .str _, .obj _ | .arr _, .null
  | .arr _, .bool _ | .arr _, .int _ | .arr _, .float _ | .arr _, .str _ | .arr _, .obj _
  | .obj _, .null | .obj _, .bool _ | .obj _, .int _ | .obj _, .float _ | .obj _, .str _
  | .obj _, .arr _ => isFalse (by simp)

def Json.decEqList : (a b : List Json) → Decidable (a = b)
  | [], [] => isTrue rfl
  | [], _ :: _ => isFalse (by simp)
  | _ :: _, [] => isFalse (by simp)
  | x :: xs, y :: ys =>
    match Json.decEq x y, Json.decEqList xs ys with
    | isTrue h, isTrue h' => isTrue (h ▸ h' ▸ rfl)
    | isFalse h, _ => isFalse fun he => h (List.cons.inj he).1
    | _, isFalse h => isFalse fun he => h (List.cons.inj he).2

def Json.decEqMembers : (a b : List (Str × Json)) → Decidable (a = b)
  | [], [] => isTrue rfl
  | [], _ :: _ => isFalse (by simp)
  | _ :: _, [] => isFalse (by simp)
  | (k, x) :: xs, (l, y) :: ys =>
    match (inferInstance : Decidable (k = l)), Json.decEq x y, Json.decEqMembers xs ys with
    | isTrue h, isTrue h', isTrue h'' => isTrue (h ▸ h' ▸ h'' ▸ rfl)
    | isFalse h, _, _ => isFalse fun he => h (Prod.ext_iff.mp (List.cons.inj he).1).1
    | _, isFalse h, _ => isFalse fun he => h (Prod.ext_iff.mp (List.cons.inj he).1).2
    | _, _, isFalse h => isFalse fun he => h (List.cons.inj he).2

end

instance : DecidableEq Json := Json.decEq

def PyFloat.isZero (x : PyFloat) : Bool := x.repr = ("0.0" : Str) || x.repr = ("-0.0" : Str)

namespace Json

def truthy : Json → Bool
  | null => false
  | bool b => b
  | int n => n ≠ 0
  | float x => !x.isZero
  | str s => s ≠ []
  | arr xs => !xs.isEmpty
  | obj ms => !ms.isEmpty

/-- Python's `x or y`. -/
def orElse (x y : Json) : Json := if x.truthy then x else y

/-- `x[key]` -/
def getItem (x : Json) (key : Str) : Except Exn Json :=
  match x with
  | obj ms =>
    match ms.lookup key with
    | some v => .ok v
    | none => .error .keyError
  | _ => .error .typeError

/-- `x[0]` -/
def getFirst : Json → Except Exn Json
  | arr [] => .error .indexError
  | arr (x :: _) => .ok x
  | str [] => .error .indexError
  | str (c :: _) => .ok (str [c])
  | obj _ => .error .keyError
  | _ => .error .typeError

/-- `x.get(key, default)` -/
def get (x : Json) (key : Str) (default : Json) : Except Exn Json :=
  match x with
  | obj ms => .ok ((ms.lookup key).getD default)
  | _ => .error .attributeError

def setMember (key : Str) (v : Json) : List (Str × Json) → List (Str × Json)
  | [] => [(key, v)]
  | (k, x) :: ms => if k = key then (k, v) :: ms else (k, x) :: setMember key v ms

/-- `x[key] = v` -/
def setItem (x : Json) (key : Str) (v : Json) : Except Exn Json :=
  match x with
  | obj ms => .ok (obj (setMember key v ms))
  | _ => .error .typeError

lemma lookup_setMember_self (key : Str) (v : Json) (ms : List (Str × Json)) :
    (setMember key v ms).lookup key = some v := by
  induction ms with
  | nil => simp [setMember]
  | cons m ms ih =>
    obtain ⟨k, x⟩ := m
    by_cases hk : k = key
    · simp [setMember, hk]
    · simp [setMember, hk, List.lookup_cons, beq_eq_false_iff_ne.mpr (Ne.symm hk), ih]

lemma lookup_setMember_ne {key key' : Str} (h : key' ≠ key) (v : Json) (ms : List (Str × Json)) :
    (setMember key v ms).lookup key' = ms.lookup key' := by
  induction ms with
  | nil => simp [setMember, List.lookup_cons, beq_eq_false_iff_ne.mpr h]
  | cons m ms ih =>
    obtain ⟨k, x⟩ := m
    by_cases hk : k = key
    · subst hk
      simp [setMember, List.lookup_cons, beq_eq_false_iff_ne.mpr h]
    · simp [setMember, hk, List.lookup_cons, ih]

lemma getItem_setItem {x y v : Json} {key : Str} (h : x.setItem key v = .ok y) : y.getItem key = .ok v := by
  cases x <;> simp only [setItem, reduceCtorEq, Except.ok.injEq] at h
  subst h
  simp only [getItem, lookup_setMember_self]

def Agree (key : Str) (x y : Json) : Prop :=
  match x, y with
  | obj ms, obj ms' => ms.lookup key = ms'.lookup key
  | _, _ => False

lemma Agree.trans {key : Str} {x y z : Json} (h : Agree key x y) (h' : Agree key y z) :
    Agree key x z := by
  cases x <;> cases y <;> cases z <;> simp_all [Agree]

lemma Agree.symm {key : Str} {x y : Json} (h : Agree key x y) : Agree key y x := by
  cases x <;> cases y <;> simp_all [Agree]

lemma Agree.get {key : Str} {x y : Json} (h : Agree key x y) (d : Json) : x.get key d = y.get key d := by
  cases x <;> cases y <;> simp_all [Agree, Json.get]

lemma agree_setItem {key key' : Str} (h : key' ≠ key) {x y v : Json} (hx : x.setItem key v = .ok y) :
    Agree key' x y := by
  cases x <;> simp only [setItem, reduceCtorEq, Except.ok.injEq] at hx
  subst hx
  simp [Agree, lookup_setMember_ne h]

end Json

end ShadowProxy

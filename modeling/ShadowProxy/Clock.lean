import Mathlib.Algebra.Order.Ring.Int
import ShadowProxy.Json

/-! UTC timestamps with Python's `datetime` fields. -/

namespace ShadowProxy

/-- `%Y` writes four digits from the year 1000 on. -/
structure DateTime where
  year : ℕ
  month : ℕ
  day : ℕ
  hour : ℕ
  minute : ℕ
  second : ℕ
  microsecond : ℕ
  year_mem : 1000 ≤ year ∧ year ≤ 9999
  month_mem : 1 ≤ month ∧ month ≤ 12
  day_mem : 1 ≤ day ∧ day ≤ 31
  hour_le : hour ≤ 23
  minute_le : minute ≤ 59
  second_le : second ≤ 59
  microsecond_le : microsecond ≤ 999999
  deriving DecidableEq

namespace DateTime

def date (t : DateTime) : ℕ × ℕ × ℕ := (t.year, t.month, t.day)

def isLeap (year : ℕ) : Bool := year % 4 = 0 && (year % 100 ≠ 0 || year % 400 = 0)

def daysInMonth (year month : ℕ) : ℕ :=
  match month with
  | 2 => if isLeap year then 29 else 28
  | 4 | 6 | 9 | 11 => 30
  | _ => 31

def daysBeforeYear (year : ℕ) : ℕ :=
  let y := year - 1
  y * 365 + y / 4 - y / 100 + y / 400

def daysBeforeMonth (year month : ℕ) : ℕ := ((List.range' 1 (month - 1)).map (daysInMonth year)).sum

def toordinal (t : DateTime) : ℕ := daysBeforeYear t.year + daysBeforeMonth t.year t.month + t.day

def instant (t : DateTime) : ℤ :=
  (((t.toordinal * 24 + t.hour) * 60 + t.minute) * 60 + t.second) * 1000000 + t.microsecond

end DateTime

def digit (n : ℕ) : Char := Char.ofNat (48 + n % 10)

def pad2 (n : ℕ) : Str := [digit (n / 10), digit n]

def pad4 (n : ℕ) : Str := [digit (n / 1000), digit (n / 100), digit (n / 10), digit n]

def pad6 (n : ℕ) : Str := pad2 (n / 10000) ++ pad4 n

namespace DateTime

/-- `f"{t:%Y/%m/%d}"` -/
def datePath (t : DateTime) : Str := pad4 t.year ++ "/".toList ++ pad2 t.month ++ "/".toList ++ pad2 t.day

def isoformat (t : DateTime) : Str :=
  pad4 t.year ++ "-".toList ++ pad2 t.month ++ "-".toList ++ pad2 t.day ++ "T".toList ++ pad2 t.hour ++
    ":".toList ++
    pad2 t.minute ++ ":".toList ++ pad2 t.second ++
    (if t.microsecond = 0 then [] else ".".toList ++ pad6 t.microsecond) ++ "+00:00".toList

end DateTime

lemma digit_inj {m n : ℕ} : digit m = digit n ↔ m % 10 = n % 10 := by
  constructor
  · intro h
    have hv : ∀ d < 10, (Char.ofNat (48 + d)).toNat = 48 + d := by decide
    have hh := congrArg Char.toNat h
    simp only [digit, hv _ (Nat.mod_lt m (by decide)), hv _ (Nat.mod_lt n (by decide))] at hh
    omega
  · intro h
    simp [digit, h]

lemma digit_ne_slash (n : ℕ) : digit n ≠ '/' := by
  have h : ∀ d < 10, Char.ofNat (48 + d) ≠ '/' := by decide
  exact h _ (Nat.mod_lt n (by decide))

lemma pad2_inj {m n : ℕ} (hm : m < 100) (hn : n < 100) (h : pad2 m = pad2 n) : m = n := by
  simp only [pad2, List.cons.injEq, digit_inj, and_true] at h
  omega

lemma pad4_inj {m n : ℕ} (hm : m < 10000) (hn : n < 10000) (h : pad4 m = pad4 n) : m = n := by
  simp only [pad4, List.cons.injEq, digit_inj, and_true] at h
  omega

@[simp] lemma slash_notMem_pad2 (n : ℕ) : '/' ∉ pad2 n := by
  simp [pad2, Ne.symm (digit_ne_slash _)]

@[simp] lemma slash_notMem_pad4 (n : ℕ) : '/' ∉ pad4 n := by
  simp [pad4, Ne.symm (digit_ne_slash _)]

end ShadowProxy

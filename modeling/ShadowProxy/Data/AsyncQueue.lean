import Mathlib.Data.List.Basic

/-! `asyncio.Queue`, without its waiters. -/

namespace ShadowProxy.Data

/-- A `maxsize` of zero stands for no bound. -/
structure AsyncQueue (α : Type) where
  maxsize : ℕ
  items : List α
  unfinished : ℕ

namespace AsyncQueue

variable {α : Type}

def empty (maxsize : ℕ) : AsyncQueue α := ⟨maxsize, [], 0⟩

def full (q : AsyncQueue α) : Bool := q.maxsize ≠ 0 && q.maxsize ≤ q.items.length

/-- `none` is `QueueFull`. -/
def putNowait (q : AsyncQueue α) (a : α) : Option (AsyncQueue α) :=
  if q.full then none else some { q with items := q.items ++ [a], unfinished := q.unfinished + 1 }

/-- `none` is `QueueEmpty`. -/
def getNowait (q : AsyncQueue α) : Option (α × AsyncQueue α) :=
  match q.items with
  | [] => none
  | a :: items => some (a, { q with items := items })

/-- `none` is `ValueError`. -/
def taskDone (q : AsyncQueue α) : Option (AsyncQueue α) :=
  if q.unfinished = 0 then none else some { q with unfinished := q.unfinished - 1 }

variable {q q' : AsyncQueue α} {a : α}

lemma putNowait_eq_some : q.putNowait a = some q' ↔
    q.full = false ∧ q' = { q with items := q.items ++ [a], unfinished := q.unfinished + 1 } := by
  cases hf : q.full <;> simp [putNowait, hf, eq_comm]

lemma putNowait_eq_none : q.putNowait a = none ↔ q.full = true := by
  cases hf : q.full <;> simp [putNowait, hf]

lemma getNowait_eq_some : q.getNowait = some (a, q') ↔
    q.items = a :: q'.items ∧ q'.maxsize = q.maxsize ∧ q'.unfinished = q.unfinished := by
  obtain ⟨m, items, n⟩ := q
  obtain ⟨m', items', n'⟩ := q'
  cases items with
  | nil => simp [getNowait]
  | cons b items =>
    simp only [getNowait, Option.some.injEq, Prod.mk.injEq, mk.injEq, List.cons.injEq]
    constructor
    · rintro ⟨rfl, rfl, rfl, rfl⟩
      exact ⟨⟨rfl, rfl⟩, rfl, rfl⟩
    · rintro ⟨⟨rfl, rfl⟩, rfl, rfl⟩
      exact ⟨rfl, rfl, rfl, rfl⟩

lemma getNowait_eq_none : q.getNowait = none ↔ q.items = [] := by
  rw [getNowait]
  split
  · rename_i h
    simp [h]
  · rename_i h
    simp [h]

lemma taskDone_eq_some : q.taskDone = some q' ↔
    q'.unfinished + 1 = q.unfinished ∧ q'.items = q.items ∧ q'.maxsize = q.maxsize := by
  obtain ⟨m, items, n⟩ := q
  obtain ⟨m', items', n'⟩ := q'
  simp only [taskDone, Option.ite_none_left_eq_some, Option.some.injEq, mk.injEq]
  constructor
  · rintro ⟨hn, rfl, rfl, rfl⟩
    exact ⟨by omega, rfl, rfl⟩
  · rintro ⟨hn, rfl, rfl⟩
    exact ⟨by omega, rfl, rfl, by omega⟩

lemma taskDone_eq_none : q.taskDone = none ↔ q.unfinished = 0 := by
  simp [taskDone]

lemma room_of_not_full {n : ℕ} (hq : q.maxsize = n) (hn : 1 ≤ n) : q.full = false ↔ q.items.length < n := by
  have hne : n ≠ 0 := by omega
  simp [full, hne, hq]

end AsyncQueue

end ShadowProxy.Data

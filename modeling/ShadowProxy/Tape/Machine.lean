import ShadowProxy.Data.AsyncQueue
import ShadowProxy.Effects.Machine
import ShadowProxy.Operations

/-! `MismatchTape` with its writer task and its call of `aclose`, where every insert succeeds. As since Python
3.12, `wait_for` awaits `queue.get()` within the writer's task, which runs on while there are rows. -/

namespace ShadowProxy.MismatchTape

open Data

structure Offered where
  row : TapeRow
  number : ℕ
  deriving DecidableEq

/-- A writer that is `ready` has not run yet. -/
inductive WriterPhase where
  | absent
  | ready
  | waiting
  | finished
  deriving DecidableEq

inductive ClosePhase where
  | notCalled
  | joining
  | returned
  | timedOut
  deriving DecidableEq

/-- `none` in the queue is the sentinel; `offered` and `evicted` are what an observer has noted. -/
structure State where
  queue : AsyncQueue (Option Offered)
  writer : WriterPhase := .absent
  stopped : Bool := false
  closing : ClosePhase := .notCalled
  mismatches : List Offered := []
  offered : List Offered := []
  evicted : List Offered := []

namespace State

def initial (queueSize : ℕ) : State := { queue := .empty queueSize }

/-- The loop from its test on, up to an await that waits. -/
def writerLoop (stopped : Bool) (items : List (Option Offered)) (mismatches : List Offered) :
    WriterPhase × List (Option Offered) × List Offered :=
  if stopped then (.finished, items, mismatches)
  else match items with
    | [] => (.waiting, [], mismatches)
    | none :: items => (.finished, items, mismatches)
    | some row :: items => writerLoop stopped items (mismatches ++ [row])

def test (s : State) : State :=
  let (writer, items, mismatches) := writerLoop s.stopped s.queue.items s.mismatches
  { s with writer := writer, queue := { s.queue with items := items }, mismatches := mismatches }

def got (s : State) : Option Offered → State
  | none => { s with writer := .finished }
  | some row => { s with mismatches := s.mismatches ++ [row] }.test

def newOffer (s : State) (row : TapeRow) : Offered := ⟨row, s.offered.length⟩

def offer (s : State) (row : TapeRow) : State × Bool :=
  let entry := s.newOffer row
  let s := { s with offered := s.offered ++ [entry] }
  match s.queue.putNowait (some entry) with
  | some q => ({ s with queue := q }, true)
  | none =>
    match s.queue.getNowait with
    | none => (s, false)
    | some (old, q) =>
      let s := { s with evicted := s.evicted ++ old.toList }
      match q.putNowait (some entry) with
      | some q => ({ s with queue := q }, true)
      | none => ({ s with queue := q }, false)

def aclose (s : State) : State :=
  let s := { s with stopped := true }
  let s := match s.queue.putNowait none with
    | some q => { s with queue := q }
    | none => s
  { s with closing := if s.writer = .absent then .returned else .joining }

end State

/-- `run` resumes a writer that is new or has an entry to take, and `timeout` one whose wait has lasted 0.5 s;
`join` and `giveUp` end the wait of `aclose`. -/
inductive Label where
  | start
  | offer (row : TapeRow)
  | run
  | timeout
  | aclose
  | join
  | giveUp
  deriving DecidableEq

def State.step (s : State) : Label → Option State
  | .start => if s.writer = .absent then some { s with writer := .ready } else none
  | .offer row => some (s.offer row).1
  | .run =>
    match s.writer with
    | .ready => some s.test
    | .waiting => s.queue.getNowait.map fun (entry, q) => { s with queue := q }.got entry
    | _ => none
  | .timeout => if s.writer = .waiting then some s.test else none
  | .aclose => if s.closing = .notCalled then some s.aclose else none
  | .join => if s.closing = .joining ∧ s.writer = .finished then some { s with closing := .returned } else none
  | .giveUp =>
    if s.closing = .joining ∧ s.writer ≠ .finished then
      some { s with writer := .finished, closing := .timedOut } else none

abbrev Run (queueSize : ℕ) (C : List Label → State → Label → Prop) : List Label → State → Prop :=
  Effects.Trace State.step C (State.initial queueSize)

end ShadowProxy.MismatchTape

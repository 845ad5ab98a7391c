import ShadowProxy.Data.AsyncQueue
import ShadowProxy.Data.Ledger
import ShadowProxy.Dispatcher
import ShadowProxy.Effects.Machine

/-! `InProcessDispatcher` with its worker tasks and its calls of `stop`. A task's step runs to its next
await; an idle worker may take a job whenever there is one. -/

namespace ShadowProxy.InProcessDispatcher

open Data

inductive WorkerPhase where
  | idle
  | handling (job : CandidateJob)
  | cancelled
  | failed
  deriving DecidableEq

/-- `idle` is before or in `queue.get()`; `failed` has ended with the `ValueError` of `task_done`. -/
structure Worker where
  phase : WorkerPhase := .idle
  cancelRequested : Bool := false
  deriving DecidableEq

def Worker.job? : Worker → Option CandidateJob
  | ⟨.handling job, _⟩ => some job
  | _ => none

def Worker.done : Worker → Bool
  | ⟨.cancelled, _⟩ | ⟨.failed, _⟩ => true
  | _ => false

def Worker.cancel (w : Worker) : Worker := if w.done then w else { w with cancelRequested := true }

/-- `joining` waits for the queue's event and `woken` has been woken by it; `awaiting n` is at the `n`th task. -/
inductive StopPhase where
  | joining
  | woken
  | awaiting (n : ℕ)
  | returned
  | raised
  deriving DecidableEq

/-- `before` are the jobs that had been accepted at the call. -/
structure StopCall where
  phase : StopPhase
  before : List CandidateJob
  deriving DecidableEq

def StopCall.wake (c : StopCall) : StopCall := if c.phase = .joining then { c with phase := .woken } else c

/-- From `calls` on, what an observer has noted: the number of calls of `enqueue`, which tells the jobs apart,
the jobs in the order in which `enqueue` accepted, rejected or evicted them and handlers started and ended with
them, and the exceptions of `task_done`. -/
structure State where
  queue : AsyncQueue CandidateJob
  running : Bool := false
  workers : List Worker := []
  tasks : List ℕ := []
  stops : List StopCall := []
  droppedTotal : OverflowPolicy → ℕ := fun _ => 0
  calls : ℕ := 0
  accepted : List CandidateJob := []
  rejected : List CandidateJob := []
  evicted : List CandidateJob := []
  started : List CandidateJob := []
  handled : List CandidateJob := []
  valueErrors : ℕ := 0

namespace State

def initial (cfg : DispatcherConfig) : State := { queue := .empty cfg.queueCapacity }

def inFlight (s : State) : List CandidateJob := s.workers.filterMap Worker.job?

def setWorker (s : State) (i : ℕ) (w : Worker) : State := { s with workers := s.workers.set i w }

def setStop (s : State) (n : ℕ) (c : StopCall) : State := { s with stops := s.stops.set n c }

def countDropped (s : State) (policy : OverflowPolicy) : State :=
  { s with droppedTotal := Function.update s.droppedTotal policy (s.droppedTotal policy + 1) }

/-- `queue.task_done()`; the counter's reaching zero wakes every join. -/
def taskDone (s : State) : Option State :=
  s.queue.taskDone.map fun q =>
    { s with queue := q, stops := if q.unfinished = 0 then s.stops.map StopCall.wake else s.stops }

def accept (s : State) (job : CandidateJob) (q : AsyncQueue CandidateJob) : State :=
  { s with queue := q, accepted := s.accepted ++ [job] }

def reject (s : State) (job : CandidateJob) (policy : OverflowPolicy) : State :=
  { s.countDropped policy with rejected := s.rejected ++ [job] }

def evict (s : State) (job : CandidateJob) : State :=
  { s.countDropped .dropOld with evicted := s.evicted ++ [job] }

def newJob (s : State) (requestId : Str) : CandidateJob := ⟨requestId, s.calls⟩

def called (s : State) : State := { s with calls := s.calls + 1 }

def enqueue (cfg : DispatcherConfig) (s : State) (requestId : Str) : State :=
  let job := s.newJob requestId
  let s := s.called
  match s.queue.putNowait job with
  | some q => s.accept job q
  | none =>
    match cfg.overflowPolicy with
    | .dropNew => s.reject job .dropNew
    | .dropOld =>
      match s.queue.getNowait with
      | none => s.reject job .dropOld
      | some (old, q) =>
        match taskDone { s with queue := q } with
        | none => { s with queue := q, valueErrors := s.valueErrors + 1 }
        | some s =>
          match s.queue.putNowait job with
          | some q => (s.evict old).accept job q
          | none => s.evict old

def start (cfg : DispatcherConfig) (s : State) : State :=
  if s.running then s else
    { s with
      running := true
      workers := s.workers ++ List.replicate cfg.workers {}
      tasks := s.tasks ++ List.range' s.workers.length cfg.workers }

def get (s : State) (i : ℕ) (job : CandidateJob) (q : AsyncQueue CandidateJob) : State :=
  { s with queue := q, started := s.started ++ [job] }.setWorker i ⟨.handling job, false⟩

def complete (s : State) (i : ℕ) (job : CandidateJob) : State :=
  let s := { s with handled := s.handled ++ [job] }
  match s.taskDone with
  | some s => s.setWorker i ⟨.idle, false⟩
  | none => { s.setWorker i ⟨.failed, false⟩ with valueErrors := s.valueErrors + 1 }

/-- The handler has raised `CancelledError`: the except branch and the finally clause both call `task_done`. -/
def abandon (s : State) (i : ℕ) : State :=
  match s.taskDone with
  | none => { s.setWorker i ⟨.failed, false⟩ with valueErrors := s.valueErrors + 2 }
  | some s =>
    match s.taskDone with
    | none => { s.setWorker i ⟨.failed, false⟩ with valueErrors := s.valueErrors + 1 }
    | some s => s.setWorker i ⟨.cancelled, false⟩

def cancelAll (s : State) : State :=
  { s with workers := s.workers.mapIdx fun i w => if s.tasks.contains i then w.cancel else w }

def stop (s : State) (drain : Bool) : State :=
  if s.running then
    let s := { s with running := false }
    if drain && s.queue.unfinished ≠ 0 then { s with stops := s.stops ++ [⟨.joining, s.accepted⟩] }
    else { s.cancelAll with stops := s.stops ++ [⟨.awaiting 0, s.accepted⟩] }
  else { s with stops := s.stops ++ [⟨.returned, s.accepted⟩] }

def resume (s : State) (n : ℕ) : StopCall → Option State
  | ⟨.woken, before⟩ => some (s.cancelAll.setStop n ⟨.awaiting 0, before⟩)
  | ⟨.awaiting k, before⟩ =>
    match s.tasks[k]? with
    | none => some ({ s with tasks := [] }.setStop n ⟨.returned, before⟩)
    | some i =>
      match s.workers[i]? with
      | some ⟨.cancelled, _⟩ => some (s.setStop n ⟨.awaiting (k + 1), before⟩)
      | some ⟨.failed, _⟩ => some (s.setStop n ⟨.raised, before⟩)
      | _ => none
  | _ => none

end State

/-- `deliver` raises the requested `CancelledError` at a worker's await; `raise` is a handler's own. -/
inductive Label where
  | start
  | enqueue (requestId : Str)
  | get (i : ℕ)
  | complete (i : ℕ)
  | raise (i : ℕ)
  | deliver (i : ℕ)
  | stop (drain : Bool)
  | resume (n : ℕ)
  deriving DecidableEq

def State.step (cfg : DispatcherConfig) (s : State) : Label → Option State
  | .start => some (s.start cfg)
  | .enqueue requestId => some (s.enqueue cfg requestId)
  | .get i =>
    match s.workers[i]?, s.queue.getNowait with
    | some ⟨.idle, false⟩, some (job, q) => some (s.get i job q)
    | _, _ => none
  | .complete i =>
    match s.workers[i]? with
    | some ⟨.handling job, false⟩ => some (s.complete i job)
    | _ => none
  | .raise i =>
    match s.workers[i]? with
    | some ⟨.handling _, false⟩ => some (s.abandon i)
    | _ => none
  | .deliver i =>
    match s.workers[i]? with
    | some ⟨.idle, true⟩ => some (s.setWorker i ⟨.cancelled, false⟩)
    | some ⟨.handling _, true⟩ => some (s.abandon i)
    | _ => none
  | .stop drain => some (s.stop drain)
  | .resume n => (s.stops[n]?).bind (s.resume n)

abbrev Run (cfg : DispatcherConfig) (C : List Label → State → Label → Prop) : List Label → State → Prop :=
  Effects.Trace (State.step cfg) C (State.initial cfg)

def smallest (overflowPolicy : OverflowPolicy) : DispatcherConfig := ⟨1, 1, overflowPolicy, le_rfl, le_rfl⟩

end ShadowProxy.InProcessDispatcher

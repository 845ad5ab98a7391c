import ShadowProxy.Api.Chat
import ShadowProxy.Effects.Threads
import ShadowProxy.Sweeper

/-! The proxy's processes over their shared stores: every coroutine is a thread, and a thread's steps
are the operations it awaits. -/

namespace ShadowProxy

open Effects

inductive Phase where
  | down
  | starting
  | serving
  deriving DecidableEq

structure Process where
  phase : Phase := .down
  queue : List CandidateJob := []
  busy : ℕ := 0
  sweeping : Bool := false
  sampleRate : ℚ := 1

structure State where
  clock : DateTime
  rows : SqlComparisonStore.Rows
  objects : Location → Option RawObject
  procs : ℕ → Process

inductive Task where
  | chat (c : ChatCall)
  | handle (job : CandidateJob)
  | sweep
  | startup

structure Kind where
  replica : ℕ
  task : Task

inductive Env where
  | tick (now : DateTime)
  | putConfig (replica : ℕ) (rate : ℚ)

namespace State

def initial (clock : DateTime) : State := ⟨clock, [], fun _ => none, fun _ => {}⟩

def row (s : State) (requestId : Str) : Option ComparisonRow := SqlComparisonStore.lookup requestId s.rows

def setProc (s : State) (x : ℕ) (p : Process) : State := { s with procs := Function.update s.procs x p }

def write (s : State) (loc : Location) (obj : Option RawObject) : State :=
  match obj with
  | none => s
  | some obj => { s with objects := Function.update s.objects loc (some obj) }

end State

/-- `lifespan` after the handler and the sweeper have been started. -/
def startup : Program Unit := do
  let _ ← requeueAllUnfinished
  perform .serve

section Proxy

variable (dep : Deployment)

def taskProgram : Task → Program Unit
  | .chat c => do let _ ← chat dep c
  | .handle job => CandidateHandler.call dep job.requestId
  | .sweep => do let _ ← Sweeper.runOnce dep
  | .startup => startup

def Deployment.locate (key : Str) : Location :=
  match dep.rawBackend with
  | none => []
  | some backend => backend.locate key

/-- The results an operation can have in a state. A store operation or a model call may always fail. -/
def legal (k : Kind) (s : State) : (o : Op) → Except Exn o.Ret → Prop
  | .now, .ok now => now = s.clock
  | .perfCounter, .ok _ => True
  | .chatCompletions _ _ _, .ok resp => toChatResponse dep.py dep.pydantic resp.raw = .ok resp
  | .rawPut requestId _, .ok key => key = keyFor s.clock requestId
  | .rawGet key, .ok payload => s.objects (dep.locate key) = some (.payload payload)
  | .insertPending record, .ok () => s.row record.requestId = none
  | .markInProgress _, .ok () => True
  | .finalize _ _, .ok () => True
  | .get requestId, .ok record => record = s.row requestId
  | .findStale threshold limit, .ok ids => SqlComparisonStore.FindStale s.clock threshold limit s.rows ids
  | .findAllUnfinished limit, .ok ids => SqlComparisonStore.FindAllUnfinished limit s.rows ids
  | .sample, .ok (rate, draw) => rate = (s.procs k.replica).sampleRate ∧ 0 ≤ draw ∧ draw < 1
  | .enqueue requestId, .ok dispatch =>
    dispatch = (InProcessDispatcher.enqueue dep.config.dispatcher (s.procs k.replica).queue ⟨requestId, 0⟩).2
  | .count _, .ok () => True
  | .offer _, .ok () => True
  | .serve, .ok () => True
  | .chatCompletions _ _ _, .error _ | .rawPut _ _, .error _ | .rawGet _, .error _ | .insertPending _, .error _
  | .markInProgress _, .error _ | .finalize _ _, .error _ | .get _, .error _ | .findStale _ _, .error _
  | .findAllUnfinished _, .error _ => True
  | .now, .error _ | .perfCounter, .error _ | .sample, .error _ | .enqueue _, .error _ | .count _, .error _
  | .offer _, .error _ | .serve, .error _ => False

/-- A failed statement of the comparison store leaves the table as it was. -/
def after (t : ℕ) (k : Kind) (s : State) : (o : Op) → Except Exn o.Ret → State
  | .rawPut requestId payload, res =>
    s.write (dep.locate (keyFor s.clock requestId)) (RawObject.ofPut payload res)
  | .insertPending record, .ok () => { s with rows := SqlComparisonStore.insertPending record s.rows }
  | .markInProgress requestId, .ok () =>
    { s with rows := SqlComparisonStore.markInProgress s.clock requestId s.rows }
  | .finalize requestId patch, .ok () =>
    { s with rows := SqlComparisonStore.finalize s.clock requestId patch s.rows }
  | .enqueue requestId, .ok _ =>
    let p := s.procs k.replica
    s.setProc k.replica
      { p with queue := (InProcessDispatcher.enqueue dep.config.dispatcher p.queue ⟨requestId, t⟩).1 }
  | .serve, .ok () =>
    let p := s.procs k.replica
    s.setProc k.replica { p with phase := .serving, sampleRate := 1 }
  | _, _ => s

def canSpawn (s : State) (k : Kind) : Prop :=
  let p := s.procs k.replica
  match k.task with
  | .chat _ => p.phase = .serving
  | .handle job => p.phase ≠ .down ∧ p.queue.head? = some job ∧ p.busy < dep.config.dispatcher.workers
  | .sweep => p.phase ≠ .down ∧ p.sweeping = false
  | .startup => p.phase = .down

def onSpawn (s : State) (k : Kind) : State :=
  let p := s.procs k.replica
  match k.task with
  | .chat _ => s
  | .handle _ => s.setProc k.replica { p with queue := p.queue.tail, busy := p.busy + 1 }
  | .sweep => s.setProc k.replica { p with sweeping := true }
  | .startup => s.setProc k.replica { phase := .starting }

def onExit (s : State) (k : Kind) : State :=
  let p := s.procs k.replica
  match k.task with
  | .handle _ => s.setProc k.replica { p with busy := p.busy - 1 }
  | .sweep => s.setProc k.replica { p with sweeping := false }
  | _ => s

def canEnv (s : State) : Env → Prop
  | .tick now => s.clock.instant ≤ now.instant
  | .putConfig x rate => (s.procs x).phase = .serving ∧ 0 ≤ rate ∧ rate ≤ 1

def onEnv (s : State) : Env → State
  | .tick now => { s with clock := now }
  | .putConfig x rate => s.setProc x { s.procs x with sampleRate := rate }

abbrev system : System proxy where
  State := State
  Kind := Kind
  Env := Env
  site := Kind.replica
  program := fun k => taskProgram dep k.task
  legal := legal dep
  after := after dep
  canSpawn := canSpawn dep
  onSpawn := onSpawn
  onExit := onExit
  canEnv := canEnv
  onEnv := onEnv
  onCrash := fun s x => s.setProc x {}

end Proxy

end ShadowProxy

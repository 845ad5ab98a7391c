import ShadowProxy.Dispatcher.Stages
import ShadowProxy.Lifecycle.SweeperTask
import ShadowProxy.Tape.Flush

/-! `lifespan`: what it starts, what the server and the tasks do in between, and the order in which it ends it
all. -/

namespace ShadowProxy.Lifespan

open Data

/-- Where the lifespan is: from `stopping` on, `draining` and `flushing` it waits for the part that it has told
to stop. -/
inductive Phase where
  | booting
  | taped
  | dispatching
  | reconciling
  | serving
  | stopping
  | draining
  | flushing
  | closing
  | stopped
  | failed
  deriving DecidableEq

def Phase.rank : Phase → ℕ
  | .booting => 0
  | .taped => 1
  | .dispatching => 2
  | .reconciling => 3
  | .serving => 4
  | .stopping => 5
  | .draining => 6
  | .flushing => 7
  | .closing => 8
  | .stopped => 9
  | .failed => 10

inductive Resource where
  | primaryClient
  | candidateClient
  | rawStore
  | store
  | mismatchTape
  deriving DecidableEq

def resources (archived : Bool) : List Resource :=
  [.primaryClient, .candidateClient] ++ (if archived then [.rawStore] else []) ++ [.store]

/-- `requests` are being served, and `toClose` has what is still to be closed after the tape. -/
structure State where
  phase : Phase := .booting
  requests : ℕ := 0
  tape : MismatchTape.State
  dispatcher : InProcessDispatcher.State
  sweeper : Sweeper.LoopState := {}
  toClose : List Resource
  closed : List Resource := []

namespace State

def initial (cfg : DispatcherConfig) (queueSize : ℕ) (archived : Bool) : State where
  tape := .initial queueSize
  dispatcher := .initial cfg
  toClose := resources archived

def onTape (s : State) (l : MismatchTape.Label) : Option State := (s.tape.step l).map fun t => { s with tape := t }

def onDispatcher (cfg : DispatcherConfig) (s : State) (l : InProcessDispatcher.Label) : Option State :=
  (s.dispatcher.step cfg l).map fun d => { s with dispatcher := d }

def onSweeper (s : State) (l : Sweeper.LoopLabel) : Option State :=
  (s.sweeper.step l).map fun w => { s with sweeper := w }

def enter (phase : Phase) (s : State) : State := { s with phase := phase }

/-- The next call of the lifespan, once the one before has returned. The server lets it go on when no request is
left. -/
def advance (cfg : DispatcherConfig) (s : State) : Option State :=
  match s.phase with
  | .booting => (s.onTape .start).map (enter .taped)
  | .taped => (s.onDispatcher cfg .start).map (enter .dispatching)
  | .dispatching => (s.onSweeper .start).map (enter .reconciling)
  | .reconciling => some (s.enter .serving)
  | .serving => if s.requests = 0 then (s.onSweeper .stop).map (enter .stopping) else none
  | .stopping => if s.sweeper.stopping then none else (s.onDispatcher cfg (.stop true)).map (enter .draining)
  | .draining =>
    if ∀ c ∈ s.dispatcher.stops, c.phase = .returned then (s.onTape .aclose).map (enter .flushing) else none
  | .flushing => if s.tape.closing = .joining then none else some (s.enter .closing)
  | .closing =>
    match s.toClose with
    | [] => some (s.enter .stopped)
    | r :: rest => some { s with toClose := rest, closed := s.closed ++ [r] }
  | .stopped | .failed => none

end State

/-- `fail` is an exception in a call of the lifespan, and `offer` one of the tape's rows from a worker's
handler. -/
inductive Label where
  | advance
  | fail
  | arrive
  | answer
  | enqueue (requestId : Str)
  | worker (l : InProcessDispatcher.Label)
  | offer (i : ℕ) (row : TapeRow)
  | tape (l : MismatchTape.Label)
  | sweeper (l : Sweeper.LoopLabel)

def ofTask : InProcessDispatcher.Label → Bool
  | .get _ | .complete _ | .deliver _ | .resume _ => true
  | _ => false

def ofWriter : MismatchTape.Label → Bool
  | .run | .timeout | .join | .giveUp => true
  | _ => false

def ofLoop : Sweeper.LoopLabel → Bool
  | .test _ | .ticked _ _ | .expire | .deliver _ | .resume => true
  | _ => false

def State.step (cfg : DispatcherConfig) (s : State) : Label → Option State
  | .advance => s.advance cfg
  | .fail =>
    match s.phase with
    | .serving | .stopped | .failed => none
    | _ => some (s.enter .failed)
  | .arrive => if s.phase = .serving then some { s with requests := s.requests + 1 } else none
  | .answer => if s.requests = 0 then none else some { s with requests := s.requests - 1 }
  | .enqueue r => if s.phase = .reconciling ∨ s.requests ≠ 0 then s.onDispatcher cfg (.enqueue r) else none
  | .worker l => if ofTask l then s.onDispatcher cfg l else none
  | .offer i row =>
    if ((s.dispatcher.workers[i]?).bind InProcessDispatcher.Worker.job?).isSome then s.onTape (.offer row)
    else none
  | .tape l => if ofWriter l then s.onTape l else none
  | .sweeper l => if ofLoop l then s.onSweeper l else none

abbrev Run (cfg : DispatcherConfig) (queueSize : ℕ) (archived : Bool) : List Label → State → Prop :=
  Effects.Trace (State.step cfg) (fun _ _ _ => True) (State.initial cfg queueSize archived)

inductive State.Uses (s : State) : Resource → Prop
  | request {r : Resource} : s.requests ≠ 0 → r = .primaryClient ∨ r = .rawStore ∨ r = .store → Uses s r
  | handler {r : Resource} (w : InProcessDispatcher.Worker) : w ∈ s.dispatcher.workers → w.job? ≠ none →
      r ≠ .primaryClient → Uses s r
  | sweep (i : ℕ) : s.sweeper.Sweeping i → Uses s .store

def State.Open (s : State) : Resource → Prop
  | .mismatchTape => s.tape.writer ≠ .absent ∧ s.tape.closing = .notCalled
  | r => r ∉ s.closed

section Moves

variable {cfg : DispatcherConfig} {s s' : State} {l : Label}

def AllReturned (d : InProcessDispatcher.State) : Prop := ∀ c ∈ d.stops, c.phase = .returned

inductive Advances (cfg : DispatcherConfig) (s : State) : State → Prop
  | startTape {t : MismatchTape.State} : s.phase = .booting → s.tape.step .start = some t →
      Advances cfg s { s with tape := t, phase := .taped }
  | startDispatcher {d : InProcessDispatcher.State} : s.phase = .taped → s.dispatcher.step cfg .start = some d →
      Advances cfg s { s with dispatcher := d, phase := .dispatching }
  | startSweeper {w : Sweeper.LoopState} : s.phase = .dispatching → s.sweeper.step .start = some w →
      Advances cfg s { s with sweeper := w, phase := .reconciling }
  | serve : s.phase = .reconciling → Advances cfg s { s with phase := .serving }
  | stopSweeper {w : Sweeper.LoopState} : s.phase = .serving → s.requests = 0 → s.sweeper.step .stop = some w →
      Advances cfg s { s with sweeper := w, phase := .stopping }
  | stopDispatcher {d : InProcessDispatcher.State} : s.phase = .stopping → s.sweeper.stopping = false →
      s.dispatcher.step cfg (.stop true) = some d → Advances cfg s { s with dispatcher := d, phase := .draining }
  | closeTape {t : MismatchTape.State} : s.phase = .draining → AllReturned s.dispatcher →
      s.tape.step .aclose = some t →
      Advances cfg s { s with tape := t, phase := .flushing }
  | flushed : s.phase = .flushing → s.tape.closing ≠ .joining → Advances cfg s { s with phase := .closing }
  | close {r : Resource} {rest : List Resource} : s.phase = .closing → s.toClose = r :: rest →
      Advances cfg s { s with toClose := rest, closed := s.closed ++ [r] }
  | stop : s.phase = .closing → s.toClose = [] → Advances cfg s { s with phase := .stopped }

lemma advance_cases (hs : s.advance cfg = some s') : Advances cfg s s' := by
  rw [State.advance] at hs
  split at hs
  · rename_i hp
    simp only [State.onTape, Option.map_map, Option.map_eq_some_iff] at hs
    obtain ⟨t, ht, rfl⟩ := hs
    exact .startTape hp ht
  · rename_i hp
    simp only [State.onDispatcher, Option.map_map, Option.map_eq_some_iff] at hs
    obtain ⟨d, hd, rfl⟩ := hs
    exact .startDispatcher hp hd
  · rename_i hp
    simp only [State.onSweeper, Option.map_map, Option.map_eq_some_iff] at hs
    obtain ⟨w, hw, rfl⟩ := hs
    exact .startSweeper hp hw
  · rename_i hp
    obtain rfl := Option.some.inj hs
    exact .serve hp
  · rename_i hp
    obtain ⟨hnone, hs⟩ := Option.ite_none_right_eq_some.mp hs
    simp only [State.onSweeper, Option.map_map, Option.map_eq_some_iff] at hs
    obtain ⟨w, hw, rfl⟩ := hs
    exact .stopSweeper hp hnone hw
  · rename_i hp
    obtain ⟨hstopping, hs⟩ := Option.ite_none_left_eq_some.mp hs
    simp only [State.onDispatcher, Option.map_map, Option.map_eq_some_iff] at hs
    obtain ⟨d, hd, rfl⟩ := hs
    exact .stopDispatcher hp (by simpa using hstopping) hd
  · rename_i hp
    obtain ⟨hreturned, hs⟩ := Option.ite_none_right_eq_some.mp hs
    simp only [State.onTape, Option.map_map, Option.map_eq_some_iff] at hs
    obtain ⟨t, ht, rfl⟩ := hs
    exact .closeTape hp hreturned ht
  · rename_i hp
    obtain ⟨hjoining, hs⟩ := Option.ite_none_left_eq_some.mp hs
    obtain rfl := Option.some.inj hs
    exact .flushed hp hjoining
  · rename_i hp
    split at hs
    · rename_i hnil
      obtain rfl := Option.some.inj hs
      exact .stop hp hnil
    · rename_i hcons
      obtain rfl := Option.some.inj hs
      exact .close hp hcons
  · cases hs
  · cases hs

inductive Moves (cfg : DispatcherConfig) (s : State) : State → Prop
  | advanced {s' : State} : Advances cfg s s' → Moves cfg s s'
  | failed : s.phase ≠ .serving → Moves cfg s { s with phase := .failed }
  | request {n : ℕ} : (n ≠ 0 → s.phase = .serving ∨ s.requests ≠ 0) → Moves cfg s { s with requests := n }
  | enqueued {r : Str} {d : InProcessDispatcher.State} : s.phase = .reconciling ∨ s.requests ≠ 0 →
      s.dispatcher.step cfg (.enqueue r) = some d → Moves cfg s { s with dispatcher := d }
  | worked {l : InProcessDispatcher.Label} {d : InProcessDispatcher.State} : ofTask l = true →
      s.dispatcher.step cfg l = some d →
      Moves cfg s { s with dispatcher := d }
  | offered {row : TapeRow} {t : MismatchTape.State} : s.tape.step (.offer row) = some t →
      Moves cfg s { s with tape := t }
  | written {l : MismatchTape.Label} {t : MismatchTape.State} : ofWriter l = true → s.tape.step l = some t →
      Moves cfg s { s with tape := t }
  | looped {l : Sweeper.LoopLabel} {w : Sweeper.LoopState} : ofLoop l = true → s.sweeper.step l = some w →
      Moves cfg s { s with sweeper := w }

lemma step_moves (hs : s.step cfg l = some s') : Moves cfg s s' := by
  cases l with
  | advance => exact .advanced (advance_cases hs)
  | fail =>
    simp only [State.step] at hs
    split at hs
    · cases hs
    · cases hs
    · cases hs
    · rename_i hserving _ _
      obtain rfl := Option.some.inj hs
      exact .failed hserving
  | arrive =>
    obtain ⟨hp, he⟩ := Option.ite_none_right_eq_some.mp hs
    obtain rfl := Option.some.inj he
    exact .request fun _ => .inl hp
  | answer =>
    obtain ⟨hne, he⟩ := Option.ite_none_left_eq_some.mp hs
    obtain rfl := Option.some.inj he
    exact .request fun _ => .inr hne
  | enqueue r =>
    obtain ⟨hp, he⟩ := Option.ite_none_right_eq_some.mp hs
    obtain ⟨d, hd, rfl⟩ := Option.map_eq_some_iff.mp he
    exact .enqueued hp hd
  | worker l =>
    obtain ⟨hl, he⟩ := Option.ite_none_right_eq_some.mp hs
    obtain ⟨d, hd, rfl⟩ := Option.map_eq_some_iff.mp he
    exact .worked hl hd
  | offer i row =>
    obtain ⟨-, he⟩ := Option.ite_none_right_eq_some.mp hs
    obtain ⟨t, ht, rfl⟩ := Option.map_eq_some_iff.mp he
    exact .offered ht
  | tape l =>
    obtain ⟨hl, he⟩ := Option.ite_none_right_eq_some.mp hs
    obtain ⟨t, ht, rfl⟩ := Option.map_eq_some_iff.mp he
    exact .written hl ht
  | sweeper l =>
    obtain ⟨hl, he⟩ := Option.ite_none_right_eq_some.mp hs
    obtain ⟨w, hw, rfl⟩ := Option.map_eq_some_iff.mp he
    exact .looped hl hw

end Moves

section Dispatcher

variable {cfg : DispatcherConfig} {d d' : InProcessDispatcher.State} {l : InProcessDispatcher.Label}

structure Emptied (d : InProcessDispatcher.State) : Prop where
  running : d.stops ≠ [] → d.running = false
  unfinished : ∀ c ∈ d.stops, c.phase ≠ .joining → d.queue.unfinished = 0

lemma quiet_of_unfinished (h : InProcessDispatcher.Sound cfg d) (hd : d.queue.unfinished = 0) : d.Quiet := by
  intro w hw
  have hcount := h.accounted.counter
  have hnil : d.inFlight = [] := List.eq_nil_of_length_eq_zero (by omega)
  exact List.filterMap_eq_nil_iff.mp hnil w hw

lemma Emptied.orderly (h : InProcessDispatcher.Sound cfg d) (he : Emptied d) (hl : ofTask l = true) :
    InProcessDispatcher.Orderly d l := by
  cases l with
  | start | enqueue r | raise i | stop drain => cases hl
  | get i | complete i | deliver i => trivial
  | resume n =>
    intro hphase
    obtain ⟨c, hc, hphase⟩ := Option.map_eq_some_iff.mp hphase
    exact quiet_of_unfinished h (he.unfinished c (List.mem_of_getElem? hc) (by simp [hphase]))

lemma resume_moves {n : ℕ} (hs : d.step cfg (.resume n) = some d') :
    ∃ c new, d.stops[n]? = some c ∧ c.phase ≠ .joining ∧
    c.phase ≠ .returned ∧ d'.stops = d.stops.set n new ∧ d'.queue = d.queue ∧ d'.running = d.running ∧
    d'.workers.length = d.workers.length := by
  obtain ⟨before, ⟨hc, rfl⟩ | ⟨k, hc, ⟨-, rfl⟩ | ⟨i, c, -, ⟨-, rfl⟩ | ⟨-, rfl⟩⟩⟩⟩ :=
    InProcessDispatcher.step_resume.mp hs
  · exact ⟨_, _, hc, by simp, by simp, rfl, rfl, rfl, List.length_mapIdx⟩
  all_goals
    exact ⟨_, _, hc, by simp, by simp, rfl, rfl, rfl, rfl⟩

structure Frame (d d' : InProcessDispatcher.State) : Prop where
  emptied : Emptied d'
  running : d'.running = d.running
  length : d'.workers.length = d.workers.length
  stops : d'.stops.length = d.stops.length
  returned : AllReturned d → AllReturned d'

lemma task_frame (h : InProcessDispatcher.Sound cfg d) (he : Emptied d) (hl : ofTask l = true)
    (hs : d.step cfg l = some d') : Frame d d' := by
  cases l with
  | start | enqueue r | raise i | stop drain => cases hl
  | get i =>
    obtain ⟨job, q, hw, hq, rfl⟩ := InProcessDispatcher.step_get.mp hs
    obtain ⟨-, -, hun⟩ := AsyncQueue.getNowait_eq_some.mp hq
    refine ⟨⟨he.running, fun c hc hp => ?_⟩, rfl, List.length_set .., rfl, id⟩
    exact hun.trans (he.unfinished c hc hp)
  | complete i =>
    obtain ⟨job, hw, rfl⟩ := InProcessDispatcher.step_complete.mp hs
    obtain ⟨q, hdone, heq⟩ := h.accounted.complete_eq hw
    obtain ⟨hq, -, -⟩ := AsyncQueue.taskDone_eq_some.mp hdone
    rw [heq]
    by_cases hzero : q.unfinished = 0
    · refine ⟨⟨fun hne => he.running ?_, fun _ _ _ => hzero⟩, rfl, List.length_set .., ?_, fun hall c hc => ?_⟩
      · simpa [hzero] using hne
      · simp [hzero]
      · simp only [hzero, if_true, List.mem_map] at hc
        obtain ⟨c, hc, rfl⟩ := hc
        rw [InProcessDispatcher.wake_of_ne (by simp [hall c hc])]
        exact hall c hc
    · refine ⟨⟨fun hne => he.running ?_, fun c hc hp => ?_⟩, rfl, List.length_set .., ?_, fun hall c hc => ?_⟩
      · simpa [hzero] using hne
      · have hc' : c ∈ d.stops := by simpa [hzero] using hc
        have hcount := he.unfinished c hc' hp
        omega
      · simp [hzero]
      · exact hall c (by simpa [hzero] using hc)
  | deliver i =>
    rcases InProcessDispatcher.step_deliver.mp hs with ⟨hw, rfl⟩ | ⟨⟨job, hw⟩, -⟩
    · exact ⟨⟨he.running, he.unfinished⟩, rfl, List.length_set .., rfl, id⟩
    · exact absurd hw h.stage.deliver
  | resume n =>
    obtain ⟨c, new, hc, hjoining, hreturned, hstops, hqueue, hrunning, hlength⟩ := resume_moves hs
    have hmem := List.mem_of_getElem? hc
    have hzero : d'.queue.unfinished = 0 := hqueue ▸ he.unfinished c hmem hjoining
    refine ⟨⟨fun _ => ?_, fun _ _ _ => hzero⟩, hrunning, hlength, by rw [hstops, List.length_set], fun hall => ?_⟩
    · rw [hrunning]
      exact he.running (List.ne_nil_of_mem hmem)
    · exact absurd (hall c hmem) hreturned

end Dispatcher

section Ordered

variable {cfg : DispatcherConfig} {queueSize : ℕ} {archived : Bool} {s s' : State} {l : Label} {L : List Label}

structure Ordered (cfg : DispatcherConfig) (queueSize : ℕ) (s : State) : Prop where
  dispatcher : InProcessDispatcher.Sound cfg s.dispatcher
  emptied : Emptied s.dispatcher
  sweeper : Sweeper.Kept s.sweeper
  tape : MismatchTape.Consistent queueSize s.tape
  requests : s.requests ≠ 0 → s.phase = .serving
  taped : 1 ≤ s.phase.rank → s.phase.rank ≤ 9 → s.tape.writer ≠ .absent
  manned : s.dispatcher.workers ≠ [] → s.tape.writer ≠ .absent
  running : 2 ≤ s.phase.rank → s.phase.rank ≤ 5 → s.dispatcher.running = true
  swept : s.phase = .stopping → s.sweeper.stopping = true ∨ s.sweeper.task = none
  unstopped : s.dispatcher.stops ≠ [] → 6 ≤ s.phase.rank ∧ Sweeper.Stopped s.sweeper
  stopped : 6 ≤ s.phase.rank → s.phase.rank ≤ 9 → s.dispatcher.stops ≠ []
  untold : s.tape.closing ≠ .notCalled → 7 ≤ s.phase.rank ∧ s.dispatcher.stops ≠ [] ∧ AllReturned s.dispatcher
  told : 7 ≤ s.phase.rank → s.phase.rank ≤ 9 → s.tape.closing ≠ .notCalled
  flushed : 8 ≤ s.phase.rank → s.phase.rank ≤ 9 → s.tape.closing ≠ .joining
  closed : s.closed ≠ [] → s.tape.closing ≠ .notCalled

lemma ordered_initial : Ordered cfg queueSize (State.initial cfg queueSize archived) where
  dispatcher := InProcessDispatcher.sound_initial cfg
  emptied := ⟨fun _ => rfl, fun c hc => by cases hc⟩
  sweeper := Sweeper.kept_initial
  tape := MismatchTape.consistent_initial queueSize
  requests h := absurd rfl h
  taped h := by simp [State.initial, Phase.rank] at h
  manned h := absurd rfl h
  running h := by simp [State.initial, Phase.rank] at h
  swept h := by cases h
  unstopped h := absurd rfl h
  stopped h := by simp [State.initial, Phase.rank] at h
  untold h := absurd rfl h
  told h := by simp [State.initial, Phase.rank] at h
  flushed h := by simp [State.initial, Phase.rank] at h
  closed h := absurd rfl h

lemma Ordered.unstopped_of (h : Ordered cfg queueSize s) (hr : s.phase.rank < 6) : s.dispatcher.stops = [] := by
  by_contra hne
  have hrank := (h.unstopped hne).1
  omega

lemma Ordered.untold_of (h : Ordered cfg queueSize s) (hr : s.phase.rank < 7) : s.tape.closing = .notCalled := by
  by_contra hne
  have hrank := (h.untold hne).1
  omega

lemma Ordered.worker {l : InProcessDispatcher.Label} {d : InProcessDispatcher.State}
    (h : Ordered cfg queueSize s) (hl : ofTask l = true) (hs : s.dispatcher.step cfg l = some d) :
    Ordered cfg queueSize { s with dispatcher := d } := by
  have hf := task_frame h.dispatcher h.emptied hl hs
  have hstops : d.stops ≠ [] ↔ s.dispatcher.stops ≠ [] := by
    rw [← List.length_pos_iff, ← List.length_pos_iff, hf.stops]
  have hworkers : d.workers ≠ [] ↔ s.dispatcher.workers ≠ [] := by
    rw [← List.length_pos_iff, ← List.length_pos_iff, hf.length]
  exact { h with
    dispatcher := h.dispatcher.step (h.emptied.orderly h.dispatcher hl) hs
    emptied := hf.emptied
    manned := fun hne => h.manned (hworkers.mp hne)
    running := fun hlo hhi => hf.running.trans (h.running hlo hhi)
    unstopped := fun hne => h.unstopped (hstops.mp hne)
    stopped := fun hlo hhi => hstops.mpr (h.stopped hlo hhi)
    untold := fun hc => ⟨(h.untold hc).1, hstops.mpr (h.untold hc).2.1, hf.returned (h.untold hc).2.2⟩ }

lemma Ordered.enqueue {r : Str} {d : InProcessDispatcher.State} (h : Ordered cfg queueSize s)
    (hp : s.phase = .reconciling ∨ s.requests ≠ 0) (hs : s.dispatcher.step cfg (.enqueue r) = some d) :
    Ordered cfg queueSize { s with dispatcher := d } := by
  have hrank : s.phase.rank < 6 := by
    rcases hp with hp | hp
    · simp [hp, Phase.rank]
    · simp [h.requests hp, Phase.rank]
  have hnil := h.unstopped_of hrank
  have horderly : InProcessDispatcher.Orderly s.dispatcher (.enqueue r) := trivial
  have hsound := h.dispatcher.step horderly hs
  obtain rfl := Option.some.inj hs
  obtain ⟨q, stops, total, accepted, rejected, evicted, errors, heq, hwoken, -⟩ :=
    InProcessDispatcher.enqueue_frame cfg s.dispatcher r
  have hstops : stops = [] := by
    rcases hwoken with hw | hw <;> rw [hw, hnil]
    rfl
  rw [heq] at hsound ⊢
  exact { h with
    dispatcher := hsound
    emptied := ⟨fun hne => absurd hstops hne, fun c hc => by simp [hstops] at hc⟩
    unstopped := fun hne => absurd hstops hne
    stopped := fun hlo => absurd hlo (not_le.mpr hrank)
    untold := fun hc => absurd (h.untold_of (by omega)) hc }

lemma Ordered.offer {row : TapeRow} {t : MismatchTape.State} (h : Ordered cfg queueSize s)
    (hs : s.tape.step (.offer row) = some t) : Ordered cfg queueSize { s with tape := t } := by
  have hconsistent := h.tape.step hs
  obtain rfl := Option.some.inj hs
  obtain ⟨q, evicted, heq, -⟩ := h.tape.offer_cases row
  rw [heq] at hconsistent ⊢
  exact { h with tape := hconsistent }

lemma writerLoop_writer (stopped : Bool) (items : List (Option MismatchTape.Offered))
    (mismatches : List MismatchTape.Offered) :
    (MismatchTape.State.writerLoop stopped items mismatches).1 ≠ .absent := by
  fun_induction MismatchTape.State.writerLoop stopped items mismatches with
  | case1 | case2 | case3 => simp
  | case4 _ _ _ _ ih => exact ih

lemma writer_frame {l : MismatchTape.Label} {t t' : MismatchTape.State} (hl : ofWriter l = true)
    (hs : t.step l = some t') :
    t'.writer ≠ .absent ∧
      (t'.closing = t.closing ∨ t.closing = .joining ∧ t'.closing ≠ .notCalled ∧ t'.closing ≠ .joining) := by
  cases l with
  | start | offer row | aclose => cases hl
  | run =>
    rcases MismatchTape.step_run hs with ⟨-, rfl⟩ | ⟨-, entry, items, -, rfl⟩
    · exact ⟨writerLoop_writer _ _ _, .inl rfl⟩
    · cases entry with
      | none => exact ⟨by simp [MismatchTape.State.got], .inl rfl⟩
      | some row => exact ⟨writerLoop_writer _ _ _, .inl rfl⟩
  | timeout =>
    obtain ⟨-, rfl⟩ := MismatchTape.step_timeout hs
    exact ⟨writerLoop_writer _ _ _, .inl rfl⟩
  | join =>
    obtain ⟨⟨hc, hw⟩, he⟩ := Option.ite_none_right_eq_some.mp hs
    obtain rfl := Option.some.inj he
    exact ⟨by simp [hw], .inr ⟨hc, by simp⟩⟩
  | giveUp =>
    obtain ⟨⟨hc, -⟩, he⟩ := Option.ite_none_right_eq_some.mp hs
    obtain rfl := Option.some.inj he
    exact ⟨by simp, .inr ⟨hc, by simp⟩⟩

lemma Ordered.writer {l : MismatchTape.Label} {t : MismatchTape.State} (h : Ordered cfg queueSize s)
    (hl : ofWriter l = true) (hs : s.tape.step l = some t) : Ordered cfg queueSize { s with tape := t } := by
  obtain ⟨hw, hclosing⟩ := writer_frame hl hs
  have htold : t.closing ≠ .notCalled ↔ s.tape.closing ≠ .notCalled := by
    rcases hclosing with hc | ⟨hc, hc', -⟩
    · rw [hc]
    · simp [hc, hc']
  have hflushed : s.tape.closing ≠ .joining → t.closing ≠ .joining := by
    rcases hclosing with hc | ⟨-, -, hc⟩
    · rw [hc]
      exact id
    · exact fun _ => hc
  exact { h with
    tape := h.tape.step hs
    taped := fun _ _ => hw
    manned := fun _ => hw
    untold := fun hc => h.untold (htold.mp hc)
    told := fun hlo hhi => htold.mpr (h.told hlo hhi)
    flushed := fun hlo hhi => hflushed (h.flushed hlo hhi)
    closed := fun hc => htold.mpr (h.closed hc) }

lemma stopped_frame {l : Sweeper.LoopLabel} {w w' : Sweeper.LoopState} (hl : ofLoop l = true)
    (hstopped : Sweeper.Stopped w) (hs : w.step l = some w') : w' = w := by
  obtain ⟨hstopping, hnone⟩ := hstopped
  cases Sweeper.step_moves hs with
  | started | stopped => cases hl
  | idle => rfl
  | tested ht hp => exact absurd ⟨_, ht, by rcases hp with rfl | rfl <;> simp⟩ (hnone _)
  | ticked ht => exact absurd ⟨_, ht, by simp⟩ (hnone _)
  | expired hno => simp [hstopping] at hno
  | cancelled ht hp => exact absurd ⟨_, ht, hp⟩ (hnone _)
  | returned hno => simp [hstopping] at hno

lemma loop_swept {l : Sweeper.LoopLabel} {w w' : Sweeper.LoopState} (hl : ofLoop l = true) (hk : Sweeper.Kept w)
    (hswept : w.stopping = true ∨ w.task = none) (hs : w.step l = some w') :
    w'.stopping = true ∨ w'.task = none := by
  by_cases hstopping : w.stopping = true
  · cases Sweeper.step_moves hs with
    | started hno | stopped hno | idle hno => simp [hstopping] at hno
    | tested | ticked | expired | cancelled => exact .inl hstopping
    | returned => exact .inr rfl
  · rw [stopped_frame hl (hk.stopped (by simpa using hstopping) (hswept.resolve_left hstopping)) hs]
    exact hswept

lemma Ordered.loop {l : Sweeper.LoopLabel} {w : Sweeper.LoopState} (h : Ordered cfg queueSize s)
    (hl : ofLoop l = true) (hs : s.sweeper.step l = some w) : Ordered cfg queueSize { s with sweeper := w } := by
  exact { h with
    sweeper := h.sweeper.step hs
    swept := fun hp => loop_swept hl h.sweeper (h.swept hp) hs
    unstopped := fun hne => by
      obtain ⟨hrank, hstopped⟩ := h.unstopped hne
      obtain rfl := stopped_frame hl hstopped hs
      exact ⟨hrank, hstopped⟩ }

lemma Ordered.fail (h : Ordered cfg queueSize s) (hserving : s.phase ≠ .serving) :
    Ordered cfg queueSize { s with phase := .failed } := by
  have hpast : ∀ {n : ℕ}, n ≤ 9 → ¬ Phase.failed.rank ≤ n := fun hn hle => by
    have hrank : Phase.failed.rank = 10 := rfl
    omega
  exact { h with
    requests := fun hne => absurd (h.requests hne) hserving
    taped := fun _ hhi => absurd hhi (hpast le_rfl)
    running := fun _ hhi => absurd hhi (hpast (by simp))
    swept := fun hp => by cases hp
    unstopped := fun hne => ⟨by simp [Phase.rank], (h.unstopped hne).2⟩
    stopped := fun _ hhi => absurd hhi (hpast le_rfl)
    untold := fun hc => ⟨by simp [Phase.rank], (h.untold hc).2⟩
    told := fun _ hhi => absurd hhi (hpast le_rfl)
    flushed := fun _ hhi => absurd hhi (hpast le_rfl) }

lemma Ordered.early (h : Ordered cfg queueSize s) (hr : s.phase.rank < 6) :
    s.dispatcher.stops = [] ∧ s.tape.closing = .notCalled ∧ s.closed = [] := by
  refine ⟨h.unstopped_of hr, h.untold_of (by omega), ?_⟩
  by_contra hne
  exact h.closed hne (h.untold_of (by omega))

lemma ordered_early (hr : s.phase.rank < 6) (hd : InProcessDispatcher.Sound cfg s.dispatcher)
    (hk : Sweeper.Kept s.sweeper) (ht : MismatchTape.Consistent queueSize s.tape)
    (hnone : s.dispatcher.stops = [] ∧ s.tape.closing = .notCalled ∧ s.closed = [])
    (hrequests : s.requests ≠ 0 → s.phase = .serving) (htaped : 1 ≤ s.phase.rank → s.tape.writer ≠ .absent)
    (hmanned : s.dispatcher.workers ≠ [] → s.tape.writer ≠ .absent)
    (hrunning : 2 ≤ s.phase.rank → s.dispatcher.running = true)
    (hswept : s.phase = .stopping → s.sweeper.stopping = true ∨ s.sweeper.task = none) :
    Ordered cfg queueSize s where
  dispatcher := hd
  emptied := ⟨fun hne => absurd hnone.1 hne, fun c hc => by simp [hnone.1] at hc⟩
  sweeper := hk
  tape := ht
  requests := hrequests
  taped hlo _ := htaped hlo
  manned := hmanned
  running hlo _ := hrunning hlo
  swept := hswept
  unstopped hne := absurd hnone.1 hne
  stopped hlo := absurd hlo (not_le.mpr hr)
  untold hc := absurd hnone.2.1 hc
  told hlo := by omega
  flushed hlo := by omega
  closed hne := absurd hnone.2.2 hne

lemma Ordered.startTape {t : MismatchTape.State} (h : Ordered cfg queueSize s) (hp : s.phase = .booting)
    (hs : s.tape.step .start = some t) : Ordered cfg queueSize { s with tape := t, phase := .taped } := by
  have hk := h.tape.step hs
  have hnone := h.early (by simp [hp, Phase.rank])
  obtain ⟨-, he⟩ := Option.ite_none_right_eq_some.mp hs
  obtain rfl := Option.some.inj he
  exact ordered_early (by simp [Phase.rank]) h.dispatcher h.sweeper hk hnone
    (fun hne => by simp [h.requests hne] at hp)
    (fun _ => by simp) (fun _ => by simp) (fun hlo => by simp [Phase.rank] at hlo) fun hp => by cases hp

lemma Ordered.startDispatcher {d : InProcessDispatcher.State} (h : Ordered cfg queueSize s)
    (hp : s.phase = .taped) (hs : s.dispatcher.step cfg .start = some d) :
    Ordered cfg queueSize { s with dispatcher := d, phase := .dispatching } := by
  have hnone := h.early (by simp [hp, Phase.rank])
  have hw := h.taped (by simp [hp, Phase.rank]) (by simp [hp, Phase.rank])
  have hsettled : InProcessDispatcher.Orderly s.dispatcher .start := fun c hc => by simp [hnone.1] at hc
  have hd := h.dispatcher.step hsettled hs
  obtain rfl := Option.some.inj hs
  have hstops : (s.dispatcher.start cfg).stops = s.dispatcher.stops ∧ (s.dispatcher.start cfg).running = true := by
    rw [InProcessDispatcher.State.start]
    split
    · rename_i hrun
      exact ⟨rfl, hrun⟩
    · exact ⟨rfl, rfl⟩
  exact ordered_early (by simp [Phase.rank]) hd h.sweeper h.tape ⟨hstops.1.trans hnone.1, hnone.2⟩
    (fun hne => by simp [h.requests hne] at hp) (fun _ => hw) (fun _ => hw) (fun _ => hstops.2)
    fun hp => by cases hp

lemma Ordered.onward {w : Sweeper.LoopState} {phase : Phase} (h : Ordered cfg queueSize s) (hk : Sweeper.Kept w)
    (hlo : 2 ≤ s.phase.rank) (hhi : s.phase.rank < 6) (hnext : phase.rank < 6)
    (hrequests : s.requests ≠ 0 → phase = .serving)
    (hswept : phase = .stopping → w.stopping = true ∨ w.task = none) :
    Ordered cfg queueSize { s with sweeper := w, phase := phase } := by
  have hw := h.taped (by omega) (by omega)
  exact ordered_early hnext h.dispatcher hk h.tape (h.early hhi) hrequests (fun _ => hw) (fun _ => hw)
    (fun _ => h.running hlo (by omega)) hswept

lemma Ordered.stopDispatcher {d : InProcessDispatcher.State} (h : Ordered cfg queueSize s)
    (hp : s.phase = .stopping) (hstopping : s.sweeper.stopping = false)
    (hs : s.dispatcher.step cfg (.stop true) = some d) :
    Ordered cfg queueSize { s with dispatcher := d, phase := .draining } := by
  have hrank : s.phase.rank = 5 := by rw [hp]; rfl
  obtain ⟨hstops, hclosing, hclosed⟩ := h.early (by omega)
  have hrun := h.running (by omega) (by omega)
  have horderly : InProcessDispatcher.Orderly s.dispatcher (.stop true) :=
    ⟨fun c hc => by simp [hstops] at hc, fun _ hnow => quiet_of_unfinished h.dispatcher (by simpa using hnow)⟩
  have hd := h.dispatcher.step horderly hs
  obtain rfl := Option.some.inj hs
  have hw := h.taped (by omega) (by omega)
  have hcall : (s.dispatcher.stop true).stops ≠ [] ∧ Emptied (s.dispatcher.stop true) := by
    rcases InProcessDispatcher.stop_cases s.dispatcher true with ⟨hno, -⟩ | ⟨-, -, -, he⟩ | ⟨-, hnow, he⟩
    · simp [hrun] at hno
    · rw [he]
      refine ⟨by simp, fun _ => rfl, fun c hc hphase => ?_⟩
      simp only [hstops, List.nil_append, List.mem_singleton] at hc
      exact absurd (by rw [hc]) hphase
    · rw [he]
      exact ⟨by simp, fun _ => rfl, fun _ _ _ => hnow.resolve_left (by simp)⟩
  exact { h with
    dispatcher := hd
    emptied := hcall.2
    requests := fun hne => by simp [h.requests hne] at hp
    taped := fun _ _ => hw
    manned := fun _ => hw
    running := fun _ hhi => by simp [Phase.rank] at hhi
    swept := fun hp => by cases hp
    unstopped := fun _ =>
      ⟨by simp [Phase.rank], h.sweeper.stopped hstopping ((h.swept hp).resolve_left (by simp [hstopping]))⟩
    stopped := fun _ _ => hcall.1
    untold := fun hc => absurd hclosing hc
    told := fun hlo => by simp [Phase.rank] at hlo
    flushed := fun hlo => by simp [Phase.rank] at hlo }

lemma called_swept {w w' : Sweeper.LoopState} (hs : w.step .stop = some w') :
    w'.stopping = true ∨ w'.task = none := by
  obtain ⟨-, he⟩ := Option.ite_none_left_eq_some.mp hs
  obtain rfl := Option.some.inj he
  rw [Sweeper.LoopState.callStop]
  split
  · rename_i hnone
    exact .inr hnone
  · exact .inl rfl

lemma Ordered.closeTape {t : MismatchTape.State} (h : Ordered cfg queueSize s) (hp : s.phase = .draining)
    (hreturned : AllReturned s.dispatcher) (hs : s.tape.step .aclose = some t) :
    Ordered cfg queueSize { s with tape := t, phase := .flushing } := by
  have hrank : s.phase.rank = 6 := by rw [hp]; rfl
  have hstops := h.stopped (by omega) (by omega)
  have hw := h.taped (by omega) (by omega)
  have hk := h.tape.step hs
  obtain ⟨-, he⟩ := Option.ite_none_right_eq_some.mp hs
  obtain rfl := Option.some.inj he
  obtain ⟨q, he, -⟩ := MismatchTape.aclose_eq s.tape
  rw [he, if_neg hw] at hk ⊢
  exact { h with
    tape := hk
    requests := fun hne => by simp [h.requests hne] at hp
    taped := fun _ _ => hw
    manned := fun _ => hw
    running := fun _ hhi => by simp [Phase.rank] at hhi
    swept := fun hp => by cases hp
    unstopped := fun hne => ⟨by simp [Phase.rank], (h.unstopped hne).2⟩
    stopped := fun _ _ => hstops
    untold := fun _ => ⟨by simp [Phase.rank], hstops, hreturned⟩
    told := fun _ _ => by simp
    flushed := fun hlo => by simp [Phase.rank] at hlo
    closed := fun _ => by simp }

lemma Ordered.closing {phase : Phase} {toClose closed : List Resource} (h : Ordered cfg queueSize s)
    (hlo : 7 ≤ s.phase.rank) (hhi : s.phase.rank ≤ 9) (hflushed : s.tape.closing ≠ .joining)
    (hnext : 8 ≤ phase.rank) (hnext' : phase.rank ≤ 9) :
    Ordered cfg queueSize { s with phase := phase, toClose := toClose, closed := closed } := by
  have htold := h.told hlo hhi
  have hstops := h.stopped (by omega) hhi
  have hw := h.taped (by omega) hhi
  have hnot : ∀ {p : Phase}, p.rank < 7 → s.phase ≠ p := fun hlt he => by
    rw [he] at hlo
    omega
  exact { h with
    requests := fun hne => absurd (h.requests hne) (hnot (by simp [Phase.rank]))
    taped := fun _ _ => hw
    running := fun _ hhi' => absurd (hnext.trans hhi') (by simp)
    swept := fun hp => by
      subst hp
      simp [Phase.rank] at hnext
    unstopped := fun hne => ⟨le_trans (by simp) hnext, (h.unstopped hne).2⟩
    stopped := fun _ _ => hstops
    untold := fun hc => ⟨le_trans (by simp) hnext, (h.untold hc).2⟩
    told := fun _ _ => htold
    flushed := fun _ _ => hflushed
    closed := fun _ => htold }

lemma Ordered.advance (h : Ordered cfg queueSize s) (hs : Advances cfg s s') : Ordered cfg queueSize s' := by
  cases hs with
  | startTape hp hs => exact h.startTape hp hs
  | startDispatcher hp hs => exact h.startDispatcher hp hs
  | startSweeper hp hs =>
    refine h.onward (h.sweeper.step hs) ?_ ?_ ?_ (fun hne => ?_) fun hq => by cases hq
    · simp [hp, Phase.rank]
    · simp [hp, Phase.rank]
    · simp [Phase.rank]
    · simp [h.requests hne] at hp
  | serve hp =>
    refine h.onward h.sweeper ?_ ?_ ?_ (fun _ => rfl) fun hq => by cases hq
    · simp [hp, Phase.rank]
    · simp [hp, Phase.rank]
    · simp [Phase.rank]
  | stopSweeper hp hnone hs =>
    refine h.onward (h.sweeper.step hs) ?_ ?_ ?_ (fun hne => absurd hnone hne) fun _ => called_swept hs
    · simp [hp, Phase.rank]
    · simp [hp, Phase.rank]
    · simp [Phase.rank]
  | stopDispatcher hp hstopping hs => exact h.stopDispatcher hp hstopping hs
  | closeTape hp hreturned hs => exact h.closeTape hp hreturned hs
  | flushed hp hjoining =>
    refine h.closing ?_ ?_ hjoining ?_ ?_ <;> simp [hp, Phase.rank]
  | close hp | stop hp =>
    have hflushed := h.flushed (by simp [hp, Phase.rank]) (by simp [hp, Phase.rank])
    refine h.closing ?_ ?_ hflushed ?_ ?_ <;> simp [hp, Phase.rank]

lemma Ordered.step (h : Ordered cfg queueSize s) (hs : s.step cfg l = some s') : Ordered cfg queueSize s' := by
  cases step_moves hs with
  | advanced hs => exact h.advance hs
  | failed hserving => exact h.fail hserving
  | request hn => exact { h with requests := fun hne => (hn hne).elim id h.requests }
  | enqueued hp hd => exact h.enqueue hp hd
  | worked hl hd => exact h.worker hl hd
  | offered ht => exact h.offer ht
  | written hl ht => exact h.writer hl ht
  | looped hl hw => exact h.loop hl hw

lemma ordered (h : Run cfg queueSize archived L s) : Ordered cfg queueSize s :=
  h.invariant (I := fun _ s => Ordered cfg queueSize s) ordered_initial fun _ ih _ hs => ih.step hs

end Ordered

section Lifespan

variable {cfg : DispatcherConfig} {queueSize : ℕ} {archived : Bool} {s s' : State} {l : Label} {L : List Label}

structure Closes (archived : Bool) (s : State) : Prop where
  order : s.closed ++ s.toClose = resources archived
  all : s.phase = .stopped → s.toClose = []

lemma Closes.step (h : Closes archived s) (hs : s.step cfg l = some s') : Closes archived s' := by
  cases step_moves hs with
  | failed => exact ⟨h.order, fun hp => by cases hp⟩
  | request | enqueued | worked | offered | written | looped => exact ⟨h.order, h.all⟩
  | advanced hs =>
    cases hs with
    | startTape | startDispatcher | startSweeper | serve | stopSweeper | stopDispatcher | closeTape | flushed =>
      exact ⟨h.order, fun hp => by cases hp⟩
    | stop _ hnil => exact ⟨h.order, fun _ => hnil⟩
    | close hp hcons =>
      refine ⟨?_, fun hp' => by simp [hp] at hp'⟩
      have horder := h.order
      rw [hcons] at horder
      simpa using horder

lemma closes (h : Run cfg queueSize archived L s) : Closes archived s :=
  h.invariant (I := fun _ s => Closes archived s) ⟨rfl, fun hp => by cases hp⟩ fun _ ih _ hs => ih.step hs

lemma Ordered.open (h : Ordered cfg queueSize s) {r : Resource} (hu : s.Uses r) : s.Open r := by
  have hended : s.tape.closing ≠ .notCalled → ∀ w ∈ s.dispatcher.workers, w.done = true := fun htold => by
    obtain ⟨-, hne, hreturned⟩ := h.untold htold
    obtain ⟨-, -, hstopped⟩ := h.dispatcher.stage.open_of_settled hreturned
    exact h.dispatcher.tasked.all_done (hstopped (h.emptied.running hne))
  have hclosed : s.closed = [] → s.tape.writer ≠ .absent ∧ s.tape.closing = .notCalled → s.Open r :=
    fun hnil htape => by
    cases r with
    | mismatchTape => exact htape
    | primaryClient | candidateClient | rawStore | store => simp [State.Open, hnil]
  cases hu with
  | request hne hr =>
    have hp := h.requests hne
    obtain ⟨-, hclosing, hnil⟩ := h.early (by simp [hp, Phase.rank])
    exact hclosed hnil ⟨h.taped (by simp [hp, Phase.rank]) (by simp [hp, Phase.rank]), hclosing⟩
  | handler w hw hjob =>
    have hclosing : s.tape.closing = .notCalled := by
      by_contra htold
      obtain ⟨phase, requested⟩ := w
      have hdone := hended htold _ hw
      cases phase <;> simp_all [InProcessDispatcher.Worker.done, InProcessDispatcher.Worker.job?]
    refine hclosed ?_ ⟨h.manned (List.ne_nil_of_mem hw), hclosing⟩
    by_contra hne
    exact h.closed hne hclosing
  | sweep i hi =>
    change Resource.store ∉ s.closed
    have hnil : s.closed = [] := by
      by_contra hne
      obtain ⟨t, ht, hphase⟩ := hi
      exact (h.unstopped (h.untold (h.closed hne)).2.1).2.2 i ⟨t, ht, by simp [hphase]⟩
    simp [hnil]

structure Ended (archived : Bool) (s : State) : Prop where
  requests : s.requests = 0
  workers : ∀ w ∈ s.dispatcher.workers, w.done = true
  queue : s.dispatcher.queue.items = []
  jobs : ∀ job ∈ s.dispatcher.accepted, job ∈ s.dispatcher.handled ∨ job ∈ s.dispatcher.evicted
  sweeper : ∀ i, ¬ s.sweeper.Alive i
  tape : s.tape.closing ≠ .notCalled ∧ s.tape.closing ≠ .joining
  closed : s.closed = resources archived

lemma Ordered.ended (h : Ordered cfg queueSize s) (hc : Closes archived s) (hp : s.phase = .stopped) :
    Ended archived s := by
  have hrank : s.phase.rank = 9 := by rw [hp]; rfl
  have htold := h.told (by omega) (by omega)
  obtain ⟨-, hne, hreturned⟩ := h.untold htold
  obtain ⟨-, -, hstopped⟩ := h.dispatcher.stage.open_of_settled hreturned
  obtain ⟨c, hc'⟩ := List.exists_mem_of_ne_nil _ hne
  have hcount := h.dispatcher.accounted.counter
  have hzero := h.emptied.unfinished c hc' (by simp [hreturned c hc'])
  have hqueue : s.dispatcher.queue.items = [] := List.eq_nil_of_length_eq_zero (by omega)
  have hflight : s.dispatcher.inFlight = [] := List.eq_nil_of_length_eq_zero (by omega)
  refine ⟨?_, h.dispatcher.tasked.all_done (hstopped (h.emptied.running hne)), hqueue, fun job hj => ?_,
    (h.unstopped hne).2.2, ⟨htold, h.flushed (by omega) (by omega)⟩, ?_⟩
  · by_contra hr
    simp [h.requests hr] at hp
  · by_cases hev : job ∈ s.dispatcher.evicted
    · exact .inr hev
    · have hmem := h.dispatcher.accounted.ledger.mem.mpr ⟨hj, hev⟩
      rw [hqueue, List.append_nil] at hmem
      have hstarted := h.dispatcher.accounted.flight.mem_iff.mp hmem
      rw [hflight, List.nil_append] at hstarted
      exact .inl hstarted
  · have horder := hc.order
    rwa [hc.all hp, List.append_nil] at horder

/-- Requests, handlers and sweeps find open whatever they may call, and a lifespan that has returned leaves no
task and no job. -/
theorem lifespan_orderly (h : Run cfg queueSize archived L s) :
    (∀ r, s.Uses r → s.Open r) ∧ (s.phase = .stopped → Ended archived s) := by
  have ho := ordered h
  exact ⟨fun r hu => ho.open hu, fun hp => ho.ended (closes h) hp⟩

def lateJob : List Label :=
  [.advance, .advance, .advance, .advance, .tape .run, .sweeper (.test 0), .arrive, .enqueue ['a'], .answer,
    .worker (.get 0), .sweeper (.ticked 0 (.ok 0)), .advance, .sweeper (.test 0), .sweeper .resume, .advance,
    .offer 0 MismatchTape.someRow]

def closing : List Label :=
  [.tape .run, .worker (.complete 0), .worker (.resume 0), .worker (.deliver 0), .worker (.resume 0),
    .worker (.resume 0),
    .advance, .tape .run, .tape .join, .advance, .advance, .advance, .advance, .advance, .advance]

abbrev ran (ls : List Label) : State :=
  Effects.replayed (State.step (InProcessDispatcher.smallest .dropNew)) (fun _ _ _ => True)
    (State.initial (InProcessDispatcher.smallest .dropNew) 1 true) ls

theorem lifespan_orderly_late :
    ((ran lateJob).phase = .draining ∧ (ran lateJob).Uses .mismatchTape ∧ (ran lateJob).Open .mismatchTape) ∧
    (ran (lateJob ++ closing)).phase = .stopped ∧ (ran (lateJob ++ closing)).tape.mismatches.length = 1 ∧
      Ended true (ran (lateJob ++ closing)) := by
  have hrun : Run (InProcessDispatcher.smallest .dropNew) 1 true lateJob (ran lateJob) :=
    Effects.trace_replayed (by decide +kernel)
  have hrun' : Run (InProcessDispatcher.smallest .dropNew) 1 true (lateJob ++ closing)
      (ran (lateJob ++ closing)) :=
    Effects.trace_replayed (by decide +kernel)
  have hlate := lifespan_orderly hrun
  have hclosed := lifespan_orderly hrun'
  have huses : (ran lateJob).Uses .mismatchTape :=
    .handler ⟨.handling ⟨['a'], 0⟩, false⟩ (by decide +kernel) (by decide) (by decide)
  have hstopped : (ran (lateJob ++ closing)).phase = .stopped := by decide +kernel
  exact ⟨⟨by decide +kernel, huses, hlate.1 _ huses⟩, hstopped, by decide +kernel, hclosed.2 hstopped⟩

end Lifespan

end ShadowProxy.Lifespan

import ShadowProxy.Dispatcher.Conservation
import ShadowProxy.Scenario

/-! A process of the system, with its queue and its number of handlers, against the dispatcher with its worker
tasks. -/

namespace ShadowProxy.InProcessDispatcher

open Data

inductive Visible where
  | enqueue (job : CandidateJob) (status : DispatchStatus)
  | take (job : CandidateJob)
  | leave (job : CandidateJob)

namespace Visible

def withStatus (status : DispatchStatus) : Visible → Option CandidateJob
  | enqueue job status' => if status' = status then some job else none
  | _ => none

def taken : Visible → Option CandidateJob
  | take job => some job
  | _ => none

def left : Visible → Option CandidateJob
  | leave job => some job
  | _ => none

end Visible

inductive Serves (dep : Deployment) (x : ℕ) (S₀ : ShadowProxy.State) : List Visible → ShadowProxy.State → Prop
  | startup : Serves dep x S₀ [] (onSpawn S₀ ⟨x, .startup⟩)
  | enqueue {V S t k r status} : Serves dep x S₀ V S → k.replica = x → legal dep k S (.enqueue r) (.ok status) →
      Serves dep x S₀ (V ++ [.enqueue ⟨r, t⟩ status]) (after dep t k S (.enqueue r) (.ok status))
  | take {V S job} : Serves dep x S₀ V S → canSpawn dep S ⟨x, .handle job⟩ →
      Serves dep x S₀ (V ++ [.take job]) (onSpawn S ⟨x, .handle job⟩)
  | leave {V S job} : Serves dep x S₀ V S → 0 < (S.procs x).busy →
      Serves dep x S₀ (V ++ [.leave job]) (onExit S ⟨x, .handle job⟩)

structure Shows (x : ℕ) (V : List Visible) (S : ShadowProxy.State) (s : State) : Prop where
  serving : (S.procs x).phase ≠ .down
  queue : (S.procs x).queue = s.queue.items
  busy : (S.procs x).busy = s.inFlight.length
  accepted : V.filterMap (Visible.withStatus .enqueued) = s.accepted
  rejected : V.filterMap (Visible.withStatus .dropped) = s.rejected
  started : V.filterMap Visible.taken = s.started
  handled : V.filterMap Visible.left = s.handled

section Steps

variable {dep : Deployment} {x : ℕ} {V : List Visible} {S₀ S : ShadowProxy.State} {s s' : State}
  {job : CandidateJob} {i : ℕ} {L : List Label} {l : Label}

lemma Shows.frame (h : Shows x V S s) (hq : s'.queue.items = s.queue.items) (hw : s'.inFlight = s.inFlight)
    (ha : s'.accepted = s.accepted) (hr : s'.rejected = s.rejected) (hs : s'.started = s.started)
    (hh : s'.handled = s.handled) : Shows x V S s' := by
  obtain ⟨h₁, h₂, h₃, h₄, h₅, h₆, h₇⟩ := h
  exact ⟨h₁, h₂.trans hq.symm, h₃.trans (by rw [hw]), h₄.trans ha.symm, h₅.trans hr.symm, h₆.trans hs.symm,
    h₇.trans hh.symm⟩

lemma Accounted.enqueue_noted {cfg : DispatcherConfig} (h : Accounted cfg s) (r : Str) :
    let status := (InProcessDispatcher.enqueue cfg s.queue.items (s.newJob r)).2
    (s.enqueue cfg r).accepted = s.accepted ++ (if status = .enqueued then [s.newJob r] else []) ∧
    (s.enqueue cfg r).rejected = s.rejected ++ (if status = .dropped then [s.newJob r] else []) ∧
    (s.enqueue cfg r).started = s.started ∧ (s.enqueue cfg r).handled = s.handled ∧
    (s.enqueue cfg r).inFlight = s.inFlight := by
  intro status
  have hstatus := (h.enqueue_refines r).2
  have hna := (h.newJob r).1
  rcases h.enqueue_cases r with ⟨q, hq, he⟩ | ⟨hfull, hpolicy, he⟩ | ⟨old, q, s₁, q', hfull, hpolicy, hget,
    hdone, hput, he⟩
  · have hs : status = .enqueued := hstatus.mp (by simp [he, State.accept])
    rw [he, hs]
    simp [State.accept, State.called, State.inFlight]
  · have hs : status = .dropped := by
      cases hd : status with
      | dropped => rfl
      | enqueued => exact absurd (hstatus.mpr hd) (by rw [he]; exact hna)
    rw [he, hs]
    simp [State.reject, State.countDropped, State.called, State.inFlight]
  · obtain ⟨q₁, -, rfl⟩ := taskDone_eq_some.mp hdone
    have hs : status = .enqueued := hstatus.mp (by simp [he, State.accept])
    rw [he, hs]
    simp [State.accept, State.evict, State.countDropped, State.called, State.inFlight]

lemma Shows.enqueue (h : Shows x V S s) (hacc : Accounted dep.config.dispatcher s) (hS : Serves dep x S₀ V S)
    (r : Str) : ∃ V' S', Serves dep x S₀ V' S' ∧ Shows x V' S' (s.enqueue dep.config.dispatcher r) := by
  obtain ⟨hitems, -⟩ := hacc.enqueue_refines r
  obtain ⟨hac, hre, hst, hha, hin⟩ := hacc.enqueue_noted r
  generalize hstatus : (InProcessDispatcher.enqueue dep.config.dispatcher s.queue.items (s.newJob r)).2 =
    status at hac hre
  have hlegal : legal dep ⟨x, .startup⟩ S (.enqueue r) (.ok status) := by
    rw [legal, h.queue, ← hstatus]
    exact enqueue_status ..
  refine ⟨_, _, hS.enqueue (t := s.calls) rfl hlegal, ?_⟩
  constructor
  · simpa [after, ShadowProxy.State.setProc] using h.serving
  · rw [hitems, ← h.queue]
    simp [after, ShadowProxy.State.setProc, State.newJob]
  · rw [hin, ← h.busy]
    simp [after, ShadowProxy.State.setProc]
  · rw [List.filterMap_append, h.accepted, hac]
    cases status <;> rfl
  · rw [List.filterMap_append, h.rejected, hre]
    cases status <;> rfl
  · rw [List.filterMap_append, h.started, hst]
    exact List.append_nil _
  · rw [List.filterMap_append, h.handled, hha]
    exact List.append_nil _

lemma Shows.get (h : Shows x V S s) (hp : Pool dep.config.dispatcher L s.workers) (hS : Serves dep x S₀ V S)
    (hs : s.step dep.config.dispatcher (.get i) = some s') :
    ∃ V' S', Serves dep x S₀ V' S' ∧ Shows x V' S' s' := by
  obtain ⟨job, q, hw, hq, rfl⟩ := step_get.mp hs
  obtain ⟨hitems, -, -⟩ := AsyncQueue.getNowait_eq_some.mp hq
  have hflight : (s.get i job q).inFlight.Perm (job :: s.inFlight) := filterMap_set_some hw rfl rfl
  have hbusy : (S.procs x).busy < dep.config.dispatcher.workers := by
    have hlen := (List.length_filterMap_le Worker.job? (s.get i job q).workers).trans
      (hp.set i (.handling job)).size
    rw [h.busy]
    have hle : (s.get i job q).inFlight.length ≤ dep.config.dispatcher.workers := hlen
    rw [hflight.length_eq, List.length_cons] at hle
    omega
  have hspawn : canSpawn dep S ⟨x, .handle job⟩ := ⟨h.serving, by rw [h.queue, hitems]; rfl, hbusy⟩
  refine ⟨_, _, hS.take hspawn, ?_⟩
  constructor
  · simpa [onSpawn, ShadowProxy.State.setProc] using h.serving
  · simp [onSpawn, ShadowProxy.State.setProc, h.queue, hitems, State.get, State.setWorker]
  · rw [hflight.length_eq, List.length_cons, ← h.busy]
    simp [onSpawn, ShadowProxy.State.setProc]
  · rw [List.filterMap_append, h.accepted]
    exact List.append_nil _
  · rw [List.filterMap_append, h.rejected]
    exact List.append_nil _
  · rw [List.filterMap_append, h.started]
    rfl
  · rw [List.filterMap_append, h.handled]
    exact List.append_nil _

lemma Shows.complete (h : Shows x V S s) (hacc : Accounted dep.config.dispatcher s) (hS : Serves dep x S₀ V S)
    (hs : s.step dep.config.dispatcher (.complete i) = some s') :
    ∃ V' S', Serves dep x S₀ V' S' ∧ Shows x V' S' s' := by
  obtain ⟨job, hw, rfl⟩ := step_complete.mp hs
  have hflight : s.inFlight.Perm (job :: (s.workers.set i ⟨.idle, false⟩).filterMap Worker.job?) :=
    filterMap_set_none hw rfl rfl
  obtain ⟨q, hq, he⟩ := hacc.complete_eq hw
  obtain ⟨-, hitems, -⟩ := AsyncQueue.taskDone_eq_some.mp hq
  have hbusy := h.busy.trans hflight.length_eq
  rw [List.length_cons] at hbusy
  have hleave : Serves dep x S₀ (V ++ [.leave job]) (onExit S ⟨x, .handle job⟩) := hS.leave (by omega)
  refine ⟨_, _, hleave, ?_⟩
  rw [he]
  constructor
  · simpa [onExit, ShadowProxy.State.setProc] using h.serving
  · simp [onExit, ShadowProxy.State.setProc, h.queue, hitems]
  · simp [onExit, ShadowProxy.State.setProc, hbusy, State.inFlight]
  · rw [List.filterMap_append, h.accepted]
    exact List.append_nil _
  · rw [List.filterMap_append, h.rejected]
    exact List.append_nil _
  · rw [List.filterMap_append, h.started]
    exact List.append_nil _
  · rw [List.filterMap_append, h.handled]
    rfl

lemma Shows.step (h : Shows x V S s) (hsteady : Steady dep.config.dispatcher L s) (hS : Serves dep x S₀ V S)
    (hc : Scope L s l) (hs : s.step dep.config.dispatcher l = some s') (hb : BeforeCancel s') :
    ∃ V' S', Serves dep x S₀ V' S' ∧ Shows x V' S' s' := by
  cases l with
  | start =>
    obtain rfl := Option.some.inj hs
    refine ⟨V, S, hS, h.frame ?_ (inFlight_start _ s) ?_ ?_ ?_ ?_⟩
    all_goals
      rw [State.start]
      split <;> rfl
  | enqueue r =>
    obtain rfl := Option.some.inj hs
    exact h.enqueue hsteady.accounted hS r
  | get i => exact h.get hsteady.pool hS hs
  | complete i => exact h.complete hsteady.accounted hS hs
  | raise i => exact hc.elim
  | deliver i =>
    rw [hsteady.deliver] at hs
    cases hs
  | stop drain =>
    obtain rfl := Option.some.inj hs
    rcases stop_cases s drain with ⟨-, he⟩ | ⟨-, -, -, he⟩ | ⟨-, -, he⟩ <;> rw [he] at hb ⊢
    · exact ⟨V, S, hS, h.frame rfl rfl rfl rfl rfl rfl⟩
    · exact ⟨V, S, hS, h.frame rfl rfl rfl rfl rfl rfl⟩
    · exact ⟨V, S, hS, h.frame rfl (inFlight_cancelAll s) rfl rfl rfl rfl⟩
  | resume n =>
    obtain ⟨before, ⟨hn, rfl⟩ | ⟨k, hn, ⟨-, rfl⟩ | ⟨i, c, -, ⟨-, rfl⟩ | ⟨-, rfl⟩⟩⟩⟩ := step_resume.mp hs
    · exact ⟨V, S, hS, h.frame rfl (inFlight_cancelAll s) rfl rfl rfl rfl⟩
    all_goals exact ⟨V, S, hS, h.frame rfl rfl rfl rfl rfl rfl⟩

end Steps

/-- Until `stop` cancels the workers, whatever the dispatcher does the process of the system can do, with the
same jobs accepted, rejected, started and handled, in the same orders. -/
theorem serves_of_run (dep : Deployment) (x : ℕ) (S₀ : ShadowProxy.State) {L : List Label} {s : State}
    (h : Run dep.config.dispatcher Scope L s) (hb : BeforeCancel s) :
    ∃ V S, Serves dep x S₀ V S ∧ Shows x V S s := by
  induction h with
  | nil =>
    refine ⟨[], _, .startup, ?_, ?_, ?_, rfl, rfl, rfl, rfl⟩
    all_goals simp [onSpawn, ShadowProxy.State.setProc, State.initial, State.inFlight, AsyncQueue.empty]
  | snoc h hc hs ih =>
    have hb' := beforeCancel_of_step hc hs hb
    obtain ⟨V, S, hS, hshows⟩ := ih hb'
    exact hshows.step ((draining h).steady hb') hS hc hs hb

def oneWorker : Deployment := installed { demoConfig with dispatcher := smallest .dropOld } none (by decide)

theorem serves_of_run_drained : ∃ V S, Serves oneWorker 0 (.initial morning) V S ∧ Shows 0 V S (drainedTo 12) :=
  serves_of_run oneWorker 0 (.initial morning) (L := drained.take 12) (Effects.trace_replayed (by decide))
    (by unfold BeforeCancel; decide)

end ShadowProxy.InProcessDispatcher

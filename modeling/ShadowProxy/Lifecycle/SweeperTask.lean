import Mathlib.Data.List.Basic
import ShadowProxy.Effects.Machine
import ShadowProxy.Llm

/-! `Sweeper.start`, `Sweeper.stop` and the task between them, which sweeps again and again. A task's step runs
to its next await. `lifespan` makes the calls one after another. -/

namespace ShadowProxy.Sweeper

open Effects

/-- `ready` has yet to run; `ticking` is in `run_once` and `waiting` in the `wait_for` after it. -/
inductive LoopPhase where
  | ready
  | ticking
  | waiting
  | ended
  deriving DecidableEq

structure LoopTask where
  phase : LoopPhase := .ready
  cancelRequested : Bool := false
  deriving DecidableEq

/-- `tasks` are all the tasks there have been, `task` is the one in `_task`, and `stopping` says that a call of
`stop` waits for it. -/
structure LoopState where
  task : Option ℕ := none
  stop : Bool := false
  stopping : Bool := false
  tasks : List LoopTask := []
  deriving DecidableEq

inductive LoopLabel where
  | start
  | stop
  | test (i : ℕ)
  | ticked (i : ℕ) (result : Except Exn ℕ)
  | expire
  | deliver (i : ℕ)
  | resume

namespace LoopState

def setTask (s : LoopState) (i : ℕ) (t : LoopTask) : LoopState := { s with tasks := s.tasks.set i t }

def start (s : LoopState) : LoopState :=
  match s.task with
  | some _ => s
  | none => { s with stop := false, task := some s.tasks.length, tasks := s.tasks ++ [{}] }

def callStop (s : LoopState) : LoopState :=
  match s.task with
  | none => s
  | some _ => { s with stop := true, stopping := true }

/-- `while not self._stop.is_set()` -/
def test (s : LoopState) (i : ℕ) : LoopState := s.setTask i ⟨if s.stop then .ended else .ticking, false⟩

/-- `test` comes at a task's first step, and when the event or the interval has ended its wait. `ticked` has the
result of `run_once` or an exception, which is logged. `expire` is the timeout of `stop`, which cancels the task
and waits on. -/
def step (s : LoopState) : LoopLabel → Option LoopState
  | .start => if s.stopping then none else some s.start
  | .stop => if s.stopping then none else some s.callStop
  | .test i =>
    match s.tasks[i]? with
    | some ⟨.ready, false⟩ | some ⟨.waiting, false⟩ => some (s.test i)
    | _ => none
  | .ticked i _ =>
    match s.tasks[i]? with
    | some ⟨.ticking, false⟩ => some (s.setTask i ⟨.waiting, false⟩)
    | _ => none
  | .expire =>
    match s.stopping, s.task with
    | true, some i =>
      match s.tasks[i]? with
      | some ⟨.ended, _⟩ | some ⟨_, true⟩ | none => none
      | some ⟨phase, false⟩ => some (s.setTask i ⟨phase, true⟩)
    | _, _ => none
  | .deliver i =>
    match s.tasks[i]? with
    | some ⟨.ended, _⟩ | some ⟨_, false⟩ | none => none
    | some ⟨_, true⟩ => some (s.setTask i ⟨.ended, false⟩)
  | .resume =>
    match s.stopping, s.task with
    | true, some i =>
      match s.tasks[i]? with
      | some ⟨.ended, _⟩ => some { s with task := none, stopping := false }
      | _ => none
    | _, _ => none

def Alive (s : LoopState) (i : ℕ) : Prop := ∃ t, s.tasks[i]? = some t ∧ t.phase ≠ .ended

def Sweeping (s : LoopState) (i : ℕ) : Prop := ∃ t, s.tasks[i]? = some t ∧ t.phase = .ticking

end LoopState

abbrev LoopRun : List LoopLabel → LoopState → Prop := Trace LoopState.step (fun _ _ _ => True) {}

section Steps

variable {s s' : LoopState} {l : LoopLabel}

inductive Moves (s : LoopState) : LoopLabel → LoopState → Prop
  | started : s.stopping = false → s.task = none →
      Moves s .start { s with stop := false, task := some s.tasks.length, tasks := s.tasks ++ [{}] }
  | stopped : s.stopping = false → s.task ≠ none → Moves s .stop { s with stop := true, stopping := true }
  | idle {l : LoopLabel} : s.stopping = false → Moves s l s
  | tested {i : ℕ} {phase : LoopPhase} : s.tasks[i]? = some ⟨phase, false⟩ → phase = .ready ∨ phase = .waiting →
      Moves s (.test i) (s.test i)
  | ticked {i : ℕ} {result : Except Exn ℕ} : s.tasks[i]? = some ⟨.ticking, false⟩ →
      Moves s (.ticked i result) (s.setTask i ⟨.waiting, false⟩)
  | expired {i : ℕ} {phase : LoopPhase} : s.stopping = true → s.task = some i → s.tasks[i]? = some ⟨phase, false⟩ →
      phase ≠ .ended → Moves s .expire (s.setTask i ⟨phase, true⟩)
  | cancelled {i : ℕ} {phase : LoopPhase} : s.tasks[i]? = some ⟨phase, true⟩ → phase ≠ .ended →
      Moves s (.deliver i) (s.setTask i ⟨.ended, false⟩)
  | returned {i : ℕ} {requested : Bool} : s.stopping = true → s.task = some i →
      s.tasks[i]? = some ⟨.ended, requested⟩ →
      Moves s .resume { s with task := none, stopping := false }

lemma step_moves (hs : s.step l = some s') : Moves s l s' := by
  cases l with
  | start =>
    simp only [LoopState.step] at hs
    split at hs
    · cases hs
    · rename_i hstopping
      obtain rfl := Option.some.inj hs
      rw [LoopState.start]
      split
      · exact .idle (by simpa using hstopping)
      · rename_i htask
        exact .started (by simpa using hstopping) htask
  | stop =>
    simp only [LoopState.step] at hs
    split at hs
    · cases hs
    · rename_i hstopping
      obtain rfl := Option.some.inj hs
      rw [LoopState.callStop]
      split
      · exact .idle (by simpa using hstopping)
      · rename_i htask
        exact .stopped (by simpa using hstopping) (by simp [htask])
  | test i =>
    simp only [LoopState.step] at hs
    split at hs
    · rename_i ht
      obtain rfl := Option.some.inj hs
      exact .tested ht (.inl rfl)
    · rename_i ht
      obtain rfl := Option.some.inj hs
      exact .tested ht (.inr rfl)
    · cases hs
  | ticked i result =>
    simp only [LoopState.step] at hs
    split at hs
    · rename_i ht
      obtain rfl := Option.some.inj hs
      exact .ticked ht
    · cases hs
  | expire =>
    simp only [LoopState.step] at hs
    split at hs
    · rename_i i hstopping htask
      split at hs
      all_goals cases hs
      rename_i phase hended ht
      exact .expired hstopping htask ht hended
    · cases hs
  | deliver i =>
    simp only [LoopState.step] at hs
    split at hs
    all_goals cases hs
    rename_i phase hended ht
    exact .cancelled ht hended
  | resume =>
    simp only [LoopState.step] at hs
    split at hs
    · rename_i i hstopping htask
      split at hs
      · rename_i ht
        obtain rfl := Option.some.inj hs
        exact .returned hstopping htask ht
      · cases hs
    · cases hs

end Steps

section Kept

variable {s s' : LoopState} {l : LoopLabel} {L : List LoopLabel} {i j : ℕ} {t new : LoopTask}

structure Kept (s : LoopState) : Prop where
  current : ∀ i, s.Alive i → s.task = some i
  known : ∀ i, s.task = some i → i < s.tasks.length
  running : s.stopping = false → ∀ i t, s.tasks[i]? = some t → s.task = some i → t.phase ≠ .ended ∧
    t.cancelRequested = false
  told : s.stopping = true → s.stop = true ∧ s.task ≠ none
  untold : s.stopping = false → s.task ≠ none → s.stop = false

lemma kept_initial : Kept {} where
  current i ha := by
    obtain ⟨t, ht, -⟩ := ha
    cases ht
  known i hi := by cases hi
  running _ i t ht := by cases ht
  told hs := by cases hs
  untold _ ht := absurd rfl ht

lemma getElem?_setTask :
    (s.setTask i new).tasks[j]? = if i = j then (s.tasks[j]?).map (fun _ => new) else s.tasks[j]? := by
  rw [LoopState.setTask, List.getElem?_set]
  split
  · rename_i he
    subst he
    cases hj : s.tasks[i]? with
    | none => simp [List.getElem?_eq_none_iff.mp hj]
    | some t => simp [(List.getElem?_eq_some_iff.mp hj).1]
  · rfl

lemma getElem?_created {tasks : List LoopTask} (ht : (tasks ++ [({} : LoopTask)])[j]? = some t) :
    tasks[j]? = some t ∨ j = tasks.length ∧ t = {} := by
  rcases lt_trichotomy j tasks.length with hlt | rfl | hgt
  · exact .inl (by simpa [List.getElem?_append_left hlt] using ht)
  · exact .inr ⟨rfl, by simpa using ht.symm⟩
  · rw [List.getElem?_eq_none (by simp; omega)] at ht
    cases ht

lemma alive_of_setTask (ht : s.tasks[i]? = some t) (halive : t.phase ≠ .ended) (ha : (s.setTask i new).Alive j) :
    s.Alive j := by
  obtain ⟨t', ht', hp⟩ := ha
  rw [getElem?_setTask] at ht'
  split at ht'
  · rename_i he
    exact ⟨t, he ▸ ht, halive⟩
  · exact ⟨t', ht', hp⟩

lemma Kept.setTask (h : Kept s) (ht : s.tasks[i]? = some t) (halive : t.phase ≠ .ended)
    (hnew : s.stopping = false → new.phase ≠ .ended ∧ new.cancelRequested = false) : Kept (s.setTask i new) where
  current j ha := h.current j (alive_of_setTask ht halive ha)
  known j hj := lt_of_lt_of_eq (h.known j hj) (List.length_set ..).symm
  running hs j t' ht' hj := by
    rw [getElem?_setTask] at ht'
    split at ht'
    · obtain ⟨-, -, rfl⟩ := Option.map_eq_some_iff.mp ht'
      exact hnew hs
    · exact h.running hs j t' ht' hj
  told := h.told
  untold := h.untold

lemma Kept.step (h : Kept s) (hs : s.step l = some s') : Kept s' := by
  cases step_moves hs with
  | started hstopping htask =>
    have hnone : ∀ j, ¬ s.Alive j := fun j ha => by
      have hj := h.current j ha
      simp [htask] at hj
    constructor
    · rintro j ⟨t, ht, hp⟩
      rcases getElem?_created ht with hold | ⟨rfl, -⟩
      · exact absurd ⟨t, hold, hp⟩ (hnone j)
      · rfl
    · rintro j hj
      obtain rfl := Option.some.inj hj
      simp
    · rintro - j t ht hj
      obtain rfl := Option.some.inj hj
      rcases getElem?_created ht with hold | ⟨-, rfl⟩
      · rw [List.getElem?_eq_none le_rfl] at hold
        cases hold
      · simp
    · exact fun hs => by simp [hstopping] at hs
    · exact fun _ _ => rfl
  | stopped hstopping htask =>
    constructor
    · exact h.current
    · exact h.known
    · intro hs
      cases hs
    · exact fun _ => ⟨rfl, htask⟩
    · intro hs
      cases hs
  | idle => exact h
  | @tested i phase ht hphase =>
    have halive : phase ≠ .ended := by
      rcases hphase with rfl | rfl <;> simp
    refine h.setTask ht halive fun hs => ?_
    have htask : s.task ≠ none := by simp [h.current i ⟨_, ht, halive⟩]
    simp [h.untold hs htask]
  | ticked ht => exact h.setTask ht (by simp) fun _ => by simp
  | expired hstopping _ ht halive => exact h.setTask ht halive fun hs => by simp [hstopping] at hs
  | @cancelled i phase ht halive =>
    refine h.setTask ht halive fun hs => ?_
    have hrun := (h.running hs i _ ht (h.current i ⟨_, ht, halive⟩)).2
    simp at hrun
  | @returned i requested hstopping htask ht =>
    constructor
    · rintro j ⟨t, ht', hp⟩
      obtain rfl := Option.some.inj (htask.symm.trans (h.current j ⟨t, ht', hp⟩))
      rw [ht] at ht'
      cases ht'
      exact absurd rfl hp
    · intro j hj
      cases hj
    · intro _ j t _ hj
      cases hj
    · intro hs
      cases hs
    · exact fun _ hn => absurd rfl hn

lemma LoopRun.kept (h : LoopRun L s) : Kept s :=
  h.invariant (I := fun _ s => Kept s) kept_initial fun _ hk _ hs => hk.step hs

end Kept

section Lifecycle

variable {s s' : LoopState} {l : LoopLabel} {L : List LoopLabel} {i j : ℕ}

def Stopped (s : LoopState) : Prop := s.stopping = false ∧ ∀ i, ¬ s.Alive i

def LoopTask.weight (t : LoopTask) : ℕ :=
  match t.phase with
  | .ended => 0
  | .ready | .waiting => 2 + if t.cancelRequested then 0 else 1
  | .ticking => 4 + if t.cancelRequested then 0 else 1

def LoopState.left (s : LoopState) : ℕ :=
  if s.stopping then 1 + (s.task.bind fun i => s.tasks[i]?).elim 0 LoopTask.weight else 0

lemma Kept.stopped (h : Kept s) (hs : s.stopping = false) (ht : s.task = none) : Stopped s := by
  refine ⟨hs, fun i ha => ?_⟩
  have hi := h.current i ha
  simp [ht] at hi

lemma step_stopping (h : Kept s) (hstopping : s.stopping = true) (hs : s.step l = some s') :
    s'.stopping = true ∨ Stopped s' := by
  have hk := h.step hs
  cases step_moves hs with
  | started hno | stopped hno | idle hno => simp [hstopping] at hno
  | tested | ticked | expired | cancelled => exact .inl hstopping
  | returned => exact .inr (hk.stopped rfl rfl)

lemma left_setTask {t new : LoopTask} (h : Kept s) (hstopping : s.stopping = true) (ht : s.tasks[i]? = some t)
    (halive : t.phase ≠ .ended) (hless : new.weight < t.weight) : (s.setTask i new).left < s.left := by
  have htask := h.current i ⟨t, ht, halive⟩
  have hnew : (s.setTask i new).tasks[i]? = some new := by
    rw [getElem?_setTask, if_pos rfl, ht]
    rfl
  have hleft : s.left = 1 + t.weight := by simp [LoopState.left, hstopping, htask, ht]
  have hleft' : (s.setTask i new).left = 1 + new.weight := by
    have htask' : (s.setTask i new).task = some i := htask
    have hstopping' : (s.setTask i new).stopping = true := hstopping
    simp [LoopState.left, hstopping', htask', hnew]
  omega

lemma left_less (h : Kept s) (hstopping : s.stopping = true) (hs : s.step l = some s') : s'.left < s.left := by
  cases step_moves hs with
  | started hno | stopped hno | idle hno => simp [hstopping] at hno
  | @tested i phase ht hphase =>
    have halive : phase ≠ .ended := by
      rcases hphase with rfl | rfl <;> simp
    refine left_setTask h hstopping ht halive ?_
    rcases hphase with rfl | rfl <;> simp [LoopTask.weight, (h.told hstopping).1]
  | ticked ht => exact left_setTask h hstopping ht (by simp) (by simp [LoopTask.weight])
  | @expired i phase _ _ ht halive =>
    refine left_setTask h hstopping ht halive ?_
    cases phase <;> simp [LoopTask.weight] at halive ⊢
  | @cancelled i phase ht halive =>
    refine left_setTask h hstopping ht halive ?_
    cases phase <;> simp [LoopTask.weight] at halive ⊢
  | returned =>
    simp only [LoopState.left, hstopping, if_true, Bool.false_eq_true, if_false]
    omega

lemma stop_goes_on (h : Kept s) (hstopping : s.stopping = true) : ∃ l s', s.step l = some s' := by
  obtain ⟨i, hi⟩ := Option.ne_none_iff_exists'.mp (h.told hstopping).2
  obtain ⟨t, ht⟩ : ∃ t, s.tasks[i]? = some t := ⟨_, List.getElem?_eq_getElem (h.known i hi)⟩
  obtain ⟨phase, requested⟩ := t
  cases phase with
  | ended => exact ⟨.resume, _, by simp [LoopState.step, hstopping, hi, ht]; rfl⟩
  | ready =>
    cases requested with
    | false => exact ⟨.test i, _, by simp [LoopState.step, ht]; rfl⟩
    | true => exact ⟨.deliver i, _, by simp [LoopState.step, ht]; rfl⟩
  | ticking =>
    cases requested with
    | false => exact ⟨.ticked i (.ok 0), _, by simp [LoopState.step, ht]; rfl⟩
    | true => exact ⟨.deliver i, _, by simp [LoopState.step, ht]; rfl⟩
  | waiting =>
    cases requested with
    | false => exact ⟨.test i, _, by simp [LoopState.step, ht]; rfl⟩
    | true => exact ⟨.deliver i, _, by simp [LoopState.step, ht]; rfl⟩

lemma Kept.stop_returns (h : Kept s) (hstopping : s.stopping = true) :
    Inevitable LoopState.step (fun s _ => s.stopping = true) Stopped s := by
  refine inevitable_of_measure (I := fun s => Kept s ∧ (s.stopping = true ∨ Stopped s)) LoopState.left ?_ ?_ ?_
    ⟨h, .inl hstopping⟩
  · rintro s l s' ⟨hk, -⟩ hs hstep
    exact ⟨hk.step hstep, step_stopping hk hs hstep⟩
  · rintro s ⟨hk, hs⟩ hP
    have hs' := hs.resolve_right hP
    obtain ⟨l, s', hstep⟩ := stop_goes_on hk hs'
    exact ⟨l, s', hs', hstep⟩
  · rintro s l s' ⟨hk, -⟩ - hs hstep
    exact left_less hk hs hstep

lemma sweeping_of_setTask {new : LoopTask} (hs : (s.setTask j new).Sweeping i) :
    j = i ∧ new.phase = .ticking ∨ s.Sweeping i := by
  obtain ⟨t, ht, hp⟩ := hs
  rw [getElem?_setTask] at ht
  split at ht
  · rename_i hji
    obtain ⟨-, -, rfl⟩ := Option.map_eq_some_iff.mp ht
    exact .inl ⟨hji, hp⟩
  · exact .inr ⟨t, ht, hp⟩

lemma Kept.begins (h : Kept s) (hs : s.step l = some s') (hnew : s'.Sweeping i) (hold : ¬ s.Sweeping i) :
    s.stopping = false ∧ ∀ j, ¬ s.Sweeping j := by
  cases step_moves hs with
  | started =>
    obtain ⟨t, ht, hp⟩ := hnew
    rcases getElem?_created ht with hm | ⟨-, rfl⟩
    · exact absurd ⟨t, hm, hp⟩ hold
    · cases hp
  | stopped | idle | returned => exact absurd hnew hold
  | @tested k phase ht hphase =>
    obtain ⟨-, hp⟩ := (sweeping_of_setTask hnew).resolve_right hold
    have hstop : s.stop = false := by
      by_contra hstop
      simp [hstop] at hp
    have halive : s.Alive k := ⟨_, ht, by rcases hphase with rfl | rfl <;> simp⟩
    constructor
    · by_contra hstopping
      have htold := (h.told (eq_true_of_ne_false hstopping)).1
      simp [hstop] at htold
    · rintro j ⟨t, hj, hjp⟩
      have hja : s.Alive j := ⟨t, hj, by simp [hjp]⟩
      obtain rfl := Option.some.inj ((h.current j hja).symm.trans (h.current k halive))
      rw [ht] at hj
      cases hj
      rcases hphase with rfl | rfl <;> cases hjp
  | ticked => exact absurd ((sweeping_of_setTask hnew).resolve_right hold).2 (by simp)
  | @expired k phase _ _ ht =>
    obtain ⟨rfl, hp⟩ := (sweeping_of_setTask hnew).resolve_right hold
    exact absurd ⟨_, ht, hp⟩ hold
  | cancelled => exact absurd ((sweeping_of_setTask hnew).resolve_right hold).2 (by simp)

structure Managed (s : LoopState) : Prop where
  one : ∀ i j, s.Alive i → s.Alive j → i = j
  running : s.stopping = false → ∀ i, s.task = some i → s.Alive i
  idle : s.stopping = false → s.task = none → ∀ i, ¬ s.Alive i
  begins : ∀ l s' i, s.step l = some s' → s'.Sweeping i → ¬ s.Sweeping i → s.stopping = false ∧ ∀ j, ¬ s.Sweeping j
  returns : s.stopping = true → Inevitable LoopState.step (fun s _ => s.stopping = true) Stopped s

theorem sweeper_managed (h : LoopRun L s) : Managed s := by
  have hk := LoopRun.kept h
  constructor
  · intro i j hi hj
    exact Option.some.inj ((hk.current i hi).symm.trans (hk.current j hj))
  · intro hs i hi
    have hlt := hk.known i hi
    exact ⟨_, List.getElem?_eq_getElem hlt, (hk.running hs i _ (List.getElem?_eq_getElem hlt) hi).1⟩
  · exact fun hs ht => (hk.stopped hs ht).2
  · exact fun l s' i hs hnew hold => hk.begins hs hnew hold
  · exact hk.stop_returns

def outlasting : List LoopLabel :=
  [.start, .test 0, .ticked 0 (.error .database), .test 0, .ticked 0 (.ok 2), .test 0, .stop, .expire]

theorem sweeper_managed_outlasting :
    (Effects.replayed LoopState.step (fun _ _ _ => True) {} outlasting).stopping = true ∧
      Managed (Effects.replayed LoopState.step (fun _ _ _ => True) {} outlasting) :=
  ⟨rfl, sweeper_managed (L := outlasting) (Effects.trace_replayed rfl)⟩

end Lifecycle

end ShadowProxy.Sweeper

import ShadowProxy.Dispatcher.Stages
import Mathlib.Algebra.Order.BigOperators.Group.List
import Mathlib.Algebra.Order.Ring.Nat

/-! The accounting of the queue, and the return of `stop`, when no handler is cancelled and when one is. -/

namespace ShadowProxy.InProcessDispatcher

open Data Effects

variable {cfg : DispatcherConfig} {s s' : State} {L : List Label} {l : Label} {i n : ℕ}

def State.phaseOf (s : State) (n : ℕ) : Option StopPhase := s.stops[n]?.map StopCall.phase

lemma returned_snoc {stops : List StopCall} {c : StopCall}
    (h : (stops ++ [c])[n]?.map StopCall.phase = some .returned) :
    stops[n]?.map StopCall.phase = some .returned ∨ c.phase = .returned := by
  rw [List.getElem?_append] at h
  split at h
  · exact .inl h
  · obtain ⟨c', hc', hphase⟩ := Option.map_eq_some_iff.mp h
    rw [← List.mem_singleton.mp (List.mem_of_getElem? hc')]
    exact .inr hphase

lemma returned_set {stops : List StopCall} {m : ℕ} {c : StopCall}
    (h : (stops.set m c)[n]?.map StopCall.phase = some .returned) :
    stops[n]?.map StopCall.phase = some .returned ∨ c.phase = .returned := by
  obtain ⟨c', hc', hphase⟩ := Option.map_eq_some_iff.mp h
  rw [List.getElem?_set] at hc'
  split at hc'
  · split at hc'
    · obtain rfl := Option.some.inj hc'
      exact .inr hphase
    · cases hc'
  · exact .inl (Option.map_eq_some_iff.mpr ⟨c', hc', hphase⟩)

theorem Sound.returns (h : Sound cfg s) (hc : Orderly s l) (hs : s.step cfg l = some s')
    (hn : s'.phaseOf n = some .returned) (hnew : s.phaseOf n ≠ some .returned) :
    s'.tasks = [] ∧ ∀ w ∈ s'.workers, w.done = true := by
  have htasked := (h.step hc hs).tasked
  suffices htasks : s'.tasks = [] from ⟨htasks, htasked.all_done htasks⟩
  rcases step_stops hs with ⟨drain, rfl⟩ | ⟨m, rfl⟩ | hwoken
  · obtain ⟨-, -, hstopped⟩ := h.stage.open_of_settled hc.1
    obtain rfl := Option.some.inj hs
    rcases stop_cases s drain with ⟨hr, he⟩ | ⟨-, -, -, he⟩ | ⟨-, -, he⟩ <;> rw [he] at hn ⊢
    · exact hstopped hr
    · rcases returned_snoc hn with hold | hlast
      · exact absurd hold hnew
      · cases hlast
    · rcases returned_snoc hn with hold | hlast
      · exact absurd hold hnew
      · cases hlast
  · obtain ⟨before, ⟨-, rfl⟩ | ⟨k, -, ⟨-, rfl⟩ | ⟨i, c, -, ⟨-, rfl⟩ | ⟨-, rfl⟩⟩⟩⟩ := step_resume.mp hs
    · rcases returned_set hn with hold | hlast
      · exact absurd hold hnew
      · cases hlast
    · rfl
    · rcases returned_set hn with hold | hlast
      · exact absurd hold hnew
      · cases hlast
    · rcases returned_set hn with hold | hlast
      · exact absurd hold hnew
      · cases hlast
  · obtain ⟨c', hc', hphase⟩ := Option.map_eq_some_iff.mp hn
    obtain ⟨c, hget, heq⟩ := hwoken.getElem? hc'
    refine absurd (Option.map_eq_some_iff.mpr ⟨c, hget, ?_⟩) hnew
    rcases heq with rfl | rfl
    · exact hphase
    · obtain ⟨phase, before⟩ := c
      cases phase <;> first | exact hphase | cases hphase


def Inner (s : State) (l : Label) : Prop := Orderly s l ∧ ∀ r, l ≠ .enqueue r

lemma exists_inner_of_handling {w : Worker} {job : CandidateJob} (hw : w ∈ s.workers) (hjob : w.job? = some job)
    (hu : s.Uncancelled) : ∃ l s', Inner s l ∧ s.step cfg l = some s' := by
  obtain ⟨i, hget⟩ := List.mem_iff_getElem?.mp hw
  obtain ⟨p, c⟩ := w
  obtain rfl : c = false := hu _ hw
  cases p with
  | handling job' => exact ⟨.complete i, _, ⟨trivial, fun r => by simp⟩, step_complete.mpr ⟨job', hget, rfl⟩⟩
  | _ => cases hjob

lemma exists_idle (h : Sound cfg s) (hu : s.Uncancelled) (ha : s.Alive) (hq : s.Quiet) :
    ∃ i : ℕ, s.workers[i]? = some ⟨.idle, false⟩ := by
  obtain ⟨i, hi⟩ := List.exists_mem_of_ne_nil _ ha.1
  obtain ⟨⟨p, c⟩, hget⟩ : ∃ w, s.workers[i]? = some w := ⟨_, List.getElem?_eq_getElem (h.tasked.valid i hi)⟩
  have hmem := List.mem_of_getElem? hget
  obtain rfl : c = false := hu _ hmem
  cases p with
  | idle => exact ⟨i, hget⟩
  | handling job => cases hq _ hmem
  | _ => cases ha.2 i hi _ hget

theorem Sound.progress (h : Sound cfg s) (hn : n < s.stops.length) (hunder : s.phaseOf n ≠ some .returned) :
    ∃ l s', Inner s l ∧ s.step cfg l = some s' := by
  have hget := List.getElem?_eq_getElem hn
  have hnot : s.stops[n].phase ≠ .returned :=
    fun hphase => hunder (by rw [State.phaseOf, hget, Option.map_some, hphase])
  have hhandling : s.Uncancelled → ¬ s.Quiet → ∃ l s', Inner s l ∧ s.step cfg l = some s' := by
    intro hu hq
    simp only [State.Quiet, not_forall] at hq
    obtain ⟨w, hw, hjob⟩ := hq
    obtain ⟨job, hjob⟩ := Option.ne_none_iff_exists'.mp hjob
    exact exists_inner_of_handling hw hjob hu
  cases h.stage with
  | settled hsettled => exact absurd (hsettled _ (List.getElem_mem hn)) hnot
  | waiting m c hc hothers hr hu ha hphase =>
    by_cases hq : s.Quiet
    · rcases hphase with ⟨hphase, hcount⟩ | hphase
      · have hflight : s.inFlight = [] := List.filterMap_eq_nil_iff.mpr hq
        rw [h.accounted.counter, hflight] at hcount
        obtain ⟨i, hidle⟩ := exists_idle h hu ha hq
        cases hitems : s.queue.items with
        | nil => simp [hitems] at hcount
        | cons job items =>
          have hget : s.queue.getNowait = some (job, { s.queue with items := items }) := by
            simp [AsyncQueue.getNowait, hitems]
          exact ⟨.get i, _, ⟨trivial, fun r => by simp⟩, step_get.mpr ⟨job, _, hidle, hget, rfl⟩⟩
      · obtain ⟨phase, before⟩ := c
        obtain rfl : phase = .woken := hphase
        exact ⟨.resume m, _, ⟨fun _ => hq, fun r => by simp⟩, step_resume.mpr ⟨before, .inl ⟨hc, rfl⟩⟩⟩
    · exact hhandling hu hq
  | cancelling m k before hc hothers hr htasks he hd =>
    have horderly : Orderly s (.resume m) := by
      intro hphase
      rw [hc] at hphase
      cases hphase
    cases htask : s.tasks[k]? with
    | none => exact ⟨.resume m, _, ⟨horderly, fun r => by simp⟩,
        step_resume.mpr ⟨before, .inr ⟨k, hc, .inl ⟨htask, rfl⟩⟩⟩⟩
    | some i =>
      have hw := List.getElem?_eq_getElem (h.tasked.valid i (List.mem_of_getElem? htask))
      rcases he _ (List.mem_of_getElem? hw) with heq | heq <;> rw [heq] at hw
      · exact ⟨.resume m, _, ⟨horderly, fun r => by simp⟩,
          step_resume.mpr ⟨before, .inr ⟨k, hc, .inr ⟨i, false, htask, .inl ⟨hw, rfl⟩⟩⟩⟩⟩
      · exact ⟨.deliver i, _, ⟨trivial, fun r => by simp⟩, step_deliver.mpr (.inl ⟨hw, rfl⟩)⟩

def Worker.left : Worker → ℕ
  | ⟨.idle, _⟩ => 1
  | ⟨.handling _, _⟩ => 2
  | _ => 0

def StopCall.left (tasks : ℕ) (c : StopCall) : ℕ :=
  match c.phase with
  | .joining => tasks + 3
  | .woken => tasks + 2
  | .awaiting k => tasks - k + 1
  | .returned | .raised => 0

def State.left (s : State) : ℕ :=
  2 * s.queue.items.length + (s.workers.map Worker.left).sum + (s.stops.map (StopCall.left s.tasks.length)).sum

lemma sum_map_set {α : Type} {f : α → ℕ} {l : List α} {a : α} (b : α) (h : l[i]? = some a) :
    ((l.set i b).map f).sum + f a = (l.map f).sum + f b := by
  induction l generalizing i with
  | nil => simp at h
  | cons c l ih =>
    cases i with
    | zero =>
      obtain rfl := Option.some.inj h
      simp only [List.set_cons_zero, List.map_cons, List.sum_cons]
      omega
    | succ i =>
      have hl := ih h
      simp only [List.set_cons_succ, List.map_cons, List.sum_cons]
      omega

lemma left_wake (tasks : ℕ) (c : StopCall) : c.wake.left tasks ≤ c.left tasks := by
  obtain ⟨phase, before⟩ := c
  cases phase <;> simp [StopCall.wake, StopCall.left]

lemma left_zero (tasks : ℕ) (c : StopCall) : c.left 0 ≤ c.left tasks := by
  obtain ⟨phase, before⟩ := c
  cases phase <;> simp [StopCall.left]

lemma left_woken {stops stops' : List StopCall} (h : Woken stops stops') (tasks : ℕ) :
    (stops'.map (StopCall.left tasks)).sum ≤ (stops.map (StopCall.left tasks)).sum := by
  rcases h with rfl | rfl
  · exact le_rfl
  · rw [List.map_map]
    exact List.sum_le_sum fun c _ => left_wake tasks c

lemma left_cancelAll (s : State) : (s.cancelAll.workers.map Worker.left) = s.workers.map Worker.left := by
  have hcancel : ∀ w : Worker, w.cancel.left = w.left := by
    rintro ⟨p, c⟩
    cases p <;> rfl
  apply List.ext_getElem?
  intro i
  simp only [State.cancelAll, List.getElem?_map, List.getElem?_mapIdx, Option.map_map]
  congr 1
  funext w
  simp only [Function.comp_apply]
  split
  · exact hcancel w
  · rfl

theorem Sound.left_lt (h : Sound cfg s) (hunder : ¬ s.Settled) (hc : Inner s l) (hs : s.step cfg l = some s') :
    s'.left < s.left := by
  cases l with
  | start => exact absurd hc.1 hunder
  | enqueue r => exact absurd rfl (hc.2 r)
  | get i =>
    obtain ⟨job, q, hw, hq, rfl⟩ := step_get.mp hs
    obtain ⟨hitems, -, -⟩ := AsyncQueue.getNowait_eq_some.mp hq
    have hsum := sum_map_set (f := Worker.left) ⟨.handling job, false⟩ hw
    simp only [Worker.left] at hsum
    simp only [State.left, State.get, State.setWorker, hitems, List.length_cons]
    omega
  | complete i =>
    obtain ⟨job, hw, rfl⟩ := step_complete.mp hs
    obtain ⟨q, hq, he⟩ := h.accounted.complete_eq hw
    obtain ⟨-, hitems, -⟩ := AsyncQueue.taskDone_eq_some.mp hq
    have hk := (kept_complete h.accounted hs).stops
    have hstops := left_woken hk s.tasks.length
    have hsum := sum_map_set (f := Worker.left) ⟨.idle, false⟩ hw
    rw [he] at hstops ⊢
    dsimp only at hstops
    simp only [Worker.left] at hsum
    simp only [State.left, hitems]
    omega
  | raise i => exact hc.1.elim
  | deliver i =>
    rcases step_deliver.mp hs with ⟨hw, rfl⟩ | ⟨⟨job, hw⟩, -⟩
    · have hsum := sum_map_set (f := Worker.left) ⟨.cancelled, false⟩ hw
      simp only [Worker.left] at hsum
      simp only [State.left, State.setWorker]
      omega
    · exact absurd hw h.stage.deliver
  | stop drain => exact absurd hc.1.1 hunder
  | resume m =>
    obtain ⟨before, ⟨hn, rfl⟩ | ⟨k, hn, ⟨htask, rfl⟩ | ⟨i, c, htask, ⟨-, rfl⟩ | ⟨-, rfl⟩⟩⟩⟩ := step_resume.mp hs
    · have hsum := sum_map_set (f := StopCall.left s.tasks.length) ⟨.awaiting 0, before⟩ hn
      simp only [StopCall.left] at hsum
      simp only [State.left, State.setStop, left_cancelAll]
      simp only [State.cancelAll]
      omega
    · have hsum := sum_map_set (f := StopCall.left 0) ⟨.returned, before⟩ hn
      have hle := List.sum_le_sum fun c (_ : c ∈ s.stops) => left_zero s.tasks.length c
      simp only [StopCall.left] at hsum
      simp only [State.left, State.setStop, List.length_nil]
      omega
    · have hsum := sum_map_set (f := StopCall.left s.tasks.length) ⟨.awaiting (k + 1), before⟩ hn
      have hk := (List.getElem?_eq_some_iff.mp htask).1
      simp only [StopCall.left] at hsum
      simp only [State.left, State.setStop]
      omega
    · have hsum := sum_map_set (f := StopCall.left s.tasks.length) ⟨.raised, before⟩ hn
      simp only [StopCall.left] at hsum
      simp only [State.left, State.setStop]
      omega

lemma stops_length (hs : s.step cfg l = some s') : s.stops.length ≤ s'.stops.length := by
  rcases step_stops hs with ⟨drain, rfl⟩ | ⟨m, rfl⟩ | heq | heq
  · obtain rfl := Option.some.inj hs
    rcases stop_cases s drain with ⟨-, he⟩ | ⟨-, -, -, he⟩ | ⟨-, -, he⟩ <;> simp [he]
  · obtain ⟨before, ⟨-, rfl⟩ | ⟨k, -, ⟨-, rfl⟩ | ⟨i, c, -, ⟨-, rfl⟩ | ⟨-, rfl⟩⟩⟩⟩ := step_resume.mp hs <;>
      simp [State.setStop, State.cancelAll]
  · rw [heq]
  · rw [heq, List.length_map]

theorem Sound.inevitable (h : Sound cfg s) (hn : n < s.stops.length) :
    Inevitable (State.step cfg) Inner (fun s' => s'.phaseOf n = some .returned) s := by
  refine inevitable_of_measure (I := fun s => Sound cfg s ∧ n < s.stops.length) State.left ?_ ?_ ?_ ⟨h, hn⟩
  · exact fun s l s' hI hc hs => ⟨hI.1.step hc.1 hs, lt_of_lt_of_le hI.2 (stops_length hs)⟩
  · exact fun s hI hunder => hI.1.progress hI.2 hunder
  · intro s l s' hI hunder hc hs
    refine hI.1.left_lt (fun hsettled => hunder ?_) hc hs
    rw [State.phaseOf, List.getElem?_eq_getElem hI.2, Option.map_some, hsettled _ (List.getElem_mem hI.2)]

lemma Stage.not_raised (h : Stage s) : ∀ c ∈ s.stops, c.phase ≠ .raised := by
  intro c hc hphase
  have hcases := h.phase hc
  simp [hphase] at hcases

def State.Counted (s : State) : Prop :=
  s.queue.unfinished = s.queue.items.length + s.inFlight.length ∧ s.valueErrors = 0

theorem Accounted.abandon (h : Accounted cfg s) {job : CandidateJob} {c : Bool}
    (hw : s.workers[i]? = some ⟨.handling job, c⟩) : ¬ (s.abandon i).Counted := by
  have hlost : s.inFlight.Perm (job :: (s.workers.set i ⟨.cancelled, false⟩).filterMap Worker.job?) :=
    filterMap_set_none hw rfl rfl
  have hlen := hlost.length_eq
  rintro ⟨hcounter, herrors⟩
  have hcount := h.counter
  unfold State.abandon at hcounter herrors
  split at hcounter
  · rename_i hdone
    rw [hdone] at herrors
    cases herrors
  · rename_i s₁ hdone
    obtain ⟨q₁, hq₁, rfl⟩ := taskDone_eq_some.mp hdone
    rw [hdone] at herrors
    dsimp only at herrors
    split at hcounter
    · rename_i hdone'
      rw [hdone'] at herrors
      cases herrors
    · rename_i s₂ hdone'
      obtain ⟨q₂, hq₂, rfl⟩ := taskDone_eq_some.mp hdone'
      obtain ⟨hone, hitems, -⟩ := AsyncQueue.taskDone_eq_some.mp hq₁
      obtain ⟨htwo, hitems', -⟩ := AsyncQueue.taskDone_eq_some.mp hq₂
      rw [List.length_cons] at hlen
      simp only [State.setWorker, State.inFlight, hitems', hitems] at hcounter hcount hlen
      dsimp only at htwo
      omega

lemma exists_abandon (hacc : Accounted cfg s') (ht : Tasked s) (hu : s.Uncancelled) (hq : ¬ s.Quiet)
    (hworkers : s'.workers = s.cancelAll.workers) :
    ∃ i s'', s'.step cfg (.deliver i) = some s'' ∧ ¬ s''.Counted := by
  simp only [State.Quiet, not_forall] at hq
  obtain ⟨⟨p, c⟩, hmem, hjob⟩ := hq
  obtain ⟨i, hw⟩ := List.mem_iff_getElem?.mp hmem
  obtain rfl : c = false := hu _ hmem
  cases p with
  | handling job =>
    have htask := ht.covered i _ hw rfl
    have hcancelled : s'.workers[i]? = some ⟨.handling job, true⟩ := by
      simp only [hworkers, State.cancelAll, List.getElem?_mapIdx, hw, Option.map_some]
      rw [if_pos (List.contains_iff_mem.mpr htask)]
      rfl
    exact ⟨i, _, step_deliver.mpr (.inr ⟨⟨job, hcancelled⟩, rfl⟩), hacc.abandon hcancelled⟩
  | _ => exact absurd rfl hjob

lemma Stage.under_way (h : Stage s) (hunder : ¬ s.Settled) : s.running = false ∧ s.tasks ≠ [] := by
  cases h with
  | settled hsettled => exact absurd hsettled hunder
  | waiting n c hc hothers hr hu ha => exact ⟨hr, ha.1⟩
  | cancelling n k before hc hothers hr htasks => exact ⟨hr, htasks⟩

theorem Sound.disorderly (h : Sound cfg s) (hl : l ≠ .start) (hc : ¬ Orderly s l) (hs : s.step cfg l = some s') :
    ¬ s'.Counted ∨ (∃ n, s'.phaseOf n = some .returned ∧ s.phaseOf n = none ∧ s'.tasks ≠ []) ∨
      ∃ i s'', s'.step cfg (.deliver i) = some s'' ∧ ¬ s''.Counted := by
  cases l with
  | start => exact absurd rfl hl
  | raise i =>
    obtain ⟨⟨job, hw⟩, rfl⟩ := step_raise.mp hs
    exact .inl (h.accounted.abandon hw)
  | stop drain =>
    have hacc := accounted_step h.accounted rfl hs
    obtain rfl := Option.some.inj hs
    by_cases hsettled : s.Settled
    · obtain ⟨hu, -, -⟩ := h.stage.open_of_settled hsettled
      have hnot : s.running = true ∧ (drain = false ∨ s.queue.unfinished = 0) ∧ ¬ s.Quiet := by
        by_contra hnone
        refine hc ⟨hsettled, fun hr hnow => ?_⟩
        by_contra hq
        exact hnone ⟨hr, hnow, hq⟩
      obtain ⟨hr, hnow, hq⟩ := hnot
      rcases stop_cases s drain with ⟨hr', -⟩ | ⟨-, hdrain, hcount, -⟩ | ⟨-, -, he⟩
      · rw [hr] at hr'
        cases hr'
      · rcases hnow with hnow | hnow
        · rw [hdrain] at hnow
          cases hnow
        · exact absurd hnow hcount
      · exact .inr (.inr (exists_abandon hacc h.tasked hu hq (by rw [he])))
    · obtain ⟨hr, htasks⟩ := h.stage.under_way hsettled
      refine .inr (.inl ⟨s.stops.length, ?_⟩)
      rcases stop_cases s drain with ⟨-, he⟩ | ⟨hr', -⟩ | ⟨hr', -⟩
      · rw [he]
        simp [State.phaseOf, htasks]
      · rw [hr] at hr'
        cases hr'
      · rw [hr] at hr'
        cases hr'
  | resume n =>
    have hacc := accounted_step h.accounted rfl hs
    have hnot : (s.stops[n]?).map StopCall.phase = some .woken ∧ ¬ s.Quiet := by
      by_contra hnone
      refine hc fun hphase => ?_
      by_contra hq
      exact hnone ⟨hphase, hq⟩
    obtain ⟨hphase, hq⟩ := hnot
    obtain ⟨before, ⟨hn, rfl⟩ | ⟨k, hn, -⟩⟩ := step_resume.mp hs
    · cases h.stage with
      | settled hsettled => cases hsettled _ (List.mem_of_getElem? hn)
      | waiting m c hm hothers hr hu => exact .inr (.inr (exists_abandon hacc h.tasked hu hq rfl))
      | cancelling m k before' hm hothers =>
        rcases hothers.eq_or hm (List.mem_of_getElem? hn) with heq | heq <;> cases heq
    · rw [hn] at hphase
      cases hphase
  | _ => exact absurd trivial hc

/-- In an orderly run the counter is right, and every call of `stop` comes to return, with all workers ended;
any step that is not orderly, other than `start`, breaks this or leads up to it. -/
theorem accounting (h : Run cfg (fun _ => Orderly) L s) :
    (s.Counted ∧ (∀ w ∈ s.workers, w.phase ≠ .failed) ∧ ∀ c ∈ s.stops, c.phase ≠ .raised) ∧
    (∀ n < s.stops.length, Inevitable (State.step cfg) Inner (fun s' => s'.phaseOf n = some .returned) s) ∧
    (∀ l s', Orderly s l → s.step cfg l = some s' → ∀ n, s'.phaseOf n = some .returned →
      s.phaseOf n ≠ some .returned → s'.tasks = [] ∧ ∀ w ∈ s'.workers, w.done = true) ∧
    ∀ l s', l ≠ .start → ¬ Orderly s l → s.step cfg l = some s' →
      ¬ s'.Counted ∨ (∃ n, s'.phaseOf n = some .returned ∧ s.phaseOf n = none ∧ s'.tasks ≠ []) ∨
      ∃ i s'', s'.step cfg (.deliver i) = some s'' ∧ ¬ s''.Counted := by
  have hsound : Sound cfg s :=
    h.invariant (I := fun _ => Sound cfg) (sound_initial cfg) fun _ ih hc hs => ih.step hc hs
  refine ⟨⟨⟨hsound.accounted.counter, hsound.accounted.noError⟩, hsound.accounted.noFailed,
    hsound.stage.not_raised⟩,
    fun n hn => hsound.inevitable hn, fun l s' hc hs n hn hnew => hsound.returns hc hs hn hnew,
    fun l s' hl hc hs => hsound.disorderly hl hc hs⟩

instance (s : State) : Decidable s.Settled := inferInstanceAs (Decidable (∀ c ∈ s.stops, c.phase = .returned))

instance (s : State) : Decidable s.Quiet := inferInstanceAs (Decidable (∀ w ∈ s.workers, w.job? = none))

instance (s : State) : DecidablePred (Orderly s)
  | .start => inferInstanceAs (Decidable s.Settled)
  | .raise _ => inferInstanceAs (Decidable False)
  | .stop drain => inferInstanceAs (Decidable (s.Settled ∧
      (s.running = true → drain = false ∨ s.queue.unfinished = 0 → s.Quiet)))
  | .resume n => inferInstanceAs (Decidable ((s.stops[n]?).map StopCall.phase = some .woken → s.Quiet))
  | .enqueue _ | .get _ | .complete _ | .deliver _ => inferInstanceAs (Decidable True)

def stopped : State :=
  replayed (State.step (smallest .dropNew)) (fun _ => Orderly) (State.initial (smallest .dropNew))
    [.start, .enqueue ['1'], .get 0, .stop true]

theorem accounting_stopped : stopped.phaseOf 0 = some .joining ∧ stopped.Counted ∧
    Inevitable (State.step (smallest .dropNew)) Inner (fun s => s.phaseOf 0 = some .returned) stopped := by
  have htrace : Run (smallest .dropNew) (fun _ => Orderly) [.start, .enqueue ['1'], .get 0, .stop true] stopped :=
    trace_replayed (by decide)
  have hrun := accounting htrace
  exact ⟨by decide, hrun.1.1, hrun.2.1 0 (by decide)⟩

/-- `stop(drain=False)` during the handler: the second `task_done` raises `ValueError`, and `stop` raises it
too. -/
theorem cancelled_handler : ∃ s, Run (smallest .dropNew) (fun _ _ _ => True)
      [.start, .enqueue ['1'], .get 0, .stop false, .deliver 0, .resume 0] s ∧
    s.valueErrors = 1 ∧ s.phaseOf 0 = some .raised ∧ s.tasks = [0] := by
  refine ⟨_, trace_replayed (by decide), ?_⟩
  decide

end ShadowProxy.InProcessDispatcher

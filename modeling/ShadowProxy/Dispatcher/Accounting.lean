import ShadowProxy.Dispatcher.Steps

/-! Where the jobs are and what the unfinished counter counts, as long as no handler is cancelled. -/

namespace ShadowProxy.InProcessDispatcher

open Data

variable {cfg : DispatcherConfig} {s s' s₁ : State} {job old : CandidateJob} {q : AsyncQueue CandidateJob}
  {i : ℕ} {r : Str}

def State.totalDropped (s : State) : ℕ := s.droppedTotal .dropNew + s.droppedTotal .dropOld

structure Accounted (cfg : DispatcherConfig) (s : State) : Prop where
  maxsize : s.queue.maxsize = cfg.queueCapacity
  room : s.queue.items.length ≤ cfg.queueCapacity
  counter : s.queue.unfinished = s.queue.items.length + s.inFlight.length
  ledger : Ledger s.accepted s.evicted s.started s.queue.items
  flight : s.started.Perm (s.inFlight ++ s.handled)
  fresh : ∀ job ∈ s.accepted ++ s.rejected, job.enqueuedBy < s.calls
  rejected : ∀ job ∈ s.rejected, job ∉ s.accepted
  dropped : s.totalDropped = s.rejected.length + s.evicted.length
  noError : s.valueErrors = 0
  noFailed : ∀ w ∈ s.workers, w.phase ≠ .failed

lemma accounted_initial (cfg : DispatcherConfig) : Accounted cfg (State.initial cfg) where
  maxsize := rfl
  room := Nat.zero_le _
  counter := rfl
  ledger := .nil
  flight := List.Perm.refl _
  fresh := by simp [State.initial]
  rejected := by simp [State.initial]
  dropped := rfl
  noError := rfl
  noFailed := by simp [State.initial]

lemma totalDropped_countDropped (s : State) (policy : OverflowPolicy) :
    (s.countDropped policy).totalDropped = s.totalDropped + 1 := by
  cases policy <;> simp [State.totalDropped, State.countDropped, Function.update] <;> omega

lemma job?_cancel (w : Worker) : w.cancel.job? = w.job? := by
  obtain ⟨p, c⟩ := w
  cases p <;> rfl

lemma filterMap_mapIdx {α β : Type} {g : β → Option α} (f : ℕ → β → β) (hf : ∀ i b, g (f i b) = g b) (l : List β) :
    (l.mapIdx f).filterMap g = l.filterMap g := by
  induction l generalizing f with
  | nil => rfl
  | cons b l ih =>
    have hl := ih (fun i => f (i + 1)) fun i b => hf (i + 1) b
    simp only [List.mapIdx_cons, List.filterMap_cons, hf, hl]

lemma inFlight_cancelAll (s : State) : s.cancelAll.inFlight = s.inFlight := by
  apply filterMap_mapIdx
  intro i w
  split
  · exact job?_cancel w
  · rfl

lemma inFlight_start (cfg : DispatcherConfig) (s : State) : (s.start cfg).inFlight = s.inFlight := by
  have hnew : (List.replicate cfg.workers ({} : Worker)).filterMap Worker.job? = [] := by
    refine List.filterMap_eq_nil_iff.mpr fun w hw => ?_
    rw [(List.mem_replicate.mp hw).2]
    rfl
  rw [State.start]
  split
  · rfl
  · simp only [State.inFlight, List.filterMap_append, hnew, List.append_nil]

lemma Accounted.called (h : Accounted cfg s) : Accounted cfg s.called where
  maxsize := h.maxsize
  room := h.room
  counter := h.counter
  ledger := h.ledger
  flight := h.flight
  fresh := fun job hj => Nat.lt_succ_of_lt (h.fresh job hj)
  rejected := h.rejected
  dropped := h.dropped
  noError := h.noError
  noFailed := h.noFailed

lemma Accounted.newJob (h : Accounted cfg s) (r : Str) : s.newJob r ∉ s.accepted ∧ s.newJob r ∉ s.rejected := by
  constructor
  · exact fun hj => lt_irrefl s.calls (h.fresh _ (List.mem_append_left _ hj))
  · exact fun hj => lt_irrefl s.calls (h.fresh _ (List.mem_append_right _ hj))

lemma Accounted.accept (h : Accounted cfg s) (ha : job ∉ s.accepted) (hr : job ∉ s.rejected)
    (hc : job.enqueuedBy < s.calls) (hq : s.queue.putNowait job = some q) : Accounted cfg (s.accept job q) := by
  obtain ⟨hfull, rfl⟩ := AsyncQueue.putNowait_eq_some.mp hq
  have hlt := (AsyncQueue.room_of_not_full h.maxsize cfg.queueCapacity_pos).mp hfull
  constructor
  · exact h.maxsize
  · simp only [State.accept, List.length_append, List.length_singleton]
    omega
  · have hcount := h.counter
    simp only [State.accept, State.inFlight, List.length_append, List.length_singleton] at hcount ⊢
    omega
  · exact h.ledger.put ha
  · exact h.flight
  · intro j hj
    simp only [State.accept, List.mem_append, List.mem_singleton] at hj
    rcases hj with (hj | rfl) | hj
    · exact h.fresh j (List.mem_append_left _ hj)
    · exact hc
    · exact h.fresh j (List.mem_append_right _ hj)
  · intro j hj hmem
    rcases List.mem_append.mp hmem with hmem | hmem
    · exact h.rejected j hj hmem
    · exact hr (List.mem_singleton.mp hmem ▸ hj)
  · exact h.dropped
  · exact h.noError
  · exact h.noFailed

lemma Accounted.reject (h : Accounted cfg s) (ha : job ∉ s.accepted) (hc : job.enqueuedBy < s.calls)
    (policy : OverflowPolicy) : Accounted cfg (s.reject job policy) where
  maxsize := h.maxsize
  room := h.room
  counter := h.counter
  ledger := h.ledger
  flight := h.flight
  fresh := by
    intro j hj
    simp only [State.reject, State.countDropped, List.mem_append, List.mem_singleton] at hj
    rcases hj with hj | hj | rfl
    · exact h.fresh j (List.mem_append_left _ hj)
    · exact h.fresh j (List.mem_append_right _ hj)
    · exact hc
  rejected := by
    intro j hj
    rcases List.mem_append.mp hj with hj | hj
    · exact h.rejected j hj
    · exact List.mem_singleton.mp hj ▸ ha
  dropped := by
    have htotal : (s.reject job policy).totalDropped = s.totalDropped + 1 := totalDropped_countDropped s policy
    have hold := h.dropped
    simp only [State.reject, State.countDropped, List.length_append, List.length_singleton] at htotal ⊢
    omega
  noError := h.noError
  noFailed := h.noFailed

lemma Accounted.evict (h : Accounted cfg s) (hq : s.queue.getNowait = some (old, q))
    (hd : State.taskDone { s with queue := q } = some s₁) : Accounted cfg (s₁.evict old) := by
  obtain ⟨hitems, hmax, hun⟩ := AsyncQueue.getNowait_eq_some.mp hq
  obtain ⟨q', hq', rfl⟩ := taskDone_eq_some.mp hd
  obtain ⟨hdone, hitems', hmax'⟩ := AsyncQueue.taskDone_eq_some.mp hq'
  have hroom := h.room
  have hcount := h.counter
  rw [hitems, List.length_cons] at hroom hcount
  simp only [] at hdone hitems' hmax'
  constructor
  · exact hmax'.trans (hmax.trans h.maxsize)
  · simp only [State.evict, State.countDropped, hitems']
    omega
  · simp only [State.evict, State.countDropped, State.inFlight, hitems'] at hcount ⊢
    omega
  · have hl := h.ledger
    rw [hitems] at hl
    simp only [State.evict, State.countDropped, hitems']
    exact hl.evict
  · exact h.flight
  · exact h.fresh
  · exact h.rejected
  · have htotal := totalDropped_countDropped s .dropOld
    have hold := h.dropped
    simp only [State.evict, State.countDropped, State.totalDropped, List.length_append,
      List.length_singleton] at htotal hold ⊢
    omega
  · exact h.noError
  · exact h.noFailed

lemma Accounted.enqueue_cases (h : Accounted cfg s) (r : Str) :
    (∃ q, s.queue.putNowait (s.newJob r) = some q ∧ s.enqueue cfg r = s.called.accept (s.newJob r) q) ∨
    (s.queue.full = true ∧ cfg.overflowPolicy = .dropNew ∧
      s.enqueue cfg r = s.called.reject (s.newJob r) .dropNew) ∨
    ∃ old q s₁ q', s.queue.full = true ∧ cfg.overflowPolicy = .dropOld ∧ s.queue.getNowait = some (old, q) ∧
      State.taskDone { s.called with queue := q } = some s₁ ∧ s₁.queue.putNowait (s.newJob r) = some q' ∧
      s.enqueue cfg r = (s₁.evict old).accept (s.newJob r) q' := by
  cases hput : s.queue.putNowait (s.newJob r) with
  | some q =>
    refine .inl ⟨q, rfl, ?_⟩
    have hput' : s.called.queue.putNowait (s.newJob r) = some q := hput
    simp only [State.enqueue, hput']
  | none =>
    have hfull := AsyncQueue.putNowait_eq_none.mp hput
    have hput' : s.called.queue.putNowait (s.newJob r) = none := hput
    refine .inr ?_
    cases hpolicy : cfg.overflowPolicy with
    | dropNew =>
      refine .inl ⟨hfull, rfl, ?_⟩
      simp only [State.enqueue, hput', hpolicy]
    | dropOld =>
      have hlen : ¬ s.queue.items.length < cfg.queueCapacity := fun hlt => by
        have hroom := (AsyncQueue.room_of_not_full h.maxsize cfg.queueCapacity_pos).mpr hlt
        rw [hfull] at hroom
        cases hroom
      have hpos := cfg.queueCapacity_pos
      cases hget : s.queue.getNowait with
      | none =>
        have hnil := AsyncQueue.getNowait_eq_none.mp hget
        rw [hnil, List.length_nil] at hlen
        omega
      | some entry =>
        obtain ⟨old, q⟩ := entry
        obtain ⟨hitems, hmax, hun⟩ := AsyncQueue.getNowait_eq_some.mp hget
        have hroom := h.room
        have hcount := h.counter
        rw [hitems, List.length_cons] at hroom hcount
        cases hdone : State.taskDone { s.called with queue := q } with
        | none =>
          have hzero : q.unfinished = 0 := taskDone_eq_none.mp hdone
          omega
        | some s₁ =>
          obtain ⟨q₁, hq₁, rfl⟩ := taskDone_eq_some.mp hdone
          obtain ⟨-, hitems', hmax'⟩ := AsyncQueue.taskDone_eq_some.mp hq₁
          have hnot : q₁.full = false := by
            have hmax₁ : q₁.maxsize = cfg.queueCapacity := hmax'.trans (hmax.trans h.maxsize)
            apply (AsyncQueue.room_of_not_full hmax₁ hpos).mpr
            rw [hitems']
            change q.items.length < _
            omega
          have hput₁ := AsyncQueue.putNowait_eq_some.mpr ⟨hnot, Eq.refl { q₁ with
            items := q₁.items ++ [s.newJob r], unfinished := q₁.unfinished + 1 }⟩
          refine .inr ⟨old, q, _, _, hfull, rfl, rfl, hdone, hput₁, ?_⟩
          have hget' : s.called.queue.getNowait = some (old, q) := hget
          simp only [State.enqueue, hput', hpolicy, hget', hdone, hput₁]

lemma Accounted.enqueue (h : Accounted cfg s) (r : Str) : Accounted cfg (s.enqueue cfg r) := by
  obtain ⟨hna, hnr⟩ := h.newJob r
  have hfresh : (s.newJob r).enqueuedBy < s.called.calls := Nat.lt_succ_self s.calls
  rcases h.enqueue_cases r with ⟨q, hq, he⟩ | ⟨-, -, he⟩ | ⟨old, q, s₁, q', -, -, hget, hdone, hput, he⟩ <;>
    rw [he]
  · exact h.called.accept hna hnr hfresh hq
  · exact h.called.reject hna hfresh _
  · have hev := h.called.evict hget hdone
    obtain ⟨q₁, -, rfl⟩ := taskDone_eq_some.mp hdone
    exact hev.accept hna hnr hfresh hput

theorem Accounted.enqueue_refines (h : Accounted cfg s) (r : Str) :
    (s.enqueue cfg r).queue.items = (InProcessDispatcher.enqueue cfg s.queue.items (s.newJob r)).1 ∧
    (s.newJob r ∈ (s.enqueue cfg r).accepted ↔
      (InProcessDispatcher.enqueue cfg s.queue.items (s.newJob r)).2 = .enqueued) := by
  have hroom := AsyncQueue.room_of_not_full h.maxsize cfg.queueCapacity_pos
  have hlist : ∀ old rest, s.queue.full = true → s.queue.items = old :: rest →
      InProcessDispatcher.enqueue cfg s.queue.items (s.newJob r) = match cfg.overflowPolicy with
        | .dropOld => (rest ++ [s.newJob r], .enqueued)
        | .dropNew => (s.queue.items, .dropped) := by
    intro old rest hfull hitems
    have hlen : ¬ s.queue.items.length < cfg.queueCapacity := fun hlt => by simp [hroom.mpr hlt] at hfull
    unfold InProcessDispatcher.enqueue
    rw [if_neg hlen, hitems]
    cases cfg.overflowPolicy <;> rfl
  rcases h.enqueue_cases r with ⟨q, hq, he⟩ | ⟨hfull, hpolicy, he⟩ | ⟨old, q, s₁, q', hfull, hpolicy, hget,
    hdone, hput, he⟩
  · obtain ⟨hfull, rfl⟩ := AsyncQueue.putNowait_eq_some.mp hq
    unfold InProcessDispatcher.enqueue
    rw [he, if_pos (hroom.mp hfull)]
    simp [State.accept]
  · have hna := (h.newJob r).1
    cases hitems : s.queue.items with
    | nil =>
      have hlt : s.queue.items.length < cfg.queueCapacity := hitems ▸ cfg.queueCapacity_pos
      simp [hroom.mpr hlt] at hfull
    | cons old rest =>
      rw [← hitems, he, hlist old rest hfull hitems, hpolicy]
      exact ⟨rfl, fun hj => absurd hj hna, fun hd => by cases hd⟩
  · obtain ⟨hitems, -, -⟩ := AsyncQueue.getNowait_eq_some.mp hget
    obtain ⟨q₁, hq₁, rfl⟩ := taskDone_eq_some.mp hdone
    obtain ⟨-, hitems', -⟩ := AsyncQueue.taskDone_eq_some.mp hq₁
    obtain ⟨-, rfl⟩ := AsyncQueue.putNowait_eq_some.mp hput
    rw [he, hlist old q.items hfull hitems, hpolicy]
    simp [State.accept, State.evict, hitems']

lemma setWorker_phase {w : Worker} (h : Accounted cfg s) (hw : w.phase ≠ .failed) :
    ∀ w' ∈ s.workers.set i w, w'.phase ≠ .failed := by
  intro w' hw'
  rcases List.mem_or_eq_of_mem_set hw' with hw' | rfl
  · exact h.noFailed w' hw'
  · exact hw

lemma Accounted.get (h : Accounted cfg s) {c : Bool} (hw : s.workers[i]? = some ⟨.idle, c⟩)
    (hq : s.queue.getNowait = some (job, q)) : Accounted cfg (s.get i job q) := by
  obtain ⟨hitems, hmax, hun⟩ := AsyncQueue.getNowait_eq_some.mp hq
  have hflight : (s.get i job q).inFlight.Perm (job :: s.inFlight) := filterMap_set_some hw rfl rfl
  have hroom := h.room
  have hcount := h.counter
  have hl := h.ledger
  rw [hitems, List.length_cons] at hroom hcount
  rw [hitems] at hl
  constructor
  · exact hmax.trans h.maxsize
  · change q.items.length ≤ _
    omega
  · change q.unfinished = q.items.length + _
    rw [hflight.length_eq, List.length_cons]
    omega
  · exact Ledger.take (l := [job]) hl
  · calc (s.started ++ [job]).Perm (job :: s.started) := List.perm_append_singleton _ _
      _ |>.Perm (job :: (s.inFlight ++ s.handled)) := h.flight.cons job
      _ |>.Perm ((s.get i job q).inFlight ++ s.handled) := (hflight.symm.append_right s.handled)
  · exact h.fresh
  · exact h.rejected
  · exact h.dropped
  · exact h.noError
  · exact setWorker_phase (s := s) h (by simp)

lemma Accounted.complete_eq (h : Accounted cfg s) (hw : s.workers[i]? = some ⟨.handling job, false⟩) :
    ∃ q, s.queue.taskDone = some q ∧ s.complete i job =
      { s with
        handled := s.handled ++ [job], queue := q
        stops := if q.unfinished = 0 then s.stops.map StopCall.wake else s.stops
        workers := s.workers.set i ⟨.idle, false⟩ } := by
  have hflight : s.inFlight.Perm (job :: (s.workers.set i ⟨.idle, false⟩).filterMap Worker.job?) :=
    filterMap_set_none hw rfl rfl
  have hcount := h.counter
  rw [hflight.length_eq, List.length_cons] at hcount
  cases hdone : s.queue.taskDone with
  | none =>
    have hzero := AsyncQueue.taskDone_eq_none.mp hdone
    omega
  | some q =>
    have hdone' :=
      taskDone_eq_some.mpr ⟨q, show { s with handled := s.handled ++ [job] : State}.queue.taskDone =
        some q from hdone, rfl⟩
    refine ⟨q, rfl, ?_⟩
    simp only [State.complete, hdone']
    rfl

lemma Accounted.complete (h : Accounted cfg s) (hw : s.workers[i]? = some ⟨.handling job, false⟩) :
    Accounted cfg (s.complete i job) := by
  have hflight : s.inFlight.Perm (job :: (s.workers.set i ⟨.idle, false⟩).filterMap Worker.job?) :=
    filterMap_set_none hw rfl rfl
  have hroom := h.room
  have hcount := h.counter
  obtain ⟨q, hq, he⟩ := h.complete_eq hw
  obtain ⟨hdone, hitems, hmax⟩ := AsyncQueue.taskDone_eq_some.mp hq
  rw [hflight.length_eq, List.length_cons] at hcount
  rw [he]
  constructor
  · exact hmax.trans h.maxsize
  · rwa [← hitems] at hroom
  · simp only [State.inFlight, hitems]
    omega
  · rw [hitems]
    exact h.ledger
  · calc s.started.Perm (s.inFlight ++ s.handled) := h.flight
      _ |>.Perm (job :: _ ++ s.handled) := hflight.append_right s.handled
      _ |>.Perm (_ ++ job :: s.handled) := List.perm_middle.symm
      _ |>.Perm (_ ++ (s.handled ++ [job])) := (List.perm_append_singleton job s.handled).symm.append_left _
  · exact h.fresh
  · exact h.rejected
  · exact h.dropped
  · exact h.noError
  · exact setWorker_phase h (by simp)

lemma Accounted.frame (h : Accounted cfg s) (running : Bool) (tasks : List ℕ) (stops : List StopCall) :
    Accounted cfg { s with running := running, tasks := tasks, stops := stops } :=
  ⟨h.maxsize, h.room, h.counter, h.ledger, h.flight, h.fresh, h.rejected, h.dropped, h.noError, h.noFailed⟩

lemma Accounted.start (h : Accounted cfg s) : Accounted cfg (s.start cfg) := by
  have hflight := inFlight_start cfg s
  unfold State.start at hflight ⊢
  split at hflight
  · rename_i hrun
    rwa [if_pos hrun]
  · rename_i hrun
    rw [if_neg hrun]
    refine ⟨h.maxsize, h.room, ?_, h.ledger, ?_, h.fresh, h.rejected, h.dropped, h.noError, ?_⟩
    · rw [hflight]
      exact h.counter
    · rw [hflight]
      exact h.flight
    · intro w hw
      rcases List.mem_append.mp hw with hw | hw
      · exact h.noFailed w hw
      · rw [(List.mem_replicate.mp hw).2]
        simp

lemma phase_cancel (w : Worker) : w.cancel.phase = w.phase := by
  obtain ⟨p, c⟩ := w
  cases p <;> rfl

lemma Accounted.cancelAll (h : Accounted cfg s) : Accounted cfg s.cancelAll := by
  have hflight := inFlight_cancelAll s
  refine ⟨h.maxsize, h.room, ?_, h.ledger, ?_, h.fresh, h.rejected, h.dropped, h.noError, ?_⟩
  · rw [hflight]
    exact h.counter
  · rw [hflight]
    exact h.flight
  · intro w hw
    obtain ⟨i, hi, rfl⟩ := List.mem_mapIdx.mp hw
    have hmem := h.noFailed _ (List.getElem_mem hi)
    split
    · rwa [phase_cancel]
    · exact hmem

lemma Accounted.stop (h : Accounted cfg s) (drain : Bool) : Accounted cfg (s.stop drain) := by
  rcases stop_cases s drain with ⟨-, he⟩ | ⟨-, -, -, he⟩ | ⟨-, -, he⟩ <;> rw [he]
  · exact h.frame _ _ _
  · exact h.frame _ _ _
  · exact h.cancelAll.frame _ _ _

lemma Accounted.resume (h : Accounted cfg s) {n : ℕ} (hs : s.step cfg (.resume n) = some s') :
    Accounted cfg s' := by
  obtain ⟨before, ⟨-, rfl⟩ | ⟨k, -, ⟨-, rfl⟩ | ⟨i, c, -, ⟨-, rfl⟩ | ⟨-, rfl⟩⟩⟩⟩ := step_resume.mp hs
  · exact h.cancelAll.frame _ _ _
  · exact h.frame _ _ _
  · exact h.frame _ _ _
  · exact h.frame _ _ _

lemma Accounted.deliver (h : Accounted cfg s) (hw : s.workers[i]? = some ⟨.idle, true⟩) :
    Accounted cfg (s.setWorker i ⟨.cancelled, false⟩) := by
  have hflight : (s.setWorker i ⟨.cancelled, false⟩).inFlight = s.inFlight := filterMap_set_same hw rfl
  refine ⟨h.maxsize, h.room, ?_, h.ledger, ?_, h.fresh, h.rejected, h.dropped, h.noError, ?_⟩
  · rw [hflight]
    exact h.counter
  · rw [hflight]
    exact h.flight
  · exact setWorker_phase h (by simp)

def State.abandons (s : State) : Label → Bool
  | .raise _ => true
  | .deliver i => (s.workers[i]?.bind Worker.job?).isSome
  | _ => false

theorem accounted_step {l : Label} (h : Accounted cfg s) (hl : s.abandons l = false)
    (hs : s.step cfg l = some s') : Accounted cfg s' := by
  cases l with
  | start =>
    obtain rfl := Option.some.inj hs
    exact h.start
  | enqueue r =>
    obtain rfl := Option.some.inj hs
    exact h.enqueue r
  | get i =>
    obtain ⟨job, q, hw, hq, rfl⟩ := step_get.mp hs
    exact h.get hw hq
  | complete i =>
    obtain ⟨job, hw, rfl⟩ := step_complete.mp hs
    exact h.complete hw
  | raise i => cases hl
  | deliver i =>
    rcases step_deliver.mp hs with ⟨hw, rfl⟩ | ⟨⟨job, hw⟩, -⟩
    · exact h.deliver hw
    · simp [State.abandons, hw, Worker.job?] at hl
  | stop drain =>
    obtain rfl := Option.some.inj hs
    exact h.stop drain
  | resume n => exact h.resume hs

theorem Accounted.settled (h : Accounted cfg s) (hzero : s.queue.unfinished = 0) (hj : job ∈ s.accepted) :
    job ∈ s.handled ∨ job ∈ s.evicted := by
  have hcount := h.counter
  have hitems : s.queue.items = [] := List.length_eq_zero_iff.mp (by omega)
  have hflight : s.inFlight = [] := List.length_eq_zero_iff.mp (by omega)
  have hl := h.ledger
  rw [hitems] at hl
  have hplace := hl.perm.mem_iff.mp hj
  rw [List.append_nil, List.mem_append] at hplace
  rcases hplace with hstarted | hevicted
  · have hplace := h.flight.mem_iff.mp hstarted
    rw [hflight, List.nil_append] at hplace
    exact .inl hplace
  · exact .inr hevicted

theorem Accounted.wakes {l : Label} (h : Accounted cfg s) (hl : s.abandons l = false)
    (hs : s.step cfg l = some s') : (∃ drain, l = .stop drain) ∨ (∃ n, l = .resume n) ∨ s'.stops = s.stops ∨
      s'.stops = s.stops.map StopCall.wake ∧ ∀ job ∈ s.accepted, job ∈ s'.handled ∨ job ∈ s'.evicted := by
  cases l with
  | start =>
    obtain rfl := Option.some.inj hs
    rw [State.start]
    split <;> exact .inr (.inr (.inl rfl))
  | enqueue r =>
    obtain rfl := Option.some.inj hs
    rcases h.enqueue_cases r with ⟨q, -, he⟩ | ⟨-, -, he⟩ | ⟨old, q, s₁, q', -, -, hget, hdone, -, he⟩ <;> rw [he]
    · exact .inr (.inr (.inl rfl))
    · exact .inr (.inr (.inl rfl))
    · -- for a moment, between `task_done` and the second `put_nowait`, the counter may be at zero
      have hev := h.called.evict hget hdone
      obtain ⟨q₁, -, rfl⟩ := taskDone_eq_some.mp hdone
      by_cases hzero : q₁.unfinished = 0
      · refine .inr (.inr (.inr ⟨if_pos hzero, fun job hj => ?_⟩))
        exact hev.settled hzero hj
      · exact .inr (.inr (.inl (if_neg hzero)))
  | get i =>
    obtain ⟨job, q, -, -, rfl⟩ := step_get.mp hs
    exact .inr (.inr (.inl rfl))
  | complete i =>
    obtain ⟨job, hw, rfl⟩ := step_complete.mp hs
    have hacc := h.complete hw
    obtain ⟨q, -, he⟩ := h.complete_eq hw
    rw [he] at hacc ⊢
    by_cases hzero : q.unfinished = 0
    · refine .inr (.inr (.inr ⟨if_pos hzero, fun job hj => ?_⟩))
      exact hacc.settled hzero hj
    · exact .inr (.inr (.inl (if_neg hzero)))
  | raise i => cases hl
  | deliver i =>
    rcases step_deliver.mp hs with ⟨-, rfl⟩ | ⟨⟨job, hw⟩, -⟩
    · exact .inr (.inr (.inl rfl))
    · simp [State.abandons, hw, Worker.job?] at hl
  | stop drain => exact .inl ⟨drain, rfl⟩
  | resume n => exact .inr (.inl ⟨n, rfl⟩)

end ShadowProxy.InProcessDispatcher

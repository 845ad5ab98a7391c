import ShadowProxy.Dispatcher.Machine

/-! What each operation of the dispatcher can change. -/

namespace ShadowProxy.InProcessDispatcher

open Data

variable {cfg : DispatcherConfig} {s s' : State} {job : CandidateJob} {i n : ℕ} {r : Str} {l : Label}

lemma taskDone_eq_some : s.taskDone = some s' ↔ ∃ q, s.queue.taskDone = some q ∧
    s' = { s with queue := q, stops := if q.unfinished = 0 then s.stops.map StopCall.wake else s.stops } := by
  rw [State.taskDone, Option.map_eq_some_iff]
  constructor
  · rintro ⟨q, hq, rfl⟩
    exact ⟨q, hq, rfl⟩
  · rintro ⟨q, hq, rfl⟩
    exact ⟨q, hq, rfl⟩

lemma taskDone_eq_none : s.taskDone = none ↔ s.queue.unfinished = 0 := by
  rw [State.taskDone, Option.map_eq_none_iff, AsyncQueue.taskDone_eq_none]

lemma wake_wake (c : StopCall) : c.wake.wake = c.wake := by
  obtain ⟨phase, before⟩ := c
  cases phase <;> rfl

lemma wake_ne (c : StopCall) : c.wake.phase ≠ .joining := by
  obtain ⟨phase, before⟩ := c
  cases phase <;> simp [StopCall.wake]

lemma wake_phase (c : StopCall) :
    c.wake.phase = .joining ∨ c.wake.phase = .woken ↔ c.phase = .joining ∨ c.phase = .woken := by
  obtain ⟨phase, before⟩ := c
  cases phase <;> simp [StopCall.wake]

lemma wake_of_ne {c : StopCall} (h : c.phase ≠ .joining) : c.wake = c := if_neg h

lemma wake_before (c : StopCall) : c.wake.before = c.before := by
  rw [StopCall.wake]
  split <;> rfl

def Woken (stops stops' : List StopCall) : Prop := stops' = stops ∨ stops' = stops.map StopCall.wake

lemma Woken.trans {a b c : List StopCall} (hab : Woken a b) (hbc : Woken b c) : Woken a c := by
  rcases hab with rfl | rfl
  · exact hbc
  · rcases hbc with rfl | rfl
    · exact .inr rfl
    · refine .inr ?_
      rw [List.map_map]
      exact List.map_congr_left fun c _ => wake_wake c

lemma woken_taskDone (h : s.taskDone = some s') : Woken s.stops s'.stops := by
  obtain ⟨q, -, rfl⟩ := taskDone_eq_some.mp h
  rw [Woken]
  split
  · exact .inr rfl
  · exact .inl rfl

def EvictsOldest (s s' : State) : Prop :=
  s'.evicted = s.evicted ∨ ∃ old, s.queue.items.head? = some old ∧ s'.evicted = s.evicted ++ [old]

lemma enqueue_frame (cfg : DispatcherConfig) (s : State) (r : Str) :
    ∃ q stops total accepted rejected evicted errors,
      s.enqueue cfg r = { s with
        queue := q, stops := stops, droppedTotal := total, calls := s.calls + 1
        accepted := accepted, rejected := rejected, evicted := evicted, valueErrors := errors } ∧
      Woken s.stops stops ∧ s.accepted <+: accepted ∧
      (evicted = s.evicted ∨ ∃ old, s.queue.items.head? = some old ∧ evicted = s.evicted ++ [old]) := by
  unfold State.enqueue
  simp only []
  split
  · exact ⟨_, _, _, _, _, _, _, rfl, .inl rfl, List.prefix_append _ _, .inl rfl⟩
  · split
    · exact ⟨_, _, _, _, _, _, _, rfl, .inl rfl, List.prefix_rfl, .inl rfl⟩
    · split
      · exact ⟨_, _, _, _, _, _, _, rfl, .inl rfl, List.prefix_rfl, .inl rfl⟩
      · rename_i old q hget
        obtain ⟨hitems, -, -⟩ := AsyncQueue.getNowait_eq_some.mp hget
        have hitems' : s.queue.items = old :: q.items := hitems
        split
        · exact ⟨_, _, _, _, _, _, _, rfl, .inl rfl, List.prefix_rfl, .inl rfl⟩
        · rename_i s₁ hdone
          have hwoken := woken_taskDone hdone
          obtain ⟨q₁, -, rfl⟩ := taskDone_eq_some.mp hdone
          split
          · exact ⟨_, _, _, _, _, _, _, rfl, hwoken, List.prefix_append _ _, .inr ⟨old, by rw [hitems']; rfl, rfl⟩⟩
          · exact ⟨_, _, _, _, _, _, _, rfl, hwoken, List.prefix_rfl, .inr ⟨old, by rw [hitems']; rfl, rfl⟩⟩

lemma complete_frame (s : State) (i : ℕ) (job : CandidateJob) :
    ∃ q stops phase errors,
      s.complete i job = { s with
        queue := q, stops := stops, workers := s.workers.set i ⟨phase, false⟩
        handled := s.handled ++ [job], valueErrors := errors } ∧
      Woken s.stops stops ∧ (phase = .idle ∨ phase = .failed) := by
  rw [State.complete]
  simp only []
  split
  · rename_i hdone
    have hwoken := woken_taskDone hdone
    obtain ⟨q, -, rfl⟩ := taskDone_eq_some.mp hdone
    exact ⟨_, _, _, _, rfl, hwoken, .inl rfl⟩
  · exact ⟨_, _, _, _, rfl, .inl rfl, .inr rfl⟩

lemma abandon_frame (s : State) (i : ℕ) :
    ∃ q stops phase errors,
      s.abandon i = { s with
        queue := q, stops := stops, workers := s.workers.set i ⟨phase, false⟩, valueErrors := errors } ∧
      Woken s.stops stops ∧ (phase = .cancelled ∨ phase = .failed) := by
  rw [State.abandon]
  split
  · exact ⟨_, _, _, _, rfl, .inl rfl, .inr rfl⟩
  · rename_i hdone
    have hwoken := woken_taskDone hdone
    obtain ⟨q, -, rfl⟩ := taskDone_eq_some.mp hdone
    split
    · exact ⟨_, _, _, _, rfl, hwoken, .inr rfl⟩
    · rename_i hdone'
      have hwoken' := woken_taskDone hdone'
      obtain ⟨q', -, rfl⟩ := taskDone_eq_some.mp hdone'
      exact ⟨_, _, _, _, rfl, hwoken.trans hwoken', .inl rfl⟩

lemma stop_cases (s : State) (drain : Bool) :
    (s.running = false ∧ s.stop drain = { s with stops := s.stops ++ [⟨.returned, s.accepted⟩] }) ∨
    (s.running = true ∧ drain = true ∧ s.queue.unfinished ≠ 0 ∧
      s.stop drain = { s with running := false, stops := s.stops ++ [⟨.joining, s.accepted⟩] }) ∨
    s.running = true ∧ (drain = false ∨ s.queue.unfinished = 0) ∧
      s.stop drain = { s.cancelAll with running := false, stops := s.stops ++ [⟨.awaiting 0, s.accepted⟩] } := by
  cases hrun : s.running with
  | false =>
    refine .inl ⟨rfl, ?_⟩
    simp [State.stop, hrun]
  | true =>
    by_cases hwait : drain = true ∧ s.queue.unfinished ≠ 0
    · refine .inr (.inl ⟨rfl, hwait.1, hwait.2, ?_⟩)
      simp [State.stop, hrun, hwait.1, hwait.2]
    · have hnot : drain = false ∨ s.queue.unfinished = 0 := by
        cases drain <;> simp_all
      refine .inr (.inr ⟨rfl, hnot, ?_⟩)
      rcases hnot with hnot | hnot <;> simp [State.stop, hrun, hnot, State.cancelAll]

lemma step_get : s.step cfg (.get i) = some s' ↔ ∃ job q, s.workers[i]? = some ⟨.idle, false⟩ ∧
    s.queue.getNowait = some (job, q) ∧ s' = s.get i job q := by
  simp only [State.step]
  constructor
  · intro hs
    split at hs
    · rename_i hw hq
      exact ⟨_, _, hw, hq, (Option.some.inj hs).symm⟩
    · cases hs
  · rintro ⟨job, q, hw, hq, rfl⟩
    rw [hw, hq]

lemma step_complete : s.step cfg (.complete i) = some s' ↔
    ∃ job, s.workers[i]? = some ⟨.handling job, false⟩ ∧ s' = s.complete i job := by
  simp only [State.step]
  constructor
  · intro hs
    split at hs
    · rename_i hw
      exact ⟨_, hw, (Option.some.inj hs).symm⟩
    · cases hs
  · rintro ⟨job, hw, rfl⟩
    rw [hw]

lemma step_raise : s.step cfg (.raise i) = some s' ↔
    (∃ job, s.workers[i]? = some ⟨.handling job, false⟩) ∧ s' = s.abandon i := by
  simp only [State.step]
  constructor
  · intro hs
    split at hs
    · rename_i hw
      exact ⟨⟨_, hw⟩, (Option.some.inj hs).symm⟩
    · cases hs
  · rintro ⟨⟨job, hw⟩, rfl⟩
    rw [hw]

lemma step_deliver : s.step cfg (.deliver i) = some s' ↔
    s.workers[i]? = some ⟨.idle, true⟩ ∧ s' = s.setWorker i ⟨.cancelled, false⟩ ∨
    (∃ job, s.workers[i]? = some ⟨.handling job, true⟩) ∧ s' = s.abandon i := by
  simp only [State.step]
  constructor
  · intro hs
    split at hs
    · rename_i hw
      exact .inl ⟨hw, (Option.some.inj hs).symm⟩
    · rename_i hw
      exact .inr ⟨⟨_, hw⟩, (Option.some.inj hs).symm⟩
    · cases hs
  · rintro (⟨hw, rfl⟩ | ⟨⟨job, hw⟩, rfl⟩) <;> rw [hw]

lemma step_resume : s.step cfg (.resume n) = some s' ↔ ∃ before,
    s.stops[n]? = some ⟨.woken, before⟩ ∧ s' = s.cancelAll.setStop n ⟨.awaiting 0, before⟩ ∨
    ∃ k, s.stops[n]? = some ⟨.awaiting k, before⟩ ∧
      (s.tasks[k]? = none ∧ s' = { s with tasks := [] }.setStop n ⟨.returned, before⟩ ∨
      ∃ i c, s.tasks[k]? = some i ∧
        (s.workers[i]? = some ⟨.cancelled, c⟩ ∧ s' = s.setStop n ⟨.awaiting (k + 1), before⟩ ∨
        s.workers[i]? = some ⟨.failed, c⟩ ∧ s' = s.setStop n ⟨.raised, before⟩)) := by
  simp only [State.step, Option.bind_eq_some_iff]
  constructor
  · rintro ⟨⟨phase, before⟩, hc, hs⟩
    refine ⟨before, ?_⟩
    unfold State.resume at hs
    split at hs
    · rename_i he
      cases he
      exact .inl ⟨hc, (Option.some.inj hs).symm⟩
    · rename_i k _ he
      cases he
      refine .inr ⟨k, hc, ?_⟩
      split at hs
      · rename_i ht
        exact .inl ⟨ht, (Option.some.inj hs).symm⟩
      · rename_i i ht
        split at hs
        · rename_i hw
          exact .inr ⟨i, _, ht, .inl ⟨hw, (Option.some.inj hs).symm⟩⟩
        · rename_i hw
          exact .inr ⟨i, _, ht, .inr ⟨hw, (Option.some.inj hs).symm⟩⟩
        · cases hs
    · cases hs
  · rintro ⟨before, ⟨hc, rfl⟩ | ⟨k, hc, ⟨ht, rfl⟩ | ⟨i, c, ht, ⟨hw, rfl⟩ | ⟨hw, rfl⟩⟩⟩⟩ <;> refine ⟨_, hc, ?_⟩
    · rfl
    · simp only [State.resume, ht]
    · simp only [State.resume, ht, hw]
    · simp only [State.resume, ht, hw]

lemma step_records (h : s.step cfg l = some s') :
    s.accepted <+: s'.accepted ∧ s.handled <+: s'.handled ∧ EvictsOldest s s' := by
  cases l with
  | start =>
    obtain rfl := Option.some.inj h
    rw [State.start]
    split <;> exact ⟨List.prefix_rfl, List.prefix_rfl, .inl rfl⟩
  | enqueue r =>
    obtain rfl := Option.some.inj h
    obtain ⟨q, stops, total, accepted, rejected, evicted, errors, he, -, hacc, hev⟩ := enqueue_frame cfg s r
    rw [he]
    exact ⟨hacc, List.prefix_rfl, hev⟩
  | get i =>
    obtain ⟨job, q, -, -, rfl⟩ := step_get.mp h
    exact ⟨List.prefix_rfl, List.prefix_rfl, .inl rfl⟩
  | complete i =>
    obtain ⟨job, -, rfl⟩ := step_complete.mp h
    obtain ⟨q, stops, phase, errors, he, -, -⟩ := complete_frame s i job
    rw [he]
    exact ⟨List.prefix_rfl, List.prefix_append _ _, .inl rfl⟩
  | raise i =>
    obtain ⟨-, rfl⟩ := step_raise.mp h
    obtain ⟨q, stops, phase, errors, he, -, -⟩ := abandon_frame s i
    rw [he]
    exact ⟨List.prefix_rfl, List.prefix_rfl, .inl rfl⟩
  | deliver i =>
    rcases step_deliver.mp h with ⟨-, rfl⟩ | ⟨-, rfl⟩
    · exact ⟨List.prefix_rfl, List.prefix_rfl, .inl rfl⟩
    · obtain ⟨q, stops, phase, errors, he, -, -⟩ := abandon_frame s i
      rw [he]
      exact ⟨List.prefix_rfl, List.prefix_rfl, .inl rfl⟩
  | stop drain =>
    obtain rfl := Option.some.inj h
    rcases stop_cases s drain with ⟨-, he⟩ | ⟨-, -, -, he⟩ | ⟨-, -, he⟩ <;> rw [he] <;>
      exact ⟨List.prefix_rfl, List.prefix_rfl, .inl rfl⟩
  | resume n =>
    obtain ⟨before, ⟨-, rfl⟩ | ⟨k, -, ⟨-, rfl⟩ | ⟨i, c, -, ⟨-, rfl⟩ | ⟨-, rfl⟩⟩⟩⟩ := step_resume.mp h <;>
      exact ⟨List.prefix_rfl, List.prefix_rfl, .inl rfl⟩

lemma step_stops (h : s.step cfg l = some s') :
    (∃ drain, l = .stop drain) ∨ (∃ n, l = .resume n) ∨ Woken s.stops s'.stops := by
  cases l with
  | start =>
    obtain rfl := Option.some.inj h
    rw [State.start]
    split <;> exact .inr (.inr (.inl rfl))
  | enqueue r =>
    obtain rfl := Option.some.inj h
    obtain ⟨q, stops, total, accepted, rejected, evicted, errors, he, hwoken, -⟩ := enqueue_frame cfg s r
    rw [he]
    exact .inr (.inr hwoken)
  | get i =>
    obtain ⟨job, q, -, -, rfl⟩ := step_get.mp h
    exact .inr (.inr (.inl rfl))
  | complete i =>
    obtain ⟨job, -, rfl⟩ := step_complete.mp h
    obtain ⟨q, stops, phase, errors, he, hwoken, -⟩ := complete_frame s i job
    rw [he]
    exact .inr (.inr hwoken)
  | raise i =>
    obtain ⟨-, rfl⟩ := step_raise.mp h
    obtain ⟨q, stops, phase, errors, he, hwoken, -⟩ := abandon_frame s i
    rw [he]
    exact .inr (.inr hwoken)
  | deliver i =>
    rcases step_deliver.mp h with ⟨-, rfl⟩ | ⟨-, rfl⟩
    · exact .inr (.inr (.inl rfl))
    · obtain ⟨q, stops, phase, errors, he, hwoken, -⟩ := abandon_frame s i
      rw [he]
      exact .inr (.inr hwoken)
  | stop drain => exact .inl ⟨drain, rfl⟩
  | resume n => exact .inr (.inl ⟨n, rfl⟩)

end ShadowProxy.InProcessDispatcher

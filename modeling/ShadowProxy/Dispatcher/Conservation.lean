import ShadowProxy.Dispatcher.Accounting

/-! No job is lost or handled twice, and `stop(drain=True)` waits for the jobs it found. -/

namespace ShadowProxy.InProcessDispatcher

open Data

variable {cfg : DispatcherConfig} {s s' : State} {L : List Label} {l : Label}

/-- One start, and one `stop(drain=True)`, called while running; no handler raises `CancelledError`. -/
def Scope (L : List Label) (s : State) : Label → Prop
  | .start => Label.start ∉ L
  | .stop drain => drain = true ∧ s.running = true ∧ s.stops = []
  | .raise _ => False
  | _ => True

instance (L : List Label) (s : State) : DecidablePred (Scope L s)
  | .start => inferInstanceAs (Decidable (Label.start ∉ L))
  | .stop drain => inferInstanceAs (Decidable (drain = true ∧ s.running = true ∧ s.stops = []))
  | .raise _ => inferInstanceAs (Decidable False)
  | .enqueue _ | .get _ | .complete _ | .deliver _ | .resume _ => inferInstanceAs (Decidable True)

def BeforeCancel (s : State) : Prop := ∀ c ∈ s.stops, c.phase = .joining ∨ c.phase = .woken

structure Conserved (cfg : DispatcherConfig) (s : State) : Prop where
  capacity : s.queue.items.length ≤ cfg.queueCapacity
  flight : s.inFlight.length ≤ cfg.workers
  once : s.accepted.Nodup
  places : s.accepted.Perm (s.queue.items ++ s.inFlight ++ s.handled ++ s.evicted)
  dropped : ∀ job ∈ s.rejected, job ∉ s.started
  order : s.started ++ s.queue.items = s.accepted.filter fun job => job ∉ s.evicted
  counted : s.droppedTotal .dropNew + s.droppedTotal .dropOld = s.rejected.length + s.evicted.length

structure Pool (cfg : DispatcherConfig) (L : List Label) (workers : List Worker) : Prop where
  uncancelled : ∀ w ∈ workers, w.cancelRequested = false
  size : workers.length ≤ cfg.workers
  unstarted : Label.start ∉ L → workers = []

lemma Pool.snoc {workers : List Worker} (h : Pool cfg L workers) : Pool cfg (L ++ [l]) workers where
  uncancelled := h.uncancelled
  size := h.size
  unstarted := fun hl => h.unstarted fun hL => hl (List.mem_append_left _ hL)

lemma Pool.set {workers : List Worker} (h : Pool cfg L workers) (i : ℕ) (phase : WorkerPhase) :
    Pool cfg L (workers.set i ⟨phase, false⟩) where
  uncancelled := by
    intro w hw
    rcases List.mem_or_eq_of_mem_set hw with hw | rfl
    · exact h.uncancelled w hw
    · rfl
  size := by
    rw [List.length_set]
    exact h.size
  unstarted := by
    intro hL
    rw [h.unstarted hL, List.set_nil]

structure Steady (cfg : DispatcherConfig) (L : List Label) (s : State) : Prop where
  accounted : Accounted cfg s
  pool : Pool cfg L s.workers

lemma Steady.conserved (h : Steady cfg L s) : Conserved cfg s where
  capacity := h.accounted.room
  flight := le_trans (List.length_filterMap_le _ _) h.pool.size
  once := h.accounted.ledger.nodup
  places := by
    calc s.accepted.Perm (s.started ++ s.queue.items ++ s.evicted) := h.accounted.ledger.perm
      _ |>.Perm (s.queue.items ++ s.started ++ s.evicted) := List.perm_append_comm.append_right _
      _ |>.Perm (s.queue.items ++ (s.inFlight ++ s.handled) ++ s.evicted) :=
        (h.accounted.flight.append_left _).append_right _
      _ = _ := by rw [← List.append_assoc s.queue.items]
  dropped := fun job hj hstarted =>
    h.accounted.rejected job hj (h.accounted.ledger.mem.mp (List.mem_append_left _ hstarted)).1
  order := h.accounted.ledger.order
  counted := h.accounted.dropped

lemma Steady.deliver {i : ℕ} (h : Steady cfg L s) : s.step cfg (.deliver i) = none := by
  cases hs : s.step cfg (.deliver i) with
  | none => rfl
  | some s' =>
    rcases step_deliver.mp hs with ⟨hw, -⟩ | ⟨⟨job, hw⟩, -⟩
    · exact absurd (h.pool.uncancelled _ (List.mem_of_getElem? hw)) (by simp)
    · exact absurd (h.pool.uncancelled _ (List.mem_of_getElem? hw)) (by simp)

lemma Steady.abandons (h : Steady cfg L s) (hc : Scope L s l) (hs : s.step cfg l = some s') :
    s.abandons l = false := by
  cases l with
  | raise i => exact hc.elim
  | deliver i =>
    rw [h.deliver] at hs
    cases hs
  | _ => rfl

lemma pool_step (h : Steady cfg L s) (hc : Scope L s l) (hs : s.step cfg l = some s') (hb : BeforeCancel s') :
    Pool cfg (L ++ [l]) s'.workers := by
  cases l with
  | start =>
    obtain rfl := Option.some.inj hs
    have hnil := h.pool.unstarted hc
    rw [State.start]
    split
    · exact h.pool.snoc
    · refine ⟨?_, ?_, fun hL => absurd (List.mem_append_right L (List.mem_singleton.mpr rfl)) hL⟩
      · intro w hw
        rw [hnil, List.nil_append] at hw
        rw [(List.mem_replicate.mp hw).2]
      · simp [hnil]
  | enqueue r =>
    obtain rfl := Option.some.inj hs
    obtain ⟨q, stops, total, accepted, rejected, evicted, errors, he, -⟩ := enqueue_frame cfg s r
    rw [he]
    exact h.pool.snoc
  | get i =>
    obtain ⟨job, q, -, -, rfl⟩ := step_get.mp hs
    exact h.pool.snoc.set i _
  | complete i =>
    obtain ⟨job, -, rfl⟩ := step_complete.mp hs
    obtain ⟨q, stops, phase, errors, he, -, -⟩ := complete_frame s i job
    rw [he]
    exact h.pool.snoc.set i phase
  | raise i => exact hc.elim
  | deliver i =>
    rw [h.deliver] at hs
    cases hs
  | stop drain =>
    obtain rfl := Option.some.inj hs
    rcases stop_cases s drain with ⟨-, he⟩ | ⟨-, -, -, he⟩ | ⟨-, -, he⟩ <;> rw [he] at hb ⊢
    · exact h.pool.snoc
    · exact h.pool.snoc
    · have hlast := hb ⟨.awaiting 0, s.accepted⟩ (List.mem_append_right _ (List.mem_singleton.mpr rfl))
      simp at hlast
  | resume n =>
    obtain ⟨before, ⟨hn, rfl⟩ | ⟨k, hn, ⟨-, rfl⟩ | ⟨i, c, -, ⟨-, rfl⟩ | ⟨-, rfl⟩⟩⟩⟩ := step_resume.mp hs
    · have hlast := hb _ (List.mem_set (List.getElem?_eq_some_iff.mp hn).1 _)
      simp at hlast
    · exact h.pool.snoc
    · exact h.pool.snoc
    · exact h.pool.snoc

lemma Steady.step (h : Steady cfg L s) (hc : Scope L s l) (hs : s.step cfg l = some s') (hb : BeforeCancel s') :
    Steady cfg (L ++ [l]) s' :=
  ⟨accounted_step h.accounted (h.abandons hc hs) hs, pool_step h hc hs hb⟩

lemma beforeCancel_of_step (hc : Scope L s l) (hs : s.step cfg l = some s') (hb : BeforeCancel s') :
    BeforeCancel s := by
  rcases step_stops hs with ⟨drain, rfl⟩ | ⟨n, rfl⟩ | hwoken
  · intro c hmem
    rw [hc.2.2] at hmem
    cases hmem
  · exfalso
    obtain ⟨before, ⟨hn, rfl⟩ | ⟨k, hn, ⟨-, rfl⟩ | ⟨i, c, -, ⟨-, rfl⟩ | ⟨-, rfl⟩⟩⟩⟩ := step_resume.mp hs <;>
    · have hlast := hb _ (List.mem_set (List.getElem?_eq_some_iff.mp hn).1 _)
      simp at hlast
  · intro c hmem
    rcases hwoken with heq | heq
    · exact hb c (heq ▸ hmem)
    · exact (wake_phase c).mp (hb c.wake (heq ▸ List.mem_map_of_mem hmem))

structure Waited (s : State) (c : StopCall) : Prop where
  before : c.before ⊆ s.accepted
  settled : c.phase ≠ .joining → ∀ job ∈ c.before, job ∈ s.handled ∨ job ∈ s.evicted

lemma EvictsOldest.subset (h : EvictsOldest s s') : s.evicted ⊆ s'.evicted := by
  rcases h with h | ⟨old, -, h⟩ <;> rw [h]
  · exact List.Subset.refl _
  · exact List.subset_append_left _ _

lemma Waited.step {c : StopCall} (h : Waited s c) (hs : s.step cfg l = some s') : Waited s' c := by
  obtain ⟨hacc, hhandled, hevicts⟩ := step_records hs
  refine ⟨fun job hj => hacc.subset (h.before hj), fun hphase job hj => ?_⟩
  rcases h.settled hphase job hj with hj | hj
  · exact .inl (hhandled.subset hj)
  · exact .inr (hevicts.subset hj)

lemma Waited.of_phase {c c' : StopCall} (h : Waited s c) (hphase : c.phase ≠ .joining)
    (hbefore : c'.before = c.before) : Waited s c' :=
  ⟨hbefore ▸ h.before, fun _ => hbefore ▸ h.settled hphase⟩

structure Draining (cfg : DispatcherConfig) (L : List Label) (s : State) : Prop where
  steady : BeforeCancel s → Steady cfg L s
  one : s.stops.length ≤ 1
  waited : ∀ c ∈ s.stops, Waited s c

lemma draining_initial (cfg : DispatcherConfig) : Draining cfg [] (State.initial cfg) where
  steady := fun _ => by
    refine ⟨accounted_initial cfg, ?_, Nat.zero_le _, fun _ => rfl⟩
    intro w hw
    cases hw
  one := Nat.zero_le _
  waited := by
    intro c hc
    cases hc

lemma Draining.joining (h : Draining cfg L s) {c : StopCall} (hc : c ∈ s.stops) (hphase : c.phase = .joining) :
    BeforeCancel s := by
  intro c' hc'
  have hone := h.one
  obtain ⟨a, ha⟩ := List.length_eq_one_iff.mp (le_antisymm hone (List.length_pos_of_mem hc))
  rw [ha, List.mem_singleton] at hc hc'
  rw [hc', ← hc]
  exact .inl hphase

lemma Draining.waited_stop {drain : Bool} (h : Draining cfg L s) (hc : Scope L s (.stop drain)) :
    ∀ c ∈ (s.stop drain).stops, Waited (s.stop drain) c := by
  obtain ⟨rfl, hrun, hnone⟩ := hc
  have hbefore : BeforeCancel s := by
    intro c hmem
    rw [hnone] at hmem
    cases hmem
  intro c hmem
  rcases stop_cases s true with ⟨hrun', -⟩ | ⟨-, -, -, he⟩ | ⟨-, hzero, he⟩
  · rw [hrun] at hrun'
    cases hrun'
  · rw [he, hnone] at hmem
    obtain rfl := List.mem_singleton.mp hmem
    rw [he]
    exact ⟨List.Subset.refl _, fun hphase => absurd rfl hphase⟩
  · rw [he, hnone] at hmem
    obtain rfl := List.mem_singleton.mp hmem
    rw [he]
    exact ⟨List.Subset.refl _, fun _ job hj =>
      (h.steady hbefore).accounted.settled (hzero.resolve_left (by simp)) hj⟩

lemma Draining.waited_resume {n : ℕ} (h : Draining cfg L s) (hs : s.step cfg (.resume n) = some s') :
    ∀ c ∈ s'.stops, Waited s' c := by
  intro c hmem
  obtain ⟨before, ⟨hn, rfl⟩ | ⟨k, hn, ⟨-, rfl⟩ | ⟨i, _, -, ⟨-, rfl⟩ | ⟨-, rfl⟩⟩⟩⟩ := step_resume.mp hs <;>
  · have hold := (h.waited _ (List.mem_of_getElem? hn)).step hs
    rcases List.mem_or_eq_of_mem_set hmem with hmem | rfl
    · exact (h.waited c hmem).step hs
    · exact hold.of_phase (by simp) rfl

lemma Draining.waited_step (h : Draining cfg L s) (hc : Scope L s l) (hs : s.step cfg l = some s') :
    ∀ c ∈ s'.stops, Waited s' c := by
  have hkept : ∀ c, c ∈ s.stops → Waited s' c := fun c hmem => (h.waited c hmem).step hs
  intro c' hc'
  by_cases hb : BeforeCancel s
  · have hsteady := h.steady hb
    rcases hsteady.accounted.wakes (hsteady.abandons hc hs) hs with ⟨drain, rfl⟩ | ⟨n, rfl⟩ | heq | ⟨heq, hsettled⟩
    · obtain rfl := Option.some.inj hs
      exact h.waited_stop hc c' hc'
    · exact h.waited_resume hs c' hc'
    · exact hkept c' (heq ▸ hc')
    · rw [heq] at hc'
      obtain ⟨c, hmem, rfl⟩ := List.mem_map.mp hc'
      refine ⟨wake_before c ▸ (hkept c hmem).before, fun _ job hj => ?_⟩
      exact hsettled job ((h.waited c hmem).before (wake_before c ▸ hj))
  · -- no call is joining, so that a wake-up, of whatever counter, finds none
    rcases step_stops hs with ⟨drain, rfl⟩ | ⟨n, rfl⟩ | heq | heq
    · refine absurd (fun c hmem => ?_) hb
      rw [hc.2.2] at hmem
      cases hmem
    · exact h.waited_resume hs c' hc'
    · exact hkept c' (heq ▸ hc')
    · rw [heq] at hc'
      obtain ⟨c, hmem, rfl⟩ := List.mem_map.mp hc'
      rw [wake_of_ne fun hphase => hb (h.joining hmem hphase)]
      exact hkept c hmem

lemma step_one (h : Draining cfg L s) (hc : Scope L s l) (hs : s.step cfg l = some s') : s'.stops.length ≤ 1 := by
  have hone := h.one
  rcases step_stops hs with ⟨drain, rfl⟩ | ⟨n, rfl⟩ | heq | heq
  · obtain rfl := Option.some.inj hs
    rcases stop_cases s drain with ⟨-, he⟩ | ⟨-, -, -, he⟩ | ⟨-, -, he⟩ <;> simp [he, hc.2.2]
  · obtain ⟨before, ⟨-, rfl⟩ | ⟨k, -, ⟨-, rfl⟩ | ⟨i, c, -, ⟨-, rfl⟩ | ⟨-, rfl⟩⟩⟩⟩ := step_resume.mp hs <;>
      simpa [State.setStop, State.cancelAll] using hone
  · rwa [heq]
  · rwa [heq, List.length_map]

theorem draining (h : Run cfg Scope L s) : Draining cfg L s := by
  refine h.invariant (I := Draining cfg) (draining_initial cfg) fun _ ih hc hs => ?_
  exact ⟨fun hb => (ih.steady (beforeCancel_of_step hc hs hb)).step hc hs hb, step_one ih hc hs,
    ih.waited_step hc hs⟩

theorem conservation (h : Run cfg Scope L s) :
    (BeforeCancel s → Conserved cfg s ∧ ∀ l s', s.step cfg l = some s' → EvictsOldest s s') ∧
    ∀ c ∈ s.stops, c.phase = .returned → ∀ job ∈ c.before, job ∈ s.handled ∨ job ∈ s.evicted := by
  have hd := draining h
  constructor
  · exact fun hb => ⟨(hd.steady hb).conserved, fun l s' hs => (step_records hs).2.2⟩
  · intro c hc hphase
    exact (hd.waited c hc).settled (by simp [hphase])

/-- One worker and room for one job: the second job gives way to the third, which `stop` waits for, and the
fifth is handled while the cancellation has not come. -/
def drained : List Label :=
  [.enqueue ['1'], .start, .get 0, .enqueue ['2'], .enqueue ['3'], .stop true, .complete 0, .get 0, .enqueue ['4'],
    .enqueue ['5'], .complete 0, .get 0, .complete 0, .resume 0, .deliver 0, .resume 0, .resume 0]

def drainedTo (n : ℕ) : State :=
  Effects.replayed (State.step (smallest .dropOld)) Scope (State.initial (smallest .dropOld)) (drained.take n)

theorem conservation_drained :
    ((drainedTo 10).stops.map StopCall.phase = [.joining] ∧ (drainedTo 10).accepted.length = 5 ∧
      Conserved (smallest .dropOld) (drainedTo 10)) ∧
    (drainedTo 17).stops.map StopCall.phase = [.returned] ∧
      ∀ c ∈ (drainedTo 17).stops, ∀ job ∈ c.before, job ∈ (drainedTo 17).handled ∨ job ∈ (drainedTo 17).evicted :=
        by
  have hdraining : BeforeCancel (drainedTo 10) := by unfold BeforeCancel; decide
  have hreturned : ∀ c ∈ (drainedTo 17).stops, c.phase = .returned := by decide
  have hrun : Run (smallest .dropOld) Scope drained (drainedTo 17) := Effects.trace_replayed (by decide)
  refine ⟨⟨by decide, by decide, ?_⟩, by decide, fun c hc => ?_⟩
  · exact ((conservation (Effects.trace_replayed (by decide))).1 hdraining).1
  · exact (conservation hrun).2 c hc (hreturned c hc)

end ShadowProxy.InProcessDispatcher

import ShadowProxy.Lifecycle.AtMostOnce
import ShadowProxy.Metrics.Requests

/-! What becomes of a request whose row has been written. -/

namespace ShadowProxy

open Effects Prog

section Up

variable {dep : Deployment} {clock : DateTime} {L : List (ProxyLabel dep)} {w w' : ProxyWorld dep}
  {l : ProxyLabel dep}

structure Up (w : ProxyWorld dep) : Prop where
  live : ∀ t k p, w.threads t = some ⟨k, p⟩ → (w.state.procs k.replica).phase ≠ .down
  empty : ∀ x, (w.state.procs x).phase = .down → (w.state.procs x).queue = []

lemma after_proc_ne (t : ℕ) (k : Kind) (s : State) (o : Op) (res : Except Exn o.Ret) {y : ℕ} (hy : y ≠ k.replica) :
    (after dep t k s o res).procs y = s.procs y := by
  cases o
  case enqueue r =>
    cases res with
    | error e => rfl
    | ok a => simp [after, State.setProc, hy]
  case serve =>
    cases res with
    | error e => rfl
    | ok a => simp [after, State.setProc, hy]
  case rawPut =>
    simp only [after, State.write]
    split <;> rfl
  all_goals
    cases res <;> rfl

lemma after_phase (t : ℕ) (k : Kind) (s : State) (o : Op) (res : Except Exn o.Ret) (y : ℕ)
    (hy : (s.procs y).phase ≠ .down) : ((after dep t k s o res).procs y).phase ≠ .down := by
  by_cases hyk : y = k.replica
  · subst hyk
    cases o
    case enqueue r =>
      cases res with
      | error e => exact hy
      | ok a => simpa [after, State.setProc] using hy
    case serve =>
      cases res with
      | error e => exact hy
      | ok a => simp [after, State.setProc]
    case rawPut =>
      simp only [after, State.write]
      split <;> exact hy
    all_goals
      cases res <;> exact hy
  · rw [after_proc_ne t k s o res hyk]
    exact hy

lemma onSpawn_phase {s : State} {k : Kind} (hc : canSpawn dep s k) {y : ℕ}
    (hy : (s.procs y).phase ≠ .down ∨ y = k.replica) : ((onSpawn s k).procs y).phase ≠ .down := by
  obtain ⟨x, task⟩ := k
  by_cases hyx : y = x
  · subst hyx
    cases task with
    | chat c =>
      have hserving : (s.procs y).phase = .serving := hc
      simp [onSpawn, hserving]
    | handle job => simpa [onSpawn, State.setProc] using hc.1
    | sweep => simpa [onSpawn, State.setProc] using hc.1
    | startup => simp [onSpawn, State.setProc]
  · have hold := hy.resolve_right hyx
    cases task <;> simpa [onSpawn, State.setProc, hyx] using hold

lemma onSpawn_proc_ne {s : State} {k : Kind} {y : ℕ} (hy : y ≠ k.replica) : (onSpawn s k).procs y = s.procs y := by
  obtain ⟨x, task⟩ := k
  have hne : y ≠ x := hy
  cases task <;> simp [onSpawn, State.setProc, hne]

lemma onExit_same (s : State) (k : Kind) (y : ℕ) :
    ((onExit s k).procs y).phase = (s.procs y).phase ∧ ((onExit s k).procs y).queue = (s.procs y).queue := by
  obtain ⟨x, task⟩ := k
  by_cases hyx : y = x
  · subst hyx
    cases task <;> simp [onExit, State.setProc]
  · cases task <;> simp [onExit, State.setProc, hyx]

lemma onEnv_same (s : State) (e : Env) (y : ℕ) :
    ((onEnv s e).procs y).phase = (s.procs y).phase ∧ ((onEnv s e).procs y).queue = (s.procs y).queue := by
  cases e with
  | tick now => exact ⟨rfl, rfl⟩
  | putConfig x rate =>
    by_cases hyx : y = x
    · subst hyx
      simp [onEnv, State.setProc]
    · simp [onEnv, State.setProc, hyx]

variable {t : ℕ} {k : Kind}

lemma Up.spawn (hu : Up w) (hc : canSpawn dep w.state k) : Up (w.spawn t k) where
  live u k' p hp := by
    by_cases hut : u = t
    · subst hut
      simp only [World.spawn, Function.update_self, Option.some.injEq, Thread.mk.injEq] at hp
      exact onSpawn_phase hc (.inr (congrArg Kind.replica hp.1.symm))
    · simp only [World.spawn, Function.update_of_ne hut] at hp
      exact onSpawn_phase hc (.inl (hu.live u k' p hp))
  empty y hy := by
    have hne : y ≠ k.replica := fun he => onSpawn_phase hc (.inr he) hy
    have hsame : (onSpawn w.state k).procs y = w.state.procs y := onSpawn_proc_ne hne
    have hdown : (w.state.procs y).phase = .down := (congrArg Process.phase hsame).symm.trans hy
    exact (congrArg Process.queue hsame).trans (hu.empty y hdown)

lemma Up.act (hu : Up w) {p p' : Program Unit} (ht : w.threads t = some ⟨k, p⟩) (o : Op) (r : Except Exn o.Ret) :
    Up (w.act t k ⟨o, r⟩ p') where
  live u k' q hq := by
    by_cases hut : u = t
    · subst hut
      simp only [World.act, Function.update_self, Option.some.injEq, Thread.mk.injEq] at hq
      exact after_phase _ _ _ _ _ _ (hq.1 ▸ hu.live u k p ht)
    · simp only [World.act, Function.update_of_ne hut] at hq
      exact after_phase _ _ _ _ _ _ (hu.live u k' q hq)
  empty y hy := by
    have hne : y ≠ k.replica := by
      rintro rfl
      exact after_phase t k w.state o r _ (hu.live t k p ht) hy
    have hsame : (after dep t k w.state o r).procs y = w.state.procs y := after_proc_ne t k w.state o r hne
    have hdown : (w.state.procs y).phase = .down := (congrArg Process.phase hsame).symm.trans hy
    exact (congrArg Process.queue hsame).trans (hu.empty y hdown)

lemma Up.exit (hu : Up w) : Up (w.exit t k) where
  live u k' q hq := by
    by_cases hut : u = t
    · subst hut
      simp [World.exit] at hq
    · simp only [World.exit, Function.update_of_ne hut] at hq
      exact fun hy => hu.live u k' q hq ((onExit_same w.state k _).1.symm.trans hy)
  empty y hy := (onExit_same w.state k y).2.trans (hu.empty y ((onExit_same w.state k y).1.symm.trans hy))

lemma Up.env (hu : Up w) (e : Env) : Up (w.env e) where
  live u k' q hq hy := hu.live u k' q hq ((onEnv_same w.state e _).1.symm.trans hy)
  empty y hy := (onEnv_same w.state e y).2.trans (hu.empty y ((onEnv_same w.state e y).1.symm.trans hy))

lemma Up.crash (hu : Up w) (x : ℕ) : Up (w.crash x) where
  live u k' q hq := by
    obtain ⟨hq, hne⟩ := Option.filter_eq_some_iff.mp hq
    have hx : k'.replica ≠ x := of_decide_eq_true hne
    simpa [World.crash, State.setProc, hx] using hu.live u k' q hq
  empty y hy := by
    by_cases hyx : y = x
    · subst hyx
      simp [World.crash, State.setProc]
    · simp only [World.crash, State.setProc, Function.update_of_ne hyx] at hy ⊢
      exact hu.empty y hy

lemma Run.up (h : Run (start dep clock) L w) : Up w := by
  induction h with
  | nil =>
    refine ⟨fun t k p hp => ?_, fun _ _ => rfl⟩
    cases hp
  | snoc _ _ hs ih =>
    cases hs with
    | spawn _ hc => exact ih.spawn hc
    | act ht _ => exact ih.act ht _ _
    | exit => exact ih.exit
    | env => exact ih.env _
    | crash => exact ih.crash _

end Up

section Accepted

variable {dep : Deployment} {clock : DateTime} {L : List (ProxyLabel dep)} {w w' : ProxyWorld dep}
  {l : ProxyLabel dep} {x n : ℕ} {r : Str} {job : CandidateJob}

/-- A thread of its process has queued a newer job in its place, as the oldest one of a full queue. -/
def Evicted (clock : DateTime) (L : List (ProxyLabel dep)) (x : ℕ) (job : CandidateJob) : Prop :=
  ∃ L₁ L₂ w₁ t task r', L = L₁ ++ .act t ⟨.enqueue r', .ok .enqueued⟩ :: L₂ ∧ Run (start dep clock) L₁ w₁ ∧
    Label.spawn (S := system dep) t ⟨x, task⟩ ∈ L₁ ∧
    dep.config.dispatcher.overflowPolicy = .dropOld ∧
    dep.config.dispatcher.queueCapacity ≤ (w₁.state.procs x).queue.length ∧
    (w₁.state.procs x).queue.head? = some job

lemma Evicted.snoc (he : Evicted clock L x job) (l : ProxyLabel dep) : Evicted clock (L ++ [l]) x job := by
  obtain ⟨L₁, L₂, w₁, t, task, r', rfl, h⟩ := he
  exact ⟨L₁, L₂ ++ [l], w₁, t, task, r', by simp, h⟩

lemma enqueue_keeps (cfg : DispatcherConfig) {queue : List CandidateJob} (new : CandidateJob) (hj : job ∈ queue) :
    job ∈ (InProcessDispatcher.enqueue cfg queue new).1 ∨
      (InProcessDispatcher.enqueue cfg queue new).2 = .enqueued ∧
      cfg.overflowPolicy = .dropOld ∧ cfg.queueCapacity ≤ queue.length ∧ queue.head? = some job := by
  unfold InProcessDispatcher.enqueue
  split
  · exact .inl (List.mem_append_left _ hj)
  · rename_i hfull
    split
    · rename_i old rest hpolicy
      rcases List.mem_cons.mp hj with rfl | hrest
      · exact .inr ⟨rfl, hpolicy, not_lt.mp hfull, rfl⟩
      · exact .inl (List.mem_append_left _ hrest)
    · exact .inl hj

lemma job_step (h : Run (start dep clock) L w) (hs : Step w l w') (hc : l ≠ .crash x)
    (hj : job ∈ (w.state.procs x).queue) :
    job ∈ (w'.state.procs x).queue ∨ (∃ t, l = .spawn t ⟨x, .handle job⟩) ∨ Evicted clock (L ++ [l]) x job := by
  cases hs with
  | @spawn t k ht hcan =>
    by_cases hx : x = k.replica
    · obtain ⟨y, task⟩ := k
      obtain rfl : x = y := hx
      cases task with
      | chat c => exact .inl hj
      | sweep => exact .inl (by simpa [World.spawn, onSpawn, State.setProc] using hj)
      | startup =>
        rw [(Run.up h).empty x hcan] at hj
        cases hj
      | handle job' =>
        have htaken :=
          handle_takes (.spawn ht hcan : Step w (.spawn t ⟨x, .handle job'⟩) (w.spawn t ⟨x, .handle job'⟩))
        rw [htaken] at hj
        rcases List.mem_cons.mp hj with rfl | hrest
        · exact .inr (.inl ⟨t, rfl⟩)
        · exact .inl hrest
    · have hsame : (onSpawn w.state k).procs x = w.state.procs x := onSpawn_proc_ne hx
      exact .inl ((congrArg Process.queue hsame).symm ▸ hj)
  | @act t k o f res ht hl =>
    by_cases hx : x = k.replica
    · subst hx
      cases o
      case enqueue r' =>
        cases res with
        | error e => exact .inl hj
        | ok dispatch =>
          rcases enqueue_keeps dep.config.dispatcher ⟨r', t⟩ hj with hkeep | ⟨hacc, hpolicy, hfull, hhead⟩
          · exact .inl (by simpa [World.act, after, State.setProc] using hkeep)
          · have hstatus :=
              hl.trans (InProcessDispatcher.enqueue_status dep.config.dispatcher (w.state.procs k.replica).queue
              ⟨r', 0⟩ ⟨r', t⟩)
            obtain rfl : dispatch = .enqueued := hstatus.trans hacc
            obtain ⟨hk, -⟩ := (Run.tracked h fun _ => rfl).live t _ ht
            exact .inr (.inr ⟨L, [], w, t, k.task, r', rfl, h, hk, hpolicy, hfull, hhead⟩)
      case serve =>
        cases res with
        | error e => exact .inl hj
        | ok u => exact .inl (by simpa [World.act, after, State.setProc] using hj)
      case rawPut id payload =>
        refine .inl ?_
        simp only [World.act, after, State.write]
        split <;> exact hj
      all_goals
        cases res <;> exact .inl hj
    · have hsame : (after dep t k w.state o res).procs x = w.state.procs x := after_proc_ne t k w.state o res hx
      exact .inl ((congrArg Process.queue hsame).symm ▸ hj)
  | exit => exact .inl ((onExit_same w.state _ x).2.symm ▸ hj)
  | env => exact .inl ((onEnv_same w.state _ x).2.symm ▸ hj)
  | @crash y =>
    have hne : x ≠ y := fun he => hc (he ▸ rfl)
    exact .inl (by simpa [World.crash, State.setProc, hne] using hj)

lemma Run.accepted (h : Run (start dep clock) L w) (hc : Label.crash x ∉ L) {task : Task}
    (hk : Label.spawn (S := system dep) n ⟨x, task⟩ ∈ L) (ha : Acted L n (.enqueue r) (.ok .enqueued)) :
    (⟨r, n⟩ : CandidateJob) ∈ (w.state.procs x).queue ∨
    (∃ t, Label.spawn (S := system dep) t ⟨x, .handle ⟨r, n⟩⟩ ∈ L) ∨
      Evicted clock L x ⟨r, n⟩ := by
  induction h with
  | nil => cases ha
  | @snoc L w l w' hr _ hs ih =>
    have hc' : Label.crash x ∉ L := fun hm => hc (List.mem_append_left _ hm)
    have hl : l ≠ .crash x := fun he => hc (by simp [he])
    rcases acted_snoc.mp ha with hold | rfl
    · obtain ⟨k, hk'⟩ : ∃ k, Label.spawn (S := system dep) n k ∈ L := by
        obtain ⟨task', -, ⟨y, hst⟩, -⟩ := Run.acted_issued hr hold
        exact ⟨_, hst⟩
      obtain rfl := (Run.tracked (Run.snoc hr hs) fun _ => rfl).unique n _ _ hk (List.mem_append_left _ hk')
      rcases ih hc' hk' hold with hj | ⟨t, ht⟩ | he
      · rcases job_step hr hs hl hj with hj' | ⟨t, rfl⟩ | he
        · exact .inl hj'
        · exact .inr (.inl ⟨t, by simp⟩)
        · exact .inr (.inr he)
      · exact .inr (.inl ⟨t, List.mem_append_left _ ht⟩)
      · exact .inr (.inr (he.snoc l))
    · cases hs with
      | @act _ k o f res ht hlegal =>
        obtain ⟨hk', -⟩ := (Run.tracked hr fun _ => rfl).live n _ ht
        have hkL : Label.spawn (S := system dep) n ⟨x, task⟩ ∈ L := by simpa using hk
        obtain rfl := (Run.tracked hr fun _ => rfl).unique n _ _ hkL hk'
        obtain ⟨q, -, hq⟩ := InProcessDispatcher.enqueue_enqueued
          ((hlegal.trans (InProcessDispatcher.enqueue_status
          dep.config.dispatcher (w.state.procs x).queue ⟨r, 0⟩ ⟨r, n⟩)).symm)
        refine .inl ?_
        simp only [World.act, after, State.setProc, Function.update_self]
        rw [hq]
        simp

end Accepted

section Gate

variable {dep : Deployment} {h : List Ev} {c : ChatCall} {a : PersistArgs} {routeCfg : RouteConfig}
  {outcome : PrimaryOutcome}

lemma concluded_performs {α : Type} {S : Op → Bool} {P : Op → Prop} {p : Program α} (hp : Performs P p) :
    Concluded S h p fun h' _ => Only P h h' := by
  induction p generalizing h with
  | ret a => exact Only.refl h
  | raise e => exact Only.refl h
  | op o g ih => exact fun r _ => (ih r (hp.2 r)).mono fun h' r' _ ho => ((Only.refl h).snoc hp.1).trans ho

lemma performs_runPrimary_unrecorded (req : ChatRequest) (timeoutS : PyFloat) :
    @Performs proxy _ (fun o => ∀ record, o ≠ .insertPending record) (runPrimary req timeoutS) := by
  have hclock : @Performs proxy _ (fun o => ∀ record, o ≠ .insertPending record) (perform .perfCounter) :=
    performs_perform (I := proxy) (by simp)
  refine .bind hclock fun start => .bind (performs_perform (I := proxy) (by simp)).attempt fun res => ?_
  cases res with
  | ok resp => exact .bind (.bind hclock fun _ => trivial) fun _ => trivial
  | error e =>
    cases e
    case llmTimeout | llmCall => exact .bind (.bind hclock fun _ => trivial) fun _ => trivial
    all_goals trivial

def Recording (status : PrimaryStatus) (o : Op) : Prop :=
  ∀ record, o = .insertPending record → record.primaryStatus = status

lemma concluded_persistPending_recording (hn : ∀ record res, ¬ Did h (.insertPending record) res) :
    Concluded (fun _ => false) h (persistPending dep a outcome) fun h' r => ∀ record,
      Did h' (.insertPending record) (.ok ()) →
      r = .ok () ∧ record.primaryStatus = outcome.status := by
  have hinsert : ∀ (h₁ : List Ev) (key action : Option Str), (∀ record res, ¬ Did h₁ (.insertPending record) res) →
      Concluded (fun _ => false) h₁ (insertRecord dep (pendingRecord a outcome key action)) fun h' r =>
        ∀ record, Did h' (.insertPending record) (.ok ()) → r = .ok () ∧ record.primaryStatus = outcome.status :=
          by
    intro h₁ key action hn₁
    refine (concludes_bind _ _).mpr ((concludes_attempt _).mpr (concludes_perform fun res _ => ?_))
    cases res with
    | ok u =>
      intro record hd
      rcases did_snoc.mp hd with hold | hlast
      · exact absurd hold (hn₁ record _)
      · cases hlast
        exact ⟨rfl, rfl⟩
    | error e =>
      have hfailed : ∀ record, ¬ Did (h₁ ++ [⟨.insertPending (pendingRecord a outcome key action), .error e⟩])
          (.insertPending record) (.ok ()) := fun record hd => by
        rcases did_snoc.mp hd with hold | hlast
        · exact hn₁ record _ hold
        · cases hlast
      dsimp only
      split <;> exact fun record hd => absurd hd (hfailed record)
  have harchive : @Performs proxy _ (fun o => ∀ record, o ≠ .insertPending record) (archive dep a outcome) :=
    performs_archive (by simp) (by simp) outcome
  refine (concludes_bind _ _).mpr ((concluded_performs harchive).mono fun h₁ r _ ho => ?_)
  have hn₁ : ∀ record res, ¬ Did h₁ (.insertPending record) res := fun record res hd => by
    rcases ho.new _ hd with hold | hnew
    · exact hn record res hold
    · exact hnew record rfl
  cases r with
  | error e => exact fun record hd => absurd hd (hn₁ record _)
  | ok key =>
    dsimp only
    split
    · refine (concludes_bind _ _).mpr ((concludes_orRaise _).mpr ?_)
      cases extractAction dep.py outcome.content with
      | error e => exact fun record hd => absurd hd (hn₁ record _)
      | ok action => exact hinsert h₁ key action hn₁
    · exact hinsert h₁ key none hn₁

def Decided (c : ChatCall) (h : List Ev) : Prop :=
  ∀ record, Did h (.insertPending record) (.ok ()) → record.primaryStatus ≠ .ok ∨
    (∃ rate draw, Did h .sample (.ok (rate, draw)) ∧ rate ≤ draw) ∨
    ∃ status, Did h (.enqueue c.requestId) (.ok status)

lemma concluded_shadowGate_gated :
    Concluded (fun _ => false) h (shadowGate c.requestId) fun h' r => ∃ gate, r = .ok gate ∧
    ((∃ rate draw, Did h' .sample (.ok (rate, draw)) ∧ rate ≤ draw) ∨ ∃ status,
      Did h' (.enqueue c.requestId) (.ok status)) := by
  unfold shadowGate
  refine (concludes_bind _ _).mpr (concludes_sure rfl fun gate => ?_)
  obtain ⟨rate, draw⟩ := gate
  have htail : ∀ (h₁ : List Ev) (sampledIn enqueued : Bool),
      ((∃ rate draw, Did h₁ .sample (.ok (rate, draw)) ∧ rate ≤ draw) ∨ ∃ status,
        Did h₁ (.enqueue c.requestId) (.ok status)) →
      Concluded (fun _ => false) h₁ (do
        perform (.count (.business .requestsTotal))
        perform (.count (.business .requestsSuccess))
        if enqueued then perform (.count (.business .shadowEnqueued))
        else if !sampledIn then perform (.count (.business .shadowSampledOut))
        return (sampledIn, enqueued, rate)) fun h' r => ∃ gate, r = .ok gate ∧
          ((∃ rate draw, Did h' .sample (.ok (rate, draw)) ∧ rate ≤ draw) ∨ ∃ status,
            Did h' (.enqueue c.requestId) (.ok status)) := by
    intro h₁ sampledIn enqueued hgate
    have hmono : ∀ {h₂ : List Ev}, h₁ <+: h₂ →
        (∃ rate draw, Did h₂ .sample (.ok (rate, draw)) ∧ rate ≤ draw) ∨
        ∃ status, Did h₂ (.enqueue c.requestId) (.ok status) := by
      intro h₂ hh
      rcases hgate with ⟨rate, draw, hd, hle⟩ | ⟨status, hd⟩
      · exact .inl ⟨rate, draw, hd.mono hh, hle⟩
      · exact .inr ⟨status, hd.mono hh⟩
    refine (concludes_bind _ _).mpr (concludes_sure rfl fun _ => ?_)
    refine (concludes_bind _ _).mpr (concludes_sure rfl fun _ => ?_)
    cases enqueued with
    | true => exact (concludes_bind _ _).mpr (concludes_sure rfl fun _ => ⟨_, rfl, hmono (by simp)⟩)
    | false =>
      cases sampledIn with
      | true => exact ⟨_, rfl, hmono (by simp)⟩
      | false => exact (concludes_bind _ _).mpr (concludes_sure rfl fun _ => ⟨_, rfl, hmono (by simp)⟩)
  dsimp only
  split
  · refine (concludes_bind _ _).mpr (concludes_sure rfl fun status => ?_)
    exact htail _ _ _ (.inr ⟨status, did_last _ _ _⟩)
  · rename_i hout
    refine htail _ _ _ (.inl ⟨rate, draw, did_last _ _ _, ?_⟩)
    simpa using hout

lemma concluded_respond_gated
    (hr : ∀ record, Did h (.insertPending record) (.ok ()) → record.primaryStatus = outcome.status) :
    Concluded (fun _ => false) h (respond c routeCfg outcome) fun h' _ => Decided c h' := by
  have hfail : outcome.status ≠ .ok → ∀ (code : ℤ) (detail : Str),
      Concluded (fun _ => false) h (failWith c.body.route code detail : Program ChatReply) fun h' _ =>
        Decided c h' := fun hst code detail => by
    have hcount : ∀ m : Metric, m.ofChat = true → Recording outcome.status (.count m) := by simp [Recording]
    refine (concluded_performs (performs_failWith hcount c.body.route detail code)).mono
      fun h' r _ ho record hd => Or.inl ?_
    rcases ho.new _ hd with hold | hnew
    · rw [hr record hold]
      exact hst
    · rw [hnew record rfl]
      exact hst
  rw [respond]
  split
  · rename_i hst
    exact hfail (by simp [hst]) _ _
  · rename_i hst
    split <;> exact hfail (by simp [hst]) _ _
  · refine (concludes_bind _ _).mpr (concluded_shadowGate_gated.mono fun h₁ r _ hgate => ?_)
    obtain ⟨gate, rfl, hgate⟩ := hgate
    have hdecided : ∀ h₂ : List Ev, h₁ <+: h₂ → Decided c h₂ := fun h₂ hh record _ => .inr <| by
      rcases hgate with ⟨rate, draw, hd, hle⟩ | ⟨status, hd⟩
      · exact .inl ⟨rate, draw, hd.mono hh, hle⟩
      · exact .inr ⟨status, hd.mono hh⟩
    refine (concludes_bind _ _).mpr ((concludes_orRaise _).mpr ?_)
    cases setHeaders c routeCfg with
    | error e => exact hdecided h₁ (List.prefix_refl _)
    | ok u => exact (concludes_bind _ _).mpr (concludes_sure rfl fun _ => hdecided _ (by simp))

lemma concluded_chat_decided (c : ChatCall) :
    Concluded (fun _ => false) [] (chat dep c) fun h _ => Decided c h := by
  unfold chat
  refine (concludes_bind _ _).mpr (concludes_sure rfl fun receivedAt => ?_)
  cases dep.config.route c.body.route with
  | none =>
    rintro record hd
    simp [Did] at hd
  | some routeCfg =>
    have hprimary := performs_runPrimary_unrecorded (c.primaryReq routeCfg) routeCfg.primary.timeoutS
    refine (concludes_bind _ _).mpr ((concluded_performs hprimary).mono fun h₁ r _ ho₁ => ?_)
    have hnone : ∀ record res, ¬ Did h₁ (.insertPending record) res := fun record res hd => by
      rcases ho₁.new _ hd with hold | hnew
      · simp at hold
      · exact hnew record rfl
    cases r with
    | error e => exact fun record hd => absurd hd (hnone record _)
    | ok outcome =>
      refine (concludes_bind _ _).mpr ((concluded_persistPending_recording hnone).mono fun h₂ r _ hr => ?_)
      cases r with
      | error e =>
        intro record hd
        cases (hr record hd).1
      | ok u => exact concluded_respond_gated fun record hd => (hr record hd).2

end Gate

section Fate

variable {dep : Deployment} {clock : DateTime} {L : List (ProxyLabel dep)} {w : ProxyWorld dep} {x n t t' : ℕ}
  {r : Str} {c : ChatCall} {record : PendingComparison}

lemma Run.gated (h : Run (start dep clock) L w) (hc : Label.crash x ∉ L)
    (hk : Label.spawn (S := system dep) n ⟨x, .chat c⟩ ∈ L) :
    (∃ p, w.threads n = some ⟨⟨x, .chat c⟩, p⟩) ∨ Decided c (history n L) := by
  rcases Run.live_or_ended h (fun _ => rfl) hk hc with hlive | ⟨-, q, hq, hd⟩
  · exact .inl hlive
  · have hsound : ∀ e ∈ history n L, Sound (fun _ => false) e := Run.sound h fun _ ho => nomatch ho
    have hchat : Concluded (fun _ => false) [] (taskProgram dep (.chat c)) fun h _ => Decided c h :=
      (concludes_bind _ _).mpr ((concluded_chat_decided c).mono fun h' r _ hg => by cases r <;> exact hg)
    obtain ⟨res, hg⟩ := hq.concluded hd hsound hchat
    exact .inr hg

def CandidateJob.same (job job' : CandidateJob) : Bool := job' = job

lemma Run.job_once (h : Run (start dep clock) L w) (hst : Started L n (.chat c)) (R : Finset ℕ) :
    L.countP (isTake R (CandidateJob.same ⟨c.requestId, n⟩)) +
      ∑ y ∈ R, waiting w.state (CandidateJob.same ⟨c.requestId, n⟩) y ≤ 1 := by
  obtain ⟨x, hk⟩ := hst
  have hmem : n ∈ chatsOf c.requestId L := mem_threadsOf.mpr ⟨_, hk, by simp [Kind.chatOf]⟩
  have haccepts : L.countP (isAccept (CandidateJob.same ⟨c.requestId, n⟩)) ≤ tally {n} (accepts c.requestId) L :=
    by
    refine List.countP_mono_left fun l _ hl => ?_
    unfold isAccept at hl
    split at hl
    · obtain ⟨rfl, rfl⟩ := CandidateJob.mk.inj (of_decide_eq_true hl)
      simp [isEventOf, accepts]
    · cases hl
  calc _ ≤ L.countP (isAccept (CandidateJob.same ⟨c.requestId, n⟩)) := Run.takes_le h
    _ ≤ tally {n} (accepts c.requestId) L := haccepts
    _ = (history n L).countP (accepts c.requestId) := by rw [tally_eq_sum, Finset.sum_singleton]
    _ ≤ 1 := accepts_le_one h hmem

lemma handlers_unique (h : Run (start dep clock) L w) (hst : Started L n (.chat c))
    (ht : Started L t (.handle ⟨c.requestId, n⟩)) (ht' : Started L t' (.handle ⟨c.requestId, n⟩)) : t = t' := by
  obtain ⟨y, hy⟩ := ht
  obtain ⟨y', hy'⟩ := ht'
  have hone := (Nat.le_add_right _ _).trans (Run.job_once h hst {y, y'})
  rw [List.countP_eq_length_filter] at hone
  have hm := List.mem_filter.mpr ⟨hy, show isTake {y, y'} (CandidateJob.same ⟨c.requestId, n⟩) _ =
    true by simp [isTake, CandidateJob.same]⟩
  have hm' := List.mem_filter.mpr ⟨hy', show isTake {y, y'} (CandidateJob.same ⟨c.requestId, n⟩) _ =
    true by simp [isTake, CandidateJob.same]⟩
  obtain ⟨l, hl⟩ := List.length_eq_one_iff.mp (hone.antisymm (List.length_pos_of_mem hm))
  rw [hl] at hm hm'
  have he := (List.mem_singleton.mp hm).trans (List.mem_singleton.mp hm').symm
  cases he
  rfl

lemma waiting_not_taken (h : Run (start dep clock) L w) (hst : Started L n (.chat c))
    (hw : (⟨c.requestId, n⟩ : CandidateJob) ∈ (w.state.procs x).queue) :
    ¬ Started L t (.handle ⟨c.requestId, n⟩) := by
  rintro ⟨y, hy⟩
  have hone := Run.job_once h hst {x, y}
  have htaken : 0 < L.countP (isTake {x, y} (CandidateJob.same ⟨c.requestId, n⟩)) :=
    List.countP_pos_iff.mpr ⟨_, hy, by simp [isTake, CandidateJob.same]⟩
  have hwaiting : 0 < waiting w.state (CandidateJob.same ⟨c.requestId, n⟩) x :=
    List.countP_pos_iff.mpr ⟨_, hw, by simp [CandidateJob.same]⟩
  have hsum := Finset.single_le_sum (f := waiting w.state (CandidateJob.same ⟨c.requestId, n⟩))
    (fun _ _ => Nat.zero_le _)
    (Finset.mem_insert_self x {y})
  omega

inductive Fate (clock : DateTime) (L : List (ProxyLabel dep)) (w : ProxyWorld dep) (x n : ℕ) (c : ChatCall)
    (record : PendingComparison) : Prop
  | serving {p : Program Unit} : w.threads n = some ⟨⟨x, .chat c⟩, p⟩ → Fate clock L w x n c record
  | failed : record.primaryStatus ≠ .ok → Fate clock L w x n c record
  | sampledOut {rate draw : ℚ} : Acted L n .sample (.ok (rate, draw)) → rate ≤ draw → Fate clock L w x n c record
  | refused : Acted L n (.enqueue c.requestId) (.ok .dropped) → Fate clock L w x n c record
  | evicted : Evicted clock L x ⟨c.requestId, n⟩ → Fate clock L w x n c record
  | waiting : (⟨c.requestId, n⟩ : CandidateJob) ∈ (w.state.procs x).queue →
      (∀ u, ¬ Started L u (.handle ⟨c.requestId, n⟩)) →
      Fate clock L w x n c record
  | handled {u : ℕ} : Label.spawn (S := system dep) u ⟨x, .handle ⟨c.requestId, n⟩⟩ ∈ L →
      (∀ u', Started L u' (.handle ⟨c.requestId, n⟩) → u' = u) →
      Fate clock L w x n c record

/-- In a process that does not crash no recorded request is lost: unless its job is refused or evicted by a full
queue, it is waiting there, or it has gone to one handler. -/
theorem no_request_lost (h : Run (start dep clock) L w) (hc : Label.crash x ∉ L)
    (hk : Label.spawn (S := system dep) n ⟨x, .chat c⟩ ∈ L) (hi : Acted L n (.insertPending record) (.ok ())) :
    Fate clock L w x n c record := by
  rcases Run.gated h hc hk with ⟨p, hp⟩ | hg
  · exact .serving hp
  rcases hg record (did_history.mpr hi) with hfailed | ⟨rate, draw, hd, hle⟩ | ⟨status, hd⟩
  · exact .failed hfailed
  · exact .sampledOut (did_history.mp hd) hle
  cases status with
  | dropped => exact .refused (did_history.mp hd)
  | enqueued =>
    rcases Run.accepted h hc hk (did_history.mp hd) with hw | ⟨t, ht⟩ | he
    · exact .waiting hw fun t => waiting_not_taken h ⟨x, hk⟩ hw
    · exact .handled ht fun t' ht' => handlers_unique h ⟨x, hk⟩ ht' ⟨x, ht⟩
    · exact .evicted he

def isInsertion : Ev → Bool
  | ⟨.insertPending _, .ok ()⟩ => true
  | _ => false

def queuedCall : List (DemoCommand none) :=
  boot 0 ++ begin 1 (.chat (demoChat "a" "hi")) ++ acts 11 1 (replies "nope")

theorem no_request_lost_queued :
    ∃ (L : List (ProxyLabel (demo none))) (w : ProxyWorld (demo none)) (x : ℕ) (c : ChatCall)
    (record : PendingComparison), Run (start (demo none) morning) L w ∧ Label.crash x ∉ L ∧
      Acted L 1 (.insertPending record) (.ok ()) ∧ Fate morning L w x 1 c record := by
  obtain ⟨L, w, h, hP⟩ := (driver (demo none)).exists_run (C := Calm) (c := calm) id
    (start (demo none) morning) queuedCall
    (fun L _ => L.any (spawned 1 (isChat "a")) && L.any (acted 1 isInsertion)) (by decide +kernel)
  obtain ⟨hst, hi⟩ := Bool.and_eq_true_iff.mp hP
  obtain ⟨c, ⟨x, hk⟩, -⟩ := started_chat.mp hst
  obtain ⟨e, he, hinsertion⟩ := any_acted.mp hi
  unfold isInsertion at hinsertion
  split at hinsertion
  · exact ⟨L, w, x, c, _, h.run, calm_crash h x, he, no_request_lost h.run (calm_crash h x) hk he⟩
  · cases hinsertion

end Fate

end ShadowProxy

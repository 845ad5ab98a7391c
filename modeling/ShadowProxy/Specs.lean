import ShadowProxy.System

/-! What each coroutine may do next, given what it has seen. -/

namespace ShadowProxy

open Effects Prog

def Did (h : List Ev) (o : Op) (r : Except Exn o.Ret) : Prop := (⟨o, r⟩ : Ev) ∈ h

lemma Did.mono {h h' : List Ev} {o : Op} {r : Except Exn o.Ret} (hd : Did h o r) (hh : h <+: h') : Did h' o r :=
  hh.subset hd

lemma did_last (h : List Ev) (o : Op) (r : Except Exn o.Ret) : Did (h ++ [⟨o, r⟩]) o r := by simp [Did]

lemma did_snoc {h : List Ev} {o o' : Op} {r : Except Exn o.Ret} {r' : Except Exn o'.Ret} :
    Did (h ++ [⟨o', r'⟩]) o r ↔ Did h o r ∨ (⟨o, r⟩ : Ev) = ⟨o', r'⟩ := by
  simp [Did]

structure Only (P : Op → Prop) (h h' : List Ev) : Prop where
  pre : h <+: h'
  new : ∀ e ∈ h', e ∈ h ∨ P e.op

section Only

variable {P Q : Op → Prop} {h₁ h₂ h₃ : List Ev}

lemma Only.refl (h : List Ev) : Only P h h := ⟨List.prefix_rfl, fun _ he => .inl he⟩

lemma Only.snoc (ho : Only P h₁ h₂) {e : Ev} (he : P e.op) : Only P h₁ (h₂ ++ [e]) where
  pre := ho.pre.trans (List.prefix_append _ _)
  new e' he' := by
    rcases List.mem_append.mp he' with hm | hm
    · exact ho.new e' hm
    · rw [List.mem_singleton.mp hm]
      exact .inr he

lemma Only.trans (h : Only P h₁ h₂) (h' : Only P h₂ h₃) : Only P h₁ h₃ where
  pre := h.pre.trans h'.pre
  new e he := by
    rcases h'.new e he with hm | hp
    · exact h.new e hm
    · exact .inr hp

lemma Only.mono (h : Only P h₁ h₂) (hPQ : ∀ o, P o → Q o) : Only Q h₁ h₂ where
  pre := h.pre
  new e he := (h.new e he).imp_right (hPQ e.op)

end Only

lemma obeys_forEach {α : Type} {J : List Ev → Op → Prop} {X : List Ev → Exn → Prop} {f : α → Program Unit}
    {xs : List α} {h : List Ev}
    (hf : ∀ x ∈ xs, ∀ h', h <+: h' → Obeys J h' (f x) (fun _ _ => True) fun _ _ => True)
    (hX : ∀ h e, X h e) : Obeys J h (forEach f xs) (fun l _ => h <+: l) X := by
  induction xs generalizing h with
  | nil => exact List.prefix_rfl
  | cons x xs ih =>
    refine (obeys_bind _ _).mpr ((hf x List.mem_cons_self h List.prefix_rfl).mono (fun l _ hl _ => ?_)
      fun l e _ _ => hX l e)
    refine (ih fun y hy h' hh => hf y (List.mem_cons_of_mem _ hy) h' (hl.trans hh)).mono
      (fun l' _ _ hl' => hl.trans hl') fun _ _ _ he => he

namespace Sweeper

def Spec (dep : Deployment) (h : List Ev) : Op → Prop
  | .findStale threshold limit => threshold = dep.config.store.staleThreshold ∧ limit = 1000
  | .now => True
  | .finalize requestId patch => ∃ ids now, Did h (.findStale dep.config.store.staleThreshold 1000) (.ok ids) ∧
      requestId ∈ ids ∧ patch = stalePatch now
  | _ => False

lemma issues_runOnce (dep : Deployment) : Issues (Spec dep) (taskProgram dep .sweep) := by
  simp only [Issues, taskProgram, runOnce, obeys_bind, obeys_perform, Spec, and_self, true_and]
  refine ⟨fun ids => ?_, fun _ => trivial⟩
  cases hn : List.isEmpty ids
  · simp only [Bool.false_eq_true, if_false, obeys_bind, obeys_perform, pure_eq, obeys_ret]
    refine ⟨trivial, fun now => ?_, fun _ => trivial⟩
    refine (obeys_forEach (fun id hid h' hh => ?_) fun _ _ => trivial).mono (fun _ _ _ _ => trivial)
      fun _ _ _ _ => trivial
    simp only [obeys_perform, and_true, implies_true]
    exact ⟨ids, now, Did.mono (by simp [Did]) hh, hid, rfl⟩
  · simp

end Sweeper

def startupSpec (h : List Ev) : Op → Prop
  | .findAllUnfinished _ => True
  | .enqueue requestId => ∃ limit ids, Did h (.findAllUnfinished limit) (.ok ids) ∧ requestId ∈ ids
  | .serve => True
  | _ => False

lemma issues_startup (dep : Deployment) : Issues startupSpec (taskProgram dep .startup) := by
  simp only [Issues, taskProgram, startup, requeueAllUnfinished, obeys_bind, obeys_perform, startupSpec, true_and]
  refine ⟨fun ids => ?_, fun _ => trivial⟩
  refine (obeys_forEach (fun id hid h' hh => ?_) fun _ _ => trivial).mono (fun l _ _ _ => ?_) fun _ _ _ _ =>
    trivial
  · simp only [obeys_bind, obeys_perform, and_true, implies_true, pure_eq, obeys_ret]
    exact ⟨_, ids, Did.mono (did_last _ _ _) hh, hid⟩
  · simp

structure Answered (h : List Ev) (req : ChatRequest) (timeoutS : PyFloat) (outcome : PrimaryOutcome) : Prop where
  ok : outcome.status = .ok → ∃ resp, Did h (.chatCompletions .primary req timeoutS) (.ok resp) ∧
    outcome.content = resp.content ∧ outcome.raw = some resp.raw
  failed : outcome.status ≠ .ok → outcome.raw = none

lemma Answered.mono {h h' : List Ev} {req : ChatRequest} {timeoutS : PyFloat} {outcome : PrimaryOutcome}
    (ha : Answered h req timeoutS outcome) (hh : h <+: h') : Answered h' req timeoutS outcome where
  ok hs := by
    obtain ⟨resp, hd, h₁, h₂⟩ := ha.ok hs
    exact ⟨resp, hd.mono hh, h₁, h₂⟩
  failed := ha.failed

section Chat

variable (dep : Deployment) (c : ChatCall)

def Routed (routeCfg : RouteConfig) : Prop := dep.config.route c.body.route = some routeCfg

def Outcome (h : List Ev) (routeCfg : RouteConfig) (outcome : PrimaryOutcome) : Prop :=
  Routed dep c routeCfg ∧ Answered h (c.primaryReq routeCfg) routeCfg.primary.timeoutS outcome

structure Archived (h : List Ev) (a : PersistArgs) (outcome : PrimaryOutcome) (key : Option Str) : Prop where
  put : ∀ k ∈ key, ∃ writtenAt, Did h (.rawPut a.requestId (archivePayload a outcome writtenAt)) (.ok k)
  res : ∀ id payload res, Did h (.rawPut id payload) res → key = res.toOption

def chatSpec (h : List Ev) : Op → Prop
  | .now | .perfCounter | .count _ => True
  | .chatCompletions client req timeoutS => client = .primary ∧ ∃ routeCfg, Routed dep c routeCfg ∧
      req = c.primaryReq routeCfg ∧ timeoutS = routeCfg.primary.timeoutS
  | .rawPut requestId payload => requestId = c.requestId ∧ (∀ e ∈ h, ∀ id p, e.op ≠ .rawPut id p) ∧
      dep.rawBackend ≠ none ∧ ∃ routeCfg receivedAt outcome writtenAt, Outcome dep c h routeCfg outcome ∧
        payload = archivePayload (c.persistArgs dep.requestHash receivedAt routeCfg) outcome writtenAt
  | .insertPending record => (∀ e ∈ h, ∀ r, e.op ≠ .insertPending r) ∧
      ∃ routeCfg receivedAt outcome key primaryAction, Outcome dep c h routeCfg outcome ∧
      Archived h (c.persistArgs dep.requestHash receivedAt routeCfg) outcome key ∧
      record = pendingRecord (c.persistArgs dep.requestHash receivedAt routeCfg) outcome key primaryAction
  | .sample => (∀ e ∈ h, e.op ≠ .sample) ∧ ∃ record res, Did h (.insertPending record) res
  | .enqueue requestId => requestId = c.requestId ∧ (∃ record res, Did h (.insertPending record) res) ∧
      (∃ gate, Did h .sample (.ok gate)) ∧ ∀ rate draw, Did h .sample (.ok (rate, draw)) → draw < rate
  | _ => False

structure Served (h : List Ev) (reply : ChatReply) (routeCfg : RouteConfig) (receivedAt : DateTime)
    (outcome : PrimaryOutcome) (key primaryAction : Option Str) : Prop where
  requestId : reply.requestId = c.requestId
  answered : Outcome dep c h routeCfg outcome
  ok : outcome.status = .ok
  response : reply.response = (outcome.raw.getD .null).orElse (.obj [])
  archived : Archived h (c.persistArgs dep.requestHash receivedAt routeCfg) outcome key
  inserted : ∃ res, Did h (.insertPending
    (pendingRecord (c.persistArgs dep.requestHash receivedAt routeCfg) outcome key primaryAction)) res ∧
      (dep.config.store.onFailure = .failClosed → res = .ok ())

end Chat

section ChatRules

variable {J : List Ev → Op → Prop} {X : List Ev → Exn → Prop} {h : List Ev}

lemma obeys_runPrimary {req : ChatRequest} {timeoutS : PyFloat} (hX : ∀ h e, X h e)
    (hp : ∀ h, J h .perfCounter) (hc : ∀ h, J h (.chatCompletions .primary req timeoutS)) :
    Obeys J h (runPrimary req timeoutS) (fun h' outcome =>
      Only (fun o => o = .perfCounter ∨ o = .chatCompletions .primary req timeoutS) h h' ∧
        Answered h' req timeoutS outcome) X := by
  simp only [runPrimary, elapsedMs, obeys_bind, obeys_perform, obeys_attempt, hp, hc, hX, true_and, implies_true,
    and_true, pure_eq, obeys_ret]
  have ho : ∀ start r a, Only (fun o => o = .perfCounter ∨ o = .chatCompletions .primary req timeoutS) h
      (h ++ [⟨.perfCounter, .ok start⟩] ++ [⟨.chatCompletions .primary req timeoutS, r⟩] ++
        [⟨.perfCounter, .ok a⟩]) := fun start r a =>
    (((Only.refl h).snoc (.inl rfl)).snoc (.inr rfl)).snoc (.inl rfl)
  refine fun start => ⟨fun resp a => ⟨ho _ _ _, fun _ => ⟨resp, by simp [Did], rfl, rfl⟩, fun hn => absurd rfl hn⟩,
    fun e => ?_⟩
  cases e <;> simp only [obeys_bind, obeys_perform, obeys_raise, obeys_ret, hp, hX, implies_true,
    and_true, true_and]
  all_goals exact fun a => ⟨ho _ _ _, by simp, by simp⟩

lemma obeys_archive {dep : Deployment} {a : PersistArgs} {outcome : PrimaryOutcome} (hn : ∀ h, J h .now)
    (hno : ∀ e ∈ h, ∀ id p, e.op ≠ .rawPut id p)
    (hp : dep.rawBackend ≠ none → ∀ t now,
      J (h ++ [⟨.now, .ok t⟩]) (.rawPut a.requestId (archivePayload a outcome now))) :
    Obeys J h (archive dep a outcome)
      (fun h' key => Only (fun o => o = .now ∨ ∃ p, o = .rawPut a.requestId p) h h' ∧ Archived h' a outcome key)
      X := by
  have hold : ∀ id p res, ¬ Did h (.rawPut id p) res := fun id p res hd => hno _ hd id p rfl
  rw [archive]
  cases hb : dep.rawBackend with
  | none => exact ⟨Only.refl h, by simp, fun id p res hd => (hold _ _ _ hd).elim⟩
  | some backend =>
    have ho : ∀ r, Only (fun o => o = .now ∨ ∃ p, o = .rawPut a.requestId p) h (h ++ [⟨.now, r⟩]) := fun r =>
      (Only.refl h).snoc (.inl rfl)
    simp only [obeys_bind, obeys_attempt, obeys_perform, pure_eq, obeys_ret, hn, true_and]
    refine ⟨fun now =>
      ⟨hp (by simp [hb]) now now, fun key => ⟨(ho _).snoc (.inr ⟨_, rfl⟩), fun k hk => ⟨now, ?_⟩, ?_⟩,
      fun e => ⟨(ho _).snoc (.inr ⟨_, rfl⟩), by simp [Except.toOption], ?_⟩⟩,
      fun e => ⟨ho _, by simp [Except.toOption], ?_⟩⟩
    · simp only [Except.toOption, Option.mem_def, Option.some.injEq] at hk
      simp [Did, hk]
    all_goals
      intro id p res hd
      simp only [Did, List.mem_append, List.mem_singleton, Event.mk.injEq, reduceCtorEq, false_and, or_false] at hd
    · rcases hd with hd | ⟨ho, hr⟩
      · exact (hold _ _ _ hd).elim
      · cases ho
        rw [eq_of_heq hr]
    · rcases hd with hd | ⟨ho, hr⟩
      · exact (hold _ _ _ hd).elim
      · cases ho
        rw [eq_of_heq hr]
    · exact (hold _ _ _ hd).elim

lemma obeys_insertRecord {dep : Deployment} {record : PendingComparison} (hX : ∀ h e, X h e)
    (hi : J h (.insertPending record)) : Obeys J h (insertRecord dep record)
      (fun h' _ => ∃ res, h' = h ++ [⟨.insertPending record, res⟩] ∧
        (dep.config.store.onFailure = .failClosed → res = .ok ())) X := by
  simp only [insertRecord, obeys_bind, obeys_attempt, obeys_perform]
  refine ⟨hi, fun _ => ⟨_, rfl, fun _ => rfl⟩, fun e => ?_⟩
  split
  · exact hX _ _
  · rename_i hf
    exact ⟨_, rfl, fun hc => absurd hc hf⟩

lemma obeys_persistPending {dep : Deployment} {a : PersistArgs} {outcome : PrimaryOutcome} (hX : ∀ h e, X h e)
    (hn : ∀ h, J h .now) (hno : ∀ e ∈ h, ∀ id p, e.op ≠ .rawPut id p)
    (hp : dep.rawBackend ≠ none → ∀ t now,
      J (h ++ [⟨.now, .ok t⟩]) (.rawPut a.requestId (archivePayload a outcome now)))
    (hi : ∀ h' key primaryAction, Only (fun o => ∀ r, o ≠ .insertPending r) h h' → Archived h' a outcome key →
        J h' (.insertPending (pendingRecord a outcome key primaryAction))) :
    Obeys J h (persistPending dep a outcome) (fun h' _ => Only (fun o => o ≠ .sample) h h' ∧
      ∃ key primaryAction, Archived h' a outcome key ∧
        ∃ res, Did h' (.insertPending (pendingRecord a outcome key primaryAction)) res ∧
          (dep.config.store.onFailure = .failClosed → res = .ok ())) X := by
  simp only [persistPending, obeys_bind]
  refine (obeys_archive hn hno hp).mono (fun h' key _ hk => ?_) fun _ _ _ he => he
  have ho : Only (fun o => o ≠ .sample) h h' := hk.1.mono (by rintro o (rfl | ⟨p, rfl⟩) <;> simp)
  have hnew : Only (fun o => ∀ r, o ≠ .insertPending r) h h' := hk.1.mono (by rintro o (rfl | ⟨p, rfl⟩) <;> simp)
  have hins : ∀ primaryAction, Obeys J h' (insertRecord dep (pendingRecord a outcome key primaryAction))
      (fun h' _ => Only (fun o => o ≠ .sample) h h' ∧ ∃ key primaryAction, Archived h' a outcome key ∧
        ∃ res, Did h' (.insertPending (pendingRecord a outcome key primaryAction)) res ∧
          (dep.config.store.onFailure = .failClosed → res = .ok ())) X := fun primaryAction =>
    (obeys_insertRecord hX (hi h' key primaryAction hnew hk.2)).mono (fun l _ _ hl => by
      obtain ⟨res, rfl, hf⟩ := hl
      refine ⟨ho.snoc (by simp), key, primaryAction, ⟨fun k hkk => ?_, fun id p r hd => ?_⟩, res,
        did_last _ _ _, hf⟩
      · obtain ⟨now, hd⟩ := hk.2.put k hkk
        exact ⟨now, hd.mono (List.prefix_append _ _)⟩
      · exact hk.2.res id p r (by simpa [Did] using hd)) fun _ _ _ he => he
  split
  · simp only [obeys_bind, obeys_orRaise, hX, implies_true, and_true]
    exact fun primaryAction _ => hins primaryAction
  · exact hins none

lemma obeys_shadowGate {requestId : Str} (hX : ∀ h e, X h e) (hc : ∀ h m, J h (.count m)) (hs : J h .sample)
    (he : ∀ rate draw, draw < rate → J (h ++ [⟨.sample, .ok (rate, draw)⟩]) (.enqueue requestId)) :
    Obeys J h (shadowGate requestId)
      (fun h' _ => Only (fun o => o = .sample ∨ o = .enqueue requestId ∨ ∃ m, o = .count m) h h') X := by
  have ho : ∀ r, Only (fun o => o = .sample ∨ o = .enqueue requestId ∨ ∃ m, o = .count m) h
      (h ++ [⟨.sample, r⟩]) := fun r => (Only.refl h).snoc (.inl rfl)
  simp only [shadowGate, obeys_bind, obeys_perform, hs, hX, true_and, implies_true, and_true]
  rintro ⟨rate, draw⟩
  by_cases hd : draw < rate
  · simp only [hd, decide_true, if_true, obeys_bind, obeys_perform, he rate draw hd, hX, implies_true, and_true,
      true_and, pure_eq, obeys_ret, hc]
    intro dispatch a b
    have hoe := (ho (.ok (rate, draw))).snoc (e := ⟨.enqueue requestId, .ok dispatch⟩) (.inr (.inl rfl))
    have hot := (hoe.snoc (e := ⟨.count (.business .requestsTotal), .ok a⟩) (.inr (.inr ⟨_, rfl⟩))).snoc
      (e := ⟨.count (.business .requestsSuccess), .ok b⟩) (.inr (.inr ⟨_, rfl⟩))
    cases hq : DispatchStatus.isEnqueued dispatch
    · simpa only [Bool.false_eq_true, if_false, Bool.not_true, obeys_ret] using hot
    · simp only [if_true, obeys_bind, obeys_perform, hc, hX, implies_true, and_true, true_and, obeys_ret]
      exact fun _ => hot.snoc (.inr (.inr ⟨_, rfl⟩))
  · simp only [hd, decide_false, Bool.false_eq_true, if_false, Bool.not_false, if_true, obeys_bind, obeys_perform,
      hX, implies_true, and_true, true_and, pure_eq, obeys_ret, hc]
    exact fun _ _ _ => (((ho _).snoc (.inr (.inr ⟨_, rfl⟩))).snoc (.inr (.inr ⟨_, rfl⟩))).snoc
      (.inr (.inr ⟨_, rfl⟩))

lemma obeys_failWith {α : Type} {Q : List Ev → α → Prop} (hX : ∀ h e, X h e) (hc : ∀ h m, J h (.count m))
    (route : Str) (code : ℤ) (detail : Str) : Obeys J h (failWith route code detail : Program α) Q X := by
  simp only [failWith, obeys_bind, obeys_perform, obeys_raise, hX, hc, implies_true, and_self]

end ChatRules

lemma Archived.mono {h h' : List Ev} {a : PersistArgs} {outcome : PrimaryOutcome} {key : Option Str}
    (ha : Archived h a outcome key) (ho : Only (fun o => ∀ id p, o ≠ .rawPut id p) h h') :
    Archived h' a outcome key where
  put k hk := by
    obtain ⟨now, hd⟩ := ha.put k hk
    exact ⟨now, hd.mono ho.pre⟩
  res id p r hd := by
    rcases ho.new _ hd with hm | hp
    · exact ha.res id p r hm
    · exact absurd rfl (hp id p)

lemma obeys_chat (dep : Deployment) (c : ChatCall) : Obeys (chatSpec dep c) [] (chat dep c)
    (fun h reply => ∃ routeCfg receivedAt outcome key primaryAction,
      Served dep c h reply routeCfg receivedAt outcome key primaryAction) fun _ _ => True := by
  have hX : ∀ (h : List Ev) (e : Exn), True := fun _ _ => trivial
  have hc : ∀ h m, chatSpec dep c h (.count m) := fun _ _ => trivial
  simp only [chat, obeys_bind, obeys_perform, implies_true, and_true]
  refine ⟨trivial, fun receivedAt => ?_⟩
  cases hr : dep.config.route c.body.route with
  | none => simp
  | some routeCfg =>
    simp only [obeys_bind]
    refine (obeys_runPrimary hX (fun _ => trivial) fun _ => ⟨rfl, routeCfg, hr, rfl, rfl⟩).mono
      (fun h₁ outcome _ h₁o => ?_) fun _ _ _ _ => trivial
    have hout : ∀ h', h₁ <+: h' → Outcome dep c h' routeCfg outcome := fun h' hh => ⟨hr, h₁o.2.mono hh⟩
    have hops : ∀ e ∈ h₁, (∀ id p, e.op ≠ .rawPut id p) ∧ (∀ r, e.op ≠ .insertPending r) ∧ e.op ≠ .sample :=
      fun e he => by
      rcases h₁o.1.new e he with hm | hm | hm
      · simp only [List.nil_append, List.mem_singleton] at hm
        simp [hm]
      · simp [hm]
      · simp [hm]
    have hput : dep.rawBackend ≠ none → ∀ t now, chatSpec dep c (h₁ ++ [⟨.now, .ok t⟩]) (.rawPut c.requestId
        (archivePayload (c.persistArgs dep.requestHash receivedAt routeCfg) outcome now)) := fun hb t now => by
      refine ⟨rfl, fun e he => ?_, hb, routeCfg, receivedAt, outcome, now, hout _ (List.prefix_append _ _), rfl⟩
      rcases List.mem_append.mp he with hm | hm
      · exact (hops e hm).1
      · simp [List.mem_singleton.mp hm]
    refine (obeys_persistPending hX (fun _ => trivial) (fun e he => (hops e he).1) hput fun h' key action hh hk =>
      ⟨fun e he => (hh.new e he).elim (fun hm => (hops e hm).2.1) id, routeCfg, receivedAt, outcome, key, action,
        hout h' hh.pre, hk, rfl⟩).mono (fun h₂ _ _ h₂i => ?_)
        fun _ _ _ _ => trivial
    obtain ⟨ho₂, key, action, harch, res, hins, hfc⟩ := h₂i
    rw [respond]
    cases hs : outcome.status with
    | timeout => exact obeys_failWith hX hc _ _ _
    | error =>
      dsimp only
      split <;> exact obeys_failWith hX hc _ _ _
    | ok =>
      simp only [obeys_bind]
      have hu : ∀ e ∈ h₂, e.op ≠ .sample := fun e he => by
        rcases ho₂.new e he with hm | hm
        · exact (hops e hm).2.2
        · exact hm
      refine (obeys_shadowGate hX hc ⟨hu, _, res, hins⟩ fun rate draw hd => ?_).mono (fun h₃ _ _ ho₃ => ?_)
        fun _ _ _ _ => trivial
      · refine ⟨rfl, ⟨_, res, hins.mono (List.prefix_append _ _)⟩, ⟨_, did_last _ _ _⟩, fun rate' draw' hd' => ?_⟩
        rcases List.mem_append.mp hd' with hm | hm
        · exact absurd rfl (hu _ hm)
        · simp only [List.mem_singleton, Event.mk.injEq, heq_eq_eq, Except.ok.injEq, Prod.mk.injEq, true_and] at hm
          obtain ⟨rfl, rfl⟩ := hm
          exact hd
      · simp only [obeys_orRaise, obeys_perform, hc, implies_true, and_true, true_and, pure_eq, obeys_ret]
        intro _ _ a
        have ho : Only (fun o => ∀ id p, o ≠ .rawPut id p) h₂ (h₃ ++ [⟨.count (.requestsTotal c.body.route
            (statusText 200)), .ok a⟩]) := by
          refine (ho₃.mono ?_).snoc (by simp)
          rintro o (rfl | rfl | ⟨m, rfl⟩) <;> simp
        exact ⟨routeCfg, receivedAt, outcome, key, action, rfl, hout _ (ho₂.pre.trans ho.pre), hs, rfl,
          harch.mono ho, res, hins.mono ho.pre, hfc⟩

lemma issues_chat (dep : Deployment) (c : ChatCall) : Issues (chatSpec dep c) (taskProgram dep (.chat c)) :=
  (obeys_bind _ _).mpr ((obeys_chat dep c).mono (fun _ _ _ _ => trivial) fun _ _ _ _ => trivial)

end ShadowProxy

import ShadowProxy.Effects.Counting
import ShadowProxy.Runs

/-! Which counters each coroutine counts in. -/

namespace ShadowProxy

open Effects Prog

def Op.infallible : Op → Bool
  | .now | .perfCounter | .sample | .enqueue _ | .count _ | .offer _ | .serve => true
  | _ => false

def Sound (P : Op → Bool) (e : Ev) : Prop := (e.op.infallible || P e.op) = true → ∃ a, e.res = .ok a

lemma legal_infallible {dep : Deployment} {k : Kind} {s : State} {o : Op} {r : Except Exn o.Ret}
    (hl : legal dep k s o r) (ho : o.infallible = true) : ∃ a, r = .ok a := by
  cases r with
  | ok a => exact ⟨a, rfl⟩
  | error e => cases o <;> first | exact hl.elim | cases ho

lemma Run.sound {dep : Deployment} {clock : DateTime} {L : List (ProxyLabel dep)} {w : ProxyWorld dep} {t : ℕ}
    (h : Run (start dep clock) L w) {P : Op → Bool}
    (hP : ∀ o, P o = true → ∀ r, Acted L t o r → ∃ a, r = .ok a) :
    ∀ e ∈ history t L, Sound P e := by
  rintro ⟨o, r⟩ he ho
  have ha : Acted L t o r := (mem_history (S := system dep)).mp he
  rcases Bool.or_eq_true_iff.mp ho with hi | hp
  · obtain ⟨L₁, L₂, w₁, w₂, rfl, h₁, hs⟩ := Run.split h ha
    cases hs with
    | act _ hl => exact legal_infallible hl hi
  · exact hP o hp r ha

section Sound

variable {P : Op → Bool} {h : List Ev} {o : Op}

lemma concludes_perform {Q : List Ev → Except Exn o.Ret → Prop}
    (hQ : ∀ r, Sound P ⟨o, r⟩ → Q (h ++ [⟨o, r⟩]) r) : @Concludes proxy _ (Sound P) h (perform o) Q :=
  (Effects.concludes_perform (I := proxy) o).mpr hQ

lemma concludes_sure (ho : (o.infallible || P o) = true) {Q : List Ev → Except Exn o.Ret → Prop}
    (hQ : ∀ a, Q (h ++ [⟨o, .ok a⟩]) (.ok a)) : @Concludes proxy _ (Sound P) h (perform o) Q := by
  refine concludes_perform fun r hr => ?_
  obtain ⟨a, ha⟩ := hr ho
  exact (show r = .ok a from ha) ▸ hQ a

abbrev Concluded {α : Type} (P : Op → Bool) (h : List Ev) (p : Program α) (Q : List Ev → Except Exn α → Prop) :
    Prop :=
  @Concludes proxy _ (Sound P) h p Q

end Sound

def noted (f : Op → Bool) (h : List Ev) : List Ev := h.filter fun e => f e.op

section Noted

variable {f : Op → Bool}

@[simp] lemma noted_append (h h' : List Ev) : noted f (h ++ h') = noted f h ++ noted f h' := List.filter_append ..

@[simp] lemma noted_nil : noted f [] = [] := rfl

@[simp] lemma noted_cons (e : Ev) (h : List Ev) :
    noted f (e :: h) = if f e.op then e :: noted f h else noted f h :=
  List.filter_cons

lemma countP_noted {P : Ev → Bool} (hP : ∀ e, P e = true → f e.op = true) (h : List Ev) :
    h.countP P = (noted f h).countP P := by
  rw [noted, List.countP_filter]
  refine List.countP_congr fun e _ => ?_
  simpa using hP e

lemma concluded_unnoted {α : Type} {P : Op → Bool} {p : Program α} {h : List Ev}
    (hp : Performs (fun o => f o = false) p) : Concluded P h p fun h' _ => noted f h' = noted f h := by
  induction p generalizing h with
  | ret a => rfl
  | raise e => rfl
  | op o g ih =>
    refine fun r _ => (ih r (hp.2 r)).mono fun h' r' _ hn => ?_
    simpa [hp.1] using hn

end Noted

def counted (m : Metric) : Ev → Bool
  | ⟨.count m', .ok ()⟩ => m' = m
  | _ => false

lemma counted_op {m : Metric} {e : Ev} (he : counted m e = true) : e.op = .count m := by
  unfold counted at he
  split at he
  · exact congrArg Op.count (of_decide_eq_true he)
  · cases he

lemma obeys_performs {α : Type} {J : List Ev → Op → Prop} {P : Op → Prop} {p : Program α} {h : List Ev}
    (hp : Performs P p) (hJ : ∀ h o, P o → J h o) : Obeys J h p (fun h' _ => Only P h h') fun _ _ => True := by
  induction p generalizing h with
  | ret a => exact Only.refl h
  | raise e => trivial
  | op o g ih =>
    refine ⟨hJ h o hp.1, fun r => (ih r (hp.2 r)).mono (fun h' a _ ho => ?_) fun _ _ _ _ => trivial⟩
    exact ((Only.refl h).snoc hp.1).trans ho

def Metric.ofChat : Metric → Bool
  | .business .requestsTotal | .business .requestsSuccess | .business .requestsError => true
  | .business .shadowEnqueued | .business .shadowSampledOut => true
  | .requestsTotal _ _ => true
  | _ => false

def Op.ofChat : Op → Bool
  | .chatCompletions .primary _ _ => true
  | .count m => m.ofChat
  | _ => false

def Op.ofHandler : Op → Bool
  | .chatCompletions .candidate _ _ => true
  | .count m => !m.ofChat
  | _ => false

lemma performs_forEach {α : Type} {P : Op → Prop} {f : α → Program Unit} (hf : ∀ x, Performs P (f x))
    (xs : List α) : Performs P (forEach f xs) := by
  induction xs with
  | nil => trivial
  | cons x xs ih => exact (hf x).bind fun _ => ih

section Chat

variable {dep : Deployment}

abbrev ByChat {α : Type} (p : Program α) : Prop := Performs (I := proxy) (fun o => o.ofHandler = false) p

lemma byChat_perform {o : Op} (ho : o.ofHandler = false) :
    @Performs proxy _ (fun o => o.ofHandler = false) (perform o) :=
  performs_perform (I := proxy) ho

lemma byChat_elapsedMs (start : ℚ) : ByChat (elapsedMs start) := .bind (byChat_perform rfl) fun _ => trivial

lemma byChat_runPrimary (req : ChatRequest) (timeoutS : PyFloat) : ByChat (runPrimary req timeoutS) := by
  refine .bind (byChat_perform rfl) fun start => .bind (byChat_perform rfl).attempt fun res => ?_
  cases res with
  | ok resp => exact .bind (byChat_elapsedMs start) fun _ => trivial
  | error e =>
    cases e
    case llmTimeout | llmCall => exact .bind (byChat_elapsedMs start) fun _ => trivial
    all_goals trivial

section Persist

variable {P : Op → Prop} {a : PersistArgs}

lemma performs_archive (hn : P .now) (hput : ∀ payload, P (.rawPut a.requestId payload))
    (outcome : PrimaryOutcome) : @Performs proxy _ P (archive dep a outcome) := by
  rw [archive]
  cases dep.rawBackend with
  | none => trivial
  | some backend =>
    have hwrite : @Performs proxy _ P (do
        let writtenAt ← perform .now
        perform (.rawPut a.requestId (archivePayload a outcome writtenAt))) :=
      .bind (performs_perform (I := proxy) hn) fun _ => performs_perform (I := proxy) (hput _)
    exact .bind hwrite.attempt fun _ => trivial

lemma performs_insertRecord {record : PendingComparison} (hi : P (.insertPending record)) :
    @Performs proxy _ P (insertRecord dep record) := by
  refine .bind (performs_perform (I := proxy) hi).attempt fun res => ?_
  cases res with
  | ok u => trivial
  | error e =>
    dsimp only
    split <;> trivial

lemma performs_persistPending (hn : P .now) (hput : ∀ payload, P (.rawPut a.requestId payload))
    (hi : ∀ record, P (.insertPending record)) (outcome : PrimaryOutcome) :
    @Performs proxy _ P (persistPending dep a outcome) := by
  refine .bind (performs_archive hn hput outcome) fun key => ?_
  split
  · exact .bind (performs_orRaise _) fun action => performs_insertRecord (hi _)
  · exact performs_insertRecord (hi _)

end Persist

section Respond

variable {P : Op → Prop} (hc : ∀ m, m.ofChat = true → P (.count m))

include hc

lemma performs_failWith {α : Type} (route detail : Str) (code : ℤ) :
    @Performs proxy _ P (failWith route code detail : Program α) :=
  .bind (performs_perform (I := proxy) (hc _ rfl)) fun _ => trivial

lemma performs_shadowGate {requestId : Str} (hs : P .sample) (he : P (.enqueue requestId)) :
    @Performs proxy _ P (shadowGate requestId) := by
  have hcount : ∀ m : Metric, m.ofChat = true → @Performs proxy _ P (perform (.count m)) := fun m hm =>
    performs_perform (I := proxy) (hc m hm)
  refine .bind (performs_perform (I := proxy) hs) fun gate => ?_
  obtain ⟨rate, draw⟩ := gate
  have htail : ∀ sampledIn enqueued : Bool, @Performs proxy _ P (do
      perform (.count (.business .requestsTotal))
      perform (.count (.business .requestsSuccess))
      if enqueued then perform (.count (.business .shadowEnqueued))
      else if !sampledIn then perform (.count (.business .shadowSampledOut))
      return (sampledIn, enqueued, rate)) := fun sampledIn enqueued => by
    refine .bind (hcount _ rfl) fun _ => .bind (hcount _ rfl) fun _ => ?_
    split
    · exact .bind (hcount _ rfl) fun _ => trivial
    · split
      · exact .bind (hcount _ rfl) fun _ => trivial
      · trivial
  dsimp only
  split
  · exact .bind (performs_perform (I := proxy) he) fun dispatch => htail _ _
  · exact htail _ _

lemma performs_respond {c : ChatCall} (hs : P .sample) (he : P (.enqueue c.requestId)) (routeCfg : RouteConfig)
    (outcome : PrimaryOutcome) : @Performs proxy _ P (respond c routeCfg outcome) := by
  rw [respond]
  split
  · exact performs_failWith hc ..
  · split <;> exact performs_failWith hc ..
  · refine .bind (performs_shadowGate hc hs he) fun gate => .bind (performs_orRaise _) fun _ => ?_
    exact .bind (performs_perform (I := proxy) (hc _ rfl)) fun _ => trivial

end Respond

lemma performs_chat (dep : Deployment) (c : ChatCall) : ByChat (taskProgram dep (.chat c)) := by
  refine Performs.bind (.bind (byChat_perform rfl) fun receivedAt => ?_) fun _ => trivial
  split
  · trivial
  · refine .bind (byChat_runPrimary _ _) fun outcome => ?_
    refine .bind (performs_persistPending (P := fun o => Op.ofHandler o = false) rfl (fun _ => rfl) (fun _ => rfl)
      _) fun _ => ?_
    exact performs_respond (P := fun o => Op.ofHandler o = false) (fun m hm => by simp [Op.ofHandler, hm]) rfl
      rfl ..

end Chat

section Handler

open CandidateHandler

variable {dep : Deployment}

abbrev ByHandler {α : Type} (p : Program α) : Prop := Performs (I := proxy) (fun o => o.ofChat = false) p

lemma verdictCounter_ofChat {v : Verdict} {key : Counter} (hk : verdictCounter v = some key) :
    (Metric.business key).ofChat = false := by
  cases v <;> cases hk <;> rfl

structure Completes (P : Op → Prop) : Prop where
  now : P .now
  perfCounter : P .perfCounter
  count : ∀ m : Metric, m.ofChat = false → P (.count m)
  rawGet : ∀ key, P (.rawGet key)
  rawPut : ∀ id payload, P (.rawPut id payload)
  offer : ∀ row, P (.offer row)

section Completes

variable {P : Op → Prop}

lemma performs_loadRequestBody (hP : ∀ key, P (.rawGet key)) (key : Option Str) :
    @Performs proxy _ P (loadRequestBody dep key) := by
  unfold loadRequestBody
  split
  · refine .bind (performs_perform (I := proxy) (hP _)).attempt fun res => ?_
    cases res <;> trivial
  · trivial

lemma performs_mergeCandidateIntoRaw (hget : ∀ key, P (.rawGet key)) (hput : ∀ id payload, P (.rawPut id payload))
    (key : Option Str) (resp : Json) : @Performs proxy _ P (mergeCandidateIntoRaw dep key resp) := by
  unfold mergeCandidateIntoRaw
  split
  · refine .bind (performs_perform (I := proxy) (hget _)).attempt fun res => ?_
    cases res with
    | error e => trivial
    | ok payload =>
      refine .bind (performs_orRaise _) fun doc => .bind (performs_perform (I := proxy) (hput _ doc)).attempt
        fun _ => ?_
      trivial
  · trivial

lemma performs_tape (hnow : P .now) (hoffer : ∀ row, P (.offer row)) (requestId : Str) (record : ComparisonRow)
    (body : Json) (text : Str) (resp : ChatResponse) (result : EvaluationResult) (latencyMs : ℤ) :
    @Performs proxy _ P (do
      if result.verdict = .mismatch ∨ result.verdict = .invalidJson then
        let now ← perform .now
        let request ← orRaise (body.get "request" (.obj []))
        perform (.offer (tapeRow dep requestId record request text resp result latencyMs now))) := by
  split
  · refine .bind (performs_perform (I := proxy) hnow) fun now => .bind (performs_orRaise _) fun request => ?_
    exact performs_perform (I := proxy) (hoffer _)
  · trivial

variable (hP : Completes P)

include hP

lemma performs_elapsedMs (start : ℚ) : @Performs proxy _ P (elapsedMs start) :=
  .bind (performs_perform (I := proxy) hP.perfCounter) fun _ => trivial

lemma performs_finalizeError {requestId : Str}
    (hf : ∀ patch, patch.candidateStatus = .error → P (.finalize requestId patch)) (error label : Str)
    (start : ℚ) : @Performs proxy _ P (finalizeError requestId error start label) := by
  have hcount : ∀ m : Metric, m.ofChat = false → @Performs proxy _ P (perform (.count m)) := fun m hm =>
    performs_perform (I := proxy) (hP.count m hm)
  have htail : ∀ latencyMs, @Performs proxy _ P (do
      perform (.count (.verdictsTotal routeName .candidateError))
      let now ← perform .now
      perform (.finalize requestId (errorPatch error label latencyMs now))) := fun latencyMs =>
    .bind (hcount _ rfl) fun _ => .bind (performs_perform (I := proxy) hP.now) fun _ =>
      performs_perform (I := proxy) (hf _ rfl)
  refine .bind (performs_elapsedMs hP start) fun latencyMs => .bind (hcount _ rfl) fun _ => ?_
  split
  · exact .bind (hcount _ rfl) fun _ => htail latencyMs
  · exact htail latencyMs

lemma performs_evaluateReply {requestId : Str}
    (hf : ∀ patch, patch.candidateStatus = .ok → P (.finalize requestId patch)) (record : ComparisonRow)
    (body : Json) (start : ℚ) (resp : ChatResponse) :
    @Performs proxy _ P (evaluateReply dep requestId record body start resp) := by
  refine .bind (performs_elapsedMs hP start) fun latencyMs => .bind (performs_orRaise _) fun text => ?_
  refine .bind (performs_orRaise _) fun result => .bind (performs_mergeCandidateIntoRaw hP.rawGet hP.rawPut _ _)
    fun _ => ?_
  refine .bind (performs_perform (I := proxy) hP.now) fun now => .bind (performs_perform (I := proxy) (hf _ rfl))
    fun _ => ?_
  have htape := @performs_tape dep P hP.now hP.offer requestId record body text resp result latencyMs
  refine .bind (performs_perform (I := proxy) (hP.count _ rfl)) fun _ => ?_
  cases hkey : verdictCounter result.verdict with
  | some key => exact .bind (performs_perform (I := proxy) (hP.count _ (verdictCounter_ofChat hkey))) fun _ =>
    htape
  | none => exact htape

end Completes

lemma completes_ofChat : Completes fun o => o.ofChat = false :=
  ⟨rfl, rfl, fun _ hm => hm, fun _ => rfl, fun _ _ => rfl, fun _ => rfl⟩

lemma byHandler_perform {o : Op} (ho : o.ofChat = false) :
    @Performs proxy _ (fun o => o.ofChat = false) (perform o) :=
  performs_perform (I := proxy) ho

lemma byHandler_shadow (requestId : Str) (record : ComparisonRow) : ByHandler (shadow dep requestId record) := by
  refine .bind (performs_loadRequestBody (fun _ => rfl) _) fun body => .bind (performs_orRaise _) fun req => ?_
  refine .bind (byHandler_perform rfl) fun start => .bind (byHandler_perform rfl).attempt fun res => ?_
  cases res with
  | ok resp => exact performs_evaluateReply completes_ofChat (fun _ _ => rfl) ..
  | error e =>
    cases e
    case llmTimeout | llmCall => exact performs_finalizeError completes_ofChat (fun _ _ => rfl) ..
    all_goals trivial

def Op.prepares : Op → Bool
  | .now | .perfCounter | .markInProgress _ | .rawGet _ => true
  | _ => false

lemma issues_handle {J : List Ev → Op → Prop} {job : CandidateJob} (hJ : ∀ h o, Op.prepares o = true → J h o)
    (hget : J [] (.get job.requestId)) (hdropped : ∀ h now, J h (.finalize job.requestId (droppedPatch now)))
    (hcall : ∀ h req timeoutS, (∀ e ∈ h, e.op = .get job.requestId ∨ Op.prepares e.op = true) →
      J h (.chatCompletions .candidate req timeoutS))
    (hreply : ∀ h req timeoutS record body start resp,
      Obeys J (h ++ [⟨.chatCompletions .candidate req timeoutS, .ok resp⟩])
      (evaluateReply dep job.requestId record body start resp) (fun _ _ => True) fun _ _ => True)
    (hfailed : ∀ h req timeoutS e error start label,
      Obeys J (h ++ [⟨.chatCompletions .candidate req timeoutS, .error e⟩])
      (finalizeError job.requestId error start label) (fun _ _ => True) fun _ _ => True) :
    Issues J (taskProgram dep (.handle job)) := by
  simp only [Issues, taskProgram, call, obeys_bind, obeys_perform, implies_true, and_true]
  refine ⟨hget, fun record => ?_⟩
  cases record with
  | none => trivial
  | some record =>
    dsimp only
    split
    · simp only [obeys_bind, obeys_perform, implies_true, and_true]
      exact ⟨hJ _ _ rfl, fun now => hdropped _ now⟩
    · simp only [shadow, obeys_bind, obeys_perform, implies_true, and_true]
      refine ⟨hJ _ _ rfl, fun u => ?_⟩
      have hload : @Performs proxy _ (fun o => Op.prepares o = true) (loadRequestBody dep record.rawObjectKey) :=
        performs_loadRequestBody (fun _ => rfl) _
      refine (obeys_performs hload hJ).mono (fun h₁ body _ ho => ?_) fun _ _ _ _ => trivial
      simp only [obeys_orRaise, obeys_perform, obeys_attempt, implies_true, and_true]
      refine fun req _ => ⟨hJ _ _ rfl, fun start => ⟨hcall _ req _ fun e he => ?_, fun resp => ?_, fun e => ?_⟩⟩
      · rcases List.mem_append.mp he with hm | hm
        · rcases ho.new e hm with hm | hm
          · simp only [List.nil_append, List.mem_append, List.mem_singleton] at hm
            rcases hm with rfl | rfl
            · exact .inl rfl
            · exact .inr rfl
          · exact .inr hm
        · obtain rfl := List.mem_singleton.mp hm
          exact .inr rfl
      · exact hreply ..
      · cases e
        case llmTimeout | llmCall => exact hfailed ..
        all_goals trivial

lemma performs_handle (dep : Deployment) (job : CandidateJob) : ByHandler (taskProgram dep (.handle job)) := by
  refine .bind (byHandler_perform rfl) fun record => ?_
  cases record with
  | none => trivial
  | some record =>
    dsimp only
    split
    · exact .bind (byHandler_perform rfl) fun now => byHandler_perform rfl
    · exact .bind (byHandler_perform rfl) fun _ => byHandler_shadow _ record

end Handler

abbrev ByOther {α : Type} (p : Program α) : Prop :=
  Performs (I := proxy) (fun o => o.ofChat = false ∧ o.ofHandler = false) p

lemma byOther_perform {o : Op} (hc : o.ofChat = false) (hh : o.ofHandler = false) :
    @Performs proxy _ (fun o => o.ofChat = false ∧ o.ofHandler = false) (perform o) :=
  performs_perform (I := proxy) ⟨hc, hh⟩

lemma performs_sweep (dep : Deployment) : ByOther (taskProgram dep .sweep) := by
  refine .bind (.bind (byOther_perform rfl rfl) fun ids => ?_) fun _ => trivial
  split
  · trivial
  · refine .bind (byOther_perform rfl rfl) fun now => .bind (performs_forEach (fun id => ?_) _) fun _ => trivial
    exact byOther_perform rfl rfl

lemma performs_startup (dep : Deployment) : ByOther (taskProgram dep .startup) := by
  have hrequeue : ByOther (requeueAllUnfinished : Program ℕ) := by
    refine .bind (byOther_perform rfl rfl) fun ids => .bind (performs_forEach (fun id => ?_) ids) fun _ => trivial
    exact .bind (byOther_perform rfl rfl) fun _ => trivial
  exact .bind hrequeue fun _ => byOther_perform rfl rfl

end ShadowProxy

import ShadowProxy.Archive.Provenance
import ShadowProxy.Effects.Alone
import ShadowProxy.Scenario

/-! Which route's models a worker uses for the rows of a route. -/

namespace ShadowProxy

open Effects SqlComparisonStore CandidateHandler

variable {dep : Deployment} {clock : DateTime} {w : ProxyWorld dep} {L : List (ProxyLabel dep)} {r : Str}

def RouteFaithful (name : Str) (routeCfg : RouteConfig) (L : List (ProxyLabel dep)) (w : ProxyWorld dep) : Prop :=
  ∀ t job row, Started L t (.handle job) → w.state.row job.requestId = some row → row.route = name →
    (∀ client req timeoutS res, Acted L t (.chatCompletions client req timeoutS) res →
      req.model = row.candidateModel ∧ row.candidateModel = routeCfg.candidate.modelId ∧
        timeoutS = routeCfg.candidate.timeoutS) ∧
    ∀ tape res, Acted L t (.offer tape) res → tape.primaryModel = row.primaryModel ∧ tape.route = row.route

lemma Run.row_route (h : Run (start dep clock) L w) {row : ComparisonRow} (hr : w.state.row r = some row) :
    ∃ routeCfg, dep.config.route row.route = some routeCfg ∧ row.primaryModel = routeCfg.primary.modelId ∧
      row.candidateModel = routeCfg.candidate.modelId := by
  obtain ⟨_, n, c, hins⟩ := Run.row_inserts h hr
  obtain ⟨routeCfg, receivedAt, outcome, action, hrec⟩ := hins.records h
  have hroute : row.route = c.body.route := congrArg PendingComparison.route hrec.record_eq
  have hprimary : row.primaryModel = routeCfg.primary.modelId :=
    congrArg PendingComparison.primaryModel hrec.record_eq
  have hcandidate : row.candidateModel = routeCfg.candidate.modelId :=
    congrArg PendingComparison.candidateModel hrec.record_eq
  exact ⟨routeCfg, hroute ▸ hrec.answered.1, hprimary, hcandidate⟩

lemma rebuildRequest_model {body : Json} {req : ChatRequest} (h : rebuildRequest dep body = .ok req) :
    req.model = dep.defaultRoute.candidate.modelId := by
  unfold rebuildRequest ChatRequest.validate at h
  iterate 7 obtain ⟨_, _, h⟩ := exists_of_bind_ok h
  rw [← Except.ok.inj h]
  rfl

lemma Run.handler_default (h : Run (start dep clock) L w) {t : ℕ} {job : CandidateJob}
    (ht : Started L t (.handle job)) :
    (∀ client req timeoutS res, Acted L t (.chatCompletions client req timeoutS) res →
      req.model = dep.defaultRoute.candidate.modelId ∧ timeoutS = dep.defaultRoute.candidate.timeoutS) ∧
    ∀ tape res, Acted L t (.offer tape) res →
      tape.primaryModel = dep.defaultRoute.primary.modelId ∧ tape.route = "default" := by
  constructor
  · intro client req timeoutS res ha
    obtain ⟨task, _, ht', _, hspec⟩ := Run.acted_issued h ha
    obtain rfl := Run.started_unique h ht' ht
    obtain ⟨_, htimeout, _, _, _, _, hreq⟩ := hspec
    exact ⟨rebuildRequest_model hreq, htimeout⟩
  · intro tape res ha
    obtain ⟨task, _, ht', _, hspec⟩ := Run.acted_issued h ha
    obtain rfl := Run.started_unique h ht' ht
    obtain ⟨_, _, _, _, _, _, _, _, _, _, rfl⟩ := hspec
    exact ⟨rfl, rfl⟩

lemma routeFaithful_default (h : Run (start dep clock) L w) : RouteFaithful "default" dep.defaultRoute L w := by
  intro t job row ht hrow hname
  obtain ⟨routeCfg, hroute, hprimary, hcandidate⟩ := Run.row_route h hrow
  rw [hname, dep.default_route] at hroute
  obtain rfl := Option.some.inj hroute
  obtain ⟨hasks, hoffers⟩ := Run.handler_default h ht
  refine ⟨fun client req timeoutS res ha => ?_, fun tape res ha => ?_⟩
  · obtain ⟨hmodel, htimeout⟩ := hasks client req timeoutS res ha
    exact ⟨hmodel.trans hcandidate.symm, hcandidate, htimeout⟩
  · obtain ⟨hmodel, hr⟩ := hoffers tape res ha
    exact ⟨hmodel.trans hprimary.symm, hr.trans hname.symm⟩

def emptyReply : ChatResponse where
  id := []
  model := []
  content := []
  finishReason := none
  promptTokens := none
  completionTokens := none
  totalTokens := none
  raw := .obj [("choices", .arr [.obj []])]

lemma emptyReply_legal (py : Python) (pd : Pydantic) : toChatResponse py pd emptyReply.raw = .ok emptyReply := rfl

lemma evaluate_empty (py : Python) (cfg : EvaluatorConfig) :
    ∃ result, JsonActionEvaluator.evaluate py cfg [] [] = .ok result ∧
    (result.verdict = .mismatch ∨ result.verdict = .invalidJson) := by
  have hparse : JsonActionEvaluator.parse py [] = .ok (.null, some "empty_content".toList) := rfl
  cases hreq : cfg.requireJson
  · refine ⟨_, by simp only [JsonActionEvaluator.evaluate, hparse, hreq, bind, Except.bind]; rfl, .inl rfl⟩
  · refine ⟨_, by simp only [JsonActionEvaluator.evaluate, hparse, hreq, bind, Except.bind]; rfl, .inr rfl⟩

def routeChat (name : Str) : ChatCall :=
  { demoChat "a" "hi" with body := { (demoChat "a" "hi").body with route := name } }

section Possible

variable {t : ℕ} {k : Kind} {s : State} {h : List Ev}

lemma can_startup (hrows : s.rows = []) : Can (S := system dep) t k s [] (taskProgram dep .startup)
    fun s' _ _ => s' = after dep t k s .serve (.ok ()) := by
  simp only [taskProgram, startup, requeueAllUnfinished, can_bind]
  refine can_perform (.ok []) ?_ ?_
  · exact ⟨[], by rw [hrows]; rfl, .nil, rfl⟩
  · exact can_perform (.ok ()) trivial rfl

lemma can_count (m : Metric) {Q : State → List Ev → Except Exn Unit → Prop} (hQ : ∀ h, Q s h (.ok ())) :
    Can (S := system dep) t k s h (perform (.count m)) Q :=
  can_perform (.ok ()) trivial (hQ _)

lemma can_elapsedMs {Q : State → List Ev → Except Exn ℤ → Prop} (start : ℚ) (hQ : ∀ h ms, Q s h (.ok ms)) :
    Can (S := system dep) t k s h (elapsedMs start) Q := by
  simp only [elapsedMs, can_bind]
  exact can_perform (.ok 0) trivial (hQ _ _)

lemma can_archive {a : PersistArgs} {outcome : PrimaryOutcome}
    {Q : State → List Ev → Except Exn (Option Str) → Prop} (hQ : ∀ h, Q s h (.ok none)) :
    Can (S := system dep) t k s h (archive dep a outcome) Q := by
  rw [archive]
  cases dep.rawBackend with
  | none => exact hQ h
  | some backend =>
    simp only [can_bind]
    apply (can_attempt _).mpr
    simp only [can_bind]
    apply can_perform (.ok s.clock) rfl
    exact can_perform (.error (.rawStore .unwritten)) trivial (hQ _)

def QueuedOn (dep : Deployment) (t : ℕ) (k : Kind) (s : State) (name : Str) (s' : State) : Prop :=
  ∃ (record : PendingComparison) (dispatch : DispatchStatus), record.requestId = "a" ∧ record.primaryStatus = .ok ∧
    record.rawObjectKey = none ∧ record.route = name ∧
      s' = after dep t k (after dep t k s (.insertPending record) (.ok ())) (.enqueue "a") (.ok dispatch)

lemma can_persistPending {a : PersistArgs} {outcome : PrimaryOutcome} (hok : outcome.status = .ok)
    (hempty : outcome.content = []) (hrow : s.row a.requestId = none)
    {Q : State → List Ev → Except Exn Unit → Prop}
    (hQ : ∀ h, Q (after dep t k s (.insertPending (pendingRecord a outcome none none)) (.ok ())) h (.ok ())) :
    Can (S := system dep) t k s h (persistPending dep a outcome) Q := by
  have haction : extractAction dep.py outcome.content = .ok none := by
    rw [hempty]
    rfl
  simp only [persistPending, can_bind]
  refine can_archive fun h => ?_
  simp only [hok, if_true, haction, Prog.orRaise, Prog.ret_bind, insertRecord, can_bind]
  apply (can_attempt _).mpr
  exact can_perform (.ok ()) hrow (hQ _)

lemma can_shadowGate {requestId : Str} (hrate : 0 < (s.procs k.replica).sampleRate)
    {Q : State → List Ev → Except Exn (Bool × Bool × ℚ) → Prop}
    (hQ : ∀ dispatch h x, Q (after dep t k s (.enqueue requestId) (.ok dispatch)) h (.ok x)) :
    Can (S := system dep) t k s h (shadowGate requestId) Q := by
  simp only [shadowGate, can_bind]
  refine can_perform (.ok ((s.procs k.replica).sampleRate, 0)) ⟨rfl, le_rfl, by decide⟩ ?_
  simp only [hrate, decide_true, if_true, can_bind]
  obtain ⟨dispatch, hd⟩ : ∃ d, d = (InProcessDispatcher.enqueue dep.config.dispatcher (s.procs k.replica).queue
    ⟨requestId, 0⟩).2 := ⟨_, rfl⟩
  apply can_perform (.ok dispatch) hd
  refine can_count _ fun h => can_count _ fun h => ?_
  cases dispatch with
  | enqueued => exact (can_bind _ _).mpr (can_count _ fun h => hQ .enqueued _ _)
  | dropped => exact hQ .dropped _ _

lemma can_chat {name : Str} {routeCfg : RouteConfig} (hr : dep.config.route name = some routeCfg)
    (hrow : s.row "a" = none) (hrate : 0 < (s.procs k.replica).sampleRate) :
    Can (S := system dep) t k s [] (taskProgram dep (.chat (routeChat name))) fun s' _ _ =>
      QueuedOn dep t k s name s' := by
  have hr' : dep.config.route (routeChat name).body.route = some routeCfg := hr
  simp only [taskProgram, chat, can_bind]
  apply can_perform (.ok s.clock) rfl
  simp only [hr', runPrimary, can_bind]
  refine can_perform (.ok 0) trivial ((can_attempt _).mpr ?_)
  apply can_perform (.ok emptyReply) (emptyReply_legal _ _)
  simp only [can_bind]
  refine can_elapsedMs 0 fun h ms => ?_
  refine can_persistPending rfl rfl hrow fun h => ?_
  simp only [respond, can_bind]
  refine can_shadowGate ?_ fun dispatch h x => ?_
  · exact hrate
  -- Whether the headers can be set or not, the job is queued by now.
  cases setHeaders (routeChat name) routeCfg with
  | error e => exact ⟨_, dispatch, rfl, rfl, rfl, rfl, rfl⟩
  | ok u => exact can_count _ fun h => ⟨_, dispatch, rfl, rfl, rfl, rfl, rfl⟩

lemma can_recordVerdict {requestId : Str} {row : ComparisonRow} {text : Str} {resp : ChatResponse}
    {result : EvaluationResult} {latencyMs : ℤ} (hv : result.verdict = .mismatch ∨ result.verdict = .invalidJson)
    {Q : State → List Ev → Except Exn Unit → Prop} (hQ : ∀ h tape, Q s (h ++ [⟨.offer tape, .ok ()⟩]) (.ok ())) :
    Can (S := system dep) t k s h (recordVerdict dep requestId row (.obj []) text resp result latencyMs) Q := by
  rcases hv with hv | hv
  all_goals
    simp only [recordVerdict, hv, verdictCounter, true_or, or_true, if_true, can_bind]
    refine can_count _ fun h => can_count _ fun h => ?_
    refine can_perform (.ok s.clock) rfl (can_orRaise rfl ?_)
    exact can_perform (.ok ()) trivial (hQ _ _)

lemma can_call {row : ComparisonRow} {n : ℕ} (hrow : s.row "a" = some row) (hok : row.primaryStatus = .ok)
    (hkey : row.rawObjectKey = none) :
    Can (S := system dep) t k s [] (taskProgram dep (.handle ⟨"a", n⟩)) fun s' h _ =>
      (∃ tape, Did h (.offer tape) (.ok ())) ∧
        ∃ row', s'.row "a" = some row' ∧ row'.toPendingComparison = row.toPendingComparison := by
  obtain ⟨result, hresult, hv⟩ := evaluate_empty dep.py dep.config.evaluator
  simp only [taskProgram, call, can_bind]
  apply can_perform (.ok (some row)) hrow.symm
  simp only [hok, ne_eq, not_true_eq_false, if_false, can_bind]
  apply can_perform (.ok ()) trivial
  simp only [shadow, can_bind, hkey, loadRequestBody]
  refine can_perform (.ok 0) trivial ((can_attempt _).mpr ?_)
  apply can_perform (.ok emptyReply) (emptyReply_legal _ _)
  simp only [evaluateReply, can_bind, hkey, mergeCandidateIntoRaw]
  refine can_elapsedMs 0 fun h ms => can_orRaise primaryContent_empty (can_orRaise hresult ?_)
  apply can_perform (.ok s.clock) rfl
  apply can_perform (.ok ()) trivial
  refine can_recordVerdict hv fun h tape => ⟨⟨tape, did_last _ _ _⟩, ?_⟩
  obtain ⟨row₁, h₁, hp₁⟩ := row_kept dep t k _ (.markInProgress "a") (.ok ()) trivial hrow
  obtain ⟨row₂, h₂, hp₂⟩ := row_kept dep t k _ (.finalize "a" (okPatch result ms s.clock)) (.ok ()) trivial h₁
  exact ⟨row₂, h₂, hp₂.trans hp₁⟩

lemma exists_offer {name : Str} {routeCfg : RouteConfig} (hr : dep.config.route name = some routeCfg) :
    ∃ (L : List (ProxyLabel dep)) (w : ProxyWorld dep), Run (start dep morning) L w ∧
      Started L 2 (.handle ⟨"a", 1⟩) ∧ (∃ row, w.state.row "a" = some row ∧ row.route = name) ∧
        ∃ tape, Acted L 2 (.offer tape) (.ok ()) := by
  obtain ⟨L₁, w₁, _, h₁, hn₁, hs₁⟩ := Can.spawned (S := system dep) (t := 0) (k := ⟨0, .startup⟩)
    (w := start dep morning) (can_startup rfl) .nil (fun _ => rfl) le_rfl rfl
  have hproc₁ : w₁.state.procs 0 = { phase := .serving } := by
    rw [hs₁]
    rfl
  have hrow₁ : w₁.state.row "a" = none := by
    rw [hs₁]
    rfl
  obtain ⟨L₂, w₂, _, h₂, hn₂, record, dispatch, hid, hok, hkey, hroute, hs₂⟩ :=
    Can.spawned (S := system dep) (t := 1)
    (k := ⟨0, .chat (routeChat name)⟩) (w := w₁) (can_chat hr hrow₁ (by simp [onSpawn, hproc₁])) h₁ (fun _ => rfl)
    (by omega) (by simp [canSpawn, hproc₁])
  have hproc₂ : w₂.state.procs 0 = { phase := .serving, queue := [⟨"a", 1⟩] } := by
    simp [hs₂, after, onSpawn, State.setProc, hproc₁, InProcessDispatcher.enqueue_nil]
  have hrow₂ : w₂.state.row "a" = some (newRow record) := by
    rw [hs₂, ← hid]
    exact (row_insertPending (s := w₁.state) (hid ▸ hrow₁) _).trans (if_pos rfl)
  have hworkers : 0 < dep.config.dispatcher.workers := dep.config.dispatcher.workers_pos
  obtain ⟨L₃, w₃, _, h₃, hn₃, ⟨tape, htape⟩, row, hrow, hp⟩ := Can.spawned (S := system dep) (t := 2)
    (k := ⟨0, .handle ⟨"a", 1⟩⟩) (w := w₂) (can_call hrow₂ hok hkey) h₂ (fun _ => rfl) (by omega)
    (by simp [canSpawn, hproc₂, hworkers])
  refine ⟨_, w₃, h₃, ⟨0, by simp⟩, ⟨row, hrow, ?_⟩, tape, did_history.mp htape⟩
  rw [hp]
  exact hroute

end Possible

theorem route_faithful_iff {name : Str} {routeCfg : RouteConfig} (hr : dep.config.route name = some routeCfg) :
    (∀ (clock : DateTime) (L : List (ProxyLabel dep)) (w : ProxyWorld dep), Run (start dep clock) L w →
      RouteFaithful name routeCfg L w) ↔ name = "default" := by
  constructor
  · intro hall
    obtain ⟨L, w, h, ht, ⟨row, hrow, hname⟩, tape, ha⟩ := exists_offer hr
    have hfaithful := ((hall _ _ _ h 2 _ row ht hrow hname).2 tape _ ha).2
    have hdefault := ((Run.handler_default h ht).2 tape _ ha).2
    exact hname.symm.trans (hfaithful.symm.trans hdefault)
  · rintro rfl clock L w h
    obtain rfl := Option.some.inj (dep.default_route.symm.trans hr)
    exact routeFaithful_default h

def premiumRoute : RouteConfig where
  primary := { modelId := "premium-primary", timeoutS := ⟨"30.0"⟩, maxRetries := 2 }
  candidate := { modelId := "premium-candidate", timeoutS := ⟨"60.0"⟩, maxRetries := 2 }

def premiumConfig : AppConfig := { demoConfig with routes := [("default", demoRoute), ("premium", premiumRoute)] }

lemma premiumConfig_default : premiumConfig.route "default" = some demoRoute := by decide

lemma premiumConfig_premium : premiumConfig.route "premium" = some premiumRoute := by decide

abbrev twoRoutes : Deployment := installed premiumConfig none premiumConfig_default

theorem two_routes_faithful :
    (∀ (clock : DateTime) (L : List (ProxyLabel twoRoutes)) (w : ProxyWorld twoRoutes),
      Run (start twoRoutes clock) L w →
      RouteFaithful "default" demoRoute L w) ∧
    ¬ ∀ (clock : DateTime) (L : List (ProxyLabel twoRoutes)) (w : ProxyWorld twoRoutes),
    Run (start twoRoutes clock) L w →
      RouteFaithful "premium" premiumRoute L w := by
  refine ⟨(route_faithful_iff premiumConfig_default).mpr rfl, fun h => ?_⟩
  exact absurd ((route_faithful_iff premiumConfig_premium).mp h) (by decide)

def asksModel (model : Str) : Ev → Bool
  | ⟨.chatCompletions .candidate req _, _⟩ => req.model = model
  | _ => false

def isOn (name model : Str) (row : ComparisonRow) : Bool := row.route = name && row.candidateModel = model

def premiumCall : List (Command (driver twoRoutes)) :=
  boot 0 ++ begin 1 (.chat (routeChat "premium")) ++ acts 11 1 (replies "nope") ++ begin 2 (.handle ⟨"a", 1⟩) ++
    acts 5 2 (replies "nope")

theorem worker_ignores_route : ∃ (L : List (ProxyLabel twoRoutes)) (w : ProxyWorld twoRoutes),
    Run (start twoRoutes morning) L w ∧ ¬ RouteFaithful "premium" premiumRoute L w := by
  obtain ⟨L, w, h, hP⟩ := (driver twoRoutes).exists_free_run (start twoRoutes morning) premiumCall
    (fun L w => L.any (spawned 2 (isHandle "a")) && L.any (acted 2 (asksModel demoRoute.candidate.modelId)) &&
      (w.state.row "a").any (isOn "premium" "premium-candidate")) (by decide +kernel)
  simp only [Bool.and_eq_true] at hP
  obtain ⟨⟨hs, ha⟩, hr⟩ := hP
  obtain ⟨job, ht, hid⟩ := started_handle.mp hs
  obtain ⟨e, he, hmodel⟩ := any_acted.mp ha
  obtain ⟨row, hrow, hon⟩ := (Option.any_eq_true _ _).mp hr
  simp only [isOn, Bool.and_eq_true, decide_eq_true_eq] at hon
  refine ⟨L, w, h, fun hfaithful => ?_⟩
  unfold asksModel at hmodel
  split at hmodel
  · have hasked := (hfaithful 2 job row ht (hid ▸ hrow) hon.1).1 _ _ _ _ he
    rw [of_decide_eq_true hmodel, hon.2] at hasked
    exact absurd hasked.1 (by decide)
  · cases hmodel

end ShadowProxy

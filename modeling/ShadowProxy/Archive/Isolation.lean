import ShadowProxy.Archive.Rehydration
import ShadowProxy.Scenario

/-! When calls that name the same id leave each other's rows, payloads and verdicts alone. -/

namespace ShadowProxy

open Effects CandidateHandler

variable {dep : Deployment} {clock : DateTime} {w w' : ProxyWorld dep} {L L₁ L₂ : List (ProxyLabel dep)}
  {l : ProxyLabel dep} {t n : ℕ} {c : ChatCall}

def WorksFor (L : List (ProxyLabel dep)) (t n : ℕ) : Prop :=
  ∃ job record, Started L t (.handle job) ∧ Acted L n (.insertPending record) (.ok ()) ∧
    record.requestId = job.requestId

structure CleanStep (L : List (ProxyLabel dep)) (w : ProxyWorld dep) (l : ProxyLabel dep) : Prop where
  /-- Only a worker of its own row touches what a call has archived. -/
  put_own : ∀ t id new res, l = .act t ⟨.rawPut id new, res⟩ → RawObject.ofPut new res ≠ none → ∀ n c payload key,
    Archives L n c payload key → dep.locate key = dep.locate (keyFor w.state.clock id) → WorksFor L t n
  not_torn : ∀ t id new, l = .act t ⟨.rawPut id new, .error (.rawStore .torn)⟩ → ∀ n c payload key,
    Archives L n c payload key → dep.locate key ≠ dep.locate (keyFor w.state.clock id)
  /-- No worker on a job of a call whose insert failed finds a row. -/
  own_job : ∀ t job row, l = .act t ⟨.get job.requestId, .ok (some row)⟩ → Started L t (.handle job) →
    ∀ record e, ¬ Acted L job.enqueuedBy (.insertPending record) (.error e)
  recovered : ∀ t req timeoutS resp, l = .act t ⟨.chatCompletions .candidate req timeoutS, .ok resp⟩ →
    Recovered L t

lemma CleanStep.spares (hc : CleanStep L w l) (h : Run (start dep clock) L w) (hi : Intact L w)
    (hs : Step w l w') : SparesPayloads L w l := by
  rintro t id new res rfl htouch n c payload key ha hloc
  obtain ⟨job, record, hst, hins, hid⟩ := hc.put_own t id new res rfl htouch n c payload key ha hloc
  obtain ⟨task, hst', hspec⟩ := Run.issued h hs
  obtain rfl := Run.started_unique h hst hst'
  obtain ⟨_, key', doc, resp, _, _, hread, _, _, hset⟩ := hspec
  obtain ⟨job', n', c', record', payload', hr⟩ := hi.read t key' doc (did_history.mp hread)
  obtain rfl := Task.handle.inj (Run.started_unique h hst hr.started)
  obtain ⟨rfl, _⟩ := Run.insert_unique h hins hr.inserts.insert (hid.trans hr.requestId.symm)
  obtain ⟨_, rfl, _⟩ := ha.unique h hr.archives
  exact hr.sameCall.trans (sameCall_setItem hset)

lemma intact_of_clean (h : RunWhere CleanStep (start dep clock) L w) : Intact L w := by
  induction h with
  | nil => exact intact_start
  | snoc hr hc hs ih => exact ih.step hr.run hs (hc.spares hr.run ih hs)

lemma not_torn_of_clean (h : RunWhere CleanStep (start dep clock) L w) {payload : Json} {key : Str}
    (ha : Archives L n c payload key) : w.state.objects (dep.locate key) ≠ some .torn := by
  induction h with
  | nil => exact nomatch ha.put
  | @snoc L w l w' hr hc hs ih =>
    rcases archives_snoc hr.run hs ha with hold | rfl
    · have hstep := objectStep hs (dep.locate key)
      generalize w'.state.objects (dep.locate key) = after at hstep
      cases hstep with
      | same => exact ih hold
      | @put u id new res obj hloc hobj =>
        intro he
        obtain rfl := Option.some.inj he
        have hres : res = .error (.rawStore .torn) := by
          unfold RawObject.ofPut at hobj
          split at hobj <;> simp_all
        exact hc.not_torn u id new (by rw [hres]) n c payload key hold hloc
    · rw [put_lands hs]
      simp

structure Carries (L : List (ProxyLabel dep)) (n : ℕ) (c : ChatCall) (record : PendingComparison) (doc : Json) :
    Prop where
  request : doc.get "request" (.obj []) = .ok c.body.modelDump
  replied : record.primaryStatus = .ok → ∃ primary reply, PrimaryCall L record.requestId n c primary reply ∧
    doc.get "primary_response" .null = .ok reply.raw
  failed : record.primaryStatus ≠ .ok → doc.get "primary_response" .null = .ok .null

lemma Carries.of_sameCall (h : Run (start dep clock) L w) {record : PendingComparison}
    (hins : Inserts L n c record) {routeCfg : RouteConfig} {receivedAt writtenAt : DateTime}
    {outcome : PrimaryOutcome} {action : Option Str}
    (hrec : Records L n c record routeCfg receivedAt outcome action) {doc : Json}
    (hsame : SameCall (archivePayload (c.persistArgs dep.requestHash receivedAt routeCfg) outcome writtenAt) doc) :
    Carries L n c record doc where
  request := (hsame.request.get _).symm.trans rfl
  replied hok := by
    obtain ⟨reply, hcall, hraw⟩ := hins.primaryCall h hrec hok
    refine ⟨_, reply, hcall, (hsame.primary.get _).symm.trans ?_⟩
    rw [archivePayload_primaryResponse, hraw]
    rfl
  failed hne := by
    have hstatus : outcome.status ≠ .ok := by
      intro he
      apply hne
      rw [hrec.record_eq]
      exact he
    apply (hsame.primary.get _).symm.trans
    rw [archivePayload_primaryResponse, hrec.answered.2.failed hstatus]
    rfl

def Rejected (L : List (ProxyLabel dep)) (n : ℕ) : Prop :=
  ∃ c record e, Started L n (.chat c) ∧ Acted L n (.insertPending record) (.error e)

def CausedBy (L : List (ProxyLabel dep)) (n t : ℕ) : Prop :=
  t = n ∨ ∃ job, Started L t (.handle job) ∧ job.enqueuedBy = n

structure Harmless (L : List (ProxyLabel dep)) (w w' : ProxyWorld dep) (o : Op) : Prop where
  asks : ∀ req timeoutS, o ≠ .chatCompletions .candidate req timeoutS
  rows : ∀ r, w'.state.row r = w.state.row r
  objects : ∀ n c payload key, Archives L n c payload key →
    w'.state.objects (dep.locate key) = w.state.objects (dep.locate key)

structure Isolated (clock : DateTime) (L : List (ProxyLabel dep)) (w : ProxyWorld dep) : Prop where
  archived : ∀ r row key, w.state.row r = some row → row.rawObjectKey = some key → ∃ n c doc,
    Inserts L n c row.toPendingComparison ∧ w.state.objects (dep.locate key) = some (.payload doc) ∧
      Carries L n c row.toPendingComparison doc
  judged : ∀ t r patch res, Acted L t (.finalize r patch) res → JsonActionEvaluator.Comparison patch.verdict →
    ∃ n c primary reply,
    PrimaryCall L r n c primary reply ∧ Judges L t patch reply.content
  rejected : ∀ L₁ L₂ w₁ w₂ t o res, L = L₁ ++ .act t ⟨o, res⟩ :: L₂ → Run (start dep clock) L₁ w₁ →
    Step w₁ (.act t ⟨o, res⟩) w₂ → ∀ n, Rejected L n → CausedBy L n t → Harmless L₁ w₁ w₂ o

lemma archived_of_clean (h : RunWhere CleanStep (start dep clock) L w) {r key : Str} {row : ComparisonRow}
    (hrow : w.state.row r = some row) (hkey : row.rawObjectKey = some key) : ∃ n c doc,
      Inserts L n c row.toPendingComparison ∧ w.state.objects (dep.locate key) = some (.payload doc) ∧
        Carries L n c row.toPendingComparison doc := by
  obtain ⟨_, n, c, hins⟩ := Run.row_inserts h.run hrow
  obtain ⟨routeCfg, receivedAt, outcome, action, hrec⟩ := hins.records h.run
  obtain ⟨writtenAt, harch⟩ := hrec.archived key hkey
  obtain ⟨obj, hobj, hsame⟩ := (intact_of_clean h).kept _ _ _ _ harch
  have htorn := not_torn_of_clean h harch
  cases obj with
  | torn => exact absurd hobj htorn
  | payload doc => exact ⟨n, c, doc, hins, hobj, .of_sameCall h.run hins hrec (hsame doc rfl)⟩

lemma PrimaryCall.mono {L' : List (ProxyLabel dep)} {r : Str} {primary : ChatRequest} {reply : ChatResponse}
    (hp : PrimaryCall L r n c primary reply) (hL : L ⊆ L') : PrimaryCall L' r n c primary reply where
  requestId := hp.requestId
  inserted := by
    obtain ⟨record, hins, hid⟩ := hp.inserted
    exact ⟨record, hins.mono hL, hid⟩
  asked := hp.asked
  replied := by
    obtain ⟨timeoutS, ha⟩ := hp.replied
    exact ⟨timeoutS, acted_mono ha hL⟩

lemma Judges.mono {L' : List (ProxyLabel dep)} {patch : FinalizePatch} {text : Str} (hj : Judges L t patch text)
    (hL : L ⊆ L') : Judges L' t patch text := by
  obtain ⟨req, timeoutS, resp, result, ha, he⟩ := hj
  exact ⟨req, timeoutS, resp, result, acted_mono ha hL, he⟩

lemma Recovered.mono {L' : List (ProxyLabel dep)} (hr : Recovered L t) (hL : L <+: L') : Recovered L' t := by
  obtain ⟨key, doc, hf⟩ := hr
  obtain ⟨k, hk⟩ := history_prefix t hL
  exact ⟨key, doc, by rw [← hk, List.findSome?_append, hf]; rfl⟩

lemma recovered_of_clean (h : RunWhere CleanStep (start dep clock) L w) {req : ChatRequest} {timeoutS : PyFloat}
    {resp : ChatResponse} (ha : Acted L t (.chatCompletions .candidate req timeoutS) (.ok resp)) :
    Recovered L t := by
  obtain ⟨L₁, L₂, rfl⟩ := List.append_of_mem ha
  obtain ⟨w₁, w₂, _, hc, _⟩ := h.at_label
  exact (hc.recovered t req timeoutS resp rfl).mono (List.prefix_append _ _)

lemma judged_of_clean (h : RunWhere CleanStep (start dep clock) L w) {r : Str} {patch : FinalizePatch}
    {res : Except Exn Unit} (ha : Acted L t (.finalize r patch) res)
    (hv : JsonActionEvaluator.Comparison patch.verdict) :
    ∃ n c primary reply, PrimaryCall L r n c primary reply ∧ Judges L t patch reply.content := by
  obtain ⟨L₁, L₂, rfl⟩ := List.append_of_mem ha
  obtain ⟨w₁, w₂, hr, _, hs⟩ := h.at_label
  obtain ⟨job, n, c, primary, reply, _, _, hcall, hrc, hnot⟩ := (intact_of_clean hr).judged hr.run hs hv
  have hrec : Recovered L₁ t := by
    by_contra hn
    obtain ⟨req, timeoutS, resp, result, hasked, _⟩ := hnot hn
    exact hn (recovered_of_clean hr hasked)
  exact ⟨n, c, primary, reply, hcall.mono (List.subset_append_left _ _),
    (hrc hrec).mono (List.subset_append_left _ _)⟩

def isInsert : Ev → Prop
  | ⟨.insertPending _, _⟩ => True
  | _ => False

lemma insert_once (h : Run (start dep clock) L w) (hc : Started L n (.chat c))
    {record record' : PendingComparison} {res res' : Except Exn Unit}
    (ha : Acted L n (.insertPending record) res) (ha' : Acted L n (.insertPending record') res') :
    record = record' ∧ res = res' := by
  have he := Run.chat_once h hc (P := isInsert) ?_ ha ha' trivial trivial
  · cases he
    exact ⟨rfl, rfl⟩
  · rintro h' o r hspec hp ⟨o', r'⟩ he hpe
    cases o <;> try exact hp
    cases o' <;> try exact hpe
    exact hspec.1 _ he _ rfl

lemma chat_harmless (h : Run (start dep clock) L w) {o : Op} {res : Except Exn o.Ret}
    (hc : CleanStep L w (.act n ⟨o, res⟩)) (hs : Step w (.act n ⟨o, res⟩) w') (hst : Started L n (.chat c))
    (hno : ∀ record, (⟨o, res⟩ : Ev) ≠ ⟨.insertPending record, .ok ()⟩) : Harmless L w w' o := by
  obtain ⟨task, hst', hspec⟩ := Run.issued h hs
  obtain rfl := Run.started_unique h hst hst'
  refine ⟨?_, fun r => ?_, fun m c' payload key ha => ?_⟩
  · rintro req timeoutS rfl
    exact nomatch hspec.1
  · have hstep := rowStep hs r
    generalize w'.state.row r = after at hstep
    cases hstep with
    | same => rfl
    | insert => exact absurd rfl (hno _)
    | mark | finalize => exact hspec.elim
  · have hstep := objectStep hs (dep.locate key)
    generalize w'.state.objects (dep.locate key) = after at hstep
    cases hstep with
    | same => rfl
    | put hloc hobj =>
      obtain ⟨job, _, hhandle, _⟩ := hc.put_own _ _ _ _ rfl (by simp [hobj]) m c' payload key ha hloc
      exact nomatch Run.started_unique h hst hhandle

lemma handler_harmless (h : Run (start dep clock) L w) {o : Op} {res : Except Exn o.Ret}
    (hs : Step w (.act t ⟨o, res⟩) w') {job : CandidateJob} (hst : Started L t (.handle job))
    (hno : ∀ row, ¬ Fetched (history t L) job.requestId row) : Harmless L w w' o := by
  obtain ⟨task, hst', hspec⟩ := Run.issued h hs
  obtain rfl := Run.started_unique h hst hst'
  refine ⟨?_, fun r => ?_, fun m c' payload key ha => ?_⟩
  · rintro req timeoutS rfl
    obtain ⟨_, _, record, body, hshadow, _⟩ := hspec
    exact hno record hshadow.1
  · have hstep := rowStep hs r
    generalize w'.state.row r = after at hstep
    cases hstep with
    | same => rfl
    | insert => exact hspec.elim
    | mark =>
      obtain ⟨_, record, hshadow⟩ := hspec
      exact (hno record hshadow.1).elim
    | finalize =>
      obtain ⟨_, record, hfin⟩ := hspec
      exact (hno record hfin.fetched).elim
  · have hstep := objectStep hs (dep.locate key)
    generalize w'.state.objects (dep.locate key) = after at hstep
    cases hstep with
    | same => rfl
    | put =>
      obtain ⟨record, _, _, _, hshadow, _⟩ := hspec
      exact (hno record hshadow.1).elim

lemma rejected_fetches_nothing (h : RunWhere CleanStep (start dep clock) L w) (hr : Rejected L n)
    {job : CandidateJob} (hst : Started L t (.handle job)) (hn : job.enqueuedBy = n) (row : ComparisonRow) :
    ¬ Acted L t (.get job.requestId) (.ok (some row)) := by
  intro ha
  obtain ⟨c, record, e, hchat, hfailed⟩ := hr
  obtain ⟨L₁, L₂, hL⟩ := List.append_of_mem ha
  rw [hL] at h
  obtain ⟨w₁, w₂, hr₁, hc, hs⟩ := h.at_label
  have hsub : L₁ ⊆ L := hL ▸ List.subset_append_left _ _
  rw [← hL] at h
  obtain ⟨task, hst₁, _⟩ := Run.issued hr₁.run hs
  obtain rfl := Run.started_unique h.run (hst₁.mono hsub) hst
  obtain ⟨res, henq⟩ := (Run.job_enqueued hr₁.run).2 t job hst₁
  rw [hn] at henq
  obtain ⟨task, L₀, hchat', hpre, hspec⟩ := Run.acted_issued hr₁.run henq
  obtain rfl := Run.started_unique h.run (hchat'.mono hsub) hchat
  obtain ⟨_, ⟨record', res', hins⟩, _⟩ := hspec
  have hins' : Acted L₁ n (.insertPending record') res' := hpre.subset (did_history.mp hins)
  obtain ⟨rfl, rfl⟩ := insert_once h.run hchat (hsub hins') hfailed
  exact hc.own_job t job row rfl hst₁ record' e (hn ▸ hins')

lemma rejected_of_clean (h : RunWhere CleanStep (start dep clock) L w) {w₁ w₂ : ProxyWorld dep} {o : Op}
    {res : Except Exn o.Ret} (hL : L = L₁ ++ .act t ⟨o, res⟩ :: L₂) (h₁ : Run (start dep clock) L₁ w₁)
    (hs : Step w₁ (.act t ⟨o, res⟩) w₂) (hr : Rejected L n) (hcb : CausedBy L n t) : Harmless L₁ w₁ w₂ o := by
  have hat := hL ▸ h
  obtain ⟨w₁', _, hr₁, hc, _⟩ := hat.at_label
  obtain rfl := RunWhere.unique h₁ hr₁.run
  have hsub : L₁ ⊆ L := hL ▸ List.subset_append_left _ _
  obtain ⟨task, hst₁, _⟩ := Run.issued h₁ hs
  rcases hcb with rfl | ⟨job, hst, hn⟩
  · obtain ⟨c, record, e, hchat, hfailed⟩ := hr
    obtain rfl := Run.started_unique h.run (hst₁.mono hsub) hchat
    refine chat_harmless h₁ hc hs hst₁ fun record' he => ?_
    have hins : Acted L t (.insertPending record') (.ok ()) := by
      rw [hL, he]
      exact List.mem_append_right _ List.mem_cons_self
    exact nomatch (insert_once h.run hchat hins hfailed).2
  · obtain rfl := Run.started_unique h.run (hst₁.mono hsub) hst
    refine handler_harmless h₁ hs hst₁ fun row hf => ?_
    exact rejected_fetches_nothing h hr hst hn row (hsub (did_history.mp hf))

theorem calls_isolated (h : RunWhere CleanStep (start dep clock) L w) : Isolated clock L w where
  archived _ _ _ := archived_of_clean h
  judged _ _ _ _ := judged_of_clean h
  rejected _ _ _ _ _ _ _ hL h₁ hs _ hr hcb := rejected_of_clean h hL h₁ hs hr hcb

section Computed

def inserts (r : Str) : Ev → Bool
  | ⟨.insertPending record, .ok ()⟩ => record.requestId = r
  | _ => false

def worksFor (L : List (ProxyLabel dep)) (t n : ℕ) : Bool :=
  L.any (spawned t fun
    | .handle job => L.any (acted n (inserts job.requestId))
    | _ => false)

lemma acted_inserts {r : Str} (h : L.any (acted n (inserts r)) = true) :
    ∃ record, Acted L n (.insertPending record) (.ok ()) ∧ record.requestId = r := by
  obtain ⟨e, he, hP⟩ := any_acted.mp h
  unfold inserts at hP
  split at hP
  · exact ⟨_, he, of_decide_eq_true hP⟩
  · cases hP

lemma worksFor_sound (h : worksFor L t n = true) : WorksFor L t n := by
  obtain ⟨task, hst, ht⟩ := any_spawned.mp h
  cases task <;> simp only [Bool.false_eq_true] at ht
  obtain ⟨record, ha, hid⟩ := acted_inserts ht
  exact ⟨_, record, hst, ha, hid⟩

def archivedBy (loc : Location) : ProxyLabel dep → Option ℕ
  | .act n ⟨.rawPut _ _, .ok key⟩ => if dep.locate key = loc then some n else none
  | _ => none

def isRejection : Ev → Bool
  | ⟨.insertPending _, .error _⟩ => true
  | _ => false

lemma rejected_of_acted {r : Str} (hst : ∃ c, Started L n (.chat c) ∧ c.requestId = r)
    (h : L.any (acted n isRejection) = true) : Rejected L n := by
  obtain ⟨c, hst, _⟩ := hst
  obtain ⟨e, he, hP⟩ := any_acted.mp h
  unfold isRejection at hP
  split at hP
  · exact ⟨c, _, _, hst, he⟩
  · cases hP

def cleanStep (L : List (ProxyLabel dep)) (w : ProxyWorld dep) : ProxyLabel dep → Bool
  | .act _ ⟨.rawPut _ _, .error _⟩ => false
  | .act t ⟨.rawPut id _, .ok _⟩ =>
    (L.filterMap (archivedBy (dep.locate (keyFor w.state.clock id)))).all (worksFor L t)
  | .act _ ⟨.get _, .ok (some _)⟩ => L.all fun
    | .act _ e => !isRejection e
    | _ => true
  | .act t ⟨.chatCompletions .candidate _ _, .ok _⟩ =>
    ((history t L).findSome? rawRead).any fun read => read.2.isOk
  | _ => true

lemma cleanStep_sound (h : cleanStep L w l = true) : CleanStep L w l where
  put_own := by
    rintro t id new res rfl - n c payload key ha hloc
    cases res with
    | error e => cases h
    | ok newKey =>
      apply worksFor_sound
      refine List.all_eq_true.mp h n (List.mem_filterMap.mpr ⟨_, ha.put, ?_⟩)
      simp [archivedBy, hloc]
  not_torn := by
    rintro t id new rfl
    cases h
  own_job := by
    rintro t job row rfl - record e ha
    exact nomatch List.all_eq_true.mp h _ ha
  recovered := by
    rintro t req timeoutS resp rfl
    obtain ⟨⟨key, res⟩, hread, hok⟩ := (Option.any_eq_true _ _).mp h
    cases res with
    | error e => cases hok
    | ok doc => exact ⟨key, doc, hread⟩

/-- Calls with two ids side by side, and a third call under the first id a day later. -/
def cleanShadow : List (DemoCommand (some (.filesystem []))) :=
  boot 0 ++ begin 1 (.chat (demoChat "a" "hi")) ++ begin 2 (.chat (demoChat "b" "ho")) ++
    acts 7 1 (replies "yes") ++
    acts 13 2 (replies "no") ++ acts 6 1 (replies "yes") ++ begin 3 (.handle ⟨"b", 2⟩) ++
    begin 4 (.handle ⟨"a", 1⟩) ++
    acts 10 3 (replies "no") ++ acts 10 4 (replies "no") ++ tick nextDay ++
    begin 5 (.chat (demoChat "a" "bye")) ++ acts 13 5 (replies "no")

def answered (r : Str) (w : ProxyWorld disk) : Bool :=
  (w.state.row r).any fun row => row.candidateStatus = .ok

theorem calls_isolated_same_id : ∃ (L : List (ProxyLabel disk)) (w : ProxyWorld disk),
    RunWhere CleanStep (start disk morning) L w ∧
      (∃ row, w.state.row "a" = some row ∧ row.candidateStatus = .ok) ∧
      (∃ row, w.state.row "b" = some row ∧ row.candidateStatus = .ok) ∧
      (∃ c, Started L 5 (.chat c) ∧ c.requestId = "a") ∧ Rejected L 5 ∧ Isolated morning L w := by
  obtain ⟨L, w, h, hP⟩ := (driver disk).exists_run (c := cleanStep) cleanStep_sound (start disk morning)
    cleanShadow
    (fun L w => answered "a" w && answered "b" w && L.any (spawned 5 (isChat "a")) && L.any (acted 5 isRejection))
    (by decide +kernel)
  simp only [answered, Bool.and_eq_true, Option.any_eq_true] at hP
  obtain ⟨⟨⟨⟨a, ha, hok⟩, ⟨b, hb, hok'⟩⟩, hst⟩, hrej⟩ := hP
  exact ⟨L, w, h, ⟨a, ha, of_decide_eq_true hok⟩, ⟨b, hb, of_decide_eq_true hok'⟩, started_chat.mp hst,
    rejected_of_acted (started_chat.mp hst) hrej, calls_isolated h⟩

def sameId : List (DemoCommand (some (.filesystem []))) :=
  boot 0 ++ begin 1 (.chat (demoChat "a" "hi")) ++ acts 13 1 (replies "yes") ++
    begin 2 (.chat (demoChat "a" "bye")) ++
    acts 13 2 (replies "no") ++ begin 3 (.handle ⟨"a", 1⟩) ++ acts 5 3 (replies "no") ++
    begin 4 (.handle ⟨"a", 2⟩) ++
    acts 5 4 (replies "no")

def saysBody (body : ChatIn) : Task → Bool
  | .chat c => c.body.modelDump = body.modelDump
  | _ => false

def queuedBy (n : ℕ) : Task → Bool
  | .handle job => job.enqueuedBy = n
  | _ => false

def holdsRequest (body : ChatIn) : RawObject → Bool
  | .payload doc => doc.get "request" (.obj []) = .ok body.modelDump
  | .torn => false

def contaminated (L : List (ProxyLabel disk)) (w : ProxyWorld disk) : Bool :=
  ((w.state.row "a").any fun row => row.rawObjectKey.any fun key =>
      (w.state.objects (disk.locate key)).any (holdsRequest (demoChat "a" "bye").body)) &&
    L.any (spawned 1 (saysBody (demoChat "a" "hi").body)) && L.any (acted 1 (inserts "a")) &&
    L.any (spawned 2 (isChat "a")) && L.any (acted 2 isRejection) &&
    L.any (spawned 4 (queuedBy 2)) && L.any (acted 4 asksCandidate)

/-- The second call's payload takes the place of the first one's, and its job asks the candidate although its
insert failed. -/
theorem same_id_contaminates :
    ∃ (L : List (ProxyLabel disk)) (w : ProxyWorld disk), Run (start disk morning) L w ∧
    (∃ row key c doc, w.state.row "a" = some row ∧ row.rawObjectKey = some key ∧
      Inserts L 1 c row.toPendingComparison ∧
      c.body.modelDump = (demoChat "a" "hi").body.modelDump ∧
      w.state.objects (disk.locate key) = some (.payload doc) ∧
      doc.get "request" (.obj []) = .ok (demoChat "a" "bye").body.modelDump) ∧
    (demoChat "a" "bye").body.modelDump ≠ (demoChat "a" "hi").body.modelDump ∧
    Rejected L 2 ∧ (∃ job, Started L 4 (.handle job) ∧ job.enqueuedBy = 2) ∧
    ∃ req timeoutS res, Acted L 4 (.chatCompletions .candidate req timeoutS) res := by
  obtain ⟨L, w, h, hP⟩ := (driver disk).exists_free_run (start disk morning) sameId
    contaminated (by decide +kernel)
  simp only [contaminated, Bool.and_eq_true, Option.any_eq_true] at hP
  obtain ⟨⟨⟨⟨⟨⟨⟨row, hrow, key, hkey, obj, hobj, hdoc⟩, hhi⟩, hins⟩, hchat⟩, hrej⟩, hjob⟩, hasks⟩ := hP
  obtain ⟨record, hins, hid⟩ := acted_inserts hins
  obtain ⟨hrid, n, c, hi⟩ := Run.row_inserts h hrow
  obtain ⟨rfl, _⟩ := Run.insert_unique h hins hi.insert (hid.trans hrid.symm)
  refine ⟨L, w, h, ?_, by decide, ?_, ?_, acted_asksCandidate hasks⟩
  · obtain ⟨task, hst, hbody⟩ := any_spawned.mp hhi
    obtain rfl := Run.started_unique h hst hi.started
    cases obj with
    | torn => cases hdoc
    | payload doc =>
      exact ⟨row, key, c, doc, hrow, hkey, hi, of_decide_eq_true hbody, hobj, of_decide_eq_true hdoc⟩
  · exact rejected_of_acted (started_chat.mp hchat) hrej
  · obtain ⟨task, hst, hn⟩ := any_spawned.mp hjob
    cases task <;> simp only [queuedBy, decide_eq_true_eq, Bool.false_eq_true] at hn
    exact ⟨_, hst, hn⟩

end Computed

end ShadowProxy

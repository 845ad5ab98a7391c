import ShadowProxy.Archive.Provenance

/-! What a handler asks the candidate and what it evaluates, as long as the archive is intact. -/

namespace ShadowProxy

open Effects CandidateHandler

variable {dep : Deployment} {clock : DateTime} {w w' : ProxyWorld dep} {L : List (ProxyLabel dep)} {t n : ℕ}
  {c : ChatCall} {job : CandidateJob}

def Recovered (L : List (ProxyLabel dep)) (t : ℕ) : Prop :=
  ∃ key doc, (history t L).findSome? rawRead = some (key, .ok doc)

structure PrimaryCall (L : List (ProxyLabel dep)) (r : Str) (n : ℕ) (c : ChatCall) (primary : ChatRequest)
    (reply : ChatResponse) : Prop where
  requestId : c.requestId = r
  inserted : ∃ record, Inserts L n c record ∧ record.requestId = r
  asked : ∃ routeCfg, dep.config.route c.body.route = some routeCfg ∧ primary = c.primaryReq routeCfg
  replied : ∃ timeoutS, Acted L n (.chatCompletions .primary primary timeoutS) (.ok reply)

structure SameQuestion (req primary : ChatRequest) : Prop where
  messages : req.messages = primary.messages
  temperature : req.temperature = primary.temperature
  maxCompletionTokens : req.maxCompletionTokens = primary.maxCompletionTokens

structure EmptyQuestion (req : ChatRequest) : Prop where
  messages : req.messages = []
  temperature : req.temperature = none
  maxCompletionTokens : req.maxCompletionTokens = none

lemma keyFor_ne_nil (now : DateTime) (id : Str) : keyFor now id ≠ [] := List.cons_ne_nil _ _

lemma did_of_rawRead {h : List Ev} {key : Str} {res : Except Exn Json}
    (hf : h.findSome? rawRead = some (key, res)) : Did h (.rawGet key) res := by
  obtain ⟨e, he, hr⟩ := List.exists_of_findSome?_eq_some hf
  unfold rawRead at hr
  split at hr
  · obtain ⟨rfl, rfl⟩ := Prod.mk.inj (Option.some.inj hr)
    exact he
  · cases hr

lemma reply_legal (h : Run (start dep clock) L w) {client : Client} {req : ChatRequest} {timeoutS : PyFloat}
    {reply : ChatResponse} (ha : Acted L n (.chatCompletions client req timeoutS) (.ok reply)) :
    toChatResponse dep.py dep.pydantic reply.raw = .ok reply := by
  obtain ⟨L₁, L₂, w₁, w₂, rfl, h₁, hs⟩ := Run.split h ha
  cases hs with
  | act ht hl => exact hl

lemma fetched_inserts (h : Run (start dep clock) L w) {record : ComparisonRow}
    (hf : Fetched (history t L) job.requestId record) :
    ∃ n c, Inserts L n c record.toPendingComparison ∧ record.requestId = job.requestId := by
  obtain ⟨row, hrow, hp⟩ := Run.get_row h (did_history.mp hf)
  obtain ⟨hid, n, c, hins⟩ := Run.row_inserts h hrow
  rw [hp] at hins
  exact ⟨n, c, hins, (congrArg PendingComparison.requestId hp).symm.trans hid⟩

lemma inserts_unique (h : Run (start dep clock) L w) {n' : ℕ} {c' : ChatCall} {record record' : PendingComparison}
    (hi : Inserts L n c record) (hi' : Inserts L n' c' record') (hid : record.requestId = record'.requestId) :
    n = n' ∧ c = c' ∧ record = record' := by
  obtain ⟨rfl, rfl⟩ := Run.insert_unique h hi.insert hi'.insert hid
  exact ⟨rfl, Task.chat.inj (Run.started_unique h hi.started hi'.started), rfl⟩

section Body

variable {record : ComparisonRow} {routeCfg : RouteConfig} {receivedAt : DateTime} {outcome : PrimaryOutcome}
  {action : Option Str} {body : Json}

lemma Intact.read_same (h : Run (start dep clock) L w) (hi : Intact L w) (hst : Started L t (.handle job))
    (hins : Inserts L n c record.toPendingComparison) (hid : record.requestId = job.requestId)
    (hrec : Records L n c record.toPendingComparison routeCfg receivedAt outcome action) {key : Str}
    {doc : Json} (ha : Acted L t (.rawGet key) (.ok doc)) :
    dep.rawBackend ≠ none ∧ record.rawObjectKey = some key ∧
      ∃ writtenAt, SameCall
        (archivePayload (c.persistArgs dep.requestHash receivedAt routeCfg) outcome writtenAt) doc := by
  obtain ⟨job', n', c', record', payload, hr⟩ := hi.read t key doc ha
  obtain rfl := Task.handle.inj (Run.started_unique h hst hr.started)
  obtain ⟨rfl, rfl, rfl⟩ := inserts_unique h hins hr.inserts (hid.trans hr.requestId.symm)
  obtain ⟨writtenAt, harch⟩ := hrec.archived key hr.row_key
  obtain ⟨_, rfl, _⟩ := hr.archives.unique h harch
  exact ⟨hr.backend, hr.row_key, writtenAt, hr.sameCall⟩

lemma Intact.body_recovered (h : Run (start dep clock) L w) (hi : Intact L w) (hst : Started L t (.handle job))
    (hins : Inserts L n c record.toPendingComparison) (hid : record.requestId = job.requestId)
    (hrec : Records L n c record.toPendingComparison routeCfg receivedAt outcome action)
    (hb : Rehydrated dep (history t L) record body) (hrc : Recovered L t) :
    body.get "request" (.obj []) = .ok c.body.modelDump ∧
      body.get "primary_response" .null = .ok (outcome.raw.getD .null) := by
  obtain ⟨key, doc, hread⟩ := hrc
  obtain ⟨hback, hkey, writtenAt, hsame⟩ :=
    hi.read_same h hst hins hid hrec (did_history.mp (did_of_rawRead hread))
  obtain ⟨_, harch⟩ := hrec.archived key hkey
  obtain ⟨now, rfl⟩ := harch.key_eq h
  obtain rfl : body = doc := by
    obtain ⟨x, xs, hx⟩ := List.exists_cons_of_ne_nil (keyFor_ne_nil now c.requestId)
    obtain ⟨backend, hbackend⟩ := Option.ne_none_iff_exists'.mp hback
    simp only [Rehydrated, hkey, hx, hbackend] at hb
    obtain ⟨res, hres, rfl⟩ := hb
    obtain ⟨-, rfl⟩ := Prod.mk.inj (Option.some.inj (hres.symm.trans hread))
    rfl
  exact ⟨(hsame.request.get _).symm.trans rfl, (hsame.primary.get _).symm.trans rfl⟩

lemma body_not_recovered (hb : Rehydrated dep (history t L) record body) (hrc : ¬ Recovered L t) :
    body = .obj [] := by
  rw [Rehydrated] at hb
  split at hb
  · obtain ⟨res, hres, rfl⟩ := hb
    cases res with
    | error e => rfl
    | ok doc => exact absurd ⟨_, _, hres⟩ hrc
  · exact hb

end Body

lemma Inserts.primaryCall (h : Run (start dep clock) L w) {record : PendingComparison}
    (hins : Inserts L n c record) {routeCfg : RouteConfig} {receivedAt : DateTime} {outcome : PrimaryOutcome}
    {action : Option Str} (hrec : Records L n c record routeCfg receivedAt outcome action)
    (hok : record.primaryStatus = .ok) :
    ∃ reply, PrimaryCall L record.requestId n c (c.primaryReq routeCfg) reply ∧ outcome.raw = some reply.raw := by
  have hstatus : outcome.status = .ok := by
    rw [hrec.record_eq] at hok
    exact hok
  obtain ⟨reply, hd, _, hraw⟩ := hrec.answered.2.ok hstatus
  exact ⟨reply, ⟨(hins.requestId h).symm, ⟨record, hins, rfl⟩, ⟨routeCfg, hrec.answered.1, rfl⟩, _,
    did_history.mp hd⟩, hraw⟩

lemma Intact.body (h : Run (start dep clock) L w) (hi : Intact L w) (hst : Started L t (.handle job))
    {record : ComparisonRow} {body : Json} (hs : Shadowed (history t L) job.requestId record)
    (hb : Rehydrated dep (history t L) record body) :
    ∃ n c routeCfg reply, PrimaryCall L job.requestId n c (c.primaryReq routeCfg) reply ∧
      (Recovered L t → body.get "request" (.obj []) = .ok c.body.modelDump ∧
        body.get "primary_response" .null = .ok reply.raw) ∧ (¬ Recovered L t → body = .obj []) := by
  obtain ⟨n, c, hins, hid⟩ := fetched_inserts h hs.1
  obtain ⟨routeCfg, receivedAt, outcome, action, hrec⟩ := hins.records h
  obtain ⟨reply, hcall, hraw⟩ := hins.primaryCall h hrec hs.2
  refine ⟨n, c, routeCfg, reply, hid ▸ hcall, fun hrc => ?_, body_not_recovered hb⟩
  obtain ⟨hreq, hprim⟩ := hi.body_recovered h hst hins hid hrec hb hrc
  rw [hraw, Option.getD_some] at hprim
  exact ⟨hreq, hprim⟩

def FaithfulQuestion (L : List (ProxyLabel dep)) (t : ℕ) (req : ChatRequest) : Prop :=
  ∃ job n c primary reply, Started L t (.handle job) ∧ PrimaryCall L job.requestId n c primary reply ∧
    (Recovered L t → SameQuestion req primary) ∧ (¬ Recovered L t → EmptyQuestion req)

lemma Intact.asked (h : Run (start dep clock) L w) (hi : Intact L w) {req : ChatRequest} {timeoutS : PyFloat}
    {res : Except Exn ChatResponse} (hs : Step w (.act t ⟨.chatCompletions .candidate req timeoutS, res⟩) w') :
    FaithfulQuestion L t req := by
  obtain ⟨task, hst, hspec⟩ := Run.issued h hs
  cases task with
  | chat => exact nomatch hspec.1
  | sweep | startup => exact hspec.elim
  | handle job =>
    obtain ⟨_, _, record, body, hshadow, hbody, hreq⟩ := hspec
    obtain ⟨n, c, routeCfg, reply, hcall, hrec, hnot⟩ := hi.body h hst hshadow hbody
    refine ⟨job, n, c, _, reply, hst, hcall, fun hrc => ?_, fun hrc => ?_⟩
    · rw [rebuildRequest_archived (hrec hrc).1] at hreq
      obtain rfl := Except.ok.inj hreq
      exact ⟨rfl, rfl, rfl⟩
    · rw [hnot hrc, rebuildRequest_empty] at hreq
      obtain rfl := Except.ok.inj hreq
      exact ⟨rfl, rfl, rfl⟩

def Judges (L : List (ProxyLabel dep)) (t : ℕ) (patch : FinalizePatch) (text : Str) : Prop :=
  ∃ req timeoutS resp result, Acted L t (.chatCompletions .candidate req timeoutS) (.ok resp) ∧
    JsonActionEvaluator.evaluate dep.py dep.config.evaluator text resp.content = .ok result ∧
    patch.verdict = result.verdict ∧ patch.reasons = result.reasons ∧
    patch.candidateAction = result.candidateAction

def FaithfulVerdict (L : List (ProxyLabel dep)) (t : ℕ) (r : Str) (patch : FinalizePatch) : Prop :=
  ∃ job n c primary reply, Started L t (.handle job) ∧ job.requestId = r ∧ PrimaryCall L r n c primary reply ∧
    (Recovered L t → Judges L t patch reply.content) ∧ (¬ Recovered L t → Judges L t patch [])

lemma Intact.judged (h : Run (start dep clock) L w) (hi : Intact L w) {r : Str} {patch : FinalizePatch}
    {res : Except Exn Unit} (hs : Step w (.act t ⟨.finalize r patch, res⟩) w')
    (hv : JsonActionEvaluator.Comparison patch.verdict) : FaithfulVerdict L t r patch := by
  obtain ⟨task, hst, hspec⟩ := Run.issued h hs
  cases task with
  | chat | startup => exact hspec.elim
  | sweep =>
    obtain ⟨_, _, _, _, rfl⟩ := hspec
    simp [JsonActionEvaluator.Comparison, Sweeper.stalePatch] at hv
  | handle job =>
    obtain ⟨rfl, record, hfin⟩ := hspec
    cases hfin with
    | dropped => simp [JsonActionEvaluator.Comparison, droppedPatch] at hv
    | failed => simp [JsonActionEvaluator.Comparison, errorPatch] at hv
    | @evaluated body text resp result latencyMs now he =>
      obtain ⟨n, c, routeCfg, reply, hcall, hrec, hnot⟩ := hi.body h hst he.shadowed he.rehydrated
      obtain ⟨req, timeoutS, hreplied⟩ := he.replied
      have htext : Judges L t (okPatch result latencyMs now) text :=
        ⟨req, timeoutS, resp, result, did_history.mp hreplied, he.result_eq, rfl, rfl, rfl⟩
      refine ⟨job, n, c, _, reply, hst, rfl, hcall, fun hrc => ?_, fun hrc => ?_⟩
      · obtain ⟨timeoutS', hr⟩ := hcall.replied
        have hcontent := primaryContent_archived (reply_legal h hr) (hrec hrc).2
        obtain rfl := Except.ok.inj (he.text_eq.symm.trans hcontent)
        exact htext
      · have hcontent := he.text_eq
        rw [hnot hrc, primaryContent_empty] at hcontent
        obtain rfl := Except.ok.inj hcontent
        exact htext

end ShadowProxy

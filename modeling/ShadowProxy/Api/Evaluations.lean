import ShadowProxy.Archive.FailedMerge
import ShadowProxy.Lifecycle.Termination

/-! `GET /v1/evaluations/{request_id}/raw`, and the three ways to the content of a reply. -/

namespace ShadowProxy

open Effects Prog CandidateHandler

structure RawOut where
  requestId : Str
  rawObjectKey : Option Str := none
  primaryModel : Option Str := none
  candidateModel : Option Str := none
  primaryContent : Option Str := none
  candidateContent : Option Str := none
  primaryResponse : Option Json := none
  candidateResponse : Option Json := none
  primaryError : Option Str := none
  candidateError : Option Str := none
  detail : Option Str := none

def extractMessageContent (resp : Option Json) : Except Exn (Option Str) :=
  match resp with
  | none => .ok none
  | some resp =>
    if resp.truthy then
      match messageContent resp with
      | .ok (.str s) => .ok (some s)
      | .ok _ | .error .keyError | .error .indexError | .error .typeError => .ok none
      | .error e => .error e
    else .ok none

def dictOrNone : Json → Option Json
  | .obj ms => some (.obj ms)
  | _ => none

namespace RawOut

def ofRecord (requestId : Str) (record : ComparisonRow) : RawOut where
  requestId := requestId
  rawObjectKey := record.rawObjectKey
  primaryModel := some record.primaryModel
  candidateModel := some record.candidateModel
  primaryError := record.primaryError
  candidateError := record.candidateError

def withPayload (base : RawOut) (payload : Json) : Except Exn RawOut := do
  let primaryResponse := dictOrNone (← payload.get "primary_response" .null)
  let candidateResponse := dictOrNone (← payload.get "candidate_response" .null)
  return { base with
    primaryResponse, candidateResponse
    primaryContent := ← extractMessageContent primaryResponse
    candidateContent := ← extractMessageContent candidateResponse }

end RawOut

/-- `unavailable` is what the endpoint says of an exception of `raw_store.get`. -/
def getEvaluationRaw (dep : Deployment) (unavailable : Exn → Str) (requestId : Str) : Program RawOut := do
  let record ← perform (.get requestId)
  match record with
  | none => .raise (.http 404 "Not found")
  | some record =>
    let base := RawOut.ofRecord requestId record
    match dep.rawBackend, record.rawObjectKey with
    | none, _ => return { base with detail := some "raw store not configured".toList }
    | some _, some (c :: key) =>
      match ← attempt (perform (.rawGet (c :: key))) with
      | .error e => return { base with detail := some (unavailable e) }
      | .ok payload => orRaise (base.withPayload payload)
    | some _, _ => return { base with detail := some "no raw payload archived for this request".toList }

variable {py : Python} {pd : Pydantic}

def Shows (content : Str) (shown : Option Str) : Prop := shown = some content ∨ shown = none ∧ content = []

lemma extractMessageContent_reply {body : Json} {resp : ChatResponse} (h : toChatResponse py pd body = .ok resp) :
    ∃ shown, extractMessageContent (some body) = .ok shown ∧ Shows resp.content shown := by
  have htruthy : body.truthy = true := (toChatResponse_ok h).1 ▸ toChatResponse_truthy h
  simp only [extractMessageContent, htruthy, if_true]
  rcases messageContent_reply h with ⟨hm, hempty⟩ | ⟨text, hm, hcontent⟩
  · exact ⟨none, by rw [hm], .inr ⟨rfl, hempty⟩⟩
  · rw [hm]
    cases text with
    | str s =>
      have hs : s = resp.content := by cases s <;> exact Json.str.inj hcontent
      exact ⟨some s, rfl, .inl (congrArg some hs)⟩
    | _ =>
      -- A content that is no string passes the client only where it is falsy.
      refine ⟨none, rfl, .inr ⟨rfl, ?_⟩⟩
      rw [Json.orElse] at hcontent
      split at hcontent
      · cases hcontent
      · exact (Json.str.inj hcontent).symm

lemma primaryContentFromRaw_archived {doc : Json} {resp : ChatResponse}
    (hr : toChatResponse py pd resp.raw = .ok resp) (hd : doc.get "primary_response" .null = .ok resp.raw) :
    primaryContentFromRaw doc = .ok (.str resp.content) := by
  obtain ⟨text, htext, hstr⟩ := exists_of_bind_ok (primaryContent_archived hr hd)
  cases text <;> simp only [asText, reduceCtorEq, Except.ok.injEq] at hstr
  rw [htext, hstr]

lemma withPayload_archived {body : Json} {resp : ChatResponse} (h : toChatResponse py pd body = .ok resp)
    {a : PersistArgs} {outcome : PrimaryOutcome} (hraw : outcome.raw = some body) (now : DateTime)
    (base : RawOut) :
    ∃ out, base.withPayload (archivePayload a outcome now) = .ok out ∧ Shows resp.content out.primaryContent := by
  obtain ⟨shown, hshown, hs⟩ := extractMessageContent_reply h
  have hdict : dictOrNone body = some body := by
    obtain ⟨hb, _, hc⟩ := toChatResponse_ok h
    obtain ⟨_, _, _, hchoices, _⟩ := responseChoice_ok hc
    obtain ⟨ms, rfl, _⟩ := getItem_ok hchoices
    rfl
  have hprimary : (archivePayload a outcome now).get "primary_response" .null = .ok body := by
    rw [archivePayload_primaryResponse, hraw]
    rfl
  have hcandidate : (archivePayload a outcome now).get "candidate_response" .null = .ok .null := rfl
  simp only [RawOut.withPayload, hprimary, hcandidate, Bind.bind, Except.bind, hdict, hshown]
  exact ⟨_, rfl, hs⟩

lemma getEvaluationRaw_shows {dep : Deployment} {backend : RawBackend} (hb : dep.rawBackend = some backend)
    (unavailable : Exn → Str) {r : Str} {s : State} {row : ComparisonRow} (hrow : s.row r = some row) {c : Char}
    {key : Str} (hkey : row.rawObjectKey = some (c :: key)) {doc : Json}
    (hobj : s.objects (dep.locate (c :: key)) = some (.payload doc)) (t : ℕ) (k : Kind) :
    Must (S := system dep) (Beside r (dep.locate (c :: key))) (fun e => ∃ a, e.res = .ok a) t k s
      (getEvaluationRaw dep unavailable r) fun _ res => res = (RawOut.ofRecord r row).withPayload doc := by
  refine (must_bind _ _).mpr (must_perform fun s₁ res hR hl hA => ?_)
  cases res with
  | error e => exact (nomatch hA.choose_spec)
  | ok record =>
    obtain rfl : record = some row := hl.trans (hR.row.trans hrow)
    simp only [hb, hkey]
    refine (must_bind _ _).mpr ((must_attempt _).mpr (must_perform fun s₂ res hR' hl' hA' => ?_))
    cases res with
    | error e => exact (nomatch hA'.choose_spec)
    | ok payload =>
      have hpayload : s₂.objects (dep.locate (c :: key)) = some (.payload payload) := hl'
      have hdoc : s₂.objects (dep.locate (c :: key)) = some (.payload doc) :=
        hR'.object.trans (hR.object.trans hobj)
      obtain rfl := RawObject.payload.inj (Option.some.inj (hpayload.symm.trans hdoc))
      cases hw : (RawOut.ofRecord r row).withPayload payload <;> simp [orRaise, hw]

theorem content_extractors_agree {body : Json} {resp : ChatResponse} (h : toChatResponse py pd body = .ok resp)
    (a : PersistArgs) {outcome : PrimaryOutcome} (hcontent : outcome.content = resp.content)
    (hraw : outcome.raw = some body) (now : DateTime) (codec : Codec) {chunks : List Bytes}
    (hd : codec.dumps (archivePayload a outcome now) = .ok chunks.flatten) (old : Option Bytes) (base : RawOut) :
    ∃ doc shown out, codec.get (codec.put chunks old).content = .ok doc ∧
      primaryContentFromRaw doc = .ok (.str outcome.content) ∧
      extractMessageContent (some body) = .ok shown ∧ Shows outcome.content shown ∧
      base.withPayload doc = .ok out ∧ Shows outcome.content out.primaryContent := by
  obtain ⟨hr, -⟩ := toChatResponse_ok h
  obtain ⟨shown, hshown, hs⟩ := extractMessageContent_reply h
  obtain ⟨out, hout, hs'⟩ := withPayload_archived h (a := a) hraw now base
  have hget : codec.get (codec.put chunks old).content = .ok (archivePayload a outcome now) := by
    rw [Codec.put_content]
    simp only [Codec.get, Codec.closed, codec.gunzip_closed]
    exact codec.loads_dumps hd
  have hprimary : (archivePayload a outcome now).get "primary_response" .null = .ok resp.raw := by
    rw [archivePayload_primaryResponse, hraw, hr]
    rfl
  rw [hcontent]
  subst hr
  exact ⟨_, shown, out, hget, primaryContentFromRaw_archived h hprimary, hshown, hs, hout, hs'⟩

theorem content_extractors_agree_nope : ∃ doc shown out,
    demoCodec.get (demoCodec.put [demoPayload.bytes] none).content = .ok doc ∧
      primaryContentFromRaw doc = .ok (.str "nope") ∧
      extractMessageContent (some (demoReply "nope").raw) = .ok shown ∧ Shows "nope" shown ∧
      RawOut.withPayload { requestId := "a" } doc = .ok out ∧ Shows "nope" out.primaryContent := by
  have hdumps : demoCodec.dumps demoPayload = .ok [demoPayload.bytes].flatten := by
    rw [List.flatten_singleton]
    rfl
  have hcontent : demoOutcome.content = (demoReply "nope").content := rfl
  exact content_extractors_agree (demoReply_legal "nope") demoArgs hcontent rfl morning demoCodec hdumps none _

end ShadowProxy

import ShadowProxy.Specs

/-! What the candidate handler may do next, given what it has seen. -/

namespace ShadowProxy.CandidateHandler

open Effects Prog

def rawRead : Ev → Option (Str × Except Exn Json)
  | ⟨.rawGet key, r⟩ => some (key, r)
  | _ => none

def Fetched (h : List Ev) (requestId : Str) (record : ComparisonRow) : Prop :=
  Did h (.get requestId) (.ok (some record))

def Shadowed (h : List Ev) (requestId : Str) (record : ComparisonRow) : Prop :=
  Fetched h requestId record ∧ record.primaryStatus = .ok

variable (dep : Deployment)

def Rehydrated (h : List Ev) (record : ComparisonRow) (body : Json) : Prop :=
  match record.rawObjectKey, dep.rawBackend with
  | some (c :: key), some _ =>
    ∃ res, h.findSome? rawRead = some (c :: key, res) ∧ body = res.toOption.getD (.obj [])
  | _, _ => body = .obj []

def Replied (h : List Ev) (resp : ChatResponse) : Prop :=
  ∃ req timeoutS, Did h (.chatCompletions .candidate req timeoutS) (.ok resp)

structure Evaluated (h : List Ev) (requestId : Str) (record : ComparisonRow) (body : Json) (text : Str)
    (resp : ChatResponse) (result : EvaluationResult) : Prop where
  shadowed : Shadowed h requestId record
  rehydrated : Rehydrated dep h record body
  replied : Replied h resp
  text_eq : (primaryContentFromRaw body >>= asText) = .ok text
  result_eq : JsonActionEvaluator.evaluate dep.py dep.config.evaluator text resp.content = .ok result

inductive Finalizes (h : List Ev) (requestId : Str) (record : ComparisonRow) : FinalizePatch → Prop
  | dropped (now) : Fetched h requestId record → record.primaryStatus ≠ .ok →
      Finalizes h requestId record (droppedPatch now)
  | failed (error label latencyMs now) : Shadowed h requestId record →
      Finalizes h requestId record (errorPatch error label latencyMs now)
  | evaluated {body text resp result} (latencyMs now) : Evaluated dep h requestId record body text resp result →
      Finalizes h requestId record (okPatch result latencyMs now)

def Spec (requestId : Str) (h : List Ev) : Op → Prop
  | .now | .perfCounter | .count _ => True
  | .get id => id = requestId
  | .markInProgress id => id = requestId ∧ ∃ record, Shadowed h requestId record
  | .rawGet key => dep.rawBackend ≠ none ∧ ∃ record, Shadowed h requestId record ∧ record.rawObjectKey = some key
  | .chatCompletions client req timeoutS => client = .candidate ∧ timeoutS = (route dep).candidate.timeoutS ∧
      ∃ record body, Shadowed h requestId record ∧ Rehydrated dep h record body ∧ rebuildRequest dep body = .ok req
  | .rawPut id payload => ∃ record key doc resp, Shadowed h requestId record ∧ record.rawObjectKey = some key ∧
      Did h (.rawGet key) (.ok doc) ∧ Replied h resp ∧ id = requestIdOfKey key ∧
        doc.setItem "candidate_response" resp.raw = .ok payload
  | .finalize id patch => id = requestId ∧ ∃ record, Finalizes dep h requestId record patch
  | .offer row => ∃ record body text resp result request latencyMs now,
      Evaluated dep h requestId record body text resp result ∧ body.get "request" (.obj []) = .ok request ∧
        row = tapeRow dep requestId record request text resp result latencyMs now
  | _ => False

variable {dep} {requestId : Str} {h h' : List Ev} {record : ComparisonRow}

lemma Shadowed.mono (hs : Shadowed h requestId record) (hh : h <+: h') : Shadowed h' requestId record :=
  ⟨hs.1.mono hh, hs.2⟩

lemma Finalizes.fetched {patch : FinalizePatch} (hf : Finalizes dep h requestId record patch) :
    Fetched h requestId record := by
  cases hf with
  | dropped _ hd _ => exact hd
  | failed _ _ _ _ hs => exact hs.1
  | evaluated _ _ he => exact he.shadowed.1

lemma Rehydrated.mono {body : Json} (hr : Rehydrated dep h record body) (hh : h <+: h') :
    Rehydrated dep h' record body := by
  obtain ⟨l, rfl⟩ := hh
  unfold Rehydrated at hr ⊢
  split at hr
  · obtain ⟨res, hf, hb⟩ := hr
    exact ⟨res, by rw [List.findSome?_append, hf]; rfl, hb⟩
  · exact hr

lemma Rehydrated.unique {body body' : Json} (hb : Rehydrated dep h record body)
    (hb' : Rehydrated dep h record body') : body = body' := by
  unfold Rehydrated at hb hb'
  revert hb hb'
  split
  · rintro ⟨res, hres, rfl⟩ ⟨res', hres', rfl⟩
    rw [hres] at hres'
    cases hres'
    rfl
  · exact fun hb hb' => hb.trans hb'.symm

lemma Replied.mono {resp : ChatResponse} (hr : Replied h resp) (hh : h <+: h') : Replied h' resp := by
  obtain ⟨req, timeoutS, hd⟩ := hr
  exact ⟨req, timeoutS, hd.mono hh⟩

lemma Evaluated.mono {body : Json} {text : Str} {resp : ChatResponse} {result : EvaluationResult}
    (he : Evaluated dep h requestId record body text resp result) (hh : h <+: h') :
    Evaluated dep h' requestId record body text resp result :=
  ⟨he.shadowed.mono hh, he.rehydrated.mono hh, he.replied.mono hh, he.text_eq, he.result_eq⟩

section Rules

variable {X : List Ev → Exn → Prop}

lemma obeys_loadRequestBody (hs : Shadowed h requestId record) (hn : h.findSome? rawRead = none) :
    Obeys (Spec dep requestId) h (loadRequestBody dep record.rawObjectKey)
      (fun h' body => h <+: h' ∧ Rehydrated dep h' record body) X := by
  rcases hk : record.rawObjectKey with _ | _ | ⟨c, key⟩
  · simp [loadRequestBody, Rehydrated, hk]
  · simp [loadRequestBody, Rehydrated, hk]
  cases hb : dep.rawBackend with
  | none => simp [loadRequestBody, Rehydrated, hk, hb]
  | some backend =>
    simp only [loadRequestBody, Rehydrated, hk, hb, obeys_bind, obeys_attempt, obeys_perform, pure_eq, obeys_ret]
    refine ⟨⟨by simp [hb], record, hs, hk⟩, fun payload => ⟨by simp, .ok payload, ?_, rfl⟩, fun e =>
      ⟨by simp, .error e, ?_, rfl⟩⟩
    all_goals simp [List.findSome?_append, hn, rawRead]

variable (hX : ∀ h e, X h e)

include hX

lemma obeys_elapsedMs (start : ℚ) : Obeys (Spec dep requestId) h (elapsedMs start) (fun h' _ => h <+: h') X := by
  simp [elapsedMs, Spec, hX]

lemma obeys_mergeCandidateIntoRaw {J : List Ev → Op → Prop} {objectKey : Option Str} {resp : Json}
    (hget : dep.rawBackend ≠ none → ∀ key ∈ objectKey, J h (.rawGet key))
    (hput : ∀ key ∈ objectKey, ∀ doc payload, doc.setItem "candidate_response" resp = .ok payload →
      J (h ++ [⟨.rawGet key, .ok doc⟩]) (.rawPut (requestIdOfKey key) payload)) :
    Obeys J h (mergeCandidateIntoRaw dep objectKey resp) (fun h' _ => h <+: h') X := by
  unfold mergeCandidateIntoRaw
  split
  · rename_i c key _ hb
    simp only [obeys_bind, obeys_attempt, obeys_perform, pure_eq, obeys_ret, obeys_orRaise]
    refine ⟨hget (by simp [hb]) _ rfl, fun doc => ⟨fun payload hp => ?_, fun _ _ => hX _ _⟩, fun _ => by simp⟩
    exact ⟨hput _ rfl doc payload hp, fun _ => by simp, fun _ => by simp⟩
  · exact List.prefix_rfl

lemma obeys_finalizeError (hs : Shadowed h requestId record) (error : Str) (start : ℚ) (label : Str) :
    Obeys (Spec dep requestId) h (finalizeError requestId error start label) (fun _ _ => True) X := by
  have hf : ∀ latencyMs now h', h <+: h' →
      ∃ record, Finalizes dep h' requestId record (errorPatch error label latencyMs now) :=
    fun latencyMs now h' hh => ⟨record, .failed _ _ _ _ (hs.mono hh)⟩
  simp only [finalizeError, obeys_bind]
  refine (obeys_elapsedMs hX start).mono (fun h₁ latencyMs hh _ => ?_) fun _ _ _ he => he
  simp only [obeys_perform, Spec, hX, implies_true, and_true, true_and]
  intro a
  split <;> simp only [obeys_bind, obeys_perform, Spec, hX, implies_true, and_true, true_and]
  · exact fun _ _ now => hf latencyMs now _ (hh.trans (by simp))
  · exact fun _ now => hf latencyMs now _ (hh.trans (by simp))

lemma obeys_recordVerdict {body : Json} {text : Str} {resp : ChatResponse} {result : EvaluationResult}
    (he : Evaluated dep h requestId record body text resp result) (latencyMs : ℤ) :
    Obeys (Spec dep requestId) h (recordVerdict dep requestId record body text resp result latencyMs)
      (fun _ _ => True) X := by
  have ht : ∀ h', h <+: h' → Obeys (Spec dep requestId) h' (do
      if result.verdict = .mismatch ∨ result.verdict = .invalidJson then
        let now ← perform .now
        let request ← orRaise (body.get "request" (.obj []))
        perform (.offer (tapeRow dep requestId record request text resp result latencyMs now)))
          (fun _ _ => True) X := by
    intro h' hh
    split
    · simp only [obeys_bind, obeys_perform, obeys_orRaise, Spec, hX, implies_true, and_true, true_and]
      exact fun now request hr => ⟨record, body, text, resp, result, request, latencyMs, now,
        he.mono (hh.trans (by simp)), hr, rfl⟩
    · trivial
  simp only [recordVerdict, obeys_bind, obeys_perform, Spec, hX, implies_true, and_true, true_and]
  intro a
  split
  · simp only [obeys_bind, obeys_perform, Spec, hX, implies_true, and_true, true_and]
    exact fun _ => ht _ (by simp)
  · exact ht _ (by simp)

lemma obeys_evaluateReply {body : Json} (hs : Shadowed h requestId record) (hb : Rehydrated dep h record body)
    {resp : ChatResponse} (hr : Replied h resp) (start : ℚ) :
    Obeys (Spec dep requestId) h (evaluateReply dep requestId record body start resp) (fun _ _ => True) X := by
  simp only [evaluateReply, obeys_bind]
  refine (obeys_elapsedMs hX start).mono (fun h₁ latencyMs hh₁ _ => ?_) fun _ _ _ he => he
  simp only [obeys_orRaise, hX, implies_true, and_true]
  intro text ht result hres
  have hget : dep.rawBackend ≠ none → ∀ key ∈ record.rawObjectKey, Spec dep requestId h₁ (.rawGet key) :=
    fun hb key hk => ⟨hb, record, hs.mono hh₁, hk⟩
  have hput : ∀ key ∈ record.rawObjectKey, ∀ doc payload, doc.setItem "candidate_response" resp.raw = .ok payload →
      Spec dep requestId (h₁ ++ [⟨.rawGet key, .ok doc⟩]) (.rawPut (requestIdOfKey key) payload) :=
    fun key hk doc payload hp => ⟨record, key, doc, resp, hs.mono (hh₁.trans (List.prefix_append _ _)), hk,
      did_last _ _ _, hr.mono (hh₁.trans (List.prefix_append _ _)), rfl, hp⟩
  refine (obeys_mergeCandidateIntoRaw hX hget hput).mono (fun h₂ _ hh₂ _ => ?_) fun _ _ _ he => he
  have he : Evaluated dep h₂ requestId record body text resp result :=
    ⟨hs.mono (hh₁.trans hh₂), hb.mono (hh₁.trans hh₂), hr.mono (hh₁.trans hh₂), ht, hres⟩
  simp only [obeys_perform, Spec, hX, implies_true, and_true, true_and]
  refine fun now => ⟨⟨record, .evaluated latencyMs now (he.mono (by simp))⟩, fun _ => ?_⟩
  exact obeys_recordVerdict hX (he.mono (by simp)) latencyMs

lemma obeys_shadow (hs : Shadowed h requestId record) (hn : h.findSome? rawRead = none) :
    Obeys (Spec dep requestId) h (shadow dep requestId record) (fun _ _ => True) X := by
  simp only [shadow, obeys_bind]
  refine (obeys_loadRequestBody hs hn).mono (fun h₁ body hh₁ hb => ?_) fun _ _ _ he => he
  simp only [obeys_orRaise, obeys_perform, obeys_attempt, hX, implies_true, and_true]
  refine fun req hreq => ⟨trivial, fun start => ⟨?_, fun resp => ?_, fun e => ?_⟩⟩
  · exact ⟨rfl, rfl, record, body, hs.mono (hh₁.trans (by simp)), hb.2.mono (by simp), hreq⟩
  · refine obeys_evaluateReply hX (hs.mono (hh₁.trans (by simp))) (hb.2.mono (by simp))
      ⟨req, (route dep).candidate.timeoutS, ?_⟩ start
    exact did_last _ _ _
  · have hse := hs.mono (hh₁.trans (List.prefix_append h₁ [⟨.perfCounter, .ok start⟩,
      ⟨.chatCompletions .candidate req (route dep).candidate.timeoutS, .error e⟩]))
    cases e
    case llmTimeout message => simpa using obeys_finalizeError hX hse _ start _
    case llmCall message code => simpa using obeys_finalizeError hX hse message start _
    all_goals exact hX _ _

end Rules

lemma issues_call (dep : Deployment) (job : CandidateJob) :
    Issues (Spec dep job.requestId) (taskProgram dep (.handle job)) := by
  simp only [Issues, taskProgram, call, obeys_bind, obeys_perform, implies_true, and_true]
  refine ⟨rfl, fun record => ?_⟩
  cases record with
  | none => trivial
  | some record =>
    have hf : ∀ h', [⟨.get job.requestId, .ok (some record)⟩] <+: h' → Fetched h' job.requestId record :=
      fun h' hh => Did.mono (by simp [Did]) hh
    dsimp only
    split
    · rename_i hp
      simp only [obeys_bind, obeys_perform, Spec, implies_true, and_true, true_and]
      exact fun now => ⟨record, .dropped now (hf _ (by simp)) hp⟩
    · rename_i hp
      have hs := fun h' hh => (⟨hf h' hh, not_not.mp hp⟩ : Shadowed h' job.requestId record)
      simp only [obeys_bind, obeys_perform, implies_true, and_true]
      refine ⟨⟨rfl, record, hs _ (by simp)⟩, fun _ => obeys_shadow (fun _ _ => trivial) (hs _ (by simp)) ?_⟩
      simp [rawRead]

def MarkedFirst (requestId : Str) (h : List Ev) : Op → Prop
  | .finalize _ patch => patch.candidateStatus = .dropped ∨ Did h (.markInProgress requestId) (.ok ())
  | _ => True

lemma issues_markedFirst (dep : Deployment) (job : CandidateJob) :
    Issues (MarkedFirst job.requestId) (taskProgram dep (.handle job)) := by
  simp only [Issues, taskProgram, call, obeys_bind, obeys_perform, implies_true, and_true]
  refine ⟨trivial, fun record => ?_⟩
  cases record with
  | none => trivial
  | some record =>
    dsimp only
    split
    · simp only [obeys_bind, obeys_perform, MarkedFirst, implies_true, and_true, true_and]
      exact fun _ => .inl rfl
    · simp only [obeys_bind, obeys_perform, MarkedFirst, implies_true, and_true, true_and]
      intro u
      apply Obeys.of_forall
      intro h' o hh
      cases o
      case finalize => exact .inr ((did_last _ _ _).mono hh)
      all_goals trivial

end ShadowProxy.CandidateHandler

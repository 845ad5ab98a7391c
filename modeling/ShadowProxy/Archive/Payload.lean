import ShadowProxy.Api.Chat

/-! What the archive keeps of a chat call, and what the handler reads back out of it. -/

namespace ShadowProxy

open CandidateHandler

variable {py : Python} {pd : Pydantic} {dep : Deployment}

lemma exists_of_bind_ok {α β : Type} {x : Except Exn α} {f : α → Except Exn β} {b : β} (h : (x >>= f) = .ok b) :
    ∃ a, x = .ok a ∧ f a = .ok b := by
  cases x with
  | error e => cases h
  | ok a => exact ⟨a, rfl, h⟩

lemma validStr_ok {x : Json} {s : Str} (h : validStr x = .ok s) : x = .str s := by
  cases x <;> simp only [validStr, reduceCtorEq, Except.ok.injEq] at h
  rw [h]

lemma toChatResponse_ok {body : Json} {resp : ChatResponse} (h : toChatResponse py pd body = .ok resp) :
    resp.raw = body ∧ ∃ finishReason, responseChoice body = .ok (.str resp.content, finishReason) := by
  rw [toChatResponse] at h
  cases hc : responseChoice body with
  | error e =>
    rw [hc] at h
    cases e <;> cases h
  | ok choice =>
    rw [hc] at h
    obtain ⟨content, finishReason⟩ := choice
    obtain ⟨_, hchoice, h⟩ := exists_of_bind_ok h
    cases hchoice
    iterate 8 obtain ⟨_, _, h⟩ := exists_of_bind_ok h
    obtain ⟨_, hcontent, h⟩ := exists_of_bind_ok h
    iterate 4 obtain ⟨_, _, h⟩ := exists_of_bind_ok h
    obtain rfl := Except.ok.inj h
    exact ⟨rfl, finishReason, by rw [validStr_ok hcontent]⟩

lemma getItem_ok {x v : Json} {key : Str} (h : x.getItem key = .ok v) :
    ∃ ms, x = .obj ms ∧ ms.lookup key = some v := by
  cases x with
  | obj ms =>
    refine ⟨ms, rfl, ?_⟩
    cases hv : ms.lookup key <;> simp only [Json.getItem, hv, reduceCtorEq, Except.ok.injEq] at h
    rw [h]
  | _ => cases h

lemma get_ok {x v d : Json} {key : Str} (h : x.get key d = .ok v) :
    ∃ ms, x = .obj ms ∧ v = (ms.lookup key).getD d := by
  cases x <;> simp only [Json.get, reduceCtorEq, Except.ok.injEq] at h
  exact ⟨_, rfl, h.symm⟩

lemma responseChoice_ok {body content finishReason : Json}
    (h : responseChoice body = .ok (content, finishReason)) :
    ∃ (choices : Json) (choice message : List (Str × Json)), body.getItem "choices" = .ok choices ∧
      choices.getFirst = .ok (.obj choice) ∧ (choice.lookup "message".toList).getD (.obj []) = .obj message ∧
      content = ((message.lookup "content".toList).getD (.str [])).orElse (.str []) := by
  rw [responseChoice] at h
  obtain ⟨choices, hchoices, h⟩ := exists_of_bind_ok h
  obtain ⟨choice, hchoice, h⟩ := exists_of_bind_ok h
  obtain ⟨message, hmessage, h⟩ := exists_of_bind_ok h
  obtain ⟨text, htext, h⟩ := exists_of_bind_ok h
  obtain ⟨_, _, h⟩ := exists_of_bind_ok h
  obtain ⟨rfl, -⟩ := Prod.mk.inj (Except.ok.inj h)
  obtain ⟨ms, rfl, rfl⟩ := get_ok hmessage
  obtain ⟨ms', hms', rfl⟩ := get_ok htext
  exact ⟨choices, ms, ms', hchoices, hchoice, hms', rfl⟩

lemma toChatResponse_truthy {body : Json} {resp : ChatResponse} (h : toChatResponse py pd body = .ok resp) :
    resp.raw.truthy = true := by
  obtain ⟨rfl, _, hc⟩ := toChatResponse_ok h
  obtain ⟨_, _, _, hchoices, _⟩ := responseChoice_ok hc
  obtain ⟨ms, hms, hl⟩ := getItem_ok hchoices
  rw [hms]
  cases ms with
  | nil => cases hl
  | cons => rfl

/-- `resp["choices"][0]["message"]["content"]` -/
def messageContent (resp : Json) : Except Exn Json := do
  let choice ← (← resp.getItem "choices").getFirst
  (← choice.getItem "message").getItem "content"

lemma messageContent_reply {body : Json} {resp : ChatResponse} (h : toChatResponse py pd body = .ok resp) :
    messageContent body = .error .keyError ∧ resp.content = [] ∨
      ∃ text, messageContent body = .ok text ∧ text.orElse (.str []) = .str resp.content := by
  obtain ⟨-, _, hc⟩ := toChatResponse_ok h
  obtain ⟨choices, choice, message, hchoices, hchoice, hmessage, hcontent⟩ := responseChoice_ok hc
  simp only [messageContent, hchoices, hchoice, bind, Except.bind]
  cases hm : choice.lookup "message".toList with
  | none =>
    rw [hm] at hmessage
    obtain rfl := Json.obj.inj hmessage
    have hget : (Json.obj choice).getItem "message".toList = .error .keyError := by simp only [Json.getItem, hm]
    exact .inl ⟨by simp only [hget], Json.str.inj hcontent⟩
  | some m =>
    rw [hm] at hmessage
    obtain rfl := hmessage
    have hget : (Json.obj choice).getItem "message".toList = .ok (.obj message) := by simp only [Json.getItem, hm]
    simp only [hget]
    cases ht : message.lookup "content".toList with
    | none =>
      rw [ht] at hcontent
      have htext : (Json.obj message).getItem "content".toList = .error .keyError :=
        by simp only [Json.getItem, ht]
      exact .inl ⟨htext, Json.str.inj hcontent⟩
    | some text =>
      rw [ht, Option.getD_some] at hcontent
      have htext : (Json.obj message).getItem "content".toList = .ok text := by simp only [Json.getItem, ht]
      exact .inr ⟨text, htext, hcontent.symm⟩

lemma primaryContent_archived {doc : Json} {resp : ChatResponse} (hr : toChatResponse py pd resp.raw = .ok resp)
    (hd : doc.get "primary_response" .null = .ok resp.raw) :
    (primaryContentFromRaw doc >>= asText) = .ok resp.content := by
  have horElse : resp.raw.orElse (.obj []) = resp.raw := if_pos (toChatResponse_truthy hr)
  simp only [primaryContentFromRaw, hd, bind, Except.bind, horElse]
  rcases messageContent_reply hr with ⟨hm, hempty⟩ | ⟨text, hm, hcontent⟩
  · simp only [messageContent, bind, Except.bind] at hm
    rw [hm, hempty]
    rfl
  · simp only [messageContent, bind, Except.bind] at hm
    simp only [hm, hcontent]
    rfl

variable {a : PersistArgs} {outcome : PrimaryOutcome} {now : DateTime}

lemma archivePayload_primaryResponse (d : Json) :
    (archivePayload a outcome now).get "primary_response" d = .ok (outcome.raw.getD .null) := rfl

lemma archivePayload_item :
    (archivePayload a outcome now).getItem "primary_response" = .ok (outcome.raw.getD .null) := rfl

lemma archivePayload_candidate : (archivePayload a outcome now).getItem "candidate_response" = .ok .null := rfl

lemma mapM_validate_modelDump (messages : List ChatMessage) :
    (messages.map ChatMessage.modelDump).mapM ChatMessage.validate = .ok messages := by
  induction messages with
  | nil => rfl
  | cons m ms ih =>
    have hm : ChatMessage.validate m.modelDump = .ok m := by
      obtain ⟨role, content⟩ := m
      cases role <;> rfl
    rw [List.map_cons, List.mapM_cons, hm, ih]
    rfl

lemma rebuildRequest_archived {doc : Json} {body : ChatIn}
    (hd : doc.get "request" (.obj []) = .ok body.modelDump) : rebuildRequest dep doc = .ok {
      model := (route dep).candidate.modelId
      messages := body.messages
      temperature := body.temperature
      maxCompletionTokens := body.maxCompletionTokens } := by
  have ht : validOpt (validWith dep.pydantic.float) (body.temperature.elim .null .float) = .ok body.temperature :=
    by
    cases body.temperature with
    | none => rfl
    | some x => simp [validOpt, validWith, dep.pydantic.float_float, Except.map]
  have hm : validOpt (validWith dep.pydantic.int) (body.maxCompletionTokens.elim .null .int) =
      .ok body.maxCompletionTokens := by
    cases body.maxCompletionTokens with
    | none => rfl
    | some n => simp [validOpt, validWith, dep.pydantic.int_int, Except.map]
  have hmessages : body.modelDump.get "messages" (.arr []) =
      .ok (.arr (body.messages.map ChatMessage.modelDump)) := rfl
  have htemperature : body.modelDump.get "temperature" .null = .ok (body.temperature.elim .null .float) := rfl
  have hmax : body.modelDump.get "max_completion_tokens" .null = .ok (body.maxCompletionTokens.elim .null .int) :=
    rfl
  simp only [rebuildRequest, hd, hmessages, htemperature, hmax, bind, Except.bind, ChatRequest.validate,
    validMessages, mapM_validate_modelDump, ht, hm]
  rfl

lemma rebuildRequest_empty : rebuildRequest dep (.obj []) = .ok {
    model := (route dep).candidate.modelId
    messages := []
    temperature := none
    maxCompletionTokens := none } := rfl

lemma primaryContent_empty : (primaryContentFromRaw (.obj []) >>= asText) = .ok [] := rfl

end ShadowProxy

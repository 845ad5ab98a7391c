import ShadowProxy.Deployment

/-! The primary call, the durable write and the candidate handler. -/

namespace ShadowProxy

open Effects Prog

structure PrimaryOutcome where
  status : PrimaryStatus
  latencyMs : ℤ
  content : Str := []
  raw : Option Json := none
  error : Option Str := none
  errorStatusCode : Option ℤ := none

/-- `int((stop - start) * 1000)` -/
def wholeMs (start stop : ℚ) : ℤ :=
  let ms := (stop - start) * 1000
  ms.num.tdiv ms.den

def elapsedMs (start : ℚ) : Program ℤ := do
  let stop ← perform .perfCounter
  return wholeMs start stop

def runPrimary (req : ChatRequest) (timeoutS : PyFloat) : Program PrimaryOutcome := do
  let start ← perform .perfCounter
  match ← attempt (perform (.chatCompletions .primary req timeoutS)) with
  | .error (.llmTimeout message) =>
    return { status := .timeout, latencyMs := ← elapsedMs start, error := some message }
  | .error (.llmCall message code) =>
    return { status := .error, latencyMs := ← elapsedMs start, error := some message, errorStatusCode := code }
  | .error e => .raise e
  | .ok resp =>
    return { status := .ok, latencyMs := ← elapsedMs start, content := resp.content, raw := some resp.raw }

def extractAction (py : Python) (content : Str) (key : Str := "action") : Except Exn (Option Str) :=
  match stripCodeFence content with
  | [] => .ok none
  | stripped =>
    match py.loads stripped with
    | .error (.jsonDecodeError _) => .ok none
    | .error e => .error e
    | .ok (.obj ms) => .ok (JsonActionEvaluator.actionText py ((ms.lookup key).getD .null))
    | .ok _ => .ok none

/-- The arguments `chat` passes to `persist_pending`. -/
structure PersistArgs where
  requestId : Str
  receivedAt : DateTime
  route : Str
  tenantId : Option Str
  sessionId : Option Str
  requestHash : Str
  requestBody : Json
  primaryModel : Str
  candidateModel : Str

def archivePayload (a : PersistArgs) (outcome : PrimaryOutcome) (writtenAt : DateTime) : Json :=
  .obj [
    ("request", a.requestBody),
    ("primary_model", .str a.primaryModel),
    ("candidate_model", .str a.candidateModel),
    ("primary_response", outcome.raw.getD .null),
    ("candidate_response", .null),
    ("written_at", .str writtenAt.isoformat)]

def pendingRecord (a : PersistArgs) (outcome : PrimaryOutcome) (rawObjectKey primaryAction : Option Str) :
    PendingComparison where
  requestId := a.requestId
  receivedAt := a.receivedAt
  route := a.route
  tenantId := a.tenantId
  sessionId := a.sessionId
  requestHash := a.requestHash
  rawObjectKey := rawObjectKey
  primaryModel := a.primaryModel
  primaryStatus := outcome.status
  primaryLatencyMs := outcome.latencyMs
  primaryAction := primaryAction
  primaryError := outcome.error
  candidateModel := a.candidateModel

section Deployed

variable (dep : Deployment)

def archive (a : PersistArgs) (outcome : PrimaryOutcome) : Program (Option Str) :=
  match dep.rawBackend with
  | none => return none
  | some _ => do
    let put ← attempt do
      let writtenAt ← perform .now
      perform (.rawPut a.requestId (archivePayload a outcome writtenAt))
    return put.toOption

def insertRecord (record : PendingComparison) : Program Unit := do
  match ← attempt (perform (.insertPending record)) with
  | .ok () => return
  | .error e => if dep.config.store.onFailure = .failClosed then .raise e else return

def persistPending (a : PersistArgs) (outcome : PrimaryOutcome) : Program Unit := do
  let rawObjectKey ← archive dep a outcome
  let primaryAction ←
    if outcome.status = .ok then orRaise (extractAction dep.py outcome.content) else pure none
  insertRecord dep (pendingRecord a outcome rawObjectKey primaryAction)

namespace CandidateHandler

def route : RouteConfig := dep.defaultRoute

def routeName : Str := "default"

def loadRequestBody (objectKey : Option Str) : Program Json :=
  match objectKey, dep.rawBackend with
  | some (c :: key), some _ => do
    match ← attempt (perform (.rawGet (c :: key))) with
    | .ok payload => return payload
    | .error _ => return .obj []
  | _, _ => return .obj []

/-- The candidate's request, rebuilt from the archived payload by nested `.get` defaults. -/
def rebuildRequest (requestBody : Json) : Except Exn ChatRequest := do
  let request ← requestBody.get "request" (.obj [])
  let messages ← request.get "messages" (.arr [])
  let temperature ← request.get "temperature" .null
  let maxCompletionTokens ← request.get "max_completion_tokens" .null
  ChatRequest.validate dep.pydantic (route dep).candidate.modelId messages temperature maxCompletionTokens

def primaryContentFromRaw (requestBody : Json) : Except Exn Json := do
  let resp := (← requestBody.get "primary_response" .null).orElse (.obj [])
  let content := do
    let choice ← (← resp.getItem "choices").getFirst
    (← choice.getItem "message").getItem "content"
  match content with
  | .ok content => return content.orElse (.str [])
  | .error .keyError | .error .indexError | .error .typeError => return .str []
  | .error e => .error e

/-- Matching a regular expression against anything but a string is a `TypeError`. -/
def asText : Json → Except Exn Str
  | .str s => .ok s
  | _ => .error .typeError

def mergeCandidateIntoRaw (objectKey : Option Str) (candidateResponse : Json) : Program Unit :=
  match objectKey, dep.rawBackend with
  | some (c :: key), some _ => do
    match ← attempt (perform (.rawGet (c :: key))) with
    | .error _ => return
    | .ok payload =>
      let payload ← orRaise (payload.setItem "candidate_response" candidateResponse)
      let _ ← attempt (perform (.rawPut (requestIdOfKey (c :: key)) payload))
  | _, _ => return

def droppedPatch (now : DateTime) : FinalizePatch where
  candidateStatus := .dropped
  verdict := .primaryError
  reasons := ["primary_error_no_shadow"]
  evaluatedAt := some now

def errorPatch (error label : Str) (latencyMs : ℤ) (now : DateTime) : FinalizePatch where
  candidateStatus := .error
  verdict := .candidateError
  reasons := ["candidate_".toList ++ label]
  candidateLatencyMs := some latencyMs
  candidateError := some (error.take 1000)
  evaluatedAt := some now

def okPatch (result : EvaluationResult) (latencyMs : ℤ) (now : DateTime) : FinalizePatch where
  candidateStatus := .ok
  verdict := result.verdict
  reasons := result.reasons
  candidateLatencyMs := some latencyMs
  candidateAction := result.candidateAction
  evaluatedAt := some now

def finalizeError (requestId error : Str) (start : ℚ) (label : Str) : Program Unit := do
  let latencyMs ← elapsedMs start
  perform (.count (.business .shadowErrors))
  if label = ("timeout" : Str) then perform (.count (.business .shadowTimeouts))
  perform (.count (.verdictsTotal routeName .candidateError))
  let now ← perform .now
  perform (.finalize requestId (errorPatch error label latencyMs now))

def verdictCounter : Verdict → Option Counter
  | .matched => some .verdictMatch
  | .mismatch => some .verdictMismatch
  | .invalidJson => some .verdictInvalidJson
  | _ => none

def tapeRow (requestId : Str) (record : ComparisonRow) (request : Json) (primaryContent : Str)
    (resp : ChatResponse) (result : EvaluationResult) (latencyMs : ℤ) (now : DateTime) : TapeRow where
  requestId := requestId
  finalizedAt := now.isoformat
  route := routeName
  verdict := result.verdict
  primaryModel := (route dep).primary.modelId
  candidateModel := (route dep).candidate.modelId
  primaryAction := record.primaryAction
  candidateAction := result.candidateAction
  primaryContent := primaryContent
  candidateContent := resp.content
  primaryLatencyMs := record.primaryLatencyMs
  candidateLatencyMs := latencyMs
  reasons := result.reasons
  requestBody := request

def recordVerdict (requestId : Str) (record : ComparisonRow) (requestBody : Json) (primaryContent : Str)
    (resp : ChatResponse) (result : EvaluationResult) (latencyMs : ℤ) : Program Unit := do
  perform (.count (.verdictsTotal routeName result.verdict))
  if let some key := verdictCounter result.verdict then perform (.count (.business key))
  if result.verdict = .mismatch ∨ result.verdict = .invalidJson then
    let now ← perform .now
    let request ← orRaise (requestBody.get "request" (.obj []))
    perform (.offer (tapeRow dep requestId record request primaryContent resp result latencyMs now))

/-- From the candidate's reply on. -/
def evaluateReply (requestId : Str) (record : ComparisonRow) (requestBody : Json) (start : ℚ)
    (resp : ChatResponse) : Program Unit := do
  let latencyMs ← elapsedMs start
  let primaryContent ← orRaise (primaryContentFromRaw requestBody >>= asText)
  let result ← orRaise
    (JsonActionEvaluator.evaluate dep.py dep.config.evaluator primaryContent resp.content)
  mergeCandidateIntoRaw dep record.rawObjectKey resp.raw
  let now ← perform .now
  perform (.finalize requestId (okPatch result latencyMs now))
  recordVerdict dep requestId record requestBody primaryContent resp result latencyMs

/-- From the row's being marked in progress on. -/
def shadow (requestId : Str) (record : ComparisonRow) : Program Unit := do
  let requestBody ← loadRequestBody dep record.rawObjectKey
  let req ← orRaise (rebuildRequest dep requestBody)
  let start ← perform .perfCounter
  match ← attempt (perform (.chatCompletions .candidate req (route dep).candidate.timeoutS)) with
  | .error (.llmTimeout message) =>
    finalizeError requestId ("timeout: ".toList ++ message) start "timeout"
  | .error (.llmCall message _) => finalizeError requestId message start "error"
  | .error e => .raise e
  | .ok resp => evaluateReply dep requestId record requestBody start resp

/-- The source's `__call__`. -/
def call (requestId : Str) : Program Unit := do
  let record ← perform (.get requestId)
  match record with
  | none => return
  | some record =>
    if record.primaryStatus ≠ .ok then
      let now ← perform .now
      perform (.finalize requestId (droppedPatch now))
    else
      perform (.markInProgress requestId)
      shadow dep requestId record

end CandidateHandler

end Deployed

end ShadowProxy

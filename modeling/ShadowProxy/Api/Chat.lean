import ShadowProxy.Pipeline

/-! `POST /v1/chat`. -/

namespace ShadowProxy

open Effects Prog

structure ChatMetadata where
  tenantId : Option Str
  sessionId : Option Str

structure ChatIn where
  messages : List ChatMessage
  temperature : Option PyFloat
  maxCompletionTokens : Option ℤ
  metadata : Option ChatMetadata
  route : Str
  messages_ne_nil : messages ≠ []
  maxCompletionTokens_mem : ∀ n ∈ maxCompletionTokens, 1 ≤ n ∧ n ≤ 32768

/-- The text of a header, which is decoded as Latin-1: a byte is its own character. -/
abbrev HeaderText := List (Fin 256)

def decodeHeader (value : HeaderText) : Str := value.map fun b : Fin 256 => Char.ofNat b

def Latin1 (s : Str) : Prop := ∀ c ∈ s, c.toNat < 256

instance (s : Str) : Decidable (Latin1 s) := List.decidableBAll _ s

lemma latin1_decodeHeader (value : HeaderText) : Latin1 (decodeHeader value) := by
  have hbyte : ∀ b : Fin 256, (Char.ofNat b).toNat < 256 := by decide +kernel
  intro c hc
  obtain ⟨b, -, rfl⟩ := List.mem_map.mp hc
  exact hbyte b

structure ChatCall where
  body : ChatIn
  xRequestId : Option HeaderText
  newRequestId : HeaderText

structure ChatReply where
  requestId : Str
  primaryModel : Str
  response : Json
  sampledIn : Bool
  enqueued : Bool
  sampleRate : ℚ

def optStr (s : Option Str) : Json := s.elim .null .str

def ChatMetadata.modelDump (m : ChatMetadata) : Json :=
  .obj [("tenant_id", optStr m.tenantId), ("session_id", optStr m.sessionId)]

def ChatIn.modelDump (b : ChatIn) : Json :=
  .obj [
    ("messages", .arr (b.messages.map ChatMessage.modelDump)),
    ("temperature", b.temperature.elim .null .float),
    ("max_completion_tokens", b.maxCompletionTokens.elim .null .int),
    ("metadata", b.metadata.elim .null ChatMetadata.modelDump),
    ("route", .str b.route)]

def ChatCall.requestId (c : ChatCall) : Str :=
  match c.xRequestId with
  | some (x :: id) => decodeHeader (x :: id)
  | _ => decodeHeader c.newRequestId

lemma ChatCall.requestId_latin1 (c : ChatCall) : Latin1 c.requestId := by
  unfold ChatCall.requestId
  split <;> exact latin1_decodeHeader _

def ChatCall.primaryReq (c : ChatCall) (routeCfg : RouteConfig) : ChatRequest where
  model := routeCfg.primary.modelId
  messages := c.body.messages
  temperature := c.body.temperature
  maxCompletionTokens := c.body.maxCompletionTokens

def ChatCall.persistArgs (c : ChatCall) (requestHash : Json → Str) (receivedAt : DateTime)
    (routeCfg : RouteConfig) : PersistArgs where
  requestId := c.requestId
  receivedAt := receivedAt
  route := c.body.route
  tenantId := c.body.metadata.bind ChatMetadata.tenantId
  sessionId := c.body.metadata.bind ChatMetadata.sessionId
  requestHash := requestHash c.body.modelDump
  requestBody := c.body.modelDump
  primaryModel := routeCfg.primary.modelId
  candidateModel := routeCfg.candidate.modelId

def shadowGate (requestId : Str) : Program (Bool × Bool × ℚ) := do
  let (sampleRate, draw) ← perform .sample
  let sampledIn := decide ((draw : ℚ) < sampleRate)
  let enqueued ←
    if sampledIn then do
      let dispatch ← perform (.enqueue requestId)
      pure (DispatchStatus.isEnqueued dispatch)
    else pure false
  perform (.count (.business .requestsTotal))
  perform (.count (.business .requestsSuccess))
  if enqueued then perform (.count (.business .shadowEnqueued))
  else if !sampledIn then perform (.count (.business .shadowSampledOut))
  return (sampledIn, enqueued, sampleRate)

def statusText (code : ℤ) : Str := (toString code).toList

def PrimaryOutcome.statusCode (outcome : PrimaryOutcome) : ℤ :=
  match outcome.errorStatusCode with
  | none => 502
  | some code => if code = 0 then 502 else code

def PrimaryOutcome.errorText (outcome : PrimaryOutcome) : Str := outcome.error.getD "None".toList

def failWith {α : Type} (route : Str) (code : ℤ) (detail : Str) : Program α := do
  perform (.count (.requestsTotal route (statusText code)))
  .raise (.http code detail)

/-- `response.headers[name] = value`: a character beyond Latin-1 is a `UnicodeEncodeError`, which is a
`ValueError`. -/
def encodeHeader (value : Str) : Except Exn Unit := if Latin1 value then .ok () else .error .valueError

lemma encodeHeader_latin1 {value : Str} (h : Latin1 value) : encodeHeader value = .ok () := if_pos h

/-- The two headers with a text of others in them; the remaining three are ASCII. -/
def setHeaders (c : ChatCall) (routeCfg : RouteConfig) : Except Exn Unit := do
  encodeHeader c.requestId
  encodeHeader routeCfg.primary.modelId

lemma setHeaders_eq (c : ChatCall) (routeCfg : RouteConfig) :
    setHeaders c routeCfg = encodeHeader routeCfg.primary.modelId := by
  rw [setHeaders, encodeHeader_latin1 c.requestId_latin1]
  rfl

def respond (c : ChatCall) (routeCfg : RouteConfig) (outcome : PrimaryOutcome) : Program ChatReply :=
  match outcome.status with
  | .timeout => failWith c.body.route 504 ("Primary LLM timed out: ".toList ++ outcome.errorText)
  | .error =>
    if outcome.statusCode = 401 ∨ outcome.statusCode = 403 then
      failWith c.body.route outcome.statusCode "Upstream authentication failed"
    else failWith c.body.route 502 ("Primary LLM failed: ".toList ++ outcome.errorText)
  | .ok => do
    let (sampledIn, enqueued, sampleRate) ← shadowGate c.requestId
    orRaise (setHeaders c routeCfg)
    perform (.count (.requestsTotal c.body.route (statusText 200)))
    return {
      requestId := c.requestId
      primaryModel := routeCfg.primary.modelId
      response := (outcome.raw.getD .null).orElse (.obj [])
      sampledIn, enqueued, sampleRate }

def chat (dep : Deployment) (c : ChatCall) : Program ChatReply := do
  let receivedAt ← perform .now
  match dep.config.route c.body.route with
  | none => .raise (.http 400 ("Unknown route: ".toList ++ c.body.route))
  | some routeCfg =>
    let outcome ← runPrimary (c.primaryReq routeCfg) routeCfg.primary.timeoutS
    persistPending dep (c.persistArgs dep.requestHash receivedAt routeCfg) outcome
    respond c routeCfg outcome

end ShadowProxy

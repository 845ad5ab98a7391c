import ShadowProxy.Evaluator

/-! Provider-agnostic chat requests and responses. -/

namespace ShadowProxy

/-- How pydantic reads a JSON value into an `int` or a `float` field; a value of the field's own type
is read as it is. -/
structure Pydantic where
  int : Json → Option ℤ
  float : Json → Option PyFloat
  int_int : ∀ n, int (.int n) = some n
  float_float : ∀ x, float (.float x) = some x

inductive Role where
  | system
  | user
  | assistant
  | tool
  deriving DecidableEq

def Role.value : Role → Str
  | .system => "system"
  | .user => "user"
  | .assistant => "assistant"
  | .tool => "tool"

def Role.all : List Role := [.system, .user, .assistant, .tool]

structure ChatMessage where
  role : Role
  content : Str
  deriving DecidableEq

structure ChatRequest where
  model : Str
  messages : List ChatMessage
  temperature : Option PyFloat
  maxCompletionTokens : Option ℤ
  extra : List (Str × Json) := []
  deriving DecidableEq

structure ChatResponse where
  id : Str
  model : Str
  content : Str
  finishReason : Option Str
  promptTokens : Option ℤ
  completionTokens : Option ℤ
  totalTokens : Option ℤ
  raw : Json
  deriving DecidableEq

def ChatMessage.modelDump (m : ChatMessage) : Json :=
  .obj [("role", .str m.role.value), ("content", .str m.content)]

section Validation

def validStr : Json → Except Exn Str
  | .str s => .ok s
  | _ => .error .validationError

def validOpt {α : Type} (valid : Json → Except Exn α) : Json → Except Exn (Option α)
  | .null => .ok none
  | x => (valid x).map some

def validWith {α : Type} (read : Json → Option α) (x : Json) : Except Exn α :=
  (read x).elim (.error .validationError) .ok

def validRole (x : Json) : Except Exn Role :=
  validWith (fun x => Role.all.find? fun r => x = .str r.value) x

/-- `ChatMessage.model_validate` -/
def ChatMessage.validate : Json → Except Exn ChatMessage
  | .obj ms =>
    match ms.lookup "role".toList, ms.lookup "content".toList with
    | some role, some content => do
      let role ← validRole role
      let content ← validStr content
      return { role, content }
    | _, _ => .error .validationError
  | _ => .error .validationError

def validMessages : Json → Except Exn (List ChatMessage)
  | .arr xs => xs.mapM ChatMessage.validate
  | _ => .error .validationError

variable (pd : Pydantic)

/-- `ChatRequest(model=…, messages=…, temperature=…, max_completion_tokens=…)` -/
def ChatRequest.validate (model : Str) (messages temperature maxCompletionTokens : Json) :
    Except Exn ChatRequest := do
  let messages ← validMessages messages
  let temperature ← validOpt (validWith pd.float) temperature
  let maxCompletionTokens ← validOpt (validWith pd.int) maxCompletionTokens
  return { model, messages, temperature, maxCompletionTokens }

end Validation

variable (py : Python) (pd : Pydantic)

/-- The `try` block of `_to_chat_response`: the content and the finish reason. -/
def responseChoice (body : Json) : Except Exn (Json × Json) := do
  let choices ← body.getItem "choices"
  let choice ← choices.getFirst
  let message ← choice.get "message" (.obj [])
  let content ← message.get "content" (.str [])
  let finishReason ← choice.get "finish_reason" .null
  return (content.orElse (.str []), finishReason)

def toChatResponse (body : Json) : Except Exn ChatResponse := do
  let (content, finishReason) ←
    match responseChoice body with
    | .error .keyError | .error .indexError | .error .typeError =>
      .error (.llmCall ("malformed DO inference response: ".toList ++ py.repr body) none)
    | x => x
  let usage := (← body.get "usage" .null).orElse (.obj [])
  let id ← body.get "id" (.str [])
  let model ← body.get "model" (.str [])
  let promptTokens ← usage.get "prompt_tokens" .null
  let completionTokens ← usage.get "completion_tokens" .null
  let totalTokens ← usage.get "total_tokens" .null
  return {
    id := ← validStr id
    model := ← validStr model
    content := ← validStr content
    finishReason := ← validOpt validStr finishReason
    promptTokens := ← validOpt (validWith pd.int) promptTokens
    completionTokens := ← validOpt (validWith pd.int) completionTokens
    totalTokens := ← validOpt (validWith pd.int) totalTokens
    raw := body }

end ShadowProxy

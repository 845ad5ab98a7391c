import ShadowProxy.Dispatcher
import ShadowProxy.Effects.Program
import ShadowProxy.Llm
import ShadowProxy.Store.Raw
import ShadowProxy.Store.Sql

/-! Every point where the proxy's coroutines touch shared state or the outside world. -/

namespace ShadowProxy

open Effects

inductive Client where
  | primary
  | candidate
  deriving DecidableEq

/-- The keys of `rt_counters`. -/
inductive Counter where
  | requestsTotal
  | requestsSuccess
  | requestsError
  | shadowEnqueued
  | shadowSampledOut
  | shadowErrors
  | shadowTimeouts
  | verdictMatch
  | verdictMismatch
  | verdictInvalidJson
  deriving DecidableEq

inductive Metric where
  | business (key : Counter)
  | requestsTotal (route status : Str)
  | verdictsTotal (route : Str) (verdict : Verdict)
  deriving DecidableEq

structure TapeRow where
  requestId : Str
  finalizedAt : Str
  route : Str
  verdict : Verdict
  primaryModel : Str
  candidateModel : Str
  primaryAction : Option Str
  candidateAction : Option Str
  primaryContent : Str
  candidateContent : Str
  primaryLatencyMs : ℤ
  candidateLatencyMs : ℤ
  reasons : List Str
  requestBody : Json
  deriving DecidableEq

inductive Op where
  | now
  | perfCounter
  | chatCompletions (client : Client) (req : ChatRequest) (timeoutS : PyFloat)
  | rawPut (requestId : Str) (payload : Json)
  | rawGet (objectKey : Str)
  | insertPending (record : PendingComparison)
  | markInProgress (requestId : Str)
  | finalize (requestId : Str) (patch : FinalizePatch)
  | get (requestId : Str)
  | findStale (threshold : ℤ) (limit : ℕ)
  | findAllUnfinished (limit : ℕ)
  | sample
  | enqueue (requestId : Str)
  | count (metric : Metric)
  | offer (row : TapeRow)
  | serve

/-- `sample` reads the live rate and draws `random.random()`, with no await between the two. -/
@[reducible] def Op.Ret : Op → Type
  | now => DateTime
  | perfCounter => ℚ
  | chatCompletions _ _ _ => ChatResponse
  | rawPut _ _ => Str
  | rawGet _ => Json
  | get _ => Option ComparisonRow
  | findStale _ _ => List Str
  | findAllUnfinished _ => List Str
  | sample => ℚ × ℚ
  | enqueue _ => DispatchStatus
  | insertPending _ | markInProgress _ | finalize _ _ | count _ | offer _ | serve => Unit

abbrev proxy : Interface := ⟨Op, Op.Ret, Exn⟩

abbrev Program (α : Type) := Prog proxy α

abbrev Ev := Event proxy

def perform (o : Op) : Program o.Ret := Prog.perform (I := proxy) o

@[simp] lemma obeys_perform (o : Op) {J : List Ev → Op → Prop} {h : List Ev} {Q : List Ev → o.Ret → Prop}
    {X : List Ev → Exn → Prop} : @Obeys proxy (no_index (Op.Ret o)) J h (perform o) Q X ↔
      J h o ∧ (∀ a, Q (h ++ [⟨o, .ok a⟩]) a) ∧ ∀ e, X (h ++ [⟨o, .error e⟩]) e :=
  Effects.obeys_perform (I := proxy) o

@[simp] lemma obeys_attempt {α : Type} (p : Program α) {J : List Ev → Op → Prop} {h : List Ev}
    {Q : List Ev → Except Exn α → Prop} {X : List Ev → Exn → Prop} :
    @Obeys proxy (no_index (Except Exn α)) J h p.attempt Q X ↔
      Obeys J h p (fun h a => Q h (.ok a)) fun h e => Q h (.error e) :=
  Effects.obeys_attempt p

end ShadowProxy

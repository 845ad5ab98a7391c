import Mathlib.Data.Rat.Defs
import Mathlib.Algebra.Order.Ring.Unbundled.Rat
import ShadowProxy.Clock
import ShadowProxy.Evaluator

/-! Value objects of the comparison store. -/

namespace ShadowProxy

inductive PrimaryStatus where
  | ok
  | error
  | timeout
  deriving DecidableEq

inductive CandidateStatus where
  | pending
  | inProgress
  | ok
  | error
  | timeoutStale
  | dropped
  deriving DecidableEq

/-- Row inserted immediately after the primary call completes. -/
structure PendingComparison where
  requestId : Str
  receivedAt : DateTime
  route : Str
  tenantId : Option Str
  sessionId : Option Str
  requestHash : Str
  rawObjectKey : Option Str
  primaryModel : Str
  primaryStatus : PrimaryStatus
  primaryLatencyMs : ℤ
  primaryAction : Option Str
  primaryError : Option Str
  candidateModel : Str
  deriving DecidableEq

/-- Fields written when the candidate call finishes. -/
structure FinalizePatch where
  candidateStatus : CandidateStatus
  verdict : Verdict
  reasons : List Str
  candidateLatencyMs : Option ℤ := none
  candidateAction : Option Str := none
  candidateError : Option Str := none
  evaluatedAt : Option DateTime := none
  attemptCount : ℕ := 1
  lastAttemptedAt : Option DateTime := none
  deriving DecidableEq

/-- A row of the `comparisons` table, and the record read from it. -/
structure ComparisonRow extends PendingComparison where
  candidateStatus : CandidateStatus
  candidateLatencyMs : Option ℤ
  candidateAction : Option Str
  candidateError : Option Str
  verdict : Verdict
  reasons : List Str
  attemptCount : ℕ
  lastAttemptedAt : Option DateTime
  evaluatedAt : Option DateTime
  deriving DecidableEq

def CandidateStatus.unfinished : CandidateStatus → Bool
  | .pending | .inProgress => true
  | _ => false

/-- Counts by verdict; a verdict no row has counts zero, as `dict.get(v, 0)` reads it. -/
structure SummaryStats where
  windowSeconds : ℤ
  total : ℕ
  verdicts : Verdict → ℕ
  primaryLatencyP50Ms : Option ℚ
  primaryLatencyP95Ms : Option ℚ
  candidateLatencyP50Ms : Option ℚ
  candidateLatencyP95Ms : Option ℚ

def SummaryStats.finalized (s : SummaryStats) : ℕ :=
  s.verdicts .matched + s.verdicts .mismatch + s.verdicts .invalidJson + s.verdicts .candidateError

def SummaryStats.matchRate (s : SummaryStats) : ℚ :=
  if s.finalized = 0 then 0 else s.verdicts .matched / s.finalized

end ShadowProxy

import ShadowProxy.Store.Sql

/-! The declared widths of the columns of `comparisons`, which Postgres enforces and SQLite ignores. -/

namespace ShadowProxy

def PrimaryStatus.value : PrimaryStatus → Str
  | .ok => "ok"
  | .error => "error"
  | .timeout => "timeout"

def CandidateStatus.value : CandidateStatus → Str
  | .pending => "pending"
  | .inProgress => "in_progress"
  | .ok => "ok"
  | .error => "error"
  | .timeoutStale => "timeout_stale"
  | .dropped => "dropped"

def FitsColumn (n : ℕ) (value : Option Str) : Prop := ∀ s ∈ value, s.length ≤ n

structure ComparisonRow.Fits (row : ComparisonRow) : Prop where
  requestId : row.requestId.length ≤ 64
  route : row.route.length ≤ 64
  tenantId : FitsColumn 64 row.tenantId
  sessionId : FitsColumn 128 row.sessionId
  requestHash : row.requestHash.length ≤ 64
  rawObjectKey : FitsColumn 256 row.rawObjectKey
  primaryModel : row.primaryModel.length ≤ 128
  primaryStatus : row.primaryStatus.value.length ≤ 32
  primaryAction : FitsColumn 256 row.primaryAction
  primaryError : FitsColumn 1024 row.primaryError
  candidateModel : row.candidateModel.length ≤ 128
  candidateStatus : row.candidateStatus.value.length ≤ 32
  candidateAction : FitsColumn 256 row.candidateAction
  candidateError : FitsColumn 1024 row.candidateError
  verdict : row.verdict.value.length ≤ 32

structure FinalizePatch.Fits (patch : FinalizePatch) : Prop where
  candidateStatus : patch.candidateStatus.value.length ≤ 32
  verdict : patch.verdict.value.length ≤ 32
  candidateAction : FitsColumn 256 patch.candidateAction
  candidateError : FitsColumn 1024 patch.candidateError

lemma fitsColumn_none (n : ℕ) : FitsColumn n none := nofun

lemma primaryStatus_fits (s : PrimaryStatus) : s.value.length ≤ 32 := by
  cases s <;> decide

lemma candidateStatus_fits (s : CandidateStatus) : s.value.length ≤ 32 := by
  cases s <;> decide

lemma verdict_fits (v : Verdict) : v.value.length ≤ 32 := by
  cases v <;> decide

lemma patch_fits_iff {patch : FinalizePatch} :
    patch.Fits ↔ FitsColumn 256 patch.candidateAction ∧ FitsColumn 1024 patch.candidateError :=
  ⟨fun h => ⟨h.candidateAction, h.candidateError⟩, fun h => ⟨candidateStatus_fits _, verdict_fits _, h.1, h.2⟩⟩

lemma FitsColumn.or {n : ℕ} {a b : Option Str} (ha : FitsColumn n a) (hb : FitsColumn n b) :
    FitsColumn n (a.or b) := by
  cases a with
  | none => exact hb
  | some s => exact ha

lemma ComparisonRow.Fits.finalized {row : ComparisonRow} {patch : FinalizePatch} (hr : row.Fits)
    (hp : patch.Fits) (now : DateTime) : (SqlComparisonStore.finalized now patch row).Fits :=
  { hr with
    candidateStatus := hp.candidateStatus
    candidateAction := hp.candidateAction.or hr.candidateAction
    candidateError := hp.candidateError.or hr.candidateError
    verdict := hp.verdict }

lemma ComparisonRow.Fits.markedInProgress {row : ComparisonRow} (hr : row.Fits) (now : DateTime) :
    (SqlComparisonStore.markedInProgress now row).Fits :=
  { hr with candidateStatus := candidateStatus_fits _ }

end ShadowProxy

import Mathlib.Algebra.Order.Floor.Ring
import Mathlib.Data.Rat.Floor
import Mathlib.Data.List.Sublists
import ShadowProxy.Data.Table
import ShadowProxy.Store.Base

/-! The SQL comparison store as operations on a table of rows. -/

namespace ShadowProxy.SqlComparisonStore

open Data

abbrev Rows := List ComparisonRow

abbrev rowId (r : ComparisonRow) : Str := r.requestId

def lookup (requestId : Str) (t : Rows) : Option ComparisonRow := Table.lookup rowId requestId t

def newRow (record : PendingComparison) : ComparisonRow where
  toPendingComparison := record
  candidateStatus := .pending
  candidateLatencyMs := none
  candidateAction := none
  candidateError := none
  verdict := if record.primaryStatus ≠ .ok then .primaryError else .pending
  reasons := []
  attemptCount := 0
  lastAttemptedAt := none
  evaluatedAt := none

/-- The primary key rejects an id that is already there: `insertPending` is legal on no other. -/
def insertPending (record : PendingComparison) (t : Rows) : Rows := t ++ [newRow record]

def markedInProgress (now : DateTime) (r : ComparisonRow) : ComparisonRow :=
  { r with
    candidateStatus := .inProgress
    lastAttemptedAt := some now
    attemptCount := r.attemptCount + 1 }

def markInProgress (now : DateTime) (requestId : Str) (t : Rows) : Rows :=
  Table.modify rowId requestId (markedInProgress now) t

def finalized (now : DateTime) (patch : FinalizePatch) (r : ComparisonRow) : ComparisonRow :=
  { r with
    candidateStatus := patch.candidateStatus
    verdict := patch.verdict
    reasons := patch.reasons
    evaluatedAt := some (patch.evaluatedAt.getD now)
    candidateLatencyMs := patch.candidateLatencyMs.or r.candidateLatencyMs
    candidateAction := patch.candidateAction.or r.candidateAction
    candidateError := patch.candidateError.or r.candidateError
    lastAttemptedAt := patch.lastAttemptedAt.or r.lastAttemptedAt }

def finalize (now : DateTime) (requestId : Str) (patch : FinalizePatch) (t : Rows) : Rows :=
  Table.modify rowId requestId (finalized now patch) t

def staleIds (now : DateTime) (threshold : ℤ) (t : Rows) : List Str :=
  (t.filter fun r => r.candidateStatus.unfinished && r.receivedAt.instant < now.instant - threshold).map rowId

/-- Without an `ORDER BY`, any `limit` of the stale ids may come back. -/
def FindStale (now : DateTime) (threshold : ℤ) (limit : ℕ) (t : Rows) (ids : List Str) : Prop :=
  ids.Subperm (staleIds now threshold t) ∧ ids.length = min limit (staleIds now threshold t).length

def unfinishedRows (t : Rows) : Rows := t.filter fun r => r.candidateStatus.unfinished

/-- Oldest first; rows received at the same instant may come back in any order. -/
def FindAllUnfinished (limit : ℕ) (t : Rows) (ids : List Str) : Prop :=
  ∃ rows : Rows, rows.Perm (unfinishedRows t) ∧
    rows.Pairwise (fun a b => a.receivedAt.instant ≤ b.receivedAt.instant) ∧ ids = (rows.take limit).map rowId

def percentile (values : List ℤ) (q : ℚ) : Option ℚ :=
  match values.mergeSort with
  | [] => none
  | [v] => some v
  | sorted =>
    let k : ℚ := (sorted.length - 1 : ℕ) * q
    let lo := ⌊k⌋.toNat
    let hi := min (lo + 1) (sorted.length - 1)
    let frac := k - lo
    let at_ (i : ℕ) : ℚ := (sorted.getD i 0 : ℤ)
    some (at_ lo + (at_ hi - at_ lo) * frac)

/-- One call of `summary` with no write between its three queries. -/
def summary (now : DateTime) (window : ℤ) (t : Rows) : SummaryStats :=
  let rows := t.filter fun r => now.instant - window ≤ r.receivedAt.instant
  let primaryLats := rows.map fun r => r.primaryLatencyMs
  let candidateLats := rows.filterMap fun r => r.candidateLatencyMs
  { windowSeconds := window / 1000000
    total := rows.length
    verdicts := fun v => rows.countP fun r => r.verdict = v
    primaryLatencyP50Ms := percentile primaryLats (1 / 2)
    primaryLatencyP95Ms := percentile primaryLats (19 / 20)
    candidateLatencyP50Ms := percentile candidateLats (1 / 2)
    candidateLatencyP95Ms := percentile candidateLats (19 / 20) }

@[simp] lemma newRow_pending (record : PendingComparison) : (newRow record).toPendingComparison = record := rfl

@[simp] lemma markedInProgress_pending (now : DateTime) (r : ComparisonRow) :
    (markedInProgress now r).toPendingComparison = r.toPendingComparison := rfl

@[simp] lemma finalized_pending (now : DateTime) (patch : FinalizePatch) (r : ComparisonRow) :
    (finalized now patch r).toPendingComparison = r.toPendingComparison := rfl

@[simp] lemma finalized_status (now : DateTime) (patch : FinalizePatch) (r : ComparisonRow) :
    (finalized now patch r).candidateStatus = patch.candidateStatus := rfl

@[simp] lemma finalized_verdict (now : DateTime) (patch : FinalizePatch) (r : ComparisonRow) :
    (finalized now patch r).verdict = patch.verdict := rfl

@[simp] lemma markedInProgress_verdict (now : DateTime) (r : ComparisonRow) :
    (markedInProgress now r).verdict = r.verdict := rfl

@[simp] lemma markedInProgress_status (now : DateTime) (r : ComparisonRow) :
    (markedInProgress now r).candidateStatus = .inProgress := rfl

lemma rowId_markedInProgress (now : DateTime) (r : ComparisonRow) : rowId (markedInProgress now r) = rowId r := rfl

lemma rowId_finalized (now : DateTime) (patch : FinalizePatch) (r : ComparisonRow) :
    rowId (finalized now patch r) = rowId r := rfl

lemma lookup_markInProgress (now : DateTime) (id r : Str) (t : Rows) :
    lookup r (markInProgress now id t) = if id = r then (lookup r t).map (markedInProgress now) else lookup r t :=
      by
  split
  · rename_i h
    exact h ▸ Table.lookup_modify_self (rowId_markedInProgress _) id t
  · rename_i h
    exact Table.lookup_modify_ne (rowId_markedInProgress _) (Ne.symm h) t

lemma lookup_finalize (now : DateTime) (id r : Str) (patch : FinalizePatch) (t : Rows) :
    lookup r (finalize now id patch t) = if id = r then (lookup r t).map (finalized now patch) else lookup r t :=
      by
  split
  · rename_i h
    exact h ▸ Table.lookup_modify_self (rowId_finalized _ _) id t
  · rename_i h
    exact Table.lookup_modify_ne (rowId_finalized _ _) (Ne.symm h) t

section Filter

variable {p : Str → Bool} {now : DateTime} {threshold : ℤ} {limit : ℕ} {t : Rows} {ids : List Str}

lemma staleIds_filter (p : Str → Bool) (now : DateTime) (threshold : ℤ) (t : Rows) :
    staleIds now threshold (t.filter fun r => p r.requestId) = (staleIds now threshold t).filter p := by
  simp only [staleIds, List.filter_filter, List.filter_map, Function.comp_def, rowId, Bool.and_comm]

lemma FindStale.filter (h : FindStale now threshold limit t ids) (hp : ∀ r ∈ ids, p r = true) :
    FindStale now threshold limit (t.filter fun r => p r.requestId) ids := by
  obtain ⟨hsub, hlen⟩ := h
  have hsub' : ids.Subperm ((staleIds now threshold t).filter p) := by
    have hf := hsub.filter p
    rwa [List.filter_eq_self.mpr hp] at hf
  rw [FindStale, staleIds_filter]
  refine ⟨hsub', ?_⟩
  have h₁ := hsub'.length_le
  have h₂ := List.length_filter_le p (staleIds now threshold t)
  omega

lemma take_filter_of_all {α : Type} {q : α → Bool} {n : ℕ} {xs : List α} (h : ∀ x ∈ xs.take n, q x = true) :
    (xs.filter q).take n = xs.take n := by
  induction xs generalizing n with
  | nil => rfl
  | cons x xs ih =>
    cases n with
    | zero => rfl
    | succ n =>
      have hx : q x = true := h x (by simp)
      rw [List.filter_cons_of_pos hx, List.take_succ_cons, List.take_succ_cons, ih]
      intro y hy
      exact h y (by simp [hy])

lemma FindAllUnfinished.filter (h : FindAllUnfinished limit t ids) (hp : ∀ r ∈ ids, p r = true) :
    FindAllUnfinished limit (t.filter fun r => p r.requestId) ids := by
  obtain ⟨rows, hperm, hsorted, rfl⟩ := h
  refine ⟨rows.filter fun r => p r.requestId, ?_, hsorted.filter _, ?_⟩
  · have hf := hperm.filter fun r => p r.requestId
    simp only [unfinishedRows, List.filter_filter, Bool.and_comm] at hf ⊢
    exact hf
  · rw [take_filter_of_all]
    intro row hrow
    exact hp _ (List.mem_map_of_mem hrow)

end Filter

end ShadowProxy.SqlComparisonStore

import ShadowProxy.Lifecycle.LiveAttempt

/-! What earlier attempts leave in the columns that a finalization does not set. -/

namespace ShadowProxy

open Effects SqlComparisonStore

inductive StoreCall where
  | insertPending (record : PendingComparison)
  | markInProgress (now : DateTime) (requestId : Str)
  | finalize (now : DateTime) (requestId : Str) (patch : FinalizePatch)

def StoreCall.execute (t : Rows) : StoreCall → Rows
  | .insertPending record => SqlComparisonStore.insertPending record t
  | .markInProgress now requestId => SqlComparisonStore.markInProgress now requestId t
  | .finalize now requestId patch => SqlComparisonStore.finalize now requestId patch t

/-- A column that a finalization sets only to a value that is not `None`. -/
structure Column (α : Type) where
  ofPatch : FinalizePatch → Option α
  ofRow : ComparisonRow → Option α
  ofRow_newRow : ∀ record, ofRow (newRow record) = none
  ofRow_markedInProgress : ∀ now row, ofRow (markedInProgress now row) = ofRow row
  ofRow_finalized : ∀ now patch row, ofRow (finalized now patch row) = (ofPatch patch).or (ofRow row)

namespace Column

def candidateLatencyMs : Column ℤ where
  ofPatch := FinalizePatch.candidateLatencyMs
  ofRow := ComparisonRow.candidateLatencyMs
  ofRow_newRow _ := rfl
  ofRow_markedInProgress _ _ := rfl
  ofRow_finalized _ _ _ := rfl

def candidateAction : Column Str where
  ofPatch := FinalizePatch.candidateAction
  ofRow := ComparisonRow.candidateAction
  ofRow_newRow _ := rfl
  ofRow_markedInProgress _ _ := rfl
  ofRow_finalized _ _ _ := rfl

def candidateError : Column Str where
  ofPatch := FinalizePatch.candidateError
  ofRow := ComparisonRow.candidateError
  ofRow_newRow _ := rfl
  ofRow_markedInProgress _ _ := rfl
  ofRow_finalized _ _ _ := rfl

variable {α : Type} (c : Column α) {r : Str} {t : Rows} {row : ComparisonRow}

def setBy (r : Str) : StoreCall → Option α
  | .finalize _ requestId patch => if requestId = r then c.ofPatch patch else none
  | _ => none

def lastSet (r : Str) (calls : List StoreCall) : Option α := calls.foldl (fun v call => (c.setBy r call).or v) none

lemma lastSet_snoc (r : Str) (calls : List StoreCall) (call : StoreCall) :
    c.lastSet r (calls ++ [call]) = (c.setBy r call).or (c.lastSet r calls) := by
  simp [lastSet]

lemma lastSet_eq_none {calls : List StoreCall} :
    c.lastSet r calls = none ↔ ∀ call ∈ calls, c.setBy r call = none := by
  induction calls using List.reverseRecOn with
  | nil => simp [lastSet]
  | append_singleton calls call ih =>
    rw [lastSet_snoc, Option.or_eq_none_iff, ih]
    simp only [List.mem_append, List.mem_singleton]
    constructor
    · rintro ⟨hlast, hall⟩ call' (hm | rfl)
      · exact hall call' hm
      · exact hlast
    · exact fun hall => ⟨hall call (.inr rfl), fun call' hm => hall call' (.inl hm)⟩

end Column

section Replay

variable {r : Str} {t : Rows} {row : ComparisonRow} {record : PendingComparison}

lemma lookup_execute (h : lookup r t = some row) (call : StoreCall) :
    ∃ row', lookup r (call.execute t) = some row' ∧
    ∀ {α : Type} (c : Column α), c.ofRow row' = (c.setBy r call).or (c.ofRow row) := by
  cases call with
  | insertPending record =>
    exact ⟨row, Data.Table.lookup_append_of_some h (newRow record), fun c => rfl⟩
  | markInProgress now id =>
    simp only [StoreCall.execute, lookup_markInProgress, h]
    split
    · exact ⟨markedInProgress now row, rfl, fun c => c.ofRow_markedInProgress now row⟩
    · exact ⟨row, rfl, fun c => rfl⟩
  | finalize now id patch =>
    simp only [StoreCall.execute, lookup_finalize, h, Column.setBy]
    split
    · exact ⟨finalized now patch row, rfl, fun c => c.ofRow_finalized now patch row⟩
    · exact ⟨row, rfl, fun c => rfl⟩

lemma lookup_history (h : lookup r t = some (newRow record)) (calls : List StoreCall) :
    ∃ row, lookup r (calls.foldl StoreCall.execute t) = some row ∧ ∀ {α : Type} (c : Column α),
      c.ofRow row = c.lastSet r calls := by
  induction calls using List.reverseRecOn with
  | nil => exact ⟨newRow record, h, fun c => c.ofRow_newRow record⟩
  | append_singleton calls call ih =>
    obtain ⟨row, hrow, hcols⟩ := ih
    obtain ⟨row', hrow', hcols'⟩ := lookup_execute hrow call
    refine ⟨row', by rwa [List.foldl_append], fun c => ?_⟩
    rw [hcols' c, hcols c, Column.lastSet_snoc]

structure Describes (patch : FinalizePatch) (row : ComparisonRow) : Prop where
  candidateLatencyMs : row.candidateLatencyMs = patch.candidateLatencyMs
  candidateAction : row.candidateAction = patch.candidateAction
  candidateError : row.candidateError = patch.candidateError

/-- No call before has set a column that the patch leaves. -/
def Column.Clean {α : Type} (c : Column α) (r : Str) (calls : List StoreCall) (patch : FinalizePatch) : Prop :=
  c.ofPatch patch = none → ∀ call ∈ calls, c.setBy r call = none

theorem finalize_columns (h : lookup r t = some (newRow record)) (calls : List StoreCall) (now : DateTime)
    (patch : FinalizePatch) :
    ∃ row, lookup r (finalize now r patch (calls.foldl StoreCall.execute t)) = some row ∧
      row.candidateLatencyMs = patch.candidateLatencyMs.or (Column.candidateLatencyMs.lastSet r calls) ∧
      row.candidateAction = patch.candidateAction.or (Column.candidateAction.lastSet r calls) ∧
      row.candidateError = patch.candidateError.or (Column.candidateError.lastSet r calls) ∧
      (Describes patch row ↔ Column.candidateLatencyMs.Clean r calls patch ∧
        Column.candidateAction.Clean r calls patch ∧ Column.candidateError.Clean r calls patch) := by
  obtain ⟨row₀, hrow₀, hcols₀⟩ := lookup_history h calls
  refine ⟨finalized now patch row₀, ?_, ?_⟩
  · rw [lookup_finalize, if_pos rfl, hrow₀]
    rfl
  have hcols : ∀ {α : Type} (c : Column α), c.ofRow (finalized now patch row₀) =
      (c.ofPatch patch).or (c.lastSet r calls) := by
    intro α c
    rw [c.ofRow_finalized, hcols₀]
  have hclean : ∀ {α : Type} (c : Column α), c.ofRow (finalized now patch row₀) = c.ofPatch patch ↔
      c.Clean r calls patch := by
    intro α c
    rw [hcols, Column.Clean, ← c.lastSet_eq_none]
    cases c.ofPatch patch <;> simp
  refine ⟨hcols .candidateLatencyMs, hcols .candidateAction, hcols .candidateError, ?_⟩
  rw [← hclean, ← hclean, ← hclean]
  exact ⟨fun hd => ⟨hd.1, hd.2, hd.3⟩, fun ⟨h₁, h₂, h₃⟩ => ⟨h₁, h₂, h₃⟩⟩

def leftoverRecord : PendingComparison where
  requestId := "a"
  receivedAt := morning
  route := "default"
  tenantId := none
  sessionId := none
  requestHash := "hash"
  rawObjectKey := none
  primaryModel := "primary-model"
  primaryStatus := .ok
  primaryLatencyMs := 0
  primaryAction := none
  primaryError := none
  candidateModel := "candidate-model"

def failedOnce : List StoreCall :=
  [.markInProgress morning "a", .finalize morning "a" (CandidateHandler.errorPatch "boom" "error" 5 morning)]

theorem finalize_columns_stale : lookup "a" [newRow leftoverRecord] = some (newRow leftoverRecord) ∧
    ∃ row, lookup "a" (finalize anHourLater "a" (Sweeper.stalePatch anHourLater)
        (failedOnce.foldl StoreCall.execute [newRow leftoverRecord])) = some row ∧
      row.candidateLatencyMs = Option.or none (Column.candidateLatencyMs.lastSet "a" failedOnce) ∧
      row.candidateAction = Option.or none (Column.candidateAction.lastSet "a" failedOnce) ∧
      row.candidateError = Option.or none (Column.candidateError.lastSet "a" failedOnce) ∧
      (Describes (Sweeper.stalePatch anHourLater) row ↔
        Column.candidateLatencyMs.Clean "a" failedOnce (Sweeper.stalePatch anHourLater) ∧
        Column.candidateAction.Clean "a" failedOnce (Sweeper.stalePatch anHourLater) ∧
        Column.candidateError.Clean "a" failedOnce (Sweeper.stalePatch anHourLater)) :=
  ⟨rfl, finalize_columns rfl failedOnce anHourLater (Sweeper.stalePatch anHourLater)⟩

end Replay

section Runs

variable {dep : Deployment} {clock : DateTime} {w w' : ProxyWorld dep} {L : List (ProxyLabel dep)}
  {l : ProxyLabel dep} {r : Str}

def callOf (now : DateTime) : ProxyLabel dep → Option StoreCall
  | .act _ ⟨.insertPending record, .ok ()⟩ => some (.insertPending record)
  | .act _ ⟨.markInProgress requestId, .ok ()⟩ => some (.markInProgress now requestId)
  | .act _ ⟨.finalize requestId patch, .ok ()⟩ => some (.finalize now requestId patch)
  | _ => none

def storeCalls (now : DateTime) : List (ProxyLabel dep) → List StoreCall
  | [] => []
  | l :: L => (callOf now l).toList ++ storeCalls (clockAfter now l) L

lemma storeCalls_append (now : DateTime) (L L' : List (ProxyLabel dep)) :
    storeCalls now (L ++ L') = storeCalls now L ++ storeCalls (L.foldl clockAfter now) L' := by
  induction L generalizing now with
  | nil => rfl
  | cons l L ih => simp only [List.cons_append, storeCalls, ih, List.append_assoc, List.foldl_cons]

lemma rows_execute (hs : Step w l w') :
    w'.state.rows = (callOf w.state.clock l).toList.foldl StoreCall.execute w.state.rows := by
  cases hs with
  | spawn ht hc => exact onSpawn_rows _ _
  | @act t k o f res ht hl =>
    cases o
    case rawPut id payload =>
      simp only [World.act, after, State.write]
      split <;> rfl
    all_goals
      cases res <;> rfl
  | exit ht hd => exact onExit_rows _ _
  | env he => exact onEnv_rows _ _
  | crash => rfl

lemma Run.rows_eq {L₁ L₂ : List (ProxyLabel dep)} {w₁ : ProxyWorld dep} (h₁ : Run (start dep clock) L₁ w₁)
    (h : Run (start dep clock) (L₁ ++ L₂) w) :
    w.state.rows = (storeCalls w₁.state.clock L₂).foldl StoreCall.execute w₁.state.rows := by
  induction L₂ using List.reverseRecOn generalizing w with
  | nil =>
    rw [List.append_nil] at h
    rw [RunWhere.unique h h₁]
    rfl
  | append_singleton L₂ l ih =>
    rw [← List.append_assoc] at h
    obtain ⟨w₂, h₂, -, hs⟩ := h.snoc_inv
    have hclock : L₂.foldl clockAfter w₁.state.clock = w₂.state.clock := by
      rw [Run.clock_eq h₁, Run.clock_eq h₂, List.foldl_append]
    rw [rows_execute hs, ih h₂, storeCalls_append, hclock, List.foldl_append]
    simp [storeCalls]

lemma Run.row_history (h : Run (start dep clock) L w) {row : ComparisonRow} (hrow : w.state.row r = some row) :
    ∃ t record before calls, storeCalls clock L = before ++ .insertPending record :: calls ∧
      lookup r t = some (newRow record) ∧ w.state.rows = calls.foldl StoreCall.execute t := by
  obtain ⟨rfl, u, ha⟩ := Run.row_inserted h hrow
  obtain ⟨L₁, L₂, w₁, w₂, rfl, h₁, hs⟩ := Run.split h ha
  have h₂ := h₁.snoc hs
  rw [← List.singleton_append, ← List.append_assoc] at h
  refine ⟨w₂.state.rows, row.toPendingComparison, storeCalls clock L₁, storeCalls w₂.state.clock L₂, ?_, ?_,
    Run.rows_eq h₂ h⟩
  · rw [storeCalls_append, storeCalls, ← Run.clock_eq h₁, ← clock_step hs]
    rfl
  · cases hs with
    | act ht hl => exact (row_insertPending hl _).trans (if_pos rfl)

end Runs

theorem stale_row_keeps_action :
    ∃ (L : List (ProxyLabel disk)) (w w' : ProxyWorld disk) (patch : FinalizePatch) (row : ComparisonRow),
      Run (start disk morning) L w ∧ Started L 2 .sweep ∧ Step w (.act 2 ⟨.finalize "a" patch, .ok ()⟩) w' ∧
      w'.state.row "a" = some row ∧ row.candidateStatus = .timeoutStale ∧ patch.candidateAction = none ∧
      row.candidateAction = some "buy".toList ∧ ¬ Describes patch row := by
  obtain ⟨L, w, l, w', hr, hs, hP⟩ := (driver disk).exists_run_step (C := fun _ _ _ => True)
    (c := fun _ _ _ => true)
    (fun _ => trivial) (start disk morning)
    (boot 0 ++ begin 1 (.chat (demoChat "a" "hi")) ++ acts 13 1 (replies buy) ++ tick anHourLater ++
      begin 2 .sweep ++
      acts 1 2 (replies buy) ++ begin 3 (.handle ⟨"a", 1⟩) ++ acts 10 3 (replies buy) ++ acts 1 2 (replies buy))
    (.act 2 (replies buy)) (fun L w l => L.any (spawned 2 isSweep) && givesUp 2 "a" l &&
      (w.state.row "a").any fun row => row.candidateAction = some "buy".toList) (by decide +kernel)
  simp only [Bool.and_eq_true, decide_eq_true_eq, Option.any_eq_true] at hP
  obtain ⟨⟨hst, hl⟩, row, hrow, haction⟩ := hP
  obtain ⟨patch, hp, rfl⟩ := givesUp_sound hl
  have hst := started_sweep hst
  obtain ⟨task, hst', hspec⟩ := Run.issued hr hs
  obtain rfl := Run.started_unique hr hst hst'
  obtain ⟨ids, now, -, -, rfl⟩ := hspec
  refine ⟨L, w, w', Sweeper.stalePatch now, finalized w.state.clock (Sweeper.stalePatch now) row, hr, hst,
    hs, ?_, hp, rfl, haction, fun hd => ?_⟩
  · rw [finalize_row hs, hrow]
    rfl
  · have hnone : row.candidateAction = none := hd.candidateAction
    simp [haction] at hnone

end ShadowProxy

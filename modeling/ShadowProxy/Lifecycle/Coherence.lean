import ShadowProxy.Lifecycle.Exclusion

/-! What the columns of a row say about each other, whoever has written them. -/

namespace ShadowProxy

open Effects SqlComparisonStore JsonActionEvaluator

variable {dep : Deployment} {clock : DateTime} {w w' : ProxyWorld dep} {L : List (ProxyLabel dep)}
  {l : ProxyLabel dep} {t : ℕ} {r : Str} {row : ComparisonRow}

structure Coherent (row : ComparisonRow) : Prop where
  pending : row.candidateStatus = .pending → row.attemptCount = 0 ∧ row.evaluatedAt = none ∧
    row.verdict = if row.primaryStatus = .ok then .pending else .primaryError
  inProgress : row.candidateStatus = .inProgress → row.primaryStatus = .ok ∧ 1 ≤ row.attemptCount
  ok : row.candidateStatus = .ok → Comparison row.verdict ∧ row.primaryStatus = .ok ∧
    row.candidateLatencyMs.isSome ∧ row.evaluatedAt.isSome ∧ 1 ≤ row.attemptCount
  error : row.candidateStatus = .error → row.verdict = .candidateError ∧ row.candidateError.isSome ∧
    row.candidateLatencyMs.isSome ∧ 1 ≤ row.attemptCount
  timeoutStale : row.candidateStatus = .timeoutStale → row.verdict = .candidateError ∧ row.evaluatedAt.isSome
  dropped : row.candidateStatus = .dropped → row.verdict = .primaryError ∧ row.primaryStatus ≠ .ok

def isMark (r : Str) : ProxyLabel dep → Bool
  | .act _ ⟨.markInProgress id, .ok ()⟩ => id = r
  | _ => false

def marksOf (L : List (ProxyLabel dep)) (r : Str) : ℕ := L.countP (isMark r)

lemma isMark_iff : isMark r l = true ↔ ∃ t, l = .act t ⟨.markInProgress r, .ok ()⟩ := by
  constructor
  · intro h
    unfold isMark at h
    split at h
    · exact ⟨_, by rw [of_decide_eq_true h]⟩
    · cases h
  · rintro ⟨t, rfl⟩
    simp [isMark]

lemma marksOf_mark (L : List (ProxyLabel dep)) (t : ℕ) (r : Str) :
    marksOf (L ++ [.act t ⟨.markInProgress r, .ok ()⟩]) r = marksOf L r + 1 := by
  simp [marksOf, isMark]

lemma marksOf_snoc (hl : ∀ t, l ≠ .act t ⟨.markInProgress r, .ok ()⟩) : marksOf (L ++ [l]) r = marksOf L r := by
  have hm : isMark r l = false := Bool.eq_false_iff.mpr fun h => (isMark_iff.mp h).elim hl
  simp [marksOf, hm]

lemma marksOf_pos (ha : Acted L t (.markInProgress r) (.ok ())) : 1 ≤ marksOf L r :=
  List.countP_pos_iff.mpr ⟨_, ha, isMark_iff.mpr ⟨t, rfl⟩⟩

lemma marksOf_absent (h : Run (start dep clock) L w) (hn : w.state.row r = none) : marksOf L r = 0 := by
  refine List.countP_eq_zero.mpr fun l hl hm => ?_
  obtain ⟨t, rfl⟩ := isMark_iff.mp hm
  have ha : Acted L t (.markInProgress r) (.ok ()) := hl
  obtain ⟨row, hrow, -⟩ := marked_eligible h ha
  simp [hn] at hrow

lemma coherent_newRow (record : PendingComparison) : Coherent (newRow record) := by
  constructor <;> intro hs
  case pending =>
    refine ⟨rfl, rfl, ?_⟩
    by_cases hp : record.primaryStatus = .ok <;> simp [newRow, hp]
  all_goals cases hs

lemma coherent_markedInProgress (now : DateTime) (hp : row.primaryStatus = .ok) :
    Coherent (markedInProgress now row) := by
  constructor <;> intro hs
  case inProgress => exact ⟨hp, Nat.le_add_left 1 _⟩
  all_goals cases hs

lemma coherent_dropped (now at_ : DateTime) (hp : row.primaryStatus ≠ .ok) :
    Coherent (finalized now (CandidateHandler.droppedPatch at_) row) := by
  constructor <;> intro hs
  case dropped => exact ⟨rfl, hp⟩
  all_goals cases hs

lemma coherent_failed (now at_ : DateTime) (error label : Str) (latencyMs : ℤ) (hc : 1 ≤ row.attemptCount) :
    Coherent (finalized now (CandidateHandler.errorPatch error label latencyMs at_) row) := by
  constructor <;> intro hs
  case error => exact ⟨rfl, rfl, rfl, hc⟩
  all_goals cases hs

lemma coherent_evaluated (now at_ : DateTime) {result : EvaluationResult} (latencyMs : ℤ)
    (hv : Comparison result.verdict) (hp : row.primaryStatus = .ok) (hc : 1 ≤ row.attemptCount) :
    Coherent (finalized now (CandidateHandler.okPatch result latencyMs at_) row) := by
  constructor <;> intro hs
  case ok => exact ⟨hv, hp, rfl, rfl, hc⟩
  all_goals cases hs

lemma coherent_swept (now at_ : DateTime) : Coherent (finalized now (Sweeper.stalePatch at_) row) := by
  constructor <;> intro hs
  case timeoutStale => exact ⟨rfl, rfl⟩
  all_goals cases hs

lemma handler_marked_first (h : Run (start dep clock) L w) {job : CandidateJob} {patch : FinalizePatch}
    (hst : Started L t (.handle job)) (hs : Step w (.act t ⟨.finalize r patch, .ok ()⟩) w')
    (hp : patch.candidateStatus ≠ .dropped) : Acted L t (.markInProgress job.requestId) (.ok ()) := by
  obtain ⟨k, hk, -, -, hJ⟩ := (Run.tracked h fun _ => rfl).issued hs
  obtain ⟨x, task⟩ := k
  obtain rfl := Run.started_unique h hst ⟨x, hk⟩
  have hm := hJ _ (CandidateHandler.issues_markedFirst dep job)
  exact did_history.mp (hm.resolve_left hp)

lemma coherent_finalize (h : Run (start dep clock) L w) {patch : FinalizePatch}
    (hs : Step w (.act t ⟨.finalize r patch, .ok ()⟩) w') (hrow : w.state.row r = some row)
    (hc : row.attemptCount = marksOf L r) : Coherent (finalized w.state.clock patch row) := by
  obtain ⟨task, hst, hspec⟩ := Run.issued h hs
  have hfetched : ∀ {record}, CandidateHandler.Fetched (history t L) r record →
      row.primaryStatus = record.primaryStatus := by
    intro record hf
    obtain ⟨row', hrow', hp⟩ := Run.get_row h (did_history.mp hf)
    obtain rfl := Option.some.inj (hrow.symm.trans hrow')
    exact congrArg PendingComparison.primaryStatus hp
  cases task with
  | handle job =>
    obtain ⟨rfl, record, hf⟩ := hspec
    have hpos : patch.candidateStatus ≠ .dropped → 1 ≤ row.attemptCount := by
      intro hp
      rw [hc]
      exact marksOf_pos (handler_marked_first h hst hs hp)
    cases hf with
    | dropped now hd hp =>
      apply coherent_dropped
      rwa [hfetched hd]
    | failed error label latencyMs now hsh =>
      apply coherent_failed
      exact hpos (by simp [CandidateHandler.errorPatch])
    | evaluated latencyMs now he =>
      apply coherent_evaluated
      · exact evaluate_verdict he.result_eq
      · exact (hfetched he.shadowed.1).trans he.shadowed.2
      · exact hpos (by simp [CandidateHandler.okPatch])
  | sweep =>
    obtain ⟨ids, now, -, -, rfl⟩ := hspec
    exact coherent_swept _ _
  | _ => exact hspec.elim

lemma coherent_step (h : Run (start dep clock) L w) (hs : Step w l w')
    (ih : ∀ row, w.state.row r = some row → Coherent row ∧ row.attemptCount = marksOf L r)
    (hrow : w'.state.row r = some row) : Coherent row ∧ row.attemptCount = marksOf (L ++ [l]) r := by
  by_cases hm : ∃ t, l = .act t ⟨.markInProgress r, .ok ()⟩
  · obtain ⟨t, rfl⟩ := hm
    rw [mark_row hs] at hrow
    obtain ⟨row₀, hrow₀, rfl⟩ := Option.map_eq_some_iff.mp hrow
    obtain ⟨task, -, hspec⟩ := Run.issued h hs
    have he : Eligible w.state r := by
      cases task with
      | handle job =>
        obtain ⟨rfl, record, hsh⟩ := hspec
        exact eligible_of_shadowed h hsh
      | _ => exact hspec.elim
    obtain ⟨row', hrow', hp⟩ := he
    obtain rfl := Option.some.inj (hrow₀.symm.trans hrow')
    refine ⟨coherent_markedInProgress _ hp, ?_⟩
    rw [marksOf_mark, ← (ih _ hrow₀).2]
    rfl
  have hcount : marksOf (L ++ [l]) r = marksOf L r := marksOf_snoc fun t hl => hm ⟨t, hl⟩
  rw [hcount]
  have hstep := rowStep hs r
  rw [hrow] at hstep
  generalize ha : some row = after at hstep
  cases hstep with
  | same => exact ih row ha.symm
  | @insert t record hid hn =>
    obtain rfl := Option.some.inj ha
    exact ⟨coherent_newRow record, (marksOf_absent h hn).symm⟩
  | mark => exact absurd ⟨_, rfl⟩ hm
  | @finalize t patch =>
    obtain ⟨row₀, hrow₀, rfl⟩ := Option.map_eq_some_iff.mp ha.symm
    obtain ⟨-, hc⟩ := ih _ hrow₀
    exact ⟨coherent_finalize h hs hrow₀ hc, hc⟩

theorem rows_coherent (h : Run (start dep clock) L w) (hrow : w.state.row r = some row) :
    Coherent row ∧ row.attemptCount = marksOf L r := by
  induction h generalizing row with
  | nil => cases hrow
  | snoc hr _ hs ih => exact coherent_step hr hs (fun row hrow => ih hrow) hrow

theorem rows_coherent_scaled_out :
    ∃ (L : List (ProxyLabel (demo none))) (w : ProxyWorld (demo none)) (row : ComparisonRow),
      Run (start (demo none) morning) L w ∧ w.state.row "a" = some row ∧ row.candidateStatus = .ok ∧
      marksOf L "a" = 2 ∧ (Coherent row ∧ row.attemptCount = marksOf L "a") := by
  obtain ⟨L, w, hr, hP⟩ := (driver (demo none)).exists_free_run (start (demo none) morning)
    (scaleOut.1 ++ scaleOut.2)
    (fun L w => marksOf L "a" = 2 && (w.state.row "a").any fun row => row.candidateStatus = .ok)
    (by decide +kernel)
  simp only [Bool.and_eq_true, decide_eq_true_eq, Option.any_eq_true] at hP
  obtain ⟨hm, row, hrow, hs⟩ := hP
  exact ⟨L, w, row, hr, hrow, hs, hm, rows_coherent hr hrow⟩

end ShadowProxy

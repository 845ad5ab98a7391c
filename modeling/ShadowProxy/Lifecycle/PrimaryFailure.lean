import ShadowProxy.Scenario

/-! When a row whose primary call failed keeps the verdict it was inserted with. -/

namespace ShadowProxy

open Effects SqlComparisonStore

variable {dep : Deployment} {clock : DateTime} {w w' : ProxyWorld dep} {L : List (ProxyLabel dep)}
  {l : ProxyLabel dep}

def PrimaryErrorsKept (s : State) : Prop := ∀ row ∈ s.rows, row.primaryStatus ≠ .ok → row.verdict = .primaryError

def SparesPrimaryErrors (L : List (ProxyLabel dep)) (w : ProxyWorld dep) (l : ProxyLabel dep) : Prop :=
  ∀ t r patch, l = .act t ⟨.finalize r patch, .ok ()⟩ → Started L t .sweep →
    ∀ row, w.state.row r = some row → row.primaryStatus = .ok

lemma kept_iff (h : Run (start dep clock) L w) : PrimaryErrorsKept w.state ↔
    ∀ r row, w.state.row r = some row → row.primaryStatus ≠ .ok → row.verdict = .primaryError := by
  constructor
  · exact fun hk r row hr => hk row (Data.Table.mem_of_lookup hr).1
  · exact fun hk row hm => hk row.requestId row (Run.row_of_mem h hm)

lemma handler_patch (h : Run (start dep clock) L w) {t : ℕ} {r : Str} {patch : FinalizePatch}
    (hs : Step w (.act t ⟨.finalize r patch, .ok ()⟩) w') (hn : ¬ Started L t .sweep) {row : ComparisonRow}
    (hr : w.state.row r = some row) (hp : row.primaryStatus ≠ .ok) : patch.verdict = .primaryError := by
  obtain ⟨task, ht, hspec⟩ := Run.issued h hs
  have hok : ∀ {record}, CandidateHandler.Shadowed (history t L) r record → False := fun hsh => by
    obtain ⟨row', hr', he⟩ := Run.get_row h (did_history.mp hsh.1)
    obtain rfl := Option.some.inj (hr.symm.trans hr')
    exact hp ((congrArg PendingComparison.primaryStatus he).trans hsh.2)
  cases task with
  | handle job =>
    obtain ⟨rfl, record, hf⟩ := hspec
    cases hf with
    | dropped => rfl
    | failed _ _ _ _ hsh => exact (hok hsh).elim
    | evaluated _ _ he => exact (hok he.shadowed).elim
  | sweep => exact absurd ht hn
  | chat | startup => exact hspec.elim

lemma kept_step (h : Run (start dep clock) L w) (hc : SparesPrimaryErrors L w l) (hs : Step w l w')
    (hk : PrimaryErrorsKept w.state) : PrimaryErrorsKept w'.state := by
  rw [kept_iff h] at hk
  rw [kept_iff (h.snoc hs)]
  intro r row hr hp
  have hstep := rowStep hs r
  rw [hr] at hstep
  generalize ha : some row = after at hstep
  cases hstep with
  | same => exact hk r row ha.symm hp
  | @insert t record =>
    obtain rfl := Option.some.inj ha
    exact if_pos hp
  | mark =>
    obtain ⟨row₀, hr₀, rfl⟩ := Option.map_eq_some_iff.mp ha.symm
    exact hk r row₀ hr₀ hp
  | @finalize t patch =>
    obtain ⟨row₀, hr₀, rfl⟩ := Option.map_eq_some_iff.mp ha.symm
    exact handler_patch h hs (fun hsw => hp (hc t r patch rfl hsw row₀ hr₀)) hr₀ hp

lemma sweep_breaks (h : Run (start dep clock) L w) {t : ℕ} {r : Str} {patch : FinalizePatch}
    (hs : Step w (.act t ⟨.finalize r patch, .ok ()⟩) w') (hsw : Started L t .sweep) {row : ComparisonRow}
    (hr : w.state.row r = some row) (hk : PrimaryErrorsKept w'.state) : row.primaryStatus = .ok := by
  by_contra hp
  obtain ⟨task, ht, hspec⟩ := Run.issued h hs
  obtain rfl := Run.started_unique h ht hsw
  obtain ⟨ids, now, _, _, rfl⟩ := hspec
  have hr' : w'.state.row r = some (finalized w.state.clock (Sweeper.stalePatch now) row) := by
    rw [finalize_row hs, hr]
    rfl
  have hv := (kept_iff (h.snoc hs)).mp hk r _ hr' hp
  cases hv

theorem primary_errors_kept_iff (h : Run (start dep clock) L w) :
    (∀ L₁ w₁, L₁ <+: L → Run (start dep clock) L₁ w₁ → PrimaryErrorsKept w₁.state) ↔
      RunWhere SparesPrimaryErrors (start dep clock) L w := by
  constructor
  · intro hk
    induction h with
    | nil => exact .nil
    | @snoc L w l w' hr _ hs ih =>
      refine .snoc (ih fun L₁ w₁ hL => hk L₁ w₁ (hL.trans (List.prefix_append _ _))) ?_ hs
      rintro t r patch rfl hsw row hrow
      exact sweep_breaks hr hs hsw hrow (hk _ _ List.prefix_rfl (Run.snoc hr hs))
  · rintro hw L₁ w₁ ⟨L₂, rfl⟩ h₁
    obtain ⟨w₁', hw₁⟩ := hw.prefix
    obtain rfl := h₁.unique hw₁.run
    clear hw h h₁
    induction hw₁ with
    | nil => exact fun row hm => by cases hm
    | snoc hr hc hs ih => exact kept_step hr.run hc hs ih

def withoutFinalize (_ : List (ProxyLabel dep)) (_ : ProxyWorld dep) : ProxyLabel dep → Bool
  | .act _ ⟨.finalize _ _, _⟩ => false
  | _ => true

lemma withoutFinalize_spares (h : withoutFinalize L w l = true) : SparesPrimaryErrors L w l := by
  rintro t r patch rfl
  cases h

def failedPrimary : List (DemoCommand none) :=
  boot 0 ++ begin 1 (.chat (demoChat "a" "hi")) ++ acts 6 1 timesOut ++ [.exit 1] ++ tick anHourLater

def sweepFailedPrimary : List (DemoCommand none) := failedPrimary ++ begin 2 .sweep ++ acts 3 2 timesOut

theorem primary_errors_kept_failed_primary : ∃ (L : List (ProxyLabel (demo none))) (w : ProxyWorld (demo none)),
    Run (start (demo none) morning) L w ∧ (∃ row ∈ w.state.rows, row.primaryStatus = .timeout) ∧
      ∀ L₁ w₁, L₁ <+: L → Run (start (demo none) morning) L₁ w₁ → PrimaryErrorsKept w₁.state := by
  obtain ⟨L, w, h, hP⟩ := (driver (demo none)).exists_run (C := SparesPrimaryErrors)
    (c := withoutFinalize) withoutFinalize_spares (start (demo none) morning) failedPrimary
    (fun _ w => w.state.rows.any fun row => row.primaryStatus = .timeout) (by decide +kernel)
  exact ⟨L, w, h.run, by simpa using hP, (primary_errors_kept_iff h.run).mpr h⟩

theorem primary_failure_swept_as_candidate_error :
    ∃ (L : List (ProxyLabel (demo none))) (w : ProxyWorld (demo none)), Run (start (demo none) morning) L w ∧
      ∃ row ∈ w.state.rows, row.primaryStatus = .timeout ∧ row.verdict = .candidateError := by
  obtain ⟨L, w, h, hP⟩ := (driver (demo none)).exists_free_run (start (demo none) morning) sweepFailedPrimary
    (fun _ w => w.state.rows.any fun row => row.primaryStatus = .timeout && row.verdict = .candidateError)
    (by decide +kernel)
  exact ⟨L, w, h, by simpa using hP⟩

end ShadowProxy

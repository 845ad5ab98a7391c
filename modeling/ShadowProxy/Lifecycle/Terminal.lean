import ShadowProxy.Scenario

/-! When a row that has reached a terminal state stays as it is. -/

namespace ShadowProxy

open Effects SqlComparisonStore

variable {dep : Deployment} {clock : DateTime} {w w' : ProxyWorld dep} {L : List (ProxyLabel dep)}
  {l : ProxyLabel dep} {t : ℕ} {r : Str}

def SawUnfinished (r : Str) : Ev → Prop
  | ⟨.get id, .ok (some row)⟩ => id = r ∧ row.candidateStatus.unfinished
  | ⟨.findStale _ _, .ok ids⟩ => r ∈ ids
  | _ => False

/-- The thread has read the row unfinished, and nobody has finalized it since. -/
def UpToDate (L : List (ProxyLabel dep)) (t : ℕ) (r : Str) : Prop :=
  ∃ L₁ L₂ e, L = L₁ ++ .act t e :: L₂ ∧ SawUnfinished r e ∧
    ∀ t' patch, ¬ Acted L₂ t' (.finalize r patch) (.ok ())

inductive WritesStatus (t : ℕ) (r : Str) : ProxyLabel dep → Prop
  | mark : WritesStatus t r (.act t ⟨.markInProgress r, .ok ()⟩)
  | finalize (patch : FinalizePatch) : WritesStatus t r (.act t ⟨.finalize r patch, .ok ()⟩)

def FreshWrites (L : List (ProxyLabel dep)) (_ : ProxyWorld dep) (l : ProxyLabel dep) : Prop :=
  ∀ t r, WritesStatus t r l → UpToDate L t r

lemma upToDate_snoc (h : UpToDate (L ++ [l]) t r) :
    (∃ e, l = .act t e ∧ SawUnfinished r e) ∨
      UpToDate L t r ∧ ∀ t' patch, l ≠ .act t' ⟨.finalize r patch, .ok ()⟩ := by
  obtain ⟨L₁, L₂, e, hL, he, hf⟩ := h
  induction L₂ using List.reverseRecOn with
  | nil =>
    obtain ⟨rfl, hl⟩ := List.append_inj' hL rfl
    exact .inl ⟨e, List.singleton_inj.mp hl, he⟩
  | append_singleton L₂ l' _ =>
    have hL' : L ++ [l] = (L₁ ++ .act t e :: L₂) ++ [l'] := by rw [hL]; simp
    obtain ⟨rfl, hl⟩ := List.append_inj' hL' rfl
    obtain rfl := List.singleton_inj.mp hl
    refine .inr ⟨⟨L₁, L₂, e, rfl, he, fun t' patch ha => hf t' patch (ha.snoc l)⟩, ?_⟩
    rintro t' patch rfl
    exact hf t' patch (acted_snoc.mpr (.inr rfl))

lemma findStale_unfinished (h : Run (start dep clock) L w) {threshold : ℤ} {limit : ℕ} {ids : List Str}
    (hf : FindStale w.state.clock threshold limit w.state.rows ids) (hr : r ∈ ids) {row : ComparisonRow}
    (hrow : w.state.row r = some row) : row.candidateStatus.unfinished := by
  obtain ⟨row', hm, rfl⟩ := List.mem_map.mp (hf.1.subset hr)
  obtain ⟨hm, hs⟩ := List.mem_filter.mp hm
  have he := hrow.symm.trans (Run.row_of_mem h hm)
  obtain rfl := Option.some.inj he
  exact (Bool.and_eq_true_iff.mp hs).1

lemma saw_unfinished (h : Run (start dep clock) L w) {e : Ev} (hs : Step w (.act t e) w') (he : SawUnfinished r e)
    {row : ComparisonRow} (hrow : w'.state.row r = some row) : row.candidateStatus.unfinished := by
  obtain ⟨k, -, hl, ha, -⟩ := (h.tracked fun _ => rfl).issued hs
  rw [ha] at hrow
  obtain ⟨o, res⟩ := e
  cases o <;> cases res <;> try exact he.elim
  case get.ok id record =>
    cases record with
    | none => exact he.elim
    | some record =>
      obtain ⟨rfl, hu⟩ := he
      have heq : some record = some row := hl.trans hrow
      exact Option.some.inj heq ▸ hu
  case findStale.ok threshold limit ids => exact findStale_unfinished h hl he hrow

lemma upToDate_unfinished (h : Run (start dep clock) L w) (hu : UpToDate L t r) {row : ComparisonRow}
    (hrow : w.state.row r = some row) : row.candidateStatus.unfinished := by
  induction h generalizing row with
  | nil => cases hrow
  | @snoc L w l w' hr _ hs ih =>
    rcases upToDate_snoc hu with ⟨e, rfl, he⟩ | ⟨hu, hf⟩
    · exact saw_unfinished hr hs he hrow
    · have hstep := rowStep hs r
      rw [hrow] at hstep
      generalize ha : some row = after at hstep
      cases hstep with
      | same => exact ih hu ha.symm
      | insert => exact Option.some.inj ha ▸ rfl
      | mark =>
        obtain ⟨_, _, rfl⟩ := Option.map_eq_some_iff.mp ha.symm
        rfl
      | finalize => exact absurd rfl (hf _ _)

lemma terminal_step (h : RunWhere FreshWrites (start dep clock) L w) (hc : FreshWrites L w l) (hs : Step w l w')
    {row : ComparisonRow} (hrow : w.state.row r = some row) (ht : row.candidateStatus.unfinished = false) :
    w'.state.row r = some row := by
  have hne : ∀ t, WritesStatus t r l → False := fun t hw => by
    have hu := upToDate_unfinished h.run (hc t r hw) hrow
    simp [ht] at hu
  have hstep := rowStep hs r
  generalize w'.state.row r = after at hstep
  cases hstep with
  | same => exact hrow
  | insert _ hn => simp [hrow] at hn
  | mark => exact (hne _ .mark).elim
  | finalize => exact (hne _ (.finalize _)).elim

theorem terminal_row_final {L₁ L₂ : List (ProxyLabel dep)} {w₁ w₂ : ProxyWorld dep}
    (h₁ : RunWhere FreshWrites (start dep clock) L₁ w₁) (h₂ : RunWhere FreshWrites (start dep clock) (L₁ ++ L₂) w₂)
    {row : ComparisonRow} (hrow : w₁.state.row r = some row) (ht : row.candidateStatus.unfinished = false) :
    w₂.state.row r = some row :=
  h₁.keep h₂ (P := fun w : ProxyWorld dep => w.state.row r = some row) hrow fun hr hc hs hw =>
    terminal_step hr hc hs hw ht

section Computed

instance (r : Str) (e : Ev) : Decidable (SawUnfinished r e) := by
  unfold SawUnfinished
  split <;> infer_instance

def upToDate (t : ℕ) (r : Str) : List (ProxyLabel dep) → Bool
  | [] => false
  | .act t' ⟨o, res⟩ :: L =>
    (t' = t && SawUnfinished r ⟨o, res⟩) ||
      (match o, res with
        | .finalize id _, .ok () => id ≠ r
        | _, _ => true) && upToDate t r L
  | _ :: L => upToDate t r L

lemma upToDate_sound {L : List (ProxyLabel dep)} (h : upToDate t r L = true) : UpToDate L.reverse t r := by
  induction L with
  | nil => cases h
  | cons l L ih =>
    have hgo : UpToDate L.reverse t r → (∀ t' patch, l ≠ .act t' ⟨.finalize r patch, .ok ()⟩) →
        UpToDate (l :: L).reverse t r := by
      rintro ⟨L₁, L₂, e, hL, he, hf⟩ hl
      refine ⟨L₁, L₂ ++ [l], e, by simp [hL], he, fun t' patch ha => ?_⟩
      rcases acted_snoc.mp ha with ha | ha
      · exact hf t' patch ha
      · exact hl t' patch ha
    cases l with
    | act t' e =>
      obtain ⟨o, res⟩ := e
      simp only [upToDate, Bool.or_eq_true, Bool.and_eq_true, decide_eq_true_eq] at h
      rcases h with ⟨rfl, he⟩ | ⟨hf, h⟩
      · exact ⟨L.reverse, [], _, by simp, he, by simp [Acted]⟩
      · apply hgo (ih h)
        rintro u patch heq
        cases heq
        simp at hf
    | _ => exact hgo (ih h) (by simp)

def freshWrites (L : List (ProxyLabel dep)) (_ : ProxyWorld dep) : ProxyLabel dep → Bool
  | .act t ⟨.markInProgress r, .ok ()⟩ => upToDate t r L.reverse
  | .act t ⟨.finalize r _, .ok ()⟩ => upToDate t r L.reverse
  | _ => true

lemma freshWrites_sound (h : freshWrites L w l = true) : FreshWrites L w l := by
  rintro t r hw
  cases hw <;> simpa using upToDate_sound h

def oneRequest : List (DemoCommand none) × List (DemoCommand none) :=
  (boot 0 ++ begin 1 (.chat (demoChat "a" "hi")) ++ acts 11 1 (replies "nope") ++ begin 2 (.handle ⟨"a", 1⟩) ++
    acts 7 2 (replies "nope"), tick anHourLater ++ begin 3 .sweep ++ acts 1 3 (replies "nope"))

theorem terminal_row_final_one_request :
    ∃ (L₁ L₂ : List (ProxyLabel (demo none))) (w₁ w₂ : ProxyWorld (demo none)) (row : ComparisonRow),
      RunWhere FreshWrites (start (demo none) morning) L₁ w₁ ∧
      RunWhere FreshWrites (start (demo none) morning) (L₁ ++ L₂) w₂ ∧
      w₁.state.row "a" = some row ∧ row.candidateStatus.unfinished = false ∧ w₂.state.row "a" = some row := by
  obtain ⟨L₁, w₁, L₂, w₂, h₁, h₂, hP⟩ := (driver (demo none)).exists_runs (c := freshWrites) freshWrites_sound
    (start (demo none) morning) oneRequest.1 oneRequest.2
    (fun _ w₁ _ _ => (w₁.state.row "a").any fun row => row.candidateStatus.unfinished = false) (by decide +kernel)
  obtain ⟨row, hrow, ht⟩ := (Option.any_eq_true _ _).mp hP
  simp only [decide_eq_true_eq] at ht
  exact ⟨L₁, L₂, w₁, w₂, row, h₁, h₂, hrow, ht, terminal_row_final h₁ h₂ hrow ht⟩

/-- A sweep whose snapshot is older than the worker's verdict. -/
def lateSweep : List (DemoCommand none) × List (DemoCommand none) :=
  (boot 0 ++ begin 1 (.chat (demoChat "a" "hi")) ++ acts 11 1 (replies "nope") ++ tick anHourLater ++
    begin 2 .sweep ++
    acts 1 2 (replies "nope") ++ begin 3 (.handle ⟨"a", 1⟩) ++ acts 7 3 (replies "nope"),
    acts 2 2 (replies "nope"))

theorem terminal_row_overwritten :
    ∃ (L₁ L₂ : List (ProxyLabel (demo none))) (w₁ w₂ : ProxyWorld (demo none)) (row row' : ComparisonRow),
      Run (start (demo none) morning) L₁ w₁ ∧ Run (start (demo none) morning) (L₁ ++ L₂) w₂ ∧
      (chatIds (L₁ ++ L₂)).Nodup ∧ (∀ x ∈ replicas (L₁ ++ L₂), x = 0) ∧
      w₁.state.row "a" = some row ∧ row.candidateStatus = .ok ∧ row.verdict = .invalidJson ∧
      w₂.state.row "a" = some row' ∧ row'.candidateStatus = .timeoutStale ∧ row'.verdict = .candidateError := by
  obtain ⟨L₁, w₁, L₂, w₂, h₁, h₂, hP⟩ := (driver (demo none)).exists_runs (C := fun _ _ _ => True)
    (c := fun _ _ _ => true) (fun _ => trivial) (start (demo none) morning) lateSweep.1 lateSweep.2
    (fun _ w₁ L w₂ => (chatIds L).Nodup && decide (∀ x ∈ replicas L, x = 0) && (w₁.state.row "a").any fun row =>
      row.candidateStatus = .ok && row.verdict = .invalidJson && (w₂.state.row "a").any fun row' =>
        row'.candidateStatus = .timeoutStale && row'.verdict = .candidateError) (by decide +kernel)
  simp only [Bool.and_eq_true, decide_eq_true_eq, Option.any_eq_true] at hP
  obtain ⟨⟨hn, ho⟩, row, hrow, ⟨hs, hv⟩, row', hrow', hs', hv'⟩ := hP
  exact ⟨L₁, L₂, w₁, w₂, row, row', h₁, h₂, hn, ho, hrow, hs, hv, hrow', hs', hv'⟩

end Computed

end ShadowProxy

import Mathlib.Algebra.BigOperators.Group.Finset.Piecewise
import ShadowProxy.Api.Summary
import ShadowProxy.Lifecycle.Coherence
import ShadowProxy.Tape.Truthful

/-! The verdicts that `summary` counts in the table against the counters of the replicas that have recorded
them. -/

namespace ShadowProxy

open Effects Data SqlComparisonStore CandidateHandler

section Dashboards

variable {dep : Deployment} {clock : DateTime} {L : List (ProxyLabel dep)} {w w' : ProxyWorld dep}
  {l : ProxyLabel dep} {p : Verdict → Bool} {v : Verdict} {X : Finset ℕ}

def judged (v : Verdict) : Bool := (verdictCounter v).isSome

def finalizesAs (p : Verdict → Bool) : ProxyLabel dep → Bool
  | .act _ ⟨.finalize _ patch, .ok ()⟩ => p patch.verdict
  | _ => false

def FirstVerdict (_ : List (ProxyLabel dep)) (w : ProxyWorld dep) : ProxyLabel dep → Prop
  | .act _ ⟨.finalize r _, .ok ()⟩ => ∀ row, w.state.row r = some row → judged row.verdict = false
  | _ => True

def rowsAs (p : Verdict → Bool) (rows : Rows) : ℕ := rows.countP fun r => p r.verdict

lemma rowsAs_insert (hp : ∀ v, p v = true → judged v = true) (record : PendingComparison) (rows : Rows) :
    rowsAs p (insertPending record rows) = rowsAs p rows := by
  have hnew : p (newRow record).verdict = false := by
    refine Bool.eq_false_iff.mpr fun hv => ?_
    have hc := hp _ hv
    rw [newRow] at hc
    dsimp only at hc
    split at hc <;> simp [judged, verdictCounter] at hc
  simp [rowsAs, insertPending, hnew]

lemma rowsAs_mark (now : DateTime) (r : Str) (rows : Rows) :
    rowsAs p (markInProgress now r rows) = rowsAs p rows := by
  rw [rowsAs, rowsAs, markInProgress, Table.modify, List.countP_map]
  refine List.countP_congr fun row _ => ?_
  rw [Function.comp_apply]
  split <;> simp

inductive VerdictStep (p : Verdict → Bool) (w w' : ProxyWorld dep) : ProxyLabel dep → Prop
  | same {l : ProxyLabel dep} : (∀ t r patch, l ≠ .act t ⟨.finalize r patch, .ok ()⟩) →
      rowsAs p w'.state.rows = rowsAs p w.state.rows → VerdictStep p w w' l
  | absent {t : ℕ} {r : Str} {patch : FinalizePatch} : w.state.row r = none →
      rowsAs p w'.state.rows = rowsAs p w.state.rows → VerdictStep p w w' (.act t ⟨.finalize r patch, .ok ()⟩)
  | finalized {t : ℕ} {r : Str} {patch : FinalizePatch} {row : ComparisonRow} : w.state.row r = some row →
      rowsAs p w'.state.rows + (p row.verdict).toNat = rowsAs p w.state.rows + (p patch.verdict).toNat →
      VerdictStep p w w' (.act t ⟨.finalize r patch, .ok ()⟩)

lemma verdictStep (h : Run (start dep clock) L w) (hs : Step w l w') (hp : ∀ v, p v = true → judged v = true) :
    VerdictStep p w w' l := by
  cases hs with
  | spawn => exact .same (by simp) (congrArg _ (onSpawn_rows _ _))
  | exit => exact .same (by simp) (congrArg _ (onExit_rows _ _))
  | env => exact .same (by simp) (congrArg _ (onEnv_rows _ _))
  | crash => exact .same (by simp) rfl
  | @act t k o f res ht hl =>
    cases o
    case insertPending record =>
      refine .same (by simp) ?_
      cases res with
      | error e => rfl
      | ok u => exact rowsAs_insert hp record _
    case markInProgress r =>
      refine .same (by simp) ?_
      cases res with
      | error e => rfl
      | ok u => exact rowsAs_mark _ r _
    case finalize r patch =>
      cases res with
      | error e => exact .same (by simp) rfl
      | ok u =>
        cases hrow : w.state.row r with
        | none => exact .absent hrow (congrArg (rowsAs p) (Table.modify_of_lookup_none hrow))
        | some row => exact .finalized hrow (Table.countP_modify (Run.rows_nodup h) hrow fun r => p r.verdict)
    case rawPut id payload =>
      refine .same (by simp) ?_
      simp only [World.act, after, State.write]
      split <;> rfl
    all_goals
      cases res <;> exact .same (by simp) rfl

lemma finalize_absent (h : Run (start dep clock) L w) {t : ℕ} {r : Str} {patch : FinalizePatch}
    (hs : Step w (.act t ⟨.finalize r patch, .ok ()⟩) w') (hrow : w.state.row r = none) :
    judged patch.verdict = false := by
  obtain ⟨task, hst, hspec⟩ := Run.issued h hs
  cases task with
  | handle job =>
    obtain ⟨rfl, record, hf⟩ := hspec
    obtain ⟨row, hrow', -⟩ := Run.get_row h (did_history.mp hf.fetched)
    rw [hrow] at hrow'
    cases hrow'
  | sweep =>
    obtain ⟨ids, now, -, -, rfl⟩ := hspec
    rfl
  | chat c | startup => exact hspec.elim

lemma not_of_unjudged (hp : ∀ v, p v = true → judged v = true) (hv : judged v = false) : p v = false :=
  Bool.eq_false_iff.mpr fun h => by simp [hp v h] at hv

lemma rowsAs_step (h : Run (start dep clock) L w) (hs : Step w l w') (hp : ∀ v, p v = true → judged v = true) :
    rowsAs p w'.state.rows ≤ rowsAs p w.state.rows + (finalizesAs p l).toNat ∧
      (FirstVerdict L w l → rowsAs p w'.state.rows = rowsAs p w.state.rows + (finalizesAs p l).toNat) := by
  cases verdictStep h hs hp with
  | same hne heq =>
    have hnone : finalizesAs p l = false := by
      unfold finalizesAs
      split
      · exact absurd rfl (hne _ _ _)
      · rfl
    simp [heq, hnone]
  | absent hrow heq =>
    have hnone := not_of_unjudged hp (finalize_absent h hs hrow)
    simp [heq, finalizesAs, hnone]
  | finalized hrow heq =>
    refine ⟨?_, fun hfirst => ?_⟩
    · rw [finalizesAs]
      omega
    · rw [not_of_unjudged hp (hfirst _ hrow)] at heq
      exact heq

lemma compared_step (h : Run (start dep clock) L w) (hs : Step w l w')
    (heq : rowsAs judged w'.state.rows = rowsAs judged w.state.rows + (finalizesAs judged l).toNat) :
    FirstVerdict L w l := by
  cases verdictStep h hs fun _ hv => hv with
  | same hne =>
    unfold FirstVerdict
    split
    · exact absurd rfl (hne _ _ _)
    · trivial
  | absent hrow =>
    intro row hrow'
    rw [hrow] at hrow'
    cases hrow'
  | finalized hrow hstep =>
    intro row hrow'
    obtain rfl := Option.some.inj (hrow.symm.trans hrow')
    rw [finalizesAs] at heq
    cases hc : judged _ with
    | false => rfl
    | true =>
      rw [hc, Bool.toNat_true] at hstep
      omega

lemma Run.rowsAs_le (h : Run (start dep clock) L w) (hp : ∀ v, p v = true → judged v = true) :
    rowsAs p w.state.rows ≤ L.countP (finalizesAs p) := by
  induction h with
  | nil => exact le_rfl
  | @snoc L w l w' hr _ hs ih =>
    have hstep := (rowsAs_step hr hs hp).1
    rw [List.countP_append, List.countP_singleton]
    cases hl : finalizesAs p l <;> simp [hl] at hstep ⊢ <;> omega

lemma RunWhere.rowsAs_eq (h : RunWhere FirstVerdict (start dep clock) L w)
    (hp : ∀ v, p v = true → judged v = true) : rowsAs p w.state.rows = L.countP (finalizesAs p) := by
  induction h with
  | nil => rfl
  | @snoc L w l w' hr hc hs ih =>
    have hstep := (rowsAs_step hr.run hs hp).2 hc
    rw [List.countP_append, List.countP_singleton, hstep, ih]
    cases finalizesAs p l <;> rfl

lemma Run.firstVerdict_of_eq (h : Run (start dep clock) L w)
    (heq : rowsAs judged w.state.rows = L.countP (finalizesAs judged)) :
    RunWhere FirstVerdict (start dep clock) L w := by
  induction h with
  | nil => exact .nil
  | @snoc L w l w' hr _ hs ih =>
    have hle := Run.rowsAs_le hr (p := judged) fun _ hv => hv
    have hstep := (rowsAs_step hr hs (p := judged) fun _ hv => hv).1
    have hcount : (L ++ [l]).countP (finalizesAs judged) = L.countP (finalizesAs judged) +
        (finalizesAs judged l).toNat := by
      rw [List.countP_append, List.countP_singleton]
      cases finalizesAs judged l <;> rfl
    exact (ih (by omega)).snoc (compared_step hr hs (by omega)) hs

lemma countP_toNat {α : Type} (P : α → Bool) (a : α) (as : List α) :
    (a :: as).countP P = as.countP P + (P a).toNat := by
  rw [List.countP_cons]
  cases P a <;> rfl

lemma sum_countP {α : Type} {Q : ℕ → α → Bool} {P : α → Bool} {as : List α}
    (hQ : ∀ a ∈ as, ∑ x ∈ X, (Q x a).toNat = (P a).toNat) : ∑ x ∈ X, as.countP (Q x) = as.countP P := by
  induction as with
  | nil => simp
  | cons a as ih =>
    simp only [countP_toNat, Finset.sum_add_distrib]
    rw [ih fun b hb => hQ b (List.mem_cons_of_mem _ hb), hQ a List.mem_cons_self]

lemma Run.recorder (h : Run (start dep clock) L w) {t : ℕ} {r : Str} {patch : FinalizePatch}
    (ha : Acted L t (.finalize r patch) (.ok ())) (hv : judged patch.verdict = true) :
    ∃ y job, Label.spawn (S := system dep) t ⟨y, .handle job⟩ ∈ L ∧ ∀ x, t ∈ handlersOn x L ↔ x = y := by
  obtain ⟨L₁, L₂, w₁, w₂, rfl, h₁, hs⟩ := Run.split h ha
  obtain ⟨⟨y, task⟩, hk, -, -, hJ⟩ := (Run.tracked h₁ fun _ => rfl).issued hs
  have hmem : Label.spawn (S := system dep) t ⟨y, task⟩ ∈ L₁ ++ .act t ⟨.finalize r patch, .ok ()⟩ :: L₂ :=
    List.mem_append_left _ hk
  have hspec := hJ _ (issues_taskProgram dep task)
  cases task with
  | handle job =>
    refine ⟨y, job, hmem, fun x => ?_⟩
    rw [mem_threadsOf]
    constructor
    · rintro ⟨k, hk', hx⟩
      obtain rfl := (Run.tracked h fun _ => rfl).unique t _ _ hk' hmem
      exact (of_decide_eq_true hx).symm
    · rintro rfl
      exact ⟨_, hmem, by simp [Kind.handles]⟩
  | sweep =>
    obtain ⟨ids, now, -, -, rfl⟩ := hspec
    cases hv
  | chat c | startup => exact hspec.elim

lemma Run.recorded_total (h : Run (start dep clock) L w)
    (hX : ∀ t k, Label.spawn (S := system dep) t k ∈ L → k.replica ∈ X) (hv : judged v = true) :
    ∑ x ∈ X, tally (handlersOn x L) (finalizedWith v) L = L.countP (finalizesAs fun u => u = v) := by
  refine sum_countP fun l hl => ?_
  by_cases hf : ∃ t r patch, l = .act t ⟨.finalize r patch, .ok ()⟩ ∧ patch.verdict = v
  · obtain ⟨t, r, patch, rfl, rfl⟩ := hf
    obtain ⟨y, job, hk, hiff⟩ := Run.recorder h hl hv
    have hone : ∀ x, (isEventOf (handlersOn x L) (finalizedWith patch.verdict)
        (Label.act (S := system dep) t ⟨.finalize r patch, .ok ()⟩)).toNat = if x = y then 1 else 0 := fun x => by
      by_cases hx : x = y
      · rw [if_pos hx]
        simp [isEventOf, finalizedWith, (hiff x).mpr hx]
      · rw [if_neg hx]
        simp [isEventOf, finalizedWith, mt (hiff x).mp hx]
    simp only [hone, Finset.sum_ite_eq', hX t _ hk, if_true]
    simp [finalizesAs]
  · have hnone : finalizesAs (fun u => u = v) l = false := by
      unfold finalizesAs
      split
      · rename_i t r patch
        exact decide_eq_false fun hp => hf ⟨t, r, patch, rfl, hp⟩
      · rfl
    have hzero : ∀ x, isEventOf (handlersOn x L) (finalizedWith v) l = false := fun x => by
      unfold isEventOf
      split
      · rename_i t e
        unfold finalizedWith
        split
        · rename_i r patch
          rw [decide_eq_false fun hp => hf ⟨t, r, patch, rfl, hp⟩, Bool.and_false]
        · exact Bool.and_false _
      · rfl
    simp [hnone, hzero]

def totalCount (X : Finset ℕ) (L : List (ProxyLabel dep)) (key : Counter) : ℕ :=
  ∑ x ∈ X, tally (threadsOn x L) (counted (.business key)) L

lemma Run.totalCount_eq (h : Run (start dep clock) L w)
    (hX : ∀ t k, Label.spawn (S := system dep) t k ∈ L → k.replica ∈ X) (hcrash : ∀ x ∈ X, Label.crash x ∉ L)
    (hb : ∀ x ∈ X, BetweenReplies x L w) {key : Counter} (hk : verdictCounter v = some key) :
    totalCount X L key = L.countP (finalizesAs fun u => u = v) := by
  rw [totalCount, ← Run.recorded_total h hX (by simp [judged, hk])]
  refine Finset.sum_congr rfl fun x hx => ?_
  rw [Run.tally_handlers h fun _ he => (tallied_op (tallied_of_counter hk) he).2]
  exact tally_congr fun t ht => (Run.settled h (hcrash x hx) (hb x hx) ht).recorded v key hk

lemma countP_judged {α : Type} {g : (Verdict → Bool) → α → Bool}
    (hg : ∀ a, (g judged a).toNat = (g (fun u => u = .matched) a).toNat + (g (fun u => u = .mismatch) a).toNat +
      (g (fun u => u = .invalidJson) a).toNat) (as : List α) :
    as.countP (g judged) = as.countP (g fun u => u = .matched) + as.countP (g fun u => u = .mismatch) +
      as.countP (g fun u => u = .invalidJson) := by
  induction as with
  | nil => rfl
  | cons a as ih =>
    have ha := hg a
    simp only [countP_toNat]
    omega

lemma toNat_judged (v : Verdict) :
    (judged v).toNat = (decide (v = .matched)).toNat + (decide (v = .mismatch)).toNat +
    (decide (v = .invalidJson)).toNat := by
  cases v <;> rfl

lemma countP_finalizes (L : List (ProxyLabel dep)) : L.countP (finalizesAs judged) =
    L.countP (finalizesAs fun u => u = .matched) + L.countP (finalizesAs fun u => u = .mismatch) +
      L.countP (finalizesAs fun u => u = .invalidJson) := by
  refine countP_judged (fun l => ?_) L
  unfold finalizesAs
  split
  · exact toNat_judged _
  · rfl

lemma rowsAs_judged (rows : Rows) : rowsAs judged rows =
    rowsAs (fun u => u = .matched) rows + rowsAs (fun u => u = .mismatch) rows +
      rowsAs (fun u => u = .invalidJson) rows :=
  countP_judged (g := fun (p : Verdict → Bool) (r : ComparisonRow) => p r.verdict)
    (fun r => toNat_judged r.verdict) rows

/-- Away from the handlers' last steps and with no crash, `summary` has at most as many rows of each verdict as
the counters of the replicas say, and over the whole table exactly as many if and only if no verdict has been
replaced. -/
theorem summary_within_counters (h : Run (start dep clock) L w)
    (hX : ∀ t k, Label.spawn (S := system dep) t k ∈ L → k.replica ∈ X) (hcrash : ∀ x ∈ X, Label.crash x ∉ L)
    (hb : ∀ x ∈ X, BetweenReplies x L w) (now : DateTime) (window : ℤ) :
    (∀ v key, verdictCounter v = some key → (summary now window w.state.rows).verdicts v ≤ totalCount X L key) ∧
      ((∀ row ∈ w.state.rows, inWindow now window row.receivedAt = true) →
        ((∀ v key, verdictCounter v = some key → (summary now window w.state.rows).verdicts v =
          totalCount X L key) ↔
          RunWhere FirstVerdict (start dep clock) L w)) := by
  have hone : ∀ {v key}, verdictCounter v = some key → ∀ u, decide (u = v) = true → judged u = true :=
    fun hk u hu => by
    rw [of_decide_eq_true hu, judged, hk]
    rfl
  have htotal : ∀ {v key}, verdictCounter v = some key →
      totalCount X L key = L.countP (finalizesAs fun u => u = v) := fun hk =>
    Run.totalCount_eq h hX hcrash hb hk
  refine ⟨fun v key hk => ?_, fun hall => ?_⟩
  · calc (summary now window w.state.rows).verdicts v ≤ rowsAs (fun u => u = v) w.state.rows :=
          List.filter_sublist.countP_le
      _ ≤ L.countP (finalizesAs fun u => u = v) := Run.rowsAs_le h (hone hk)
      _ = totalCount X L key := (htotal hk).symm
  · have hwhole : ∀ v, (summary now window w.state.rows).verdicts v = rowsAs (fun u => u = v) w.state.rows :=
      fun v =>
      congrArg (rowsAs fun u => u = v) (List.filter_eq_self.mpr hall)
    constructor
    · intro heq
      refine Run.firstVerdict_of_eq h ?_
      have hv : ∀ {v key}, verdictCounter v = some key →
          rowsAs (fun u => u = v) w.state.rows = L.countP (finalizesAs fun u => u = v) := fun {v key} hk => by
        rw [← hwhole, heq v key hk, htotal hk]
      rw [rowsAs_judged, countP_finalizes, hv (v := .matched) rfl, hv (v := .mismatch) rfl,
        hv (v := .invalidJson) rfl]
    · intro hfirst v key hk
      rw [hwhole, htotal hk]
      exact RunWhere.rowsAs_eq hfirst (hone hk)

def startsOn (x : ℕ) : ProxyLabel dep → Bool
  | .spawn _ k => k.replica = x
  | _ => true

theorem summary_within_counters_texts : ∃ (L : List (ProxyLabel (demo none))) (w : ProxyWorld (demo none)),
    Run (start (demo none) morning) L w ∧ (summary morning 0 w.state.rows).verdicts .invalidJson = 1 ∧
      (summary morning 0 w.state.rows).verdicts .invalidJson ≤ totalCount {0} L .verdictInvalidJson ∧
      ((∀ v key, verdictCounter v = some key → (summary morning 0 w.state.rows).verdicts v =
        totalCount {0} L key) ↔
        RunWhere FirstVerdict (start (demo none) morning) L w) := by
  obtain ⟨L, w, h, hP⟩ := (driver (demo none)).exists_run (C := Calm) (c := calm) id
    (start (demo none) morning) twoTexts
    (fun L w => (idle w && L.all (startsOn 0)) &&
      (w.state.rows.all (fun row => inWindow morning 0 row.receivedAt) &&
      decide (w.state.rows.countP (fun row => inWindow morning 0 row.receivedAt &&
        decide (row.verdict = .invalidJson)) = 1)))
    (by decide +kernel)
  simp only [Bool.and_eq_true, decide_eq_true_eq] at hP
  obtain ⟨⟨hidle, hon⟩, hall, hone⟩ := hP
  have hwithin := summary_within_counters (X := {0}) h.run
    (fun t k hk => by simpa [startsOn] using List.all_eq_true.mp hon _ hk)
    (fun x _ => calm_crash h x) (fun x _ t job p hp => by simp [threads_of_idle h.run hidle t] at hp) morning 0
  refine ⟨L, w, h.run, ?_, hwithin.1 .invalidJson _ rfl, hwithin.2 fun row hrow =>
    List.all_eq_true.mp hall row hrow⟩
  rw [← hone]
  simp only [summary, List.countP_filter, inWindow, Bool.and_comm]

end Dashboards

end ShadowProxy

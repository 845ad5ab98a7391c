import Mathlib.Algebra.Order.Floor.Div
import ShadowProxy.Data.Readable
import ShadowProxy.Lifecycle.Requeue

/-! What passes of the sweeper do to a table that nobody else writes. -/

namespace ShadowProxy

open Data Effects Prog SqlComparisonStore Sweeper

def staleRow (now : DateTime) (threshold : ℤ) (r : ComparisonRow) : Bool :=
  r.candidateStatus.unfinished && r.receivedAt.instant < now.instant - threshold

structure RowSwept (now : DateTime) (threshold : ℤ) (r r' : ComparisonRow) : Prop where
  pending : r'.toPendingComparison = r.toPendingComparison
  attemptCount : r'.attemptCount = r.attemptCount
  lastAttemptedAt : r'.lastAttemptedAt = r.lastAttemptedAt
  turned : r' = r ∨ staleRow now threshold r = true ∧ r'.candidateStatus = .timeoutStale

def isTurned (now : DateTime) (threshold : ℤ) (p : ComparisonRow × ComparisonRow) : Bool :=
  staleRow now threshold p.1 && p.2.candidateStatus = .timeoutStale

section Rows

variable {now : DateTime} {threshold : ℤ} {r r' r'' : ComparisonRow}

lemma not_stale_of_timeoutStale (h : r.candidateStatus = .timeoutStale) : staleRow now threshold r = false := by
  simp [staleRow, h, CandidateStatus.unfinished]

lemma RowSwept.refl (r : ComparisonRow) : RowSwept now threshold r r := ⟨rfl, rfl, rfl, .inl rfl⟩

lemma RowSwept.trans (h : RowSwept now threshold r r') (h' : RowSwept now threshold r' r'') :
    RowSwept now threshold r r'' where
  pending := h'.pending.trans h.pending
  attemptCount := h'.attemptCount.trans h.attemptCount
  lastAttemptedAt := h'.lastAttemptedAt.trans h.lastAttemptedAt
  turned := by
    rcases h.turned with rfl | ⟨hs, ht⟩
    · exact h'.turned
    · rcases h'.turned with rfl | ⟨hs', -⟩
      · exact .inr ⟨hs, ht⟩
      · rw [not_stale_of_timeoutStale ht] at hs'
        cases hs'

lemma RowSwept.stale (h : RowSwept now threshold r r') :
    (isTurned now threshold (r, r') = true ∧ staleRow now threshold r = true ∧ staleRow now threshold r' = false) ∨
      (isTurned now threshold (r, r') = false ∧ staleRow now threshold r' = staleRow now threshold r) := by
  rcases h.turned with rfl | ⟨hs, ht⟩
  · refine .inr ⟨?_, rfl⟩
    by_cases ht : r'.candidateStatus = .timeoutStale
    · simp [isTurned, not_stale_of_timeoutStale ht]
    · simp [isTurned, ht]
  · exact .inl ⟨by simp [isTurned, hs, ht], hs, not_stale_of_timeoutStale ht⟩

lemma countP_stale {t t' : Rows} (h : List.Forall₂ (RowSwept now threshold) t t') :
    t.countP (staleRow now threshold) = (t.zip t').countP (isTurned now threshold) +
      t'.countP (staleRow now threshold) := by
  induction h with
  | nil => rfl
  | cons hr _ ih =>
    rw [List.zip_cons_cons, List.countP_cons, List.countP_cons, List.countP_cons, ih]
    rcases hr.stale with ⟨ht, hs, hs'⟩ | ⟨ht, hs⟩
    · simp only [ht, hs, hs', if_true, Bool.false_eq_true, if_false]
      omega
    · simp only [ht, hs, Bool.false_eq_true, if_false]
      omega

lemma forall₂_refl (t : Rows) : List.Forall₂ (RowSwept now threshold) t t :=
  List.forall₂_same.mpr fun r _ => .refl r

lemma forall₂_trans {t t' t'' : Rows} (h : List.Forall₂ (RowSwept now threshold) t t')
    (h' : List.Forall₂ (RowSwept now threshold) t' t'') : List.Forall₂ (RowSwept now threshold) t t'' := by
  induction h generalizing t'' with
  | nil => exact h'
  | cons hr _ ih =>
    cases h' with
    | cons hr' hs' => exact .cons (hr.trans hr') (ih hs')

end Rows

section Table

variable {now : DateTime} {threshold : ℤ} {limit : ℕ} {t : Rows} {ids : List Str}

def swept (now : DateTime) (ids : List Str) (r : ComparisonRow) : ComparisonRow :=
  if ids.contains (rowId r) then finalized now (stalePatch now) r else r

def finalizeAll (now evaluatedAt : DateTime) (ids : List Str) (t : Rows) : Rows :=
  ids.foldl (fun t id => SqlComparisonStore.finalize now id (stalePatch evaluatedAt) t) t

lemma finalizeAll_eq (hids : ids.Nodup) : finalizeAll now now ids t = t.map (swept now ids) := by
  refine (Table.foldl_modify (rowId_finalized now (stalePatch now)) hids t).trans
    (List.map_congr_left fun r _ => ?_)
  simp only [swept, List.contains_iff_mem]
  congr

lemma staleIds_length : (staleIds now threshold t).length = t.countP (staleRow now threshold) := by
  rw [staleIds, List.length_map, List.countP_eq_length_filter]
  rfl

lemma SqlComparisonStore.FindStale.nodup (h : FindStale now threshold limit t ids) (hkeys : (t.map rowId).Nodup) :
    ids.Nodup := by
  obtain ⟨l, hperm, hsub⟩ := h.1
  exact hperm.nodup_iff.mp ((hkeys.sublist (List.filter_sublist.map rowId)).sublist hsub)

lemma SqlComparisonStore.FindStale.stale (h : FindStale now threshold limit t ids) (hkeys : (t.map rowId).Nodup)
    {r : ComparisonRow} (hr : r ∈ t) (hid : rowId r ∈ ids) : staleRow now threshold r = true := by
  obtain ⟨r', hr', he⟩ := List.mem_map.mp (h.1.subset hid)
  rw [List.mem_filter] at hr'
  rw [← List.inj_on_of_nodup_map hkeys hr'.1 hr he]
  exact hr'.2

lemma SqlComparisonStore.FindStale.rowSwept (h : FindStale now threshold limit t ids)
    (hkeys : (t.map rowId).Nodup) : List.Forall₂ (RowSwept now threshold) t (t.map (swept now ids)) := by
  refine List.forall₂_map_right_iff.mpr (List.forall₂_same.mpr fun r hr => ?_)
  rw [swept]
  split
  · rename_i hid
    exact ⟨rfl, rfl, rfl, .inr ⟨h.stale hkeys hr (List.contains_iff_mem.mp hid), rfl⟩⟩
  · exact .refl r

lemma SqlComparisonStore.FindStale.count (h : FindStale now threshold limit t ids) (hkeys : (t.map rowId).Nodup) :
    (t.zip (t.map (swept now ids))).countP (isTurned now threshold) = ids.length := by
  have hturned : ∀ r ∈ t, isTurned now threshold (r, swept now ids r) = true ↔ rowId r ∈ ids := by
    intro r hr
    by_cases hid : rowId r ∈ ids
    · simp [isTurned, swept, hid, h.stale hkeys hr hid, stalePatch]
    · rcases (RowSwept.refl r : RowSwept now threshold r r).stale with ⟨-, hs, hs'⟩ | ⟨ht, -⟩
      · rw [hs] at hs'
        cases hs'
      · simp [swept, hid, ht]
  have hperm : ((t.map rowId).filter (· ∈ ids)).Perm ids := by
    refine (List.perm_ext_iff_of_nodup (hkeys.filter _) (h.nodup hkeys)).mpr fun id => ?_
    rw [List.mem_filter, decide_eq_true_eq, and_iff_right_iff_imp]
    intro hid
    exact List.filter_sublist.map rowId |>.subset (h.1.subset hid)
  have hzip : t.zip (t.map (swept now ids)) = t.map fun r => (r, swept now ids r) := by
    have hzip' := List.zip_map' (f := id) (g := swept now ids) (l := t)
    rwa [List.map_id] at hzip'
  rw [hzip, List.countP_map, ← hperm.length_eq, ← List.countP_eq_length_filter, List.countP_map]
  exact List.countP_congr fun r hr => by simpa using hturned r hr

end Table

section Pass

variable {dep : Deployment} {t : ℕ} {k : Kind} {s s' s'' : State}

def staleCount (dep : Deployment) (s : State) : ℕ :=
  s.rows.countP (staleRow s.clock dep.config.store.staleThreshold)

structure Swept (dep : Deployment) (s s' : State) (count : ℕ) : Prop where
  rows : List.Forall₂ (RowSwept s.clock dep.config.store.staleThreshold) s.rows s'.rows
  turned : (s.rows.zip s'.rows).countP (isTurned s.clock dep.config.store.staleThreshold) = count
  rest : s' = { s with rows := s'.rows }

lemma Swept.refl (dep : Deployment) (s : State) : Swept dep s s 0 where
  rows := forall₂_refl s.rows
  turned := by
    have hrows : List.Forall₂ (RowSwept s.clock dep.config.store.staleThreshold) s.rows s.rows :=
      forall₂_refl s.rows
    have hcount := countP_stale hrows
    omega
  rest := rfl

lemma Swept.clock {n : ℕ} (h : Swept dep s s' n) : s'.clock = s.clock := by rw [h.rest]

lemma Swept.count_eq {n : ℕ} (h : Swept dep s s' n) : staleCount dep s = n + staleCount dep s' := by
  have hcount := countP_stale h.rows
  rw [h.turned] at hcount
  rw [staleCount, staleCount, h.clock]
  exact hcount

lemma Swept.trans {n m : ℕ} (h : Swept dep s s' n) (h' : Swept dep s' s'' m) : Swept dep s s'' (n + m) where
  rows := forall₂_trans h.rows (h.clock ▸ h'.rows)
  turned := by
    have hcount := countP_stale (forall₂_trans h.rows (h.clock ▸ h'.rows))
    have hn := h.count_eq
    have hm := h'.count_eq
    have hclock : s''.clock = s.clock := h'.clock.trans h.clock
    rw [staleCount] at hn
    rw [staleCount, staleCount, hclock] at hm
    rw [staleCount] at hn
    rw [h.clock] at hn hm
    omega
  rest := by rw [h'.rest, h.rest]

lemma Swept.keys {n : ℕ} (h : Swept dep s s' n) : s'.rows.map rowId = s.rows.map rowId :=
  (Readable.map_eq_of_forall₂ h.rows fun _ _ _ hr => congrArg PendingComparison.requestId hr.pending.symm).symm

lemma swept_findStale {limit : ℕ} {ids : List Str} (hkeys : (s.rows.map rowId).Nodup)
    (h : FindStale s.clock dep.config.store.staleThreshold limit s.rows ids) :
    Swept dep s { s with rows := s.rows.map (swept s.clock ids) } ids.length :=
  ⟨h.rowSwept hkeys, h.count hkeys, rfl⟩

def FailedBy {α : Type} (A : Event proxy → Prop) (res : Except Exn α) : Prop :=
  ∃ o e, A ⟨o, .error e⟩ ∧ res = .error e

lemma must_finalize_each {A : Event proxy → Prop} (now : DateTime) (ids : List Str) :
    Must (S := system dep) Eq A t k s
    (forEach (fun requestId => perform (.finalize requestId (stalePatch now))) ids) fun s' res =>
      (res = .ok () ∧ s' = { s with rows := finalizeAll s.clock now ids s.rows }) ∨ FailedBy A res := by
  induction ids generalizing s with
  | nil => exact .inl ⟨rfl, rfl⟩
  | cons id ids ih =>
    refine (must_bind _ _).mpr (must_perform fun s₁ res hs hl hA => ?_)
    subst hs
    cases res with
    | error e => exact .inr ⟨_, e, hA, rfl⟩
    | ok _ =>
      refine Must.mono ih fun s₂ res h => h.imp_left ?_
      rintro ⟨rfl, rfl⟩
      exact ⟨rfl, rfl⟩

lemma must_runOnce {A : Event proxy → Prop} (hkeys : (s.rows.map rowId).Nodup) :
    Must (S := system dep) Eq A t k s (runOnce dep)
    fun s' res => (res = .ok (min (staleCount dep s) 1000) ∧ Swept dep s s' (min (staleCount dep s) 1000)) ∨
      FailedBy A res := by
  refine (must_bind _ _).mpr (must_perform fun s₁ res hs hl hA => ?_)
  subst hs
  cases res with
  | error e => exact .inr ⟨_, e, hA, rfl⟩
  | ok ids =>
    have hfind : FindStale s.clock dep.config.store.staleThreshold 1000 s.rows ids := hl
    have hlength : ids.length = min (staleCount dep s) 1000 := by
      rw [hfind.2, staleIds_length, Nat.min_comm]
      rfl
    by_cases hempty : ids = []
    · subst hempty
      refine .inl ⟨congrArg Except.ok hlength, ?_⟩
      rw [← hlength]
      exact .refl dep s
    · have hnonempty : ids.isEmpty = false := by simpa using hempty
      simp only [hnonempty, Bool.false_eq_true, if_false]
      refine (must_bind _ _).mpr (must_perform fun s₁ res hs hl hA => ?_)
      subst hs
      cases res with
      | error e => exact .inr ⟨_, e, hA, rfl⟩
      | ok now =>
        obtain rfl : now = s.clock := hl
        refine (must_bind _ _).mpr (Must.mono (must_finalize_each s.clock ids) ?_)
        rintro s₂ res (⟨rfl, rfl⟩ | ⟨o, e, hA, rfl⟩)
        · refine .inl ⟨congrArg Except.ok hlength, ?_⟩
          rw [← hlength]
          exact finalizeAll_eq (hfind.nodup hkeys) ▸ swept_findStale hkeys hfind
        · exact .inr ⟨o, e, hA, rfl⟩

def Pass (dep : Deployment) (t : ℕ) (k : Kind) (s s' : State) (n : ℕ) : Prop :=
  ∃ h, Exec (S := system dep) Eq t k (runOnce dep) s h (.ret n) s'

lemma Pass.swept {n : ℕ} (h : Pass dep t k s s' n) (hkeys : (s.rows.map rowId).Nodup) :
    n = min (staleCount dep s) 1000 ∧ Swept dep s s' n := by
  obtain ⟨h, hx⟩ := h
  obtain ⟨s₁, rfl, hend⟩ := hx.must (A := fun _ => True) (fun _ => rfl) (fun _ _ _ => Eq.trans)
    (fun _ _ => trivial)
    (must_runOnce hkeys)
  rcases hend with ⟨hn, hswept⟩ | ⟨o, e, -, he⟩
  · obtain rfl := Except.ok.inj hn
    exact ⟨rfl, hswept⟩
  · cases he

lemma can_finalize_each {h : List (Event proxy)} {Q : State → List (Event proxy) → Except Exn Unit → Prop}
    (now : DateTime) (ids : List Str) (hQ : ∀ s h, Q s h (.ok ())) : Can (S := system dep) t k s h
    (forEach (fun requestId => perform (.finalize requestId (stalePatch now))) ids) Q := by
  induction ids generalizing s h with
  | nil => exact hQ s h
  | cons id ids ih => exact (can_bind _ _).mpr (can_perform (.ok ()) trivial ih)

lemma exists_pass (dep : Deployment) (t : ℕ) (k : Kind) (s : State) : ∃ s' n, Pass dep t k s s' n := by
  have hcan : Can (S := system dep) t k s [] (runOnce dep) fun _ _ res => ∃ n, res = .ok n := by
    refine (can_bind _ _).mpr (can_perform (.ok _) (Script.findStale_take s.clock _ 1000 s.rows) ?_)
    cases hids : (staleIds s.clock dep.config.store.staleThreshold s.rows).take 1000 with
    | nil => exact ⟨0, rfl⟩
    | cons id ids =>
      refine (can_bind _ _).mpr (can_perform (.ok s.clock) rfl ((can_bind _ _).mpr ?_))
      exact can_finalize_each s.clock (id :: ids) fun _ _ => ⟨_, rfl⟩
  obtain ⟨h, res, s', hx, n, rfl⟩ := hcan.exec (R := Eq) .start
  exact ⟨s', n, h, hx⟩

inductive Passes (dep : Deployment) (t : ℕ) (k : Kind) (s : State) : ℕ → State → Prop
  | zero : Passes dep t k s 0 s
  | succ {m n : ℕ} {s' s'' : State} : Passes dep t k s m s' → Pass dep t k s' s'' n → Passes dep t k s (m + 1) s''

lemma Passes.swept {m : ℕ} (h : Passes dep t k s m s') (hkeys : (s.rows.map rowId).Nodup) :
    Swept dep s s' (min (staleCount dep s) (1000 * m)) := by
  induction h with
  | zero => simpa using Swept.refl dep s
  | @succ m n s₁ s₂ _ hpass ih =>
    obtain ⟨hn, hswept⟩ := hpass.swept (ih.keys ▸ hkeys)
    have hcount := ih.count_eq
    have hsum : min (staleCount dep s) (1000 * (m + 1)) = min (staleCount dep s) (1000 * m) + n := by omega
    rw [hsum]
    exact ih.trans hswept

lemma exists_passes (dep : Deployment) (t : ℕ) (k : Kind) (s : State) (m : ℕ) : ∃ s', Passes dep t k s m s' := by
  induction m with
  | zero => exact ⟨s, .zero⟩
  | succ m ih =>
    obtain ⟨s', hs⟩ := ih
    obtain ⟨s'', n, hpass⟩ := exists_pass dep t k s'
    exact ⟨s'', hs.succ hpass⟩

lemma Swept.eq {n : ℕ} (h : Swept dep s s' n) (hnone : staleCount dep s = 0) : s' = s := by
  have hrows : ∀ {ts ts' : Rows}, List.Forall₂ (RowSwept s.clock dep.config.store.staleThreshold) ts ts' →
      ts.countP (staleRow s.clock dep.config.store.staleThreshold) = 0 → ts' = ts := by
    intro ts ts' hts hcount
    induction hts with
    | nil => rfl
    | cons hr _ ih =>
      rw [List.countP_eq_zero, List.forall_mem_cons, ← List.countP_eq_zero] at hcount
      rw [hr.turned.resolve_right fun h => hcount.1 h.1, ih hcount.2]
  rw [h.rest, hrows h.rows hnone]

theorem passes_drain (dep : Deployment) (t : ℕ) (k : Kind) {s : State} (hkeys : (s.rows.map rowId).Nodup) :
    (∀ m, ∃ s', Passes dep t k s m s') ∧ ∀ m s', Passes dep t k s m s' →
      Swept dep s s' (min (staleCount dep s) (1000 * m)) ∧
      Must (S := system dep) Eq (fun e => ∃ a, e.res = .ok a) t k s' (runOnce dep) (fun _ res => ∃ n,
        res = .ok n) ∧
      (∀ s'' n, Pass dep t k s' s'' n → n = min (staleCount dep s') 1000 ∧ Swept dep s' s'' n) ∧
      (staleCount dep s ⌈/⌉ (1000 : ℕ) ≤ m →
        staleCount dep s' = 0 ∧ ∀ s'' n, Pass dep t k s' s'' n → n = 0 ∧ s'' = s') := by
  refine ⟨exists_passes dep t k s, fun m s' h => ?_⟩
  have hswept := h.swept hkeys
  have hkeys' : (s'.rows.map rowId).Nodup := hswept.keys ▸ hkeys
  refine ⟨hswept, Must.mono (must_runOnce hkeys') ?_, fun s'' n hpass => hpass.swept hkeys', fun hm => ?_⟩
  · rintro s'' res (⟨hres, -⟩ | ⟨o, e, ⟨a, ha⟩, -⟩)
    · exact ⟨_, hres⟩
    · cases ha
  · have hle : staleCount dep s ≤ 1000 * m := (ceilDiv_le_iff_le_mul (by decide)).mp hm
    have hnone : staleCount dep s' = 0 := by
      have hcount := hswept.count_eq
      omega
    refine ⟨hnone, fun s'' n hpass => ?_⟩
    obtain ⟨hn, hs⟩ := hpass.swept hkeys'
    exact ⟨by omega, hs.eq hnone⟩

end Pass

def twoStale : State := { twoUnfinished with clock := anHourLater }

theorem passes_drain_two :
    ∃ s', Passes disk 0 ⟨0, .sweep⟩ twoStale 1 s' ∧ Swept disk twoStale s' 2 ∧ staleCount disk s' = 0 := by
  have hcount : staleCount disk twoStale = 2 := by decide
  have hdrain := passes_drain disk 0 ⟨0, .sweep⟩ (s := twoStale) (by decide)
  obtain ⟨s', hs⟩ := hdrain.1 1
  obtain ⟨hswept, -, -, hnone⟩ := hdrain.2 1 s' hs
  rw [hcount] at hswept hnone
  exact ⟨s', hs, hswept, (hnone (by decide)).1⟩

end ShadowProxy

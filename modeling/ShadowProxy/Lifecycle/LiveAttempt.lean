import ShadowProxy.Lifecycle.Coherence

/-! When a sweep leaves alone the attempts that are still running. -/

namespace ShadowProxy

open Effects SqlComparisonStore

variable {dep : Deployment} {clock : DateTime} {w w' : ProxyWorld dep} {L : List (ProxyLabel dep)}
  {l : ProxyLabel dep} {s t : ℕ} {r : Str} {m T : DateTime}

def LatestMark (L : List (ProxyLabel dep)) (t : ℕ) (r : Str) : Prop :=
  ∃ L₁ L₂, L = L₁ ++ .act t ⟨.markInProgress r, .ok ()⟩ :: L₂ ∧ ∀ t', ¬ Acted L₂ t' (.markInProgress r) (.ok ())

def MarkedAt (clock : DateTime) (L : List (ProxyLabel dep)) (t : ℕ) (r : Str) (m : DateTime) : Prop :=
  ∃ L₁ L₂ w₁, L = L₁ ++ .act t ⟨.markInProgress r, .ok ()⟩ :: L₂ ∧
    (∀ t', ¬ Acted L₂ t' (.markInProgress r) (.ok ())) ∧ Run (start dep clock) L₁ w₁ ∧ w₁.state.clock = m

def FoundStale (clock : DateTime) (L : List (ProxyLabel dep)) (s : ℕ) (r : Str) (T : DateTime) : Prop :=
  ∃ L₁ L₂ w₁ threshold limit ids, L = L₁ ++ .act s ⟨.findStale threshold limit, .ok ids⟩ :: L₂ ∧ r ∈ ids ∧
    Run (start dep clock) L₁ w₁ ∧ w₁.state.clock = T

def Sweeping (L : List (ProxyLabel dep)) (w : ProxyWorld dep) (s : ℕ) (r : Str) : Prop :=
  (∃ x p, w.threads s = some ⟨⟨x, .sweep⟩, p⟩) ∧
    ∃ threshold limit ids, Acted L s (.findStale threshold limit) (.ok ids) ∧ r ∈ ids

/-- The rows a query for stale rows may return were marked long enough ago, if their handlers still run, and no
handler marks a row that a sweep under way has found stale. -/
structure Timely (L : List (ProxyLabel dep)) (w : ProxyWorld dep) (l : ProxyLabel dep) : Prop where
  query : ∀ s threshold limit res, l = .act s ⟨.findStale threshold limit, res⟩ →
    ∀ row ∈ w.state.rows, row.requestId ∈ staleIds w.state.clock threshold w.state.rows →
    ∀ t, LatestMark L t row.requestId → Handles w t row.requestId →
    ∀ m ∈ row.lastAttemptedAt, m.instant ≤ w.state.clock.instant - threshold
  mark : ∀ t r, l = .act t ⟨.markInProgress r, .ok ()⟩ → ∀ s, ¬ Sweeping L w s r

lemma MarkedAt.latest (hm : MarkedAt clock L t r m) : LatestMark L t r := by
  obtain ⟨L₁, L₂, w₁, hL, hlast, -, -⟩ := hm
  exact ⟨L₁, L₂, hL, hlast⟩

lemma MarkedAt.acted (hm : MarkedAt clock L t r m) : Acted L t (.markInProgress r) (.ok ()) := by
  obtain ⟨L₁, L₂, w₁, rfl, -, -, -⟩ := hm
  simp [Acted]

lemma markedAt_snoc (h : Run (start dep clock) L w) (hm : MarkedAt clock (L ++ [l]) t r m) :
    l = .act t ⟨.markInProgress r, .ok ()⟩ ∧ m = w.state.clock ∨
      MarkedAt clock L t r m ∧ ∀ t', l ≠ .act t' ⟨.markInProgress r, .ok ()⟩ := by
  obtain ⟨L₁, L₂, w₁, hL, hlast, hr, rfl⟩ := hm
  induction L₂ using List.reverseRecOn with
  | nil =>
    obtain ⟨rfl, hl⟩ := List.append_inj' hL rfl
    exact .inl ⟨List.singleton_inj.mp hl, by rw [RunWhere.unique hr h]⟩
  | append_singleton L₂ l' _ =>
    have hL' : L ++ [l] = (L₁ ++ .act t ⟨.markInProgress r, .ok ()⟩ :: L₂) ++ [l'] := by rw [hL]; simp
    obtain ⟨rfl, hl⟩ := List.append_inj' hL' rfl
    obtain rfl := List.singleton_inj.mp hl
    refine .inr ⟨⟨L₁, L₂, w₁, rfl, fun t' ha => hlast t' (ha.snoc l), hr, rfl⟩, ?_⟩
    rintro t' rfl
    exact hlast t' (acted_snoc.mpr (.inr rfl))

lemma patch_lastAttemptedAt (h : Run (start dep clock) L w) {patch : FinalizePatch} {res : Except Exn Unit}
    (hs : Step w (.act t ⟨.finalize r patch, res⟩) w') : patch.lastAttemptedAt = none := by
  obtain ⟨task, -, hspec⟩ := Run.issued h hs
  cases task with
  | handle job =>
    obtain ⟨-, record, hf⟩ := hspec
    cases hf <;> rfl
  | sweep =>
    obtain ⟨ids, now, -, -, rfl⟩ := hspec
    rfl
  | _ => exact hspec.elim

lemma last_attempted (h : Run (start dep clock) L w) (hm : MarkedAt clock L t r m) {row : ComparisonRow}
    (hrow : w.state.row r = some row) : row.lastAttemptedAt = some m := by
  induction h generalizing row with
  | nil => cases hrow
  | @snoc L w l w' hr _ hs ih =>
    rcases markedAt_snoc hr hm with ⟨rfl, rfl⟩ | ⟨hold, hl⟩
    · rw [mark_row hs] at hrow
      obtain ⟨_, _, rfl⟩ := Option.map_eq_some_iff.mp hrow
      rfl
    · have hstep := rowStep hs r
      rw [hrow] at hstep
      generalize ha : some row = after at hstep
      cases hstep with
      | same => exact ih hold ha.symm
      | insert hid hn =>
        obtain ⟨row', hrow', -⟩ := marked_eligible hr hold.acted
        simp [hn] at hrow'
      | mark => exact absurd rfl (hl _)
      | @finalize t' patch =>
        obtain ⟨row', hrow', rfl⟩ := Option.map_eq_some_iff.mp ha.symm
        simp only [finalized, patch_lastAttemptedAt hr hs, Option.none_or]
        exact ih hold hrow'

lemma stale_of_found {threshold : ℤ} {limit : ℕ} {ids : List Str}
    (hs : Step w (.act s ⟨.findStale threshold limit, .ok ids⟩) w') (hr : r ∈ ids) :
    r ∈ staleIds w.state.clock threshold w.state.rows ∧ ∃ row ∈ w.state.rows, row.requestId = r := by
  cases hs with
  | act ht hl =>
    have hf : FindStale w.state.clock threshold limit w.state.rows ids := hl
    have hmem := hf.1.subset hr
    obtain ⟨row, hrow, hid⟩ := List.mem_map.mp hmem
    exact ⟨hmem, row, (List.mem_filter.mp hrow).1, hid⟩

lemma mark_before_or_after (hf : FoundStale clock L s r T) (hm : MarkedAt clock L t r m) :
    ∃ L₁ L₂ w₁ threshold limit ids, L = L₁ ++ .act s ⟨.findStale threshold limit, .ok ids⟩ :: L₂ ∧ r ∈ ids ∧
      Run (start dep clock) L₁ w₁ ∧ w₁.state.clock = T ∧
      (MarkedAt clock L₁ t r m ∨ ∃ L₃ L₄, L = L₃ ++ .act t ⟨.markInProgress r, .ok ()⟩ :: L₄ ∧
        Acted L₃ s (.findStale threshold limit) (.ok ids)) := by
  obtain ⟨L₁, L₂, w₁, threshold, limit, ids, rfl, hr, h₁, hT⟩ := hf
  obtain ⟨L₃, L₄, w₃, hL, hlast, h₃, hm⟩ := hm
  refine ⟨L₁, L₂, w₁, threshold, limit, ids, rfl, hr, h₁, hT, ?_⟩
  rcases List.append_eq_append_iff.mp hL with ⟨es, hes, htail⟩ | ⟨es, hes, htail⟩
  · cases es with
    | nil => simp at htail
    | cons e es =>
      simp only [List.cons_append, List.cons.injEq] at htail
      obtain ⟨rfl, -⟩ := htail
      exact .inr ⟨L₃, L₄, hL, by simp [Acted, hes]⟩
  · cases es with
    | nil => simp at htail
    | cons e es =>
      simp only [List.cons_append, List.cons.injEq] at htail
      obtain ⟨rfl, rfl⟩ := htail
      exact .inl ⟨L₃, es, w₃, hes, fun t' ha => hlast t' (List.mem_append_left _ ha), h₃, hm⟩

lemma alive_since {L₁ L₂ : List (ProxyLabel dep)} {w₁ : ProxyWorld dep} (h₁ : Run (start dep clock) L₁ w₁)
    (h : Run (start dep clock) (L₁ ++ L₂) w) {o : Op} {res : Except Exn o.Ret} (ha : Acted L₁ t o res) {k : Kind}
    {p : Program Unit} (ht : w.threads t = some ⟨k, p⟩) : ∃ q, w₁.threads t = some ⟨k, q⟩ := by
  obtain ⟨task, L₀, ⟨x, hx⟩, hL, -⟩ := Run.acted_issued h₁ ha
  exact Run.thread_before h₁ h (fun _ => rfl) hx ht

theorem live_attempt_spared (h : RunWhere Timely (start dep clock) L w) {patch : FinalizePatch}
    {res : Except Exn Unit} (hsweep : Started L s .sweep) (hs : Step w (.act s ⟨.finalize r patch, res⟩) w')
    (hf : FoundStale clock L s r T) (hh : Handles w t r) (hm : MarkedAt clock L t r m) :
    m.instant ≤ T.instant - dep.config.store.staleThreshold := by
  obtain ⟨L₁, L₂, w₁, threshold, limit, ids, rfl, hr, h₁, rfl, hmark⟩ := mark_before_or_after hf hm
  obtain ⟨w₁', w₂, hr₁, hc, hquery⟩ := h.at_label
  obtain rfl := RunWhere.unique h₁ hr₁.run
  rcases hmark with hbefore | ⟨L₃, L₄, hL, hacted⟩
  · obtain ⟨hstale, row, hrow, rfl⟩ := stale_of_found hquery hr
    obtain ⟨x, job, p, ht, hid⟩ := hh
    obtain ⟨q, hq⟩ := alive_since h₁ h.run hbefore.acted ht
    have htask : threshold = dep.config.store.staleThreshold := by
      obtain ⟨task, hst, hspec⟩ := Run.issued h₁ hquery
      obtain rfl := Run.started_unique h.run hsweep (hst.mono (by simp))
      exact hspec.1
    have hat := last_attempted h₁ hbefore (Run.row_of_mem h₁ hrow)
    rw [← htask]
    exact hc.query s threshold limit _ rfl row hrow hstale t hbefore.latest ⟨x, job, q, hq, hid⟩ m hat
  · rw [hL] at h
    obtain ⟨w₃, w₄, h₃, hc₃, -⟩ := h.at_label
    obtain ⟨y, hy⟩ := hsweep
    have htr := Run.tracked h.run fun _ => rfl
    cases hs with
    | @act _ k o f _ hthread _ =>
      obtain rfl := htr.unique s _ _ (htr.live s _ hthread).1 (hL ▸ hy)
      obtain ⟨q, hq⟩ := alive_since h₃.run h.run hacted hthread
      exact absurd ⟨⟨y, q, hq⟩, threshold, limit, ids, hacted, hr⟩ (hc₃.mark t r rfl s)

section Computed

def clockAfter (now : DateTime) : ProxyLabel dep → DateTime
  | .env (.tick now') => now'
  | _ => now

lemma clock_after (t : ℕ) (k : Kind) (st : State) (o : Op) (res : Except Exn o.Ret) :
    (after dep t k st o res).clock = st.clock := by
  cases o
  case rawPut =>
    simp only [after, State.write]
    split <;> rfl
  all_goals
    cases res <;> rfl

lemma clock_step (hs : Step w l w') : w'.state.clock = clockAfter w.state.clock l := by
  cases hs with
  | @spawn t k ht hc =>
    simp only [World.spawn, onSpawn, clockAfter]
    split <;> rfl
  | act ht hl => exact clock_after _ _ _ _ _
  | @exit t k p ht hd =>
    simp only [World.exit, onExit, clockAfter]
    split <;> rfl
  | @env e he => cases e <;> rfl
  | crash => rfl

lemma Run.clock_eq (h : Run (start dep clock) L w) : w.state.clock = L.foldl clockAfter clock := by
  induction h with
  | nil => rfl
  | snoc _ _ hs ih => rw [clock_step hs, ih, List.foldl_append, List.foldl_cons, List.foldl_nil]

def cut (p : ProxyLabel dep → Bool) (L : List (ProxyLabel dep)) : List (ProxyLabel dep) × List (ProxyLabel dep) :=
  (L.takeWhile fun l => !p l, L.dropWhile fun l => !p l)

lemma cut_run (h : Run (start dep clock) L w) (p : ProxyLabel dep → Bool) : L = (cut p L).1 ++ (cut p L).2 ∧
    ∃ w₁, Run (start dep clock) (cut p L).1 w₁ ∧ w₁.state.clock = (cut p L).1.foldl clockAfter clock := by
  have hL : L = (cut p L).1 ++ (cut p L).2 := List.takeWhile_append_dropWhile.symm
  rw [hL] at h
  obtain ⟨w₁, h₁⟩ := RunWhere.prefix h
  exact ⟨hL, w₁, h₁, Run.clock_eq h₁⟩

def isQuery (s : ℕ) : ProxyLabel dep → Bool
  | .act s' ⟨.findStale _ _, _⟩ => s' = s
  | _ => false

def markedAt (L : List (ProxyLabel dep)) (t : ℕ) (r : Str) : Bool :=
  match (cut (isMark r) L).2 with
  | .act t' ⟨.markInProgress id, .ok ()⟩ :: L₂ => t' = t && id = r && !L₂.any (isMark r)
  | _ => false

def foundStale (L : List (ProxyLabel dep)) (s : ℕ) (r : Str) : Bool :=
  match (cut (isQuery s) L).2 with
  | .act s' ⟨.findStale _ _, .ok ids⟩ :: _ => s' = s && ids.any fun id => id = r
  | _ => false

lemma markedAt_sound (h : Run (start dep clock) L w) (hm : markedAt L t r = true) :
    MarkedAt clock L t r ((cut (isMark r) L).1.foldl clockAfter clock) := by
  obtain ⟨hL, w₁, h₁, hclock⟩ := cut_run h (isMark r)
  rw [markedAt] at hm
  split at hm
  · rename_i t' id L₂ hcut
    simp only [Bool.and_eq_true, decide_eq_true_eq, Bool.not_eq_true'] at hm
    obtain ⟨⟨rfl, rfl⟩, hlast⟩ := hm
    refine ⟨_, L₂, w₁, hcut ▸ hL, fun t' ha => ?_, h₁, hclock⟩
    have hany : L₂.any (isMark id) = true := List.any_eq_true.mpr ⟨_, ha, by simp [isMark]⟩
    rw [hlast] at hany
    cases hany
  · cases hm

lemma foundStale_sound (h : Run (start dep clock) L w) (hf : foundStale L s r = true) :
    FoundStale clock L s r ((cut (isQuery s) L).1.foldl clockAfter clock) := by
  obtain ⟨hL, w₁, h₁, hclock⟩ := cut_run h (isQuery s)
  rw [foundStale] at hf
  split at hf
  · rename_i s' threshold limit ids L₂ hcut
    simp only [Bool.and_eq_true, decide_eq_true_eq, List.any_eq_true] at hf
    obtain ⟨rfl, id, hr, rfl⟩ := hf
    exact ⟨_, L₂, w₁, threshold, limit, ids, hcut ▸ hL, hr, h₁, hclock⟩
  · cases hf

def timely (L : List (ProxyLabel dep)) (w : ProxyWorld dep) : ProxyLabel dep → Bool
  | .act _ ⟨.findStale threshold _, _⟩ => w.state.rows.all fun row =>
    row.lastAttemptedAt.all fun m => m.instant ≤ w.state.clock.instant - threshold
  | .act _ ⟨.markInProgress _, _⟩ => !L.any fun
    | .act _ ⟨.findStale _ _, _⟩ => true
    | _ => false
  | _ => true

lemma timely_sound (h : timely L w l = true) : Timely L w l := by
  constructor
  · rintro s threshold limit res rfl row hrow - t - - m hm
    simp only [timely, List.all_eq_true] at h
    have hall := h row hrow
    rw [Option.mem_def.mp hm] at hall
    simpa using hall
  · rintro t r rfl s ⟨-, threshold, limit, ids, ha, -⟩
    have hany : (L.any fun
        | .act _ ⟨.findStale _ _, _⟩ => true
        | _ => false) = true := List.any_eq_true.mpr ⟨_, ha, rfl⟩
    simp only [timely, hany, Bool.not_true, Bool.false_eq_true] at h

def givesUp (s : ℕ) (r : Str) : ProxyLabel dep → Bool
  | .act s' ⟨.finalize id patch, .ok ()⟩ => s' = s && id = r && patch.candidateStatus = .timeoutStale
  | _ => false

lemma givesUp_sound (h : givesUp s r l = true) :
    ∃ patch, patch.candidateStatus = .timeoutStale ∧ l = .act s ⟨.finalize r patch, .ok ()⟩ := by
  unfold givesUp at h
  split at h
  · rename_i id patch
    simp only [Bool.and_eq_true, decide_eq_true_eq] at h
    obtain ⟨⟨rfl, rfl⟩, hp⟩ := h
    exact ⟨patch, hp, rfl⟩
  · cases h

def sweepsLive (L : List (ProxyLabel dep)) (w : ProxyWorld dep) (l : ProxyLabel dep) : Bool :=
  L.any (spawned 3 isSweep) && givesUp 3 "a" l && foundStale L 3 "a" && handles w 2 "a" && markedAt L 2 "a"

theorem live_attempt_spared_slow :
    ∃ (L : List (ProxyLabel (demo none))) (w w' : ProxyWorld (demo none)) (patch : FinalizePatch)
      (m T : DateTime), RunWhere Timely (start (demo none) morning) L w ∧ Started L 3 .sweep ∧
      Step w (.act 3 ⟨.finalize "a" patch, .ok ()⟩) w' ∧ FoundStale morning L 3 "a" T ∧ Handles w 2 "a" ∧
      MarkedAt morning L 2 "a" m ∧ m.instant ≤ T.instant - (demo none).config.store.staleThreshold := by
  obtain ⟨L, w, l, w', hr, hs, hP⟩ := (driver (demo none)).exists_run_step (c := timely) timely_sound
    (start (demo none) morning)
    (boot 0 ++ begin 1 (.chat (demoChat "a" "hi")) ++ acts 11 1 (replies "nope") ++ begin 2 (.handle ⟨"a", 1⟩) ++
      acts 3 2 (replies "nope") ++ tick anHourLater ++ begin 3 .sweep ++ acts 2 3 (replies "nope"))
    (.act 3 (replies "nope")) sweepsLive (by decide +kernel)
  simp only [sweepsLive, Bool.and_eq_true] at hP
  obtain ⟨⟨⟨⟨hst, hl⟩, hf⟩, hh⟩, hm⟩ := hP
  obtain ⟨patch, -, rfl⟩ := givesUp_sound hl
  have hst := started_sweep hst
  have hf := foundStale_sound hr.run hf
  have hh := handles_sound hh
  have hm := markedAt_sound hr.run hm
  exact ⟨L, w, w', patch, _, _, hr, hst, hs, hf, hh, hm, live_attempt_spared hr hst hs hf hh hm⟩

/-- The job has waited in the queue for an hour when its handler marks the row, just before the sweep comes. -/
theorem live_attempt_swept :
    ∃ (L : List (ProxyLabel (demo none))) (w w' : ProxyWorld (demo none)) (patch : FinalizePatch),
      Run (start (demo none) morning) L w ∧ Started L 3 .sweep ∧ Step w (.act 3 ⟨.finalize "a" patch, .ok ()⟩) w' ∧
      patch.candidateStatus = .timeoutStale ∧ FoundStale morning L 3 "a" anHourLater ∧ Handles w 2 "a" ∧
      MarkedAt morning L 2 "a" anHourLater ∧
      ¬ anHourLater.instant ≤ anHourLater.instant - (demo none).config.store.staleThreshold := by
  obtain ⟨L, w, l, w', hr, hs, hP⟩ := (driver (demo none)).exists_run_step (C := fun _ _ _ => True)
    (c := fun _ _ _ => true)
    (fun _ => trivial) (start (demo none) morning)
    (boot 0 ++ begin 1 (.chat (demoChat "a" "hi")) ++ acts 11 1 (replies "nope") ++ tick anHourLater ++
      begin 2 (.handle ⟨"a", 1⟩) ++ acts 3 2 (replies "nope") ++ begin 3 .sweep ++ acts 2 3 (replies "nope"))
    (.act 3 (replies "nope")) (fun L w l => sweepsLive L w l && (cut (isQuery 3) L).1.foldl clockAfter morning =
      anHourLater &&
      (cut (isMark "a") L).1.foldl clockAfter morning = anHourLater) (by decide +kernel)
  simp only [sweepsLive, Bool.and_eq_true, decide_eq_true_eq] at hP
  obtain ⟨⟨⟨⟨⟨⟨hst, hl⟩, hf⟩, hh⟩, hm⟩, hT⟩, hmT⟩ := hP
  obtain ⟨patch, hp, rfl⟩ := givesUp_sound hl
  have hf := foundStale_sound hr hf
  have hm := markedAt_sound hr hm
  rw [hT] at hf
  rw [hmT] at hm
  exact ⟨L, w, w', patch, hr, started_sweep hst, hs, hp, hf, handles_sound hh, hm, by decide⟩

end Computed

end ShadowProxy

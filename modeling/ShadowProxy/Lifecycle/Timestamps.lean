import ShadowProxy.Lifecycle.LiveAttempt
import ShadowProxy.Lifecycle.Recorded
import ShadowProxy.Scenario

/-! When things happened, as the rows have it. -/

namespace ShadowProxy

open Effects Prog SqlComparisonStore CandidateHandler

/-- The clock was read as `now` at a moment when `P` held of the past. -/
def ReadWhen (P : List Ev → Prop) (h : List Ev) (now : DateTime) : Prop :=
  ∃ h₁ h₂, h = h₁ ++ ⟨.now, .ok now⟩ :: h₂ ∧ P h₁

section ReadWhen

variable {P : List Ev → Prop} {h h' : List Ev} {now : DateTime}

lemma readWhen_last (hP : P h) : ReadWhen P (h ++ [⟨.now, .ok now⟩]) now := ⟨h, [], rfl, hP⟩

lemma ReadWhen.mono (hr : ReadWhen P h now) (hh : h <+: h') : ReadWhen P h' now := by
  obtain ⟨h₁, h₂, rfl, hP⟩ := hr
  obtain ⟨l, rfl⟩ := hh
  exact ⟨h₁, h₂ ++ l, by simp, hP⟩

end ReadWhen

structure Dates (Saw : List Ev → Prop) (h : List Ev) (patch : FinalizePatch) : Prop where
  lastAttemptedAt : patch.lastAttemptedAt = none
  evaluatedAt : ∃ now, patch.evaluatedAt = some now ∧ ReadWhen Saw h now

section Programs

variable (dep : Deployment)

def StaleRead (r : Str) (h : List Ev) : Prop :=
  ∃ limit ids, Did h (.findStale dep.config.store.staleThreshold limit) (.ok ids) ∧ r ∈ ids

def Read (r : Str) (h : List Ev) : Prop := ∃ record, Fetched h r record

def Dated (h : List Ev) : Op → Prop
  | .insertPending record => ReadWhen (fun _ => True) h record.receivedAt
  | .finalize r patch =>
    patch.candidateStatus = .timeoutStale ∧ Dates (StaleRead dep r) h patch ∨
      patch.candidateStatus ≠ .timeoutStale ∧ Dates (Read r) h patch
  | _ => True

def Op.undated : Op → Prop
  | .insertPending _ | .finalize _ _ => False
  | _ => True

variable {dep}

lemma dated_other {h : List Ev} {o : Op} (ho : o.undated) : Dated dep h o := by
  cases o
  case insertPending | finalize => exact ho.elim
  all_goals trivial

lemma issues_dated_chat (c : ChatCall) : Issues (Dated dep) (taskProgram dep (.chat c)) := by
  have hother : ∀ (h : List Ev) (o : Op), o.undated → Dated dep h o := fun _ _ => dated_other
  refine obeys_bind_performs (P := Op.undated) ?_ hother fun _ => trivial
  simp only [chat, obeys_bind, obeys_perform, implies_true, and_true]
  refine ⟨trivial, fun receivedAt => ?_⟩
  cases hr : dep.config.route c.body.route with
  | none => trivial
  | some routeCfg =>
    have hread : ReadWhen (fun _ => True) ([] ++ [⟨.now, .ok receivedAt⟩]) receivedAt := readWhen_last trivial
    refine (obeys_bind _ _).mpr ((obeys_runPrimary (fun _ _ => trivial) (fun _ => trivial) fun _ => trivial).mono
      (fun h₁ outcome hh₁ _ => ?_) fun _ _ _ _ => trivial)
    refine obeys_bind_performs (P := Op.undated) ?_ hother fun _ =>
      performs_respond (fun _ _ => trivial) trivial trivial routeCfg outcome
    have harchive : @Performs proxy _ Op.undated
        (archive dep (c.persistArgs dep.requestHash receivedAt routeCfg) outcome) :=
      performs_archive trivial (fun _ => trivial) outcome
    simp only [persistPending, obeys_bind]
    refine (harchive.obeys hother).mono (fun h₂ key hh₂ _ => ?_) fun _ _ _ _ => trivial
    have hinsert : ∀ action, Obeys (Dated dep) h₂ (insertRecord dep
        (pendingRecord (c.persistArgs dep.requestHash receivedAt routeCfg) outcome key action)) (fun _ _ => True)
          fun _ _ => True :=
      fun action => (obeys_insertRecord (fun _ _ => trivial) (hread.mono (hh₁.trans hh₂))).mono
        (fun _ _ _ _ => trivial)
        fun _ _ _ _ => trivial
    split
    · simp only [obeys_bind, obeys_orRaise, implies_true, and_true]
      exact fun action _ => hinsert action
    · exact hinsert none

lemma issues_dated_sweep : Issues (Dated dep) (taskProgram dep .sweep) := by
  simp only [Issues, taskProgram, Sweeper.runOnce, obeys_bind, obeys_perform, implies_true, and_true]
  refine ⟨trivial, fun ids => ?_⟩
  split
  · trivial
  · simp only [obeys_bind, obeys_perform, pure_eq, obeys_ret, implies_true, and_true]
    refine ⟨trivial, fun now => ?_⟩
    refine (obeys_forEach (fun id hid h' hh => ?_) fun _ _ => trivial).mono (fun _ _ _ _ => trivial)
      fun _ _ _ _ => trivial
    simp only [obeys_perform, and_true, implies_true]
    have hstale : StaleRead dep id [⟨.findStale dep.config.store.staleThreshold 1000, .ok ids⟩] :=
      ⟨1000, ids, did_last [] _ _, hid⟩
    exact .inl ⟨rfl, rfl, now, rfl, (readWhen_last hstale).mono hh⟩

section Handler

variable {r : Str} {h : List Ev}

lemma Read.mono {h' : List Ev} (hr : Read r h) (hh : h <+: h') : Read r h' := by
  obtain ⟨record, hf⟩ := hr
  exact ⟨record, hf.mono hh⟩

lemma obeys_now_finalize (hr : Read r h) {patch : DateTime → FinalizePatch}
    (hp : ∀ now, (patch now).candidateStatus ≠ .timeoutStale ∧ (patch now).lastAttemptedAt = none ∧
      (patch now).evaluatedAt = some now) :
    Obeys (Dated dep) h (do
      let now ← perform .now
      perform (.finalize r (patch now))) (fun _ _ => True) fun _ _ => True := by
  simp only [obeys_bind, obeys_perform, implies_true, and_true]
  refine ⟨trivial, fun now => .inr ?_⟩
  obtain ⟨hs, hl, he⟩ := hp now
  exact ⟨hs, hl, now, he, readWhen_last hr⟩

lemma completes_undated : Completes Op.undated :=
  ⟨trivial, trivial, fun _ _ => trivial, fun _ => trivial, fun _ _ => trivial, fun _ => trivial⟩

lemma obeys_dated_bind {α β : Type} {p : Program α} {f : α → Program β} (hp : @Performs proxy _ Op.undated p)
    (hf : ∀ h' a, h <+: h' → Obeys (Dated dep) h' (f a) (fun _ _ => True) fun _ _ => True) :
    Obeys (Dated dep) h (p >>= f) (fun _ _ => True) fun _ _ => True :=
  (obeys_bind _ _).mpr ((hp.obeys fun _ _ => dated_other).mono (fun h' a hh _ => hf h' a hh) fun _ _ _ _ =>
    trivial)

lemma obeys_dated_finalizeError (hr : Read r h) (error label : Str) (start : ℚ) :
    Obeys (Dated dep) h (finalizeError r error start label) (fun _ _ => True) fun _ _ => True := by
  have hcount : ∀ m, @Performs proxy _ Op.undated (perform (.count m)) :=
    fun m => performs_perform (I := proxy) trivial
  have htail : ∀ h' latencyMs, h <+: h' → Obeys (Dated dep) h' (do
      perform (.count (.verdictsTotal routeName .candidateError))
      let now ← perform .now
      perform (.finalize r (errorPatch error label latencyMs now))) (fun _ _ => True) fun _ _ => True := by
    intro h' latencyMs hh
    refine obeys_dated_bind (hcount _) fun h'' _ hh' => ?_
    exact obeys_now_finalize (hr.mono (hh.trans hh')) fun now => ⟨by simp [errorPatch], rfl, rfl⟩
  refine obeys_dated_bind (performs_elapsedMs completes_undated start) fun h₁ latencyMs hh₁ => ?_
  refine obeys_dated_bind (hcount _) fun h₂ _ hh₂ => ?_
  split
  · exact obeys_dated_bind (hcount _) fun h₃ _ hh₃ => htail h₃ latencyMs (hh₁.trans (hh₂.trans hh₃))
  · exact htail h₂ latencyMs (hh₁.trans hh₂)

lemma obeys_dated_evaluateReply (hr : Read r h) (record : ComparisonRow) (body : Json) (start : ℚ)
    (resp : ChatResponse) :
    Obeys (Dated dep) h (evaluateReply dep r record body start resp) (fun _ _ => True) fun _ _ => True := by
  refine obeys_dated_bind (performs_elapsedMs completes_undated start) fun h₁ latencyMs hh₁ => ?_
  refine obeys_dated_bind (performs_orRaise _) fun h₂ text hh₂ => ?_
  refine obeys_dated_bind (performs_orRaise _) fun h₃ result hh₃ => ?_
  refine obeys_dated_bind (performs_mergeCandidateIntoRaw (fun _ => trivial) (fun _ _ => trivial) _ _)
    fun h₄ _ hh₄ => ?_
  have hr₄ := hr.mono (hh₁.trans (hh₂.trans (hh₃.trans hh₄)))
  have hverdict : @Performs proxy _ Op.undated (recordVerdict dep r record body text resp result latencyMs) := by
    have htape := @performs_tape dep Op.undated trivial (fun _ => trivial) r record body text resp result latencyMs
    refine .bind (performs_perform (I := proxy) trivial) fun _ => ?_
    cases hkey : verdictCounter result.verdict with
    | some key => exact .bind (performs_perform (I := proxy) (o := .count (.business key)) trivial) fun _ => htape
    | none => exact htape
  simp only [obeys_bind, obeys_perform, implies_true, and_true]
  refine ⟨trivial, fun now => ⟨.inr ?_, fun _ => hverdict.obeys fun _ _ => dated_other⟩⟩
  have hs : (okPatch result latencyMs now).candidateStatus ≠ .timeoutStale := by simp [okPatch]
  exact ⟨hs, rfl, now, rfl, readWhen_last hr₄⟩

lemma obeys_dated_shadow (hr : Read r h) (record : ComparisonRow) :
    Obeys (Dated dep) h (shadow dep r record) (fun _ _ => True) fun _ _ => True := by
  refine obeys_dated_bind (performs_loadRequestBody (fun _ => trivial) _) fun h₁ body hh₁ => ?_
  refine obeys_dated_bind (performs_orRaise _) fun h₂ req hh₂ => ?_
  refine obeys_dated_bind (performs_perform (I := proxy) trivial) fun h₃ start hh₃ => ?_
  refine obeys_dated_bind (performs_perform (I := proxy) trivial).attempt fun h₄ res hh₄ => ?_
  have hr₄ := hr.mono (hh₁.trans (hh₂.trans (hh₃.trans hh₄)))
  cases res with
  | ok resp => exact obeys_dated_evaluateReply hr₄ record body start resp
  | error e =>
    cases e
    case llmTimeout | llmCall => exact obeys_dated_finalizeError hr₄ _ _ start
    all_goals trivial

lemma issues_dated_handle (job : CandidateJob) : Issues (Dated dep) (taskProgram dep (.handle job)) := by
  simp only [Issues, taskProgram, call, obeys_bind, obeys_perform, implies_true, and_true]
  refine ⟨trivial, fun record => ?_⟩
  cases record with
  | none => trivial
  | some record =>
    have hread : Read job.requestId ([] ++ [⟨.get job.requestId, .ok (some record)⟩]) := ⟨record, did_last _ _ _⟩
    dsimp only
    split
    · exact obeys_now_finalize hread fun now => ⟨by simp [droppedPatch], rfl, rfl⟩
    · refine obeys_dated_bind (performs_perform (I := proxy) (o := .markInProgress job.requestId) trivial)
        fun h₁ _ hh₁ => ?_
      exact obeys_dated_shadow (hread.mono hh₁) record

end Handler

end Programs

section Clock

variable {dep : Deployment} {clock : DateTime} {L : List (ProxyLabel dep)} {w w' : ProxyWorld dep}
  {l : ProxyLabel dep} {t : ℕ} {r : Str}

lemma clock_le_step (hs : Step w l w') : w.state.clock.instant ≤ w'.state.clock.instant := by
  rw [clock_step hs]
  cases hs with
  | @env e he =>
    cases e with
    | tick now => exact he
    | putConfig x rate => exact le_rfl
  | _ => exact le_rfl

lemma Run.clock_le {L₂ : List (ProxyLabel dep)} {w₂ : ProxyWorld dep} (h : Run (start dep clock) L w)
    (h₂ : Run (start dep clock) (L ++ L₂) w₂) : w.state.clock.instant ≤ w₂.state.clock.instant :=
  h.keep h₂ (P := fun v : ProxyWorld dep => w.state.clock.instant ≤ v.state.clock.instant) le_rfl fun _ _ hs hw =>
    hw.trans (clock_le_step hs)

lemma Run.start_le (h : Run (start dep clock) L w) : clock.instant ≤ w.state.clock.instant := by
  induction h with
  | nil => exact le_refl clock.instant
  | snoc _ _ hs ih => exact ih.trans (clock_le_step hs)

lemma Run.row_later {L₂ : List (ProxyLabel dep)} {w₂ : ProxyWorld dep} (h : Run (start dep clock) L w)
    (h₂ : Run (start dep clock) (L ++ L₂) w₂) {row : ComparisonRow} (hr : w.state.row r = some row) :
    ∃ row₂, w₂.state.row r = some row₂ ∧ row₂.toPendingComparison = row.toPendingComparison := by
  refine h.keep h₂ (P := fun v : ProxyWorld dep => ∃ row₂, v.state.row r = some row₂ ∧
    row₂.toPendingComparison = row.toPendingComparison) ⟨row, hr, rfl⟩ fun _ _ hs hw => ?_
  obtain ⟨row₁, hrow₁, hp₁⟩ := hw
  obtain ⟨row₂, hrow₂, hp₂⟩ := row_persists hs hrow₁
  exact ⟨row₂, hrow₂, hp₂.trans hp₁⟩

lemma history_split {e : Ev} {h₁ h₂ : List Ev} (h : history t L = h₁ ++ e :: h₂) :
    ∃ L₁ L₂, L = L₁ ++ .act t e :: L₂ ∧ history t L₁ = h₁ := by
  obtain ⟨M₁, M₂, rfl, rfl, hM⟩ := List.filterMap_eq_append_iff.mp h
  obtain ⟨N₁, l, N₂, rfl, hN, hl, -⟩ := List.filterMap_eq_cons_iff.mp hM
  have hact : l = .act t e := by
    cases l with
    | act u e' =>
      simp only [Label.eventOf, Option.ite_none_right_eq_some, Option.some.injEq] at hl
      rw [hl.1, hl.2]
    | _ => cases hl
  refine ⟨M₁ ++ N₁, N₂, by simp [hact], ?_⟩
  rw [history, List.filterMap_append, List.filterMap_eq_nil_iff.mpr hN, List.append_nil]

lemma Run.read_at (h : Run (start dep clock) L w) {P : List Ev → Prop} {now : DateTime}
    (hr : ReadWhen P (history t L) now) :
    ∃ L₁ L₂ w₁, L = L₁ ++ L₂ ∧ Run (start dep clock) L₁ w₁ ∧ P (history t L₁) ∧ w₁.state.clock = now := by
  obtain ⟨h₁, h₂, he, hP⟩ := hr
  obtain ⟨L₁, L₂, rfl, rfl⟩ := history_split he
  obtain ⟨w₁, w₂, hrun, -, hs⟩ := RunWhere.at_label h
  refine ⟨L₁, _, w₁, rfl, hrun, hP, ?_⟩
  cases hs with
  | act _ hl => exact Eq.symm hl

lemma Run.dated (h : Run (start dep clock) L w) {o : Op} {res : Except Exn o.Ret}
    (hs : Step w (.act t ⟨o, res⟩) w') : Dated dep (history t L) o := by
  obtain ⟨⟨x, task⟩, -, -, -, hJ⟩ := (h.tracked fun _ => rfl).issued hs
  cases task with
  | chat c => exact hJ _ (issues_dated_chat c)
  | handle job => exact hJ _ (issues_dated_handle job)
  | sweep => exact hJ _ issues_dated_sweep
  | startup =>
    have hspec := hJ _ (issues_startup dep)
    cases o
    case insertPending | finalize => exact hspec.elim
    all_goals trivial

lemma Run.received (h : Run (start dep clock) L w) {row : ComparisonRow} (hr : w.state.row r = some row) :
    clock.instant ≤ row.receivedAt.instant ∧ row.receivedAt.instant ≤ w.state.clock.instant := by
  obtain ⟨-, t, ha⟩ := Run.row_inserted h hr
  obtain ⟨L₁, L₂, w₁, w₂, rfl, h₁, hs⟩ := Run.split h ha
  obtain ⟨L₀, M, w₀, rfl, h₀, -, hnow⟩ := Run.read_at h₁ (Run.dated h₁ hs)
  rw [← hnow]
  constructor
  · exact Run.start_le h₀
  · apply Run.clock_le h₀
    rwa [List.append_assoc] at h

end Clock

structure ComparisonRow.Timely (dep : Deployment) (now : DateTime) (row : ComparisonRow) : Prop where
  received : row.receivedAt.instant ≤ now.instant
  attempted : ∀ at_ ∈ row.lastAttemptedAt, row.receivedAt.instant ≤ at_.instant ∧ at_.instant ≤ now.instant
  evaluated : ∀ at_ ∈ row.evaluatedAt, row.receivedAt.instant ≤ at_.instant ∧ at_.instant ≤ now.instant
  stale : row.candidateStatus = .timeoutStale →
    ∃ at_ ∈ row.evaluatedAt, row.receivedAt.instant + dep.config.store.staleThreshold < at_.instant

section Timely

variable {dep : Deployment} {clock : DateTime} {L : List (ProxyLabel dep)} {w w' : ProxyWorld dep}
  {l : ProxyLabel dep} {t : ℕ} {r : Str} {row : ComparisonRow}

lemma ComparisonRow.Timely.later {now now' : DateTime} (h : row.Timely dep now)
    (hle : now.instant ≤ now'.instant) : row.Timely dep now' where
  received := h.received.trans hle
  attempted at_ ha := ⟨(h.attempted at_ ha).1, (h.attempted at_ ha).2.trans hle⟩
  evaluated at_ ha := ⟨(h.evaluated at_ ha).1, (h.evaluated at_ ha).2.trans hle⟩
  stale := h.stale

lemma findStale_overdue (h : Run (start dep clock) L w) {threshold : ℤ} {limit : ℕ} {ids : List Str}
    (hf : FindStale w.state.clock threshold limit w.state.rows ids) (hr : r ∈ ids) :
    ∃ row, w.state.row r = some row ∧ row.receivedAt.instant < w.state.clock.instant - threshold := by
  obtain ⟨row, hm, rfl⟩ := List.mem_map.mp (hf.1.subset hr)
  obtain ⟨hm, hs⟩ := List.mem_filter.mp hm
  exact ⟨row, Run.row_of_mem h hm, of_decide_eq_true (Bool.and_eq_true_iff.mp hs).2⟩

lemma Run.read_received (h : Run (start dep clock) L w) {now : DateTime} (hrow : w.state.row r = some row)
    (hr : ReadWhen (Read r) (history t L) now) :
    row.receivedAt.instant ≤ now.instant ∧ now.instant ≤ w.state.clock.instant := by
  obtain ⟨L₁, L₂, w₁, rfl, h₁, ⟨record, hf⟩, rfl⟩ := Run.read_at h hr
  obtain ⟨row₁, hrow₁, -⟩ := Run.get_row h₁ (did_history.mp hf)
  obtain ⟨row₂, hrow₂, hp⟩ := Run.row_later h₁ h hrow₁
  obtain rfl := Option.some.inj (hrow.symm.trans hrow₂)
  rw [hp]
  exact ⟨(Run.received h₁ hrow₁).2, Run.clock_le h₁ h⟩

lemma Run.found_overdue (h : Run (start dep clock) L w) {now : DateTime} (hrow : w.state.row r = some row)
    (hr : ReadWhen (StaleRead dep r) (history t L) now) :
    row.receivedAt.instant + dep.config.store.staleThreshold < now.instant ∧
      row.receivedAt.instant ≤ now.instant ∧ now.instant ≤ w.state.clock.instant := by
  obtain ⟨L₁, L₂, w₁, rfl, h₁, ⟨limit, ids, hf, hid⟩, rfl⟩ := Run.read_at h hr
  obtain ⟨L₀, M, w₀, w₀', rfl, h₀, hs⟩ := Run.split h₁ (did_history.mp hf)
  have hfound : FindStale w₀.state.clock dep.config.store.staleThreshold limit w₀.state.rows ids := by
    cases hs with
    | act _ hl => exact hl
  obtain ⟨row₀, hrow₀, hlt⟩ := findStale_overdue h₀ hfound hid
  have hle := Run.clock_le h₀ h₁
  have hlater := h
  rw [List.append_assoc] at hlater
  obtain ⟨row₂, hrow₂, hp⟩ := Run.row_later h₀ hlater hrow₀
  obtain rfl := Option.some.inj (hrow.symm.trans hrow₂)
  rw [hp]
  refine ⟨?_, (Run.received h₀ hrow₀).2.trans hle, Run.clock_le h₁ h⟩
  omega

lemma timely_finalize (h : Run (start dep clock) L w) {patch : FinalizePatch}
    (hs : Step w (.act t ⟨.finalize r patch, .ok ()⟩) w') (hrow : w.state.row r = some row)
    (hi : row.Timely dep w.state.clock) : (finalized w.state.clock patch row).Timely dep w.state.clock := by
  have hdates : patch.lastAttemptedAt = none ∧ ∃ now, patch.evaluatedAt = some now ∧
      row.receivedAt.instant ≤ now.instant ∧ now.instant ≤ w.state.clock.instant ∧
      (patch.candidateStatus = .timeoutStale →
        row.receivedAt.instant + dep.config.store.staleThreshold < now.instant) := by
    rcases Run.dated h hs with ⟨_, hl, now, he, hr⟩ | ⟨hne, hl, now, he, hr⟩
    · obtain ⟨hlt, hle, hnow⟩ := Run.found_overdue h hrow hr
      exact ⟨hl, now, he, hle, hnow, fun _ => hlt⟩
    · obtain ⟨hle, hnow⟩ := Run.read_received h hrow hr
      exact ⟨hl, now, he, hle, hnow, fun hst => absurd hst hne⟩
  obtain ⟨hl, now, he, hle, hnow, hstale⟩ := hdates
  constructor
  · exact hi.received
  · intro at_ ha
    apply hi.attempted
    simpa [finalized, hl] using ha
  · intro at_ ha
    obtain rfl : now = at_ := by simpa [finalized, he] using ha
    exact ⟨hle, hnow⟩
  · intro hst
    exact ⟨now, by simp [finalized, he], hstale hst⟩

lemma timely_step (h : Run (start dep clock) L w) (hs : Step w l w') (hi : ∀ row, w.state.row r = some row →
    row.Timely dep w.state.clock) (hrow : w'.state.row r = some row) : row.Timely dep w'.state.clock := by
  have hreceived := (Run.received (h.snoc hs) hrow).2
  have hstep := rowStep hs r
  rw [hrow] at hstep
  generalize ha : some row = after at hstep
  cases hstep with
  | same => exact (hi row ha.symm).later (clock_le_step hs)
  | @insert t record hid hn =>
    obtain rfl := Option.some.inj ha
    constructor
    · exact hreceived
    · intro at_ hat
      cases hat
    · intro at_ hat
      cases hat
    · intro hst
      cases hst
  | @mark t =>
    obtain ⟨row₀, hrow₀, rfl⟩ := Option.map_eq_some_iff.mp ha.symm
    have hi₀ := hi row₀ hrow₀
    have hle := clock_le_step hs
    constructor
    · exact hreceived
    · intro at_ hat
      obtain rfl : w.state.clock = at_ := Option.some.inj hat
      exact ⟨hi₀.received, hle⟩
    · exact (hi₀.later hle).evaluated
    · intro hst
      cases hst
  | @finalize t patch =>
    obtain ⟨row₀, hrow₀, rfl⟩ := Option.map_eq_some_iff.mp ha.symm
    exact (timely_finalize h hs hrow₀ (hi row₀ hrow₀)).later (clock_le_step hs)

theorem rows_timely (h : Run (start dep clock) L w) (hrow : w.state.row r = some row) :
    clock.instant ≤ row.receivedAt.instant ∧ row.Timely dep w.state.clock := by
  refine ⟨(Run.received h hrow).1, ?_⟩
  induction h generalizing row with
  | nil => cases hrow
  | snoc hr _ hs ih => exact timely_step hr hs (fun row hrow => ih hrow) hrow

def abandoned : List (DemoCommand none) :=
  boot 0 ++ begin 1 (.chat (demoChat "a" "hi")) ++ acts 11 1 (replies "nope") ++ tick anHourLater ++
    begin 2 .sweep ++
    acts 3 2 (replies "nope")

theorem rows_timely_abandoned :
    ∃ (L : List (ProxyLabel (demo none))) (w : ProxyWorld (demo none)) (row : ComparisonRow),
    Run (start (demo none) morning) L w ∧ w.state.row "a" = some row ∧ row.candidateStatus = .timeoutStale ∧
      morning.instant ≤ row.receivedAt.instant ∧ row.Timely (demo none) w.state.clock := by
  obtain ⟨L, w, hr, hP⟩ := (driver (demo none)).exists_free_run (start (demo none) morning) abandoned
    (fun _ w => (w.state.row "a").any fun row => row.candidateStatus = .timeoutStale) (by decide +kernel)
  simp only [Option.any_eq_true, decide_eq_true_eq] at hP
  obtain ⟨row, hrow, hs⟩ := hP
  exact ⟨L, w, row, hr, hrow, hs, rows_timely hr hrow⟩

end Timely

end ShadowProxy

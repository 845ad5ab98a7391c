import ShadowProxy.Scenario

/-! When a request that the gate rejected never reaches the candidate. -/

namespace ShadowProxy

open Effects SqlComparisonStore

variable {dep : Deployment} {clock : DateTime} {w w' : ProxyWorld dep} {L : List (ProxyLabel dep)}
  {l : ProxyLabel dep} {r : Str}

def SampledIn (L : List (ProxyLabel dep)) (r : Str) : Prop :=
  ∃ t c rate draw, Started L t (.chat c) ∧ c.requestId = r ∧ Acted L t .sample (.ok (rate, draw)) ∧ draw < rate

/-- What a startup finds unfinished, with a primary response, once passed the gate. -/
def RequeuesSampledIn (L : List (ProxyLabel dep)) (w : ProxyWorld dep) (l : ProxyLabel dep) : Prop :=
  ∀ t limit ids, l = .act t ⟨.findAllUnfinished limit, .ok ids⟩ → ∀ r ∈ ids, ∀ row,
    w.state.row r = some row → row.primaryStatus = .ok → SampledIn L r

def Accounted (L : List (ProxyLabel dep)) (s : State) (r : Str) : Prop :=
  SampledIn L r ∨ ∃ row, s.row r = some row ∧ row.primaryStatus ≠ .ok

lemma SampledIn.snoc (h : SampledIn L r) (l : ProxyLabel dep) : SampledIn (L ++ [l]) r := by
  obtain ⟨t, c, rate, draw, hs, hid, ha, hd⟩ := h
  exact ⟨t, c, rate, draw, hs.mono (by simp), hid, ha.snoc l, hd⟩

lemma Accounted.step (h : Accounted L w.state r) (hs : Step w l w') : Accounted (L ++ [l]) w'.state r := by
  rcases h with h | ⟨row, hr, hp⟩
  · exact .inl (h.snoc l)
  · obtain ⟨row', hr', he⟩ := row_persists hs hr
    exact .inr ⟨row', hr', by rwa [he]⟩

structure Gated (L : List (ProxyLabel dep)) (s : State) : Prop where
  queued : ∀ x, ∀ job ∈ (s.procs x).queue, Accounted L s job.requestId
  handled : ∀ t job, Started L t (.handle job) → Accounted L s job.requestId
  found : ∀ t limit ids, Acted L t (.findAllUnfinished limit) (.ok ids) → ∀ r ∈ ids, Accounted L s r

lemma Gated.enqueued (hg : Gated L w.state) (h : Run (start dep clock) L w) {t : ℕ}
    {res : Except Exn DispatchStatus} (hs : Step w (.act t ⟨.enqueue r, res⟩) w') : Accounted L w.state r := by
  obtain ⟨task, ht, hspec⟩ := Run.issued h hs
  cases task with
  | chat c =>
    obtain ⟨hid, _, ⟨⟨rate, draw⟩, hd⟩, hin⟩ := hspec
    exact .inl ⟨t, c, rate, draw, ht, hid.symm, did_history.mp hd, hin rate draw hd⟩
  | startup =>
    obtain ⟨limit, ids, hd, hr⟩ := hspec
    exact hg.found t limit ids (did_history.mp hd) r hr
  | handle job => exact hspec.elim
  | sweep => exact hspec.elim

lemma Gated.step (hg : Gated L w.state) (h : Run (start dep clock) L w) (hc : RequeuesSampledIn L w l)
    (hs : Step w l w') : Gated (L ++ [l]) w'.state where
  queued x job hj := by
    rcases queue_step hs hj with hj | ⟨res, rfl⟩
    · exact (hg.queued x job hj).step hs
    · exact (hg.enqueued h hs).step hs
  handled t job hst := by
    obtain ⟨x, hx⟩ := hst
    rcases List.mem_append.mp hx with hx | hx
    · exact (hg.handled t job ⟨x, hx⟩).step hs
    · obtain rfl := List.mem_singleton.mp hx
      exact (hg.queued x job (handle_spawned hs)).step hs
  found t limit ids ha r hr := by
    rcases acted_snoc.mp ha with ha | rfl
    · exact (hg.found t limit ids ha r hr).step hs
    · obtain ⟨row, hrow⟩ := findAllUnfinished_row h (by cases hs; assumption) hr
      refine Accounted.step ?_ hs
      by_cases hp : row.primaryStatus = .ok
      · exact .inl (hc t limit ids rfl r hr row hrow hp)
      · exact .inr ⟨row, hrow, hp⟩

lemma gated_start : Gated ([] : List (ProxyLabel dep)) (start dep clock).state where
  queued _ _ hj := nomatch hj
  handled _ _ hs := nomatch hs.choose_spec
  found _ _ _ ha := nomatch ha

lemma gated (h : RunWhere RequeuesSampledIn (start dep clock) L w) : Gated L w.state := by
  induction h with
  | nil => exact gated_start
  | snoc hr hc hs ih => exact ih.step hr.run hc hs

theorem candidate_called_only_if_sampled_in (h : RunWhere RequeuesSampledIn (start dep clock) L w) {t : ℕ}
    {req : ChatRequest} {timeoutS : PyFloat} {res : Except Exn ChatResponse}
    (ha : Acted L t (.chatCompletions .candidate req timeoutS) res) :
    ∃ job, Started L t (.handle job) ∧ SampledIn L job.requestId := by
  obtain ⟨task, L₁, ht, hL, hspec⟩ := Run.acted_issued h.run ha
  cases task with
  | handle job =>
    obtain ⟨_, _, record, body, hsh, _⟩ := hspec
    refine ⟨job, ht, ((gated h).handled t job ht).resolve_right ?_⟩
    rintro ⟨row, hrow, hp⟩
    obtain ⟨row', hrow', he⟩ := Run.get_row h.run (List.IsPrefix.subset hL (did_history.mp hsh.1))
    obtain rfl := Option.some.inj (hrow.symm.trans hrow')
    exact hp ((congrArg PendingComparison.primaryStatus he).trans hsh.2)
  | chat c => exact absurd hspec.1 (by simp)
  | sweep => exact hspec.elim
  | startup => exact hspec.elim

def sampledIn (L : List (ProxyLabel dep)) (r : Str) : Bool :=
  L.any fun
    | .act t e => drew true e && L.any (spawned t (isChat r))
    | _ => false

lemma sampledIn_iff : sampledIn L r = true ↔ SampledIn L r := by
  simp only [sampledIn, List.any_eq_true (l := L)]
  constructor
  · rintro ⟨l, hl, hc⟩
    cases l <;> simp only [Bool.and_eq_true, Bool.false_eq_true] at hc
    rename_i t e
    obtain ⟨c, hs, hid⟩ := started_chat.mp hc.2
    obtain ⟨rate, draw, ha, hd⟩ := acted_drew.mp (any_acted.mpr ⟨e, hl, hc.1⟩)
    exact ⟨t, c, rate, draw, hs, hid, ha, of_decide_eq_true hd⟩
  · rintro ⟨t, c, rate, draw, hs, hid, ha, hd⟩
    refine ⟨_, ha, ?_⟩
    simp only [Bool.and_eq_true]
    exact ⟨by simp [drew, hd], started_chat.mpr ⟨c, hs, hid⟩⟩

def requeuesSampledIn (L : List (ProxyLabel dep)) (_ : ProxyWorld dep) : ProxyLabel dep → Bool
  | .act _ ⟨.findAllUnfinished _, .ok ids⟩ => ids.all (sampledIn L)
  | _ => true

lemma requeuesSampledIn_sound (h : requeuesSampledIn L w l = true) : RequeuesSampledIn L w l := by
  rintro t limit ids rfl r hr row _ _
  exact sampledIn_iff.mp (List.all_eq_true.mp h r hr)

def sampledInRestart : List (DemoCommand none) :=
  boot 0 ++ begin 1 (.chat (demoChat "a" "hi")) ++ acts 11 1 (replies "nope") ++ begin 2 (.handle ⟨"a", 1⟩) ++
    acts 3 2 (replies "nope") ++ [.crash 0] ++ begin 3 .startup ++ acts 3 3 timesOut ++
    begin 4 (.handle ⟨"a", 3⟩) ++
    acts 4 4 (replies "nope")

theorem candidate_called_after_restart : ∃ (L : List (ProxyLabel (demo none))) (w : ProxyWorld (demo none)),
    RunWhere RequeuesSampledIn (start (demo none) morning) L w ∧ ∃ req timeoutS res,
      Acted L 4 (.chatCompletions .candidate req timeoutS) res ∧
      ∃ job, Started L 4 (.handle job) ∧ SampledIn L job.requestId := by
  obtain ⟨L, w, h, hP⟩ := (driver (demo none)).exists_run (c := requeuesSampledIn) requeuesSampledIn_sound
    (start (demo none) morning) sampledInRestart (fun L _ => L.any (acted 4 asksCandidate)) (by decide +kernel)
  obtain ⟨req, timeoutS, res, ha⟩ := acted_asksCandidate hP
  exact ⟨L, w, h, req, timeoutS, res, ha, candidate_called_only_if_sampled_in h ha⟩

/-- A call that the gate rejects, a crash, and the restart that requeues it. -/
def sampledOutRestart : List (DemoCommand none) :=
  boot 0 ++ [.env (.putConfig 0 0)] ++ begin 1 (.chat (demoChat "a" "hi")) ++ acts 10 1 (replies "nope") ++
    [.crash 0] ++ begin 2 .startup ++ acts 3 2 timesOut ++ begin 3 (.handle ⟨"a", 2⟩) ++ acts 4 3 (replies "nope")

theorem sampled_out_sent_after_restart : ∃ (L : List (ProxyLabel (demo none))) (w : ProxyWorld (demo none)),
    Run (start (demo none) morning) L w ∧
      (∃ c, Started L 1 (.chat c) ∧ c.requestId = "a") ∧
      (∃ rate draw, Acted L 1 .sample (.ok (rate, draw)) ∧ ¬ draw < rate) ∧ ¬ SampledIn L "a" ∧
      (∃ job, Started L 3 (.handle job) ∧ job.requestId = "a") ∧
      ∃ req timeoutS res, Acted L 3 (.chatCompletions .candidate req timeoutS) res := by
  obtain ⟨L, w, h, hP⟩ := (driver (demo none)).exists_free_run (start (demo none) morning) sampledOutRestart
    (fun L _ => L.any (spawned 1 (isChat "a")) && L.any (acted 1 (drew false)) && !sampledIn L "a" &&
      L.any (spawned 3 (isHandle "a")) && L.any (acted 3 asksCandidate)) (by decide +kernel)
  simp only [Bool.and_eq_true, Bool.not_eq_true'] at hP
  obtain ⟨⟨⟨⟨hc, hd⟩, hn⟩, hh⟩, ha⟩ := hP
  obtain ⟨rate, draw, hs, hd⟩ := acted_drew.mp hd
  exact ⟨L, w, h, started_chat.mp hc, ⟨rate, draw, hs, of_decide_eq_false hd⟩,
    fun hin => Bool.false_ne_true (hn.symm.trans (sampledIn_iff.mpr hin)), started_handle.mp hh,
    acted_asksCandidate ha⟩

end ShadowProxy

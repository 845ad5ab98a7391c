import ShadowProxy.Sampling.Deletion

/-! When the match rate is that of the run without the requests that the gate rejected. -/

namespace ShadowProxy

open Effects Data SqlComparisonStore

variable {dep : Deployment} {clock : DateTime} {w w' : ProxyWorld dep} {L : List (ProxyLabel dep)}
  {l : ProxyLabel dep} {D : ℕ → Bool} {t : ℕ} {r : Str}

lemma stale_row (h : Run (start dep clock) L w) {threshold : ℤ} {limit : ℕ} {ids : List Str}
    (ha : Acted L t (.findStale threshold limit) (.ok ids)) (hr : r ∈ ids) : ∃ row, w.state.row r = some row := by
  induction h with
  | nil => cases ha
  | @snoc L w l w' hrun _ hs ih =>
    obtain ⟨row, hrow⟩ : ∃ row, w.state.row r = some row := by
      rcases acted_snoc.mp ha with ha | rfl
      · exact ih ha
      · cases hs with
        | act ht hl =>
          have hf : FindStale w.state.clock threshold limit w.state.rows ids := hl
          obtain ⟨row, hm, rfl⟩ := List.mem_map.mp (hf.1.subset hr)
          exact ⟨row, Run.row_of_mem hrun (List.mem_of_mem_filter hm)⟩
    obtain ⟨row', hrow', _⟩ := row_persists hs hrow
    exact ⟨row', hrow'⟩

def Seen (L : List (ProxyLabel dep)) (r : Str) : Prop :=
  (∃ t row, Acted L t (.get r) (.ok (some row))) ∨
    ∃ t threshold limit ids, Acted L t (.findStale threshold limit) (.ok ids) ∧ r ∈ ids

lemma Seen.row (h : Run (start dep clock) L w) (hseen : Seen L r) : ∃ row, w.state.row r = some row := by
  rcases hseen with ⟨t, record, ha⟩ | ⟨t, threshold, limit, ids, ha, hr⟩
  · obtain ⟨row, hrow, _⟩ := Run.get_row h ha
    exact ⟨row, hrow⟩
  · exact stale_row h ha hr

lemma seen_snoc (hseen : Seen (L ++ [l]) r) : Seen L r ∨ (∃ t row, l = .act t ⟨.get r, .ok (some row)⟩) ∨
    ∃ t threshold limit ids, l = .act t ⟨.findStale threshold limit, .ok ids⟩ ∧ r ∈ ids := by
  rcases hseen with ⟨t, record, ha⟩ | ⟨t, threshold, limit, ids, ha, hr⟩
  · rcases acted_snoc.mp ha with ha | rfl
    · exact .inl (.inl ⟨t, record, ha⟩)
    · exact .inr (.inl ⟨t, record, rfl⟩)
  · rcases acted_snoc.mp ha with ha | rfl
    · exact .inl (.inr ⟨t, threshold, limit, ids, ha, hr⟩)
    · exact .inr (.inr ⟨t, threshold, limit, ids, rfl, hr⟩)

lemma not_owns_of_seen (h : RunWhere (Unseen D) (start dep clock) L w) (hseen : Seen L r) :
    owns D L r = false := by
  induction h with
  | nil => rfl
  | @snoc L w l w' hrun hc hs ih =>
    rw [owns_snoc, Bool.or_eq_false_iff]
    rcases seen_snoc hseen with hold | ⟨t, row, rfl⟩ | ⟨t, threshold, limit, ids, rfl, hr⟩
    · refine ⟨ih hold, ?_⟩
      rw [Bool.eq_false_iff]
      intro hins
      obtain ⟨t, record, rfl, _, rfl⟩ := ownInsert_true hins
      obtain ⟨row, hrow⟩ := hold.row hrun.run
      cases hs with
      | act ht hl => simp [legal, hrow] at hl
    · exact ⟨hc.row t r row rfl, rfl⟩
    · exact ⟨hc.stale t threshold limit ids rfl r hr, rfl⟩

def Unscored (v : Verdict) : Prop := v = .pending ∨ v = .primaryError

lemma newRow_unscored (record : PendingComparison) : Unscored (newRow record).verdict := by
  rw [newRow, Unscored]
  split <;> simp

lemma finalize_seen (h : Run (start dep clock) L w) {patch : FinalizePatch} {res : Except Exn Unit}
    (hs : Step w (.act t ⟨.finalize r patch, res⟩) w') : Seen L r := by
  obtain ⟨task, hst, hspec⟩ := Run.issued h hs
  cases task with
  | chat | startup => exact hspec.elim
  | handle job =>
    obtain ⟨rfl, record, hfin⟩ := hspec
    exact .inl ⟨t, record, did_history.mp hfin.fetched⟩
  | sweep =>
    obtain ⟨ids, now, hd, hr, _⟩ := hspec
    exact .inr ⟨t, _, _, ids, did_history.mp hd, hr⟩

lemma unscored (h : RunWhere (Unseen D) (start dep clock) L w) (ho : owns D L r = true) {row : ComparisonRow}
    (hrow : w.state.row r = some row) : Unscored row.verdict := by
  induction h generalizing row with
  | nil => cases ho
  | @snoc L w l w' hrun hc hs ih =>
    rw [owns_snoc, Bool.or_eq_true] at ho
    rcases ho with ho | hins
    · have hstep := rowStep hs r
      rw [hrow] at hstep
      generalize ha : some row = after at hstep
      cases hstep with
      | same => exact ih ho ha.symm
      | insert hid hn =>
        obtain ⟨row₀, hrow₀⟩ := owns_row hrun.run ho
        simp [hn] at hrow₀
      | mark =>
        obtain ⟨row₀, hrow₀, rfl⟩ := Option.map_eq_some_iff.mp ha.symm
        have hold := ih ho hrow₀
        exact hold
      | finalize =>
        have hno := not_owns_of_seen hrun (finalize_seen hrun.run hs)
        simp [ho] at hno
    · obtain ⟨t, record, rfl, _, rfl⟩ := ownInsert_true hins
      cases hs with
      | act ht hl =>
        have hnew := (row_insertPending hl record.requestId).trans (if_pos rfl)
        obtain rfl := Option.some.inj (hnew.symm.trans hrow)
        exact newRow_unscored record

lemma countP_scored {rows : Rows} {p q : ComparisonRow → Bool} {v : Verdict} (hv : ¬ Unscored v)
    (hp : ∀ row ∈ rows, p row = false → Unscored row.verdict) :
    ((rows.filter p).filter q).countP (fun row => row.verdict = v) = (rows.filter q).countP fun row =>
      row.verdict = v := by
  simp only [List.countP_filter]
  apply List.countP_congr
  intro row hm
  cases hrow : p row with
  | true => simp
  | false =>
    have hne : row.verdict ≠ v := fun he => hv (he ▸ hp row hm hrow)
    simp [hne]

lemma matchRate_filter (now : DateTime) (window : ℤ) {rows : Rows} {p : ComparisonRow → Bool}
    (hp : ∀ row ∈ rows, p row = false → Unscored row.verdict) :
    (summary now window (rows.filter p)).matchRate = (summary now window rows).matchRate := by
  have hcount : ∀ v, ¬ Unscored v → (summary now window (rows.filter p)).verdicts v =
      (summary now window rows).verdicts v :=
    fun v hv => countP_scored hv hp
  have hmatched := hcount .matched (by simp [Unscored])
  have hmismatch := hcount .mismatch (by simp [Unscored])
  have hinvalid := hcount .invalidJson (by simp [Unscored])
  have herror := hcount .candidateError (by simp [Unscored])
  have hfinalized : (summary now window (rows.filter p)).finalized = (summary now window rows).finalized := by
    simp only [SummaryStats.finalized, hmatched, hmismatch, hinvalid, herror]
  rw [SummaryStats.matchRate, SummaryStats.matchRate, hfinalized, hmatched]

theorem sampling_unbiased (h : RunWhere (Unseen (sampledOut L)) (start dep clock) L w) :
    ∃ w', Run (start dep clock) (L.filter (Label.keeps (sampledOut L))) w' ∧ ∀ now window,
      (summary now window w.state.rows).matchRate = (summary now window w'.state.rows).matchRate := by
  obtain ⟨w', hr, he⟩ := (without_erasure h.run (sampledOut_unqueued h.run)).run h.within
  refine ⟨w', hr, fun now window => ?_⟩
  rw [he.state.rows, matchRate_filter]
  intro row hm hrow
  exact unscored h (by simpa using hrow) (Run.row_of_mem h.run hm)

def rejections : ProxyLabel dep → Option ℕ
  | .act t e => if drew false e then some t else none
  | _ => none

lemma sampledOut_eq (t : ℕ) : sampledOut L t = decide (t ∈ L.filterMap rejections) := by
  rw [Bool.eq_iff_iff, decide_eq_true_eq, sampledOut, any_acted, List.mem_filterMap]
  constructor
  · rintro ⟨e, he, hd⟩
    exact ⟨_, he, by simp [rejections, hd]⟩
  · rintro ⟨l, hl, hr⟩
    unfold rejections at hr
    split at hr
    · rename_i u e
      cases hd : drew false e with
      | false => simp [hd] at hr
      | true =>
        simp only [hd, if_true, Option.some.injEq] at hr
        subst hr
        exact ⟨e, hl, hd⟩
    · cases hr

def ownPut (D : ℕ → Bool) : ProxyLabel dep → Bool
  | .act t ⟨.rawPut _ _, _⟩ => D t
  | _ => false

def unseen (D : ℕ → Bool) (L : List (ProxyLabel dep)) (_ : ProxyWorld dep) : ProxyLabel dep → Bool
  | .act _ ⟨.findStale _ _, .ok ids⟩ => ids.all fun r => !owns D L r
  | .act _ ⟨.findAllUnfinished _, .ok ids⟩ => ids.all fun r => !owns D L r
  | .act _ ⟨.get r, .ok (some _)⟩ => !owns D L r
  | .act _ ⟨.rawGet _, .ok _⟩ => L.all fun l => !ownPut D l
  | _ => true

lemma unseen_sound (h : unseen D L w l = true) : Unseen D L w l where
  stale := by
    rintro t threshold limit ids rfl r hr
    simpa using List.all_eq_true.mp h r hr
  unfinished := by
    rintro t limit ids rfl r hr
    simpa using List.all_eq_true.mp h r hr
  row := by
    rintro t r row rfl
    simpa [unseen] using h
  payload := by
    rintro t key doc rfl ⟨u, id, payload, res, now, hD, ha, _⟩
    have hown := List.all_eq_true.mp h _ ha
    simp [ownPut, hD] at hown

def third (t : ℕ) : Bool := t = 3

lemma sampledOut_third (hL : L.filterMap rejections = [3]) : sampledOut L = third := by
  funext t
  rw [sampledOut_eq, hL]
  simp [third]

def oneDay : ℤ := 86400000000

def matchRate (w : ProxyWorld dep) : ℚ := (summary anHourLater oneDay w.state.rows).matchRate

def halfSampled : List (DemoCommand (some (.filesystem []))) :=
  boot 0 ++ begin 1 (.chat (demoChat "a" "hi")) ++ acts 13 1 (replies buy) ++ begin 2 (.handle ⟨"a", 1⟩) ++
    acts 12 2 (replies buy) ++ [.env (.putConfig 0 0)] ++ begin 3 (.chat (demoChat "b" "hi")) ++
    acts 12 3 (replies buy) ++ tick anHourLater

theorem sampling_unbiased_unswept : ∃ (L : List (ProxyLabel disk)) (w w' : ProxyWorld disk),
    RunWhere (Unseen (sampledOut L)) (start disk morning) L w ∧ chatIds L = ["a".toList, "b".toList] ∧
      sampledOut L 3 = true ∧ matchRate w = 1 ∧
      Run (start disk morning) (L.filter (Label.keeps (sampledOut L))) w' ∧
      ∀ now window, (summary now window w.state.rows).matchRate = (summary now window w'.state.rows).matchRate :=
        by
  obtain ⟨L, w, h, hP⟩ := (driver disk).exists_run (c := unseen third) unseen_sound (start disk morning)
    halfSampled
    (fun L w => chatIds L = ["a".toList, "b".toList] && L.filterMap rejections = [3] && matchRate w = 1)
    (by decide +kernel)
  simp only [Bool.and_eq_true, decide_eq_true_eq] at hP
  obtain ⟨⟨hids, hrej⟩, hrate⟩ := hP
  have hout := sampledOut_third hrej
  rw [← hout] at h
  obtain ⟨w', hr, heq⟩ := sampling_unbiased h
  exact ⟨L, w, w', h, hids, by rw [hout]; rfl, hrate, hr, heq⟩

def ofThread (t : ℕ) : ProxyLabel dep → Bool
  | .spawn u _ | .act u _ | .exit u => u = t
  | _ => false

def idlePass (dep : Deployment) (t : ℕ) : List (ProxyLabel dep) :=
  [.spawn t ⟨0, .sweep⟩, .act t ⟨.findStale dep.config.store.staleThreshold 1000, .ok []⟩, .exit t]

lemma exists_idlePass {v : ProxyWorld dep} (hr : Run (start dep clock) L v) (hnext : v.next ≤ t)
    (hphase : (v.state.procs 0).phase = .serving) (hidle : (v.state.procs 0).sweeping = false)
    (hn : staleIds v.state.clock dep.config.store.staleThreshold v.state.rows = []) :
    ∃ w', Run (start dep clock) (L ++ idlePass dep t) w' ∧ w'.state.rows = v.state.rows := by
  have hcan : canSpawn dep v.state ⟨0, .sweep⟩ := ⟨by simp [hphase], hidle⟩
  have hfind : FindStale v.state.clock dep.config.store.staleThreshold 1000 v.state.rows [] := by
    rw [FindStale, hn]
    exact ⟨List.Subperm.refl _, rfl⟩
  have h₁ : Run (start dep clock) _ (v.spawn t ⟨0, .sweep⟩) :=
    Run.snoc hr (Step.spawn (S := system dep) hnext hcan)
  obtain ⟨f, hf, hdone⟩ : ∃ f, taskProgram dep .sweep = .op (.findStale dep.config.store.staleThreshold 1000) f ∧
      f (.ok []) = .ret () := ⟨_, rfl, rfl⟩
  have hthread : (v.spawn t ⟨0, .sweep⟩).threads t = some ⟨⟨0, .sweep⟩, .op (.findStale _ 1000) f⟩ := by
    rw [← hf]
    exact Function.update_self _ _ _
  have hlegal : legal dep ⟨0, .sweep⟩ (v.spawn t ⟨0, .sweep⟩).state
      (.findStale dep.config.store.staleThreshold 1000) (.ok []) :=
    hfind
  have h₂ := Run.snoc h₁ (Step.act (S := system dep) (r := .ok []) hthread hlegal)
  have h₃ := Run.snoc h₂ (Step.exit (S := system dep) (t := t) (k := ⟨0, .sweep⟩) (p := f (.ok []))
    (Function.update_self _ _ _) (by rw [hdone]; rfl))
  simp only [List.append_assoc, List.cons_append, List.nil_append] at h₃
  exact ⟨_, h₃, rfl⟩

def sweepPass : List (DemoCommand (some (.filesystem []))) := begin 4 .sweep ++ acts 3 4 timesOut ++ [.exit 4]

def isExit : ProxyLabel dep → Bool
  | .exit _ => true
  | _ => false

/-- The sweeper's pass makes the rejected request a failure of the candidate's, which the run without that
request does not have. -/
theorem sweep_biases_match_rate : ∃ (M S : List (ProxyLabel disk)) (w w' : ProxyWorld disk),
    Run (start disk morning) (M ++ S) w ∧
      Run (start disk morning) (M.filter (Label.keeps (sampledOut M)) ++ idlePass disk 4) w' ∧
      chatIds M = ["a".toList, "b".toList] ∧ M.filterMap rejections = [3] ∧
      (∀ l ∈ S, ofThread 4 l = true) ∧ Started S 4 .sweep ∧ Label.exit 4 ∈ S ∧ matchRate w = 1 / 2 ∧
      matchRate w' = 1 := by
  obtain ⟨M, v, h, hP⟩ := (driver disk).exists_run (c := unseen third) unseen_sound (start disk morning)
    halfSampled
    (fun M v => chatIds M = ["a".toList, "b".toList] && M.filterMap rejections = [3] && v.next = 4 &&
      (v.state.procs 0).phase = .serving && (v.state.procs 0).sweeping = false &&
      (staleIds v.state.clock disk.config.store.staleThreshold v.state.rows).all (owns third M) &&
      ((driver disk).schedule (fun _ _ _ => true) sweepPass M v).any fun q =>
        (q.1.drop M.length).all (ofThread 4) && (q.1.drop M.length).any (spawned 4 isSweep) &&
          (q.1.drop M.length).any isExit && matchRate q.2 = 1 / 2 &&
          (summary anHourLater oneDay (v.state.rows.filter fun row => !owns third M row.requestId)).matchRate = 1)
    (by decide +kernel)
  simp only [Bool.and_eq_true, decide_eq_true_eq, Option.any_eq_true] at hP
  obtain ⟨⟨⟨⟨⟨⟨hids, hrej⟩, hnext⟩, hphase⟩, hidle⟩, hstale⟩, ⟨L, w⟩, hsched, ⟨⟨⟨hall, hspawn⟩, hexit⟩, hhalf⟩,
    hone⟩ := hP
  obtain ⟨hrun, S, rfl⟩ := (driver disk).schedule_run (C := fun _ _ _ => True) (c := fun _ _ _ => true)
    (fun _ => trivial)
    h.run hsched
  simp only [List.drop_left] at hall hspawn hexit
  have hout := sampledOut_third hrej
  rw [← hout] at h hstale hone
  obtain ⟨v', hr', he⟩ := (without_erasure h.run (sampledOut_unqueued h.run)).run h.within
  have hnone : staleIds v'.state.clock disk.config.store.staleThreshold v'.state.rows = [] := by
    have hf := staleIds_filter (fun r => !owns (sampledOut M) M r) v.state.clock disk.config.store.staleThreshold
      v.state.rows
    rw [he.state.clock, he.state.rows, hf, List.filter_eq_nil_iff]
    intro r hr
    simp [List.all_eq_true.mp hstale r hr]
  have hprocs := congrFun he.state.procs 0
  obtain ⟨w', hrun', hrows⟩ := exists_idlePass hr' (le_of_le_of_eq he.next hnext) (by rw [hprocs, hphase])
    (by rw [hprocs, hidle]) hnone
  refine ⟨M, S, w, w', hrun, hrun', hids, hrej, List.all_eq_true.mp hall, ?_, ?_, hhalf, ?_⟩
  · obtain ⟨task, hst, htask⟩ := any_spawned.mp hspawn
    cases task <;> simp only [isSweep, Bool.false_eq_true] at htask
    exact hst
  · obtain ⟨l, hl, hx⟩ := List.any_eq_true.mp hexit
    cases l <;> simp only [isExit, Bool.false_eq_true] at hx
    have h4 := List.all_eq_true.mp hall _ hl
    simp only [ofThread, decide_eq_true_eq] at h4
    exact h4 ▸ hl
  · rw [matchRate, hrows, he.state.rows]
    exact hone

end ShadowProxy

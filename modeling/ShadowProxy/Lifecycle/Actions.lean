import ShadowProxy.Archive.Fidelity
import ShadowProxy.Lifecycle.Recorded

/-! The action recorded for the primary against the action its verdict is about. -/

namespace ShadowProxy

open Effects Prog CandidateHandler JsonActionEvaluator

section Texts

variable {py : Python} {cfg : EvaluatorConfig} {text candidateText : Str} {result : EvaluationResult}

def member (py : Python) (text key : Str) : Json :=
  match parse py text with
  | .ok (obj, _) => getKey obj key
  | .error _ => .null

/-- Both are missing or null, or `str` shows both alike. -/
structure SameText (py : Python) (u v : Json) : Prop where
  missing : u = .null ↔ v = .null
  shown : u ≠ .null → py.str u = py.str v

def normalizedText (py : Python) (cfg : EvaluatorConfig) (action : Str) : Str :=
  match cfg.normalize with
  | .lowercaseStrip => py.lower (strip action)
  | .none => action

lemma normalizeValue_eq (v : Json) : normalizeValue py cfg v = normalizedText py cfg (py.str v) := by
  unfold normalizeValue normalizedText
  cases cfg.normalize <;> rfl

lemma actionText_eq_iff {u v : Json} : actionText py u = actionText py v ↔ SameText py u v := by
  unfold actionText
  by_cases hu : u = .null <;> by_cases hv : v = .null
  · simp only [hu, hv, if_true, true_iff]
    exact ⟨Iff.rfl, fun hn => absurd rfl hn⟩
  · simp only [hu, hv, if_true, if_false, reduceCtorEq, false_iff]
    exact fun h => hv (h.missing.mp rfl)
  · simp only [hu, hv, if_true, if_false, reduceCtorEq, false_iff]
    exact fun h => hu (h.missing.mpr rfl)
  · simp only [hu, hv, if_false, Option.some.injEq]
    exact ⟨fun h => ⟨by simp [hu, hv], fun _ => h⟩, fun h => h.shown hu⟩

lemma extractAction_member {key : Str} {action : Option Str} (h : extractAction py text key = .ok action) :
    action = actionText py (member py text key) := by
  have hnone : Except.ok (none : Option Str) = (.ok action : Except Exn (Option Str)) →
      action = actionText py .null := fun h =>
    (Except.ok.inj h).symm
  rw [extractAction] at h
  rw [member, parse]
  cases hs : stripCodeFence text with
  | nil =>
    rw [hs] at h
    exact hnone h
  | cons c cs =>
    rw [hs] at h
    dsimp only at h ⊢
    cases hl : py.loads (c :: cs) with
    | ok v =>
      rw [hl] at h
      cases v with
      | obj ms => exact (Except.ok.inj h).symm
      | _ => exact hnone h
    | error e =>
      rw [hl] at h
      cases e with
      | jsonDecodeError msg => exact hnone h
      | _ => cases h

structure Compares (py : Python) (cfg : EvaluatorConfig) (text candidateText : Str) (result : EvaluationResult) :
    Prop where
  primary : result.primaryAction = actionText py (member py text cfg.compareKey)
  candidate : result.candidateAction = actionText py (member py candidateText cfg.compareKey)
  matched : result.verdict = .matched → ∃ a b, result.primaryAction = some a ∧ result.candidateAction = some b ∧
    normalizedText py cfg a = normalizedText py cfg b

lemma evaluate_compares (h : evaluate py cfg text candidateText = .ok result)
    (hv : result.verdict ≠ .invalidJson) : Compares py cfg text candidateText result := by
  obtain ⟨hp, hc⟩ := evaluate_ok_iff.mp ⟨result, h⟩
  obtain ⟨p, hp⟩ := readable_iff.mp hp
  obtain ⟨c, hc⟩ := readable_iff.mp hc
  have hpm : member py text cfg.compareKey = getKey p.1 cfg.compareKey := by simp only [member, hp]
  have hcm : member py candidateText cfg.compareKey = getKey c.1 cfg.compareKey := by simp only [member, hc]
  simp only [evaluate, hp, hc, Bind.bind, Except.bind, pure, Except.pure] at h
  split at h
  · obtain rfl := Except.ok.inj h
    exact absurd rfl hv
  split at h
  · obtain rfl := Except.ok.inj h
    exact ⟨by rw [hpm], by rw [hcm], by simp⟩
  rename_i hnull
  rw [not_or] at hnull
  have hpa : some (py.str (getKey p.1 cfg.compareKey)) = actionText py (member py text cfg.compareKey) := by
    rw [hpm, actionText, if_neg hnull.1]
  have hca : some (py.str (getKey c.1 cfg.compareKey)) = actionText py (member py candidateText cfg.compareKey) :=
    by
    rw [hcm, actionText, if_neg hnull.2]
  split at h
  · rename_i heq
    obtain rfl := Except.ok.inj h
    rw [normalizeValue_eq, normalizeValue_eq] at heq
    exact ⟨hpa, hca, fun _ => ⟨_, _, rfl, rfl, heq⟩⟩
  · obtain rfl := Except.ok.inj h
    exact ⟨hpa, hca, by simp⟩

end Texts

section Runs

variable {dep : Deployment} {clock : DateTime} {L : List (ProxyLabel dep)} {w w' : ProxyWorld dep} {t n : ℕ}
  {c : ChatCall} {r : Str} {patch : FinalizePatch}

lemma Inserts.extracted (h : Run (start dep clock) L w) {record : PendingComparison} (hins : Inserts L n c record)
    (hok : record.primaryStatus = .ok) : ∃ primary reply, PrimaryCall L record.requestId n c primary reply ∧
      extractAction dep.py reply.content = .ok record.primaryAction := by
  obtain ⟨req, timeoutS, res, hcall, hrep⟩ := Run.reported h hins.started hins.insert
  cases hrep with
  | failed _ hs => exact absurd hok hs
  | @replied reply _ _ _ hextract =>
    obtain ⟨task, _, hst, -, hspec⟩ := Run.acted_issued h hcall
    obtain rfl := Run.started_unique h hst hins.started
    obtain ⟨-, routeCfg, hroute, hreq, -⟩ := hspec
    exact ⟨req, reply, ⟨(hins.requestId h).symm, ⟨record, hins, rfl⟩, ⟨routeCfg, hroute, hreq⟩, timeoutS, hcall⟩,
      hextract⟩

lemma PrimaryCall.unique (h : Run (start dep clock) L w) {n' : ℕ} {c' : ChatCall}
    {primary primary' : ChatRequest} {reply reply' : ChatResponse} (hp : PrimaryCall L r n c primary reply)
    (hp' : PrimaryCall L r n' c' primary' reply') : reply = reply' := by
  obtain ⟨record, hins, hid⟩ := hp.inserted
  obtain ⟨record', hins', hid'⟩ := hp'.inserted
  obtain ⟨rfl, rfl, -⟩ := inserts_unique h hins hins' (hid.trans hid'.symm)
  obtain ⟨timeoutS, ha⟩ := hp.replied
  obtain ⟨timeoutS', ha'⟩ := hp'.replied
  exact Except.ok.inj (Run.asks_once h hins.started ha ha')

structure Compared (L : List (ProxyLabel dep)) (t : ℕ) (r : Str) (patch : FinalizePatch) (reply : ChatResponse)
    (text : Str)
    (result : EvaluationResult) : Prop where
  handled : ∃ job : CandidateJob, Started L t (.handle job) ∧ job.requestId = r
  replied : ∃ n c primary, PrimaryCall L r n c primary reply
  evaluated : ∃ record body resp, Evaluated dep (history t L) r record body text resp result
  patch_eq : ∃ latencyMs now, patch = okPatch result latencyMs now

structure ActionsAgree (py : Python) (cfg : EvaluatorConfig) (row : ComparisonRow) (result : EvaluationResult) :
    Prop where
  primary : row.primaryAction = result.primaryAction
  matched : row.verdict = .matched → ∃ a b, row.primaryAction = some a ∧ row.candidateAction = some b ∧
    normalizedText py cfg a = normalizedText py cfg b

lemma Run.compared (h : Run (start dep clock) L w) (hs : Step w (.act t ⟨.finalize r patch, .ok ()⟩) w')
    (hv : patch.verdict = .matched ∨ patch.verdict = .mismatch) : ∃ row reply text result,
      w'.state.row r = some row ∧ Compared L t r patch reply text result ∧
      row.primaryAction = actionText dep.py (member dep.py reply.content "action") ∧ row.verdict = patch.verdict ∧
      (patch.candidateAction ≠ none → row.candidateAction = patch.candidateAction) := by
  obtain ⟨task, hst, hspec⟩ := Run.issued h hs
  cases task with
  | chat | startup => exact hspec.elim
  | sweep =>
    obtain ⟨_, _, _, _, rfl⟩ := hspec
    simp [Sweeper.stalePatch] at hv
  | handle job =>
    obtain ⟨rfl, record, hfin⟩ := hspec
    cases hfin with
    | dropped => simp [droppedPatch] at hv
    | failed => simp [errorPatch] at hv
    | @evaluated body text resp result latencyMs now he =>
      obtain ⟨n, c, hins, hid⟩ := fetched_inserts h he.shadowed.1
      obtain ⟨primary, reply, hcall, hextract⟩ := hins.extracted h he.shadowed.2
      obtain ⟨row, hrow, hp⟩ := Run.get_row h (did_history.mp he.shadowed.1)
      have hrow' := finalize_row hs
      rw [hrow] at hrow'
      have haction : row.primaryAction = record.primaryAction := congrArg PendingComparison.primaryAction hp
      refine ⟨_, reply, text, result, hrow',
        ⟨⟨job, hst, rfl⟩, ⟨n, c, primary, hid ▸ hcall⟩, ⟨record, body, resp, he⟩, latencyMs, now, rfl⟩, ?_, rfl,
        fun hne => ?_⟩
      · exact haction.trans (extractAction_member hextract)
      · obtain ⟨a, ha⟩ := Option.ne_none_iff_exists'.mp hne
        simp [SqlComparisonStore.finalized, ha]

lemma Compared.text_lost {reply : ChatResponse} {text : Str} {result : EvaluationResult}
    (hc : Compared L t r patch reply text result) (hn : ¬ Recovered L t) : text = [] := by
  obtain ⟨record, body, resp, he⟩ := hc.evaluated
  have htext := he.text_eq
  rw [body_not_recovered he.rehydrated hn, primaryContent_empty] at htext
  exact (Except.ok.inj htext).symm

lemma Compared.text_recovered (h : Run (start dep clock) L w) (hsep : SeparateCalls L) {reply : ChatResponse}
    {text : Str} {result : EvaluationResult} (hc : Compared L t r patch reply text result) (hrc : Recovered L t) :
    text = reply.content := by
  obtain ⟨job, hst, hid⟩ := hc.handled
  obtain ⟨record, body, resp, he⟩ := hc.evaluated
  obtain ⟨n, c, primary, hcall⟩ := hc.replied
  obtain ⟨n', c', routeCfg, reply', hcall', hrecovered, -⟩ :=
    (hsep.intact h).body h hst (hid ▸ he.shadowed) he.rehydrated
  obtain rfl := hcall.unique h (hid ▸ hcall')
  obtain ⟨timeoutS, ha⟩ := hcall.replied
  have hcontent := primaryContent_archived (reply_legal h ha) (hrecovered hrc).2
  exact Except.ok.inj (he.text_eq.symm.trans hcontent)

end Runs

theorem recorded_actions_agree_iff {dep : Deployment} {clock : DateTime} {L : List (ProxyLabel dep)}
    {w w' : ProxyWorld dep} {t : ℕ} {r : Str} {patch : FinalizePatch} (h : Run (start dep clock) L w)
    (hs : Step w (.act t ⟨.finalize r patch, .ok ()⟩) w')
    (hv : patch.verdict = .matched ∨ patch.verdict = .mismatch) : ∃ row reply text result,
      w'.state.row r = some row ∧ Compared L t r patch reply text result ∧
      (¬ Recovered L t → text = []) ∧ (SeparateCalls L → Recovered L t → text = reply.content) ∧
      (ActionsAgree dep.py dep.config.evaluator row result ↔
        SameText dep.py (member dep.py reply.content "action")
        (member dep.py text dep.config.evaluator.compareKey)) := by
  obtain ⟨row, reply, text, result, hrow, hc, haction, hverdict, hcandidate⟩ := Run.compared h hs hv
  refine ⟨row, reply, text, result, hrow, hc, hc.text_lost, fun hsep => hc.text_recovered h hsep, ?_⟩
  obtain ⟨record, body, resp, he⟩ := hc.evaluated
  obtain ⟨latencyMs, now, rfl⟩ := hc.patch_eq
  have hcompares := evaluate_compares he.result_eq (by
    rintro hinvalid
    simp [okPatch, hinvalid] at hv)
  have hprimary : row.primaryAction = result.primaryAction ↔
      SameText dep.py (member dep.py reply.content "action")
      (member dep.py text dep.config.evaluator.compareKey) := by
    rw [haction, hcompares.primary, actionText_eq_iff]
  refine ⟨fun hagree => hprimary.mp hagree.primary, fun hsame => ⟨hprimary.mpr hsame, fun hm => ?_⟩⟩
  obtain ⟨a, b, ha, hb, hab⟩ := hcompares.matched (hverdict.symm.trans hm)
  have hkept : row.candidateAction = result.candidateAction := hcandidate (by simp [okPatch, hb])
  exact ⟨a, b, (hprimary.mpr hsame).trans ha, hkept.trans hb, hab⟩

def comparedCall {config : AppConfig} {hroute : config.route "default" = some demoRoute} :
    List (Command (driver (installed config (some (.filesystem [])) hroute))) :=
  boot 0 ++ begin 1 (.chat (demoChat "a" "hi")) ++ acts 13 1 (replies buy) ++ begin 2 (.handle ⟨"a", 1⟩) ++
    acts 10 2 (replies buy)

theorem recorded_actions_agree_iff_buy :
    ∃ (L : List (ProxyLabel disk)) (w w' : ProxyWorld disk) (patch : FinalizePatch),
    Run (start disk morning) L w ∧ Step w (.act 2 ⟨.finalize "a" patch, .ok ()⟩) w' ∧ patch.verdict = .matched ∧
      ∃ row reply text result, w'.state.row "a" = some row ∧ Compared L 2 "a" patch reply text result ∧
      (¬ Recovered L 2 → text = []) ∧ (SeparateCalls L → Recovered L 2 → text = reply.content) ∧
      (ActionsAgree disk.py disk.config.evaluator row result ↔
        SameText disk.py (member disk.py reply.content "action")
        (member disk.py text disk.config.evaluator.compareKey)) := by
  obtain ⟨L', w', h, hP⟩ := (driver disk).exists_free_run (start disk morning) comparedCall
    (fun L _ => L.getLast?.any (acted 2 (finalizedAs "a" .matched))) (by decide +kernel)
  obtain ⟨L, l, w, rfl, hl, hr, hs⟩ := Run.last_step h hP
  obtain ⟨patch, ha, hv⟩ := acted_finalizedAs (L := [l]) (by simpa using hl)
  obtain rfl := (List.mem_singleton.mp ha).symm
  exact ⟨L, w, w', patch, hr, hs, hv, recorded_actions_agree_iff hr hs (.inl hv)⟩

def otherKey : Deployment :=
  installed { demoConfig with evaluator := { compareKey := "side" } } (some (.filesystem [])) (by decide)

lemma member_otherKey (text : Str) : member otherKey.py text otherKey.config.evaluator.compareKey = .null := by
  rw [member, parse]
  cases stripCodeFence text with
  | nil => rfl
  | cons c cs =>
    dsimp only [otherKey, installed, demoPython]
    by_cases hbuy : c :: cs = buy
    · rw [if_pos hbuy]
      rfl
    · rw [if_neg hbuy]
      rfl

/-- The row records `buy` for the primary, and the evaluator has found no action in the same reply. -/
theorem recorded_action_other_key :
    ∃ (L : List (ProxyLabel otherKey)) (w w' : ProxyWorld otherKey) (patch : FinalizePatch),
    Run (start otherKey morning) L w ∧ Step w (.act 2 ⟨.finalize "a" patch, .ok ()⟩) w' ∧
    patch.verdict = .mismatch ∧
      ∃ row reply text result, w'.state.row "a" = some row ∧ Compared L 2 "a" patch reply text result ∧
      ¬ ActionsAgree otherKey.py otherKey.config.evaluator row result := by
  obtain ⟨L', w', h, hP⟩ := (driver otherKey).exists_free_run (start otherKey morning) comparedCall
    (fun L w => L.getLast?.any (acted 2 (finalizedAs "a" .mismatch)) &&
      (w.state.row "a").any fun row => row.primaryAction ≠ none) (by decide +kernel)
  obtain ⟨hlast, hfound⟩ := Bool.and_eq_true_iff.mp hP
  obtain ⟨L, l, w, rfl, hl, hr, hs⟩ := Run.last_step h hlast
  obtain ⟨patch, ha, hv⟩ := acted_finalizedAs (L := [l]) (by simpa using hl)
  obtain rfl := (List.mem_singleton.mp ha).symm
  obtain ⟨row, reply, text, result, hrow, hc, -⟩ := Run.compared hr hs (.inr hv)
  refine ⟨L, w, w', patch, hr, hs, hv, row, reply, text, result, hrow, hc, fun hagree => ?_⟩
  obtain ⟨record, body, resp, he⟩ := hc.evaluated
  obtain ⟨latencyMs, now, rfl⟩ := hc.patch_eq
  have hprimary := (evaluate_compares he.result_eq fun hinvalid => by simp [okPatch, hinvalid] at hv).primary
  rw [member_otherKey] at hprimary
  obtain ⟨row', hrow', hne⟩ := (Option.any_eq_true _ _).mp hfound
  obtain rfl := Option.some.inj (hrow.symm.trans hrow')
  exact of_decide_eq_true hne (hagree.primary.trans hprimary)

end ShadowProxy

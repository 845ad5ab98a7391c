import ShadowProxy.Lifecycle.Actions
import ShadowProxy.Store.Columns

/-! Whether what the pipeline writes fits the columns it is written to. -/

namespace ShadowProxy

open Effects Prog CandidateHandler JsonActionEvaluator SqlComparisonStore

variable {dep : Deployment} {clock : DateTime} {L : List (ProxyLabel dep)} {w : ProxyWorld dep} {t n : ℕ}
  {c : ChatCall} {r : Str}

structure CallFits (L : List (ProxyLabel dep)) (n : ℕ) (c : ChatCall) : Prop where
  requestId : c.requestId.length ≤ 64
  route : c.body.route.length ≤ 64
  tenantId : FitsColumn 64 (c.body.metadata.bind ChatMetadata.tenantId)
  sessionId : FitsColumn 128 (c.body.metadata.bind ChatMetadata.sessionId)
  models : ∀ routeCfg ∈ dep.config.route c.body.route,
    routeCfg.primary.modelId.length ≤ 128 ∧ routeCfg.candidate.modelId.length ≤ 128
  replied : ∀ req timeoutS resp, Acted L n (.chatCompletions .primary req timeoutS) (.ok resp) →
    FitsColumn 256 (actionText dep.py (member dep.py resp.content "action"))
  failed : ∀ req timeoutS e, Acted L n (.chatCompletions .primary req timeoutS) (.error e) →
    FitsColumn 1024 e.message

lemma keyFor_length (now : DateTime) (id : Str) : (keyFor now id).length = id.length + 23 := by
  have hsuffix : keySuffix.length = 8 := rfl
  have hraw : "raw/".toList.length = 4 := rfl
  have hslash : "/".toList.length = 1 := rfl
  simp only [keyFor, DateTime.datePath, pad4, pad2, List.length_append, List.length_cons, List.length_nil,
    hsuffix, hraw, hslash]
  omega

lemma Run.key_fits (h : Run (start dep clock) L w) {key : Str} {payload : Json}
    (ha : Acted L n (.rawPut r payload) (.ok key)) (hr : r.length ≤ 64) : key.length ≤ 256 := by
  obtain ⟨L₁, L₂, w₁, w₂, rfl, h₁, hs⟩ := Run.split h ha
  cases hs with
  | act ht hl =>
    rw [show key = keyFor w₁.state.clock r from hl, keyFor_length]
    omega

lemma Reports.fits {py : Python} {answer : Except Exn ChatResponse} {record : PendingComparison}
    (hrep : Reports py answer record)
    (hreplied : ∀ resp, answer = .ok resp → FitsColumn 256 (actionText py (member py resp.content "action")))
    (hfailed : ∀ e, answer = .error e → FitsColumn 1024 e.message) :
    FitsColumn 256 record.primaryAction ∧ FitsColumn 1024 record.primaryError := by
  cases hrep with
  | replied _ herror hextract =>
    rw [extractAction_member hextract, herror]
    exact ⟨hreplied _ rfl, fitsColumn_none 1024⟩
  | failed hm _ herror haction =>
    rw [haction, herror, ← hm]
    exact ⟨fitsColumn_none 256, hfailed _ rfl⟩

lemma Run.insert_fits_iff (h : Run (start dep clock) L w) (hhash : ∀ body, (dep.requestHash body).length = 64)
    {record : PendingComparison} {res : Except Exn Unit} (hst : Started L n (.chat c))
    (ha : Acted L n (.insertPending record) res) : (newRow record).Fits ↔ CallFits L n c := by
  obtain ⟨task, L₁, hst', hpre, hspec⟩ := Run.acted_issued h ha
  obtain rfl := Run.started_unique h hst' hst
  obtain ⟨-, routeCfg, receivedAt, outcome, key, action, hout, harch, rfl⟩ := hspec
  obtain ⟨req, timeoutS, answer, hcall, hrep⟩ := Run.reported h hst ha
  constructor
  · intro hfits
    have hroute : ∀ routeCfg' ∈ dep.config.route c.body.route, routeCfg' = routeCfg := fun routeCfg' hr =>
      Option.some.inj (hr.symm.trans hout.1)
    refine ⟨hfits.requestId, hfits.route, hfits.tenantId, hfits.sessionId, ?_, ?_, ?_⟩
    · intro routeCfg' hr
      obtain rfl := hroute routeCfg' hr
      exact ⟨hfits.primaryModel, hfits.candidateModel⟩
    · intro req' timeoutS' resp ha'
      cases Run.asks_once h hst hcall ha'
      cases hrep with
      | replied _ _ hextract => exact extractAction_member hextract ▸ hfits.primaryAction
    · intro req' timeoutS' e ha'
      cases Run.asks_once h hst hcall ha'
      cases hrep with
      | failed hm _ herror _ => exact (hm.trans herror.symm) ▸ hfits.primaryError
  · intro hfits
    have hkey : FitsColumn 256 key := fun k hk => by
      obtain ⟨writtenAt, hd⟩ := harch.put k hk
      exact Run.key_fits h (hpre.subset (did_history.mp hd)) hfits.requestId
    have hanswer := hrep.fits (fun resp he => hfits.replied _ _ _ (he ▸ hcall)) fun e he =>
      hfits.failed _ _ _ (he ▸ hcall)
    exact {
      requestId := hfits.requestId
      route := hfits.route
      tenantId := hfits.tenantId
      sessionId := hfits.sessionId
      requestHash := (hhash _).le
      rawObjectKey := hkey
      primaryModel := (hfits.models routeCfg hout.1).1
      primaryStatus := primaryStatus_fits _
      primaryAction := hanswer.1
      primaryError := hanswer.2
      candidateModel := (hfits.models routeCfg hout.1).2
      candidateStatus := candidateStatus_fits _
      candidateAction := fitsColumn_none 256
      candidateError := fitsColumn_none 1024
      verdict := verdict_fits _ }

def ComparesTexts (L : List (ProxyLabel dep)) (t : ℕ) (r text candidateText : Str) : Prop :=
  ∃ record body resp result, Evaluated dep (history t L) r record body text resp result ∧
    candidateText = resp.content

def Decodes (py : Python) (text : Str) : Prop := ∃ v, parse py text = .ok (v, none)

def AnswerFits (L : List (ProxyLabel dep)) (t : ℕ) (r : Str) : Prop :=
  ∀ text candidateText, ComparesTexts L t r text candidateText →
    (dep.config.evaluator.requireJson = true → Decodes dep.py text ∧ Decodes dep.py candidateText) →
    FitsColumn 256 (actionText dep.py (member dep.py candidateText dep.config.evaluator.compareKey))

def isGet : Op → Prop
  | .get _ => True
  | _ => False

def HandlesOnce (h : List Ev) (o : Op) : Prop :=
  (isGet o → ∀ e ∈ h, ¬ isGet e.op) ∧ (isCall o → ∀ e ∈ h, ¬ isCall e.op)

lemma issues_handlesOnce (dep : Deployment) (job : CandidateJob) :
    Issues HandlesOnce (taskProgram dep (.handle job)) := by
  have hother : ∀ (h : List Ev) (o : Op), ¬ isGet o ∧ ¬ isCall o → HandlesOnce h o := fun _ _ hn =>
    ⟨fun hg => absurd hg hn.1, fun hc => absurd hc hn.2⟩
  have hprepares : ∀ o : Op, o.prepares = true → ¬ isGet o ∧ ¬ isCall o := fun o ho => by
    cases o <;> first | exact ⟨id, id⟩ | cases ho
  have hrest : Completes fun o => ¬ isGet o ∧ ¬ isCall o :=
    ⟨⟨id, id⟩, ⟨id, id⟩, fun _ _ => ⟨id, id⟩, fun _ => ⟨id, id⟩, fun _ _ => ⟨id, id⟩, fun _ => ⟨id, id⟩⟩
  have hfirst : HandlesOnce [] (.get job.requestId) := ⟨fun _ => by simp, fun _ => by simp⟩
  refine issues_handle (fun h o ho => hother h o (hprepares o ho)) hfirst
    (fun h now => hother h _ ⟨id, id⟩) ?_ ?_ ?_
  · refine fun h req timeoutS hh => ⟨fun hg => hg.elim, fun _ e he => ?_⟩
    rcases hh e he with ho | ho
    · rw [ho]
      exact id
    · exact (hprepares _ ho).2
  · exact fun h req timeoutS record body start resp =>
      (performs_evaluateReply hrest (fun _ _ => ⟨id, id⟩) record body start resp).obeys hother
  · exact fun h req timeoutS e error start label =>
      (performs_finalizeError hrest (fun _ _ => ⟨id, id⟩) error label start).obeys hother

def writesError : Op → Prop
  | .finalize _ patch => patch.candidateStatus = .error
  | _ => False

def FailedFirst (h : List Ev) (o : Op) : Prop :=
  writesError o → ∃ client req timeoutS e, Did h (.chatCompletions client req timeoutS) (.error e)

lemma issues_failedFirst (dep : Deployment) (job : CandidateJob) :
    Issues FailedFirst (taskProgram dep (.handle job)) := by
  have hother : ∀ (h : List Ev) (o : Op), ¬ writesError o → FailedFirst h o := fun _ _ hn hw => absurd hw hn
  have hrest : Completes fun o => ¬ writesError o :=
    ⟨id, id, fun _ _ => id, fun _ => id, fun _ _ => id, fun _ => id⟩
  have hprepares : ∀ o : Op, o.prepares = true → ¬ writesError o := fun o ho => by
    cases o <;> first | exact id | cases ho
  refine issues_handle (fun h o ho => hother h o (hprepares o ho)) (hother _ _ id)
    (fun h now => hother _ _ (by simp [writesError, droppedPatch])) (fun h req timeoutS _ => hother _ _ id) ?_ ?_
  · exact fun h req timeoutS record body start resp =>
      (performs_evaluateReply hrest (fun patch hp => by simp [writesError, hp]) record body start resp).obeys
      hother
  · exact fun h req timeoutS e error start label =>
      Obeys.of_forall fun h' o hh _ => ⟨_, _, _, e, (did_last _ _ _).mono hh⟩

section Runs

variable {job : CandidateJob}

lemma Run.handles_once (h : Run (start dep clock) L w) (hst : Started L t (.handle job)) {e e' : Ev}
    (he : e ∈ history t L) (he' : e' ∈ history t L) (hc : isCall e.op ∧ isCall e'.op ∨ isGet e.op ∧ isGet e'.op) :
    e = e' := by
  obtain ⟨x, hx⟩ := hst
  have hmem : ∀ {e : Ev}, e ∈ history t L → Label.act (S := system dep) t e ∈ L := fun hm => mem_history.mp hm
  rcases hc with ⟨hp, hp'⟩ | ⟨hp, hp'⟩
  · exact Run.once_issued h (fun _ => rfl) hx (issues_handlesOnce dep job) (fun _ _ hJ => hJ.2) (hmem he)
      (hmem he') hp hp'
  · exact Run.once_issued h (fun _ => rfl) hx (issues_handlesOnce dep job) (fun _ _ hJ => hJ.1) (hmem he)
      (hmem he') hp hp'

lemma Run.fetches_once (h : Run (start dep clock) L w) (hst : Started L t (.handle job))
    {record record' : ComparisonRow} (hf : Fetched (history t L) r record)
    (hf' : Fetched (history t L) r record') : record = record' := by
  cases Run.handles_once h hst hf hf' (.inr ⟨trivial, trivial⟩)
  rfl

lemma Run.replies_once (h : Run (start dep clock) L w) (hst : Started L t (.handle job)) {resp : ChatResponse}
    {client : Client} {req : ChatRequest} {timeoutS : PyFloat} {res : Except Exn ChatResponse}
    (hr : Replied (history t L) resp) (hd : Did (history t L) (.chatCompletions client req timeoutS) res) :
    res = .ok resp := by
  obtain ⟨req', timeoutS', hd'⟩ := hr
  cases Run.handles_once h hst hd hd' (.inl ⟨trivial, trivial⟩)
  rfl

lemma Run.failed_first (h : Run (start dep clock) L w) (hst : Started L t (.handle job)) {patch : FinalizePatch}
    {res : Except Exn Unit} (ha : Acted L t (.finalize r patch) res) (hp : patch.candidateStatus = .error) :
    ∃ client req timeoutS e, Did (history t L) (.chatCompletions client req timeoutS) (.error e) := by
  obtain ⟨x, hx⟩ := hst
  obtain ⟨L₁, L₂, rfl⟩ := List.append_of_mem ha
  obtain ⟨client, req, timeoutS, e, hd⟩ := Run.issued_at h (fun _ => rfl) hx (issues_failedFirst dep job) hp
  exact ⟨client, req, timeoutS, e, did_history.mpr (List.mem_append_left _ (did_history.mp hd))⟩

lemma Run.compares_unique (h : Run (start dep clock) L w) (hst : Started L t (.handle job))
    {text text' candidateText candidateText' : Str} (hc : ComparesTexts L t r text candidateText)
    (hc' : ComparesTexts L t r text' candidateText') : text' = text ∧ candidateText' = candidateText := by
  obtain ⟨record, body, resp, result, he, rfl⟩ := hc
  obtain ⟨record', body', resp', result', he', rfl⟩ := hc'
  obtain rfl := Run.fetches_once h hst he.shadowed.1 he'.shadowed.1
  obtain rfl := he.rehydrated.unique he'.rehydrated
  obtain ⟨req, timeoutS, hd⟩ := he.replied
  obtain rfl := Except.ok.inj (Run.replies_once h hst he'.replied hd)
  exact ⟨Except.ok.inj (he'.text_eq.symm.trans he.text_eq), rfl⟩

end Runs

section Texts

variable {py : Python} {cfg : EvaluatorConfig} {text candidateText : Str} {result : EvaluationResult}

lemma decodes_iff {p : Json × Option Str} (hp : parse py text = .ok p) : Decodes py text ↔ p.2 = none := by
  rw [Decodes]
  rw [hp]
  constructor
  · rintro ⟨v, hv⟩
    exact congrArg Prod.snd (Except.ok.inj hv)
  · intro hn
    exact ⟨p.1, congrArg Except.ok (Prod.ext rfl hn)⟩

lemma evaluate_invalidJson (he : evaluate py cfg text candidateText = .ok result) :
    (cfg.requireJson = true → Decodes py text ∧ Decodes py candidateText) ∧ result.verdict ≠ .invalidJson ∨
      ¬ (cfg.requireJson = true → Decodes py text ∧ Decodes py candidateText) ∧ result.candidateAction = none := by
  obtain ⟨hp, hc⟩ := evaluate_ok_iff.mp ⟨result, he⟩
  obtain ⟨p, hp⟩ := readable_iff.mp hp
  obtain ⟨c, hc⟩ := readable_iff.mp hc
  have hguard : (cfg.requireJson && (p.2.isSome || c.2.isSome)) = true ↔
      ¬ (cfg.requireJson = true → Decodes py text ∧ Decodes py candidateText) := by
    rw [decodes_iff hp, decodes_iff hc]
    cases cfg.requireJson <;> cases p.2 <;> cases c.2 <;> simp
  rw [← hguard]
  simp only [evaluate, hp, hc, Bind.bind, Except.bind, pure, Except.pure] at he
  split at he
  · rename_i hg
    obtain rfl := Except.ok.inj he
    exact .inr ⟨hg, rfl⟩
  · rename_i hg
    refine .inl ⟨not_not.mp fun hn => hg (hguard.mpr hn), ?_⟩
    split at he
    · obtain rfl := Except.ok.inj he
      simp
    split at he
    all_goals
      obtain rfl := Except.ok.inj he
      simp

lemma evaluated_fits_iff (he : evaluate py cfg text candidateText = .ok result) :
    FitsColumn 256 result.candidateAction ↔
    ((cfg.requireJson = true → Decodes py text ∧ Decodes py candidateText) →
      FitsColumn 256 (actionText py (member py candidateText cfg.compareKey))) := by
  rcases evaluate_invalidJson he with ⟨hg, hv⟩ | ⟨hg, hnone⟩
  · rw [(evaluate_compares he hv).candidate]
    exact ⟨fun hf _ => hf, fun hf => hf hg⟩
  · rw [hnone]
    exact ⟨fun _ hg' => absurd hg' hg, fun _ => fitsColumn_none 256⟩

end Texts

lemma Run.finalize_fits_iff (h : Run (start dep clock) L w) {patch : FinalizePatch} {res : Except Exn Unit}
    (ha : Acted L t (.finalize r patch) res) : patch.Fits ↔ AnswerFits L t r := by
  -- Except where two texts have been compared, the patch fits and nothing has to.
  have hnarrow : patch.candidateAction = none → FitsColumn 1024 patch.candidateError →
      (∀ text candidateText, ¬ ComparesTexts L t r text candidateText) → (patch.Fits ↔ AnswerFits L t r) :=
        fun hn he hc => by
    refine ⟨fun _ text candidateText ht => absurd ht (hc _ _), fun _ => patch_fits_iff.mpr ⟨?_, he⟩⟩
    rw [hn]
    exact fitsColumn_none 256
  obtain ⟨task, L₁, hst, hpre, hspec⟩ := Run.acted_issued h ha
  cases task with
  | chat | startup => exact hspec.elim
  | sweep =>
    obtain ⟨ids, now, -, -, rfl⟩ := hspec
    apply hnarrow rfl (by simp [FitsColumn, Sweeper.stalePatch])
    rintro text candidateText ⟨record, body, resp, result, he, rfl⟩
    obtain ⟨task, L₂, hst', -, hspec⟩ := Run.acted_issued h (did_history.mp he.shadowed.1)
    obtain rfl := Run.started_unique h hst' hst
    exact hspec.elim
  | handle job =>
    obtain ⟨rfl, record, hfin⟩ := hspec
    cases hfin with
    | dropped now hf hs =>
      apply hnarrow rfl (fitsColumn_none 1024)
      rintro text candidateText ⟨record', body, resp, result, he, rfl⟩
      have hf' : Fetched (history t L) job.requestId record := did_history.mpr (hpre.subset (did_history.mp hf))
      exact hs (Run.fetches_once h hst he.shadowed.1 hf' ▸ he.shadowed.2)
    | failed error label latencyMs now hs =>
      have herror : (error.take 1000).length ≤ 1024 := (List.length_take_le 1000 error).trans (by decide)
      refine hnarrow rfl (fun s hs => Option.some.inj hs ▸ herror) ?_
      rintro text candidateText ⟨record', body, resp, result, he, rfl⟩
      obtain ⟨client, req, timeoutS, e, hd⟩ := Run.failed_first h hst ha rfl
      cases Run.replies_once h hst he.replied hd
    | @evaluated body text resp result latencyMs now he =>
      have hhistory := history_prefix t hpre
      have hc : ComparesTexts L t job.requestId text resp.content :=
        ⟨record, body, resp, result, he.mono hhistory, rfl⟩
      have hfits : (okPatch result latencyMs now).Fits ↔ FitsColumn 256 result.candidateAction :=
        patch_fits_iff.trans (and_iff_left (fitsColumn_none 1024))
      rw [hfits, evaluated_fits_iff he.result_eq]
      refine ⟨fun hf text' candidateText' hc' => ?_, fun hf => hf _ _ hc⟩
      obtain ⟨rfl, rfl⟩ := Run.compares_unique h hst hc hc'
      exact hf

lemma Run.rows_fit (h : Run (start dep clock) L w)
    (hins : ∀ n record res, Acted L n (.insertPending record) res → (newRow record).Fits)
    (hfin : ∀ t id patch res, Acted L t (.finalize id patch) res → patch.Fits) {row : ComparisonRow}
    (hrow : w.state.row r = some row) : row.Fits := by
  induction h generalizing row with
  | nil => cases hrow
  | @snoc L w l w' hr _ hs ih =>
    have hold : ∀ {row}, w.state.row r = some row → row.Fits := fun hrow =>
      ih (fun n record res ha => hins n record res (ha.snoc l))
        (fun t id patch res ha => hfin t id patch res (ha.snoc l)) hrow
    have hstep := rowStep hs r
    rw [hrow] at hstep
    generalize hafter : some row = after at hstep
    cases hstep with
    | same => exact hold hafter.symm
    | @insert t record _ _ =>
      obtain rfl := Option.some.inj hafter
      exact hins t record _ (acted_snoc.mpr (.inr rfl))
    | mark =>
      obtain ⟨row', hrow', rfl⟩ := Option.map_eq_some_iff.mp hafter.symm
      exact (hold hrow').markedInProgress _
    | @finalize t patch =>
      obtain ⟨row', hrow', rfl⟩ := Option.map_eq_some_iff.mp hafter.symm
      exact (hold hrow').finalized (hfin t r patch _ (acted_snoc.mpr (.inr rfl))) _

theorem writes_fit_iff {dep : Deployment} {clock : DateTime} {L : List (ProxyLabel dep)} {w : ProxyWorld dep}
    (h : Run (start dep clock) L w) (hhash : ∀ body, (dep.requestHash body).length = 64) :
    (∀ n c record res, Started L n (.chat c) → Acted L n (.insertPending record) res →
      ((newRow record).Fits ↔ CallFits L n c)) ∧
      (∀ t r patch res, Acted L t (.finalize r patch) res → (patch.Fits ↔ AnswerFits L t r)) ∧
      ((∀ n c, Started L n (.chat c) → CallFits L n c) → (∀ t r, AnswerFits L t r) →
        ∀ r row, w.state.row r = some row → row.Fits) := by
  refine ⟨fun n c record res hst ha => Run.insert_fits_iff h hhash hst ha, fun t r patch res ha =>
    Run.finalize_fits_iff h ha, ?_⟩
  intro hcalls hanswers r row hrow
  refine Run.rows_fit h (fun n record res ha => ?_)
    (fun t id patch res ha => (Run.finalize_fits_iff h ha).mpr (hanswers t id)) hrow
  obtain ⟨task, L₁, hst, -, hspec⟩ := Run.acted_issued h ha
  cases task with
  | chat c => exact (Run.insert_fits_iff h hhash hst ha).mpr (hcalls n c hst)
  | _ => exact hspec.elim

def hashed : Deployment := { disk with requestHash := fun _ => List.replicate 64 '0' }

def hashedReply : Script hashed :=
  let a : Script disk := replies buy
  ⟨a.reply, a.draw, a.put, a.reply_legal, a.draw_mem⟩

def recordedCall (requestId : Str) : List (Command (driver hashed)) :=
  [.spawn 0 ⟨0, .startup⟩] ++ List.replicate 2 (.act 0 hashedReply) ++
    [.exit 0, .spawn 1 ⟨0, .chat (demoChat requestId "hi")⟩] ++
    List.replicate 13 (.act 1 hashedReply)

lemma recordedCall_inserts (requestId : Str)
    (hrun : ((driver hashed).schedule (fun _ _ _ => true) (recordedCall requestId) [] (start hashed morning)).any
      (fun p => (p.2.state.row requestId).isSome) = true) :
    ∃ (L : List (ProxyLabel hashed))
    (w : ProxyWorld hashed) (n : ℕ) (c : ChatCall) (record : PendingComparison), Run (start hashed morning) L w ∧
      Inserts L n c record ∧ record.requestId = requestId := by
  obtain ⟨L, w, h, hP⟩ := (driver hashed).exists_free_run (start hashed morning) (recordedCall requestId)
    (fun _ w => (w.state.row requestId).isSome) hrun
  obtain ⟨row, hrow⟩ := Option.isSome_iff_exists.mp hP
  obtain ⟨hid, n, c, hins⟩ := Run.row_inserts h hrow
  exact ⟨L, w, n, c, _, h, hins, hid⟩

theorem writes_fit_iff_one : ∃ (L : List (ProxyLabel hashed)) (w : ProxyWorld hashed) (n : ℕ) (c : ChatCall)
    (record : PendingComparison), Run (start hashed morning) L w ∧ Inserts L n c record ∧
      (∀ n c record res, Started L n (.chat c) → Acted L n (.insertPending record) res →
        ((newRow record).Fits ↔ CallFits L n c)) ∧
      (∀ t r patch res, Acted L t (.finalize r patch) res → (patch.Fits ↔ AnswerFits L t r)) ∧
      ((∀ n c, Started L n (.chat c) → CallFits L n c) → (∀ t r, AnswerFits L t r) →
        ∀ r row, w.state.row r = some row → row.Fits) := by
  obtain ⟨L, w, n, c, record, h, hins, -⟩ := recordedCall_inserts "a" (by decide +kernel)
  exact ⟨L, w, n, c, record, h, hins, writes_fit_iff h fun _ => List.length_replicate⟩

theorem write_does_not_fit : ∃ (L : List (ProxyLabel hashed)) (w : ProxyWorld hashed) (n : ℕ) (c : ChatCall)
    (record : PendingComparison), Run (start hashed morning) L w ∧ Inserts L n c record ∧
    ¬ (newRow record).Fits := by
  obtain ⟨L, w, n, c, record, h, hins, hid⟩ := recordedCall_inserts (List.replicate 65 '0') (by decide +kernel)
  refine ⟨L, w, n, c, record, h, hins, fun hfits => ?_⟩
  have hlength : record.requestId.length ≤ 64 := hfits.requestId
  rw [hid] at hlength
  simp at hlength

end ShadowProxy

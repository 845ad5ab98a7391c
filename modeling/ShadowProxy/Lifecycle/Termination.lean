import ShadowProxy.Archive.Payload
import ShadowProxy.Effects.Alone
import ShadowProxy.Llm.Client
import ShadowProxy.Scenario

/-! How a call of the candidate handler leaves its row when the stores answer. -/

namespace ShadowProxy

open Effects Prog Data SqlComparisonStore JsonActionEvaluator

def Smooth (reply : Except Exn ChatResponse) : Ev → Prop
  | ⟨.chatCompletions _ _ _, res⟩ => res = reply
  | ⟨_, .ok _⟩ => True
  | ⟨_, .error _⟩ => False

structure Beside (r : Str) (loc : Location) (s s' : State) : Prop where
  row : s'.row r = s.row r
  object : s'.objects loc = s.objects loc

lemma Beside.refl {r : Str} {loc : Location} (s : State) : Beside r loc s s := ⟨rfl, rfl⟩

lemma Beside.trans {r : Str} {loc : Location} (s₁ s₂ s₃ : State) (h : Beside r loc s₁ s₂)
    (h' : Beside r loc s₂ s₃) : Beside r loc s₁ s₃ :=
  ⟨h'.row.trans h.row, h'.object.trans h.object⟩

def Terminal (r : Str) (s : State) : Prop := ∃ row, s.row r = some row ∧
  (row.candidateStatus = .ok ∨ row.candidateStatus = .error ∨ row.candidateStatus = .dropped)

variable (dep : Deployment)

def ArchiveHolds (objectKey : Option Str) (body : Json) (s : State) : Prop :=
  match objectKey, dep.rawBackend with
  | some (c :: key), some _ => s.objects (dep.locate (c :: key)) = some (.payload body)
  | _, _ => body = .obj []

def Comparable (body : Json) (candidateContent : Str) : Prop :=
  ∃ text, (CandidateHandler.primaryContentFromRaw body >>= CandidateHandler.asText) = .ok text ∧
    Readable dep.py text ∧ Readable dep.py candidateContent

def Settles (row : ComparisonRow) (body : Json) (reply : Except Exn ChatResponse) : Prop :=
  row.primaryStatus ≠ .ok ∨ (∃ req, CandidateHandler.rebuildRequest dep body = .ok req) ∧
    ∀ resp, reply = .ok resp → Comparable dep body resp.content

section Must

variable {dep} {t : ℕ} {k : Kind} {s : State} {r : Str} {loc : Location} {reply : Except Exn ChatResponse}

abbrev Ends (dep : Deployment) (t : ℕ) (k : Kind) (r : Str) (loc : Location) (reply : Except Exn ChatResponse)
    {α : Type} (s : State) (p : Program α) (Q : State → Except Exn α → Prop) : Prop :=
  Must (S := system dep) (Beside r loc) (Smooth reply) t k s p Q

def Op.Quiet : Op → Prop
  | .now | .perfCounter | .count _ | .offer _ => True
  | _ => False

lemma must_op (o : Op) {Q : State → Except Exn o.Ret → Prop}
    (h : ∀ s' res, Beside r loc s s' → legal dep k s' o res → Smooth reply ⟨o, res⟩ →
      Q (after dep t k s' o res) res) :
    Ends dep t k r loc reply s (perform o) Q :=
  must_perform h

lemma must_quiet {P : State → Prop} (hP : ∀ s s', Beside r loc s s' → P s → P s') {o : Op} (ho : o.Quiet)
    (hs : P s) : Ends dep t k r loc reply s (perform o) fun s res => P s ∧ ∃ a, res = .ok a := by
  apply must_op
  intro s' res hR _ hA
  have hs' := hP s s' hR hs
  cases o <;> first | exact ho.elim | (cases res <;> first | exact hA.elim | exact ⟨hs', _, rfl⟩)

lemma must_elapsedMs {P : State → Prop} (hP : ∀ s s', Beside r loc s s' → P s → P s') (hs : P s) (start : ℚ) :
    Ends dep t k r loc reply s (elapsedMs start) fun s res => P s ∧ ∃ a, res = .ok a := by
  refine (must_bind _ _).mpr ((must_quiet hP (o := .perfCounter) trivial hs).mono ?_)
  rintro s _ ⟨hs, a, rfl⟩
  exact ⟨hs, _, rfl⟩

lemma Terminal.beside (s s' : State) (h : Beside r loc s s') (ht : Terminal r s) : Terminal r s' := by
  obtain ⟨row, hr, hc⟩ := ht
  exact ⟨row, h.row.trans hr, hc⟩

def Present (r : Str) (s : State) : Prop := ∃ row, s.row r = some row

lemma Present.beside (s s' : State) (h : Beside r loc s s') (hp : Present r s) : Present r s' := by
  obtain ⟨row, hr⟩ := hp
  exact ⟨row, h.row.trans hr⟩

lemma must_finalize (hs : Present r s) {patch : FinalizePatch} (hp : patch.candidateStatus = .ok ∨
    patch.candidateStatus = .error ∨ patch.candidateStatus = .dropped) :
    Ends dep t k r loc reply s (perform (.finalize r patch)) fun s res => Terminal r s ∧ res = .ok () := by
  apply must_op
  intro s' res hR _ hA
  obtain ⟨row, hr⟩ := Present.beside s s' hR hs
  cases res with
  | error e => exact hA.elim
  | ok u =>
    refine ⟨⟨finalized s'.clock patch row, ?_, hp⟩, rfl⟩
    have hrow := row_finalize s' r r patch
    rw [if_pos rfl, hr] at hrow
    exact hrow

lemma must_finalizeError (hs : Present r s) (error : Str) (start : ℚ) (label : Str) :
    Ends dep t k r loc reply s (CandidateHandler.finalizeError r error start label) fun s _ => Terminal r s := by
  refine (must_bind _ _).mpr ((must_elapsedMs Present.beside hs start).mono ?_)
  rintro s _ ⟨hs, latencyMs, rfl⟩
  refine (must_bind _ _).mpr ((must_quiet Present.beside (o := .count _) trivial hs).mono ?_)
  rintro s _ ⟨hs, _, rfl⟩
  have hrest : ∀ s, Present r s → Ends dep t k r loc reply s (do
      perform (.count (.verdictsTotal CandidateHandler.routeName .candidateError))
      let now ← perform .now
      perform (.finalize r (CandidateHandler.errorPatch error label latencyMs now))) fun s _ => Terminal r s := by
    intro s hs
    refine (must_bind _ _).mpr ((must_quiet Present.beside (o := .count _) trivial hs).mono ?_)
    rintro s _ ⟨hs, _, rfl⟩
    refine (must_bind _ _).mpr ((must_quiet Present.beside (o := .now) trivial hs).mono ?_)
    rintro s _ ⟨hs, now, rfl⟩
    exact (must_finalize hs (.inr (.inl rfl))).mono fun _ _ h => h.1
  dsimp only
  split
  · refine (must_bind _ _).mpr ((must_quiet Present.beside (o := .count _) trivial hs).mono ?_)
    rintro s _ ⟨hs, _, rfl⟩
    exact hrest s hs
  · exact hrest s hs

lemma must_recordVerdict (hs : Terminal r s) (record : ComparisonRow) (body : Json) (text : Str)
    (resp : ChatResponse) (result : EvaluationResult) (latencyMs : ℤ) :
    Ends dep t k r loc reply s (CandidateHandler.recordVerdict dep r record body text resp result latencyMs)
      fun s _ => Terminal r s := by
  have hrest : ∀ s, Terminal r s → Ends dep t k r loc reply s (do
      if result.verdict = .mismatch ∨ result.verdict = .invalidJson then
        let now ← perform .now
        let request ← orRaise (body.get "request" (.obj []))
        perform (.offer (CandidateHandler.tapeRow dep r record request text resp result latencyMs now)))
      fun s _ => Terminal r s := by
    intro s hs
    split
    · refine (must_bind _ _).mpr ((must_quiet Terminal.beside (o := .now) trivial hs).mono ?_)
      rintro s _ ⟨hs, now, rfl⟩
      dsimp only
      cases body.get "request" (.obj []) with
      | error e => exact hs
      | ok request => exact (must_quiet Terminal.beside (o := .offer _) trivial hs).mono fun _ _ h => h.1
    · exact hs
  refine (must_bind _ _).mpr ((must_quiet Terminal.beside (o := .count _) trivial hs).mono ?_)
  rintro s _ ⟨hs, _, rfl⟩
  dsimp only
  split
  · refine (must_bind _ _).mpr ((must_quiet Terminal.beside (o := .count _) trivial hs).mono ?_)
    rintro s _ ⟨hs, _, rfl⟩
    exact hrest s hs
  · exact hrest s hs

structure Ready (dep : Deployment) (r : Str) (objectKey : Option Str) (body : Json) (s : State) : Prop where
  present : Present r s
  archives : ArchiveHolds dep objectKey body s

variable {objectKey : Option Str} {body : Json}

lemma ArchiveHolds.beside (s s' : State) (h : Beside r (dep.locate (objectKey.getD [])) s s')
    (ha : ArchiveHolds dep objectKey body s) : ArchiveHolds dep objectKey body s' := by
  unfold ArchiveHolds at ha ⊢
  split at ha
  · exact h.object.trans ha
  · exact ha

lemma Ready.beside (s s' : State) (h : Beside r (dep.locate (objectKey.getD [])) s s')
    (hr : Ready dep r objectKey body s) : Ready dep r objectKey body s' :=
  ⟨Present.beside s s' h hr.present, ArchiveHolds.beside s s' h hr.archives⟩

lemma must_rawGet {c : Char} {key : Str} {backend : RawBackend} (hb : dep.rawBackend = some backend)
    (hs : Ready dep r (some (c :: key)) body s) :
    Ends dep t k r (dep.locate (c :: key)) reply s (perform (.rawGet (c :: key)))
      fun s res => Ready dep r (some (c :: key)) body s ∧ res = .ok body := by
  apply must_op
  intro s' res hR hl hA
  have hs' := Ready.beside s s' hR hs
  have ho := hs'.archives
  simp only [ArchiveHolds, hb] at ho
  cases res with
  | error e => exact hA.elim
  | ok payload =>
    simp only [legal, ho, Option.some.injEq, RawObject.payload.injEq] at hl
    exact ⟨hs', hl ▸ rfl⟩

lemma must_loadRequestBody (hs : Ready dep r objectKey body s) :
    Ends dep t k r (dep.locate (objectKey.getD [])) reply s (CandidateHandler.loadRequestBody dep objectKey)
      fun s res => Ready dep r objectKey body s ∧ res = .ok body := by
  have ha := hs.archives
  rcases objectKey with _ | _ | ⟨c, key⟩
  · exact ⟨hs, congrArg _ ha.symm⟩
  · exact ⟨hs, congrArg _ ha.symm⟩
  cases hb : dep.rawBackend with
  | none =>
    simp only [ArchiveHolds, hb] at ha
    simp only [CandidateHandler.loadRequestBody, hb]
    exact ⟨hs, congrArg _ ha.symm⟩
  | some backend =>
    simp only [CandidateHandler.loadRequestBody, hb]
    refine (must_bind _ _).mpr ((must_attempt _).mpr ((must_rawGet hb hs).mono ?_))
    rintro s _ ⟨hs, rfl⟩
    exact ⟨hs, rfl⟩

lemma must_mergeCandidateIntoRaw (hs : Ready dep r objectKey body s) {resp : Json}
    (hset : ∃ payload, body.setItem "candidate_response" resp = .ok payload) :
    Ends dep t k r (dep.locate (objectKey.getD [])) reply s
      (CandidateHandler.mergeCandidateIntoRaw dep objectKey resp)
      fun s res => Present r s ∧ res = .ok () := by
  unfold CandidateHandler.mergeCandidateIntoRaw
  split
  · rename_i c key backend hb
    refine (must_bind _ _).mpr ((must_attempt _).mpr ((must_rawGet hb hs).mono ?_))
    rintro s _ ⟨hs, rfl⟩
    obtain ⟨payload, hp⟩ := hset
    simp only [hp, orRaise, ret_bind]
    refine (must_bind _ _).mpr ((must_attempt _).mpr (must_op _ ?_))
    intro s' res hR _ hA
    have hs' := Present.beside s s' hR hs.present
    cases res with
    | error e => exact hA.elim
    | ok key' =>
      refine ⟨?_, rfl⟩
      simp only [after, State.write]
      split <;> exact hs'
  · exact ⟨hs.present, rfl⟩

lemma rebuilt_setItem {req : ChatRequest} (h : CandidateHandler.rebuildRequest dep body = .ok req) (resp : Json) :
    ∃ payload, body.setItem "candidate_response" resp = .ok payload := by
  obtain ⟨request, hg, _⟩ := exists_of_bind_ok h
  obtain ⟨ms, rfl, _⟩ := get_ok hg
  exact ⟨_, rfl⟩

lemma must_evaluateReply (hs : Ready dep r objectKey body s) {record : ComparisonRow}
    (hk : record.rawObjectKey = objectKey) {resp : ChatResponse}
    (hset : ∃ payload, body.setItem "candidate_response" resp.raw = .ok payload)
    (hc : Comparable dep body resp.content) (start : ℚ) :
    Ends dep t k r (dep.locate (objectKey.getD [])) reply s
      (CandidateHandler.evaluateReply dep r record body start resp)
      fun s _ => Terminal r s := by
  obtain ⟨text, htext, hread⟩ := hc
  obtain ⟨result, hresult⟩ : ∃ result, evaluate dep.py dep.config.evaluator text resp.content = .ok result :=
    evaluate_ok_iff.mpr hread
  refine (must_bind _ _).mpr ((must_elapsedMs Ready.beside hs start).mono ?_)
  rintro s _ ⟨hs, latencyMs, rfl⟩
  simp only [htext, hresult, orRaise, ret_bind, hk]
  refine (must_bind _ _).mpr ((must_mergeCandidateIntoRaw hs hset).mono ?_)
  rintro s _ ⟨hs, rfl⟩
  refine (must_bind _ _).mpr ((must_quiet Present.beside (o := .now) trivial hs).mono ?_)
  rintro s _ ⟨hs, now, rfl⟩
  refine (must_bind _ _).mpr ((must_finalize hs (.inl rfl)).mono ?_)
  rintro s _ ⟨hs, rfl⟩
  exact must_recordVerdict hs _ _ _ _ _ _

lemma must_shadow (hs : Ready dep r objectKey body s) {record : ComparisonRow}
    (hk : record.rawObjectKey = objectKey) (hreply : Foreseen reply)
    (hreq : ∃ req, CandidateHandler.rebuildRequest dep body = .ok req)
    (hc : ∀ resp, reply = .ok resp → Comparable dep body resp.content) :
    Ends dep t k r (dep.locate (objectKey.getD [])) reply s (CandidateHandler.shadow dep r record)
      fun s _ => Terminal r s := by
  obtain ⟨req, hreq⟩ := hreq
  rw [CandidateHandler.shadow]
  rw [hk]
  refine (must_bind _ _).mpr ((must_loadRequestBody hs).mono ?_)
  rintro s _ ⟨hs, rfl⟩
  simp only [hreq, orRaise, ret_bind]
  refine (must_bind _ _).mpr ((must_quiet Ready.beside (o := .perfCounter) trivial hs).mono ?_)
  rintro s _ ⟨hs, start, rfl⟩
  refine (must_bind _ _).mpr ((must_attempt _).mpr (must_op _ ?_))
  intro s' res hR _ hA
  have hs' := Ready.beside s s' hR hs
  obtain rfl : res = reply := hA
  cases res with
  | ok resp => exact must_evaluateReply hs' hk (rebuilt_setItem hreq _) (hc resp rfl) start
  | error e =>
    cases e
    case llmTimeout message => exact must_finalizeError hs'.present _ _ _
    case llmCall message code => exact must_finalizeError hs'.present _ _ _
    all_goals exact hreply.elim

lemma must_call {job : CandidateJob} {row : ComparisonRow} (hr : s.row job.requestId = some row)
    (ha : ArchiveHolds dep row.rawObjectKey body s) (hreply : Foreseen reply) (hset : Settles dep row body reply) :
    Ends dep t k job.requestId (dep.locate (row.rawObjectKey.getD [])) reply s
      (CandidateHandler.call dep job.requestId) fun s _ => Terminal job.requestId s := by
  refine (must_bind _ _).mpr (must_op _ ?_)
  intro s' res hR hl hA
  have hr' : s'.row job.requestId = some row := hR.row.trans hr
  cases res with
  | error e => exact hA.elim
  | ok record =>
    simp only [legal, hr'] at hl
    subst hl
    have hs' : Ready dep job.requestId row.rawObjectKey body s' := ⟨⟨row, hr'⟩, ArchiveHolds.beside s s' hR ha⟩
    dsimp only
    split
    · refine (must_bind _ _).mpr ((must_quiet Ready.beside (o := .now) trivial hs').mono ?_)
      rintro s _ ⟨hs, now, rfl⟩
      exact (must_finalize hs.present (.inr (.inr rfl))).mono fun _ _ h => h.1
    · rename_i hp
      obtain ⟨hreq, hc⟩ := hset.resolve_left hp
      refine (must_bind _ _).mpr (must_op _ ?_)
      intro s'' res hR' _ hA'
      have hs'' := Ready.beside s' s'' hR' hs'
      obtain ⟨row'', hr''⟩ := hs''.present
      cases res with
      | error e => exact hA'.elim
      | ok u =>
        have hrow := row_markInProgress s'' job.requestId job.requestId
        rw [if_pos rfl, hr''] at hrow
        have hmarked : Present job.requestId (after dep t k s'' (.markInProgress job.requestId) (.ok u)) :=
          ⟨_, hrow⟩
        exact must_shadow ⟨hmarked, hs''.archives⟩ rfl hreply hreq hc

end Must

section Can

variable {dep} {t : ℕ} {k : Kind} {s : State} {r : Str} {reply : Except Exn ChatResponse} {h : List Ev}
  {objectKey : Option Str} {body : Json}

abbrev AllSmooth (reply : Except Exn ChatResponse) (h : List Ev) : Prop := ∀ e ∈ h, Smooth reply e

lemma AllSmooth.snoc {e : Ev} (hh : AllSmooth reply h) (he : Smooth reply e) : AllSmooth reply (h ++ [e]) := by
  intro e' he'
  rcases List.mem_append.mp he' with hm | hm
  · exact hh e' hm
  · exact List.mem_singleton.mp hm ▸ he

def InProgress (r : Str) (s : State) : Prop := ∃ row, s.row r = some row ∧ row.candidateStatus = .inProgress

abbrev Strands (dep : Deployment) (t : ℕ) (k : Kind) (r : Str) (reply : Except Exn ChatResponse) {α : Type}
    (s : State) (h : List Ev) (p : Program α) : Prop :=
  Can (S := system dep) t k s h p fun s h _ => AllSmooth reply h ∧ InProgress r s

lemma can_op {α : Type} (o : Op) (a : o.Ret) {f : o.Ret → Program α} {Q : State → List Ev → Except Exn α → Prop}
    (hl : legal dep k s o (.ok a))
    (hf : Can (S := system dep) t k (after dep t k s o (.ok a)) (h ++ [⟨o, .ok a⟩]) (f a) Q) :
    Can (S := system dep) t k s h (perform o >>= f) Q :=
  (can_bind _ _).mpr (can_perform (S := system dep) (.ok a) hl hf)

lemma can_loadRequestBody {α : Type} (ha : ArchiveHolds dep objectKey body s) (hh : AllSmooth reply h)
    {f : Json → Program α} (hf : ∀ h', AllSmooth reply h' → Strands dep t k r reply s h' (f body)) :
    Strands dep t k r reply s h (CandidateHandler.loadRequestBody dep objectKey >>= f) := by
  rcases objectKey with _ | _ | ⟨c, key⟩
  · obtain rfl : body = .obj [] := ha
    exact hf h hh
  · obtain rfl : body = .obj [] := ha
    exact hf h hh
  cases hb : dep.rawBackend with
  | none =>
    simp only [ArchiveHolds, hb] at ha
    subst ha
    simp only [CandidateHandler.loadRequestBody, hb]
    exact hf h hh
  | some backend =>
    simp only [ArchiveHolds, hb] at ha
    simp only [CandidateHandler.loadRequestBody, hb]
    refine (can_bind _ _).mpr ((can_bind _ _).mpr ((can_attempt _).mpr ?_))
    exact can_perform (S := system dep) (.ok body) ha (hf _ (hh.snoc trivial))

lemma strands_evaluateReply {record : ComparisonRow} {resp : ChatResponse} (hs : InProgress r s)
    (hh : AllSmooth reply h) (hc : ¬ Comparable dep body resp.content) (start : ℚ) :
    Strands dep t k r reply s h (CandidateHandler.evaluateReply dep r record body start resp) := by
  refine (can_bind _ _).mpr (can_op .perfCounter 0 trivial ?_)
  dsimp only
  cases htext : CandidateHandler.primaryContentFromRaw body >>= CandidateHandler.asText with
  | error e => exact ⟨hh.snoc trivial, hs⟩
  | ok text =>
    simp only [orRaise, ret_bind]
    cases hresult : evaluate dep.py dep.config.evaluator text resp.content with
    | error e => exact ⟨hh.snoc trivial, hs⟩
    | ok result => exact (hc ⟨text, htext, evaluate_ok_iff.mp ⟨result, hresult⟩⟩).elim

lemma strands_shadow {record : ComparisonRow} (hs : InProgress r s)
    (ha : ArchiveHolds dep record.rawObjectKey body s)
    (hlegal : ∀ resp, reply = .ok resp → toChatResponse dep.py dep.pydantic resp.raw = .ok resp)
    (hh : AllSmooth reply h)
    (hset : ¬ ((∃ req, CandidateHandler.rebuildRequest dep body = .ok req) ∧ ∀ resp, reply = .ok resp →
      Comparable dep body resp.content)) :
    Strands dep t k r reply s h (CandidateHandler.shadow dep r record) := by
  apply can_loadRequestBody ha hh
  intro h hh
  cases hreq : CandidateHandler.rebuildRequest dep body with
  | error e => exact ⟨hh, hs⟩
  | ok req =>
    obtain ⟨resp, rfl, hc⟩ : ∃ resp, reply = .ok resp ∧ ¬ Comparable dep body resp.content := by
      by_contra hn
      refine hset ⟨⟨req, hreq⟩, fun resp hr => ?_⟩
      by_contra hc
      exact hn ⟨resp, hr, hc⟩
    simp only [orRaise, ret_bind]
    apply can_op .perfCounter 0 trivial
    refine (can_bind _ _).mpr ((can_attempt _).mpr (can_perform (S := system dep) (.ok resp) (hlegal resp rfl) ?_))
    refine strands_evaluateReply hs ?_ hc 0
    exact (hh.snoc (e := ⟨.perfCounter, .ok 0⟩) trivial).snoc rfl

lemma strands_call {job : CandidateJob} {row : ComparisonRow} (hr : s.row job.requestId = some row)
    (ha : ArchiveHolds dep row.rawObjectKey body s)
    (hlegal : ∀ resp, reply = .ok resp → toChatResponse dep.py dep.pydantic resp.raw = .ok resp)
    (hset : ¬ Settles dep row body reply) :
    Strands dep t k job.requestId reply s [] (CandidateHandler.call dep job.requestId) := by
  obtain ⟨hp, hset⟩ := not_or.mp hset
  apply can_op (.get job.requestId) (some row) hr.symm
  simp only [if_neg hp]
  apply can_op (.markInProgress job.requestId) () trivial
  have hrow := row_markInProgress s job.requestId job.requestId
  rw [if_pos rfl, hr] at hrow
  refine strands_shadow ⟨markedInProgress s.clock row, hrow, rfl⟩ ha hlegal ?_ hset
  simp [AllSmooth, Smooth]

end Can

section Termination

variable {t : ℕ} {k : Kind} {s₀ : State} (job : CandidateJob) {row : ComparisonRow} {body : Json}
  {reply : Except Exn ChatResponse}

lemma exists_stranded (hr : s₀.row job.requestId = some row) (ha : ArchiveHolds dep row.rawObjectKey body s₀)
    (hlegal : ∀ resp, reply = .ok resp → toChatResponse dep.py dep.pydantic resp.raw = .ok resp)
    (hset : ¬ Settles dep row body reply) (loc : Location) :
    ∃ h q s, Exec (S := system dep) (Beside job.requestId loc) t k (taskProgram dep (.handle job)) s₀ h q s ∧
      AllSmooth reply h ∧ q.done = true ∧ ¬ Terminal job.requestId s := by
  obtain ⟨h, res, s, hx, hh, row', hr', hi⟩ := Can.exec (R := Beside job.requestId loc)
    (strands_call (t := t) (k := k) hr ha hlegal hset) .start
  refine ⟨h, orRaise res, s, hx, hh, done_orRaise res, ?_⟩
  rintro ⟨row'', hr'', ht⟩
  rw [hr'] at hr''
  cases hr''
  simp [hi] at ht

theorem handler_ends_terminal_iff (hr : s₀.row job.requestId = some row)
    (ha : ArchiveHolds dep row.rawObjectKey body s₀) (hreply : Foreseen reply)
    (hlegal : ∀ resp, reply = .ok resp → toChatResponse dep.py dep.pydantic resp.raw = .ok resp) :
    (∀ h q s, Exec (S := system dep) (Beside job.requestId (dep.locate (row.rawObjectKey.getD []))) t k
      (taskProgram dep (.handle job)) s₀ h q s → AllSmooth reply h → q.done = true → Terminal job.requestId s) ↔
    Settles dep row body reply := by
  constructor
  · intro hends
    by_contra hset
    obtain ⟨h, q, s, hx, hh, hd, ht⟩ := exists_stranded dep job (t := t) (k := k) hr ha hlegal hset
      (dep.locate (row.rawObjectKey.getD []))
    exact ht (hends h q s hx hh hd)
  · intro hset h q s hx hh hd
    obtain ⟨s₁, hb, hm⟩ := hx.must Beside.refl Beside.trans hh (must_call hr ha hreply hset)
    apply Terminal.beside s₁ s hb
    cases q with
    | ret a => exact hm
    | raise e => exact hm
    | op o f => cases hd

end Termination

def digitPython : Python :=
  { demoPython with
    loads := fun s => if 4300 < s.length ∧ s.all Char.isDigit then .error .valueError else demoPython.loads s }

abbrev digits : Deployment := { disk with py := digitPython }

def ones (n : ℕ) : Str := List.replicate n '1'

lemma lstrip_ones (n : ℕ) : lstrip (ones n) = ones n := by
  cases n <;> rfl

lemma strip_ones (n : ℕ) : strip (ones n) = ones n := by
  have hr : (ones n).reverse = ones n := List.reverse_replicate
  rw [strip, lstrip_ones, rstrip, hr]
  exact (congrArg List.reverse (lstrip_ones n)).trans hr

lemma fenceBody_ones (n : ℕ) : fenceBody (ones n) = none := by
  simp only [fenceBody, lstrip_ones]
  cases n <;> rfl

lemma stripCodeFence_ones (n : ℕ) : stripCodeFence (ones n) = ones n := by
  rw [stripCodeFence, fenceBody_ones]
  exact strip_ones n

lemma ones_unreadable {n : ℕ} (hn : 4300 < n) : ¬ Readable digitPython (ones n) := by
  have hlen : (ones n).length = n := List.length_replicate
  have hl : digitPython.loads (ones n) = .error .valueError := by
    refine if_pos ⟨by omega, ?_⟩
    simp [ones]
  rw [Readable]
  rw [stripCodeFence_ones]
  rintro (h | h)
  · simp [h] at hlen
    omega
  · obtain ⟨msg, hm⟩ := h _ hl
    cases hm

def archivedPayload (content : Str) : Json :=
  archivePayload ((demoChat "a" "hi").persistArgs (fun _ => "hash") morning demoRoute)
    { status := .ok, latencyMs := 0, content := content, raw := some (demoReply content).raw } morning

def archivedRow : ComparisonRow :=
  newRow (pendingRecord ((demoChat "a" "hi").persistArgs (fun _ => "hash") morning demoRoute)
    { status := .ok, latencyMs := 0 } (some (keyFor morning "a")) none)

def archived (content : Str) : State where
  clock := morning
  rows := [archivedRow]
  objects := Function.update (fun _ => none) (disk.locate (keyFor morning "a"))
    (some (.payload (archivedPayload content)))
  procs := fun _ => {}

lemma archived_row (content : Str) : (archived content).row "a" = some archivedRow := rfl

lemma archived_archives (content : Str) :
    ArchiveHolds digits archivedRow.rawObjectKey (archivedPayload content) (archived content) := by
  have ho : (archived content).objects (disk.locate (keyFor morning "a")) =
      some (.payload (archivedPayload content)) := by
    simp only [archived, Function.update_self]
  exact ho

lemma digitReply_legal (content : Str) : ∀ resp, (.ok (demoReply content) : Except Exn ChatResponse) = .ok resp →
    toChatResponse digitPython demoPydantic resp.raw = .ok resp := by
  rintro _ ⟨rfl⟩
  cases content <;> rfl

lemma buy_readable : Readable digitPython buy := readable_iff.mpr ⟨_, rfl⟩

theorem handler_ends_terminal_match :
    Settles digits archivedRow (archivedPayload buy) (.ok (demoReply buy)) ∧
    ((∀ h q s, Exec (S := system digits) (Beside "a" (digits.locate (keyFor morning "a"))) 1 ⟨0, .handle ⟨"a", 0⟩⟩
      (taskProgram digits (.handle ⟨"a", 0⟩)) (archived buy) h q s →
      AllSmooth (.ok (demoReply buy)) h → q.done = true → Terminal "a" s) ↔
    Settles digits archivedRow (archivedPayload buy) (.ok (demoReply buy))) := by
  constructor
  · refine .inr ⟨⟨_, rfl⟩, ?_⟩
    rintro _ ⟨rfl⟩
    exact ⟨buy, rfl, buy_readable, buy_readable⟩
  · have hforeseen : Foreseen (.ok (demoReply buy)) := trivial
    exact handler_ends_terminal_iff digits ⟨"a", 0⟩ (archived_row buy) (archived_archives buy) hforeseen
      (digitReply_legal buy)

/-- The candidate's content is an integer literal of 4301 digits. -/
theorem handler_leaves_row_in_progress : ∃ h q s,
    Exec (S := system digits) (Beside "a" (digits.locate (keyFor morning "a"))) 1 ⟨0, .handle ⟨"a", 0⟩⟩
      (taskProgram digits (.handle ⟨"a", 0⟩)) (archived buy) h q s ∧
    AllSmooth (.ok (demoReply (ones 4301))) h ∧ q.done = true ∧ ¬ Terminal "a" s := by
  apply exists_stranded digits ⟨"a", 0⟩ (archived_row buy) (archived_archives buy) (digitReply_legal _)
  rintro (hp | ⟨_, hc⟩)
  · exact hp rfl
  · obtain ⟨_, _, _, hread⟩ := hc _ rfl
    exact ones_unreadable (by omega) hread

end ShadowProxy

import ShadowProxy.Metrics.Verdicts

/-! What the tape is offered against what the store has accepted. -/

namespace ShadowProxy

open Effects Prog CandidateHandler JsonActionEvaluator

def Op.ofTape : Op → Bool
  | .finalize _ _ | .offer _ => true
  | _ => false

def Verdict.taped : Verdict → Bool
  | .mismatch | .invalidJson => true
  | _ => false

lemma Verdict.taped_iff {v : Verdict} : v.taped = true ↔ v = .mismatch ∨ v = .invalidJson := by
  cases v <;> simp [taped]

structure TapeRow.Tells (row : TapeRow) (patch : FinalizePatch) : Prop where
  verdict : row.verdict = patch.verdict
  reasons : row.reasons = patch.reasons
  candidateAction : row.candidateAction = patch.candidateAction
  candidateLatencyMs : some row.candidateLatencyMs = patch.candidateLatencyMs

inductive TapeExit (r : Str) : List Ev → Prop
  | silent : TapeExit r []
  | untaped {patch res} : patch.verdict.taped = false → TapeExit r [⟨.finalize r patch, res⟩]
  | unwritten {patch e} : TapeExit r [⟨.finalize r patch, .error e⟩]
  | taped {patch row} : patch.verdict.taped = true → row.Tells patch → row.requestId = r →
      TapeExit r [⟨.finalize r patch, .ok ()⟩, ⟨.offer row, .ok ()⟩]

lemma TapeExit.of_noted {r : Str} {h l : List Ev} (he : noted Op.ofTape h = l) (hl : TapeExit r l) :
    TapeExit r (noted Op.ofTape h) := he ▸ hl

abbrev Taped (r : Str) (h : List Ev) (p : Program Unit) : Prop :=
  Concluded (fun _ => false) h p fun h' _ => TapeExit r (noted Op.ofTape h')

section Taped

variable {dep : Deployment} {h : List Ev} {r : Str}

lemma off_tape {o : Op} (ho : o.ofTape = false) : @Performs proxy _ (fun o => Op.ofTape o = false) (perform o) :=
  performs_perform (I := proxy) ho

lemma taped_bind {α : Type} {p : Program α} {f : α → Program Unit}
    (hp : Performs (fun o => Op.ofTape o = false) p) (hn : noted Op.ofTape h = [])
    (hf : ∀ h' a, noted Op.ofTape h' = [] → Taped r h' (f a)) : Taped r h (p >>= f) := by
  refine (concludes_bind _ _).mpr ((concluded_unnoted hp).mono fun h' res _ hh => ?_)
  rw [hn] at hh
  cases res with
  | ok a => exact hf h' a hh
  | error e => exact TapeExit.of_noted hh .silent

lemma taped_finalize {patch : DateTime → FinalizePatch} (hp : ∀ now, (patch now).verdict.taped = false)
    (hn : noted Op.ofTape h = []) : Taped r h (do
      let now ← perform .now
      perform (.finalize r (patch now))) := by
  refine (concludes_bind _ _).mpr (concludes_sure rfl fun now => concludes_perform fun res _ => ?_)
  have he : noted Op.ofTape (h ++ [⟨.now, .ok now⟩] ++ [⟨.finalize r (patch now), res⟩]) =
      [⟨.finalize r (patch now), res⟩] := by
    simp [hn, Op.ofTape]
  exact TapeExit.of_noted he (.untaped (hp now))

lemma taped_finalizeError {error label : Str} {start : ℚ} (hn : noted Op.ofTape h = []) :
    Taped r h (finalizeError r error start label) := by
  have htail : ∀ latencyMs h', noted Op.ofTape h' = [] → Taped r h' (do
      perform (.count (.verdictsTotal routeName .candidateError))
      let now ← perform .now
      perform (.finalize r (errorPatch error label latencyMs now))) := fun latencyMs h' hn =>
    taped_bind (off_tape rfl) hn fun h₁ _ hn => taped_finalize (fun _ => rfl) hn
  refine taped_bind (.bind (off_tape rfl) fun _ => trivial) hn fun h₁ latencyMs hn => ?_
  refine taped_bind (off_tape rfl) hn fun h₂ _ hn => ?_
  split
  · exact taped_bind (off_tape rfl) hn fun h₃ _ hn => htail latencyMs h₃ hn
  · exact htail latencyMs h₂ hn

lemma taped_recordVerdict {record : ComparisonRow} {body request : Json} {text : Str} {resp : ChatResponse}
    {result : EvaluationResult} {latencyMs : ℤ} {now : DateTime}
    (hreq : body.get "request" (.obj []) = .ok request)
    (hn : noted Op.ofTape h = [⟨.finalize r (okPatch result latencyMs now), .ok ()⟩]) :
    Taped r h (recordVerdict dep r record body text resp result latencyMs) := by
  have htape : ∀ h', noted Op.ofTape h' = [⟨.finalize r (okPatch result latencyMs now), .ok ()⟩] → Taped r h' (do
      if result.verdict = .mismatch ∨ result.verdict = .invalidJson then
        let now ← perform .now
        let request ← orRaise (body.get "request" (.obj []))
        perform (.offer (tapeRow dep r record request text resp result latencyMs now))) := by
    intro h' hn
    split
    · rename_i hv
      refine (concludes_bind _ _).mpr (concludes_sure rfl fun now' =>
        (concludes_bind _ _).mpr ((concludes_orRaise _).mpr ?_))
      rw [hreq]
      refine concludes_sure rfl fun _ => ?_
      have he : noted Op.ofTape (h' ++ [⟨.now, .ok now'⟩] ++
          [⟨.offer (tapeRow dep r record request text resp result latencyMs now'), .ok ()⟩]) =
          [⟨.finalize r (okPatch result latencyMs now), .ok ()⟩,
            ⟨.offer (tapeRow dep r record request text resp result latencyMs now'), .ok ()⟩] :=
              by simp [hn, Op.ofTape]
      exact TapeExit.of_noted he (.taped (Verdict.taped_iff.mpr hv) ⟨rfl, rfl, rfl, rfl⟩ rfl)
    · rename_i hv
      exact TapeExit.of_noted hn (.untaped (Bool.eq_false_iff.mpr (mt Verdict.taped_iff.mp hv)))
  refine (concludes_bind _ _).mpr (concludes_sure rfl fun _ => ?_)
  cases hkey : verdictCounter result.verdict with
  | some key =>
    refine (concludes_bind _ _).mpr (concludes_sure rfl fun _ => htape _ ?_)
    simp [hn, Op.ofTape]
  | none =>
    refine htape _ ?_
    simp [hn, Op.ofTape]

lemma taped_evaluateReply {record : ComparisonRow} {body request : Json} {start : ℚ} {resp : ChatResponse}
    (hreq : body.get "request" (.obj []) = .ok request) (hn : noted Op.ofTape h = []) :
    Taped r h (evaluateReply dep r record body start resp) := by
  refine taped_bind (.bind (off_tape rfl) fun _ => trivial) hn fun h₁ latencyMs hn => ?_
  refine taped_bind (performs_orRaise _) hn fun h₂ text hn => ?_
  refine taped_bind (performs_orRaise _) hn fun h₃ result hn => ?_
  refine taped_bind (performs_mergeCandidateIntoRaw (fun _ => rfl) (fun _ _ => rfl) _ _) hn fun h₄ _ hn => ?_
  refine (concludes_bind _ _).mpr (concludes_sure rfl fun now =>
    (concludes_bind _ _).mpr (concludes_perform fun res _ => ?_))
  have hw : noted Op.ofTape (h₄ ++ [⟨.now, .ok now⟩] ++ [⟨.finalize r (okPatch result latencyMs now), res⟩]) =
      [⟨.finalize r (okPatch result latencyMs now), res⟩] := by simp [hn, Op.ofTape]
  cases res with
  | ok u => exact taped_recordVerdict hreq hw
  | error e => exact TapeExit.of_noted hw .unwritten

lemma rebuildRequest_request {body : Json} {req : ChatRequest} (h : rebuildRequest dep body = .ok req) :
    ∃ request, body.get "request" (.obj []) = .ok request := by
  cases hb : body.get "request" (.obj []) with
  | ok request => exact ⟨request, rfl⟩
  | error e =>
    rw [rebuildRequest, hb] at h
    cases h

lemma taped_shadow {record : ComparisonRow} (hn : noted Op.ofTape h = []) : Taped r h (shadow dep r record) := by
  refine taped_bind (performs_loadRequestBody (fun _ => rfl) _) hn fun h₁ body hn => ?_
  refine (concludes_bind _ _).mpr ((concludes_orRaise _).mpr ?_)
  cases hreq : rebuildRequest dep body with
  | error e => exact TapeExit.of_noted hn .silent
  | ok req =>
    obtain ⟨request, hrequest⟩ := rebuildRequest_request hreq
    refine taped_bind (off_tape rfl) hn fun h₂ start hn => ?_
    refine taped_bind (off_tape rfl).attempt hn fun h₃ res hn => ?_
    cases res with
    | ok resp => exact taped_evaluateReply hrequest hn
    | error e =>
      cases e
      case llmTimeout | llmCall => exact taped_finalizeError hn
      all_goals exact TapeExit.of_noted hn .silent

lemma taped_call (dep : Deployment) (job : CandidateJob) :
    Taped job.requestId [] (taskProgram dep (.handle job)) := by
  refine taped_bind (off_tape rfl) rfl fun h₁ record hn => ?_
  cases record with
  | none => exact TapeExit.of_noted hn .silent
  | some record =>
    dsimp only
    split
    · exact taped_finalize (fun _ => rfl) hn
    · exact taped_bind (off_tape rfl) hn fun h₂ _ hn => taped_shadow hn

end Taped

def offered : Ev → Bool
  | ⟨.offer _, .ok ()⟩ => true
  | _ => false

def finalizedTaped : Ev → Bool
  | ⟨.finalize _ patch, .ok ()⟩ => patch.verdict.taped
  | _ => false

lemma TapeExit.balanced {r : Str} {h : List Ev} (he : TapeExit r h) :
    h.countP offered = h.countP finalizedTaped := by
  cases he with
  | silent => rfl
  | @untaped patch res hv => cases res <;> simp [offered, finalizedTaped, hv]
  | unwritten => rfl
  | taped hv => simp [offered, finalizedTaped, hv]

lemma TapeExit.finalized_offered {r id : Str} {h : List Ev} {patch : FinalizePatch} (he : TapeExit r h)
    (hf : (⟨.finalize id patch, .ok ()⟩ : Ev) ∈ h) (hv : patch.verdict.taped = true) :
    ∃ row, (⟨.offer row, .ok ()⟩ : Ev) ∈ h ∧ row.requestId = id ∧ row.Tells patch := by
  cases he with
  | silent => cases hf
  | @untaped patch' res hv' =>
    obtain ⟨⟨rfl, rfl⟩, -⟩ : (id = r ∧ patch = patch') ∧ HEq (Except.ok () : Except Exn Unit) res :=
      by simpa using hf
    rw [hv'] at hv
    cases hv
  | unwritten => simp at hf
  | @taped patch' row hv' htells hid =>
    obtain ⟨rfl, rfl⟩ : id = r ∧ patch = patch' := by simpa using hf
    exact ⟨row, by simp, hid, htells⟩

lemma offered_ofTape {e : Ev} (he : offered e = true) : e.op.ofTape = true := by
  unfold offered at he
  split at he
  · rfl
  · cases he

lemma finalizedTaped_ofTape {e : Ev} (he : finalizedTaped e = true) : e.op.ofTape = true := by
  unfold finalizedTaped at he
  split at he
  · rfl
  · cases he

lemma handles_iff {k : Kind} {x : ℕ} : k.handles x = true ↔ ∃ job, k = ⟨x, .handle job⟩ := by
  obtain ⟨y, task⟩ := k
  cases task <;> simp [Kind.handles]

lemma sound_result (clock : DateTime) (o : Op) : ∃ r, Sound (fun _ => false) ⟨o, r⟩ := by
  cases o
  case now => exact ⟨.ok clock, fun _ => ⟨_, rfl⟩⟩
  case perfCounter => exact ⟨.ok 0, fun _ => ⟨_, rfl⟩⟩
  case sample => exact ⟨.ok (0, 0), fun _ => ⟨_, rfl⟩⟩
  case enqueue => exact ⟨.ok .enqueued, fun _ => ⟨_, rfl⟩⟩
  case count | offer | serve => exact ⟨.ok (), fun _ => ⟨_, rfl⟩⟩
  all_goals exact ⟨.error .keyError, fun h => nomatch h⟩

section Runs

variable {dep : Deployment} {clock : DateTime} {L : List (ProxyLabel dep)} {w : ProxyWorld dep} {t x : ℕ}
  {job : CandidateJob}

lemma Run.tape_prefix (h : Run (start dep clock) L w) (hst : Started L t (.handle job)) :
    ∃ l, TapeExit job.requestId l ∧ noted Op.ofTape (history t L) <+: l := by
  obtain ⟨x, hx⟩ := hst
  obtain ⟨q, hq⟩ := Run.follows h (fun _ => rfl) hx
  have hsound : ∀ e ∈ history t L, Sound (fun _ => false) e := Run.sound h fun _ ho => nomatch ho
  obtain ⟨h', res, hh, he⟩ := (hq.concludes hsound (taped_call dep job)).completes (sound_result clock)
  exact ⟨_, he, hh.filter _⟩

lemma Run.tape_exit (h : Run (start dep clock) L w) (hk : Label.spawn (S := system dep) t ⟨x, .handle job⟩ ∈ L)
    (hc : Label.crash x ∉ L) (hend : w.threads t = none) :
    TapeExit job.requestId (noted Op.ofTape (history t L)) := by
  have hsound : ∀ e ∈ history t L, Sound (fun _ => false) e := Run.sound h fun _ ho => nomatch ho
  rcases Run.live_or_ended h (fun _ => rfl) hk hc with ⟨p, hp⟩ | ⟨-, q, hq, hd⟩
  · exact absurd (hend.symm.trans hp) (by simp)
  · obtain ⟨res, he⟩ := hq.concluded hd hsound (taped_call dep job)
    exact he

lemma Run.offer_issued (h : Run (start dep clock) L w) {row : TapeRow} {res : Except Exn Unit}
    (ha : Acted L t (.offer row) res) :
    ∃ job L₁, Started L t (.handle job) ∧ L₁ <+: L ∧
      CandidateHandler.Spec dep job.requestId (history t L₁) (.offer row) := by
  obtain ⟨task, L₁, hst, hpre, hspec⟩ := Run.acted_issued h ha
  cases task with
  | handle job => exact ⟨job, L₁, hst, hpre, hspec⟩
  | chat c => exact hspec.elim
  | sweep => exact hspec.elim
  | startup => exact hspec.elim

lemma Run.offer_finalized (h : Run (start dep clock) L w) (hst : Started L t (.handle job)) {row : TapeRow}
    {res : Except Exn Unit} (ha : Acted L t (.offer row) res) :
    row.requestId = job.requestId ∧ ∃ patch, Acted L t (.finalize job.requestId patch) (.ok ()) ∧
      patch.verdict.taped = true ∧ row.Tells patch := by
  obtain ⟨l, hexit, hpre⟩ := Run.tape_prefix h hst
  have hmem : (⟨.offer row, res⟩ : Ev) ∈ noted Op.ofTape (history t L) :=
    List.mem_filter.mpr ⟨(mem_history (S := system dep)).mpr ha, rfl⟩
  have hin := hpre.subset hmem
  cases hexit with
  | silent => cases hin
  | untaped | unwritten => simp at hin
  | @taped patch row' hv htells hid =>
    obtain ⟨rfl, -⟩ : row = row' ∧ res = .ok () := by simpa using (List.mem_cons.mp hin).resolve_left (by simp)
    refine ⟨hid, patch, ?_, hv, htells⟩
    -- the finalization comes first, so no beginning of the exit has the offer alone
    have hfirst : (⟨.finalize job.requestId patch, .ok ()⟩ : Ev) ∈ noted Op.ofTape (history t L) := by
      cases hl : noted Op.ofTape (history t L) with
      | nil => simp [hl] at hmem
      | cons e es =>
        rw [hl, List.cons_prefix_cons] at hpre
        rw [hpre.1]
        exact List.mem_cons_self
    exact did_history.mp (List.mem_filter.mp hfirst).1

end Runs

structure TapeRow.Truthful {dep : Deployment} (L : List (ProxyLabel dep)) (w : ProxyWorld dep) (t : ℕ)
    (row : TapeRow) : Prop where
  recorded : ∃ patch, Acted L t (.finalize row.requestId patch) (.ok ()) ∧ patch.verdict.taped = true ∧
    row.Tells patch
  stored : ∃ stored, w.state.row row.requestId = some stored ∧ stored.primaryStatus = .ok ∧
    row.primaryAction = stored.primaryAction ∧ row.primaryLatencyMs = stored.primaryLatencyMs
  answered : ∃ req timeoutS reply, Acted L t (.chatCompletions .candidate req timeoutS) (.ok reply) ∧
    row.candidateContent = reply.content
  reproducible : ∃ result, evaluate dep.py dep.config.evaluator row.primaryContent row.candidateContent =
    .ok result ∧
    row.verdict = result.verdict ∧ row.reasons = result.reasons ∧ row.candidateAction = result.candidateAction

section Truthful

variable {dep : Deployment} {clock : DateTime} {L : List (ProxyLabel dep)} {w : ProxyWorld dep} {t x : ℕ}

theorem tape_rows_truthful (h : Run (start dep clock) L w) {row : TapeRow} {res : Except Exn Unit}
    (ha : Acted L t (.offer row) res) : row.Truthful L w t := by
  obtain ⟨job, L₁, hst, hpre, record, body, text, resp, result, request, latencyMs, now, he, hreq, hrow⟩ :=
    Run.offer_issued h ha
  obtain ⟨hid, patch, hf, hv, htells⟩ := Run.offer_finalized h hst ha
  have hacted : ∀ {o : Op} {r : Except Exn o.Ret}, Did (history t L₁) o r → Acted L t o r := fun hd =>
    hpre.subset (did_history.mp hd)
  constructor
  · exact ⟨patch, hid ▸ hf, hv, htells⟩
  · obtain ⟨stored, hstored, hp⟩ := Run.get_row h (hacted he.shadowed.1)
    refine ⟨stored, hid ▸ hstored, ?_, ?_, ?_⟩ <;> rw [hp]
    · exact he.shadowed.2
    · rw [hrow]
      rfl
    · rw [hrow]
      rfl
  · obtain ⟨req, timeoutS, hd⟩ := he.replied
    exact ⟨req, timeoutS, resp, hacted hd, hrow ▸ rfl⟩
  · refine ⟨result, ?_, ?_, ?_, ?_⟩ <;> rw [hrow]
    · exact he.result_eq
    all_goals rfl

def twoTexts : List (DemoCommand none) :=
  oneCall (replies "nope") 11 ++ begin 2 (.handle ⟨"a", 1⟩) ++ acts 11 2 (replies "nope") ++ [.exit 2]

theorem tape_rows_truthful_texts :
    ∃ (L : List (ProxyLabel (demo none))) (w : ProxyWorld (demo none)) (row : TapeRow),
    Run (start (demo none) morning) L w ∧ Acted L 2 (.offer row) (.ok ()) ∧ row.Truthful L w 2 := by
  obtain ⟨L, w, h, hP⟩ := (driver (demo none)).exists_free_run (start (demo none) morning) twoTexts
    (fun L _ => L.any (acted 2 offered)) (by decide +kernel)
  obtain ⟨e, he, ho⟩ := any_acted.mp hP
  unfold offered at ho
  split at ho
  · exact ⟨L, w, _, h, he, tape_rows_truthful h he⟩
  · cases ho

theorem tape_complete (h : Run (start dep clock) L w) (hc : Label.crash x ∉ L)
    (hend : ∀ t ∈ handlersOn x L, w.threads t = none) :
    tally (handlersOn x L) offered L = tally (handlersOn x L) finalizedTaped L ∧
      ∀ t ∈ handlersOn x L, ∀ id patch, Acted L t (.finalize id patch) (.ok ()) → patch.verdict.taped = true →
        ∃ row, Acted L t (.offer row) (.ok ()) ∧ row.requestId = id ∧ row.Tells patch := by
  have hexit : ∀ t ∈ handlersOn x L, ∃ r, TapeExit r (noted Op.ofTape (history t L)) := fun t ht => by
    obtain ⟨k, hk, hx⟩ := mem_threadsOf.mp ht
    obtain ⟨job, rfl⟩ := handles_iff.mp hx
    exact ⟨job.requestId, Run.tape_exit h hk hc (hend t ht)⟩
  constructor
  · refine tally_congr fun t ht => ?_
    obtain ⟨r, he⟩ := hexit t ht
    rw [countP_noted (fun _ => offered_ofTape), countP_noted (fun _ => finalizedTaped_ofTape)]
    exact he.balanced
  · intro t ht id patch ha hv
    obtain ⟨r, he⟩ := hexit t ht
    have hmem : (⟨.finalize id patch, .ok ()⟩ : Ev) ∈ noted Op.ofTape (history t L) :=
      List.mem_filter.mpr ⟨(mem_history (S := system dep)).mpr ha, rfl⟩
    obtain ⟨row, hoffer, hid, htells⟩ := he.finalized_offered hmem hv
    exact ⟨row, did_history.mp (List.mem_filter.mp hoffer).1, hid, htells⟩

theorem tape_complete_texts : ∃ (L : List (ProxyLabel (demo none))) (w : ProxyWorld (demo none)),
    Run (start (demo none) morning) L w ∧ tally (handlersOn 0 L) finalizedTaped L = 1 ∧
      tally (handlersOn 0 L) offered L = tally (handlersOn 0 L) finalizedTaped L := by
  obtain ⟨L, w, h, hP⟩ := (driver (demo none)).exists_run (C := Calm) (c := calm) id
    (start (demo none) morning) twoTexts
    (fun L w => idle w && tally (handlersOn 0 L) finalizedTaped L = 1) (by decide +kernel)
  simp only [Bool.and_eq_true, decide_eq_true_eq] at hP
  exact ⟨L, w, h.run, hP.2, (tape_complete h.run (calm_crash h 0) fun t _ => threads_of_idle h.run hP.1 t).1⟩

end Truthful

end ShadowProxy

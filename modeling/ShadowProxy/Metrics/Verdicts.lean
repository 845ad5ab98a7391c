import ShadowProxy.Metrics.Requests

/-! The verdict counters against the verdicts the handlers have recorded. -/

namespace ShadowProxy

open Effects Prog CandidateHandler JsonActionEvaluator

def countedVerdict (v : Verdict) : Ev → Bool
  | ⟨.count (.verdictsTotal _ v'), .ok ()⟩ => v' = v
  | _ => false

def finalizedWith (v : Verdict) : Ev → Bool
  | ⟨.finalize _ patch, .ok ()⟩ => patch.verdict = v
  | _ => false

def tallied : Verdict → Option Counter
  | .candidateError => some .shadowErrors
  | v => verdictCounter v

def Kind.handles (x : ℕ) : Kind → Bool
  | ⟨y, .handle _⟩ => y = x
  | _ => false

abbrev handlersOn {dep : Deployment} (x : ℕ) (L : List (ProxyLabel dep)) : Finset ℕ :=
  threadsOf (S := system dep) (Kind.handles x) L

structure VerdictsAccounted {dep : Deployment} (x : ℕ) (L : List (ProxyLabel dep)) : Prop where
  business : ∀ v key, tallied v = some key →
    tally (threadsOn x L) (counted (.business key)) L = tally (handlersOn x L) (finalizedWith v) L
  prometheus : ∀ v key, tallied v = some key →
    tally (threadsOn x L) (countedVerdict v) L = tally (handlersOn x L) (finalizedWith v) L

def Op.ofVerdicts : Op → Bool
  | .finalize _ _ => true
  | .count (.business .verdictMatch) | .count (.business .verdictMismatch) | .count
      (.business .verdictInvalidJson) => true
  | .count (.business .shadowErrors) | .count (.verdictsTotal _ _) => true
  | _ => false

inductive HandlerExit : List Ev → Prop
  | silent : HandlerExit []
  | unshadowed {id patch r} : patch.verdict = .primaryError → HandlerExit [⟨.finalize id patch, r⟩]
  | unwritten {id patch e} : Comparison patch.verdict → HandlerExit [⟨.finalize id patch, .error e⟩]
  | written {id patch route key} : verdictCounter patch.verdict = some key → HandlerExit
      [⟨.finalize id patch, .ok ()⟩, ⟨.count (.verdictsTotal route patch.verdict), .ok ()⟩,
        ⟨.count (.business key), .ok ()⟩]
  | failed {id patch route r} : patch.verdict = .candidateError → HandlerExit
      [⟨.count (.business .shadowErrors), .ok ()⟩, ⟨.count (.verdictsTotal route .candidateError), .ok ()⟩,
        ⟨.finalize id patch, r⟩]

lemma HandlerExit.of_noted {h l : List Ev} (he : noted Op.ofVerdicts h = l) (hl : HandlerExit l) :
    HandlerExit (noted Op.ofVerdicts h) := he ▸ hl

abbrev Handled (h : List Ev) (p : Program Unit) : Prop :=
  Concluded (fun _ => false) h p fun h' _ => HandlerExit (noted Op.ofVerdicts h')

section Handled

variable {dep : Deployment} {h : List Ev}

lemma comparison_counter {v : Verdict} (hv : Comparison v) : ∃ key, verdictCounter v = some key := by
  rcases hv with rfl | rfl | rfl <;> exact ⟨_, rfl⟩

lemma ofVerdicts_of_counter {v : Verdict} {key : Counter} (hk : verdictCounter v = some key) :
    (Op.count (.business key)).ofVerdicts = true := by
  cases v <;> cases hk <;> rfl

lemma unseen_perform {o : Op} (ho : o.ofVerdicts = false) :
    @Performs proxy _ (fun o => Op.ofVerdicts o = false) (perform o) :=
  performs_perform (I := proxy) ho

lemma handled_bind {α : Type} {p : Program α} {f : α → Program Unit}
    (hp : Performs (fun o => Op.ofVerdicts o = false) p) (hn : noted Op.ofVerdicts h = [])
    (hf : ∀ h' a, noted Op.ofVerdicts h' = [] → Handled h' (f a)) : Handled h (p >>= f) := by
  refine (concludes_bind _ _).mpr ((concluded_unnoted hp).mono fun h' r _ hh => ?_)
  rw [hn] at hh
  cases r with
  | ok a => exact hf h' a hh
  | error e => exact HandlerExit.of_noted hh .silent

lemma handled_finalizeError {requestId error label : Str} {start : ℚ} (hn : noted Op.ofVerdicts h = []) :
    Handled h (finalizeError requestId error start label) := by
  have hend : ∀ latencyMs h', noted Op.ofVerdicts h' = [⟨.count (.business .shadowErrors), .ok ()⟩] →
      Handled h' (do
      perform (.count (.verdictsTotal routeName .candidateError))
      let now ← perform .now
      perform (.finalize requestId (errorPatch error label latencyMs now))) := fun latencyMs h' hh => by
    refine (concludes_bind _ _).mpr (concludes_sure rfl fun _ =>
      (concludes_bind _ _).mpr (concludes_sure rfl fun now => ?_))
    refine concludes_perform fun r _ => ?_
    have he : noted Op.ofVerdicts (h' ++ [⟨.count (.verdictsTotal routeName .candidateError), .ok ()⟩] ++
        [⟨.now, .ok now⟩] ++
        [⟨.finalize requestId (errorPatch error label latencyMs now), r⟩]) =
          [⟨.count (.business .shadowErrors), .ok ()⟩,
          ⟨.count (.verdictsTotal routeName .candidateError), .ok ()⟩,
          ⟨.finalize requestId (errorPatch error label latencyMs now), r⟩] := by simp [hh, Op.ofVerdicts]
    exact HandlerExit.of_noted he (.failed rfl)
  have htail : ∀ latencyMs h', noted Op.ofVerdicts h' = [⟨.count (.business .shadowErrors), .ok ()⟩] →
      Handled h' (do
      if label = ("timeout" : Str) then perform (.count (.business .shadowTimeouts))
      perform (.count (.verdictsTotal routeName .candidateError))
      let now ← perform .now
      perform (.finalize requestId (errorPatch error label latencyMs now))) := fun latencyMs h' hh => by
    split
    · refine (concludes_bind _ _).mpr (concludes_sure rfl fun _ => hend latencyMs _ ?_)
      simp [hh, Op.ofVerdicts]
    · exact hend latencyMs h' hh
  refine handled_bind (.bind (unseen_perform rfl) fun _ => trivial) hn fun h₁ latencyMs hh => ?_
  refine (concludes_bind _ _).mpr (concludes_sure rfl fun _ => htail latencyMs _ ?_)
  simp [hh, Op.ofVerdicts]

lemma handled_recordVerdict {requestId id : Str} {record : ComparisonRow} {body : Json} {text : Str}
    {resp : ChatResponse} {result : EvaluationResult} {latencyMs : ℤ} {patch : FinalizePatch} {key : Counter}
    (hkey : verdictCounter result.verdict = some key) (hp : patch.verdict = result.verdict)
    (hn : noted Op.ofVerdicts h = [⟨.finalize id patch, .ok ()⟩]) :
    Handled h (recordVerdict dep requestId record body text resp result latencyMs) := by
  refine (concludes_bind _ _).mpr (concludes_sure rfl fun _ => ?_)
  have htape := @performs_tape dep (fun o => Op.ofVerdicts o = false) rfl (fun _ => rfl) requestId record body
    text resp result latencyMs
  simp only [hkey]
  refine (concludes_bind _ _).mpr (concludes_sure rfl fun _ => (concluded_unnoted htape).mono fun h' r _ hh => ?_)
  rw [hh]
  have he : noted Op.ofVerdicts (h ++ [⟨.count (.verdictsTotal routeName result.verdict), .ok ()⟩] ++
      [⟨.count (.business key), .ok ()⟩]) = [⟨.finalize id patch, .ok ()⟩,
        ⟨.count (.verdictsTotal routeName patch.verdict), .ok ()⟩, ⟨.count (.business key), .ok ()⟩] := by
    simp [hn, ofVerdicts_of_counter hkey, hp,
      show (Op.count (.verdictsTotal routeName result.verdict)).ofVerdicts = true from rfl]
  exact HandlerExit.of_noted he (.written (hp ▸ hkey))

lemma handled_evaluateReply {requestId : Str} {record : ComparisonRow} {body : Json} {start : ℚ}
    {resp : ChatResponse} (hn : noted Op.ofVerdicts h = []) :
    Handled h (evaluateReply dep requestId record body start resp) := by
  refine handled_bind (.bind (unseen_perform rfl) fun _ => trivial) hn fun h₁ latencyMs hn => ?_
  refine handled_bind (performs_orRaise _) hn fun h₂ text hn => ?_
  refine (concludes_bind _ _).mpr ((concludes_orRaise _).mpr ?_)
  cases hr : JsonActionEvaluator.evaluate dep.py dep.config.evaluator text resp.content with
  | error e => exact HandlerExit.of_noted hn .silent
  | ok result =>
    obtain ⟨key, hkey⟩ := comparison_counter (evaluate_verdict hr)
    refine handled_bind (performs_mergeCandidateIntoRaw (fun _ => rfl) (fun _ _ => rfl) _ _) hn fun h₃ _ hn => ?_
    refine (concludes_bind _ _).mpr (concludes_sure rfl fun now =>
      (concludes_bind _ _).mpr (concludes_perform fun res _ => ?_))
    have hw : noted Op.ofVerdicts (h₃ ++ [⟨.now, .ok now⟩] ++
        [⟨.finalize requestId (okPatch result latencyMs now), res⟩]) =
        [⟨.finalize requestId (okPatch result latencyMs now), res⟩] := by simp [hn, Op.ofVerdicts]
    cases res with
    | ok u => exact handled_recordVerdict hkey rfl hw
    | error e => exact HandlerExit.of_noted hw (.unwritten (evaluate_verdict hr))

lemma handled_shadow {requestId : Str} {record : ComparisonRow} (hn : noted Op.ofVerdicts h = []) :
    Handled h (shadow dep requestId record) := by
  refine handled_bind (performs_loadRequestBody (fun _ => rfl) _) hn fun h₁ body hn => ?_
  refine handled_bind (performs_orRaise _) hn fun h₂ req hn => ?_
  refine handled_bind (unseen_perform rfl) hn fun h₃ start hn => ?_
  refine handled_bind (unseen_perform rfl).attempt hn fun h₄ res hn => ?_
  cases res with
  | ok resp => exact handled_evaluateReply hn
  | error e =>
    cases e
    case llmTimeout | llmCall => exact handled_finalizeError hn
    all_goals exact HandlerExit.of_noted hn .silent

lemma handled_call (dep : Deployment) (job : CandidateJob) : Handled [] (taskProgram dep (.handle job)) := by
  refine handled_bind (unseen_perform rfl) rfl fun h₁ record hn => ?_
  cases record with
  | none => exact HandlerExit.of_noted hn .silent
  | some record =>
    dsimp only
    split
    · refine (concludes_bind _ _).mpr (concludes_sure rfl fun now => concludes_perform fun res _ => ?_)
      have hw : noted Op.ofVerdicts (h₁ ++ [⟨.now, .ok now⟩] ++
          [⟨.finalize job.requestId (droppedPatch now), res⟩]) =
          [⟨.finalize job.requestId (droppedPatch now), res⟩] := by simp [hn, Op.ofVerdicts]
      exact HandlerExit.of_noted hw (.unshadowed rfl)
    · exact handled_bind (unseen_perform rfl) hn fun h₂ _ hn => handled_shadow hn

end Handled

def ErrorsWritten (h : List Ev) : Prop :=
  ∀ id patch r, (⟨.finalize id patch, r⟩ : Ev) ∈ h → patch.verdict = .candidateError → r = .ok ()

structure Settled (h : List Ev) : Prop where
  agree : ∀ v key, tallied v = some key → h.countP (countedVerdict v) = h.countP (counted (.business key))
  recorded : ∀ v key, verdictCounter v = some key → h.countP (counted (.business key)) = h.countP (finalizedWith v)
  atMost : h.countP (finalizedWith .candidateError) ≤ h.countP (counted (.business .shadowErrors))
  exact_iff : h.countP (finalizedWith .candidateError) = h.countP (counted (.business .shadowErrors)) ↔
    ErrorsWritten h

section Settled

variable {h : List Ev}

lemma tallied_of_counter {v : Verdict} {key : Counter} (hk : verdictCounter v = some key) :
    tallied v = some key := by
  cases v <;> cases hk <;> rfl

lemma settled_of_unasked (hu : ∀ e ∈ h, ∀ m, e.op ≠ .count m)
    (hf : ∀ e ∈ h, ∀ id patch, e.op = .finalize id patch → patch.verdict = .primaryError) : Settled h := by
  have hcounted : ∀ m, h.countP (counted m) = 0 := fun m => List.countP_eq_zero.mpr fun e he => by
    unfold counted
    split
    · exact absurd rfl (hu _ he _)
    · simp
  have hverdict : ∀ v, h.countP (countedVerdict v) = 0 := fun v => List.countP_eq_zero.mpr fun e he => by
    unfold countedVerdict
    split
    · exact absurd rfl (hu _ he _)
    · simp
  have hfinal : ∀ v, v ≠ .primaryError → h.countP (finalizedWith v) = 0 :=
    fun v hv => List.countP_eq_zero.mpr fun e he => by
    unfold finalizedWith
    split
    · simpa [hf _ he _ _ rfl] using Ne.symm hv
    · simp
  constructor
  · intro v key _
    rw [hverdict, hcounted]
  · intro v key hk
    rw [hcounted, hfinal v (by rintro rfl; cases hk)]
  · rw [hcounted, hfinal _ (by simp)]
  · rw [hcounted, hfinal _ (by simp)]
    refine ⟨fun _ id patch r hm hv => ?_, fun _ => rfl⟩
    rw [hf _ hm _ _ rfl] at hv
    cases hv

lemma tallied_injective {u v : Verdict} {key key' : Counter} (hu : tallied u = some key)
    (hv : tallied v = some key') : u = v ↔ key = key' := by
  cases u <;> cases hu <;> cases v <;> cases hv <;> decide

lemma settled_unwritten {id : Str} {patch : FinalizePatch} {e : Exn} (hv : Comparison patch.verdict) :
    Settled [⟨.finalize id patch, .error e⟩] where
  agree _ _ _ := rfl
  recorded _ _ _ := rfl
  atMost := le_refl 0
  exact_iff := by
    refine ⟨fun _ id' patch' r hm hp => ?_, fun _ => rfl⟩
    cases List.mem_singleton.mp hm
    rcases hv with hv | hv | hv <;> cases hv.symm.trans hp

lemma settled_written {id route : Str} {patch : FinalizePatch} {key : Counter}
    (hk : verdictCounter patch.verdict = some key) :
    Settled [⟨.finalize id patch, .ok ()⟩, ⟨.count (.verdictsTotal route patch.verdict), .ok ()⟩,
      ⟨.count (.business key), .ok ()⟩] := by
  have hiff : ∀ v key', tallied v = some key' → (patch.verdict = v ↔ key = key') := fun v key' hv =>
    tallied_injective (tallied_of_counter hk) hv
  have herror : patch.verdict ≠ .candidateError := fun he => by simp [he, verdictCounter] at hk
  constructor
  · intro v key' hv
    simp [List.countP_cons, countedVerdict, counted, hiff v key' hv]
  · intro v key' hv
    simp [List.countP_cons, finalizedWith, counted, hiff v key' (tallied_of_counter hv)]
  · simp [finalizedWith, herror]
  · have hkey : key ≠ .shadowErrors := fun he => herror ((hiff .candidateError .shadowErrors rfl).mpr he)
    refine ⟨fun _ id' patch' r hm hp => ?_, fun _ => by simp [finalizedWith, counted, herror, hkey]⟩
    rcases List.mem_cons.mp hm with he | hm
    · cases he
      exact absurd hp herror
    · simp [Event.mk.injEq] at hm

lemma settled_failed {id route : Str} {patch : FinalizePatch} {r : Except Exn Unit}
    (hv : patch.verdict = .candidateError) :
    Settled [⟨.count (.business .shadowErrors), .ok ()⟩, ⟨.count (.verdictsTotal route .candidateError), .ok ()⟩,
      ⟨.finalize id patch, r⟩] := by
  constructor
  · intro v key' hk
    simp [List.countP_cons, countedVerdict, counted, tallied_injective (u := .candidateError) rfl hk]
  · intro v key' hk
    have hne : patch.verdict ≠ v := by
      rintro rfl
      simp [hv, verdictCounter] at hk
    have hkey : Counter.shadowErrors ≠ key' :=
      fun he => hne (hv.trans ((tallied_injective rfl (tallied_of_counter hk)).mpr he))
    cases r <;> simp [finalizedWith, counted, hne, hkey]
  · cases r <;> simp [finalizedWith, counted, hv]
  · cases r with
    | ok u =>
      refine ⟨fun _ id' patch' r hm _ => ?_, fun _ => by simp [finalizedWith, counted, hv]⟩
      cases r with
      | ok u => rfl
      | error e => simp [Event.mk.injEq] at hm
    | error e =>
      refine ⟨fun he => ?_, fun hw => nomatch hw id patch (.error e) (by simp) hv⟩
      simp [finalizedWith, counted] at he

lemma HandlerExit.settled (he : HandlerExit h) : Settled h := by
  cases he with
  | silent => exact settled_of_unasked (by simp) (by simp)
  | unshadowed hv => exact settled_of_unasked (by simp) (by simp [hv])
  | unwritten hv => exact settled_unwritten hv
  | written hk => exact settled_written hk
  | failed hv => exact settled_failed hv

end Settled

section Transfer

variable {h : List Ev}

lemma countedVerdict_op {v : Verdict} {e : Ev} (he : countedVerdict v e = true) :
    e.op.ofVerdicts = true ∧ e.op.ofHandler = true := by
  unfold countedVerdict at he
  split at he
  · exact ⟨rfl, rfl⟩
  · cases he

lemma tallied_op {v : Verdict} {key : Counter} (hk : tallied v = some key) {e : Ev}
    (he : counted (.business key) e = true) : e.op.ofVerdicts = true ∧ e.op.ofHandler = true := by
  rw [counted_op he]
  cases v <;> cases hk <;> exact ⟨rfl, rfl⟩

lemma finalizedWith_ofVerdicts {v : Verdict} {e : Ev} (he : finalizedWith v e = true) :
    e.op.ofVerdicts = true := by
  unfold finalizedWith at he
  split at he
  · rfl
  · cases he

lemma Settled.of_noted (hs : Settled (noted Op.ofVerdicts h)) : Settled h := by
  have hcounted : ∀ {v key}, tallied v = some key →
      h.countP (counted (.business key)) = (noted Op.ofVerdicts h).countP (counted (.business key)) := fun hk =>
    countP_noted (fun _ he => (tallied_op hk he).1) h
  have hfinal : ∀ v, h.countP (finalizedWith v) = (noted Op.ofVerdicts h).countP (finalizedWith v) := fun v =>
    countP_noted (fun _ => finalizedWith_ofVerdicts) h
  constructor
  · intro v key hk
    rw [hcounted hk, countP_noted (fun _ he => (countedVerdict_op he).1), hs.agree v key hk]
  · intro v key hk
    rw [hcounted (tallied_of_counter hk), hfinal, hs.recorded v key hk]
  · rw [hcounted (v := .candidateError) rfl, hfinal]
    exact hs.atMost
  · rw [hcounted (v := .candidateError) rfl, hfinal, hs.exact_iff]
    simp [ErrorsWritten, noted, Op.ofVerdicts]

end Transfer

def AskedFirst (h : List Ev) : Op → Prop
  | .count _ => ∃ e ∈ h, asksCandidate e = true
  | .finalize _ patch => patch.verdict = .primaryError ∨ ∃ e ∈ h, asksCandidate e = true
  | _ => True

lemma obeys_asked {α : Type} {h : List Ev} {e : Ev} {p : Program α} (ha : asksCandidate e = true) :
    Obeys AskedFirst (h ++ [e]) p (fun _ _ => True) fun _ _ => True := by
  apply Obeys.of_forall
  intro h' o hh
  have hm : ∃ e ∈ h', asksCandidate e = true := ⟨e, hh.subset (by simp), ha⟩
  cases o
  case count => exact hm
  case finalize => exact .inr hm
  all_goals trivial

lemma issues_askedFirst (dep : Deployment) (job : CandidateJob) :
    Issues AskedFirst (taskProgram dep (.handle job)) := by
  have hJ : ∀ h o, Op.prepares o = true → AskedFirst h o := fun h o ho => by cases o <;> trivial
  exact issues_handle hJ trivial (fun _ _ => .inl rfl) (fun _ _ _ _ => trivial)
    (fun _ _ _ _ _ _ _ => obeys_asked rfl)
    fun _ _ _ _ _ _ _ => obeys_asked rfl

section Runs

variable {dep : Deployment} {clock : DateTime} {L : List (ProxyLabel dep)} {w : ProxyWorld dep} {x t : ℕ}

/-- No handler of the replica is between its candidate's reply and its return. -/
def BetweenReplies (x : ℕ) (L : List (ProxyLabel dep)) (w : ProxyWorld dep) : Prop :=
  ∀ t job p, w.threads t = some ⟨⟨x, .handle job⟩, p⟩ →
    ∀ req timeoutS r, ¬ Acted L t (.chatCompletions .candidate req timeoutS) r

lemma Run.asked_first (h : Run (start dep clock) L w) {job : CandidateJob}
    (hk : Label.spawn (S := system dep) t ⟨x, .handle job⟩ ∈ L)
    (hn : ∀ e ∈ history t L, asksCandidate e = false) : ∀ e ∈ history t L,
      (∀ m, e.op ≠ .count m) ∧ ∀ id patch, e.op = .finalize id patch → patch.verdict = .primaryError := by
  rintro ⟨o, r⟩ he
  obtain ⟨L₁, L₂, rfl⟩ := List.append_of_mem ((mem_history (S := system dep)).mp he)
  have hask : ¬ ∃ e ∈ history t L₁, asksCandidate e = true := by
    rintro ⟨e, hm, hask⟩
    have hpre := history_prefix (S := system dep) t (List.prefix_append L₁ (Label.act t ⟨o, r⟩ :: L₂))
    have hfalse := hn e (hpre.subset hm)
    rw [hask] at hfalse
    cases hfalse
  have hspec := Run.issued_at h (fun _ => rfl) hk (issues_askedFirst dep job)
  constructor
  · rintro m rfl
    exact hask hspec
  · rintro id patch rfl
    exact hspec.resolve_right hask

lemma Run.settled (h : Run (start dep clock) L w) (hc : Label.crash x ∉ L) (hb : BetweenReplies x L w)
    (ht : t ∈ handlersOn x L) : Settled (history t L) := by
  obtain ⟨⟨y, task⟩, hk, hP⟩ := mem_threadsOf.mp ht
  cases task with
  | handle job =>
    obtain rfl := of_decide_eq_true hP
    rcases Run.live_or_ended h (fun _ => rfl) hk hc with ⟨p, hp⟩ | ⟨-, q, hq, hd⟩
    · have hn : ∀ e ∈ history t L, asksCandidate e = false := by
        intro e he
        have hact := (mem_history (S := system dep)).mp he
        unfold asksCandidate
        split
        · exact absurd hact (hb t job p hp _ _ _)
        · rfl
      have hfirst := Run.asked_first h hk hn
      exact settled_of_unasked (fun e he => (hfirst e he).1) fun e he => (hfirst e he).2
    · have hs : ∀ e ∈ history t L, Sound (fun _ => false) e := Run.sound h fun _ ho => nomatch ho
      exact (hq.concluded hd hs (handled_call dep job)).choose_spec.settled.of_noted
  | _ => cases hP

lemma Run.tally_handlers (h : Run (start dep clock) L w) {P : Ev → Bool}
    (hP : ∀ e, P e = true → e.op.ofHandler = true) : tally (threadsOn x L) P L = tally (handlersOn x L) P L := by
  refine tally_of_subset (fun t ht => ?_) fun t ht hn => List.countP_eq_zero.mpr fun e he hp => ?_
  · obtain ⟨⟨y, task⟩, hk, hx⟩ := mem_threadsOf.mp ht
    cases task with
    | handle job => exact mem_threadsOn.mpr ⟨_, hk, of_decide_eq_true hx⟩
    | _ => cases hx
  · obtain ⟨⟨y, task⟩, hk, rfl⟩ := mem_threadsOn.mp ht
    have hnone : Performs (I := proxy) (fun o => o.ofHandler = false) (taskProgram dep task) := by
      cases task with
      | chat c => exact performs_chat dep c
      | handle job => exact absurd (mem_threadsOf.mpr ⟨_, hk, by simp [Kind.handles]⟩) hn
      | sweep => exact (performs_sweep dep).mono fun _ ho => ho.2
      | startup => exact (performs_startup dep).mono fun _ ho => ho.2
    have hfalse := Run.performs_only h (fun _ => rfl) hk hnone e he
    rw [hP e hp] at hfalse
    cases hfalse

end Runs

theorem verdicts_accounted_iff {dep : Deployment} {clock : DateTime} {L : List (ProxyLabel dep)}
    {w : ProxyWorld dep} {x : ℕ} (h : Run (start dep clock) L w) (hcrash : Label.crash x ∉ L)
    (hb : BetweenReplies x L w) :
    VerdictsAccounted x L ↔ ∀ t ∈ handlersOn x L, ∀ id patch r, Acted L t (.finalize id patch) r →
      patch.verdict = .candidateError → r = .ok () := by
  have hsettled : ∀ t ∈ handlersOn x L, Settled (history t L) := fun t ht => Run.settled h hcrash hb ht
  have hwritten : ∀ t, ErrorsWritten (history t L) ↔ ∀ id patch r, Acted L t (.finalize id patch) r →
      patch.verdict = .candidateError → r = .ok () := fun t => by
    refine forall₂_congr fun id patch => forall_congr' fun r => imp_congr_left ?_
    exact mem_history (S := system dep)
  have hbusiness : ∀ {v key}, tallied v = some key → tally (threadsOn x L) (counted (.business key)) L =
      tally (handlersOn x L) (counted (.business key)) L := fun hk =>
    Run.tally_handlers h fun _ he => (tallied_op hk he).2
  have hverdict : ∀ {v key}, tallied v = some key → tally (threadsOn x L) (countedVerdict v) L =
      tally (handlersOn x L) (counted (.business key)) L := fun {v key} hk => by
    rw [Run.tally_handlers h fun _ he => (countedVerdict_op he).2]
    exact tally_congr fun t ht => (hsettled t ht).agree v key hk
  have herrors : tally (handlersOn x L) (finalizedWith .candidateError) L =
      tally (handlersOn x L) (counted (.business .shadowErrors)) L ↔
        ∀ t ∈ handlersOn x L, ErrorsWritten (history t L) :=
    (tally_eq_iff fun t ht => (hsettled t ht).atMost).trans (forall₂_congr fun t ht => (hsettled t ht).exact_iff)
  have hrecorded : ∀ {v key}, verdictCounter v = some key →
      tally (handlersOn x L) (counted (.business key)) L = tally (handlersOn x L) (finalizedWith v) L :=
        fun {v key} hk =>
    tally_congr fun t ht => (hsettled t ht).recorded v key hk
  simp only [← hwritten, ← herrors]
  constructor
  · intro hacc
    rw [← hbusiness (v := .candidateError) rfl]
    exact (hacc.business .candidateError .shadowErrors rfl).symm
  · intro he
    have hall : ∀ {v key}, tallied v = some key →
        tally (handlersOn x L) (counted (.business key)) L = tally (handlersOn x L) (finalizedWith v) L :=
          fun {v key} hk => by
      cases v
      case candidateError =>
        cases hk
        exact he.symm
      all_goals exact hrecorded hk
    exact ⟨fun v key hk => (hbusiness hk).trans (hall hk), fun v key hk => (hverdict hk).trans (hall hk)⟩

section Down

variable {dep : Deployment}

def Script.answerUnwritten (a : Script dep) (down : Bool) (k : Kind) (s : State) : (o : Op) → Except Exn o.Ret
  | .finalize _ _ => if down then .error .database else .ok ()
  | o => a.answer k s o

lemma legal_answerUnwritten (a : Script dep × Bool) (k : Kind) (s : State) (o : Op) :
    legal dep k s o (a.1.answerUnwritten a.2 k s o) := by
  cases o
  case finalize =>
    dsimp only [Script.answerUnwritten]
    split <;> trivial
  all_goals exact a.1.legal_answer k s _

abbrev unreliable (dep : Deployment) : Driver (system dep) where
  Script := Script dep × Bool
  answer := fun a => a.1.answerUnwritten a.2
  legal := legal_answerUnwritten
  canSpawn := (driver dep).canSpawn
  canEnv := (driver dep).canEnv

def whileDown (down : Bool) : Command (driver dep) → Command (unreliable dep)
  | .spawn t k => .spawn t k
  | .act t a => .act t (a, down)
  | .exit t => .exit t
  | .env e => .env e
  | .crash x => .crash x

end Down

def candidateTimesOut : List (DemoCommand none) :=
  oneCall (replies buy) 11 ++ begin 2 (.handle ⟨"a", 1⟩) ++ acts 10 2 timesOut ++ [.exit 2]

theorem verdicts_accounted_iff_timeout : ∃ (L : List (ProxyLabel (demo none))) (w : ProxyWorld (demo none)),
    Run (start (demo none) morning) L w ∧ tally (handlersOn 0 L) (finalizedWith .candidateError) L = 1 ∧
      (VerdictsAccounted 0 L ↔ ∀ t ∈ handlersOn 0 L, ∀ id patch r, Acted L t (.finalize id patch) r →
        patch.verdict = .candidateError → r = .ok ()) := by
  obtain ⟨L, w, h, hP⟩ := (unreliable (demo none)).exists_run (C := Calm) (c := calm) id
    (start (demo none) morning)
    (candidateTimesOut.map (whileDown false))
    (fun L w => idle w && tally (handlersOn 0 L) (finalizedWith .candidateError) L = 1) (by decide +kernel)
  simp only [Bool.and_eq_true, decide_eq_true_eq] at hP
  refine ⟨L, w, h.run, hP.2, verdicts_accounted_iff h.run (calm_crash h 0) fun t job p hp => ?_⟩
  exact nomatch (threads_of_idle h.run hP.1 t).symm.trans hp

theorem verdicts_not_accounted_unwritten : ∃ (L : List (ProxyLabel (demo none))) (w : ProxyWorld (demo none)),
    Run (start (demo none) morning) L w ∧ Label.crash 0 ∉ L ∧ (∀ t, w.threads t = none) ∧
    ¬ VerdictsAccounted 0 L := by
  obtain ⟨L, w, h, hP⟩ := (unreliable (demo none)).exists_run (C := Calm) (c := calm) id
    (start (demo none) morning)
    (candidateTimesOut.map (whileDown true))
    (fun L w => idle w && tally (threadsOn 0 L) (counted (.business .shadowErrors)) L ≠
      tally (handlersOn 0 L) (finalizedWith .candidateError) L) (by decide +kernel)
  simp only [Bool.and_eq_true, decide_eq_true_eq] at hP
  exact ⟨L, w, h.run, calm_crash h 0, threads_of_idle h.run hP.1, fun hacc =>
    hP.2 (hacc.business .candidateError .shadowErrors rfl)⟩

end ShadowProxy

import ShadowProxy.Lifecycle.Recorded
import ShadowProxy.Scenario

/-! How often a request is shadowed. -/

namespace ShadowProxy

open Effects Prog CandidateHandler

def waiting (s : State) (P : CandidateJob → Bool) (x : ℕ) : ℕ := (s.procs x).queue.countP P

section Jobs

variable {dep : Deployment} {clock : DateTime} {L : List (ProxyLabel dep)} {w w' : ProxyWorld dep}
  {l : ProxyLabel dep} {R : Finset ℕ} {P : CandidateJob → Bool}

def isTake (R : Finset ℕ) (P : CandidateJob → Bool) : ProxyLabel dep → Bool
  | .spawn _ ⟨x, .handle job⟩ => x ∈ R && P job
  | _ => false

def isAccept (P : CandidateJob → Bool) : ProxyLabel dep → Bool
  | .act t ⟨.enqueue r, .ok .enqueued⟩ => P ⟨r, t⟩
  | _ => false

lemma sum_step {f g : ℕ → ℕ} {x a b : ℕ} (hother : ∀ y, y ≠ x → g y = f y) (hx : g x + a ≤ f x + b)
    (R : Finset ℕ) : ∑ y ∈ R, g y + (if x ∈ R then a else 0) ≤ ∑ y ∈ R, f y + b := by
  split
  · rename_i hm
    have hrest : ∑ y ∈ R.erase x, g y = ∑ y ∈ R.erase x, f y :=
      Finset.sum_congr rfl fun y hy => hother y (Finset.ne_of_mem_erase hy)
    rw [← Finset.add_sum_erase R g hm, ← Finset.add_sum_erase R f hm, hrest]
    omega
  · rename_i hm
    have hall : ∑ y ∈ R, g y = ∑ y ∈ R, f y := Finset.sum_congr rfl fun y hy => hother y fun he => hm (he ▸ hy)
    omega

lemma waiting_take {t x : ℕ} {job : CandidateJob} (hs : Step w (.spawn t ⟨x, .handle job⟩) w') :
    ∑ y ∈ R, waiting w'.state P y + (if isTake R P (.spawn t ⟨x, .handle job⟩ : ProxyLabel dep) then 1 else 0) ≤
      ∑ y ∈ R, waiting w.state P y := by
  have htaken := handle_takes hs
  have hother : ∀ y, y ≠ x → waiting w'.state P y = waiting w.state P y := fun y hy => by
    cases hs with
    | spawn => simp only [waiting, World.spawn, onSpawn, State.setProc, Function.update_of_ne hy]
  have hx : waiting w'.state P x + (if P job then 1 else 0) ≤ waiting w.state P x + 0 := by
    simp [waiting, htaken, List.countP_cons]
  have hsum := sum_step hother hx R
  by_cases hm : x ∈ R
  · simpa [isTake, hm] using hsum
  · simpa [isTake, hm] using hsum

lemma waiting_step (hs : Step w l w') :
    ∑ y ∈ R, waiting w'.state P y + (if isTake R P l then 1 else 0) ≤
      ∑ y ∈ R, waiting w.state P y + (if isAccept P l then 1 else 0) := by
  by_cases ht : ∃ t x job, l = .spawn t ⟨x, .handle job⟩
  · obtain ⟨t, x, job, rfl⟩ := ht
    exact waiting_take hs
  · have hno : isTake R P l = false := by
      cases l with
      | spawn t k =>
        obtain ⟨x, task⟩ := k
        cases task <;> first | rfl | exact absurd ⟨_, _, _, rfl⟩ ht
      | _ => rfl
    rw [hno]
    cases queuesStep hs with
    | shrink l x hother hself =>
      have hx : waiting w'.state P x + 0 ≤ waiting w.state P x + 0 := by simpa [waiting] using hself.countP_le
      have hsum := sum_step (fun y hy => by rw [waiting, hother y hy, waiting]) hx R
      simp at hsum ⊢
      omega
    | @push x t id q hother hq hself =>
      have hx : waiting w'.state P x + 0 ≤ waiting w.state P x + (if P ⟨id, t⟩ then 1 else 0) := by
        have hle := hq.countP_le (p := P)
        simp only [waiting, hself, List.countP_append, List.countP_singleton]
        omega
      have hsum := sum_step (fun y hy => by rw [waiting, hother y hy, waiting]) hx R
      simp [isAccept] at hsum ⊢
      exact hsum

lemma Run.takes_le (h : Run (start dep clock) L w) :
    L.countP (isTake R P) + ∑ y ∈ R, waiting w.state P y ≤ L.countP (isAccept P) := by
  induction h with
  | nil => simp [waiting, start, World.idle, State.initial]
  | snoc _ _ hs ih =>
    have hstep := waiting_step (R := R) (P := P) hs
    rw [List.countP_append, List.countP_append, List.countP_singleton, List.countP_singleton]
    omega

end Jobs

section Once

variable {dep : Deployment}

def isAsk : Op → Bool
  | .chatCompletions .candidate _ _ => true
  | _ => false

def isQueuing : Op → Bool
  | .enqueue _ => true
  | _ => false

def Once (P : Op → Bool) (h : List Ev) (o : Op) : Prop := P o = true → ∀ e ∈ h, P e.op = false

lemma once_other {P : Op → Bool} {h : List Ev} {o : Op} (ho : P o = false) : Once P h o := fun hp => by
  rw [ho] at hp
  cases hp

lemma issues_asks_once (job : CandidateJob) : Issues (Once isAsk) (taskProgram dep (.handle job)) := by
  have hother : ∀ (h : List Ev) (o : Op), isAsk o = false → Once isAsk h o := fun _ _ => once_other
  have hcompletes : Completes fun o => isAsk o = false :=
    ⟨rfl, rfl, fun _ _ => rfl, fun _ => rfl, fun _ _ => rfl, fun _ => rfl⟩
  refine issues_handle (fun h o ho => hother h o ?_) (hother _ _ rfl) (fun _ _ => hother _ _ rfl) ?_ ?_ ?_
  · cases o <;> first | rfl | cases ho
  · intro h req timeoutS hh _ e he
    rcases hh e he with hop | hop
    · rw [hop]
      rfl
    · cases hop' : e.op <;> rw [hop'] at hop <;> first | rfl | cases hop
  · intro h req timeoutS record body start resp
    exact (performs_evaluateReply hcompletes (fun _ _ => rfl) record body start resp).obeys hother
  · intro h req timeoutS e error start label
    exact (performs_finalizeError hcompletes (fun _ _ => rfl) error label start).obeys hother

section Queues

variable {h : List Ev}

lemma obeys_queues_bind {α β : Type} {p : Program α} {f : α → Program β}
    (hp : Performs (fun o => isQueuing o = false) p) (hn : ∀ e ∈ h, isQueuing e.op = false)
    (hf : ∀ h' a, (∀ e ∈ h', isQueuing e.op = false) →
      Obeys (Once isQueuing) h' (f a) (fun _ _ => True) fun _ _ => True) :
    Obeys (Once isQueuing) h (p >>= f) (fun _ _ => True) fun _ _ => True := by
  refine (obeys_bind _ _).mpr ((obeys_performs hp fun _ _ => once_other).mono
    (fun h' a _ ho => hf h' a ?_) fun _ _ _ _ => trivial)
  intro e he
  rcases ho.new e he with hold | hnew
  · exact hn e hold
  · exact hnew

lemma off_queue {o : Op} (ho : isQueuing o = false) :
    @Performs proxy _ (fun o => isQueuing o = false) (perform o) :=
  performs_perform (I := proxy) ho

lemma obeys_queues_shadowGate {requestId : Str} (hn : ∀ e ∈ h, isQueuing e.op = false) :
    Obeys (Once isQueuing) h (shadowGate requestId) (fun _ _ => True) fun _ _ => True := by
  refine obeys_queues_bind (off_queue rfl) hn fun h₁ gate hn₁ => ?_
  obtain ⟨rate, draw⟩ := gate
  have htail : ∀ h' (sampledIn enqueued : Bool), Obeys (Once isQueuing) h' (do
      perform (.count (.business .requestsTotal))
      perform (.count (.business .requestsSuccess))
      if enqueued then perform (.count (.business .shadowEnqueued))
      else if !sampledIn then perform (.count (.business .shadowSampledOut))
      return (sampledIn, enqueued, rate)) (fun _ _ => True) fun _ _ => True := fun h' sampledIn enqueued => by
    refine Performs.obeys (P := fun o => isQueuing o = false) ?_ fun _ _ => once_other
    refine .bind (off_queue rfl) fun _ => .bind (off_queue rfl) fun _ => ?_
    split
    · exact .bind (off_queue rfl) fun _ => trivial
    · split
      · exact .bind (off_queue rfl) fun _ => trivial
      · trivial
  dsimp only
  split
  · refine (obeys_bind _ _).mpr ((obeys_perform _).mpr ⟨fun _ => hn₁, fun dispatch => ?_, fun _ => trivial⟩)
    exact htail _ _ _
  · exact htail _ _ _

lemma issues_queues_once (c : ChatCall) : Issues (Once isQueuing) (taskProgram dep (.chat c)) := by
  refine obeys_bind_performs (P := fun o => isQueuing o = false) ?_ (fun _ _ => once_other) fun _ => trivial
  refine obeys_queues_bind (off_queue rfl) (fun e he => nomatch he) fun h₁ receivedAt hn₁ => ?_
  split
  · trivial
  · rename_i routeCfg _
    have hprimary : Performs (fun o => isQueuing o = false)
        (runPrimary (c.primaryReq routeCfg) routeCfg.primary.timeoutS) := by
      refine .bind (off_queue rfl) fun start => .bind (off_queue rfl).attempt fun res => ?_
      cases res with
      | ok resp => exact .bind (.bind (off_queue rfl) fun _ => trivial) fun _ => trivial
      | error e =>
        cases e
        case llmTimeout | llmCall => exact .bind (.bind (off_queue rfl) fun _ => trivial) fun _ => trivial
        all_goals trivial
    refine obeys_queues_bind hprimary hn₁ fun h₂ outcome hn₂ => ?_
    have hpersist := @performs_persistPending dep (fun o => isQueuing o = false)
      (c.persistArgs dep.requestHash receivedAt routeCfg) rfl (fun _ => rfl) (fun _ => rfl) outcome
    refine obeys_queues_bind hpersist hn₂ fun h₃ _ hn₃ => ?_
    rw [respond]
    split
    · exact (performs_failWith (fun _ _ => rfl) ..).obeys fun _ _ => once_other
    · split <;> exact (performs_failWith (fun _ _ => rfl) ..).obeys fun _ _ => once_other
    · refine (obeys_bind _ _).mpr ((obeys_queues_shadowGate hn₃).mono (fun h₄ gate _ _ => ?_) fun _ _ _ _ =>
        trivial)
      refine Performs.obeys (P := fun o => isQueuing o = false) ?_ fun _ _ => once_other
      exact .bind (performs_orRaise _) fun _ => .bind (off_queue rfl) fun _ => trivial

end Queues

end Once

section Asked

variable {dep : Deployment} {clock : DateTime} {L : List (ProxyLabel dep)} {w : ProxyWorld dep} {t : ℕ} {r : Str}

def Kind.handleOf (r : Str) : Kind → Bool
  | ⟨_, .handle job⟩ => job.requestId = r
  | _ => false

abbrev handlersOf (r : Str) (L : List (ProxyLabel dep)) : Finset ℕ :=
  threadsOf (S := system dep) (Kind.handleOf r) L

def Kind.chatOf (r : Str) : Kind → Bool
  | ⟨_, .chat c⟩ => c.requestId = r
  | _ => false

abbrev chatsOf (r : Str) (L : List (ProxyLabel dep)) : Finset ℕ := threadsOf (S := system dep) (Kind.chatOf r) L

def Kind.starts : Kind → Bool
  | ⟨_, .startup⟩ => true
  | _ => false

abbrev startupsIn (L : List (ProxyLabel dep)) : Finset ℕ := threadsOf (S := system dep) Kind.starts L

lemma asksCandidate_op {e : Ev} (he : asksCandidate e = true) : isAsk e.op = true := by
  unfold asksCandidate at he
  split at he
  · rfl
  · cases he

lemma handleOf_iff {k : Kind} : k.handleOf r = true ↔ ∃ job, k.task = .handle job ∧ job.requestId = r := by
  obtain ⟨x, task⟩ := k
  cases task <;> simp [Kind.handleOf]

lemma chatOf_iff {k : Kind} : k.chatOf r = true ↔ ∃ c, k.task = .chat c ∧ c.requestId = r := by
  obtain ⟨x, task⟩ := k
  cases task <;> simp [Kind.chatOf]

def accepts (r : Str) : Ev → Bool
  | ⟨.enqueue id, .ok .enqueued⟩ => id = r
  | _ => false

def CandidateJob.isFor (r : Str) (job : CandidateJob) : Bool := job.requestId = r

lemma accepts_iff {e : Ev} : accepts r e = true ↔ e = ⟨.enqueue r, .ok .enqueued⟩ := by
  unfold accepts
  split
  · rename_i id
    simp only [decide_eq_true_eq]
    constructor
    · rintro rfl
      rfl
    · intro he
      cases he
      rfl
  · rename_i hno
    constructor
    · intro he
      cases he
    · intro he
      exact (hno r he).elim

lemma asks_le_one (h : Run (start dep clock) L w) (ht : t ∈ handlersOf r L) :
    (history t L).countP asksCandidate ≤ 1 := by
  obtain ⟨⟨x, task⟩, hk, hx⟩ := mem_threadsOf.mp ht
  obtain ⟨job, rfl, -⟩ := handleOf_iff.mp hx
  refine Run.countP_le_one h (fun _ => rfl) hk (issues_asks_once job) fun h' e honce hp e' he' => ?_
  have hno := honce (asksCandidate_op hp) e' he'
  by_contra ha
  rw [asksCandidate_op (eq_true_of_ne_false ha)] at hno
  cases hno

lemma accepts_le_one (h : Run (start dep clock) L w) (ht : t ∈ chatsOf r L) :
    (history t L).countP (accepts r) ≤ 1 := by
  obtain ⟨⟨x, task⟩, hk, hx⟩ := mem_threadsOf.mp ht
  obtain ⟨c, rfl, -⟩ := chatOf_iff.mp hx
  refine Run.countP_le_one h (fun _ => rfl) hk (issues_queues_once c) fun h' e honce hp e' he' => ?_
  obtain rfl := accepts_iff.mp hp
  have hno := honce rfl e' he'
  by_contra ha
  rw [accepts_iff.mp (eq_true_of_ne_false ha)] at hno
  cases hno

lemma accepted_by (h : Run (start dep clock) L w) (ha : Acted L t (.enqueue r) (.ok .enqueued)) :
    t ∈ chatsOf r L ∨ t ∈ startupsIn L := by
  obtain ⟨task, L₁, ⟨x, hst⟩, -, hspec⟩ := Run.acted_issued h ha
  cases task with
  | chat c =>
    obtain ⟨rfl, -⟩ := hspec
    exact .inl (mem_threadsOf.mpr ⟨_, hst, by simp [Kind.chatOf]⟩)
  | startup => exact .inr (mem_threadsOf.mpr ⟨_, hst, rfl⟩)
  | _ => exact hspec.elim

lemma countP_or_le {α : Type} {p q : α → Bool} (l : List α) :
    l.countP (fun a => p a || q a) ≤ l.countP p + l.countP q := by
  induction l with
  | nil => exact Nat.zero_le _
  | cons a l ih =>
    simp only [List.countP_cons]
    cases p a <;> cases q a <;> simp <;> omega

lemma accepted_le (h : Run (start dep clock) L w) :
    L.countP (isAccept (CandidateJob.isFor r)) ≤ tally (chatsOf r L) (accepts r) L +
      tally (startupsIn L) (accepts r) L := by
  have hsplit : ∀ l ∈ L, isAccept (CandidateJob.isFor r) l = true →
      (isEventOf (chatsOf r L) (accepts r) l || isEventOf (startupsIn L) (accepts r) l) = true := fun l hl ha => by
    cases l with
    | act t e =>
      have he : accepts r e = true := by
        unfold isAccept at ha
        split at ha
        · rename_i hlabel
          cases hlabel
          exact ha
        · cases ha
      rw [accepts_iff.mp he] at hl
      rcases accepted_by h hl with hm | hm <;> simp [isEventOf, hm, he]
    | _ => cases ha
  calc L.countP (isAccept (CandidateJob.isFor r)) ≤ _ := List.countP_mono_left hsplit
    _ ≤ _ := countP_or_le L

lemma chats_le_one (h : Run (start dep clock) L w) (hn : (chatIds L).Nodup) :
    tally (chatsOf r L) (accepts r) L ≤ 1 := by
  refine (tally_le_card fun t ht => accepts_le_one h ht).trans (Finset.card_le_one.mpr fun t ht t' ht' => ?_)
  obtain ⟨⟨x, task⟩, hk, hx⟩ := mem_threadsOf.mp ht
  obtain ⟨⟨x', task'⟩, hk', hx'⟩ := mem_threadsOf.mp ht'
  obtain ⟨c, rfl, hc⟩ := chatOf_iff.mp hx
  obtain ⟨c', rfl, hc'⟩ := chatOf_iff.mp hx'
  exact chat_unique hn ⟨x, hk⟩ ⟨x', hk'⟩ (hc.trans hc'.symm)

theorem candidate_asked_at_most (h : Run (start dep clock) L w) (hn : (chatIds L).Nodup) (r : Str) :
    tally (handlersOf r L) asksCandidate L ≤ 1 + tally (startupsIn L) (accepts r) L := by
  have hhandlers : (handlersOf r L).card ≤ L.countP (isTake (replicas L).toFinset (CandidateJob.isFor r)) := by
    refine (card_threadsOf_le _ L).trans (List.countP_mono_left fun l hm hl => ?_)
    cases l with
    | spawn t k =>
      obtain ⟨x, task⟩ := k
      have hx : x ∈ replicas L := List.mem_filterMap.mpr ⟨_, hm, rfl⟩
      cases task <;> simp_all [spawnedOf, isTake, Kind.handleOf, CandidateJob.isFor]
    | _ => cases hl
  calc tally (handlersOf r L) asksCandidate L
      ≤ (handlersOf r L).card := tally_le_card fun t ht => asks_le_one h ht
    _ ≤ L.countP (isTake (replicas L).toFinset (CandidateJob.isFor r)) := hhandlers
    _ ≤ L.countP (isAccept (CandidateJob.isFor r)) := (Nat.le_add_right _ _).trans (Run.takes_le h)
    _ ≤ tally (chatsOf r L) (accepts r) L + tally (startupsIn L) (accepts r) L := accepted_le h
    _ ≤ 1 + tally (startupsIn L) (accepts r) L := Nat.add_le_add_right (chats_le_one h hn) _

def twoReplicas : List (DemoCommand none) :=
  boot 0 ++ begin 1 (.chat (demoChat "a" "hi")) ++ acts 11 1 (replies "nope") ++ begin 2 (.handle ⟨"a", 1⟩) ++
    acts 4 2 (replies "nope") ++ [.spawn 3 ⟨1, .startup⟩] ++ acts 2 3 (replies "nope") ++
    [.spawn 4 ⟨1, .handle ⟨"a", 3⟩⟩] ++ acts 4 4 (replies "nope")

theorem candidate_asked_at_most_twice : ∃ (L : List (ProxyLabel (demo none))) (w : ProxyWorld (demo none)),
    Run (start (demo none) morning) L w ∧ tally (handlersOf "a" L) asksCandidate L = 2 ∧
      tally (handlersOf "a" L) asksCandidate L ≤ 1 + tally (startupsIn L) (accepts "a") L := by
  obtain ⟨L, w, h, hP⟩ := (driver (demo none)).exists_free_run (start (demo none) morning) twoReplicas
    (fun L _ => (chatIds L).Nodup && tally (handlersOf "a" L) asksCandidate L = 2) (by decide +kernel)
  simp only [Bool.and_eq_true, decide_eq_true_eq] at hP
  exact ⟨L, w, h, hP.2, candidate_asked_at_most h hP.1 "a"⟩

end Asked

end ShadowProxy

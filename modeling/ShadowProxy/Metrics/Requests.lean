import ShadowProxy.Api.FailOpen
import ShadowProxy.Lifecycle.Recorded
import ShadowProxy.Scenario

/-! The two systems of request counters against the calls of the primary. -/

namespace ShadowProxy

open Effects Prog JsonActionEvaluator

def countedStatus (p : Str → Bool) : Ev → Bool
  | ⟨.count (.requestsTotal _ status), .ok ()⟩ => p status
  | _ => false

def primaryCall (p : Except Exn ChatResponse → Bool) : Ev → Bool
  | ⟨.chatCompletions .primary _ _, r⟩ => p r
  | _ => false

def isReply : Except Exn ChatResponse → Bool
  | .ok _ => true
  | .error _ => false

def isFailure : Except Exn ChatResponse → Bool
  | .error (.llmTimeout _) | .error (.llmCall _ _) => true
  | _ => false

/-- `n` counts the events of a kind. -/
structure RequestsAccounted (n : (Ev → Bool) → ℕ) : Prop where
  total : n (counted (.business .requestsTotal)) = n (primaryCall fun _ => true)
  success : n (counted (.business .requestsSuccess)) = n (primaryCall isReply)
  error : n (counted (.business .requestsError)) = n (primaryCall isFailure)
  totalAgrees : n (countedStatus fun _ => true) = n (counted (.business .requestsTotal))
  successAgrees : n (countedStatus fun status => status = statusText 200) =
    n (counted (.business .requestsSuccess))
  errorAgrees : n (countedStatus fun status => status ≠ statusText 200) = n (counted (.business .requestsError))

def Op.ofRequests : Op → Bool
  | .chatCompletions .primary _ _ => true
  | .count (.business .requestsTotal) | .count (.business .requestsSuccess) | .count (.business .requestsError) =>
    true
  | .count (.requestsTotal _ _) => true
  | _ => false

def Usable (py : Python) (req : ChatRequest) (r : Except Exn ChatResponse) : Prop :=
  (∃ resp, r = .ok resp ∧ Readable py resp.content) ∧ Latin1 req.model

inductive Exit (py : Python) : List Ev → Prop
  | unrouted : Exit py []
  | broken {req timeoutS r} : ¬ Usable py req r → Exit py [⟨.chatCompletions .primary req timeoutS, r⟩]
  | failed {req timeoutS e route status} : Exit py
      [⟨.chatCompletions .primary req timeoutS, .error e⟩, ⟨.count (.requestsTotal route status), .ok ()⟩]
  | unsent {req timeoutS resp} : ¬ Latin1 req.model → Exit py
      [⟨.chatCompletions .primary req timeoutS, .ok resp⟩, ⟨.count (.business .requestsTotal), .ok ()⟩,
        ⟨.count (.business .requestsSuccess), .ok ()⟩]
  | answered {req timeoutS resp route} : Readable py resp.content → Latin1 req.model → Exit py
      [⟨.chatCompletions .primary req timeoutS, .ok resp⟩, ⟨.count (.business .requestsTotal), .ok ()⟩,
        ⟨.count (.business .requestsSuccess), .ok ()⟩, ⟨.count (.requestsTotal route (statusText 200)), .ok ()⟩]

def Op.inserts : Op → Bool
  | .insertPending _ => true
  | _ => false

section Exits

variable {dep : Deployment} {h : List Ev}

lemma concluded_archive {a : PersistArgs} {outcome : PrimaryOutcome} :
    Concluded Op.inserts h (archive dep a outcome) fun h' r => noted Op.ofRequests h' = noted Op.ofRequests h ∧
      ∃ key, r = .ok key := by
  unfold archive
  cases dep.rawBackend with
  | none => exact ⟨rfl, none, rfl⟩
  | some backend =>
    refine (concludes_bind _ _).mpr
      ((concludes_attempt _).mpr ((concludes_bind _ _).mpr (concludes_sure rfl fun now => ?_)))
    refine concludes_perform fun r _ => ⟨?_, _, rfl⟩
    simp [Op.ofRequests]

lemma concluded_persistPending {a : PersistArgs} {outcome : PrimaryOutcome} :
    Concluded Op.inserts h (persistPending dep a outcome) fun h' r => noted Op.ofRequests h' =
      noted Op.ofRequests h ∧
      ((∃ e, r = .error e) ↔ outcome.status = .ok ∧ ¬ Readable dep.py outcome.content) := by
  have hinsert : ∀ h₁ key action, noted Op.ofRequests h₁ = noted Op.ofRequests h →
      Concluded Op.inserts h₁ (insertRecord dep (pendingRecord a outcome key action)) fun h' r =>
        noted Op.ofRequests h' = noted Op.ofRequests h ∧ r = .ok () := by
    intro h₁ key action hn
    unfold insertRecord
    refine (concludes_bind _ _).mpr ((concludes_attempt _).mpr (concludes_sure rfl fun _ => ⟨?_, rfl⟩))
    simp [Op.ofRequests, hn]
  unfold persistPending
  refine (concludes_bind _ _).mpr (concluded_archive.mono fun h₁ r _ hr => ?_)
  obtain ⟨hn, key, rfl⟩ := hr
  dsimp only
  split
  · rename_i hok
    refine (concludes_bind _ _).mpr (concludes_orRaise _ |>.mpr ?_)
    cases hx : extractAction dep.py outcome.content with
    | error e =>
      have hread : ¬ Readable dep.py outcome.content := fun hread => by
        obtain ⟨action, ha⟩ := extractAction_ok_iff.mpr hread
        exact nomatch hx.symm.trans ha
      exact ⟨hn, by simp [hok, hread]⟩
    | ok action =>
      have hread : Readable dep.py outcome.content := extractAction_ok_iff.mp ⟨action, hx⟩
      refine (hinsert h₁ key action hn).mono fun h' r _ hr => ⟨hr.1, ?_⟩
      simp [hr.2, hread]
  · rename_i hok
    refine (concludes_bind _ _).mpr ((hinsert h₁ key none hn).mono fun h' r _ hr => ⟨hr.1, ?_⟩)
    simp [hr.2, hok]

lemma concluded_failWith {α : Type} {route detail : Str} {code : ℤ} :
    Concluded Op.inserts h (failWith route code detail : Program α)
    fun h' _ => noted Op.ofRequests h' = noted Op.ofRequests h ++
      [⟨.count (.requestsTotal route (statusText code)), .ok ()⟩] := by
  unfold failWith
  refine (concludes_bind _ _).mpr (concludes_sure rfl fun _ => ?_)
  simp [Op.ofRequests]

lemma concluded_shadowGate {requestId : Str} :
    Concluded Op.inserts h (shadowGate requestId) fun h' r => (∃ gate, r = .ok gate) ∧
    noted Op.ofRequests h' = noted Op.ofRequests h ++
      [⟨.count (.business .requestsTotal), .ok ()⟩, ⟨.count (.business .requestsSuccess), .ok ()⟩] := by
  unfold shadowGate
  refine (concludes_bind _ _).mpr (concludes_sure rfl fun gate => ?_)
  obtain ⟨rate, draw⟩ := gate
  dsimp only
  cases decide (draw < rate) with
  | true =>
    simp only [if_true, pure_eq, ret_bind]
    refine (concludes_bind _ _).mpr (concludes_sure rfl fun dispatch => ?_)
    refine (concludes_bind _ _).mpr (concludes_sure rfl fun _ => ?_)
    refine (concludes_bind _ _).mpr (concludes_sure rfl fun _ => ?_)
    cases DispatchStatus.isEnqueued dispatch with
    | true =>
      refine (concludes_bind _ _).mpr (concludes_sure rfl fun _ => ⟨⟨_, rfl⟩, ?_⟩)
      simp [Op.ofRequests]
    | false => exact ⟨⟨_, rfl⟩, by simp [Op.ofRequests]⟩
  | false =>
    simp only [Bool.false_eq_true, if_false, pure_eq, ret_bind]
    refine (concludes_bind _ _).mpr (concludes_sure rfl fun _ => ?_)
    refine (concludes_bind _ _).mpr (concludes_sure rfl fun _ => ?_)
    refine (concludes_bind _ _).mpr (concludes_sure rfl fun _ => ⟨⟨_, rfl⟩, ?_⟩)
    simp [Op.ofRequests]

lemma concluded_runPrimary {req : ChatRequest} {timeoutS : PyFloat} :
    Concluded Op.inserts h (runPrimary req timeoutS) fun h' r =>
    ∃ res, noted Op.ofRequests h' = noted Op.ofRequests h ++ [⟨.chatCompletions .primary req timeoutS, res⟩] ∧
      Outcomes res r := by
  unfold runPrimary elapsedMs
  refine (concludes_bind _ _).mpr (concludes_sure rfl fun start => ?_)
  refine (concludes_bind _ _).mpr ((concludes_attempt _).mpr (concludes_perform fun res _ => ?_))
  have hnoted : ∀ stop, noted Op.ofRequests
      (h ++ [⟨.perfCounter, .ok start⟩] ++ [⟨.chatCompletions .primary req timeoutS, res⟩] ++
      [⟨.perfCounter, .ok stop⟩]) = noted Op.ofRequests h ++ [⟨.chatCompletions .primary req timeoutS, res⟩] :=
        by simp [Op.ofRequests]
  cases res with
  | ok resp =>
    refine (concludes_bind _ _).mpr
      ((concludes_bind _ _).mpr (concludes_sure rfl fun stop => ⟨_, hnoted stop, ?_⟩))
    exact .replied rfl rfl rfl
  | error e =>
    cases e
    case llmTimeout | llmCall =>
      refine (concludes_bind _ _).mpr
        ((concludes_bind _ _).mpr (concludes_sure rfl fun stop => ⟨_, hnoted stop, ?_⟩))
      exact .failed rfl nofun rfl
    all_goals exact ⟨_, by simp [Op.ofRequests], .raised rfl⟩

section Answer

variable {a : PersistArgs} {c : ChatCall} {routeCfg : RouteConfig} {outcome : PrimaryOutcome}
  {req : ChatRequest} {timeoutS : PyFloat}

lemma concluded_failed {e : Exn} (hs : outcome.status ≠ .ok)
    (hn : noted Op.ofRequests h = [⟨.chatCompletions .primary req timeoutS, .error e⟩]) :
    Concluded Op.inserts h (do
      persistPending dep a outcome
      respond c routeCfg outcome) fun h' _ => Exit dep.py (noted Op.ofRequests h') := by
  refine (concludes_bind _ _).mpr (concluded_persistPending.mono fun h₁ r _ hr => ?_)
  rw [hn] at hr
  cases r with
  | error e =>
    dsimp only
    rw [hr.1]
    exact .broken fun ⟨⟨_, hres, _⟩, _⟩ => nomatch hres
  | ok u =>
    have hfail : ∀ {code : ℤ} {detail : Str},
        Concluded Op.inserts h₁ (failWith c.body.route code detail : Program ChatReply)
        fun h' _ => Exit dep.py (noted Op.ofRequests h') := concluded_failWith.mono fun h₂ _ _ hn₂ => by
      rw [hn₂, hr.1]
      exact .failed
    dsimp only [respond]
    cases hst : outcome.status with
    | ok => exact absurd hst hs
    | timeout => exact hfail
    | error =>
      dsimp only
      split <;> exact hfail

lemma concluded_replied {resp : ChatResponse} (hs : outcome.status = .ok)
    (hcontent : outcome.content = resp.content) (hmodel : req.model = routeCfg.primary.modelId)
    (hn : noted Op.ofRequests h = [⟨.chatCompletions .primary req timeoutS, .ok resp⟩]) :
    Concluded Op.inserts h (do
      persistPending dep a outcome
      respond c routeCfg outcome) fun h' _ => Exit dep.py (noted Op.ofRequests h') := by
  refine (concludes_bind _ _).mpr (concluded_persistPending.mono fun h₁ r _ hr => ?_)
  rw [hn, hcontent] at hr
  cases r with
  | error e =>
    have hread : ¬ Readable dep.py resp.content := (hr.2.mp ⟨e, rfl⟩).2
    dsimp only
    rw [hr.1]
    exact .broken fun ⟨⟨_, hres, hread'⟩, _⟩ => hread (Except.ok.inj hres ▸ hread')
  | ok u =>
    have hread : Readable dep.py resp.content := by
      by_contra hread
      exact nomatch (hr.2.mpr ⟨hs, hread⟩).choose_spec
    simp only [respond, hs]
    refine (concludes_bind _ _).mpr (concluded_shadowGate.mono fun h₂ r _ hr₂ => ?_)
    obtain ⟨⟨gate, rfl⟩, hn₂⟩ := hr₂
    refine (concludes_bind _ _).mpr ((concludes_orRaise _).mpr ?_)
    rw [setHeaders_eq, encodeHeader, ← hmodel]
    by_cases hm : Latin1 req.model
    · rw [if_pos hm]
      refine (concludes_bind _ _).mpr (concludes_sure rfl fun _ => ?_)
      have hlast : noted Op.ofRequests (h₂ ++ [⟨.count (.requestsTotal c.body.route (statusText 200)), .ok ()⟩]) =
          noted Op.ofRequests h₂ ++ [⟨.count (.requestsTotal c.body.route (statusText 200)), .ok ()⟩] :=
            by simp [Op.ofRequests]
      have hexit : Exit dep.py (noted Op.ofRequests (h₂ ++
          [⟨.count (.requestsTotal c.body.route (statusText 200)), .ok ()⟩])) := by
        rw [hlast, hn₂, hr.1]
        exact .answered hread hm
      exact hexit
    · rw [if_neg hm]
      have hexit : Exit dep.py (noted Op.ofRequests h₂) := by
        rw [hn₂, hr.1]
        exact .unsent hm
      exact hexit

end Answer

lemma concluded_chat (c : ChatCall) :
    Concluded Op.inserts [] (chat dep c) fun h _ => Exit dep.py (noted Op.ofRequests h) := by
  unfold chat
  refine (concludes_bind _ _).mpr (concludes_sure rfl fun receivedAt => ?_)
  cases dep.config.route c.body.route with
  | none => exact .unrouted
  | some routeCfg =>
    refine (concludes_bind _ _).mpr (concluded_runPrimary.mono fun h₁ r _ hr => ?_)
    obtain ⟨res, hn, hout⟩ := hr
    replace hn : noted Op.ofRequests h₁ =
      [⟨.chatCompletions .primary (c.primaryReq routeCfg) routeCfg.primary.timeoutS, res⟩] := by
      simpa [Op.ofRequests] using hn
    cases hout with
    | raised =>
      dsimp only
      rw [hn]
      exact .broken fun ⟨⟨_, hres, _⟩, _⟩ => nomatch hres
    | failed _ hs => exact concluded_failed hs hn
    | replied hs hcontent => exact concluded_replied hs hcontent rfl hn

end Exits

lemma counted_ofRequests {m : Metric} (hm : (Op.count m).ofRequests = true) {e : Ev} (he : counted m e = true) :
    e.op.ofRequests = true := by
  rw [counted_op he, hm]

lemma countedStatus_ofRequests {p : Str → Bool} {e : Ev} (he : countedStatus p e = true) :
    e.op.ofRequests = true := by
  unfold countedStatus at he
  split at he
  · rfl
  · cases he

lemma primaryCall_ofRequests {p : Except Exn ChatResponse → Bool} {e : Ev} (he : primaryCall p e = true) :
    e.op.ofRequests = true := by
  unfold primaryCall at he
  split at he
  · rfl
  · cases he

lemma RequestsAccounted.congr {n n' : (Ev → Bool) → ℕ}
    (hn : ∀ P, (∀ e, P e = true → e.op.ofRequests = true) → n' P = n P) (h : RequestsAccounted n) :
    RequestsAccounted n' where
  total := by rw [hn _ fun _ => counted_ofRequests rfl, hn _ fun _ => primaryCall_ofRequests, h.total]
  success := by rw [hn _ fun _ => counted_ofRequests rfl, hn _ fun _ => primaryCall_ofRequests, h.success]
  error := by rw [hn _ fun _ => counted_ofRequests rfl, hn _ fun _ => primaryCall_ofRequests, h.error]
  totalAgrees :=
    by rw [hn _ fun _ => countedStatus_ofRequests, hn _ fun _ => counted_ofRequests rfl, h.totalAgrees]
  successAgrees :=
    by rw [hn _ fun _ => countedStatus_ofRequests, hn _ fun _ => counted_ofRequests rfl, h.successAgrees]
  errorAgrees :=
    by rw [hn _ fun _ => countedStatus_ofRequests, hn _ fun _ => counted_ofRequests rfl, h.errorAgrees]

def AllUsable (py : Python) (h : List Ev) : Prop :=
  ∀ req timeoutS r, (⟨.chatCompletions .primary req timeoutS, r⟩ : Ev) ∈ h → Usable py req r

lemma allUsable_noted {py : Python} {h : List Ev} : AllUsable py (noted Op.ofRequests h) ↔ AllUsable py h := by
  simp [AllUsable, noted, Op.ofRequests]

section Exit

variable {py : Python} {h : List Ev}

lemma Exit.total_le (he : Exit py h) :
    h.countP (counted (.business .requestsTotal)) ≤ h.countP (primaryCall fun _ => true) := by
  cases he <;> exact Nat.le_of_ble_eq_true rfl

lemma Exit.sent_le (he : Exit py h)
    (ht : h.countP (counted (.business .requestsTotal)) = h.countP (primaryCall fun _ => true)) :
    h.countP (countedStatus fun _ => true) ≤ h.countP (counted (.business .requestsTotal)) := by
  cases he with
  | failed => exact absurd (show 0 = 1 from ht) Nat.zero_ne_one
  | unrouted | broken | unsent | answered => exact Nat.le_of_ble_eq_true rfl

lemma Exit.allUsable (he : Exit py h)
    (ht : h.countP (counted (.business .requestsTotal)) = h.countP (primaryCall fun _ => true))
    (hs : h.countP (countedStatus fun _ => true) = h.countP (counted (.business .requestsTotal))) :
    AllUsable py h := by
  cases he with
  | unrouted => exact fun _ _ _ hm => nomatch hm
  | broken | failed => exact absurd (show 0 = 1 from ht) Nat.zero_ne_one
  | unsent => exact absurd (show 0 = 1 from hs) Nat.zero_ne_one
  | answered hread hmodel =>
    intro req timeoutS r hm
    simp only [List.mem_cons, Event.mk.injEq, reduceCtorEq, false_and, List.not_mem_nil, or_false] at hm
    obtain ⟨ho, hr⟩ := hm
    cases ho
    exact ⟨⟨_, eq_of_heq hr, hread⟩, hmodel⟩

lemma Exit.accounted (he : Exit py h) (hu : AllUsable py h) : RequestsAccounted fun P => h.countP P := by
  cases he with
  | unrouted => exact ⟨rfl, rfl, rfl, rfl, rfl, rfl⟩
  | broken hr => exact absurd (hu _ _ _ List.mem_cons_self) hr
  | failed => exact nomatch (hu _ _ _ List.mem_cons_self).1.choose_spec.1
  | unsent hmodel => exact absurd (hu _ _ _ List.mem_cons_self).2 hmodel
  | answered => exact ⟨rfl, rfl, rfl, rfl, rfl, rfl⟩

end Exit

lemma RequestsAccounted.tally {dep : Deployment} {ts : Finset ℕ} {L : List (ProxyLabel dep)}
    (h : ∀ t ∈ ts, RequestsAccounted fun P => (history t L).countP P) :
    RequestsAccounted fun P => tally ts P L where
  total := tally_congr fun t ht => (h t ht).total
  success := tally_congr fun t ht => (h t ht).success
  error := tally_congr fun t ht => (h t ht).error
  totalAgrees := tally_congr fun t ht => (h t ht).totalAgrees
  successAgrees := tally_congr fun t ht => (h t ht).successAgrees
  errorAgrees := tally_congr fun t ht => (h t ht).errorAgrees

section Runs

variable {dep : Deployment} {clock : DateTime} {L : List (ProxyLabel dep)} {w : ProxyWorld dep} {x t : ℕ}

lemma ofRequests_of_not_ofChat {o : Op} (ho : o.ofChat = false) : o.ofRequests = false := by
  unfold Op.ofRequests
  split <;> first | rfl | exact nomatch ho

def InsertsSucceed (x : ℕ) (L : List (ProxyLabel dep)) : Prop :=
  ∀ t ∈ threadsOn x L, ∀ record res, Acted L t (.insertPending record) res → res = .ok ()

lemma Run.exited (h : Run (start dep clock) L w) (hc : Label.crash x ∉ L) (hi : InsertsSucceed x L)
    (hidle : ∀ t c p, w.threads t ≠ some ⟨⟨x, .chat c⟩, p⟩) (ht : t ∈ threadsOn x L) :
    Exit dep.py (noted Op.ofRequests (history t L)) := by
  obtain ⟨⟨y, task⟩, hk, rfl⟩ := mem_threadsOn.mp ht
  have hnone : ∀ {P : Op → Prop}, Performs (I := proxy) P (taskProgram dep task) →
    (∀ o, P o → o.ofRequests = false) →
      Exit dep.py (noted Op.ofRequests (history t L)) := fun hp hP => by
    have hn : noted Op.ofRequests (history t L) = [] := List.filter_eq_nil_iff.mpr fun e he => by
      simp [hP _ (Run.performs_only h (fun _ => rfl) hk hp e he)]
    rw [hn]
    exact .unrouted
  cases task with
  | handle job => exact hnone (performs_handle dep job) fun _ => ofRequests_of_not_ofChat
  | sweep => exact hnone (performs_sweep dep) fun _ ho => ofRequests_of_not_ofChat ho.1
  | startup => exact hnone (performs_startup dep) fun _ ho => ofRequests_of_not_ofChat ho.1
  | chat c =>
    rcases Run.live_or_ended h (fun _ => rfl) hk hc with ⟨p, hp⟩ | ⟨-, q, hq, hd⟩
    · exact absurd hp (hidle t c p)
    · have hs : ∀ e ∈ history t L, Sound Op.inserts e := Run.sound h fun o ho r ha => by
        cases o <;> cases ho
        exact ⟨(), hi t ht _ r ha⟩
      have hends : Concluded Op.inserts [] (taskProgram dep (.chat c)) fun h _ =>
          Exit dep.py (noted Op.ofRequests h) :=
        (concludes_bind _ _).mpr ((concluded_chat c).mono fun h' r _ he => by cases r <;> exact he)
      exact (hq.concluded hd hs hends).choose_spec

end Runs

theorem requests_accounted_iff {dep : Deployment} {clock : DateTime} {L : List (ProxyLabel dep)}
    {w : ProxyWorld dep} {x : ℕ} (h : Run (start dep clock) L w) (hcrash : Label.crash x ∉ L)
    (hinserts : InsertsSucceed x L) (hidle : ∀ t c p, w.threads t ≠ some ⟨⟨x, .chat c⟩, p⟩) :
    (RequestsAccounted fun P => tally (threadsOn x L) P L) ↔ ∀ t ∈ threadsOn x L, ∀ req timeoutS r,
      Acted L t (.chatCompletions .primary req timeoutS) r → Usable dep.py req r := by
  have hexit : ∀ t ∈ threadsOn x L, Exit dep.py (noted Op.ofRequests (history t L)) :=
    fun t ht => Run.exited h hcrash hinserts hidle ht
  have hacted : ∀ t, AllUsable dep.py (noted Op.ofRequests (history t L)) ↔ ∀ req timeoutS r,
      Acted L t (.chatCompletions .primary req timeoutS) r → Usable dep.py req r := fun t => by
    refine allUsable_noted.trans (forall₂_congr fun req timeoutS => forall_congr' fun r => imp_congr_left ?_)
    exact mem_history (S := system dep)
  have hnoted : ∀ {P : Ev → Bool}, (∀ e, P e = true → e.op.ofRequests = true) → ∀ t,
      (history t L).countP P = (noted Op.ofRequests (history t L)).countP P := fun hP t => countP_noted hP _
  constructor
  · intro hacc
    have htotal := hnoted (fun _ => counted_ofRequests (m := .business .requestsTotal) rfl)
    have hcalls := hnoted fun _ => primaryCall_ofRequests (p := fun _ => true)
    have hsent := hnoted fun _ => countedStatus_ofRequests (p := fun _ => true)
    -- First no call without a count, and from there on no count without an answer.
    have heq : ∀ t ∈ threadsOn x L,
        (noted Op.ofRequests (history t L)).countP (counted (.business .requestsTotal)) =
        (noted Op.ofRequests (history t L)).countP (primaryCall fun _ => true) := fun t ht => by
      rw [← htotal, ← hcalls]
      refine (tally_eq_iff fun t ht => ?_).mp hacc.total t ht
      rw [htotal, hcalls]
      exact (hexit t ht).total_le
    intro t ht
    refine (hacted t).mp ((hexit t ht).allUsable (heq t ht) ?_)
    rw [← hsent, ← htotal]
    refine (tally_eq_iff fun t ht => ?_).mp hacc.totalAgrees t ht
    rw [hsent, htotal]
    exact (hexit t ht).sent_le (heq t ht)
  · refine fun hall => RequestsAccounted.tally fun t ht => ?_
    exact ((hexit t ht).accounted ((hacted t).mpr (hall t ht))).congr fun P hP => hnoted hP t

section OneCall

variable {dep : Deployment} {L : List (ProxyLabel dep)} {w₀ w : ProxyWorld dep}

def calm (_ : List (ProxyLabel dep)) (_ : ProxyWorld dep) : ProxyLabel dep → Bool
  | .crash _ => false
  | .act _ ⟨.insertPending _, .error _⟩ => false
  | _ => true

abbrev Calm (L : List (ProxyLabel dep)) (w : ProxyWorld dep) (l : ProxyLabel dep) : Prop := calm L w l = true

lemma calm_mem (h : RunWhere Calm w₀ L w) {l : ProxyLabel dep} (hl : l ∈ L) : calm L w l = true := by
  obtain ⟨L₁, L₂, rfl⟩ := List.append_of_mem hl
  obtain ⟨w₁, w₂, -, hc, -⟩ := RunWhere.at_label h
  exact hc

lemma calm_crash (h : RunWhere Calm w₀ L w) (x : ℕ) : Label.crash x ∉ L := fun hm => nomatch calm_mem h hm

lemma calm_inserts (h : RunWhere Calm w₀ L w) (x : ℕ) : InsertsSucceed x L := by
  intro t _ record res ha
  cases res with
  | ok u => rfl
  | error e => exact nomatch calm_mem h ha

def idle (w : ProxyWorld dep) : Bool := (List.range w.next).all fun t => (w.threads t).isNone

lemma threads_of_idle {clock : DateTime} (h : Run (start dep clock) L w) (hi : idle w = true) (t : ℕ) :
    w.threads t = none := by
  by_contra hne
  obtain ⟨th, hth⟩ := Option.ne_none_iff_exists'.mp hne
  have hlt := (Run.tracked h fun _ => rfl).lt hth
  have hnone := List.all_eq_true.mp hi t (List.mem_range.mpr hlt)
  simp [hth] at hnone

end OneCall

def oneCall (a : Script (demo none)) (n : ℕ) : List (DemoCommand none) :=
  boot 0 ++ begin 1 (.chat (demoChat "a" "hi")) ++ acts n 1 a ++ [.exit 1]

theorem requests_accounted_iff_one_reply : ∃ (L : List (ProxyLabel (demo none))) (w : ProxyWorld (demo none)),
    Run (start (demo none) morning) L w ∧ tally (threadsOn 0 L) (primaryCall isReply) L = 1 ∧
      ((RequestsAccounted fun P => tally (threadsOn 0 L) P L) ↔ ∀ t ∈ threadsOn 0 L, ∀ req timeoutS r,
        Acted L t (.chatCompletions .primary req timeoutS) r → Usable (demo none).py req r) := by
  obtain ⟨L, w, h, hP⟩ := (driver (demo none)).exists_run (C := Calm) (c := calm) id (start (demo none) morning)
    (oneCall (replies buy) 11)
    (fun L w => idle w && tally (threadsOn 0 L) (primaryCall isReply) L = 1) (by decide +kernel)
  simp only [Bool.and_eq_true, decide_eq_true_eq] at hP
  refine ⟨L, w, h.run, hP.2, requests_accounted_iff h.run (calm_crash h 0) (calm_inserts h 0) fun t c p hp => ?_⟩
  exact nomatch (threads_of_idle h.run hP.1 t).symm.trans hp

theorem requests_not_accounted_timeout : ∃ (L : List (ProxyLabel (demo none))) (w : ProxyWorld (demo none)),
    Run (start (demo none) morning) L w ∧ Label.crash 0 ∉ L ∧ InsertsSucceed 0 L ∧ (∀ t, w.threads t = none) ∧
      ¬ RequestsAccounted fun P => tally (threadsOn 0 L) P L := by
  obtain ⟨L, w, h, hP⟩ := (driver (demo none)).exists_run (C := Calm) (c := calm) id (start (demo none) morning)
    (oneCall timesOut 6)
    (fun L w => idle w && tally (threadsOn 0 L) (counted (.business .requestsTotal)) L ≠
      tally (threadsOn 0 L) (primaryCall fun _ => true) L) (by decide +kernel)
  simp only [Bool.and_eq_true, decide_eq_true_eq] at hP
  exact ⟨L, w, h.run, calm_crash h 0, calm_inserts h 0, threads_of_idle h.run hP.1, fun hacc => hP.2 hacc.total⟩

end ShadowProxy

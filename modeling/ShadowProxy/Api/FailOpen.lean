import ShadowProxy.Archive.Payload
import ShadowProxy.Lifecycle.Termination

/-! What a served primary reply comes to when the stores may fail. -/

namespace ShadowProxy

open Effects Prog JsonActionEvaluator

lemma extractAction_ok_iff {py : Python} {content : Str} :
    (∃ action, extractAction py content = .ok action) ↔ Readable py content := by
  rw [Readable, extractAction]
  cases hs : stripCodeFence content with
  | nil => simp
  | cons c cs =>
    dsimp only
    cases hl : py.loads (c :: cs) with
    | ok v => cases v <;> simp
    | error e => cases e <;> simp

def Answers (resp : ChatResponse) : Ev → Prop
  | ⟨.chatCompletions _ _ _, res⟩ => res = .ok resp
  | _ => True

def Unbroken (dep : Deployment) (k : Kind) (c : ChatCall) (resp : ChatResponse) (q : Program ChatReply)
    (s : State) : Prop :=
  (∃ reply : ChatReply, q = .ret reply ∧ reply.requestId = c.requestId ∧ reply.response = resp.raw) ∨
    ∃ o f res, q = .op o f ∧ legal dep k s o res ∧ Answers resp ⟨o, res⟩

section FailOpen

variable {dep : Deployment} {c : ChatCall} {routeCfg : RouteConfig} {resp : ChatResponse} {t : ℕ} {k : Kind}
  {s : State}

abbrev Always (dep : Deployment) (t : ℕ) (k : Kind) (resp : ChatResponse) {α : Type} (s : State) (p : Program α)
    (Q : State → Except Exn α → Prop) : Prop :=
  Must (S := system dep) (fun _ _ => True) (Answers resp) t k s p Q

def Op.Infallible : Op → Prop
  | .now | .perfCounter | .sample | .enqueue _ | .count _ => True
  | _ => False

lemma always_infallible {α : Type} {o : Op} (ho : o.Infallible) {Q : State → Except Exn α → Prop}
    {f : o.Ret → Program α} (hf : ∀ s a, Always dep t k resp s (f a) Q) :
    Always dep t k resp s (perform o >>= f) Q := by
  refine (must_bind _ _).mpr (must_perform fun s' res _ hl _ => ?_)
  cases res with
  | ok a => exact hf _ a
  | error e => cases o <;> first | exact ho.elim | exact hl.elim

lemma always_attempt {α : Type} {o : Op} {Q : State → Except Exn α → Prop} {f : Except Exn o.Ret → Program α}
    (hf : ∀ s res, Always dep t k resp s (f res) Q) : Always dep t k resp s (attempt (perform o) >>= f) Q :=
  (must_bind _ _).mpr ((must_attempt _).mpr (must_perform fun _ res _ _ _ => hf _ res))

lemma always_runPrimary {α : Type} {req : ChatRequest} {timeoutS : PyFloat} {Q : State → Except Exn α → Prop}
    {f : PrimaryOutcome → Program α} (hf : ∀ s (outcome : PrimaryOutcome), outcome.status = .ok →
      outcome.content = resp.content → outcome.raw = some resp.raw → Always dep t k resp s (f outcome) Q) :
    Always dep t k resp s (runPrimary req timeoutS >>= f) Q := by
  refine (must_bind _ _).mpr (always_infallible (o := .perfCounter) trivial fun s start => ?_)
  refine (must_bind _ _).mpr ((must_attempt _).mpr (must_perform fun s' res _ _ hA => ?_))
  obtain rfl : res = .ok resp := hA
  refine (must_bind _ _).mpr (always_infallible (o := .perfCounter) trivial fun s stop => ?_)
  exact hf s _ rfl rfl rfl

lemma always_archive {α : Type} {a : PersistArgs} {outcome : PrimaryOutcome} {Q : State → Except Exn α → Prop}
    {f : Option Str → Program α} (hf : ∀ s key, Always dep t k resp s (f key) Q) :
    Always dep t k resp s (archive dep a outcome >>= f) Q := by
  rw [archive]
  cases dep.rawBackend with
  | none => exact hf s none
  | some backend =>
    refine (must_bind _ _).mpr ((must_bind _ _).mpr ((must_attempt _).mpr ?_))
    refine always_infallible (o := .now) trivial fun s now => must_perform fun s' res _ _ _ => ?_
    exact hf _ _

lemma always_insertRecord {α : Type} (hopen : dep.config.store.onFailure = .failOpen) {record : PendingComparison}
    {Q : State → Except Exn α → Prop} {f : Unit → Program α} (hf : ∀ s, Always dep t k resp s (f ()) Q) :
    Always dep t k resp s (insertRecord dep record >>= f) Q := by
  refine (must_bind _ _).mpr (always_attempt fun s res => ?_)
  cases res with
  | ok u => exact hf s
  | error e =>
    simp only [hopen, reduceCtorEq, if_false]
    exact hf s

lemma always_persistPending {α : Type} (hopen : dep.config.store.onFailure = .failOpen) {a : PersistArgs}
    {outcome : PrimaryOutcome} (hstatus : outcome.status = .ok) (hcontent : outcome.content = resp.content)
    {Q : State → Except Exn α → Prop} {f : Unit → Program α}
    (hraise : ¬ Readable dep.py resp.content → ∀ s e, Q s (.error e))
    (hf : Readable dep.py resp.content → ∀ s, Always dep t k resp s (f ()) Q) :
    Always dep t k resp s (persistPending dep a outcome >>= f) Q := by
  refine (must_bind _ _).mpr (always_archive fun s key => ?_)
  rw [if_pos hstatus, hcontent]
  cases hx : extractAction dep.py resp.content with
  | ok action =>
    have hread : Readable dep.py resp.content := extractAction_ok_iff.mp ⟨action, hx⟩
    exact (must_bind _ _).mp (always_insertRecord hopen fun s => hf hread s)
  | error e =>
    have hread : ¬ Readable dep.py resp.content := fun hread => by
      obtain ⟨action, ha⟩ := extractAction_ok_iff.mpr hread
      rw [hx] at ha
      cases ha
    exact hraise hread s e

lemma always_shadowGate {α : Type} {requestId : Str} {Q : State → Except Exn α → Prop}
    {f : Bool × Bool × ℚ → Program α} (hf : ∀ s gate, Always dep t k resp s (f gate) Q) :
    Always dep t k resp s (shadowGate requestId >>= f) Q := by
  refine (must_bind _ _).mpr (always_infallible (o := .sample) trivial fun s gate => ?_)
  obtain ⟨rate, draw⟩ := gate
  dsimp only
  cases decide (draw < rate) with
  | true =>
    simp only [if_true, pure_eq, ret_bind]
    apply always_infallible (o := .enqueue _) trivial
    intro s dispatch
    apply always_infallible (o := .count _) trivial
    intro s _
    apply always_infallible (o := .count _) trivial
    intro s _
    cases DispatchStatus.isEnqueued dispatch with
    | true => exact always_infallible (o := .count _) trivial fun s _ => hf s _
    | false => exact hf s _
  | false =>
    simp only [Bool.false_eq_true, if_false, pure_eq, ret_bind]
    apply always_infallible (o := .count _) trivial
    intro s _
    apply always_infallible (o := .count _) trivial
    intro s _
    exact always_infallible (o := .count _) trivial fun s _ => hf s _

def Replies (c : ChatCall) (resp : ChatResponse) (res : Except Exn ChatReply) : Prop :=
  ∃ reply : ChatReply, res = .ok reply ∧ reply.requestId = c.requestId ∧ reply.response = resp.raw

lemma always_chat (hopen : dep.config.store.onFailure = .failOpen)
    (hroute : dep.config.route c.body.route = some routeCfg)
    (hlegal : toChatResponse dep.py dep.pydantic resp.raw = .ok resp) :
    Always dep t k resp s (chat dep c) fun _ res =>
      (Readable dep.py resp.content ∧ Latin1 routeCfg.primary.modelId → Replies c resp res) ∧
      (¬ (Readable dep.py resp.content ∧ Latin1 routeCfg.primary.modelId) → ∃ e, res = .error e) := by
  rw [chat]
  refine always_infallible (o := .now) trivial fun s receivedAt => ?_
  simp only [hroute]
  refine always_runPrimary fun s outcome hstatus hcontent hraw => ?_
  refine always_persistPending hopen hstatus hcontent (fun hread s e => ?_) fun hread s => ?_
  · exact ⟨fun h => absurd h.1 hread, fun _ => ⟨e, rfl⟩⟩
  rw [respond]
  rw [hstatus]
  refine always_shadowGate fun s gate => ?_
  rw [setHeaders_eq, encodeHeader]
  by_cases hmodel : Latin1 routeCfg.primary.modelId
  · rw [if_pos hmodel]
    refine always_infallible (o := .count _) trivial fun s _ =>
      ⟨fun _ => ⟨_, rfl, rfl, ?_⟩, fun h => absurd ⟨hread, hmodel⟩ h⟩
    rw [hraw]
    exact if_pos (toChatResponse_truthy hlegal)
  · rw [if_neg hmodel]
    exact ⟨fun h => absurd h.2 hmodel, fun _ => ⟨_, rfl⟩⟩

lemma exists_answer (o : Op) (hlegal : toChatResponse dep.py dep.pydantic resp.raw = .ok resp) :
    ∃ res, legal dep k s o res ∧ Answers resp ⟨o, res⟩ := by
  cases o
  case now => exact ⟨.ok s.clock, rfl, trivial⟩
  case perfCounter => exact ⟨.ok 0, trivial, trivial⟩
  case chatCompletions => exact ⟨.ok resp, hlegal, rfl⟩
  case sample => exact ⟨.ok (_, 0), ⟨rfl, le_refl _, by decide⟩, trivial⟩
  case enqueue => exact ⟨.ok _, rfl, trivial⟩
  case count => exact ⟨.ok (), trivial, trivial⟩
  case offer => exact ⟨.ok (), trivial, trivial⟩
  case serve => exact ⟨.ok (), trivial, trivial⟩
  all_goals exact ⟨.error .database, trivial, trivial⟩

lemma exists_end (hlegal : toChatResponse dep.py dep.pydantic resp.raw = .ok resp) (t : ℕ) (k : Kind)
    (s₀ : State) : ∃ h res s, Exec (S := system dep) (fun _ _ => True) t k (chat dep c) s₀ h (orRaise res) s ∧
      ∀ e ∈ h, Answers resp e := by
  have hc : Can (S := system dep) t k s₀ [] (chat dep c) fun _ h _ => ∀ e ∈ h, Answers resp e :=
    can_of_answers (fun s o => exists_answer o hlegal) _ fun e he => absurd he List.not_mem_nil
  obtain ⟨h, res, s, hx, hh⟩ := Can.exec (R := fun _ _ => True) hc .start
  exact ⟨h, res, s, hx, hh⟩

theorem fail_open_serves_iff (hopen : dep.config.store.onFailure = .failOpen)
    (hroute : dep.config.route c.body.route = some routeCfg)
    (hlegal : toChatResponse dep.py dep.pydantic resp.raw = .ok resp) (t : ℕ) (k : Kind) (s₀ : State) :
    (∀ h q s, Exec (S := system dep) (fun _ _ => True) t k (chat dep c) s₀ h q s → (∀ e ∈ h, Answers resp e) →
      Unbroken dep k c resp q s) ↔ Readable dep.py resp.content ∧ Latin1 routeCfg.primary.modelId := by
  constructor
  · intro hserves
    obtain ⟨h, res, s, hx, hh⟩ := exists_end (c := c) hlegal t k s₀
    obtain ⟨s₁, _, hm⟩ := hx.must (fun _ => trivial) (fun _ _ _ _ _ => trivial) hh
      (always_chat hopen hroute hlegal)
    by_contra hbad
    cases res with
    | ok reply =>
      obtain ⟨e, he⟩ := hm.2 hbad
      cases he
    | error e =>
      rcases hserves h _ s hx hh with ⟨reply, hq, _⟩ | ⟨o, f, r, hq, _⟩ <;> cases hq
  · intro hgood h q s hx hh
    obtain ⟨s₁, _, hm⟩ := hx.must (fun _ => trivial) (fun _ _ _ _ _ => trivial) hh
      (always_chat hopen hroute hlegal)
    cases q with
    | ret reply =>
      obtain ⟨_, ⟨rfl⟩, hid, hresponse⟩ := hm.1 hgood
      exact .inl ⟨reply, rfl, hid, hresponse⟩
    | raise e =>
      obtain ⟨_, he, _⟩ := hm.1 hgood
      cases he
    | op o f =>
      obtain ⟨res, hl, hA⟩ := exists_answer (k := k) (s := s) o hlegal
      exact .inr ⟨o, f, res, rfl, hl, hA⟩

end FailOpen

theorem fail_open_serves_match : (Readable digits.py (demoReply buy).content ∧ Latin1 demoRoute.primary.modelId) ∧
    ((∀ h q s, Exec (S := system digits) (fun _ _ => True) 1 ⟨0, .chat (demoChat "a" "hi")⟩
      (chat digits (demoChat "a" "hi")) (State.initial morning) h q s → (∀ e ∈ h, Answers (demoReply buy) e) →
      Unbroken digits ⟨0, .chat (demoChat "a" "hi")⟩ (demoChat "a" "hi") (demoReply buy) q s) ↔
    Readable digits.py (demoReply buy).content ∧ Latin1 demoRoute.primary.modelId) :=
  ⟨⟨buy_readable, by decide⟩, fail_open_serves_iff rfl demoConfig_route (digitReply_legal buy _ rfl) 1 _ _⟩

/-- The primary's content is an integer literal of 4301 digits. -/
theorem fail_open_raises : ∃ h q s, Exec (S := system digits) (fun _ _ => True) 1 ⟨0, .chat (demoChat "a" "hi")⟩
    (chat digits (demoChat "a" "hi")) (State.initial morning) h q s ∧
    (∀ e ∈ h, Answers (demoReply (ones 4301)) e) ∧
    ∃ e, q = .raise e := by
  have hread : ¬ Readable digits.py (demoReply (ones 4301)).content := ones_unreadable (by omega)
  obtain ⟨h, res, s, hx, hh⟩ := @exists_end digits (demoChat "a" "hi") _ (digitReply_legal (ones 4301) _ rfl) 1
    ⟨0, .chat (demoChat "a" "hi")⟩ (State.initial morning)
  obtain ⟨s₁, _, hm⟩ := hx.must (fun _ => trivial) (fun _ _ _ _ _ => trivial) hh
    (always_chat rfl demoConfig_route (digitReply_legal _ _ rfl))
  cases res with
  | ok reply =>
    obtain ⟨e, he⟩ := hm.2 fun h => hread h.1
    cases he
  | error e => exact ⟨h, _, s, hx, hh, e, rfl⟩

end ShadowProxy

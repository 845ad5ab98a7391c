import ShadowProxy.Metrics.Footprint

/-! What a chat call records of its primary's answer. -/

namespace ShadowProxy

open Effects Prog

def isCall : Op → Prop
  | .chatCompletions _ _ _ => True
  | _ => False

def AsksOnce (h : List Ev) (o : Op) : Prop := isCall o → ∀ e ∈ h, ¬ isCall e.op

lemma issues_asksOnce (dep : Deployment) (c : ChatCall) : Issues AsksOnce (taskProgram dep (.chat c)) := by
  have hother : ∀ (h : List Ev) (o : Op), ¬ isCall o → AsksOnce h o := fun _ _ hn hc => absurd hc hn
  refine obeys_bind_performs (P := fun o => ¬ isCall o) ?_ hother fun _ => trivial
  simp only [chat, obeys_bind, obeys_perform, implies_true, and_true]
  refine ⟨hother _ _ id, fun receivedAt => ?_⟩
  cases hr : dep.config.route c.body.route with
  | none => trivial
  | some routeCfg =>
    have hcount : ∀ m : Metric, m.ofChat = true → ¬ isCall (.count m) := fun _ _ => id
    refine obeys_bind_performs (P := fun o => ¬ isCall o) ?_ hother fun outcome => .bind
      (performs_persistPending id (fun _ => id) (fun _ => id) outcome) fun _ => performs_respond hcount id id
      routeCfg outcome
    simp only [runPrimary, obeys_bind, obeys_perform, obeys_attempt, implies_true, and_true]
    refine ⟨hother _ _ id, fun start => ⟨?_, ?_, ?_⟩⟩
    · intro _ e he
      simp only [List.nil_append, List.mem_append, List.mem_singleton] at he
      rcases he with rfl | rfl <;> exact id
    · intro resp
      simp only [elapsedMs, obeys_bind, obeys_perform, pure_eq, obeys_ret, implies_true, and_true]
      exact hother _ _ id
    · intro e
      cases e <;> simp only [elapsedMs, obeys_bind, obeys_perform, pure_eq, obeys_ret, obeys_raise,
        implies_true, and_true]
      all_goals exact hother _ _ id

/-- `str` of the client's own exceptions. -/
def Exn.message : Exn → Option Str
  | .llmTimeout message | .llmCall message _ => some message
  | _ => none

inductive Outcomes : Except Exn ChatResponse → Except Exn PrimaryOutcome → Prop
  | replied {resp outcome} : outcome.status = .ok → outcome.content = resp.content → outcome.error = none →
      Outcomes (.ok resp) (.ok outcome)
  | failed {e message outcome} : e.message = some message → outcome.status ≠ .ok → outcome.error = some message →
      Outcomes (.error e) (.ok outcome)
  | raised {e} : e.message = none → Outcomes (.error e) (.error e)

inductive Reports (py : Python) : Except Exn ChatResponse → PendingComparison → Prop
  | replied {resp record} : record.primaryStatus = .ok → record.primaryError = none →
      extractAction py resp.content = .ok record.primaryAction → Reports py (.ok resp) record
  | failed {e message record} : e.message = some message → record.primaryStatus ≠ .ok →
      record.primaryError = some message →
      record.primaryAction = none → Reports py (.error e) record

def writesRow : Op → Prop
  | .insertPending _ => True
  | _ => False

def Reported (py : Python) (h : List Ev) : Op → Prop
  | .insertPending record => ∃ req timeoutS res, Did h (.chatCompletions .primary req timeoutS) res ∧
      Reports py res record
  | _ => True

lemma obeys_runPrimary_outcomes {J : List Ev → Op → Prop} {h : List Ev} {req : ChatRequest} {timeoutS : PyFloat}
    (hp : ∀ h, J h .perfCounter) (hc : ∀ h, J h (.chatCompletions .primary req timeoutS)) :
    Obeys J h (runPrimary req timeoutS) (fun h' outcome => ∃ res,
      Did h' (.chatCompletions .primary req timeoutS) res ∧
      Outcomes res (.ok outcome)) fun _ _ => True := by
  simp only [runPrimary, elapsedMs, obeys_bind, obeys_perform, obeys_attempt, hp, hc, true_and,
    implies_true, and_true, pure_eq, obeys_ret]
  have hd : ∀ start res a,
      Did (h ++ [⟨.perfCounter, .ok start⟩] ++ [⟨.chatCompletions .primary req timeoutS, res⟩] ++
      [⟨.perfCounter, .ok a⟩]) (.chatCompletions .primary req timeoutS) res := by simp [Did]
  refine fun start => ⟨fun resp a => ⟨_, hd start (.ok resp) a, .replied rfl rfl rfl⟩, fun e => ?_⟩
  cases e <;> simp only [obeys_bind, obeys_perform, obeys_raise, obeys_ret, hp, implies_true, and_true, true_and]
  all_goals exact fun a => ⟨_, hd start (.error _) a, .failed rfl (by simp) rfl⟩

lemma issues_reported (dep : Deployment) (c : ChatCall) :
    Issues (Reported dep.py) (taskProgram dep (.chat c)) := by
  have hother : ∀ (h : List Ev) (o : Op), ¬ writesRow o → Reported dep.py h o := fun h o ho => by
    cases o <;> first | trivial | exact absurd trivial ho
  refine obeys_bind_performs (P := fun o => ¬ writesRow o) ?_ hother fun _ => trivial
  simp only [chat, obeys_bind, obeys_perform, implies_true, and_true]
  refine ⟨hother _ _ id, fun receivedAt => ?_⟩
  cases hr : dep.config.route c.body.route with
  | none => trivial
  | some routeCfg =>
    refine (obeys_bind _ _).mpr ((obeys_runPrimary_outcomes (fun h => hother h _ id) fun h => hother h _ id).mono
      (fun h₁ outcome _ hout => ?_) fun _ _ _ _ => trivial)
    obtain ⟨res, hd, hout⟩ := hout
    refine obeys_bind_performs (P := fun o => ¬ writesRow o) ?_ hother fun _ =>
      performs_respond (fun _ _ => id) id id routeCfg outcome
    have harchive : @Performs proxy _ (fun o => ¬ writesRow o)
        (archive dep (c.persistArgs dep.requestHash receivedAt routeCfg) outcome) :=
          performs_archive id (fun _ => id) outcome
    simp only [persistPending, obeys_bind]
    refine (harchive.obeys hother).mono (fun h₂ key hh _ => ?_) fun _ _ _ _ => trivial
    have hinsert : ∀ action,
        Reports dep.py res (pendingRecord (c.persistArgs dep.requestHash receivedAt routeCfg) outcome key action) →
        Obeys (Reported dep.py) h₂
        (insertRecord dep (pendingRecord (c.persistArgs dep.requestHash receivedAt routeCfg) outcome key
          action)) (fun _ _ => True) fun _ _ => True := fun action hrep =>
      (obeys_insertRecord (fun _ _ => trivial) ⟨_, _, res, hd.mono hh, hrep⟩).mono (fun _ _ _ _ => trivial)
        fun _ _ _ _ => trivial
    cases hout with
    | replied hs hcontent herror =>
      simp only [hs, if_true, obeys_bind, obeys_orRaise, implies_true, and_true]
      exact fun action ha => hinsert action (.replied hs herror (hcontent ▸ ha))
    | failed hm hs herror =>
      simp only [hs, if_false, obeys_bind, pure_eq, obeys_ret]
      exact hinsert none (.failed hm hs herror rfl)

section Runs

variable {dep : Deployment} {clock : DateTime} {L : List (ProxyLabel dep)} {w : ProxyWorld dep} {n : ℕ}
  {c : ChatCall}

lemma Run.reported (h : Run (start dep clock) L w) (hst : Started L n (.chat c)) {record : PendingComparison}
    {res : Except Exn Unit} (ha : Acted L n (.insertPending record) res) : ∃ req timeoutS r,
      Acted L n (.chatCompletions .primary req timeoutS) r ∧ Reports dep.py r record := by
  obtain ⟨x, hx⟩ := hst
  obtain ⟨L₁, L₂, rfl⟩ := List.append_of_mem ha
  obtain ⟨req, timeoutS, r, hd, hrep⟩ := Run.issued_at h (fun _ => rfl) hx (issues_reported dep c)
  exact ⟨req, timeoutS, r, List.mem_append_left _ (did_history.mp hd), hrep⟩

lemma Run.asks_once (h : Run (start dep clock) L w) (hst : Started L n (.chat c)) {client client' : Client}
    {req req' : ChatRequest} {timeoutS timeoutS' : PyFloat} {r r' : Except Exn ChatResponse}
    (ha : Acted L n (.chatCompletions client req timeoutS) r)
    (ha' : Acted L n (.chatCompletions client' req' timeoutS') r') : r = r' := by
  obtain ⟨x, hx⟩ := hst
  cases Run.once_issued h (fun _ => rfl) hx (issues_asksOnce dep c) (fun _ _ hJ => hJ) ha ha' trivial trivial
  rfl

end Runs

end ShadowProxy

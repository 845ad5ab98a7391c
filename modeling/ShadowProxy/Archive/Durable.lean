import ShadowProxy.Archive.Payload
import ShadowProxy.Effects.Alone
import ShadowProxy.Scenario

/-! What is stored by the time a client gets its response. -/

namespace ShadowProxy

open Effects SqlComparisonStore

section Durable

variable (dep : Deployment)

def Durable (s : State) (reply : ChatReply) : Prop :=
  ∃ row key doc, s.row reply.requestId = some row ∧ row.primaryStatus = .ok ∧ row.rawObjectKey = some key ∧
    s.objects (dep.locate key) = some (.payload doc) ∧ doc.getItem "primary_response" = .ok reply.response

structure Spares (requestId : Str) (s s' : State) : Prop where
  row : ∀ row, s.row requestId = some row →
    ∃ row', s'.row requestId = some row' ∧ row'.toPendingComparison = row.toPendingComparison
  objects : ∀ now, s'.objects (dep.locate (keyFor now requestId)) = s.objects (dep.locate (keyFor now requestId))

structure Stored (requestId : Str) (h : List Ev) (s : State) : Prop where
  reply : ∀ client req timeoutS resp, Did h (.chatCompletions client req timeoutS) (.ok resp) →
    toChatResponse dep.py dep.pydantic resp.raw = .ok resp
  put : ∀ payload key, Did h (.rawPut requestId payload) (.ok key) → ∃ now, key = keyFor now requestId ∧
    s.objects (dep.locate key) = some (.payload payload)
  insert : ∀ record, record.requestId = requestId → Did h (.insertPending record) (.ok ()) →
    ∃ row, s.row requestId = some row ∧ row.toPendingComparison = record

end Durable

variable {dep : Deployment} {requestId : Str} {h : List Ev} {s s' : State}

lemma Stored.others (hs : Stored dep requestId h s) (hr : Spares dep requestId s s') :
    Stored dep requestId h s' where
  reply := hs.reply
  put payload key hd := by
    obtain ⟨now, rfl, ho⟩ := hs.put payload key hd
    exact ⟨now, rfl, (hr.objects now).trans ho⟩
  insert record hid hd := by
    obtain ⟨row, hrow, rfl⟩ := hs.insert record hid hd
    exact hr.row row hrow

lemma Stored.op {c : ChatCall} {t : ℕ} {k : Kind} {o : Op} {r : Except Exn o.Ret} (hs : Stored dep c.requestId h s)
    (hJ : chatSpec dep c h o) (hl : legal dep k s o r) :
    Stored dep c.requestId (h ++ [⟨o, r⟩]) (after dep t k s o r) where
  reply client req timeoutS resp hd := by
    rcases did_snoc.mp hd with hd | he
    · exact hs.reply client req timeoutS resp hd
    · cases he
      exact hl
  put payload key hd := by
    rcases did_snoc.mp hd with hold | he
    · obtain ⟨now, hkey, ho⟩ := hs.put payload key hold
      refine ⟨now, hkey, ?_⟩
      have hstep := objectStep_after dep s k t o r (dep.locate key)
      generalize (after dep t k s o r).objects (dep.locate key) = obj at hstep
      cases hstep with
      | same => exact ho
      | put => exact (hJ.2.1 _ hold _ _ rfl).elim
    · cases he
      exact ⟨s.clock, hl, by subst hl; simp [after, RawObject.ofPut, State.write]⟩
  insert record hid hd := by
    rcases did_snoc.mp hd with hd | he
    · obtain ⟨row, hrow, rfl⟩ := hs.insert record hid hd
      exact (rowStep_after hl c.requestId).persists hrow
    · cases he
      exact ⟨newRow record, hid ▸ (row_insertPending hl _).trans (if_pos rfl), rfl⟩

section Chat

variable {c : ChatCall} {t : ℕ} {k : Kind} {reply : ChatReply}

abbrev Serves (dep : Deployment) (c : ChatCall) (t : ℕ) (k : Kind) :
    State → List Ev → Program ChatReply → State → Prop :=
  Exec (S := system dep) (Spares dep c.requestId) t k (chat dep c)

lemma Exec.stored {q : Program ChatReply} (hx : Serves dep c t k s h q s') : Stored dep c.requestId h s' := by
  have hnil : Stored dep c.requestId [] s :=
    ⟨fun _ _ _ _ hd => (nomatch hd), fun _ _ hd => (nomatch hd), fun _ _ hd => (nomatch hd)⟩
  exact hx.invariant (P := Stored dep c.requestId) (obeys_chat dep c) hnil (fun _ _ _ _ hs hJ hl => hs.op hJ hl)
    fun _ _ _ hs hr => hs.others hr

theorem durable_iff_put (hfc : dep.config.store.onFailure = .failClosed)
    (hx : Serves dep c t k s h (.ret reply) s') :
    Durable dep s' reply ↔ ∃ payload key, Did h (.rawPut c.requestId payload) (.ok key) := by
  obtain ⟨routeCfg, receivedAt, outcome, key, action, hserved⟩ := hx.obeys (obeys_chat dep c)
  have hstored := Exec.stored hx
  obtain ⟨res, hins, hres⟩ := hserved.inserted
  obtain rfl := hres hfc
  obtain ⟨row, hrow, hpending⟩ := hstored.insert _ rfl hins
  constructor
  · rintro ⟨row', key', doc, hrow', _, hkey, _⟩
    rw [hserved.requestId] at hrow'
    obtain rfl := Option.some.inj (hrow.symm.trans hrow')
    have hk : key = some key' := by rw [← hkey, hpending]; rfl
    obtain ⟨now, hd⟩ := hserved.archived.put key' hk
    exact ⟨_, _, hd⟩
  · rintro ⟨payload, key', hd⟩
    obtain rfl := hserved.archived.res _ _ _ hd
    obtain ⟨now, hput⟩ := hserved.archived.put key' rfl
    obtain ⟨_, _, ho⟩ := hstored.put _ _ hput
    refine ⟨row, key', _, by rw [hserved.requestId, hrow], ?_, ?_, ho, ?_⟩
    · rw [hpending]
      exact hserved.ok
    · rw [hpending]
      rfl
    · obtain ⟨resp, hresp, _, hraw⟩ := hserved.answered.2.ok hserved.ok
      have htruthy := toChatResponse_truthy (hstored.reply _ _ _ _ hresp)
      rw [archivePayload_item, hserved.response, hraw]
      simp [Json.orElse, htruthy]

end Chat

def failClosed : AppConfig := { demoConfig with store := { onFailure := .failClosed } }

lemma failClosed_route : failClosed.route "default" = some demoRoute := by decide

abbrev demoFailClosed : Deployment := installed failClosed (some (.filesystem [])) failClosed_route

def archives : Ev → Bool
  | ⟨.rawPut requestId _, .ok _⟩ => requestId = "a".toList
  | _ => false

lemma did_archive (hp : h.any archives = true) : ∃ payload key, Did h (.rawPut "a" payload) (.ok key) := by
  obtain ⟨e, he, hP⟩ := List.any_eq_true.mp hp
  unfold archives at hP
  split at hP
  · obtain rfl := of_decide_eq_true hP
    exact ⟨_, _, he⟩
  · cases hP

abbrev ServesDemo : List Ev → Program ChatReply → State → Prop :=
  Serves demoFailClosed (demoChat "a" "hi") 1 ⟨0, .chat (demoChat "a" "hi")⟩ (State.initial morning)

theorem durable_archived_call : ∃ h reply s', ServesDemo h (.ret reply) s' ∧ Durable demoFailClosed s' reply := by
  obtain ⟨h, reply, s', hx, hP⟩ := (driver demoFailClosed).exists_exec (Spares demoFailClosed "a")
    (chat demoFailClosed (demoChat "a" "hi")) (State.initial morning) (List.replicate 13 (replies "nope"))
    (t := 1) (k := ⟨0, .chat (demoChat "a" "hi")⟩) (fun h _ _ => h.any archives) (by decide +kernel)
  exact ⟨h, reply, s', hx, (durable_iff_put (c := demoChat "a" "hi") rfl hx).mpr (did_archive hP)⟩

theorem acknowledged_not_durable :
    ∃ h reply s', ServesDemo h (.ret reply) s' ∧ ¬ Durable demoFailClosed s' reply := by
  obtain ⟨h, reply, s', hx, hP⟩ := (driver demoFailClosed).exists_exec (Spares demoFailClosed "a")
    (chat demoFailClosed (demoChat "a" "hi")) (State.initial morning)
    (List.replicate 13 ((replies "nope").failing .unwritten))
    (t := 1) (k := ⟨0, .chat (demoChat "a" "hi")⟩)
    (fun _ reply s' => (s'.row reply.requestId).all fun row => row.rawObjectKey.isNone) (by decide +kernel)
  refine ⟨h, reply, s', hx, ?_⟩
  rintro ⟨row, key, doc, hrow, _, hkey, _⟩
  rw [hrow] at hP
  simp [hkey] at hP

end ShadowProxy

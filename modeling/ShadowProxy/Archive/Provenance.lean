import ShadowProxy.Archive.Payload
import ShadowProxy.Runs

/-! Which chat call an archived payload, and what a handler has read of it, comes from. -/

namespace ShadowProxy

open Effects CandidateHandler

variable {dep : Deployment} {clock : DateTime} {w w' : ProxyWorld dep} {L L' : List (ProxyLabel dep)}
  {l : ProxyLabel dep} {t n : ℕ} {c : ChatCall} {r key : Str} {payload : Json} {record : PendingComparison}

structure SameCall (x y : Json) : Prop where
  request : Json.Agree "request" x y
  primary : Json.Agree "primary_response" x y

lemma SameCall.trans {x y z : Json} (h : SameCall x y) (h' : SameCall y z) : SameCall x z :=
  ⟨h.request.trans h'.request, h.primary.trans h'.primary⟩

lemma sameCall_setItem {x y v : Json} (h : x.setItem "candidate_response" v = .ok y) : SameCall x y where
  request := Json.agree_setItem (by decide) h
  primary := Json.agree_setItem (by decide) h

lemma sameCall_archivePayload (a : PersistArgs) (outcome : PrimaryOutcome) (now : DateTime) :
    SameCall (archivePayload a outcome now) (archivePayload a outcome now) := ⟨rfl, rfl⟩

structure Inserts (L : List (ProxyLabel dep)) (n : ℕ) (c : ChatCall) (record : PendingComparison) : Prop where
  started : Started L n (.chat c)
  insert : Acted L n (.insertPending record) (.ok ())

structure Archives (L : List (ProxyLabel dep)) (n : ℕ) (c : ChatCall) (payload : Json) (key : Str) : Prop where
  started : Started L n (.chat c)
  put : Acted L n (.rawPut c.requestId payload) (.ok key)

lemma Inserts.mono (hi : Inserts L n c record) (hL : L ⊆ L') : Inserts L' n c record :=
  ⟨hi.started.mono hL, hL hi.insert⟩

lemma Archives.mono (ha : Archives L n c payload key) (hL : L ⊆ L') : Archives L' n c payload key :=
  ⟨ha.started.mono hL, hL ha.put⟩

lemma acted_mono {o : Op} {res : Except Exn o.Ret} (ha : Acted L t o res) (hL : L ⊆ L') : Acted L' t o res := hL ha

lemma Outcome.mono {h h' : List Ev} {routeCfg : RouteConfig} {outcome : PrimaryOutcome}
    (ho : Outcome dep c h routeCfg outcome) (hh : h <+: h') : Outcome dep c h' routeCfg outcome :=
  ⟨ho.1, ho.2.mono hh⟩

lemma task_of_insert (h : Run (start dep clock) L w) (ha : Acted L n (.insertPending record) (.ok ())) :
    ∃ c, Inserts L n c record := by
  obtain ⟨task, L₁, hs, _, hspec⟩ := Run.acted_issued h ha
  cases task with
  | chat c => exact ⟨c, hs, ha⟩
  | handle | sweep | startup => exact hspec.elim

lemma Run.row_inserts (h : Run (start dep clock) L w) {row : ComparisonRow} (hrow : w.state.row r = some row) :
    row.requestId = r ∧ ∃ n c, Inserts L n c row.toPendingComparison := by
  obtain ⟨hid, n, ha⟩ := Run.row_inserted h hrow
  exact ⟨hid, n, task_of_insert h ha⟩

structure Records (L : List (ProxyLabel dep)) (n : ℕ) (c : ChatCall) (record : PendingComparison)
    (routeCfg : RouteConfig)
    (receivedAt : DateTime) (outcome : PrimaryOutcome) (action : Option Str) : Prop where
  answered : Outcome dep c (history n L) routeCfg outcome
  archived : ∀ key ∈ record.rawObjectKey, ∃ writtenAt,
    Archives L n c (archivePayload (c.persistArgs dep.requestHash receivedAt routeCfg) outcome writtenAt) key
  record_eq : record = pendingRecord (c.persistArgs dep.requestHash receivedAt routeCfg) outcome
    record.rawObjectKey action

lemma Inserts.records (h : Run (start dep clock) L w) (hi : Inserts L n c record) :
    ∃ routeCfg receivedAt outcome action, Records L n c record routeCfg receivedAt outcome action := by
  obtain ⟨task, L₁, hs, hpre, hspec⟩ := Run.acted_issued h hi.insert
  obtain rfl := Run.started_unique h hs hi.started
  obtain ⟨-, routeCfg, receivedAt, outcome, key, action, hout, harch, rfl⟩ := hspec
  have hh : history n L₁ <+: history n L := history_prefix n hpre
  refine ⟨routeCfg, receivedAt, outcome, action, hout.mono hh, fun k hk => ?_, rfl⟩
  obtain ⟨writtenAt, hd⟩ := harch.put k hk
  exact ⟨writtenAt, hi.started, did_history.mp (hd.mono hh)⟩

lemma Inserts.requestId (h : Run (start dep clock) L w) (hi : Inserts L n c record) :
    record.requestId = c.requestId := by
  obtain ⟨_, _, _, _, hr⟩ := hi.records h
  rw [hr.record_eq]
  rfl

def isPut : Ev → Prop
  | ⟨.rawPut _ _, _⟩ => True
  | _ => False

lemma put_unique (h : Run (start dep clock) L w) (hc : Started L n (.chat c)) {id id' : Str} {p p' : Json}
    {res res' : Except Exn Str} (ha : Acted L n (.rawPut id p) res) (ha' : Acted L n (.rawPut id' p') res') :
    p = p' ∧ res = res' := by
  have he := Run.chat_once h hc (P := isPut) ?_ ha ha' trivial trivial
  · cases he
    exact ⟨rfl, rfl⟩
  · rintro h' o r hspec hp ⟨o', r'⟩ he hpe
    cases o <;> try exact hp
    cases o' <;> try exact hpe
    exact hspec.2.1 _ he _ _ rfl

lemma Archives.unique (h : Run (start dep clock) L w) {c' : ChatCall} {payload' : Json} {key' : Str}
    (ha : Archives L n c payload key) (ha' : Archives L n c' payload' key') :
    c = c' ∧ payload = payload' ∧ key = key' := by
  obtain ⟨hp, hr⟩ := put_unique h ha.started ha.put ha'.put
  exact ⟨Task.chat.inj (Run.started_unique h ha.started ha'.started), hp, Except.ok.inj hr⟩

lemma Archives.key_eq (h : Run (start dep clock) L w) (ha : Archives L n c payload key) :
    ∃ now, key = keyFor now c.requestId := by
  obtain ⟨L₁, L₂, w₁, w₂, rfl, h₁, hs⟩ := Run.split h ha.put
  cases hs with
  | act ht hl => exact ⟨w₁.state.clock, hl⟩

lemma Archives.sameCall (h : Run (start dep clock) L w) (ha : Archives L n c payload key) :
    SameCall payload payload := by
  obtain ⟨task, L₁, hs, _, hspec⟩ := Run.acted_issued h ha.put
  obtain rfl := Run.started_unique h hs ha.started
  obtain ⟨_, _, _, _, _, _, _, _, rfl⟩ := hspec
  exact sameCall_archivePayload _ _ _

def SparesPayloads (L : List (ProxyLabel dep)) (w : ProxyWorld dep) (l : ProxyLabel dep) : Prop :=
  ∀ t id new res, l = .act t ⟨.rawPut id new, res⟩ → RawObject.ofPut new res ≠ none →
    ∀ n c payload key, Archives L n c payload key → dep.locate key = dep.locate (keyFor w.state.clock id) →
      SameCall payload new

structure ReadFrom (L : List (ProxyLabel dep)) (t : ℕ) (key : Str) (doc : Json) (job : CandidateJob) (n : ℕ)
    (c : ChatCall)
    (record : PendingComparison) (payload : Json) : Prop where
  backend : dep.rawBackend ≠ none
  started : Started L t (.handle job)
  inserts : Inserts L n c record
  requestId : record.requestId = job.requestId
  row_key : record.rawObjectKey = some key
  archives : Archives L n c payload key
  sameCall : SameCall payload doc

structure Intact (L : List (ProxyLabel dep)) (w : ProxyWorld dep) : Prop where
  kept : ∀ n c payload key, Archives L n c payload key →
    ∃ obj, w.state.objects (dep.locate key) = some obj ∧ ∀ doc, obj = .payload doc → SameCall payload doc
  read : ∀ t key doc, Acted L t (.rawGet key) (.ok doc) → ∃ job n c record payload,
    ReadFrom L t key doc job n c record payload

lemma intact_start : Intact [] (start dep clock) where
  kept _ _ _ _ ha := nomatch ha.put
  read _ _ _ ha := nomatch ha

lemma ofPut_payload {new doc : Json} {res : Except Exn Str} (h : RawObject.ofPut new res = some (.payload doc)) :
    doc = new := by
  unfold RawObject.ofPut at h
  split at h
  · exact (RawObject.payload.inj (Option.some.inj h)).symm
  · exact (RawObject.payload.inj (Option.some.inj h)).symm
  · cases Option.some.inj h
  · cases h

lemma put_lands {id : Str} (hs : Step w (.act n ⟨.rawPut id payload, .ok key⟩) w') :
    w'.state.objects (dep.locate key) = some (.payload payload) := by
  cases hs with
  | act ht hl =>
    obtain rfl : key = keyFor w.state.clock id := hl
    exact Function.update_self _ _ _

lemma archives_snoc (h : Run (start dep clock) L w) (hs : Step w l w') (ha : Archives (L ++ [l]) n c payload key) :
    Archives L n c payload key ∨ l = .act n ⟨.rawPut c.requestId payload, .ok key⟩ := by
  rcases acted_snoc.mp ha.put with hp | hl
  · obtain ⟨task, _, hst, _, _⟩ := Run.acted_issued h hp
    obtain rfl := Run.started_unique (Run.snoc h hs) (hst.mono (by simp)) ha.started
    exact .inl ⟨hst, hp⟩
  · exact .inr hl

lemma Intact.kept_step (h : Run (start dep clock) L w) (hi : Intact L w) (hs : Step w l w')
    (hp : SparesPayloads L w l) (ha : Archives (L ++ [l]) n c payload key) :
    ∃ obj, w'.state.objects (dep.locate key) = some obj ∧ ∀ doc, obj = .payload doc → SameCall payload doc := by
  rcases archives_snoc h hs ha with hold | rfl
  · have hstep := objectStep hs (dep.locate key)
    generalize w'.state.objects (dep.locate key) = after at hstep
    cases hstep with
    | same => exact hi.kept n c payload key hold
    | @put u id new res obj hloc hobj =>
      refine ⟨obj, rfl, fun doc hdoc => ?_⟩
      obtain rfl := ofPut_payload (hdoc ▸ hobj)
      exact hp u id doc res rfl (by simp [hobj]) n c payload key hold hloc
  · have hsame := ha.sameCall (Run.snoc h hs)
    exact ⟨.payload payload, put_lands hs, fun doc hdoc => RawObject.payload.inj hdoc ▸ hsame⟩

lemma Intact.read_step (h : Run (start dep clock) L w) (hi : Intact L w) {doc : Json}
    (hs : Step w (.act t ⟨.rawGet key, .ok doc⟩) w') :
    ∃ job n c record payload, ReadFrom L t key doc job n c record payload := by
  obtain ⟨task, hst, hspec⟩ := Run.issued h hs
  cases task with
  | chat | sweep | startup => exact hspec.elim
  | handle job =>
    obtain ⟨hb, record, ⟨hfetched, _⟩, hkey⟩ := hspec
    obtain ⟨row, hrow, hp⟩ := Run.get_row h (did_history.mp hfetched)
    obtain ⟨hid, n, c, hins⟩ := Run.row_inserts h hrow
    rw [hp] at hins
    obtain ⟨routeCfg, receivedAt, outcome, action, hrec⟩ := hins.records h
    obtain ⟨writtenAt, harch⟩ := hrec.archived key hkey
    obtain ⟨obj, hobj, hsame⟩ := hi.kept _ _ _ _ harch
    have hlegal : w.state.objects (dep.locate key) = some (.payload doc) := by
      cases hs with
      | act ht hl => exact hl
    rw [hobj] at hlegal
    have hreq : record.requestId = job.requestId := (congrArg PendingComparison.requestId hp).symm.trans hid
    exact ⟨job, n, c, _, _, hb, hst, hins, hreq, hkey, harch, hsame doc (Option.some.inj hlegal)⟩

lemma ReadFrom.mono {doc : Json} {job : CandidateJob} (hr : ReadFrom L t key doc job n c record payload)
    (hL : L ⊆ L') : ReadFrom L' t key doc job n c record payload :=
  { hr with started := hr.started.mono hL, inserts := hr.inserts.mono hL, archives := hr.archives.mono hL }

lemma Intact.step (h : Run (start dep clock) L w) (hi : Intact L w) (hs : Step w l w')
    (hp : SparesPayloads L w l) : Intact (L ++ [l]) w' where
  kept _ _ _ _ ha := hi.kept_step h hs hp ha
  read t key doc ha := by
    rcases acted_snoc.mp ha with hold | rfl
    · obtain ⟨job, n, c, record, payload, hr⟩ := hi.read t key doc hold
      exact ⟨job, n, c, record, payload, hr.mono (by simp)⟩
    · obtain ⟨job, n, c, record, payload, hr⟩ := hi.read_step h hs
      exact ⟨job, n, c, record, payload, hr.mono (by simp)⟩

end ShadowProxy

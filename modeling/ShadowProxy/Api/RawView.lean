import ShadowProxy.Api.Evaluations
import ShadowProxy.Archive.Fidelity
import ShadowProxy.Effects.Counting

/-! What `GET /v1/evaluations/{request_id}/raw` shows of a request, at any moment of a run. -/

namespace ShadowProxy

open Effects Prog CandidateHandler

section Annotated

variable {dep : Deployment} {clock : DateTime} {L : List (ProxyLabel dep)} {w w' : ProxyWorld dep}
  {l : ProxyLabel dep} {n : ℕ} {c : ChatCall} {r key : Str} {payload doc : Json}

def CandidateReplied (L : List (ProxyLabel dep)) (r : Str) (reply : ChatResponse) : Prop :=
  ∃ t job req timeoutS, Started L t (.handle job) ∧ job.requestId = r ∧
    Acted L t (.chatCompletions .candidate req timeoutS) (.ok reply)

lemma CandidateReplied.mono {L' : List (ProxyLabel dep)} {reply : ChatResponse}
    (hr : CandidateReplied L r reply) (hL : L ⊆ L') : CandidateReplied L' r reply := by
  obtain ⟨t, job, req, timeoutS, hst, hid, ha⟩ := hr
  exact ⟨t, job, req, timeoutS, hst.mono hL, hid, hL ha⟩

def Annotation (L : List (ProxyLabel dep)) (r : Str) (doc : Json) : Prop :=
  doc.getItem "candidate_response" = .ok .null ∨
    ∃ reply, CandidateReplied L r reply ∧ doc.getItem "candidate_response" = .ok reply.raw

def Annotated (L : List (ProxyLabel dep)) (w : ProxyWorld dep) : Prop :=
  ∀ n c payload key doc, Archives L n c payload key → w.state.objects (dep.locate key) = some (.payload doc) →
    Annotation L c.requestId doc

lemma Annotation.mono {L' : List (ProxyLabel dep)} (hd : Annotation L r doc) (hL : L ⊆ L') :
    Annotation L' r doc := by
  rcases hd with hnull | ⟨reply, hr, hv⟩
  · exact .inl hnull
  · exact .inr ⟨reply, hr.mono hL, hv⟩

lemma SeparateCalls.overwrites (h : Run (start dep clock) L w) (hsep : SeparateCalls L) {t : ℕ} {id : Str}
    {new : Json} {res : Except Exn Str} (hs : Step w (.act t ⟨.rawPut id new, res⟩) w')
    (ha : Archives L n c payload key) (hloc : dep.locate key = dep.locate (keyFor w.state.clock id)) :
    Annotation L c.requestId new := by
  have hi := hsep.intact h
  obtain ⟨now, rfl⟩ := ha.key_eq h
  obtain ⟨task, hst, hspec⟩ := Run.issued h hs
  cases task with
  | sweep | startup => exact hspec.elim
  | chat c' =>
    obtain ⟨rfl, hfirst, hback, -⟩ := hspec
    obtain ⟨backend, hb⟩ := Option.ne_none_iff_exists'.mp hback
    by_cases hid : c.requestId = c'.requestId
    · obtain rfl := chat_unique hsep.distinct ha.started hst hid
      exact absurd rfl (hfirst _ (did_history.mpr ha.put) _ _)
    · rw [locate_of_backend hb, locate_of_backend hb] at hloc
      exact ((hsep.apart _ (mem_chatIds ha.started) _ (mem_chatIds hst) hid).archive backend hb _ _ hloc).elim
  | handle job =>
    obtain ⟨-, key', doc', reply, -, -, hread, ⟨req, timeoutS, hreply⟩, rfl, hset⟩ := hspec
    obtain ⟨job', n', c', record', payload', hr⟩ := hi.read t key' doc' (did_history.mp hread)
    obtain rfl := Task.handle.inj (Run.started_unique h hst hr.started)
    obtain ⟨backend, hb⟩ := Option.ne_none_iff_exists'.mp hr.backend
    obtain ⟨now', rfl⟩ := hr.archives.key_eq h
    by_cases hid : c'.requestId = c.requestId
    · have hjob : job.requestId = c.requestId := hr.requestId.symm.trans ((hr.inserts.requestId h).trans hid)
      exact .inr ⟨reply, ⟨t, job, req, timeoutS, hst, hjob, did_history.mp hreply⟩, Json.getItem_setItem hset⟩
    · rw [locate_of_backend hb, locate_of_backend hb, requestIdOfKey_keyFor] at hloc
      exact ((hsep.apart _ (mem_chatIds hr.archives.started) _ (mem_chatIds ha.started) hid).merge backend hb _ _
        hloc.symm).elim

lemma Archives.annotated (h : Run (start dep clock) L w) (ha : Archives L n c payload key) :
    Annotation L c.requestId payload := by
  obtain ⟨task, L₁, hst, -, hspec⟩ := Run.acted_issued h ha.put
  obtain rfl := Run.started_unique h hst ha.started
  obtain ⟨-, -, -, routeCfg, receivedAt, outcome, writtenAt, -, rfl⟩ := hspec
  exact .inl archivePayload_candidate

lemma Annotated.step (h : Run (start dep clock) L w) (hsep : SeparateCalls L) (hn : Annotated L w)
    (hs : Step w l w') : Annotated (L ++ [l]) w' := by
  intro n c payload key doc ha hobj
  rcases archives_snoc h hs ha with hold | rfl
  · have hstep := objectStep hs (dep.locate key)
    rw [hobj] at hstep
    generalize hafter : some (RawObject.payload doc) = after at hstep
    cases hstep with
    | same => exact (hn n c payload key doc hold hafter.symm).mono (by simp)
    | @put t id new res obj hloc hput =>
      obtain rfl := ofPut_payload (hput.trans hafter.symm)
      exact (hsep.overwrites h hs hold hloc).mono (by simp)
  · obtain rfl := RawObject.payload.inj (Option.some.inj ((put_lands hs).symm.trans hobj))
    exact ha.annotated (h.snoc hs)

lemma SeparateCalls.annotated (h : Run (start dep clock) L w) (hsep : SeparateCalls L) : Annotated L w := by
  induction h with
  | nil => exact fun _ _ _ _ _ ha => absurd ha.put (by simp [Acted])
  | snoc hr _ hs ih => exact (ih hsep.of_snoc).step hr hsep.of_snoc hs

end Annotated

section Shown

variable {py : Python} {pd : Pydantic}

lemma dictOrNone_reply {reply : ChatResponse} (h : toChatResponse py pd reply.raw = .ok reply) :
    dictOrNone reply.raw = some reply.raw := by
  obtain ⟨_, _, hc⟩ := toChatResponse_ok h
  obtain ⟨_, _, _, hchoices, _⟩ := responseChoice_ok hc
  obtain ⟨ms, hms, -⟩ := getItem_ok hchoices
  rw [hms]
  rfl

lemma get_of_getItem {x v d : Json} {key : Str} (h : x.getItem key = .ok v) : x.get key d = .ok v := by
  obtain ⟨ms, rfl, hv⟩ := getItem_ok h
  simp [Json.get, hv]

def Told (P : ChatResponse → Prop) (shown : Option Json) (text : Option Str) : Prop :=
  shown = none ∧ text = none ∨ ∃ reply, P reply ∧ shown = some reply.raw ∧ Shows reply.content text

lemma told {P : ChatResponse → Prop} {v : Json}
    (hv : v = .null ∨ ∃ reply, P reply ∧ v = reply.raw ∧ toChatResponse py pd reply.raw = .ok reply) :
    ∃ text, extractMessageContent (dictOrNone v) = .ok text ∧ Told P (dictOrNone v) text := by
  rcases hv with rfl | ⟨reply, hP, rfl, hreply⟩
  · exact ⟨none, rfl, .inl ⟨rfl, rfl⟩⟩
  · obtain ⟨text, htext, hs⟩ := extractMessageContent_reply hreply
    rw [dictOrNone_reply hreply]
    exact ⟨text, htext, .inr ⟨reply, hP, rfl, hs⟩⟩

end Shown

section View

variable {dep : Deployment} {clock : DateTime} {L L₁ L₂ : List (ProxyLabel dep)} {w₁ w₂ : ProxyWorld dep} {r : Str}

def Sees (w₁ w₂ : ProxyWorld dep) : Ev → Prop
  | ⟨.get requestId, res⟩ => res = .ok (w₁.state.row requestId)
  | ⟨.rawGet key, res⟩ => ∀ doc, res = .ok doc → w₂.state.objects (dep.locate key) = some (.payload doc)
  | _ => False

def PrimaryReplied (L : List (ProxyLabel dep)) (row : ComparisonRow) (reply : ChatResponse) : Prop :=
  row.primaryStatus = .ok ∧ ∃ n c primary, PrimaryCall L row.requestId n c primary reply

structure RawOut.Truthful (L : List (ProxyLabel dep)) (row : ComparisonRow) (out : RawOut) : Prop where
  primary : Told (PrimaryReplied L row) out.primaryResponse out.primaryContent
  candidate : Told (CandidateReplied L row.requestId) out.candidateResponse out.candidateContent
  complete : out.detail = none → row.primaryStatus = .ok → out.primaryResponse ≠ none

lemma truthful_base {row : ComparisonRow} {detail : Str} :
    RawOut.Truthful L row { RawOut.ofRecord r row with detail := some detail } where
  primary := .inl ⟨rfl, rfl⟩
  candidate := .inl ⟨rfl, rfl⟩
  complete hd := nomatch hd

lemma withPayload_truthful {row : ComparisonRow} {doc p q : Json} (hp : doc.get "primary_response" .null = .ok p)
    (hq : doc.get "candidate_response" .null = .ok q) (hcomplete : row.primaryStatus = .ok → dictOrNone p ≠ none)
    (hprimary : p = .null ∨ ∃ reply, PrimaryReplied L row reply ∧ p = reply.raw ∧
      toChatResponse dep.py dep.pydantic reply.raw = .ok reply)
    (hcandidate : q = .null ∨ ∃ reply, CandidateReplied L row.requestId reply ∧ q = reply.raw ∧
      toChatResponse dep.py dep.pydantic reply.raw = .ok reply) :
    ∃ out, (RawOut.ofRecord r row).withPayload doc = .ok out ∧ RawOut.Truthful L row out := by
  obtain ⟨text, htext, ht⟩ := told hprimary
  obtain ⟨text', htext', ht'⟩ := told hcandidate
  simp only [RawOut.withPayload, hp, hq, Bind.bind, Except.bind, htext, htext']
  exact ⟨_, rfl, ht, ht', fun _ => hcomplete⟩

lemma SeparateCalls.payload_truthful (h₁ : Run (start dep clock) L₁ w₁)
    (h₂ : Run (start dep clock) (L₁ ++ L₂) w₂) (hsep : SeparateCalls (L₁ ++ L₂)) {row : ComparisonRow}
    (hrow : w₁.state.row r = some row) {key : Str} (hkey : row.rawObjectKey = some key) {doc : Json}
    (hobj : w₂.state.objects (dep.locate key) = some (.payload doc)) :
    ∃ out, (RawOut.ofRecord r row).withPayload doc = .ok out ∧ RawOut.Truthful (L₁ ++ L₂) row out := by
  have hi := hsep.intact h₂
  obtain ⟨-, n, c, hins₁⟩ := Run.row_inserts h₁ hrow
  have hins := hins₁.mono (List.subset_append_left L₁ L₂)
  obtain ⟨routeCfg, receivedAt, outcome, action, hrec⟩ := hins.records h₂
  obtain ⟨writtenAt, harch⟩ := hrec.archived key hkey
  obtain ⟨obj, hobj', hsame⟩ := hi.kept _ _ _ _ harch
  have hcall := hsame doc (Option.some.inj (hobj'.symm.trans hobj))
  have hid : row.requestId = c.requestId := hins.requestId h₂
  have hp : doc.get "primary_response" .null = .ok (outcome.raw.getD .null) := (hcall.primary.get _).symm.trans rfl
  have hcandidate : ∃ q, doc.get "candidate_response" .null = .ok q ∧ (q = .null ∨ ∃ reply,
      CandidateReplied (L₁ ++ L₂) row.requestId reply ∧ q = reply.raw ∧
      toChatResponse dep.py dep.pydantic reply.raw = .ok reply) := by
    rcases hsep.annotated h₂ _ _ _ _ doc harch hobj with hnull | ⟨reply, hreply, hv⟩
    · exact ⟨_, get_of_getItem hnull, .inl rfl⟩
    · obtain ⟨t, job, req, timeoutS, hst, hjob, ha⟩ := hreply
      exact ⟨_, get_of_getItem hv, .inr ⟨reply, ⟨t, job, req, timeoutS, hst, hjob.trans hid.symm, ha⟩, rfl,
        reply_legal h₂ ha⟩⟩
  obtain ⟨q, hq, hcandidate⟩ := hcandidate
  by_cases hok : row.primaryStatus = .ok
  · obtain ⟨reply, hpc, hraw⟩ := hins.primaryCall h₂ hrec hok
    obtain ⟨timeoutS, ha⟩ := hpc.replied
    have hlegal := reply_legal h₂ ha
    rw [hraw, Option.getD_some] at hp
    refine withPayload_truthful hp hq (fun _ => ?_) (.inr ⟨reply, ⟨hok, n, c, _, hpc⟩, rfl, hlegal⟩) hcandidate
    rw [dictOrNone_reply hlegal]
    simp
  · have hfailed : outcome.status ≠ .ok := fun hs =>
      hok ((congrArg PendingComparison.primaryStatus hrec.record_eq).trans hs)
    rw [hrec.answered.2.failed hfailed, Option.getD_none] at hp
    exact withPayload_truthful hp hq (fun ho => absurd ho hok) (.inl rfl) hcandidate

theorem raw_view_truthful (h₁ : Run (start dep clock) L₁ w₁) (h₂ : Run (start dep clock) (L₁ ++ L₂) w₂)
    (hsep : SeparateCalls (L₁ ++ L₂)) (unavailable : Exn → Str) (r : Str) :
    Concludes (Sees w₁ w₂) [] (getEvaluationRaw dep unavailable r) fun _ res => match w₁.state.row r with
      | none => res = .error (.http 404 "Not found")
      | some row => ∃ out, res = .ok out ∧ RawOut.Truthful (L₁ ++ L₂) row out := by
  refine (concludes_bind _ _).mpr ((Effects.concludes_perform _).mpr ?_)
  rintro res (rfl : res = _)
  cases hrow : w₁.state.row r with
  | none => rfl
  | some row =>
    dsimp only
    split
    · exact ⟨_, rfl, truthful_base⟩
    · rename_i backend ch key hb hkey
      refine (concludes_bind _ _).mpr ((concludes_attempt _).mpr ((Effects.concludes_perform _).mpr ?_))
      intro res hsees
      cases res with
      | error e => exact ⟨_, rfl, truthful_base⟩
      | ok doc =>
        obtain ⟨out, hout, ht⟩ := hsep.payload_truthful h₁ h₂ hrow hkey (hsees doc rfl)
        exact (concludes_orRaise _).mpr ⟨out, hout, ht⟩
    · exact ⟨_, rfl, truthful_base⟩

def mergedShadow : List (DemoCommand (some (.filesystem []))) :=
  boot 0 ++ begin 1 (.chat (demoChat "a" "hi")) ++ acts 13 1 (replies buy) ++ begin 2 (.handle ⟨"a", 1⟩) ++
    acts 12 2 (replies buy)

def showsCandidate (w : ProxyWorld disk) : Bool :=
  match w.state.row "a" with
  | some row =>
    match row.rawObjectKey with
    | some key =>
      match w.state.objects (disk.locate key) with
      | some (.payload doc) =>
        match doc.getItem "candidate_response" with
        | .ok (.obj _) => true
        | _ => false
      | _ => false
    | none => false
  | none => false

theorem raw_view_truthful_merged : ∃ (L : List (ProxyLabel disk)) (w : ProxyWorld disk),
    Run (start disk morning) L w ∧ showsCandidate w = true ∧
      Concludes (Sees w w) [] (getEvaluationRaw disk (fun _ => "raw payload unavailable") "a") fun _ res =>
        match w.state.row "a" with
        | none => res = .error (.http 404 "Not found")
        | some row => ∃ out, res = .ok out ∧ RawOut.Truthful L row out := by
  obtain ⟨L, w, h, hP⟩ := (driver disk).exists_free_run (start disk morning) mergedShadow
    (fun L w => showsCandidate w && chatIds L = ["a".toList]) (by decide +kernel)
  simp only [Bool.and_eq_true, decide_eq_true_eq] at hP
  have happ : L ++ [] = L := List.append_nil L
  have h' : Run (start disk morning) (L ++ []) w := happ.symm ▸ h
  have hview := raw_view_truthful h h' (happ.symm ▸ separateCalls_one hP.2)
    (fun _ => "raw payload unavailable") "a"
  rw [happ] at hview
  exact ⟨L, w, h, hP.1, hview⟩

end View

end ShadowProxy

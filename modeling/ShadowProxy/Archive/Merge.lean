import ShadowProxy.Archive.Payload
import ShadowProxy.Effects.Alone
import ShadowProxy.Scenario

/-! Which object a merge writes. -/

namespace ShadowProxy

open Effects CandidateHandler Data

section Merge

variable (dep : Deployment)

def mergeSpec (key : Str) (resp : Json) (h : List Ev) : Op → Prop
  | .rawGet k => k = key
  | .rawPut requestId payload => (∀ e ∈ h, ∀ id p, e.op ≠ .rawPut id p) ∧ requestId = requestIdOfKey key ∧
      ∃ doc, Did h (.rawGet key) (.ok doc) ∧ doc.setItem "candidate_response" resp = .ok payload
  | _ => False

structure MergedInPlace (key : Str) (doc resp : Json) (s s' : State) : Prop where
  merged : ∃ payload, doc.setItem "candidate_response" resp = .ok payload ∧
    s'.objects (dep.locate key) = some (.payload payload)
  others : ∀ loc, loc ≠ dep.locate key → s'.objects loc = s.objects loc

abbrev Merges (t : ℕ) (k : Kind) (key : Str) (resp : Json) : State → List Ev → Program Unit → State → Prop :=
  Exec (S := system dep) (fun s s' => s'.objects = s.objects) t k (mergeCandidateIntoRaw dep (some key) resp)

end Merge

variable {dep : Deployment} {t : ℕ} {k : Kind} {key : Str} {s s₁ : State} {h : List Ev}

lemma obeys_merge (key : Str) (resp : Json) :
    Obeys (mergeSpec key resp) [] (mergeCandidateIntoRaw dep (some key) resp)
    (fun _ _ => True) fun _ _ => True := by
  refine (obeys_mergeCandidateIntoRaw (fun _ _ => trivial) ?_ ?_).mono (fun _ _ _ _ => trivial) fun _ _ _ _ =>
    trivial
  · intro _ key' hk
    exact (Option.mem_some.mp hk).symm
  · intro key' hk doc payload hp
    obtain rfl := Option.mem_some.mp hk
    exact ⟨by simp, rfl, doc, by simp [Did], hp⟩

def OnlyRead (dep : Deployment) (key : Str) (s₀ : State) (h : List Ev) (s : State) : Prop :=
  (∀ e ∈ h, ∀ id p, e.op ≠ .rawPut id p) → s.objects = s₀.objects ∧
    ∀ doc, Did h (.rawGet key) (.ok doc) → s₀.objects (dep.locate key) = some (.payload doc)

lemma OnlyRead.op {resp : Json} {s₀ : State} {o : Op} {r : Except Exn o.Ret} (hr : OnlyRead dep key s₀ h s)
    (hJ : mergeSpec key resp h o) (hl : legal dep k s o r) :
    OnlyRead dep key s₀ (h ++ [⟨o, r⟩]) (after dep t k s o r) := by
  intro hno
  have hold : ∀ e ∈ h, ∀ id p, e.op ≠ .rawPut id p := fun e he => hno e (List.mem_append_left _ he)
  cases o with
  | rawGet key' =>
    obtain rfl : key' = key := hJ
    have hafter : after dep t k s (.rawGet key') r = s := by cases r <;> rfl
    rw [hafter]
    refine ⟨(hr hold).1, fun doc hd => ?_⟩
    rcases did_snoc.mp hd with hd | he
    · exact (hr hold).2 doc hd
    · cases he
      rw [← (hr hold).1]
      exact hl
  | rawPut id p => exact (hno ⟨.rawPut id p, r⟩ (by simp) id p rfl).elim
  | _ => exact hJ.elim

lemma Merges.before_put {resp payload : Json} {id : Str} {f : Except Exn Str → Program Unit}
    (hm : Merges dep t k key resp s h (.op (.rawPut id payload) f) s₁) : s₁.objects = s.objects ∧
      id = requestIdOfKey key ∧ ∃ doc, s.objects (dep.locate key) = some (.payload doc) ∧
        doc.setItem "candidate_response" resp = .ok payload := by
  have hread := hm.invariant (P := OnlyRead dep key s) (obeys_merge key resp)
    (fun _ => ⟨rfl, fun _ hd => nomatch hd⟩)
    (fun _ _ _ _ hr hJ hl => hr.op hJ hl) fun h s s' hr he hno => ⟨he.trans (hr hno).1, (hr hno).2⟩
  obtain ⟨hno, hid, doc, hd, hp⟩ := (hm.obeys (obeys_merge key resp)).1
  exact ⟨(hread hno).1, hid, doc, (hread hno).2 doc hd, hp⟩

lemma objects_after_put (dep : Deployment) (t : ℕ) (k : Kind) (s : State) (payload : Json) (id newKey : Str) :
    (after dep t k s (.rawPut id payload) (.ok newKey)).objects =
      Function.update s.objects (dep.locate (keyFor s.clock id)) (some (.payload payload)) := rfl

lemma not_mergedInPlace {doc resp : Json} {s' : State} (hobj : s'.objects (dep.locate key) = some (.payload doc))
    (hnull : doc.getItem "candidate_response" = .ok .null) (hresp : resp.truthy = true) :
    ¬ MergedInPlace dep key doc resp s s' := by
  rintro ⟨⟨payload, hset, hnew⟩, _⟩
  obtain rfl := RawObject.payload.inj (Option.some.inj (hobj.symm.trans hnew))
  obtain rfl := Except.ok.inj (hnull.symm.trans (Json.getItem_setItem hset))
  cases hresp

theorem merged_in_place_iff {backend : RawBackend} (hb : dep.rawBackend = some backend) {a : PersistArgs}
    {outcome : PrimaryOutcome} {t₀ writtenAt : DateTime} {resp : ChatResponse} {payload : Json} {id newKey : Str}
    {f : Except Exn Str → Program Unit}
    (hobj : s.objects (dep.locate (keyFor t₀ a.requestId)) = some (.payload (archivePayload a outcome writtenAt)))
    (hresp : toChatResponse dep.py dep.pydantic resp.raw = .ok resp)
    (hm : Merges dep t k (keyFor t₀ a.requestId) resp.raw s h (.op (.rawPut id payload) f) s₁)
    (hput : legal dep k s₁ (.rawPut id payload) (.ok newKey)) :
    MergedInPlace dep (keyFor t₀ a.requestId) (archivePayload a outcome writtenAt) resp.raw s
        (after dep t k s₁ (.rawPut id payload) (.ok newKey)) ↔
      backend.locate (keyFor s₁.clock (Path.afterLast a.requestId)) = backend.locate (keyFor t₀ a.requestId) := by
  obtain ⟨hobjects, rfl, doc, hdoc, hset⟩ := Merges.before_put hm
  obtain rfl := RawObject.payload.inj (Option.some.inj (hobj.symm.trans hdoc))
  have hloc : ∀ key, dep.locate key = backend.locate key := fun key => by simp [Deployment.locate, hb]
  have hafter := objects_after_put dep t k s₁ payload (requestIdOfKey (keyFor t₀ a.requestId)) newKey
  rw [requestIdOfKey_keyFor, hobjects, hloc] at hafter
  constructor
  · intro hmerged
    by_contra hne
    refine not_mergedInPlace ?_ archivePayload_candidate (toChatResponse_truthy hresp) hmerged
    rw [requestIdOfKey_keyFor, hafter, hloc, Function.update_of_ne (Ne.symm hne), ← hloc, hobj]
  · intro heq
    refine ⟨⟨payload, hset, ?_⟩, fun loc hne => ?_⟩
    · rw [requestIdOfKey_keyFor, hafter, hloc, heq, Function.update_self]
    · rw [requestIdOfKey_keyFor, hafter, heq, Function.update_of_ne (by rwa [← hloc])]

lemma same_object_plain (backend : RawBackend) {t₀ t₁ : DateTime} {id : Str} (hid : PlainId id) :
    backend.locate (keyFor t₁ (Path.afterLast id)) = backend.locate (keyFor t₀ id) ↔ t₁.date = t₀.date := by
  rw [Path.afterLast_of_notMem hid, locate_plain_inj backend hid hid]
  simp

lemma merge_reaches_put {backend : RawBackend} (hb : dep.rawBackend = some backend) {t₀ : DateTime} {id : Str}
    {doc resp payload : Json} (hobj : s.objects (dep.locate (keyFor t₀ id)) = some (.payload doc))
    (hset : doc.setItem "candidate_response" resp = .ok payload) :
    ∃ f, Merges dep t k (keyFor t₀ id) resp s [⟨.rawGet (keyFor t₀ id), .ok doc⟩]
      (.op (.rawPut (requestIdOfKey (keyFor t₀ id)) payload) f) s := by
  obtain ⟨g, hprog, f, hg⟩ : ∃ g, mergeCandidateIntoRaw dep (some (keyFor t₀ id)) resp =
    .op (.rawGet (keyFor t₀ id)) g ∧
      ∃ f, g (.ok doc) = .op (.rawPut (requestIdOfKey (keyFor t₀ id)) payload) f := by
    obtain ⟨c, key, hkey⟩ : ∃ c key, keyFor t₀ id = c :: key := ⟨_, _, rfl⟩
    rw [hkey]
    simp only [mergeCandidateIntoRaw, hb]
    refine ⟨_, rfl, ?_⟩
    simp only [Prog.attempt, Prog.bind, hset, Prog.orRaise, Prog.ret_bind]
    exact ⟨_, rfl⟩
  have hx : Merges dep t k (keyFor t₀ id) resp s [] (.op (.rawGet (keyFor t₀ id)) g) s := by
    rw [← hprog]
    exact .start
  exact ⟨f, hg ▸ hx.op hobj⟩

def demoArgs : PersistArgs := (demoChat "a" "hi").persistArgs disk.requestHash morning demoRoute

def demoOutcome : PrimaryOutcome where
  status := .ok
  latencyMs := 0
  content := "nope"
  raw := some (demoReply "nope").raw

def demoPayload : Json := archivePayload demoArgs demoOutcome morning

def archivedState (now : DateTime) : State :=
  (State.initial now).write (disk.locate (keyFor morning "a")) (some (.payload demoPayload))

lemma archivedState_object (now : DateTime) :
    (archivedState now).objects (disk.locate (keyFor morning "a")) = some (.payload demoPayload) := by
  simp [archivedState, State.write]

def mergedPayload : Json := .obj [
  ("request", demoArgs.requestBody),
  ("primary_model", .str demoArgs.primaryModel),
  ("candidate_model", .str demoArgs.candidateModel),
  ("primary_response", (demoReply "nope").raw),
  ("candidate_response", (demoReply "yes").raw),
  ("written_at", .str morning.isoformat)]

lemma demoPayload_setItem : demoPayload.setItem "candidate_response" (demoReply "yes").raw = .ok mergedPayload :=
  rfl

abbrev MergesDemo (now : DateTime) : List Ev → Program Unit → State → Prop :=
  Merges disk 2 ⟨0, .handle ⟨"a", 1⟩⟩ (keyFor morning "a") (demoReply "yes").raw (archivedState now)

abbrev putMerged (now : DateTime) : State :=
  after disk 2 ⟨0, .handle ⟨"a", 1⟩⟩ (archivedState now) (.rawPut "a" mergedPayload) (.ok (keyFor now "a"))

theorem merged_in_place_same_day :
    ∃ h f, MergesDemo anHourLater h (.op (.rawPut "a" mergedPayload) f) (archivedState anHourLater) ∧
    MergedInPlace disk (keyFor morning "a") demoPayload (demoReply "yes").raw (archivedState anHourLater)
      (putMerged anHourLater) := by
  obtain ⟨f, hf⟩ := merge_reaches_put rfl (archivedState_object anHourLater) demoPayload_setItem
  refine ⟨_, f, hf, ?_⟩
  exact (merged_in_place_iff (a := demoArgs) rfl (archivedState_object anHourLater) (demoReply_legal "yes")
    hf rfl).mpr
    ((same_object_plain _ (by decide)).mpr rfl)

theorem merged_elsewhere_next_day :
    ∃ h f, MergesDemo nextDay h (.op (.rawPut "a" mergedPayload) f) (archivedState nextDay) ∧
    legal disk ⟨0, .handle ⟨"a", 1⟩⟩ (archivedState nextDay) (.rawPut "a" mergedPayload)
    (.ok (keyFor nextDay "a")) ∧
    ¬ MergedInPlace disk (keyFor morning "a") demoPayload (demoReply "yes").raw (archivedState nextDay)
    (putMerged nextDay) := by
  obtain ⟨f, hf⟩ := merge_reaches_put (t := 2) (k := ⟨0, .handle ⟨"a", 1⟩⟩) rfl (archivedState_object nextDay)
    demoPayload_setItem
  refine ⟨_, f, hf, rfl, not_mergedInPlace ?_ rfl rfl⟩
  rw [putMerged, objects_after_put, Function.update_of_ne (by decide), archivedState_object]

end ShadowProxy

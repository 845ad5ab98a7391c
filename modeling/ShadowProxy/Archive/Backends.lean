import ShadowProxy.Api.RawView
import ShadowProxy.Archive.Isolation
import ShadowProxy.Archive.Rehydration
import ShadowProxy.Effects.Lockstep

/-! The archive on a file system and the archive in a bucket: with ids that have no slash the proxy does the
same on both. -/

namespace ShadowProxy

open Effects CandidateHandler

def Deployment.onRaw (dep : Deployment) (backend : RawBackend) : Deployment :=
  { dep with rawBackend := some backend }

section Programs

variable (dep : Deployment) (b b' : RawBackend)

lemma loadRequestBody_onRaw (key : Option Str) :
    loadRequestBody (dep.onRaw b) key = loadRequestBody (dep.onRaw b') key := by
  rcases key with _ | _ | ⟨c, key⟩ <;> rfl

lemma mergeCandidateIntoRaw_onRaw (key : Option Str) (resp : Json) :
    mergeCandidateIntoRaw (dep.onRaw b) key resp = mergeCandidateIntoRaw (dep.onRaw b') key resp := by
  rcases key with _ | _ | ⟨c, key⟩ <;> rfl

lemma evaluateReply_onRaw (r : Str) (record : ComparisonRow) (body : Json) (start : ℚ) (resp : ChatResponse) :
    evaluateReply (dep.onRaw b) r record body start resp =
      evaluateReply (dep.onRaw b') r record body start resp := by
  unfold evaluateReply
  rw [mergeCandidateIntoRaw_onRaw dep b b']
  rfl

lemma shadow_onRaw (r : Str) (record : ComparisonRow) :
    shadow (dep.onRaw b) r record = shadow (dep.onRaw b') r record := by
  have hroute : CandidateHandler.route (dep.onRaw b) = CandidateHandler.route (dep.onRaw b') := rfl
  have hrebuild : rebuildRequest (dep.onRaw b) = rebuildRequest (dep.onRaw b') := rfl
  unfold shadow
  rw [loadRequestBody_onRaw dep b b', hroute, hrebuild]
  congr 1
  funext body
  congr 1
  funext req
  congr 1
  funext start
  congr 1
  funext res
  cases res with
  | ok resp => exact evaluateReply_onRaw dep b b' r record body start resp
  | error e => cases e <;> rfl

lemma taskProgram_onRaw (task : Task) : taskProgram (dep.onRaw b) task = taskProgram (dep.onRaw b') task := by
  cases task with
  | chat | sweep | startup => rfl
  | handle job => simp only [taskProgram, call, shadow_onRaw dep b b']

end Programs

section Alike

variable {dep : Deployment} {b b' : RawBackend} {s u : State} {k : Kind} {t : ℕ} {o : Op}

structure SameButFiles (b b' : RawBackend) (s u : State) : Prop where
  clock : u.clock = s.clock
  rows : u.rows = s.rows
  procs : u.procs = s.procs
  objects : ∀ time id, PlainId id → u.objects (b'.locate (keyFor time id)) = s.objects (b.locate (keyFor time id))

def PlainEvent : Ev → Prop
  | ⟨.rawPut id _, _⟩ => PlainId id
  | ⟨.rawGet key, _⟩ => ∃ time id, PlainId id ∧ key = keyFor time id
  | _ => True

lemma SameButFiles.write (h : SameButFiles b b' s u) {time : DateTime} {id : Str} (hid : PlainId id)
    (obj : Option RawObject) :
    SameButFiles b b' (s.write (b.locate (keyFor time id)) obj) (u.write (b'.locate (keyFor time id)) obj) := by
  cases obj with
  | none => exact h
  | some obj =>
    refine ⟨h.clock, h.rows, h.procs, fun time' id' hid' => ?_⟩
    have hiff : b'.locate (keyFor time' id') = b'.locate (keyFor time id) ↔
        b.locate (keyFor time' id') = b.locate (keyFor time id) :=
      (locate_plain_inj b' hid' hid).trans (locate_plain_inj b hid' hid).symm
    by_cases he : b.locate (keyFor time' id') = b.locate (keyFor time id)
    · simp only [State.write, he, hiff.mpr he, Function.update_self]
    · simp only [State.write, Function.update_of_ne he, Function.update_of_ne (mt hiff.mp he)]
      exact h.objects time' id' hid'

lemma SameButFiles.legal (h : SameButFiles b b' s u) {res : Except Exn o.Ret} (hp : PlainEvent ⟨o, res⟩)
    (hl : legal (dep.onRaw b) k s o res) : ShadowProxy.legal (dep.onRaw b') k u o res := by
  obtain ⟨clock, rows, objects, procs⟩ := s
  obtain ⟨clock', rows', objects', procs'⟩ := u
  obtain ⟨rfl, rfl, rfl, hobjects⟩ := h
  cases o
  case rawGet key =>
    cases res with
    | error e => trivial
    | ok doc =>
      obtain ⟨time, id, hid, rfl⟩ := hp
      exact (hobjects time id hid).trans hl
  all_goals
    cases res <;> exact hl

lemma SameButFiles.after (h : SameButFiles b b' s u) {res : Except Exn o.Ret} (hp : PlainEvent ⟨o, res⟩) :
    SameButFiles b b' (ShadowProxy.after (dep.onRaw b) t k s o res)
      (ShadowProxy.after (dep.onRaw b') t k u o res) := by
  cases o
  case rawPut id payload =>
    have hclock := h.clock
    simp only [ShadowProxy.after, hclock]
    exact h.write hp _
  all_goals
    obtain ⟨clock, rows, objects, procs⟩ := s
    obtain ⟨clock', rows', objects', procs'⟩ := u
    obtain ⟨rfl, rfl, rfl, hobjects⟩ := h
    cases res <;> exact ⟨rfl, rfl, rfl, hobjects⟩

end Alike

section Backends

variable {dep : Deployment} {b b' : RawBackend} {clock : DateTime}

def backends (dep : Deployment) (b b' : RawBackend) : Likeness (system (dep.onRaw b)) (system (dep.onRaw b')) where
  kind := fun k => k
  env := fun e => e
  alike := SameButFiles b b'
  program := fun k => (taskProgram_onRaw dep b b' k.task).symm
  site := fun _ => rfl

lemma backends_keeps : (backends dep b b').Keeps PlainEvent where
  spawn {s u k} h hc := by
    obtain ⟨clock, rows, objects, procs⟩ := s
    obtain ⟨clock', rows', objects', procs'⟩ := u
    obtain ⟨rfl, rfl, rfl, hobjects⟩ := h
    obtain ⟨x, task⟩ := k
    cases task <;> exact ⟨hc, rfl, rfl, rfl, hobjects⟩
  act h hp hl := ⟨h.legal hp hl, h.after hp⟩
  exit {s u k} h := by
    obtain ⟨clock, rows, objects, procs⟩ := s
    obtain ⟨clock', rows', objects', procs'⟩ := u
    obtain ⟨rfl, rfl, rfl, hobjects⟩ := h
    obtain ⟨x, task⟩ := k
    cases task <;> exact ⟨rfl, rfl, rfl, hobjects⟩
  env {s u e} h hc := by
    obtain ⟨clock, rows, objects, procs⟩ := s
    obtain ⟨clock', rows', objects', procs'⟩ := u
    obtain ⟨rfl, rfl, rfl, hobjects⟩ := h
    cases e <;> exact ⟨hc, rfl, rfl, rfl, hobjects⟩
  crash {s u x} h := by
    obtain ⟨clock, rows, objects, procs⟩ := s
    obtain ⟨clock', rows', objects', procs'⟩ := u
    obtain ⟨rfl, rfl, rfl, hobjects⟩ := h
    exact ⟨rfl, rfl, rfl, hobjects⟩

def PlainCalls (L : List (ProxyLabel dep)) : Prop := ∀ t c, Started L t (.chat c) → PlainId c.requestId

lemma shadowed_key {L : List (ProxyLabel dep)} {w : ProxyWorld dep} {t : ℕ} {job : CandidateJob}
    {record : ComparisonRow} {key : Str} (h : Run (start dep clock) L w) (hplain : PlainCalls L)
    (hsh : Shadowed (history t L) job.requestId record) (hkey : record.rawObjectKey = some key) :
    ∃ time id, PlainId id ∧ key = keyFor time id := by
  obtain ⟨n, c, hins, -⟩ := fetched_inserts h hsh.1
  obtain ⟨routeCfg, receivedAt, outcome, action, hrec⟩ := hins.records h
  obtain ⟨writtenAt, harch⟩ := hrec.archived key hkey
  obtain ⟨now, rfl⟩ := harch.key_eq h
  exact ⟨now, c.requestId, hplain n c hins.started, rfl⟩

lemma PlainCalls.event {L : List (ProxyLabel dep)} {w w' : ProxyWorld dep} {t : ℕ} {e : Ev} (hplain : PlainCalls L)
    (h : Run (start dep clock) L w) (hs : Step w (.act t e) w') : PlainEvent e := by
  obtain ⟨o, r⟩ := e
  obtain ⟨task, hst, hspec⟩ := Run.issued h hs
  cases o
  case rawPut id payload =>
    cases task with
    | chat c =>
      obtain rfl := hspec.1
      exact hplain t c hst
    | handle job =>
      obtain ⟨record, key, doc, resp, hsh, hkey, -, -, rfl, -⟩ := hspec
      obtain ⟨time, id, hid, rfl⟩ := shadowed_key h hplain hsh hkey
      exact (requestIdOfKey_plain time hid).symm ▸ hid
    | sweep | startup => exact hspec.elim
  case rawGet key =>
    cases task with
    | handle job =>
      obtain ⟨-, record, hsh, hkey⟩ := hspec
      exact shadowed_key h hplain hsh hkey
    | chat | sweep | startup => exact hspec.elim
  all_goals trivial

lemma RunWhere.plainCalls {L : List (ProxyLabel dep)} {w : ProxyWorld dep}
    (h : RunWhere (fun L _ l => PlainCalls (L ++ [l])) (start dep clock) L w) : PlainCalls L := by
  cases h with
  | nil =>
    rintro t c ⟨x, hx⟩
    cases hx
  | snoc _ hc _ => exact hc

lemma PlainCalls.runWhere {L : List (ProxyLabel dep)} {w : ProxyWorld dep} (h : Run (start dep clock) L w)
    (hplain : PlainCalls L) : RunWhere (fun L _ l => PlainCalls (L ++ [l])) (start dep clock) L w := by
  induction h with
  | nil => exact .nil
  | snoc _ _ hs ih => exact .snoc (ih fun t c hst => hplain t c (hst.mono (by simp))) hplain hs

theorem backends_interchangeable {L : List (ProxyLabel (dep.onRaw b))} {w : ProxyWorld (dep.onRaw b)}
    (h : Run (start (dep.onRaw b) clock) L w) (hplain : PlainCalls L) :
    ∃ v : ProxyWorld (dep.onRaw b'), Run (start (dep.onRaw b') clock) (L.map (backends dep b b').label) v ∧
      SameButFiles b b' w.state v.state ∧ ∀ t, v.threads t = (w.threads t).map (backends dep b b').thread := by
  have hstart : (backends dep b b').Matches (start (dep.onRaw b) clock) (start (dep.onRaw b') clock) :=
    ⟨⟨rfl, rfl, rfl, fun _ _ _ => rfl⟩, fun _ => rfl, rfl⟩
  obtain ⟨v, hv, hm⟩ := backends_keeps.run hstart (hplain.runWhere h) fun hr _ hs t e he =>
    (RunWhere.plainCalls hr).event hr.run (he ▸ hs)
  exact ⟨v, hv, hm.state, hm.threads⟩

lemma plainCalls_one {L : List (ProxyLabel dep)} {r : Str} (hL : chatIds L = [r]) (hr : PlainId r) :
    PlainCalls L := by
  intro t c hst
  have hmem := mem_chatIds hst
  rw [hL] at hmem
  exact List.mem_singleton.mp hmem ▸ hr

theorem backends_interchangeable_bucket :
    ∃ (L : List (ProxyLabel disk)) (w : ProxyWorld disk) (v : ProxyWorld (demo (some .spaces))),
    Run (start disk morning) L w ∧
    Run (start (demo (some .spaces)) morning) (L.map (backends (demo none) (.filesystem []) .spaces).label) v ∧
      v.state.rows = w.state.rows ∧ v.state.objects [keyFor morning "a"] =
      w.state.objects (disk.locate (keyFor morning "a")) ∧
      ∃ doc, v.state.objects [keyFor morning "a"] = some (.payload doc) ∧
        doc.get "request" (.obj []) = .ok (demoChat "a" "hi").body.modelDump := by
  obtain ⟨L, w, h, hP⟩ := (driver disk).exists_free_run (start disk morning) mergedShadow
    (fun L w => (w.state.objects (disk.locate (keyFor morning "a"))).any (holdsRequest (demoChat "a" "hi").body) &&
      chatIds L = ["a".toList]) (by decide +kernel)
  simp only [Bool.and_eq_true, Option.any_eq_true, decide_eq_true_eq] at hP
  obtain ⟨⟨obj, hobj, hdoc⟩, hids⟩ := hP
  obtain ⟨v, hv, hsame, -⟩ := @backends_interchangeable (demo none) (.filesystem []) .spaces morning L w h
    (plainCalls_one hids (by decide))
  have heq := hsame.objects morning "a" (by decide)
  cases obj with
  | torn => cases hdoc
  | payload doc => exact ⟨L, w, v, h, hv, hsame.rows, heq, doc, heq.trans hobj, of_decide_eq_true hdoc⟩

end Backends

end ShadowProxy

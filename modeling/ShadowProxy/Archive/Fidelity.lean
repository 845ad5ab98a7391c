import ShadowProxy.Archive.Rehydration
import ShadowProxy.Scenario

/-! Whether the candidate is asked what the primary was asked, and judged against what it replied. -/

namespace ShadowProxy

open Effects CandidateHandler Data

variable {dep : Deployment} {clock : DateTime} {w w' : ProxyWorld dep} {L : List (ProxyLabel dep)}
  {l : ProxyLabel dep}

structure Apart (dep : Deployment) (i j : Str) : Prop where
  archive : ∀ backend ∈ dep.rawBackend, ∀ t t', backend.locate (keyFor t i) ≠ backend.locate (keyFor t' j)
  merge : ∀ backend ∈ dep.rawBackend, ∀ t t',
    backend.locate (keyFor t (Path.afterLast i)) ≠ backend.locate (keyFor t' j)

lemma apart_plain {i j : Str} (hi : PlainId i) (hj : PlainId j) (hne : i ≠ j) : Apart dep i j where
  archive backend _ t t' he := hne ((locate_plain_inj backend hi hj).mp he).2
  merge backend _ t t' he := by
    rw [Path.afterLast_of_notMem hi] at he
    exact hne ((locate_plain_inj backend hi hj).mp he).2

lemma apart_bucket {i j : Str} (hb : dep.rawBackend = some .spaces) (hne : i ≠ j) (hlast : Path.afterLast i ≠ j) :
    Apart dep i j where
  archive backend hm t t' he := by
    obtain rfl := Option.some.inj (hb.symm.trans hm)
    exact hne (keyFor_inj.mp (List.cons.inj he).1).2
  merge backend hm t t' he := by
    obtain rfl := Option.some.inj (hb.symm.trans hm)
    exact hlast (keyFor_inj.mp (List.cons.inj he).1).2

structure SeparateCalls (L : List (ProxyLabel dep)) : Prop where
  distinct : (chatIds L).Nodup
  apart : ∀ i ∈ chatIds L, ∀ j ∈ chatIds L, i ≠ j → Apart dep i j

lemma SeparateCalls.of_snoc (hs : SeparateCalls (L ++ [l])) : SeparateCalls L := by
  have happ : chatIds (L ++ [l]) = chatIds L ++ chatIds [l] := List.filterMap_append
  constructor
  · exact List.Nodup.of_append_left (happ ▸ hs.distinct)
  · intro i hi j hj
    apply hs.apart i ?_ j
    · rw [happ]
      exact List.mem_append_left _ hj
    · rw [happ]
      exact List.mem_append_left _ hi

lemma locate_of_backend {backend : RawBackend} (hb : dep.rawBackend = some backend) (key : Str) :
    dep.locate key = backend.locate key := by
  simp [Deployment.locate, hb]

lemma SeparateCalls.spares (h : Run (start dep clock) L w) (hi : Intact L w) (hsep : SeparateCalls L)
    (hs : Step w l w') : SparesPayloads L w l := by
  rintro t id new res rfl - n c payload key ha hloc
  obtain ⟨now, rfl⟩ := ha.key_eq h
  obtain ⟨task, hst, hspec⟩ := Run.issued h hs
  cases task with
  | sweep | startup => exact hspec.elim
  | chat c' =>
    obtain ⟨rfl, hfirst, hback, _⟩ := hspec
    obtain ⟨backend, hb⟩ := Option.ne_none_iff_exists'.mp hback
    by_cases hid : c.requestId = c'.requestId
    · obtain rfl := chat_unique hsep.distinct ha.started hst hid
      exact absurd rfl (hfirst _ (did_history.mpr ha.put) _ _)
    · rw [locate_of_backend hb, locate_of_backend hb] at hloc
      exact ((hsep.apart _ (mem_chatIds ha.started) _ (mem_chatIds hst) hid).archive backend hb _ _ hloc).elim
  | handle job =>
    obtain ⟨_, key', doc, resp, _, _, hread, _, rfl, hset⟩ := hspec
    obtain ⟨job', n', c', record', payload', hr⟩ := hi.read t key' doc (did_history.mp hread)
    obtain ⟨backend, hb⟩ := Option.ne_none_iff_exists'.mp hr.backend
    obtain ⟨now', rfl⟩ := hr.archives.key_eq h
    by_cases hid : c'.requestId = c.requestId
    · obtain rfl := chat_unique hsep.distinct hr.archives.started ha.started hid
      obtain ⟨_, rfl, _⟩ := hr.archives.unique h ha
      exact hr.sameCall.trans (sameCall_setItem hset)
    · rw [locate_of_backend hb, locate_of_backend hb, requestIdOfKey_keyFor] at hloc
      exact ((hsep.apart _ (mem_chatIds hr.archives.started) _ (mem_chatIds ha.started) hid).merge backend hb _ _
        hloc.symm).elim

lemma SeparateCalls.intact (h : Run (start dep clock) L w) (hsep : SeparateCalls L) : Intact L w := by
  induction h with
  | nil => exact intact_start
  | @snoc L w l w' hr _ hs ih =>
    have hi := ih hsep.of_snoc
    exact hi.step hr hs (hsep.of_snoc.spares hr hi hs)

theorem shadow_fidelity (h : Run (start dep clock) L w) (hsep : SeparateCalls L) :
    (∀ t req timeoutS res w', Step w (.act t ⟨.chatCompletions .candidate req timeoutS, res⟩) w' →
      FaithfulQuestion L t req) ∧
    ∀ t r patch res w', Step w (.act t ⟨.finalize r patch, res⟩) w' →
    JsonActionEvaluator.Comparison patch.verdict →
      FaithfulVerdict L t r patch := by
  have hi := hsep.intact h
  constructor
  · intro t req timeoutS res w' hs
    exact hi.asked h hs
  · intro t r patch res w' hs hv
    exact hi.judged h hs hv

def asked (client : Client) (messages : List ChatMessage) (content : Str) : Ev → Bool
  | ⟨.chatCompletions client' req _, .ok resp⟩ =>
    client' = client && req.messages = messages && resp.content = content
  | _ => false

lemma acted_asked {t : ℕ} {client : Client} {messages : List ChatMessage} {content : Str}
    (h : L.any (acted t (asked client messages content)) = true) : ∃ req timeoutS resp,
      Acted L t (.chatCompletions client req timeoutS) (.ok resp) ∧ req.messages = messages ∧
      resp.content = content := by
  obtain ⟨e, he, hP⟩ := any_acted.mp h
  unfold asked at hP
  split at hP
  · simp only [Bool.and_eq_true, decide_eq_true_eq] at hP
    obtain ⟨⟨rfl, hm⟩, hc⟩ := hP
    exact ⟨_, _, _, he, hm, hc⟩
  · cases hP

def finalizedAs (r : Str) (v : Verdict) : Ev → Bool
  | ⟨.finalize id patch, .ok ()⟩ => id = r && patch.verdict = v
  | _ => false

lemma acted_finalizedAs {t : ℕ} {r : Str} {v : Verdict} (h : L.any (acted t (finalizedAs r v)) = true) :
    ∃ patch, Acted L t (.finalize r patch) (.ok ()) ∧ patch.verdict = v := by
  obtain ⟨e, he, hP⟩ := any_acted.mp h
  unfold finalizedAs at hP
  split at hP
  · simp only [Bool.and_eq_true, decide_eq_true_eq] at hP
    obtain ⟨rfl, hv⟩ := hP
    exact ⟨_, he, hv⟩
  · cases hP

def greeting : List ChatMessage := [⟨.user, "hi"⟩]

lemma separateCalls_one {r : Str} (hL : chatIds L = [r]) : SeparateCalls L where
  distinct := hL ▸ List.nodup_singleton r
  apart i hi j hj hne := by
    rw [hL] at hi hj
    exact (hne ((List.mem_singleton.mp hi).trans (List.mem_singleton.mp hj).symm)).elim

abbrev bucket : Deployment := demo (some .spaces)

lemma separateCalls_slashed {L : List (ProxyLabel bucket)} (hL : chatIds L = ["team/a".toList, "b".toList]) :
    SeparateCalls L where
  distinct := hL ▸ by decide
  apart i hi j hj hne := by
    rw [hL] at hi hj
    have hlast : ∀ i ∈ ["team/a".toList, "b".toList], ∀ j ∈ ["team/a".toList, "b".toList], i ≠ j →
        Path.afterLast i ≠ j := by
      decide
    exact apart_bucket rfl hne (hlast i hi j hj hne)

/-- Two calls side by side, one of them under an id with a slash, and the handler of that one. -/
def archivedShadow : List (DemoCommand (some .spaces)) :=
  boot 0 ++ begin 1 (.chat (demoChat "team/a" "hi")) ++ begin 2 (.chat (demoChat "b" "ho")) ++
    acts 13 1 (replies buy) ++
    acts 13 2 (replies "nope") ++ begin 3 (.handle ⟨"team/a", 1⟩) ++ acts 5 3 (replies buy)

theorem shadow_fidelity_archived :
    ∃ (L : List (ProxyLabel bucket)) (w w' : ProxyWorld bucket) (req : ChatRequest)
    (timeoutS : PyFloat) (res : Except Exn ChatResponse), Run (start bucket morning) L w ∧ SeparateCalls L ∧
      Step w (.act 3 ⟨.chatCompletions .candidate req timeoutS, res⟩) w' ∧ req.messages = greeting ∧
      FaithfulQuestion L 3 req := by
  obtain ⟨L', w', h, hP⟩ := (driver bucket).exists_free_run (start bucket morning) archivedShadow
    (fun L _ => L.getLast?.any (acted 3 (asked .candidate greeting buy)) && chatIds L =
      ["team/a".toList, "b".toList])
    (by decide +kernel)
  simp only [Bool.and_eq_true, decide_eq_true_eq] at hP
  obtain ⟨L, l, w, rfl, hl, hr, hs⟩ := Run.last_step h hP.1
  have hsep := (separateCalls_slashed hP.2).of_snoc
  obtain ⟨req, timeoutS, resp, ha, hm, _⟩ := acted_asked (L := [l]) (by simpa using hl)
  obtain rfl := (List.mem_singleton.mp ha).symm
  exact ⟨L, w, w', req, timeoutS, _, hr, hsep, hs, hm, (shadow_fidelity hr hsep).1 3 req timeoutS _ w' hs⟩

def unarchivedShadow : List (DemoCommand none) :=
  boot 0 ++ begin 1 (.chat (demoChat "a" "hi")) ++ acts 11 1 (replies buy) ++ begin 2 (.handle ⟨"a", 1⟩) ++
    acts 7 2 (replies buy)

theorem shadow_unfaithful : ∃ (L : List (ProxyLabel (demo none))) (w : ProxyWorld (demo none)),
    Run (start (demo none) morning) L w ∧ (chatIds L).Nodup ∧
      (∃ c, Started L 1 (.chat c) ∧ c.requestId = "a") ∧ (∃ job, Started L 2 (.handle job) ∧ job.requestId = "a") ∧
      (∃ req timeoutS resp, Acted L 1 (.chatCompletions .primary req timeoutS) (.ok resp) ∧
        req.messages = greeting ∧
        resp.content = buy) ∧
      (∃ req timeoutS resp, Acted L 2 (.chatCompletions .candidate req timeoutS) (.ok resp) ∧ req.messages = [] ∧
        resp.content = buy) ∧
      (∃ patch, Acted L 2 (.finalize "a" patch) (.ok ()) ∧ patch.verdict = .invalidJson) ∧
      ∃ result, JsonActionEvaluator.evaluate demoPython demoConfig.evaluator buy buy = .ok result ∧
        result.verdict = .matched := by
  obtain ⟨L, w, h, hP⟩ := (driver (demo none)).exists_free_run (start (demo none) morning) unarchivedShadow
    (fun L _ => chatIds L = ["a".toList] && L.any (spawned 1 (isChat "a")) && L.any (spawned 2 (isHandle "a")) &&
      L.any (acted 1 (asked .primary greeting buy)) && L.any (acted 2 (asked .candidate [] buy)) &&
      L.any (acted 2 (finalizedAs "a" .invalidJson))) (by decide +kernel)
  simp only [Bool.and_eq_true, decide_eq_true_eq] at hP
  obtain ⟨⟨⟨⟨⟨hids, hc⟩, hh⟩, hp⟩, hq⟩, hf⟩ := hP
  exact ⟨L, w, h, hids ▸ List.nodup_singleton _, started_chat.mp hc, started_handle.mp hh, acted_asked hp,
    acted_asked hq, acted_finalizedAs hf, _, rfl, rfl⟩

end ShadowProxy

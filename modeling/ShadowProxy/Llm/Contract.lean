import ShadowProxy.Archive.Payload
import ShadowProxy.Llm.Client
import ShadowProxy.Scenario

/-! Which upstream behaviours the client turns into an outcome that its callers expect. -/

namespace ShadowProxy.DOInferenceClient

theorem chatCompletions_foreseen_iff (py : Python) (pd : Pydantic) (maxRetries : ℤ)
    (post : ℕ → Json → PyFloat → Posted) (req : ChatRequest) (timeoutS : PyFloat) :
    (∃ res, chatCompletions py pd maxRetries post req timeoutS = some res ∧ Foreseen res) ↔
      ∀ n resp, Reached ((max 0 maxRetries).toNat + 1) (fun n => post n (payload req) timeoutS) n →
        post n (payload req) timeoutS = .response resp → resp.statusCode < 400 →
        ∃ body, resp.json = .ok body ∧ WellShaped pd body := by
  obtain ⟨n, res, hn, ht, hc⟩ := exists_turn py pd post maxRetries req timeoutS
  constructor
  · rintro ⟨res', hc', hf⟩ n' resp hn' hp hlt
    obtain rfl : res = res' := Option.some.inj (hc.symm.trans hc')
    have hno : ¬ Retryable (post n' (payload req) timeoutS) := by
      rw [hp]
      simp only [Retryable]
      omega
    -- the loop stops at the first attempt it has no reason to repeat
    have hle : n ≤ n' := by
      by_contra hgt
      exact hno (hn.2 n' (not_le.mp hgt))
    rcases Nat.lt_or_eq_of_le hle with hgt | rfl
    · have hmore : n < (max 0 maxRetries).toNat + 1 - 1 := by
        have hn := hn'.1
        omega
      rw [turn_eq_none.mpr ⟨hmore, hn'.2 n hgt⟩] at ht
      cases ht
    · exact (turn_foreseen ht).mp hf resp hp hlt
  · intro h
    exact ⟨res, hc, (turn_foreseen ht).mpr fun resp => h n resp hn⟩

def nullMessage : HttpResponse where
  statusCode := 200
  text := "\x7b\"choices\": [\x7b\"message\": null\x7d]\x7d"
  json := .ok (.obj [("choices", .arr [.obj [("message", .null)]])])

theorem chatCompletions_unforeseen :
    ¬ ∃ res, chatCompletions demoPython demoPydantic 0 (fun _ _ _ => .response nullMessage)
    ⟨"model", [], none, none, []⟩ ⟨"20.0"⟩ = some res ∧ Foreseen res := by
  have hc : chatCompletions demoPython demoPydantic 0 (fun _ _ _ => .response nullMessage)
      ⟨"model", [], none, none, []⟩ ⟨"20.0"⟩ = some (.error .attributeError) := rfl
  rintro ⟨res, hr, hf⟩
  rw [hc] at hr
  cases hr
  exact hf

lemma turn_legal {py : Python} {pd : Pydantic} {attempts n : ℕ} {timeoutS : PyFloat} {posted : Posted}
    {resp : ChatResponse} (h : turn py pd attempts n timeoutS posted = some (.ok resp)) :
    toChatResponse py pd resp.raw = .ok resp := by
  cases posted with
  | timeout => cases h
  | httpError message =>
    simp only [turn] at h
    split at h <;> cases h
  | response r =>
    simp only [turn] at h
    split at h
    · cases h
    split at h
    · cases h
    cases hj : r.json with
    | error failure =>
      rw [hj] at h
      cases h
    | ok body =>
      rw [hj] at h
      have hr : toChatResponse py pd body = .ok resp := Option.some.inj h
      exact (toChatResponse_ok hr).1 ▸ hr

lemma chatCompletions_legal {dep : Deployment} {k : Kind} {s : State} {client : Client} {maxRetries : ℤ}
    {post : ℕ → Json → PyFloat → Posted} {req : ChatRequest} {timeoutS : PyFloat} {res : Except Exn ChatResponse}
    (h : chatCompletions dep.py dep.pydantic maxRetries post req timeoutS = some res) :
    legal dep k s (.chatCompletions client req timeoutS) res := by
  cases res with
  | error e => trivial
  | ok resp =>
    obtain ⟨n, res', _, ht, hc⟩ := exists_turn dep.py dep.pydantic post maxRetries req timeoutS
    rw [h] at hc
    cases hc
    exact turn_legal ht

end ShadowProxy.DOInferenceClient

import Mathlib.Data.ENat.Lattice
import ShadowProxy.Llm.Contract

/-! How often the client posts a request. -/

namespace ShadowProxy.DOInferenceClient

section Policy

variable (py : Python) (pd : Pydantic)

def attemptAll (attempts : ℕ) (timeoutS : PyFloat) (posts : ℕ → Posted) :
    List ℕ → List Posted × Option (Except Exn ChatResponse)
  | [] => ([], none)
  | attempt :: rest =>
    match turn py pd attempts attempt timeoutS (posts attempt) with
    | some res => ([posts attempt], some res)
    | none =>
      let (seen, res) := attemptAll attempts timeoutS posts rest
      (posts attempt :: seen, res)

def posted (maxRetries : ℤ) (post : ℕ → Json → PyFloat → Posted) (req : ChatRequest) (timeoutS : PyFloat) :
    List Posted :=
  let attempts := (max 0 maxRetries).toNat + 1
  (attemptAll py pd attempts timeoutS (fun n => post n (payload req) timeoutS) (List.range attempts)).1

def outcome (timeoutS : PyFloat) : Posted → Except Exn ChatResponse
  | .timeout => .error (.llmTimeout ("DO inference timed out after ".toList ++ timeoutS.repr ++ "s".toList))
  | .httpError message => .error (.llmCall ("DO inference transport error: ".toList ++ message) none)
  | .response resp =>
    if 400 ≤ resp.statusCode then
      .error (.llmCall ("DO inference error ".toList ++ (toString resp.statusCode).toList ++ ": ".toList ++
        resp.text.take 500) (some resp.statusCode))
    else
      match resp.json with
      | .error failure => .error failure.exn
      | .ok body => toChatResponse py pd body

/-- The retryable outcomes of the documentation. -/
def DocumentedRetryable : Posted → Prop
  | .timeout => False
  | .httpError _ => True
  | .response resp => resp.statusCode = 429 ∨ 500 ≤ resp.statusCode

/-- The position of the first outcome that is not retryable, counted from one. -/
noncomputable def firstFinal (retryable : Posted → Prop) (posts : ℕ → Posted) : ℕ∞ :=
  sInf {k | ∃ n : ℕ, k = (n + 1 : ℕ) ∧ ¬ retryable (posts n)}

/-- A call with these outcomes ahead has seen some of them and comes to `res`, which is not the end of its loop. -/
structure RetryPolicy (retryable : Posted → Prop) (maxRetries : ℤ) (posts : ℕ → Posted) (timeoutS : PyFloat)
    (seen : List Posted) (res : Option (Except Exn ChatResponse)) : Prop where
  count : (seen.length : ℕ∞) = min (firstFinal retryable posts) ((max 0 maxRetries).toNat + 1 : ℕ)
  inOrder : seen = (List.range seen.length).map posts
  determined : ∃ last, seen.getLast? = some last ∧ res = some (outcome py pd timeoutS last)
  timeout : .timeout ∈ seen → .timeout ∉ seen.dropLast ∧
    res = some (.error (.llmTimeout ("DO inference timed out after ".toList ++ timeoutS.repr ++ "s".toList)))

end Policy

section Loop

variable {py : Python} {pd : Pydantic} {attempts : ℕ} {timeoutS : PyFloat} {posts : ℕ → Posted}

lemma turn_outcome {n : ℕ} {p : Posted} {res : Except Exn ChatResponse}
    (h : turn py pd attempts n timeoutS p = some res) : res = outcome py pd timeoutS p := by
  cases p with
  | timeout => exact (Option.some.inj h).symm
  | httpError message =>
    simp only [turn] at h
    split at h
    · cases h
    · exact (Option.some.inj h).symm
  | response resp =>
    simp only [turn] at h
    simp only [outcome]
    split at h
    · cases h
    split at h
    · rename_i hs
      rw [if_pos hs]
      exact (Option.some.inj h).symm
    · rename_i hs
      rw [if_neg hs]
      cases hj : resp.json with
      | error failure =>
        rw [hj] at h
        exact (Option.some.inj h).symm
      | ok body =>
        rw [hj] at h
        exact (Option.some.inj h).symm

lemma attemptAll_fst {ns rest : List ℕ} {n : ℕ} {res : Except Exn ChatResponse}
    (hns : ∀ m ∈ ns, turn py pd attempts m timeoutS (posts m) = none)
    (hn : turn py pd attempts n timeoutS (posts n) = some res) :
    (attemptAll py pd attempts timeoutS posts (ns ++ n :: rest)).1 = ns.map posts ++ [posts n] := by
  induction ns with
  | nil =>
    rw [List.nil_append, attemptAll, hn]
    rfl
  | cons m ns ih =>
    rw [List.cons_append, attemptAll, hns m List.mem_cons_self]
    exact congrArg _ (ih fun m hm => hns m (List.mem_cons_of_mem _ hm))

lemma le_firstFinal {retryable : Posted → Prop} {n : ℕ} (h : ∀ m < n, retryable (posts m)) :
    ((n + 1 : ℕ) : ℕ∞) ≤ firstFinal retryable posts := by
  apply le_sInf
  rintro _ ⟨m, rfl, hm⟩
  have hle : n ≤ m := not_lt.mp fun hlt => hm (h m hlt)
  exact Nat.cast_le.mpr (by omega)

lemma firstFinal_le {retryable : Posted → Prop} {n : ℕ} (h : ¬ retryable (posts n)) :
    firstFinal retryable posts ≤ ((n + 1 : ℕ) : ℕ∞) :=
  sInf_le ⟨n, rfl, h⟩

end Loop

section Call

variable {py : Python} {pd : Pydantic} {maxRetries : ℤ} {post : ℕ → Json → PyFloat → Posted} {req : ChatRequest}
  {timeoutS : PyFloat}

lemma exists_last (py : Python) (pd : Pydantic) (maxRetries : ℤ) (post : ℕ → Json → PyFloat → Posted)
    (req : ChatRequest) (timeoutS : PyFloat) :
    ∃ n, Reached ((max 0 maxRetries).toNat + 1) (fun n => post n (payload req) timeoutS) n ∧
      (n = (max 0 maxRetries).toNat ∨ ¬ Retryable (post n (payload req) timeoutS)) ∧
      posted py pd maxRetries post req timeoutS =
        (List.range n).map (fun n => post n (payload req) timeoutS) ++ [post n (payload req) timeoutS] ∧
      chatCompletions py pd maxRetries post req timeoutS =
        some (outcome py pd timeoutS (post n (payload req) timeoutS)) := by
  obtain ⟨n, res, hn, ht, hc⟩ := exists_turn py pd post maxRetries req timeoutS
  refine ⟨n, hn, ?_, ?_, by rw [hc, turn_outcome ht]⟩
  · by_contra hmore
    rw [not_or, not_not] at hmore
    have hlt : n < (max 0 maxRetries).toNat + 1 - 1 := by
      have hn' := hn.1
      omega
    rw [turn_eq_none.mpr ⟨hlt, hmore.2⟩] at ht
    cases ht
  · rw [posted, range_split hn.1]
    refine attemptAll_fst (fun m hm => turn_eq_none.mpr ⟨?_, hn.2 m (List.mem_range.mp hm)⟩) ht
    have hm' := List.mem_range.mp hm
    have hn' := hn.1
    omega

lemma retryPolicy_iff_count {retryable : Posted → Prop} :
    RetryPolicy py pd retryable maxRetries (fun n => post n (payload req) timeoutS) timeoutS
        (posted py pd maxRetries post req timeoutS) (chatCompletions py pd maxRetries post req timeoutS) ↔
      ((posted py pd maxRetries post req timeoutS).length : ℕ∞) =
        min (firstFinal retryable fun n => post n (payload req) timeoutS) ((max 0 maxRetries).toNat + 1 : ℕ) := by
  refine ⟨fun h => h.count, fun hcount => ⟨hcount, ?_, ?_, ?_⟩⟩ <;>
    obtain ⟨n, hn, -, hseen, hres⟩ := exists_last py pd maxRetries post req timeoutS <;> rw [hseen]
  · rw [List.length_append, List.length_map, List.length_range, List.length_singleton, List.range_succ,
      List.map_append]
    rfl
  · exact ⟨_, List.getLast?_concat, hres⟩
  · intro htimeout
    have hearlier : Posted.timeout ∉ (List.range n).map fun n => post n (payload req) timeoutS := by
      intro hm
      obtain ⟨m, hm, he⟩ := List.mem_map.mp hm
      have hretryable : Retryable (post m (payload req) timeoutS) := hn.2 m (List.mem_range.mp hm)
      rw [he] at hretryable
      exact hretryable
    rw [List.dropLast_concat]
    refine ⟨hearlier, ?_⟩
    have hlast : post n (payload req) timeoutS = .timeout :=
      (List.mem_singleton.mp ((List.mem_append.mp htimeout).resolve_left hearlier)).symm
    rw [hres, hlast]
    rfl

lemma Retryable.documented {p : Posted} (h : Retryable p) : DocumentedRetryable p := by
  cases p with
  | timeout => exact h
  | httpError message => trivial
  | response resp => exact .inr h

def TooManyRequests : Posted → Prop
  | .response resp => resp.statusCode = 429
  | _ => False

lemma retryable_of_documented {p : Posted} (h : DocumentedRetryable p) (hp : ¬ TooManyRequests p) :
    Retryable p := by
  cases p with
  | timeout => exact h
  | httpError message => trivial
  | response resp => exact h.resolve_left hp

lemma TooManyRequests.documented {p : Posted} (h : TooManyRequests p) : DocumentedRetryable p := by
  cases p with
  | timeout | httpError => exact h.elim
  | response resp => exact .inl h

lemma TooManyRequests.not_retryable {p : Posted} (h : TooManyRequests p) : ¬ Retryable p := by
  cases p with
  | timeout | httpError => exact h.elim
  | response resp =>
    have hstatus : resp.statusCode = 429 := h
    simp only [Retryable]
    omega

theorem retryPolicy_documented_iff (py : Python) (pd : Pydantic) (maxRetries : ℤ)
    (post : ℕ → Json → PyFloat → Posted) (req : ChatRequest) (timeoutS : PyFloat) :
    RetryPolicy py pd DocumentedRetryable maxRetries (fun n => post n (payload req) timeoutS) timeoutS
        (posted py pd maxRetries post req timeoutS) (chatCompletions py pd maxRetries post req timeoutS) ↔
      ∀ n < (max 0 maxRetries).toNat, (∀ m < n, Retryable (post m (payload req) timeoutS)) →
        ¬ TooManyRequests (post n (payload req) timeoutS) := by
  rw [retryPolicy_iff_count]
  obtain ⟨last, hlast, hfinal, hseen, -⟩ := exists_last py pd maxRetries post req timeoutS
  rw [hseen, List.length_append, List.length_map, List.length_range, List.length_singleton]
  have hle : ((last + 1 : ℕ) : ℕ∞) ≤ firstFinal DocumentedRetryable fun n => post n (payload req) timeoutS :=
    le_firstFinal fun m hm => (hlast.2 m hm).documented
  constructor
  · intro hcount n hn hearlier htoo
    -- the call ends at the 429, which the policy would have it repeat
    have hlast_le : last ≤ n := not_lt.mp fun hlt => htoo.not_retryable (hlast.2 n hlt)
    have hle_last : n ≤ last := by
      by_contra hlt
      rcases hfinal with rfl | hfinal
      · omega
      · exact hfinal (hearlier last (not_le.mp hlt))
    obtain rfl := le_antisymm hle_last hlast_le
    have hretried : ∀ m < n + 1, DocumentedRetryable (post m (payload req) timeoutS) := by
      intro m hm
      rcases Nat.lt_succ_iff_lt_or_eq.mp hm with hm | rfl
      · exact (hearlier m hm).documented
      · exact htoo.documented
    have hmore : ((n + 2 : ℕ) : ℕ∞) ≤ ((n + 1 : ℕ) : ℕ∞) :=
      hcount ▸ le_min (le_firstFinal hretried) (Nat.cast_le.mpr (by omega))
    have := Nat.cast_le.mp hmore
    omega
  · intro h
    have hattempts : ((last + 1 : ℕ) : ℕ∞) ≤ ((max 0 maxRetries).toNat + 1 : ℕ) := Nat.cast_le.mpr hlast.1
    apply le_antisymm (le_min hle hattempts)
    rcases hfinal with rfl | hfinal
    · exact min_le_right _ _
    · rcases Nat.lt_succ_iff_lt_or_eq.mp hlast.1 with hlt | rfl
      · have hnot : ¬ DocumentedRetryable (post last (payload req) timeoutS) := fun hdoc =>
          hfinal (retryable_of_documented hdoc (h last hlt hlast.2))
        exact (min_le_left _ _).trans (firstFinal_le hnot)
      · exact min_le_right _ _

def tooManyRequests : HttpResponse where
  statusCode := 429
  text := "slow down"
  json := .error (.decodeError "Expecting value")

theorem retryPolicy_rate_limited : ¬ RetryPolicy demoPython demoPydantic DocumentedRetryable 1
    (fun _ => .response tooManyRequests) ⟨"20.0"⟩
    (posted demoPython demoPydantic 1 (fun _ _ _ => .response tooManyRequests)
      ⟨"model", [], none, none, []⟩ ⟨"20.0"⟩)
    (chatCompletions demoPython demoPydantic 1 (fun _ _ _ => .response tooManyRequests)
      ⟨"model", [], none, none, []⟩ ⟨"20.0"⟩) := by
  intro h
  have hone : posted demoPython demoPydantic 1 (fun _ _ _ => .response tooManyRequests)
      ⟨"model", [], none, none, []⟩
      ⟨"20.0"⟩ = [.response tooManyRequests] := rfl
  have hcount := h.count
  rw [hone] at hcount
  have htwo : ((2 : ℕ) : ℕ∞) ≤ ((1 : ℕ) : ℕ∞) :=
    hcount ▸ le_min (le_firstFinal (n := 1) fun _ _ => .inl rfl) (Nat.cast_le.mpr (by decide))
  exact absurd (Nat.cast_le.mp htwo) (by decide)

end Call

end ShadowProxy.DOInferenceClient

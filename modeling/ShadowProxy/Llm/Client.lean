import Mathlib.Data.Nat.Find
import ShadowProxy.Llm

/-! The client of the inference endpoint. -/

namespace ShadowProxy

inductive JsonFailure where
  | decodeError (msg : Str)
  | valueError
  | recursionError

def JsonFailure.exn : JsonFailure → Exn
  | .decodeError msg => .jsonDecodeError msg
  | .valueError => .valueError
  | .recursionError => .recursionError

structure HttpResponse where
  statusCode : ℤ
  text : Str
  json : Except JsonFailure Json

/-- What a POST comes to. `httpError` carries the text of the exception. -/
inductive Posted where
  | timeout
  | httpError (message : Str)
  | response (resp : HttpResponse)

/-- The outcomes of a model call that `run_primary` and the candidate handler have a branch for. -/
def Foreseen {α : Type} : Except Exn α → Prop
  | .ok _ | .error (.llmTimeout _) | .error (.llmCall _ _) => True
  | .error _ => False

namespace DOInferenceClient

def setDefault (ms : List (Str × Json)) (key : Str) (v : Json) : List (Str × Json) :=
  if (ms.lookup key).isSome then ms else ms ++ [(key, v)]

def payload (req : ChatRequest) : Json :=
  let ms := [("model".toList, Json.str req.model),
    ("messages".toList, .arr (req.messages.map ChatMessage.modelDump))] ++
    (req.temperature.map fun x => ("temperature".toList, Json.float x)).toList ++
    (req.maxCompletionTokens.map fun n => ("max_completion_tokens".toList, Json.int n)).toList
  .obj (req.extra.foldl (fun ms kv => setDefault ms kv.1 kv.2) ms)

variable (py : Python) (pd : Pydantic)

/-- One turn of the retry loop; `none` is its `continue`. -/
def turn (attempts attempt : ℕ) (timeoutS : PyFloat) : Posted → Option (Except Exn ChatResponse)
  | .timeout => some (.error (.llmTimeout ("DO inference timed out after ".toList ++ timeoutS.repr ++ "s".toList)))
  | .httpError message =>
    if attempt < attempts - 1 then none
    else some (.error (.llmCall ("DO inference transport error: ".toList ++ message) none))
  | .response resp =>
    if 500 ≤ resp.statusCode ∧ attempt < attempts - 1 then none
    else if 400 ≤ resp.statusCode then
      let detail := "DO inference error ".toList ++ (toString resp.statusCode).toList ++ ": ".toList ++
        resp.text.take 500
      some (.error (.llmCall detail (some resp.statusCode)))
    else
      match resp.json with
      | .error failure => some (.error failure.exn)
      | .ok body => some (toChatResponse py pd body)

/-- `none` stands for the end of the loop, which the source asserts it gets to with an error in hand. -/
def chatCompletions (maxRetries : ℤ) (post : ℕ → Json → PyFloat → Posted) (req : ChatRequest)
    (timeoutS : PyFloat) : Option (Except Exn ChatResponse) :=
  let attempts := (max 0 maxRetries).toNat + 1
  (List.range attempts).findSome? fun attempt =>
    turn py pd attempts attempt timeoutS (post attempt (payload req) timeoutS)

section Shape

variable {py} {pd} {body : Json}

def member (ms : List (Str × Json)) (key : Str) (default : Json) : Json := (ms.lookup key).getD default

def IsText (x : Json) : Prop := ∃ s, x = .str s

def firstChoice (body : Json) : Except Exn Json := body.getItem "choices" >>= Json.getFirst

def Complete (pd : Pydantic) (body : Json) : Prop :=
  ∃ ms choice message usage, body = .obj ms ∧ firstChoice body = .ok (.obj choice) ∧
    member choice "message" (.obj []) = .obj message ∧ (member ms "usage" .null).orElse (.obj []) = .obj usage ∧
    IsText ((member message "content" (.str [])).orElse (.str [])) ∧
    IsText (member ms "id" (.str [])) ∧ IsText (member ms "model" (.str [])) ∧
    (member choice "finish_reason" .null = .null ∨ IsText (member choice "finish_reason" .null)) ∧
    ∀ key ∈ ["prompt_tokens".toList, "completion_tokens".toList, "total_tokens".toList],
      member usage key .null = .null ∨ (pd.int (member usage key .null)).isSome = true

def WellShaped (pd : Pydantic) (body : Json) : Prop := (∃ e, firstChoice body = .error e) ∨ Complete pd body

lemma foreseen_bind {α β : Type} {x : Except Exn α} {f : α → Except Exn β}
    (hx : ∀ e, x = .error e → ¬ Foreseen (.error e : Except Exn β)) :
    Foreseen (x >>= f) ↔ ∃ a, x = .ok a ∧ Foreseen (f a) := by
  cases x with
  | error e =>
    constructor
    · intro h
      exact (hx e rfl h).elim
    · rintro ⟨a, ha, _⟩
      cases ha
  | ok a =>
    constructor
    · intro h
      exact ⟨a, rfl, h⟩
    · rintro ⟨_, ⟨rfl⟩, h⟩
      exact h

lemma validStr_isText {x : Json} : (∃ s, validStr x = .ok s) ↔ IsText x := by
  cases x <;> simp [validStr, IsText]

lemma validStr_error {x : Json} {e : Exn} (h : validStr x = .error e) : e = .validationError := by
  cases x <;> simp only [validStr, reduceCtorEq, Except.error.injEq] at h <;> exact h.symm

lemma validOpt_ok_iff {α : Type} {valid : Json → Except Exn α} {x : Json} :
    (∃ a, validOpt valid x = .ok a) ↔ x = .null ∨ ∃ a, valid x = .ok a := by
  cases x <;> simp only [validOpt, reduceCtorEq, false_or, true_or, Except.ok.injEq, exists_eq']
  all_goals cases valid _ <;> simp [Except.map]

lemma validOpt_error {α : Type} {valid : Json → Except Exn α}
    (hv : ∀ x e, valid x = .error e → e = .validationError) {x : Json} {e : Exn}
    (h : validOpt valid x = .error e) : e = .validationError := by
  cases x with
  | null => cases h
  | _ =>
    simp only [validOpt] at h
    generalize hx : valid _ = y at h
    cases y with
    | ok a => cases h
    | error e' =>
      obtain rfl : e' = e := Except.error.inj h
      exact hv _ _ hx

lemma validWith_ok_iff {α : Type} {read : Json → Option α} {x : Json} :
    (∃ a, validWith read x = .ok a) ↔ (read x).isSome = true := by
  rw [validWith]
  cases read x <;> simp

lemma validWith_error {α : Type} {read : Json → Option α} {x : Json} {e : Exn} (h : validWith read x = .error e) :
    e = .validationError := by
  rw [validWith] at h
  cases hr : read x <;> simp [hr] at h
  exact h.symm

lemma getItem_error {x : Json} {key : Str} {e : Exn} (h : x.getItem key = .error e) :
    e = .keyError ∨ e = .typeError := by
  cases x with
  | obj ms =>
    cases hv : ms.lookup key <;> simp only [Json.getItem, hv, reduceCtorEq, Except.error.injEq] at h
    exact .inl h.symm
  | _ =>
    simp only [Json.getItem, Except.error.injEq] at h
    exact .inr h.symm

lemma getFirst_error {x : Json} {e : Exn} (h : x.getFirst = .error e) :
    e = .keyError ∨ e = .indexError ∨ e = .typeError := by
  unfold Json.getFirst at h
  split at h <;> simp only [reduceCtorEq, Except.error.injEq] at h <;> simp [← h]

lemma firstChoice_error {e : Exn} (h : firstChoice body = .error e) :
    e = .keyError ∨ e = .indexError ∨ e = .typeError := by
  rw [firstChoice] at h
  cases hc : body.getItem "choices" with
  | error e' =>
    rw [hc] at h
    obtain rfl : e' = e := Except.error.inj h
    rcases getItem_error hc with he | he
    · exact .inl he
    · exact .inr (.inr he)
  | ok choices =>
    rw [hc] at h
    exact getFirst_error h

lemma responseChoice_eq (body : Json) : responseChoice body = firstChoice body >>= fun choice => do
    let message ← choice.get "message" (.obj [])
    let content ← message.get "content" (.str [])
    let finishReason ← choice.get "finish_reason" .null
    return (content.orElse (.str []), finishReason) := by
  rw [responseChoice, firstChoice]
  cases body.getItem "choices" <;> rfl

lemma toChatResponse_malformed {e : Exn} (h : firstChoice body = .error e) :
    toChatResponse py pd body =
      .error (.llmCall ("malformed DO inference response: ".toList ++ py.repr body) none) := by
  have hr : responseChoice body = .error e := by
    rw [responseChoice_eq, h]
    rfl
  rw [toChatResponse]
  rw [hr]
  rcases firstChoice_error h with rfl | rfl | rfl <;> rfl

lemma get_obj (ms : List (Str × Json)) (key : Str) (d : Json) :
    (Json.obj ms).get key d = .ok (member ms key d) := by
  rw [Json.get, member]

lemma get_error {x d : Json} {key : Str} {e : Exn} (h : x.get key d = .error e) : e = .attributeError := by
  cases x <;> simp only [Json.get, reduceCtorEq, Except.error.injEq] at h <;> exact h.symm

lemma toChatResponse_unshaped {choice : Json} (h : firstChoice body = .ok choice) {e : Exn}
    (hc : (do
      let message ← choice.get "message" (.obj [])
      let content ← message.get "content" (.str [])
      let finishReason ← choice.get "finish_reason" .null
      return (content.orElse (.str []), finishReason)) = .error e) :
    toChatResponse py pd body = .error .attributeError := by
  obtain rfl : e = .attributeError := by
    cases choice with
    | obj cs =>
      simp only [get_obj] at hc
      cases hm : member cs "message" (.obj []) with
      | obj ms =>
        rw [hm] at hc
        cases hc
      | _ =>
        rw [hm] at hc
        exact (Except.error.inj hc).symm
    | _ => exact (Except.error.inj hc).symm
  have hr : responseChoice body = .error .attributeError := by
    rw [responseChoice_eq, h]
    exact hc
  rw [toChatResponse]
  rw [hr]
  rfl

lemma toChatResponse_shaped {ms choice message : List (Str × Json)} (h : firstChoice (.obj ms) = .ok (.obj choice))
    (hm : member choice "message" (.obj []) = .obj message) : toChatResponse py pd (.obj ms) = do
      let usage := (member ms "usage" .null).orElse (.obj [])
      let promptTokens ← usage.get "prompt_tokens" .null
      let completionTokens ← usage.get "completion_tokens" .null
      let totalTokens ← usage.get "total_tokens" .null
      return {
        id := ← validStr (member ms "id" (.str []))
        model := ← validStr (member ms "model" (.str []))
        content := ← validStr ((member message "content" (.str [])).orElse (.str []))
        finishReason := ← validOpt validStr (member choice "finish_reason" .null)
        promptTokens := ← validOpt (validWith pd.int) promptTokens
        completionTokens := ← validOpt (validWith pd.int) completionTokens
        totalTokens := ← validOpt (validWith pd.int) totalTokens
        raw := .obj ms } := by
  have hr : responseChoice (.obj ms) = .ok ((member message "content" (.str [])).orElse (.str []),
      member choice "finish_reason" .null) := by
    have hmessage : (Json.obj choice).get "message" (.obj []) = .ok (.obj message) := congrArg Except.ok hm
    rw [responseChoice_eq, h]
    simp only [bind, Except.bind, hmessage]
    rfl
  rw [toChatResponse]
  rw [hr]
  rfl

lemma unforeseen_validation {α : Type} {e : Exn} (h : e = .validationError) :
    ¬ Foreseen (.error e : Except Exn α) := by
  subst h
  exact id

lemma unforeseen_attribute {α : Type} {e : Exn} (h : e = .attributeError) :
    ¬ Foreseen (.error e : Except Exn α) := by
  subst h
  exact id

lemma Complete.of_foreseen {ms choice message : List (Str × Json)} (h : firstChoice (.obj ms) = .ok (.obj choice))
    (hm : member choice "message" (.obj []) = .obj message) (hf : Foreseen (toChatResponse py pd (.obj ms))) :
    Complete pd (.obj ms) := by
  rw [toChatResponse_shaped h hm] at hf
  obtain ⟨prompt, hprompt, hf⟩ := (foreseen_bind fun e he => unforeseen_attribute (get_error he)).mp hf
  obtain ⟨completion, hcompletion, hf⟩ := (foreseen_bind fun e he => unforeseen_attribute (get_error he)).mp hf
  obtain ⟨total, htotal, hf⟩ := (foreseen_bind fun e he => unforeseen_attribute (get_error he)).mp hf
  obtain ⟨id, hid, hf⟩ := (foreseen_bind fun e he => unforeseen_validation (validStr_error he)).mp hf
  obtain ⟨model, hmodel, hf⟩ := (foreseen_bind fun e he => unforeseen_validation (validStr_error he)).mp hf
  obtain ⟨content, hcontent, hf⟩ := (foreseen_bind fun e he => unforeseen_validation (validStr_error he)).mp hf
  obtain ⟨reason, hreason, hf⟩ := (foreseen_bind fun e he =>
    unforeseen_validation (validOpt_error (fun _ _ => validStr_error) he)).mp hf
  have hint : ∀ {x : Json} {e : Exn}, validOpt (validWith pd.int) x = .error e → e = .validationError :=
    fun he => validOpt_error (fun _ _ => validWith_error) he
  obtain ⟨p, hp, hf⟩ := (foreseen_bind fun e he => unforeseen_validation (hint he)).mp hf
  obtain ⟨c, hc, hf⟩ := (foreseen_bind fun e he => unforeseen_validation (hint he)).mp hf
  obtain ⟨n, hn, hf⟩ := (foreseen_bind fun e he => unforeseen_validation (hint he)).mp hf
  obtain ⟨usage, husage⟩ : ∃ usage, (member ms "usage" .null).orElse (.obj []) = .obj usage := by
    cases hu : (member ms "usage" .null).orElse (.obj []) with
    | obj usage => exact ⟨usage, rfl⟩
    | _ =>
      rw [hu] at hprompt
      cases hprompt
  rw [husage] at hprompt hcompletion htotal
  cases hprompt
  cases hcompletion
  cases htotal
  have hread : ∀ {x : Json} {v : Option ℤ}, validOpt (validWith pd.int) x = .ok v → x = .null ∨
      (pd.int x).isSome = true :=
    fun hx => (validOpt_ok_iff.mp ⟨_, hx⟩).imp_right validWith_ok_iff.mp
  refine ⟨ms, choice, message, usage, rfl, h, hm, husage, validStr_isText.mp ⟨_, hcontent⟩,
    validStr_isText.mp ⟨_, hid⟩,
    validStr_isText.mp ⟨_, hmodel⟩, (validOpt_ok_iff.mp ⟨_, hreason⟩).imp_right validStr_isText.mp, ?_⟩
  simp only [List.forall_mem_cons, List.not_mem_nil, false_imp_iff, implies_true, and_true]
  exact ⟨hread hp, hread hc, hread hn⟩

lemma Complete.foreseen (hc : Complete pd body) : Foreseen (toChatResponse py pd body) := by
  obtain ⟨ms, choice, message, usage, rfl, h, hm, husage, hcontent, hid, hmodel, hreason, hcounts⟩ := hc
  simp only [List.forall_mem_cons, List.not_mem_nil, false_imp_iff, implies_true, and_true] at hcounts
  have hint : ∀ {x : Json}, x = .null ∨ (pd.int x).isSome = true → ∃ v, validOpt (validWith pd.int) x = .ok v :=
    fun hx => validOpt_ok_iff.mpr (hx.imp_right validWith_ok_iff.mpr)
  obtain ⟨content, hcontent⟩ := validStr_isText.mpr hcontent
  obtain ⟨id, hid⟩ := validStr_isText.mpr hid
  obtain ⟨model, hmodel⟩ := validStr_isText.mpr hmodel
  obtain ⟨reason, hreason⟩ := validOpt_ok_iff.mpr (hreason.imp_right validStr_isText.mpr)
  obtain ⟨p, hp⟩ := hint hcounts.1
  obtain ⟨c, hc⟩ := hint hcounts.2.1
  obtain ⟨n, hn⟩ := hint hcounts.2.2
  rw [toChatResponse_shaped h hm]
  simp only [husage, get_obj, bind, Except.bind, hid, hmodel, hcontent, hreason, hp, hc, hn]
  trivial

lemma toChatResponse_foreseen_iff : Foreseen (toChatResponse py pd body) ↔ WellShaped pd body := by
  constructor
  · intro hf
    cases hc : firstChoice body with
    | error e => exact .inl ⟨e, hc⟩
    | ok choice =>
      right
      cases hrest : (do
          let message ← choice.get "message" (.obj [])
          let content ← message.get "content" (.str [])
          let finishReason ← choice.get "finish_reason" .null
          return (content.orElse (.str []), finishReason) : Except Exn (Json × Json)) with
      | error e =>
        rw [toChatResponse_unshaped hc hrest] at hf
        exact hf.elim
      | ok found =>
        cases choice with
        | obj cs =>
          cases hm : member cs "message" (.obj []) with
          | obj mm =>
            cases body with
            | obj ms => exact .of_foreseen hc hm hf
            | _ => cases hc
          | _ =>
            simp only [get_obj, bind, Except.bind, hm] at hrest
            cases hrest
        | _ => cases hrest
  · rintro (⟨e, he⟩ | hc)
    · rw [toChatResponse_malformed he]
      trivial
    · exact hc.foreseen

end Shape

section Loop

variable {py} {pd} {attempts : ℕ} {timeoutS : PyFloat}

def Retryable : Posted → Prop
  | .timeout => False
  | .httpError _ => True
  | .response resp => 500 ≤ resp.statusCode

def Reached (attempts : ℕ) (posts : ℕ → Posted) (n : ℕ) : Prop := n < attempts ∧ ∀ m < n, Retryable (posts m)

lemma turn_eq_none {n : ℕ} {posted : Posted} :
    turn py pd attempts n timeoutS posted = none ↔ n < attempts - 1 ∧ Retryable posted := by
  cases posted with
  | timeout => simp only [turn, reduceCtorEq, Retryable, and_false]
  | httpError message => simp only [turn, Retryable, and_true, ite_eq_left_iff, reduceCtorEq, imp_false, not_not]
  | response resp =>
    simp only [turn, Retryable, and_comm]
    split
    · simp_all
    · rename_i hn
      simp only [hn, iff_false]
      split
      · simp
      · cases resp.json <;> simp

lemma turn_foreseen {n : ℕ} {posted : Posted} {res : Except Exn ChatResponse}
    (h : turn py pd attempts n timeoutS posted = some res) :
    Foreseen res ↔ ∀ resp, posted = .response resp → resp.statusCode < 400 →
      ∃ body, resp.json = .ok body ∧ WellShaped pd body := by
  cases posted with
  | timeout =>
    obtain rfl := Option.some.inj h
    simp [Foreseen]
  | httpError message =>
    simp only [turn] at h
    split at h
    · cases h
    · obtain rfl := Option.some.inj h
      simp [Foreseen]
  | response resp =>
    simp only [turn] at h
    split at h
    · cases h
    split at h
    · rename_i hs
      obtain rfl := Option.some.inj h
      constructor
      · rintro _ _ ⟨rfl⟩ hlt
        omega
      · intro _
        trivial
    · rename_i hs
      have hlt : resp.statusCode < 400 := by omega
      cases hj : resp.json with
      | error failure =>
        simp only [hj, Option.some.injEq] at h
        subst h
        constructor
        · intro hf
          cases failure <;> exact hf.elim
        · intro hshape
          obtain ⟨body, hb, _⟩ := hshape resp rfl hlt
          rw [hj] at hb
          cases hb
      | ok body =>
        simp only [hj, Option.some.injEq] at h
        subst h
        rw [toChatResponse_foreseen_iff]
        constructor
        · rintro hw _ ⟨rfl⟩ _
          exact ⟨body, hj, hw⟩
        · intro hshape
          obtain ⟨body', hb, hw⟩ := hshape resp rfl hlt
          rw [hj] at hb
          exact Except.ok.inj hb ▸ hw

lemma range_split {n m : ℕ} (hm : m < n) : List.range n = List.range m ++ m :: (List.range n).drop (m + 1) := by
  have hget : (List.range n).drop m = m :: (List.range n).drop (m + 1) := by
    rw [List.drop_eq_getElem_cons (by simpa using hm), List.getElem_range]
  have htake : (List.range n).take m = List.range m := by
    rw [List.take_range, Nat.min_eq_left (Nat.le_of_lt hm)]
  rw [← hget, ← htake, List.take_append_drop]

lemma findSome?_range {α : Type} {f : ℕ → Option α} {n m : ℕ} {a : α} (hm : m < n) (ha : f m = some a)
    (hk : ∀ k < m, f k = none) : (List.range n).findSome? f = some a := by
  refine List.findSome?_eq_some_iff.mpr ⟨List.range m, m, (List.range n).drop (m + 1), range_split hm, ha, ?_⟩
  intro k hk'
  exact hk k (List.mem_range.mp hk')

lemma exists_turn (py : Python) (pd : Pydantic) (post : ℕ → Json → PyFloat → Posted) (maxRetries : ℤ)
    (req : ChatRequest) (timeoutS : PyFloat) :
    ∃ n res, Reached ((max 0 maxRetries).toNat + 1) (fun n => post n (payload req) timeoutS) n ∧
      turn py pd ((max 0 maxRetries).toNat + 1) n timeoutS (post n (payload req) timeoutS) = some res ∧
      chatCompletions py pd maxRetries post req timeoutS = some res := by
  set attempts := (max 0 maxRetries).toNat + 1 with hattempts
  let f := fun n => turn py pd attempts n timeoutS (post n (payload req) timeoutS)
  have hlast : ∃ n, f n ≠ none := by
    refine ⟨attempts - 1, fun hn => ?_⟩
    exact lt_irrefl _ (turn_eq_none.mp hn).1
  classical
  have hfirst : ∀ k < Nat.find hlast, f k = none := fun k hk => not_not.mp (Nat.find_min hlast hk)
  have hle : Nat.find hlast ≤ attempts - 1 := by
    by_contra hn
    exact lt_irrefl _ (turn_eq_none.mp (hfirst _ (not_le.mp hn))).1
  obtain ⟨res, hres⟩ := Option.ne_none_iff_exists'.mp (Nat.find_spec hlast)
  refine ⟨Nat.find hlast, res, ⟨by omega, fun m hm => (turn_eq_none.mp (hfirst m hm)).2⟩, hres, ?_⟩
  exact findSome?_range (by omega) hres hfirst

end Loop

end DOInferenceClient

end ShadowProxy

import ShadowProxy.Scenario

/-! Texts that match stand for each other. -/

namespace ShadowProxy.JsonActionEvaluator

/-- All that the verdict depends on in a text. -/
inductive Reading where
  | invalid
  | keyless
  | action (normalized : Str)
  deriving DecidableEq

namespace Reading

def verdict : Reading → Reading → Verdict
  | invalid, _ => .invalidJson
  | _, invalid => .invalidJson
  | action a, action b => if a = b then .matched else .mismatch
  | _, _ => .mismatch

lemma verdict_matched {x y : Reading} : verdict x y = .matched ↔ x = y ∧ ∃ a, x = action a := by
  cases x <;> cases y <;> simp [verdict]

lemma verdict_comm (x y : Reading) : verdict x y = verdict y x := by
  cases x <;> cases y <;> simp [verdict, eq_comm]

end Reading

section Reading

variable (py : Python) (cfg : EvaluatorConfig)

def reading (parsed : Json × Option Str) : Reading :=
  if cfg.requireJson && parsed.2.isSome then .invalid
  else if getKey parsed.1 cfg.compareKey = .null then .keyless
  else .action (normalizeValue py cfg (getKey parsed.1 cfg.compareKey))

def verdictOf (primaryText candidateText : Str) : Except Exn Verdict :=
  (evaluate py cfg primaryText candidateText).map EvaluationResult.verdict

variable {py cfg} {p q t : Str}

lemma reading_invalid {parsed : Json × Option Str} (h : cfg.requireJson = true ∧ parsed.2.isSome = true) :
    reading py cfg parsed = .invalid := by
  simp [reading, h.1, h.2]

lemma reading_valid {parsed : Json × Option Str} (h : ¬ (cfg.requireJson = true ∧ parsed.2.isSome = true)) :
    reading py cfg parsed = if getKey parsed.1 cfg.compareKey = .null then .keyless
      else .action (normalizeValue py cfg (getKey parsed.1 cfg.compareKey)) := by
  rw [reading, if_neg]
  simpa using h

lemma verdictOf_reads : verdictOf py cfg p q = do
    let x ← parse py p
    let y ← parse py q
    return Reading.verdict (reading py cfg x) (reading py cfg y) := by
  unfold verdictOf evaluate
  cases hp : parse py p with
  | error e => rfl
  | ok x =>
    cases hq : parse py q with
    | error e => rfl
    | ok y =>
      simp only [Bind.bind, Except.bind, Pure.pure, Except.pure]
      by_cases hx : cfg.requireJson = true ∧ x.2.isSome = true
      · simp [Reading.verdict, reading_invalid hx, hx.1, hx.2, Except.map]
      by_cases hy : cfg.requireJson = true ∧ y.2.isSome = true
      · have hinvalid : Reading.verdict (reading py cfg x) .invalid = .invalidJson := by
          cases reading py cfg x <;> rfl
        simp [reading_invalid hy, hinvalid, hy.1, hy.2, Except.map]
      have hreq : ¬ (cfg.requireJson && (x.2.isSome || y.2.isSome)) = true := by
        simp only [Bool.and_eq_true, Bool.or_eq_true]
        tauto
      rw [if_neg hreq, reading_valid hx, reading_valid hy]
      by_cases hkx : getKey x.1 cfg.compareKey = .null
      · rw [if_pos (.inl hkx), if_pos hkx]
        split <;> rfl
      by_cases hky : getKey y.1 cfg.compareKey = .null
      · rw [if_pos (.inr hky), if_neg hkx, if_pos hky]
        rfl
      · rw [if_neg (by tauto), if_neg hkx, if_neg hky, Reading.verdict]
        split <;> rfl

theorem matched_interchangeable (h : verdictOf py cfg p q = .ok .matched) (t : Str) :
    verdictOf py cfg q p = .ok .matched ∧ verdictOf py cfg p t = verdictOf py cfg q t ∧
      verdictOf py cfg t p = verdictOf py cfg t q := by
  rw [verdictOf_reads] at h
  simp only [verdictOf_reads]
  cases hp : parse py p with
  | error e => simp [hp, Bind.bind, Except.bind] at h
  | ok x =>
    cases hq : parse py q with
    | error e => simp [hp, hq, Bind.bind, Except.bind] at h
    | ok y =>
      simp only [hp, hq, Bind.bind, Except.bind, Pure.pure, Except.pure, Except.ok.injEq] at h ⊢
      obtain ⟨hsame, -⟩ := Reading.verdict_matched.mp h
      rw [Reading.verdict_comm, h, hsame]
      exact ⟨rfl, rfl, rfl⟩

theorem matched_interchangeable_fenced :
    verdictOf demoPython demoConfig.evaluator (fence ++ buy ++ fence) buy = .ok .matched ∧
    verdictOf demoPython demoConfig.evaluator "nope" (fence ++ buy ++ fence) =
      verdictOf demoPython demoConfig.evaluator "nope" buy :=
  have hmatch : verdictOf demoPython demoConfig.evaluator (fence ++ buy ++ fence) buy = .ok .matched := rfl
  ⟨hmatch, (matched_interchangeable hmatch "nope").2.2⟩

end Reading

end ShadowProxy.JsonActionEvaluator

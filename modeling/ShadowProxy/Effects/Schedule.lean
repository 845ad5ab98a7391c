import ShadowProxy.Effects.Threads

/-! Runs computed from a schedule, in which every operation gets a scripted answer. -/

namespace ShadowProxy.Effects

variable {I : Interface}

structure Driver (S : System I) where
  Script : Type
  answer : Script → S.Kind → S.State → (o : I.Op) → Except I.Exn (I.Ret o)
  legal : ∀ a k s o, S.legal k s o (answer a k s o)
  canSpawn : ∀ s k, Decidable (S.canSpawn s k)
  canEnv : ∀ s e, Decidable (S.canEnv s e)

variable {S : System I}

inductive Command (D : Driver S) where
  | spawn (t : ℕ) (k : S.Kind)
  | act (t : ℕ) (a : D.Script)
  | exit (t : ℕ)
  | env (e : S.Env)
  | crash (x : ℕ)

namespace Driver

variable (D : Driver S)

def command (w : World S) : Command D → Option (Label S × World S)
  | .spawn t k =>
    have := D.canSpawn w.state k
    if w.next ≤ t ∧ S.canSpawn w.state k then some (.spawn t k, w.spawn t k) else none
  | .act t a =>
    match w.threads t with
    | some ⟨k, .op o f⟩ =>
      let r := D.answer a k w.state o
      some (.act t ⟨o, r⟩, w.act t k ⟨o, r⟩ (f r))
    | _ => none
  | .exit t =>
    match w.threads t with
    | some ⟨k, p⟩ => if p.done then some (.exit t, w.exit t k) else none
    | none => none
  | .env e =>
    have := D.canEnv w.state e
    if S.canEnv w.state e then some (.env e, w.env e) else none
  | .crash x => some (.crash x, w.crash x)

def schedule (c : List (Label S) → World S → Label S → Bool) :
    List (Command D) → List (Label S) → World S → Option (List (Label S) × World S)
  | [], L, w => some (L, w)
  | m :: ms, L, w => do
    let (l, w') ← D.command w m
    if c L w l then schedule c ms (L ++ [l]) w' else none

variable {D}

lemma command_step {w w' : World S} {m : Command D} {l : Label S} (h : D.command w m = some (l, w')) :
    Step w l w' := by
  cases m with
  | spawn t k =>
    simp only [command, Option.ite_none_right_eq_some, Option.some.injEq, Prod.mk.injEq] at h
    obtain ⟨⟨ht, hk⟩, rfl, rfl⟩ := h
    exact .spawn ht hk
  | act t answer =>
    simp only [command] at h
    split at h
    · rename_i k o f ht
      simp only [Option.some.injEq, Prod.mk.injEq] at h
      obtain ⟨rfl, rfl⟩ := h
      exact .act ht (D.legal _ _ _ _)
    · cases h
  | exit t =>
    simp only [command] at h
    split at h
    · rename_i k p ht
      simp only [Option.ite_none_right_eq_some, Option.some.injEq, Prod.mk.injEq] at h
      obtain ⟨hd, rfl, rfl⟩ := h
      exact .exit ht hd
    · cases h
  | env e =>
    simp only [command, Option.ite_none_right_eq_some, Option.some.injEq, Prod.mk.injEq] at h
    obtain ⟨he, rfl, rfl⟩ := h
    exact .env he
  | crash x =>
    simp only [command, Option.some.injEq, Prod.mk.injEq] at h
    obtain ⟨rfl, rfl⟩ := h
    exact .crash

section Sound

variable (D)
variable {C : List (Label S) → World S → Label S → Prop} {c : List (Label S) → World S → Label S → Bool}
  (hc : ∀ {L w l}, c L w l = true → C L w l)

include hc

lemma schedule_run {w₀ w w' : World S} {L L' : List (Label S)} {ms : List (Command D)} (h₀ : RunWhere C w₀ L w)
    (h : D.schedule c ms L w = some (L', w')) : RunWhere C w₀ L' w' ∧ L <+: L' := by
  induction ms generalizing w L with
  | nil =>
    simp only [schedule, Option.some.injEq, Prod.mk.injEq] at h
    obtain ⟨rfl, rfl⟩ := h
    exact ⟨h₀, List.prefix_rfl⟩
  | cons m ms ih =>
    simp only [schedule, Option.bind_eq_bind, Option.bind_eq_some_iff] at h
    obtain ⟨⟨l, w₁⟩, h₁, h⟩ := h
    simp only [Option.ite_none_right_eq_some] at h
    obtain ⟨hr, hp⟩ := ih (h₀.snoc (hc h.1) (command_step h₁)) h.2
    exact ⟨hr, (List.prefix_append _ _).trans hp⟩

lemma exists_run (w : World S) (ms : List (Command D)) (P : List (Label S) → World S → Bool)
    (h : (D.schedule c ms [] w).any (fun p => P p.1 p.2) = true) : ∃ L w', RunWhere C w L w' ∧ P L w' = true := by
  obtain ⟨⟨L, w'⟩, hs, hP⟩ := (Option.any_eq_true _ _).mp h
  exact ⟨L, w', (D.schedule_run hc .nil hs).1, hP⟩

lemma exists_run_step (w : World S) (ms : List (Command D)) (m : Command D)
    (P : List (Label S) → World S → Label S → Bool)
    (h : (D.schedule c ms [] w).any (fun p => (D.command p.2 m).any fun q => P p.1 p.2 q.1) = true) :
    ∃ L w₁ l w₂, RunWhere C w L w₁ ∧ Step w₁ l w₂ ∧ P L w₁ l = true := by
  obtain ⟨⟨L, w₁⟩, hs, h⟩ := (Option.any_eq_true _ _).mp h
  obtain ⟨⟨l, w₂⟩, hm, hP⟩ := (Option.any_eq_true _ _).mp h
  exact ⟨L, w₁, l, w₂, (D.schedule_run hc .nil hs).1, command_step hm, hP⟩

lemma exists_runs (w : World S) (ms₁ ms₂ : List (Command D))
    (P : List (Label S) → World S → List (Label S) → World S → Bool)
    (h : (D.schedule c ms₁ [] w).any (fun p =>
      (D.schedule c ms₂ p.1 p.2).any fun q => P p.1 p.2 q.1 q.2) = true) :
    ∃ L₁ w₁ L₂ w₂, RunWhere C w L₁ w₁ ∧ RunWhere C w (L₁ ++ L₂) w₂ ∧ P L₁ w₁ (L₁ ++ L₂) w₂ = true := by
  obtain ⟨⟨L₁, w₁⟩, h₁, h⟩ := (Option.any_eq_true _ _).mp h
  obtain ⟨⟨L, w₂⟩, h₂, hP⟩ := (Option.any_eq_true _ _).mp h
  have hr := D.schedule_run hc .nil h₁
  obtain ⟨hr', L₂, rfl⟩ := D.schedule_run hc hr.1 h₂
  exact ⟨L₁, w₁, L₂, w₂, hr.1, hr', hP⟩

end Sound

lemma exists_free_run (D : Driver S) (w : World S) (ms : List (Command D)) (P : List (Label S) → World S → Bool)
    (h : (D.schedule (fun _ _ _ => true) ms [] w).any (fun p => P p.1 p.2) = true) :
    ∃ L w', Run w L w' ∧ P L w' = true :=
  D.exists_run (fun _ => trivial) w ms P h

end Driver

end ShadowProxy.Effects

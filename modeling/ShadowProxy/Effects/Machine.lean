import Mathlib.Data.List.Induction

/-! Machines: in a state a label leads to one state, or to none. -/

namespace ShadowProxy.Effects

variable {σ ℓ : Type}

inductive Trace (step : σ → ℓ → Option σ) (C : List ℓ → σ → ℓ → Prop) (s₀ : σ) : List ℓ → σ → Prop
  | nil : Trace step C s₀ [] s₀
  | snoc {L s l s'} : Trace step C s₀ L s → C L s l → step s l = some s' → Trace step C s₀ (L ++ [l]) s'

namespace Trace

variable {step : σ → ℓ → Option σ} {C D : List ℓ → σ → ℓ → Prop} {s₀ s : σ} {L : List ℓ}

lemma invariant {I : List ℓ → σ → Prop} (h : Trace step C s₀ L s) (h₀ : I [] s₀)
    (hI : ∀ {L s l s'}, Trace step C s₀ L s → I L s → C L s l → step s l = some s' → I (L ++ [l]) s') : I L s := by
  induction h with
  | nil => exact h₀
  | snoc hr hc hs ih => exact hI hr ih hc hs

lemma mono (h : Trace step C s₀ L s) (hCD : ∀ L s l, C L s l → D L s l) : Trace step D s₀ L s := by
  induction h with
  | nil => exact .nil
  | snoc _ hc hs ih => exact ih.snoc (hCD _ _ _ hc) hs

lemma of_nil (h : Trace step C s₀ [] s) : s = s₀ := by
  generalize hL : ([] : List ℓ) = L at h
  cases h with
  | nil => rfl
  | snoc => simp at hL

lemma of_snoc {l : ℓ} {s' : σ} (h : Trace step C s₀ (L ++ [l]) s') :
    ∃ s, Trace step C s₀ L s ∧ C L s l ∧ step s l = some s' := by
  generalize hL : L ++ [l] = L' at h
  cases h with
  | nil => simp at hL
  | snoc h hc hs =>
    obtain ⟨rfl, rfl⟩ := List.append_singleton_inj.mp hL
    exact ⟨_, h, hc, hs⟩

lemma deterministic {s₁ : σ} (h : Trace step C s₀ L s) (h₁ : Trace step D s₀ L s₁) : s = s₁ := by
  induction h generalizing s₁ with
  | nil => exact h₁.of_nil.symm
  | snoc h hc hs ih =>
    obtain ⟨s₂, h₂, -, hs₂⟩ := h₁.of_snoc
    obtain rfl := ih h₂
    exact Option.some.inj (hs.symm.trans hs₂)

lemma snoc_iff {l : ℓ} {s' : σ} (h : Trace step D s₀ L s) (hs : step s l = some s') :
    Trace step C s₀ (L ++ [l]) s' ↔ Trace step C s₀ L s ∧ C L s l := by
  constructor
  · intro h'
    obtain ⟨s₁, h₁, hc, -⟩ := h'.of_snoc
    obtain rfl := h.deterministic h₁
    exact ⟨h₁, hc⟩
  · exact fun ⟨hC, hc⟩ => hC.snoc hc hs

end Trace

section Replay

variable (step : σ → ℓ → Option σ) (C : List ℓ → σ → ℓ → Prop) [∀ L s l, Decidable (C L s l)]

def replay : List ℓ → List ℓ → σ → Option σ
  | [], _, s => some s
  | l :: ls, L, s => if C L s l then (step s l).bind (replay ls (L ++ [l])) else none

variable {step C}

lemma trace_replay {s₀ s s' : σ} {L ls : List ℓ} (h : Trace step C s₀ L s) (hs : replay step C ls L s = some s') :
    Trace step C s₀ (L ++ ls) s' := by
  induction ls generalizing L s with
  | nil =>
    obtain rfl := Option.some.inj hs
    rwa [List.append_nil]
  | cons l ls ih =>
    simp only [replay, Option.ite_none_right_eq_some, Option.bind_eq_some_iff] at hs
    obtain ⟨hC, s₁, hs₁, hs⟩ := hs
    have h₁ := ih (h.snoc hC hs₁) hs
    rwa [List.append_assoc, List.singleton_append] at h₁

variable (step C) in
def replayed (s₀ : σ) (ls : List ℓ) : σ := (replay step C ls [] s₀).getD s₀

lemma trace_replayed {s₀ : σ} {ls : List ℓ} (h : (replay step C ls [] s₀).isSome) :
    Trace step C s₀ ls (replayed step C s₀ ls) := by
  obtain ⟨s, hs⟩ := Option.isSome_iff_exists.mp h
  have htrace := trace_replay .nil hs
  rwa [replayed, hs]

end Replay

section Inevitable

variable (step : σ → ℓ → Option σ) (C : σ → ℓ → Prop) (P : σ → Prop)

/-- Every run by labels that meet the condition is finite and comes to `P`. -/
inductive Inevitable : σ → Prop
  | now {s} : P s → Inevitable s
  | later {s} : (∃ l s', C s l ∧ step s l = some s') → (∀ l s', C s l → step s l = some s' → Inevitable s') →
      Inevitable s

variable {step C P}

theorem inevitable_of_measure {I : σ → Prop} (μ : σ → ℕ) (hI : ∀ s l s', I s → C s l → step s l = some s' → I s')
    (hprogress : ∀ s, I s → ¬ P s → ∃ l s', C s l ∧ step s l = some s')
    (hless : ∀ s l s', I s → ¬ P s → C s l → step s l = some s' → μ s' < μ s) {s : σ} (hs : I s) :
    Inevitable step C P s := by
  induction hn : μ s using Nat.strongRecOn generalizing s with
  | _ n ih =>
    by_cases hP : P s
    · exact .now hP
    · refine .later (hprogress s hs hP) fun l s' hC hstep => ?_
      exact ih (μ s') (hn ▸ hless s l s' hs hP hC hstep) (hI s l s' hs hC hstep) rfl

end Inevitable

end ShadowProxy.Effects

import ShadowProxy.Effects.Threads

/-! Runs from which all steps of some threads are deleted. -/

namespace ShadowProxy.Effects

variable {I : Interface} {S : System I}

lemma RunWhere.within {C : List (Label S) → World S → Label S → Prop} {w₀ w : World S} {L : List (Label S)}
    (h : RunWhere C w₀ L w) : RunWhere (fun L₁ w l => C L₁ w l ∧ (L₁ ++ [l]) <+: L) w₀ L w := by
  induction h with
  | nil => exact .nil
  | @snoc L w l w' _ hc hs ih =>
    apply RunWhere.snoc ?_ ⟨hc, List.prefix_rfl⟩ hs
    apply ih.mono
    intro L₁ w₁ l₁ w₂ _ hc₁ _
    exact ⟨hc₁.1, hc₁.2.trans (List.prefix_append _ _)⟩

def Label.keeps (D : ℕ → Bool) : Label S → Bool
  | .spawn t _ | .act t _ | .exit t => !D t
  | .env _ | .crash _ => true

/-- A relation between the states with and without the deleted threads, which no step can break. -/
structure Erasure (C : List (Label S) → World S → Label S → Prop) (w₀ : World S) (D : ℕ → Bool)
    (R : List (Label S) → S.State → S.State → Prop) : Prop where
  start : R [] w₀.state w₀.state
  deleted : ∀ {L w l w' s}, RunWhere C w₀ L w → C L w l → Step w l w' → l.keeps D = false → R L w.state s →
    R (L ++ [l]) w'.state s
  spawn : ∀ {L w t k s}, RunWhere C w₀ L w → D t = false → S.canSpawn w.state k → R L w.state s →
    S.canSpawn s k ∧ R (L ++ [.spawn t k]) (S.onSpawn w.state k) (S.onSpawn s k)
  act : ∀ {L w t k o f r s}, RunWhere C w₀ L w → C L w (.act t ⟨o, r⟩) → D t = false →
    w.threads t = some ⟨k, .op o f⟩ →
    S.legal k w.state o r → R L w.state s →
    S.legal k s o r ∧ R (L ++ [.act t ⟨o, r⟩]) (S.after t k w.state o r) (S.after t k s o r)
  exit : ∀ {L w t k s}, RunWhere C w₀ L w → D t = false → R L w.state s →
    R (L ++ [.exit t]) (S.onExit w.state k) (S.onExit s k)
  env : ∀ {L w e s}, RunWhere C w₀ L w → S.canEnv w.state e → R L w.state s →
    S.canEnv s e ∧ R (L ++ [.env e]) (S.onEnv w.state e) (S.onEnv s e)
  crash : ∀ {L w x s}, RunWhere C w₀ L w → R L w.state s →
    R (L ++ [.crash x]) (S.onCrash w.state x) (S.onCrash s x)

structure Erased (D : ℕ → Bool) (R : List (Label S) → S.State → S.State → Prop) (L : List (Label S))
    (w v : World S) : Prop where
  state : R L w.state v.state
  threads : ∀ t, D t = false → v.threads t = w.threads t
  next : v.next ≤ w.next

section Erasure

variable {C : List (Label S) → World S → Label S → Prop} {w₀ w w' v : World S} {D : ℕ → Bool}
  {R : List (Label S) → S.State → S.State → Prop} {L : List (Label S)} {l : Label S}

lemma update_kept {th : ℕ → Option (Thread S)} {t u : ℕ} (x : Option (Thread S)) (ht : D t = true)
    (hu : D u = false) : Function.update th t x u = th u := by
  apply Function.update_of_ne
  rintro rfl
  simp [ht] at hu

lemma update_both {th th' : ℕ → Option (Thread S)} {t u : ℕ} (x : Option (Thread S)) (h : th' u = th u) :
    Function.update th' t x u = Function.update th t x u := by
  simp only [Function.update_apply, h]

lemma Erased.deleted (he : Erased D R L w v) (hR : R (L ++ [l]) w'.state v.state) (hs : Step w l w')
    (hl : l.keeps D = false) : Erased D R (L ++ [l]) w' v := by
  cases hs with
  | @spawn t k ht hc =>
    have hD : D t = true := by simpa [Label.keeps] using hl
    refine ⟨hR, fun u hu => (he.threads u hu).trans (update_kept _ hD hu).symm, ?_⟩
    have hle := he.next
    change v.next ≤ t + 1
    omega
  | @act t k o f r ht hlegal =>
    have hD : D t = true := by simpa [Label.keeps] using hl
    exact ⟨hR, fun u hu => (he.threads u hu).trans (update_kept _ hD hu).symm, he.next⟩
  | @exit t k p ht hd =>
    have hD : D t = true := by simpa [Label.keeps] using hl
    exact ⟨hR, fun u hu => (he.threads u hu).trans (update_kept _ hD hu).symm, he.next⟩
  | env | crash => cases hl

lemma Erasure.kept (hE : Erasure C w₀ D R) (hr : RunWhere C w₀ L w) (hc : C L w l) (hs : Step w l w')
    (he : Erased D R L w v) (hl : l.keeps D = true) : ∃ v', Step v l v' ∧ Erased D R (L ++ [l]) w' v' := by
  cases hs with
  | @spawn t k ht hcan =>
    have hD : D t = false := by simpa [Label.keeps] using hl
    obtain ⟨hcan', hR⟩ := hE.spawn (t := t) hr hD hcan he.state
    exact ⟨_, .spawn (le_trans he.next ht) hcan', hR, fun u hu => update_both _ (he.threads u hu), le_rfl⟩
  | @act t k o f r ht hlegal =>
    have hD : D t = false := by simpa [Label.keeps] using hl
    obtain ⟨hlegal', hR⟩ := hE.act hr hc hD ht hlegal he.state
    exact ⟨_, .act ((he.threads t hD).trans ht) hlegal', hR, fun u hu => update_both _ (he.threads u hu), he.next⟩
  | @exit t k p ht hd =>
    have hD : D t = false := by simpa [Label.keeps] using hl
    exact ⟨_, .exit ((he.threads t hD).trans ht) hd, hE.exit hr hD he.state, fun u hu =>
      update_both _ (he.threads u hu), he.next⟩
  | env hcan =>
    obtain ⟨hcan', hR⟩ := hE.env hr hcan he.state
    exact ⟨_, .env hcan', hR, he.threads, he.next⟩
  | @crash x =>
    refine ⟨_, .crash, hE.crash hr he.state, fun u hu => ?_, he.next⟩
    change (v.threads u).filter _ = (w.threads u).filter _
    rw [he.threads u hu]

lemma Erasure.run (hE : Erasure C w₀ D R) (h : RunWhere C w₀ L w) :
    ∃ v, Run w₀ (L.filter (Label.keeps D)) v ∧ Erased D R L w v := by
  induction h with
  | nil => exact ⟨w₀, .nil, hE.start, fun _ _ => rfl, le_rfl⟩
  | @snoc L w l w' hr hc hs ih =>
    obtain ⟨v, hv, he⟩ := ih
    rw [List.filter_append]
    cases hl : l.keeps D with
    | false =>
      refine ⟨v, ?_, he.deleted (hE.deleted hr hc hs hl he.state) hs hl⟩
      simpa [hl] using hv
    | true =>
      obtain ⟨v', hs', he'⟩ := hE.kept hr hc hs he hl
      refine ⟨v', ?_, he'⟩
      simpa [hl] using Run.snoc hv hs'

end Erasure

end ShadowProxy.Effects

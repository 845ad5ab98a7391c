import Mathlib.Data.List.Induction
import Mathlib.Data.Nat.Basic
import Mathlib.Logic.Function.Basic
import ShadowProxy.Effects.Program

/-! Threads that run programs against one shared state, in any interleaving. -/

namespace ShadowProxy.Effects

structure System (I : Interface) where
  State : Type
  Kind : Type
  Env : Type
  site : Kind → ℕ
  program : Kind → Prog I Unit
  legal : Kind → State → (o : I.Op) → Except I.Exn (I.Ret o) → Prop
  after : ℕ → Kind → State → (o : I.Op) → Except I.Exn (I.Ret o) → State
  canSpawn : State → Kind → Prop
  onSpawn : State → Kind → State
  onExit : State → Kind → State
  canEnv : State → Env → Prop
  onEnv : State → Env → State
  onCrash : State → ℕ → State

variable {I : Interface}

structure Thread (S : System I) where
  kind : S.Kind
  prog : Prog I Unit

structure World (S : System I) where
  state : S.State
  threads : ℕ → Option (Thread S)
  next : ℕ

inductive Label (S : System I) where
  | spawn (t : ℕ) (k : S.Kind)
  | act (t : ℕ) (e : Event I)
  | exit (t : ℕ)
  | env (e : S.Env)
  | crash (x : ℕ)

variable {S : System I}

def World.idle (s : S.State) : World S := ⟨s, fun _ => none, 0⟩

def World.spawn (w : World S) (t : ℕ) (k : S.Kind) : World S where
  state := S.onSpawn w.state k
  threads := Function.update w.threads t (some ⟨k, S.program k⟩)
  next := t + 1

def World.act (w : World S) (t : ℕ) (k : S.Kind) (e : Event I) (p : Prog I Unit) : World S where
  state := S.after t k w.state e.op e.res
  threads := Function.update w.threads t (some ⟨k, p⟩)
  next := w.next

def World.exit (w : World S) (t : ℕ) (k : S.Kind) : World S where
  state := S.onExit w.state k
  threads := Function.update w.threads t none
  next := w.next

def World.env (w : World S) (e : S.Env) : World S := { w with state := S.onEnv w.state e }

def World.crash (w : World S) (x : ℕ) : World S where
  state := S.onCrash w.state x
  threads := fun t => (w.threads t).filter fun th => S.site th.kind ≠ x
  next := w.next

inductive Step : World S → Label S → World S → Prop
  | spawn {w t k} : w.next ≤ t → S.canSpawn w.state k → Step w (.spawn t k) (w.spawn t k)
  | act {w t k o f r} : w.threads t = some ⟨k, .op o f⟩ → S.legal k w.state o r →
      Step w (.act t ⟨o, r⟩) (w.act t k ⟨o, r⟩ (f r))
  | exit {w t k p} : w.threads t = some ⟨k, p⟩ → p.done = true → Step w (.exit t) (w.exit t k)
  | env {w e} : S.canEnv w.state e → Step w (.env e) (w.env e)
  | crash {w x} : Step w (.crash x) (w.crash x)

inductive RunWhere (C : List (Label S) → World S → Label S → Prop) (w₀ : World S) :
    List (Label S) → World S → Prop
  | nil : RunWhere C w₀ [] w₀
  | snoc {L w l w'} : RunWhere C w₀ L w → C L w l → Step w l w' → RunWhere C w₀ (L ++ [l]) w'

def Run (w₀ : World S) : List (Label S) → World S → Prop := RunWhere (fun _ _ _ => True) w₀

lemma RunWhere.mono {C D : List (Label S) → World S → Label S → Prop} {w₀ w : World S}
    {L : List (Label S)} (h : RunWhere C w₀ L w)
    (hCD : ∀ L w l w', RunWhere C w₀ L w → C L w l → Step w l w' → D L w l) : RunWhere D w₀ L w := by
  induction h with
  | nil => exact .nil
  | snoc hr hc hs ih => exact .snoc ih (hCD _ _ _ _ hr hc hs) hs

lemma RunWhere.run {C : List (Label S) → World S → Label S → Prop} {w₀ w : World S}
    {L : List (Label S)} (h : RunWhere C w₀ L w) : Run w₀ L w :=
  h.mono fun _ _ _ _ _ _ _ => trivial

lemma Run.snoc {w₀ w w' : World S} {L : List (Label S)} {l : Label S} (h : Run w₀ L w)
    (hs : Step w l w') : Run w₀ (L ++ [l]) w' :=
  RunWhere.snoc h trivial hs

lemma Step.unique {w w₁ w₂ : World S} {l : Label S} (h₁ : Step w l w₁) (h₂ : Step w l w₂) : w₁ = w₂ := by
  cases h₁ with
  | act ht _ =>
    cases h₂ with
    | act ht' _ =>
      rw [ht] at ht'
      cases ht'
      rfl
  | exit ht _ =>
    cases h₂ with
    | exit ht' _ =>
      rw [ht] at ht'
      cases ht'
      rfl
  | spawn | env | crash =>
    cases h₂
    rfl

lemma RunWhere.snoc_inv {C : List (Label S) → World S → Label S → Prop} {w₀ w' : World S} {L : List (Label S)}
    {l : Label S} (h : RunWhere C w₀ (L ++ [l]) w') : ∃ w, RunWhere C w₀ L w ∧ C L w l ∧ Step w l w' := by
  generalize hL : L ++ [l] = L' at h
  cases h with
  | nil => simp at hL
  | snoc hr hc hs =>
    obtain ⟨rfl, hl⟩ := List.append_inj' hL rfl
    obtain rfl := List.singleton_inj.mp hl
    exact ⟨_, hr, hc, hs⟩

lemma Run.last_step {w₀ w' : World S} {L : List (Label S)} {P : Label S → Bool} (h : Run w₀ L w')
    (hP : L.getLast?.any P = true) : ∃ L₀ l w, L = L₀ ++ [l] ∧ P l = true ∧ Run w₀ L₀ w ∧ Step w l w' := by
  obtain ⟨l, hl, hP⟩ := (Option.any_eq_true _ _).mp hP
  have hL : L = L.dropLast ++ [l] := (List.dropLast_append_getLast? l hl).symm
  rw [hL] at h
  obtain ⟨w, hr, _, hs⟩ := h.snoc_inv
  exact ⟨L.dropLast, l, w, hL, hP, hr, hs⟩

lemma RunWhere.prefix {C : List (Label S) → World S → Label S → Prop} {w₀ w : World S} {L₁ L₂ : List (Label S)}
    (h : RunWhere C w₀ (L₁ ++ L₂) w) : ∃ w₁, RunWhere C w₀ L₁ w₁ := by
  induction L₂ using List.reverseRecOn generalizing w with
  | nil => exact ⟨w, by simpa using h⟩
  | append_singleton L l ih =>
    rw [← List.append_assoc] at h
    obtain ⟨w', hr, _⟩ := h.snoc_inv
    exact ih hr

lemma RunWhere.unique {C : List (Label S) → World S → Label S → Prop} {w₀ w₁ w₂ : World S} {L : List (Label S)}
    (h₁ : RunWhere C w₀ L w₁) (h₂ : RunWhere C w₀ L w₂) : w₁ = w₂ := by
  induction h₁ generalizing w₂ with
  | nil =>
    generalize hL : [] = L at h₂
    cases h₂ with
    | nil => rfl
    | snoc => simp at hL
  | snoc _ _ hs ih =>
    obtain ⟨w, hw, _, hs'⟩ := h₂.snoc_inv
    obtain rfl := ih hw
    exact hs.unique hs'

lemma RunWhere.keep {C : List (Label S) → World S → Label S → Prop} {w₀ w₁ w₂ : World S} {L₁ L₂ : List (Label S)}
    {P : World S → Prop} (h₁ : RunWhere C w₀ L₁ w₁) (h₂ : RunWhere C w₀ (L₁ ++ L₂) w₂) (hP : P w₁)
    (hstep : ∀ {L w l w'}, RunWhere C w₀ L w → C L w l → Step w l w' → P w → P w') : P w₂ := by
  induction L₂ using List.reverseRecOn generalizing w₂ with
  | nil => exact (h₁.unique (by simpa using h₂)) ▸ hP
  | append_singleton L l ih =>
    rw [← List.append_assoc] at h₂
    obtain ⟨w, hr, hc, hs⟩ := h₂.snoc_inv
    exact hstep hr hc hs (ih hr)

lemma RunWhere.at_label {C : List (Label S) → World S → Label S → Prop} {w₀ w : World S}
    {L₁ L₂ : List (Label S)} {l : Label S} (h : RunWhere C w₀ (L₁ ++ l :: L₂) w) :
    ∃ w₁ w₂, RunWhere C w₀ L₁ w₁ ∧ C L₁ w₁ l ∧ Step w₁ l w₂ := by
  rw [← List.singleton_append, ← List.append_assoc] at h
  obtain ⟨w₂, h₂⟩ := h.prefix
  obtain ⟨w₁, hr, hc, hs⟩ := h₂.snoc_inv
  exact ⟨w₁, w₂, hr, hc, hs⟩

lemma Run.split {w₀ w : World S} {L : List (Label S)} {l : Label S} (h : Run w₀ L w) (hl : l ∈ L) :
    ∃ L₁ L₂ w₁ w₂, L = L₁ ++ l :: L₂ ∧ Run w₀ L₁ w₁ ∧ Step w₁ l w₂ := by
  obtain ⟨L₁, L₂, rfl⟩ := List.append_of_mem hl
  obtain ⟨w₁, w₂, hr, _, hs⟩ := RunWhere.at_label h
  exact ⟨L₁, L₂, w₁, w₂, rfl, hr, hs⟩

def Label.eventOf (t : ℕ) : Label S → Option (Event I)
  | .act t' e => if t' = t then some e else none
  | _ => none

def history (t : ℕ) (L : List (Label S)) : List (Event I) := L.filterMap (Label.eventOf t)

@[simp] lemma history_nil (t : ℕ) : history t ([] : List (Label S)) = [] := rfl

lemma history_snoc (t : ℕ) (L : List (Label S)) (l : Label S) :
    history t (L ++ [l]) = history t L ++ (l.eventOf t).toList := by
  cases h : l.eventOf t <;> simp [history, h]

lemma history_prefix (t : ℕ) {L L' : List (Label S)} (h : L <+: L') : history t L <+: history t L' := by
  obtain ⟨l, rfl⟩ := h
  rw [history, history, List.filterMap_append]
  exact List.prefix_append _ _

lemma mem_history {t : ℕ} {L : List (Label S)} {e : Event I} :
    e ∈ history t L ↔ Label.act t e ∈ L := by
  simp only [history, List.mem_filterMap]
  constructor
  · rintro ⟨l, hl, he⟩
    cases l with
    | act t' e' =>
      simp only [Label.eventOf, Option.ite_none_right_eq_some, Option.some.injEq] at he
      obtain ⟨rfl, rfl⟩ := he
      exact hl
    | _ => simp [Label.eventOf] at he
  · intro h
    exact ⟨_, h, by simp [Label.eventOf]⟩

@[simp] lemma history_spawn (t t' : ℕ) (L : List (Label S)) (k : S.Kind) :
    history t (L ++ [.spawn t' k]) = history t L := by simp [history_snoc, Label.eventOf]

@[simp] lemma history_exit (t t' : ℕ) (L : List (Label S)) :
    history t (L ++ [.exit t']) = history t L := by simp [history_snoc, Label.eventOf]

@[simp] lemma history_env (t : ℕ) (L : List (Label S)) (e : S.Env) :
    history t (L ++ [.env e]) = history t L := by simp [history_snoc, Label.eventOf]

@[simp] lemma history_crash (t x : ℕ) (L : List (Label S)) :
    history t (L ++ [.crash x]) = history t L := by simp [history_snoc, Label.eventOf]

@[simp] lemma history_act_self (t : ℕ) (L : List (Label S)) (e : Event I) :
    history t (L ++ [.act t e]) = history t L ++ [e] := by simp [history_snoc, Label.eventOf]

lemma history_act_ne {t t' : ℕ} (h : t' ≠ t) (L : List (Label S)) (e : Event I) :
    history t (L ++ [.act t' e]) = history t L := by simp [history_snoc, Label.eventOf, h]

structure Tracked (L : List (Label S)) (w : World S) : Prop where
  fresh : ∀ t, w.next ≤ t → w.threads t = none ∧ history t L = [] ∧ ∀ k, Label.spawn t k ∉ L
  live : ∀ t th, w.threads t = some th →
    Label.spawn t th.kind ∈ L ∧ Follows (S.program th.kind) (history t L) th.prog
  unique : ∀ t k k', Label.spawn t k ∈ L → Label.spawn t k' ∈ L → k = k'

lemma Tracked.lt {L : List (Label S)} {w : World S} (h : Tracked L w) {t : ℕ} {th : Thread S}
    (ht : w.threads t = some th) : t < w.next := by
  by_contra hn
  have hf := (h.fresh t (not_lt.mp hn)).1
  simp [hf] at ht

lemma Tracked.quiet {L : List (Label S)} {w w' : World S} {l : Label S} (h : Tracked L w)
    (hl : ∀ t, history t (L ++ [l]) = history t L) (hs : ∀ t k, l ≠ .spawn t k)
    (hn : w'.next = w.next) (ht : ∀ t th, w'.threads t = some th → w.threads t = some th) :
    Tracked (L ++ [l]) w' where
  fresh t hle := by
    obtain ⟨h₁, h₂, h₃⟩ := h.fresh t (hn ▸ hle)
    refine ⟨?_, (hl t).trans h₂, fun k hk => ?_⟩
    · cases hw : w'.threads t with
      | none => rfl
      | some th => simp [ht t th hw] at h₁
    · rcases List.mem_append.mp hk with hk | hk
      · exact h₃ k hk
      · exact hs t k (List.mem_singleton.mp hk).symm
  live t th hth := by
    obtain ⟨h₁, h₂⟩ := h.live t th (ht t th hth)
    exact ⟨List.mem_append_left _ h₁, (hl t).symm ▸ h₂⟩
  unique t k k' hk hk' := by
    have hm : ∀ k, Label.spawn t k ∈ L ++ [l] → Label.spawn t k ∈ L := fun k hk =>
      (List.mem_append.mp hk).resolve_right fun hk => hs t k (List.mem_singleton.mp hk).symm
    exact h.unique t k k' (hm k hk) (hm k' hk')

lemma Tracked.spawn {L : List (Label S)} {w : World S} (h : Tracked L w) {t : ℕ} (ht : w.next ≤ t)
    (k : S.Kind) : Tracked (L ++ [.spawn t k]) (w.spawn t k) where
  fresh t' hle := by
    have hne : t' ≠ t := by simp only [World.spawn] at hle; omega
    obtain ⟨h₁, h₂, h₃⟩ := h.fresh t' (by simp only [World.spawn] at hle; omega)
    refine ⟨by simpa [World.spawn, hne] using h₁, by simpa using h₂, fun k' hk => ?_⟩
    simp only [List.mem_append, List.mem_singleton, Label.spawn.injEq, hne, false_and, or_false] at hk
    exact h₃ k' hk
  live t' th hth := by
    by_cases hne : t' = t
    · subst hne
      simp only [World.spawn, Function.update_self, Option.some.injEq] at hth
      subst hth
      refine ⟨by simp, ?_⟩
      rw [history_spawn, (h.fresh t' ht).2.1]
      exact .nil
    · simp only [World.spawn, Function.update_of_ne hne] at hth
      obtain ⟨h₁, h₂⟩ := h.live t' th hth
      exact ⟨List.mem_append_left _ h₁, by simpa using h₂⟩
  unique t' k₁ k₂ h₁ h₂ := by
    simp only [List.mem_append, List.mem_singleton, Label.spawn.injEq] at h₁ h₂
    rcases h₁ with h₁ | ⟨rfl, rfl⟩ <;> rcases h₂ with h₂ | ⟨he, rfl⟩
    · exact h.unique t' k₁ k₂ h₁ h₂
    · exact absurd h₁ ((h.fresh t' (he ▸ ht)).2.2 k₁)
    · exact absurd h₂ ((h.fresh t' ht).2.2 k₂)
    · rfl

lemma Tracked.act {L : List (Label S)} {w : World S} (h : Tracked L w) {t : ℕ} {k : S.Kind}
    {o : I.Op} {f : Except I.Exn (I.Ret o) → Prog I Unit} (ht : w.threads t = some ⟨k, .op o f⟩)
    (r : Except I.Exn (I.Ret o)) : Tracked (L ++ [.act t ⟨o, r⟩]) (w.act t k ⟨o, r⟩ (f r)) where
  fresh t' hle := by
    have hlt := h.lt ht
    have hne : t' ≠ t := by simp only [World.act] at hle; omega
    obtain ⟨h₁, h₂, h₃⟩ := h.fresh t' hle
    refine ⟨by simpa [World.act, hne] using h₁, ?_, fun k' hk => h₃ k' (by simpa using hk)⟩
    rwa [history_act_ne hne.symm]
  live t' th hth := by
    by_cases hne : t' = t
    · subst hne
      simp only [World.act, Function.update_self, Option.some.injEq] at hth
      subst hth
      obtain ⟨h₁, h₂⟩ := h.live t' _ ht
      refine ⟨List.mem_append_left _ h₁, ?_⟩
      rw [history_act_self]
      exact h₂.snoc r
    · simp only [World.act, Function.update_of_ne hne] at hth
      obtain ⟨h₁, h₂⟩ := h.live t' th hth
      refine ⟨List.mem_append_left _ h₁, ?_⟩
      rwa [history_act_ne (Ne.symm hne)]
  unique t' k₁ k₂ h₁ h₂ := h.unique t' k₁ k₂ (by simpa using h₁) (by simpa using h₂)

lemma Tracked.step {L : List (Label S)} {w w' : World S} {l : Label S} (h : Tracked L w)
    (hs : Step w l w') : Tracked (L ++ [l]) w' := by
  cases hs with
  | spawn ht _ => exact h.spawn ht _
  | act ht _ => exact h.act ht _
  | @exit t k p ht _ =>
    refine h.quiet (by simp) (by simp) rfl fun t' th hth => ?_
    by_cases hne : t' = t
    · simp [World.exit, hne] at hth
    · simpa [World.exit, hne] using hth
  | env _ => exact h.quiet (by simp) (by simp) rfl fun _ _ hth => hth
  | crash =>
    refine h.quiet (by simp) (by simp) rfl fun t th hth => ?_
    exact (Option.filter_eq_some_iff.mp hth).1

lemma Run.tracked {w₀ w : World S} {L : List (Label S)} (h : Run w₀ L w)
    (h₀ : ∀ t, w₀.threads t = none) : Tracked L w := by
  induction h with
  | nil => exact ⟨fun t _ => by simp [h₀], fun t th ht => by simp [h₀] at ht, by simp⟩
  | snoc _ _ hs ih => exact ih.step hs

lemma Tracked.issued {L : List (Label S)} {w w' : World S} {t : ℕ} {e : Event I}
    (h : Tracked L w) (hs : Step w (.act t e) w') :
    ∃ k, Label.spawn t k ∈ L ∧ S.legal k w.state e.op e.res ∧
      w'.state = S.after t k w.state e.op e.res ∧
      ∀ J, Issues J (S.program k) → J (history t L) e.op := by
  cases hs with
  | @act t k o f r ht hl =>
    obtain ⟨h₁, h₂⟩ := h.live t _ ht
    exact ⟨k, h₁, hl, rfl, fun J hJ => h₂.issued hJ⟩

lemma Step.thread_before {w w' : World S} {l : Label S} {t : ℕ} {k : S.Kind} {p : Prog I Unit} (hs : Step w l w')
    (ht : w'.threads t = some ⟨k, p⟩) : (∃ q, w.threads t = some ⟨k, q⟩) ∨ l = .spawn t k ∧ w.next ≤ t := by
  cases hs with
  | @spawn u k' hu hc =>
    by_cases hut : t = u
    · subst hut
      simp only [World.spawn, Function.update_self, Option.some.injEq, Thread.mk.injEq] at ht
      exact .inr ⟨by rw [ht.1], hu⟩
    · simp only [World.spawn, Function.update_of_ne hut] at ht
      exact .inl ⟨p, ht⟩
  | @act u k' o f res hu hl =>
    by_cases hut : t = u
    · subst hut
      simp only [World.act, Function.update_self, Option.some.injEq, Thread.mk.injEq] at ht
      exact .inl ⟨_, ht.1 ▸ hu⟩
    · simp only [World.act, Function.update_of_ne hut] at ht
      exact .inl ⟨p, ht⟩
  | @exit u k' q hu hd =>
    by_cases hut : t = u
    · simp [World.exit, hut] at ht
    · simp only [World.exit, Function.update_of_ne hut] at ht
      exact .inl ⟨p, ht⟩
  | env he => exact .inl ⟨p, ht⟩
  | crash => exact .inl ⟨p, (Option.filter_eq_some_iff.mp ht).1⟩

lemma Run.thread_before {w₀ w₁ w₂ : World S} {L₁ L₂ : List (Label S)} {t : ℕ} {k k' : S.Kind} {p : Prog I Unit}
    (h₁ : Run w₀ L₁ w₁) (h₂ : Run w₀ (L₁ ++ L₂) w₂) (h₀ : ∀ t, w₀.threads t = none) (hk : Label.spawn t k' ∈ L₁)
    (ht : w₂.threads t = some ⟨k, p⟩) : ∃ q, w₁.threads t = some ⟨k, q⟩ := by
  induction L₂ using List.reverseRecOn generalizing w₂ p with
  | nil =>
    rw [List.append_nil] at h₂
    exact ⟨p, (RunWhere.unique h₁ h₂) ▸ ht⟩
  | append_singleton L₂ l ih =>
    rw [← List.append_assoc] at h₂
    obtain ⟨w, hr, -, hs⟩ := h₂.snoc_inv
    rcases hs.thread_before ht with ⟨q, hq⟩ | ⟨rfl, hle⟩
    · exact ih hr hq
    · have hfresh := ((Run.tracked hr h₀).fresh t hle).2.2 k'
      exact absurd (List.mem_append_left _ hk) hfresh

end ShadowProxy.Effects

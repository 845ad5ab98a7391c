import ShadowProxy.Effects.Threads

/-! Two systems that run the same programs, one step of the one for each step of the other. -/

namespace ShadowProxy.Effects

variable {I : Interface} {S T : System I}

/-- How the kinds, the environment and the states of the second system go with those of the first. -/
structure Likeness (S T : System I) where
  kind : S.Kind → T.Kind
  env : S.Env → T.Env
  alike : S.State → T.State → Prop
  program : ∀ k, T.program (kind k) = S.program k
  site : ∀ k, T.site (kind k) = S.site k

namespace Likeness

variable (φ : Likeness S T)

def label : Label S → Label T
  | .spawn t k => .spawn t (φ.kind k)
  | .act t e => .act t e
  | .exit t => .exit t
  | .env e => .env (φ.env e)
  | .crash x => .crash x

def thread (th : Thread S) : Thread T := ⟨φ.kind th.kind, th.prog⟩

structure Matches (w : World S) (v : World T) : Prop where
  state : φ.alike w.state v.state
  threads : ∀ t, v.threads t = (w.threads t).map φ.thread
  next : v.next = w.next

structure Keeps (P : Event I → Prop) : Prop where
  spawn : ∀ {s u k}, φ.alike s u → S.canSpawn s k → T.canSpawn u (φ.kind k) ∧
    φ.alike (S.onSpawn s k) (T.onSpawn u (φ.kind k))
  act : ∀ {s u k t o r}, φ.alike s u → P ⟨o, r⟩ → S.legal k s o r →
    T.legal (φ.kind k) u o r ∧ φ.alike (S.after t k s o r) (T.after t (φ.kind k) u o r)
  exit : ∀ {s u k}, φ.alike s u → φ.alike (S.onExit s k) (T.onExit u (φ.kind k))
  env : ∀ {s u e}, φ.alike s u → S.canEnv s e → T.canEnv u (φ.env e) ∧ φ.alike (S.onEnv s e) (T.onEnv u (φ.env e))
  crash : ∀ {s u x}, φ.alike s u → φ.alike (S.onCrash s x) (T.onCrash u x)

variable {φ} {P : Event I → Prop} {w w' : World S} {v : World T} {l : Label S}

lemma Matches.thread_eq {t : ℕ} {k : S.Kind} {p : Prog I Unit} (hm : φ.Matches w v)
    (ht : w.threads t = some ⟨k, p⟩) : v.threads t = some ⟨φ.kind k, p⟩ := by
  rw [hm.threads t, ht]
  rfl

lemma Matches.update {threads : ℕ → Option (Thread S)} {threads' : ℕ → Option (Thread T)}
    (h : ∀ t, threads' t = (threads t).map φ.thread) (t : ℕ) (th : Option (Thread S)) (u : ℕ) :
    Function.update threads' t (th.map φ.thread) u = (Function.update threads t th u).map φ.thread := by
  by_cases hu : u = t
  · subst hu
    rw [Function.update_self, Function.update_self]
  · rw [Function.update_of_ne hu, Function.update_of_ne hu, h]

theorem Keeps.step (hφ : φ.Keeps P) (hm : φ.Matches w v) (hP : ∀ t e, l = .act t e → P e) (hs : Step w l w') :
    ∃ v', Step v (φ.label l) v' ∧ φ.Matches w' v' := by
  cases hs with
  | @spawn t k ht hc =>
    obtain ⟨hc', hstate⟩ := hφ.spawn hm.state hc
    refine ⟨_, .spawn (hm.next ▸ ht) hc', hstate, fun u => ?_, rfl⟩
    have hthread : some (⟨φ.kind k, T.program (φ.kind k)⟩ : Thread T) =
        (some ⟨k, S.program k⟩ : Option (Thread S)).map φ.thread := by
      rw [φ.program k]
      rfl
    simp only [World.spawn]
    rw [hthread]
    exact Matches.update hm.threads t _ u
  | @act t k o f r ht hl =>
    obtain ⟨hl', hstate⟩ := hφ.act hm.state (hP _ _ rfl) hl
    exact ⟨_, .act (hm.thread_eq ht) hl', hstate, fun u => Matches.update hm.threads t (some ⟨k, f r⟩) u, hm.next⟩
  | @exit t k p ht hd =>
    exact ⟨_, .exit (hm.thread_eq ht) hd, hφ.exit hm.state, fun u => Matches.update hm.threads t none u, hm.next⟩
  | env he =>
    obtain ⟨he', hstate⟩ := hφ.env hm.state he
    exact ⟨_, .env he', hstate, hm.threads, hm.next⟩
  | @crash x =>
    refine ⟨_, .crash, hφ.crash hm.state, fun t => ?_, hm.next⟩
    simp only [World.crash, hm.threads t]
    cases w.threads t with
    | none => rfl
    | some th =>
      have hsite := φ.site th.kind
      by_cases hx : S.site th.kind = x <;> simp [Likeness.thread, Option.filter, hsite, hx]

theorem Keeps.run {C : List (Label S) → World S → Label S → Prop} {w₀ : World S} {v₀ : World T}
    {L : List (Label S)} (hφ : φ.Keeps P) (h₀ : φ.Matches w₀ v₀) (h : RunWhere C w₀ L w)
    (hP : ∀ {L w l w'}, RunWhere C w₀ L w → C L w l → Step w l w' → ∀ t e, l = .act t e → P e) :
    ∃ v, Run v₀ (L.map φ.label) v ∧ φ.Matches w v := by
  induction h with
  | nil => exact ⟨v₀, .nil, h₀⟩
  | snoc hr hc hs ih =>
    obtain ⟨v, hv, hm⟩ := ih
    obtain ⟨v', hstep, hm'⟩ := hφ.step hm (hP hr hc hs) hs
    refine ⟨v', ?_, hm'⟩
    rw [List.map_append]
    exact Run.snoc hv hstep

end Likeness

end ShadowProxy.Effects

import Mathlib.Data.List.Basic

/-! Programs as trees of operations whose results are chosen by their environment. -/

namespace ShadowProxy.Effects

structure Interface where
  Op : Type
  Ret : Op → Type
  Exn : Type

structure Event (I : Interface) where
  op : I.Op
  res : Except I.Exn (I.Ret op)

inductive Prog (I : Interface) (α : Type) : Type where
  | ret (a : α)
  | raise (e : I.Exn)
  | op (o : I.Op) (k : Except I.Exn (I.Ret o) → Prog I α)

variable {I : Interface} {α β : Type}

namespace Prog

def bind : Prog I α → (α → Prog I β) → Prog I β
  | .ret a, f => f a
  | .raise e, _ => .raise e
  | .op o k, f => .op o fun r => (k r).bind f

/-- Run a program and hand on how it ended, as `try` does. -/
def attempt : Prog I α → Prog I (Except I.Exn α)
  | .ret a => .ret (.ok a)
  | .raise e => .ret (.error e)
  | .op o k => .op o fun r => (k r).attempt

instance : Monad (Prog I) where
  pure := .ret
  bind := Prog.bind

def perform (o : I.Op) : Prog I (I.Ret o) :=
  .op o fun
    | .ok a => .ret a
    | .error e => .raise e

def orRaise : Except I.Exn α → Prog I α
  | .ok a => .ret a
  | .error e => .raise e

def done : Prog I α → Bool
  | .op _ _ => false
  | _ => true

def value : Prog I α → Option α
  | .ret a => some a
  | _ => none

@[simp] lemma done_orRaise (x : Except I.Exn α) : (orRaise x).done = true := by
  cases x <;> rfl

lemma eq_ret_of_value {p : Prog I α} {a : α} (h : p.value = some a) : p = .ret a := by
  cases p <;> simp only [value, reduceCtorEq, Option.some.injEq] at h
  rw [h]

@[simp] lemma pure_eq (a : α) : (pure a : Prog I α) = .ret a := rfl
@[simp] lemma ret_bind (a : α) (f : α → Prog I β) : (Prog.ret a >>= f) = f a := rfl
@[simp] lemma raise_bind (e : I.Exn) (f : α → Prog I β) : (Prog.raise e >>= f) = .raise e := rfl
@[simp] lemma op_bind (o : I.Op) (k : Except I.Exn (I.Ret o) → Prog I α) (f : α → Prog I β) :
    (Prog.op o k >>= f) = .op o fun r => k r >>= f := rfl
@[simp] lemma ret_attempt (a : α) : (Prog.ret a : Prog I α).attempt = .ret (.ok a) := rfl
@[simp] lemma raise_attempt (e : I.Exn) : (Prog.raise e : Prog I α).attempt = .ret (.error e) := rfl
@[simp] lemma op_attempt (o : I.Op) (k : Except I.Exn (I.Ret o) → Prog I α) :
    (Prog.op o k).attempt = .op o fun r => (k r).attempt := rfl

end Prog

open Prog

def Obeys (J : List (Event I) → I.Op → Prop) (h : List (Event I)) :
    Prog I α → (List (Event I) → α → Prop) → (List (Event I) → I.Exn → Prop) → Prop
  | .ret a, Q, _ => Q h a
  | .raise e, _, X => X h e
  | .op o k, Q, X => J h o ∧ ∀ r, Obeys J (h ++ [⟨o, r⟩]) (k r) Q X

section Obeys

variable {J : List (Event I) → I.Op → Prop} {Q : List (Event I) → α → Prop} {X : List (Event I) → I.Exn → Prop}
  {h : List (Event I)}

@[simp] lemma obeys_ret (a : α) : Obeys J h (.ret a) Q X ↔ Q h a := Iff.rfl

@[simp] lemma obeys_raise (e : I.Exn) : Obeys J h (.raise e : Prog I α) Q X ↔ X h e := Iff.rfl

lemma obeys_perform (o : I.Op) {Q : List (Event I) → I.Ret o → Prop} :
    Obeys J h (perform o) Q X ↔
      J h o ∧ (∀ a, Q (h ++ [⟨o, .ok a⟩]) a) ∧ ∀ e, X (h ++ [⟨o, .error e⟩]) e := by
  constructor
  · rintro ⟨hJ, hr⟩
    exact ⟨hJ, fun a => hr (.ok a), fun e => hr (.error e)⟩
  · rintro ⟨hJ, hQ, hX⟩
    refine ⟨hJ, fun r => ?_⟩
    cases r with
    | ok a => exact hQ a
    | error e => exact hX e

@[simp] lemma obeys_orRaise (x : Except I.Exn α) :
    Obeys J h (orRaise x) Q X ↔ (∀ a, x = .ok a → Q h a) ∧ ∀ e, x = .error e → X h e := by
  cases x <;> simp [orRaise]

@[simp] lemma obeys_bind (p : Prog I α) (f : α → Prog I β) {Q : List (Event I) → β → Prop} :
    Obeys J h (p >>= f) Q X ↔ Obeys J h p (fun h a => Obeys J h (f a) Q X) X := by
  induction p generalizing h with
  | ret a => rfl
  | raise e => rfl
  | op o k ih => exact and_congr_right fun _ => forall_congr' fun r => ih r

lemma obeys_attempt (p : Prog I α) {Q : List (Event I) → Except I.Exn α → Prop} :
    Obeys J h p.attempt Q X ↔ Obeys J h p (fun h a => Q h (.ok a)) fun h e => Q h (.error e) := by
  induction p generalizing h with
  | ret a => rfl
  | raise e => rfl
  | op o k ih => exact and_congr_right fun _ => forall_congr' fun r => ih r

lemma Obeys.mono {Q' : List (Event I) → α → Prop} {X' : List (Event I) → I.Exn → Prop}
    {p : Prog I α} (hp : Obeys J h p Q X) (hQ : ∀ l a, h <+: l → Q l a → Q' l a)
    (hX : ∀ l e, h <+: l → X l e → X' l e) : Obeys J h p Q' X' := by
  induction p generalizing h with
  | ret a => exact hQ h a List.prefix_rfl hp
  | raise e => exact hX h e List.prefix_rfl hp
  | op o k ih =>
    refine ⟨hp.1, fun r => ih r (hp.2 r) (fun l a hl => ?_) (fun l e hl => ?_)⟩
    · exact hQ l a ((List.prefix_append _ _).trans hl)
    · exact hX l e ((List.prefix_append _ _).trans hl)

lemma Obeys.of_forall {p : Prog I α} (hJ : ∀ h' o, h <+: h' → J h' o) :
    Obeys J h p (fun _ _ => True) fun _ _ => True := by
  induction p generalizing h with
  | ret a => trivial
  | raise e => trivial
  | op o k ih =>
    refine ⟨hJ h o List.prefix_rfl, fun r => ih r fun h' o' hh => ?_⟩
    exact hJ h' o' ((List.prefix_append _ _).trans hh)

end Obeys

def Issues (J : List (Event I) → I.Op → Prop) (p : Prog I α) : Prop :=
  Obeys J [] p (fun _ _ => True) fun _ _ => True

inductive Follows (p : Prog I α) : List (Event I) → Prog I α → Prop
  | nil : Follows p [] p
  | snoc {h o k} : Follows p h (.op o k) → (r : Except I.Exn (I.Ret o)) →
      Follows p (h ++ [⟨o, r⟩]) (k r)

lemma Follows.obeys {J : List (Event I) → I.Op → Prop} {Q : List (Event I) → α → Prop}
    {X : List (Event I) → I.Exn → Prop} {p q : Prog I α} {h : List (Event I)}
    (hf : Follows p h q) (hp : Obeys J [] p Q X) : Obeys J h q Q X := by
  induction hf with
  | nil => exact hp
  | snoc _ r ih => exact ih.2 r

lemma Follows.issued {J : List (Event I) → I.Op → Prop} {p : Prog I α} {h : List (Event I)}
    {o : I.Op} {k : Except I.Exn (I.Ret o) → Prog I α}
    (hf : Follows p h (.op o k)) (hp : Issues J p) : J h o :=
  (hf.obeys hp).1

end ShadowProxy.Effects

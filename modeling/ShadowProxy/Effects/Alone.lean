import ShadowProxy.Effects.Schedule

/-! One program of a system on its own, while others may change the state between its steps. -/

namespace ShadowProxy.Effects

open Prog

variable {I : Interface} {α β : Type} {S : System I}

inductive Exec (R : S.State → S.State → Prop) (t : ℕ) (k : S.Kind) (p : Prog I α) (s₀ : S.State) :
    List (Event I) → Prog I α → S.State → Prop
  | start : Exec R t k p s₀ [] p s₀
  | op {h o f s r} : Exec R t k p s₀ h (.op o f) s → S.legal k s o r →
      Exec R t k p s₀ (h ++ [⟨o, r⟩]) (f r) (S.after t k s o r)
  | others {h q s s'} : Exec R t k p s₀ h q s → R s s' → Exec R t k p s₀ h q s'

section Exec

variable {R : S.State → S.State → Prop} {t : ℕ} {k : S.Kind} {p q : Prog I α} {s₀ s : S.State}
  {h : List (Event I)} {J : List (Event I) → I.Op → Prop} {Q : List (Event I) → α → Prop}
  {X : List (Event I) → I.Exn → Prop}

lemma Exec.follows (hx : Exec R t k p s₀ h q s) : Follows p h q := by
  induction hx with
  | start => exact .nil
  | op _ _ ih => exact ih.snoc _
  | others _ _ ih => exact ih

lemma Exec.obeys (hx : Exec R t k p s₀ h q s) (hp : Obeys J [] p Q X) : Obeys J h q Q X :=
  hx.follows.obeys hp

lemma Exec.invariant {P : List (Event I) → S.State → Prop} (hx : Exec R t k p s₀ h q s)
    (hp : Obeys J [] p Q X) (h₀ : P [] s₀)
    (hop : ∀ h s o r, P h s → J h o → S.legal k s o r → P (h ++ [⟨o, r⟩]) (S.after t k s o r))
    (hR : ∀ h s s', P h s → R s s' → P h s') : P h s := by
  induction hx with
  | start => exact h₀
  | op hx hl ih => exact hop _ _ _ _ ih (hx.obeys hp).1 hl
  | others _ hr ih => exact hR _ _ _ ih hr

end Exec

def Elsewhere (S : System I) (t : ℕ) (s s' : S.State) : Prop :=
  ∃ (w : World S) (l : Label S) (w' : World S), Step w l w' ∧ (∀ e, l ≠ .act t e) ∧ w.state = s ∧ w'.state = s'

lemma Run.exec {w₀ w : World S} {L : List (Label S)} (h : Run w₀ L w) (h₀ : ∀ t, w₀.threads t = none) {t : ℕ}
    {th : Thread S} (ht : w.threads t = some th) :
    ∃ s₀, Exec (Elsewhere S t) t th.kind (S.program th.kind) s₀ (history t L) th.prog w.state := by
  induction h generalizing th with
  | nil => simp [h₀] at ht
  | @snoc L w l w' hr _ hs ih =>
    have hother : w.threads t = some th → (∀ e, l ≠ .act t e) → history t (L ++ [l]) = history t L →
        ∃ s₀, Exec (Elsewhere S t) t th.kind (S.program th.kind) s₀ (history t (L ++ [l])) th.prog w'.state := by
      intro ht hl hh
      obtain ⟨s₀, hx⟩ := ih ht
      exact ⟨s₀, hh ▸ hx.others ⟨w, l, w', hs, hl, rfl, rfl⟩⟩
    cases hs with
    | @spawn u k hu hc =>
      by_cases hne : t = u
      · subst hne
        simp only [World.spawn, Function.update_self, Option.some.injEq] at ht
        subst ht
        refine ⟨S.onSpawn w.state k, ?_⟩
        rw [history_spawn, ((Run.tracked hr h₀).fresh t hu).2.1]
        exact .start
      · simp only [World.spawn, Function.update_of_ne hne] at ht
        exact hother ht (by simp) (by simp)
    | @act u k o f r hu hl =>
      by_cases hne : t = u
      · subst hne
        simp only [World.act, Function.update_self, Option.some.injEq] at ht
        subst ht
        obtain ⟨s₀, hx⟩ := ih hu
        rw [history_act_self]
        exact ⟨s₀, hx.op hl⟩
      · simp only [World.act, Function.update_of_ne hne] at ht
        exact hother ht (by simp [Ne.symm hne]) (history_act_ne (Ne.symm hne) _ _)
    | @exit u k p hu hd =>
      by_cases hne : t = u
      · simp [World.exit, hne] at ht
      · simp only [World.exit, Function.update_of_ne hne] at ht
        exact hother ht (by simp) (by simp)
    | env _ => exact hother ht (by simp) (by simp)
    | crash => exact hother (Option.filter_eq_some_iff.mp ht).1 (by simp) (by simp)

def Can (t : ℕ) (k : S.Kind) (s : S.State) (h : List (Event I)) :
    Prog I α → (S.State → List (Event I) → Except I.Exn α → Prop) → Prop
  | .ret a, Q => Q s h (.ok a)
  | .raise e, Q => Q s h (.error e)
  | .op o f, Q => ∃ r, S.legal k s o r ∧ Can t k (S.after t k s o r) (h ++ [⟨o, r⟩]) (f r) Q

section Can

variable {t : ℕ} {k : S.Kind} {s : S.State} {h : List (Event I)}

@[simp] lemma can_ret (a : α) {Q : S.State → List (Event I) → Except I.Exn α → Prop} :
    Can t k s h (.ret a) Q ↔ Q s h (.ok a) := Iff.rfl

lemma can_bind (p : Prog I α) (f : α → Prog I β) {Q : S.State → List (Event I) → Except I.Exn β → Prop} :
    Can t k s h (p >>= f) Q ↔ Can t k s h p fun s h r =>
      match r with
      | .ok a => Can t k s h (f a) Q
      | .error e => Q s h (.error e) := by
  induction p generalizing s h with
  | ret a => rfl
  | raise e => rfl
  | op o g ih => exact exists_congr fun r => and_congr_right fun _ => ih r

lemma can_attempt (p : Prog I α) {Q : S.State → List (Event I) → Except I.Exn (Except I.Exn α) → Prop} :
    Can t k s h p.attempt Q ↔ Can t k s h p fun s h r => Q s h (.ok r) := by
  induction p generalizing s h with
  | ret a => rfl
  | raise e => rfl
  | op o g ih => exact exists_congr fun r => and_congr_right fun _ => ih r

lemma can_perform {o : I.Op} {Q : S.State → List (Event I) → Except I.Exn (I.Ret o) → Prop}
    (r : Except I.Exn (I.Ret o)) (hl : S.legal k s o r) (hQ : Q (S.after t k s o r) (h ++ [⟨o, r⟩]) r) :
    Can t k s h (perform o) Q := by
  refine ⟨r, hl, ?_⟩
  cases r <;> exact hQ

lemma can_of_answers {A : Event I → Prop} (hA : ∀ s o, ∃ r, S.legal k s o r ∧ A ⟨o, r⟩) (p : Prog I α)
    (hh : ∀ e ∈ h, A e) : Can t k s h p fun _ h' _ => ∀ e ∈ h', A e := by
  induction p generalizing s h with
  | ret a => exact hh
  | raise e => exact hh
  | op o f ih =>
    obtain ⟨r, hl, hr⟩ := hA s o
    refine ⟨r, hl, ih r fun e he => ?_⟩
    rcases List.mem_append.mp he with hm | hm
    · exact hh e hm
    · exact List.mem_singleton.mp hm ▸ hr

lemma can_orRaise {x : Except I.Exn α} {a : α} (hx : x = .ok a)
    {Q : S.State → List (Event I) → Except I.Exn α → Prop} (hQ : Q s h (.ok a)) : Can t k s h (orRaise x) Q := by
  rw [hx]
  exact hQ

lemma Can.run {w₀ w : World S} {L : List (Label S)} {p : Prog I Unit}
    {Q : S.State → List (Event I) → Except I.Exn Unit → Prop} (hc : Can t k w.state (history t L) p Q)
    (hr : Run w₀ L w) (ht : w.threads t = some ⟨k, p⟩) :
    ∃ L' w' r, Run w₀ (L ++ L') w' ∧ w'.next = w.next ∧ Q w'.state (history t (L ++ L')) r := by
  induction p generalizing w L with
  | ret a => exact ⟨[], w, .ok a, by simpa using hr, rfl, by rwa [List.append_nil]⟩
  | raise e => exact ⟨[], w, .error e, by simpa using hr, rfl, by rwa [List.append_nil]⟩
  | op o f ih =>
    obtain ⟨r, hl, hc⟩ := hc
    obtain ⟨L', w', r', hr', hn, hQ⟩ := ih r (w := w.act t k ⟨o, r⟩ (f r)) (L := L ++ [.act t ⟨o, r⟩])
      (by rwa [history_act_self]) (Run.snoc hr (.act ht hl)) (by simp [World.act])
    exact ⟨.act t ⟨o, r⟩ :: L', w', r', by simpa using hr', hn, by simpa using hQ⟩

lemma Can.spawned {w₀ w : World S} {L : List (Label S)}
    {Q : S.State → List (Event I) → Except I.Exn Unit → Prop}
    (hc : Can t k (S.onSpawn w.state k) [] (S.program k) Q) (hr : Run w₀ L w) (h₀ : ∀ t, w₀.threads t = none)
    (ht : w.next ≤ t) (hk : S.canSpawn w.state k) :
    ∃ L' w' r, Run w₀ (L ++ .spawn t k :: L') w' ∧ w'.next = t + 1 ∧
      Q w'.state (history t (L ++ .spawn t k :: L')) r := by
  have hh : history t (L ++ [.spawn t k]) = [] := by
    rw [history_spawn, ((Run.tracked hr h₀).fresh t ht).2.1]
  have hs : Run w₀ (L ++ [.spawn t k]) (w.spawn t k) := Run.snoc hr (.spawn ht hk)
  obtain ⟨L', w', r, hr', hn, hQ⟩ := Can.run (w := w.spawn t k) (hh ▸ hc) hs (by simp [World.spawn])
  exact ⟨L', w', r, by simpa using hr', hn, by simpa using hQ⟩

lemma Can.exec {R : S.State → S.State → Prop} {p₀ p : Prog I α} {s₀ : S.State}
    {Q : S.State → List (Event I) → Except I.Exn α → Prop} (hc : Can t k s h p Q) (hx : Exec R t k p₀ s₀ h p s) :
    ∃ h' r s', Exec R t k p₀ s₀ h' (orRaise r) s' ∧ Q s' h' r := by
  induction p generalizing s h with
  | ret a => exact ⟨h, .ok a, s, hx, hc⟩
  | raise e => exact ⟨h, .error e, s, hx, hc⟩
  | op o f ih =>
    obtain ⟨r, hl, hc⟩ := hc
    exact ih r hc (hx.op hl)

end Can

section Must

/-- Before each of its operations the others may have changed the state. -/
def Must (R : S.State → S.State → Prop) (A : Event I → Prop) (t : ℕ) (k : S.Kind) (s : S.State) :
    Prog I α → (S.State → Except I.Exn α → Prop) → Prop
  | .ret a, Q => Q s (.ok a)
  | .raise e, Q => Q s (.error e)
  | .op o f, Q => ∀ s' r, R s s' → S.legal k s' o r → A ⟨o, r⟩ → Must R A t k (S.after t k s' o r) (f r) Q

variable {R : S.State → S.State → Prop} {A : Event I → Prop} {t : ℕ} {k : S.Kind} {s : S.State}

@[simp] lemma must_ret (a : α) {Q : S.State → Except I.Exn α → Prop} : Must R A t k s (.ret a) Q ↔ Q s (.ok a) :=
  Iff.rfl

@[simp] lemma must_raise (e : I.Exn) {Q : S.State → Except I.Exn α → Prop} :
    Must R A t k s (.raise e : Prog I α) Q ↔ Q s (.error e) := Iff.rfl

lemma must_bind (p : Prog I α) (f : α → Prog I β) {Q : S.State → Except I.Exn β → Prop} :
    Must R A t k s (p >>= f) Q ↔ Must R A t k s p fun s r =>
      match r with
      | .ok a => Must R A t k s (f a) Q
      | .error e => Q s (.error e) := by
  induction p generalizing s with
  | ret a => rfl
  | raise e => rfl
  | op o g ih =>
    refine forall_congr' fun s' => forall_congr' fun r => ?_
    exact imp_congr_right fun _ => imp_congr_right fun _ => imp_congr_right fun _ => ih r

lemma must_attempt (p : Prog I α) {Q : S.State → Except I.Exn (Except I.Exn α) → Prop} :
    Must R A t k s p.attempt Q ↔ Must R A t k s p fun s r => Q s (.ok r) := by
  induction p generalizing s with
  | ret a => rfl
  | raise e => rfl
  | op o g ih =>
    refine forall_congr' fun s' => forall_congr' fun r => ?_
    exact imp_congr_right fun _ => imp_congr_right fun _ => imp_congr_right fun _ => ih r

lemma must_perform {o : I.Op} {Q : S.State → Except I.Exn (I.Ret o) → Prop}
    (h : ∀ s' r, R s s' → S.legal k s' o r → A ⟨o, r⟩ → Q (S.after t k s' o r) r) :
    Must R A t k s (perform o) Q := by
  intro s' r hR hl hA
  cases r <;> exact h s' _ hR hl hA

lemma Must.mono {p : Prog I α} {Q Q' : S.State → Except I.Exn α → Prop} (h : Must R A t k s p Q)
    (hQ : ∀ s r, Q s r → Q' s r) : Must R A t k s p Q' := by
  induction p generalizing s with
  | ret a => exact hQ _ _ h
  | raise e => exact hQ _ _ h
  | op o f ih => exact fun s' r hR hl hA => ih r (h s' r hR hl hA)

lemma Exec.must {p q : Prog I α} {s₀ : S.State} {h : List (Event I)} {Q : S.State → Except I.Exn α → Prop}
    (hrefl : ∀ s, R s s) (htrans : ∀ s₁ s₂ s₃, R s₁ s₂ → R s₂ s₃ → R s₁ s₃) (hx : Exec R t k p s₀ h q s)
    (hA : ∀ e ∈ h, A e) (hm : Must R A t k s₀ p Q) : ∃ s₁, R s₁ s ∧ Must R A t k s₁ q Q := by
  induction hx with
  | start => exact ⟨s₀, hrefl s₀, hm⟩
  | @op h o f s r _ hl ih =>
    obtain ⟨s₁, hR, hm⟩ := ih fun e he => hA e (List.mem_append_left _ he)
    exact ⟨_, hrefl _, hm s r hR hl (hA _ (by simp))⟩
  | @others h q s s' _ hr ih =>
    obtain ⟨s₁, hR, hm⟩ := ih hA
    exact ⟨s₁, htrans _ _ _ hR hr, hm⟩

end Must

namespace Driver

variable (D : Driver S) (t : ℕ) (k : S.Kind)

def play : List D.Script → List (Event I) → Prog I α → S.State → Option (List (Event I) × Prog I α × S.State)
  | [], h, p, s => some (h, p, s)
  | a :: as, h, .op o f, s =>
    let r := D.answer a k s o
    play as (h ++ [⟨o, r⟩]) (f r) (S.after t k s o r)
  | _ :: _, _, .ret _, _ => none
  | _ :: _, _, .raise _, _ => none

variable {D t k}

lemma play_exec {R : S.State → S.State → Prop} {p p' q : Prog I α} {s₀ s s' : S.State} {h h' : List (Event I)}
    {as : List D.Script} (hx : Exec R t k p s₀ h p' s) (hp : D.play t k as h p' s = some (h', q, s')) :
    Exec R t k p s₀ h' q s' := by
  induction as generalizing h p' s with
  | nil =>
    simp only [play, Option.some.injEq, Prod.mk.injEq] at hp
    obtain ⟨rfl, rfl, rfl⟩ := hp
    exact hx
  | cons a as ih =>
    cases p' with
    | ret a => cases hp
    | raise e => cases hp
    | op o f => exact ih (hx.op (D.legal a k s o)) hp

lemma exists_exec (R : S.State → S.State → Prop) (p : Prog I α) (s : S.State) (as : List D.Script)
    (P : List (Event I) → α → S.State → Bool)
    (h : (D.play t k as [] p s).any (fun x => x.2.1.value.any fun a => P x.1 a x.2.2) = true) :
    ∃ l a s', Exec R t k p s l (.ret a) s' ∧ P l a s' = true := by
  obtain ⟨⟨l, q, s'⟩, hp, hP⟩ := (Option.any_eq_true _ _).mp h
  obtain ⟨a, ha, hP⟩ := (Option.any_eq_true _ _).mp hP
  obtain rfl := eq_ret_of_value ha
  exact ⟨l, a, s', play_exec .start hp, hP⟩

end Driver

end ShadowProxy.Effects

import Mathlib.Algebra.BigOperators.Group.Finset.Piecewise
import Mathlib.Algebra.Order.BigOperators.Group.Finset
import ShadowProxy.Effects.Threads

/-! Counting the events of the threads of a site. -/

namespace ShadowProxy.Effects

open Prog

variable {I : Interface} {α β : Type}

def Performs (P : I.Op → Prop) : Prog I α → Prop
  | .op o f => P o ∧ ∀ r, Performs P (f r)
  | _ => True

section Performs

variable {P : I.Op → Prop}

lemma Performs.bind {p : Prog I α} {f : α → Prog I β} (hp : Performs P p) (hf : ∀ a, Performs P (f a)) :
    Performs P (p >>= f) := by
  induction p with
  | ret a => exact hf a
  | raise e => trivial
  | op o g ih => exact ⟨hp.1, fun r => ih r (hp.2 r)⟩

lemma Performs.attempt {p : Prog I α} (hp : Performs P p) : Performs P p.attempt := by
  induction p with
  | ret a => trivial
  | raise e => trivial
  | op o g ih => exact ⟨hp.1, fun r => ih r (hp.2 r)⟩

lemma performs_perform {o : I.Op} (ho : P o) : Performs P (perform o) := ⟨ho, fun r => by cases r <;> trivial⟩

lemma performs_orRaise (x : Except I.Exn α) : Performs P (orRaise x) := by
  cases x <;> trivial

lemma Performs.mono {Q : I.Op → Prop} {p : Prog I α} (hp : Performs P p) (hPQ : ∀ o, P o → Q o) :
    Performs Q p := by
  induction p with
  | ret a => trivial
  | raise e => trivial
  | op o g ih => exact ⟨hPQ o hp.1, fun r => ih r (hp.2 r)⟩

lemma Performs.obeys {J : List (Event I) → I.Op → Prop} {p : Prog I α} {h : List (Event I)} (hp : Performs P p)
    (hJ : ∀ h o, P o → J h o) : Obeys J h p (fun _ _ => True) fun _ _ => True := by
  induction p generalizing h with
  | ret a => trivial
  | raise e => trivial
  | op o g ih => exact ⟨hJ h o hp.1, fun r => ih r (hp.2 r)⟩

lemma Performs.issues {p : Prog I α} (hp : Performs P p) : Issues (fun _ => P) p := hp.obeys fun _ _ ho => ho

lemma obeys_bind_performs {J : List (Event I) → I.Op → Prop} {h : List (Event I)} {p : Prog I α} {f : α → Prog I β}
    (hp : Obeys J h p (fun _ _ => True) fun _ _ => True) (hJ : ∀ h o, P o → J h o) (hf : ∀ a, Performs P (f a)) :
    Obeys J h (p >>= f) (fun _ _ => True) fun _ _ => True :=
  (obeys_bind _ _).mpr (hp.mono (fun _ a _ _ => (hf a).obeys hJ) fun _ _ _ _ => trivial)

end Performs

def Concludes (A : Event I → Prop) (h : List (Event I)) : Prog I α →
    (List (Event I) → Except I.Exn α → Prop) → Prop
  | .ret a, Q => Q h (.ok a)
  | .raise e, Q => Q h (.error e)
  | .op o f, Q => ∀ r, A ⟨o, r⟩ → Concludes A (h ++ [⟨o, r⟩]) (f r) Q

section Concludes

variable {A : Event I → Prop} {h : List (Event I)}

@[simp] lemma concludes_ret (a : α) {Q : List (Event I) → Except I.Exn α → Prop} :
    Concludes A h (.ret a) Q ↔ Q h (.ok a) := Iff.rfl

@[simp] lemma concludes_raise (e : I.Exn) {Q : List (Event I) → Except I.Exn α → Prop} :
    Concludes A h (.raise e : Prog I α) Q ↔ Q h (.error e) := Iff.rfl

@[simp] lemma concludes_bind (p : Prog I α) (f : α → Prog I β) {Q : List (Event I) → Except I.Exn β → Prop} :
    Concludes A h (p >>= f) Q ↔ Concludes A h p fun h r =>
      match r with
      | .ok a => Concludes A h (f a) Q
      | .error e => Q h (.error e) := by
  induction p generalizing h with
  | ret a => rfl
  | raise e => rfl
  | op o g ih => exact forall_congr' fun r => imp_congr_right fun _ => ih r

lemma concludes_attempt (p : Prog I α) {Q : List (Event I) → Except I.Exn (Except I.Exn α) → Prop} :
    Concludes A h p.attempt Q ↔ Concludes A h p fun h r => Q h (.ok r) := by
  induction p generalizing h with
  | ret a => rfl
  | raise e => rfl
  | op o g ih => exact forall_congr' fun r => imp_congr_right fun _ => ih r

lemma concludes_perform (o : I.Op) {Q : List (Event I) → Except I.Exn (I.Ret o) → Prop} :
    Concludes A h (perform o) Q ↔ ∀ r, A ⟨o, r⟩ → Q (h ++ [⟨o, r⟩]) r := by
  refine forall_congr' fun r => imp_congr_right fun _ => ?_
  cases r <;> rfl

@[simp] lemma concludes_orRaise (x : Except I.Exn α) {Q : List (Event I) → Except I.Exn α → Prop} :
    Concludes A h (orRaise x) Q ↔ Q h x := by
  cases x <;> rfl

lemma Concludes.mono {p : Prog I α} {Q Q' : List (Event I) → Except I.Exn α → Prop} (hp : Concludes A h p Q)
    (hQ : ∀ l r, h <+: l → Q l r → Q' l r) : Concludes A h p Q' := by
  induction p generalizing h with
  | ret a => exact hQ h _ List.prefix_rfl hp
  | raise e => exact hQ h _ List.prefix_rfl hp
  | op o f ih => exact fun r hA => ih r (hp r hA) fun l r hl => hQ l r ((List.prefix_append _ _).trans hl)

lemma Follows.concludes {p q : Prog I α} {l : List (Event I)} {Q : List (Event I) → Except I.Exn α → Prop}
    (hf : Follows p l q) (hA : ∀ e ∈ l, A e) (hp : Concludes A [] p Q) : Concludes A l q Q := by
  induction hf with
  | nil => exact hp
  | snoc _ r ih => exact ih (fun e he => hA e (List.mem_append_left _ he)) r (hA _ (by simp))

lemma Follows.concluded {p q : Prog I α} {l : List (Event I)} {Q : List (Event I) → Except I.Exn α → Prop}
    (hf : Follows p l q) (hq : q.done = true) (hA : ∀ e ∈ l, A e) (hp : Concludes A [] p Q) : ∃ r, Q l r := by
  have h := hf.concludes hA hp
  cases q with
  | ret a => exact ⟨_, h⟩
  | raise e => exact ⟨_, h⟩
  | op o f => cases hq

lemma Concludes.completes {p : Prog I α} {Q : List (Event I) → Except I.Exn α → Prop} (hp : Concludes A h p Q)
    (hA : ∀ o, ∃ r, A ⟨o, r⟩) : ∃ h' r, h <+: h' ∧ Q h' r := by
  induction p generalizing h with
  | ret a => exact ⟨h, _, List.prefix_rfl, hp⟩
  | raise e => exact ⟨h, _, List.prefix_rfl, hp⟩
  | op o f ih =>
    obtain ⟨r, hr⟩ := hA o
    obtain ⟨h', res, hh, hQ⟩ := ih r (hp r hr)
    exact ⟨h', res, (List.prefix_append _ _).trans hh, hQ⟩

end Concludes

variable {S : System I} {w₀ w : World S} {L : List (Label S)} {t : ℕ} {k : S.Kind}

def spawnedOf (P : S.Kind → Bool) : Label S → Option ℕ
  | .spawn t k => if P k then some t else none
  | _ => none

def threadsOf (P : S.Kind → Bool) (L : List (Label S)) : Finset ℕ := (L.filterMap (spawnedOf P)).toFinset

abbrev threadsOn (x : ℕ) (L : List (Label S)) : Finset ℕ := threadsOf (fun k => S.site k = x) L

lemma mem_threadsOf {P : S.Kind → Bool} : t ∈ threadsOf P L ↔ ∃ k, Label.spawn t k ∈ L ∧ P k = true := by
  simp only [threadsOf, List.mem_toFinset, List.mem_filterMap]
  constructor
  · rintro ⟨l, hl, ht⟩
    cases l with
    | spawn u k =>
      simp only [spawnedOf, Option.ite_none_right_eq_some, Option.some.injEq] at ht
      exact ⟨k, ht.2 ▸ hl, ht.1⟩
    | _ => cases ht
  · rintro ⟨k, hl, hk⟩
    exact ⟨_, hl, by simp [spawnedOf, hk]⟩

lemma mem_threadsOn {x : ℕ} : t ∈ threadsOn x L ↔ ∃ k, Label.spawn t k ∈ L ∧ S.site k = x := by
  simp only [mem_threadsOf, decide_eq_true_eq]

def isEventOf (ts : Finset ℕ) (P : Event I → Bool) : Label S → Bool
  | .act t e => t ∈ ts && P e
  | _ => false

def tally (ts : Finset ℕ) (P : Event I → Bool) (L : List (Label S)) : ℕ := L.countP (isEventOf ts P)

lemma tally_eq_sum (ts : Finset ℕ) (P : Event I → Bool) (L : List (Label S)) :
    tally ts P L = ∑ t ∈ ts, (history t L).countP P := by
  induction L using List.reverseRecOn with
  | nil => simp [tally]
  | append_singleton L l ih =>
    have hlast : ∑ t ∈ ts, (l.eventOf t).toList.countP P = if isEventOf ts P l then 1 else 0 := by
      cases l with
      | act u e =>
        have heach : ∀ t, ((Label.act (S := S) u e).eventOf t).toList.countP P =
            if u = t then if P e then 1 else 0 else 0 := fun t => by
          by_cases hu : u = t <;> cases hP : P e <;> simp [Label.eventOf, hu, hP]
        simp only [heach, Finset.sum_ite_eq, isEventOf, Bool.and_eq_true, decide_eq_true_eq]
        by_cases hu : u ∈ ts <;> simp [hu]
      | _ => simp [Label.eventOf, isEventOf]
    simp only [history_snoc, List.countP_append, Finset.sum_add_distrib, hlast, ← ih]
    simp [tally, List.countP_append, List.countP_singleton]

lemma tally_eq_iff {ts : Finset ℕ} {P Q : Event I → Bool}
    (hle : ∀ t ∈ ts, (history t L).countP P ≤ (history t L).countP Q) :
    tally ts P L = tally ts Q L ↔ ∀ t ∈ ts, (history t L).countP P = (history t L).countP Q := by
  rw [tally_eq_sum, tally_eq_sum, Finset.sum_eq_sum_iff_of_le hle]

lemma tally_congr {ts : Finset ℕ} {P Q : Event I → Bool}
    (h : ∀ t ∈ ts, (history t L).countP P = (history t L).countP Q) : tally ts P L = tally ts Q L := by
  rw [tally_eq_sum, tally_eq_sum, Finset.sum_congr rfl h]

section Issued

variable {J : List (Event I) → I.Op → Prop} {P : I.Op → Prop} {e e' : Event I}

lemma Run.issued_at {L₁ L₂ : List (Label S)} (h : Run w₀ (L₁ ++ .act t e :: L₂) w) (h₀ : ∀ t, w₀.threads t = none)
    (hk : Label.spawn t k ∈ L₁ ++ .act t e :: L₂) (hJ : Issues J (S.program k)) : J (history t L₁) e.op := by
  obtain ⟨w₁, w₂, h₁, -, hs⟩ := RunWhere.at_label h
  obtain ⟨k', hk', -, -, hissued⟩ := (Run.tracked h₁ h₀).issued hs
  obtain rfl := (Run.tracked h h₀).unique t k k' hk (List.mem_append_left _ hk')
  exact hissued J hJ

lemma Run.performs_only (h : Run w₀ L w) (h₀ : ∀ t, w₀.threads t = none) (hk : Label.spawn t k ∈ L)
    (hP : Performs P (S.program k)) : ∀ e ∈ history t L, P e.op := by
  intro e he
  obtain ⟨L₁, L₂, rfl⟩ := List.append_of_mem (mem_history.mp he)
  exact Run.issued_at h h₀ hk hP.issues

lemma Run.once_issued (h : Run w₀ L w) (h₀ : ∀ t, w₀.threads t = none) (hk : Label.spawn t k ∈ L)
    (hJ : Issues J (S.program k)) (hP : ∀ h o, J h o → P o → ∀ e ∈ h, ¬ P e.op) (he : Label.act t e ∈ L)
    (he' : Label.act t e' ∈ L) (hp : P e.op) (hp' : P e'.op) : e = e' := by
  obtain ⟨L₁, L₂, rfl⟩ := List.append_of_mem he
  rcases List.mem_append.mp he' with hm | hm
  · exact absurd hp' (hP _ _ (Run.issued_at h h₀ hk hJ) hp e' (mem_history.mpr hm))
  rcases List.mem_cons.mp hm with hm | hm
  · cases hm
    rfl
  · obtain ⟨M₁, M₂, rfl⟩ := List.append_of_mem hm
    rw [← List.cons_append, ← List.append_assoc] at h hk
    exact absurd hp (hP _ _ (Run.issued_at h h₀ hk hJ) hp' e (mem_history.mpr (by simp)))

lemma Run.countP_le_one {P : Event I → Bool} (h : Run w₀ L w) (h₀ : ∀ t, w₀.threads t = none)
    (hk : Label.spawn t k ∈ L) (hJ : Issues J (S.program k))
    (hP : ∀ h e, J h e.op → P e = true → ∀ e' ∈ h, P e' = false) : (history t L).countP P ≤ 1 := by
  suffices hpre : ∀ L' : List (Label S), L' <+: L → (history t L').countP P ≤ 1 from hpre L List.prefix_rfl
  intro L' hL'
  induction L' using List.reverseRecOn with
  | nil => exact Nat.zero_le _
  | append_singleton L' l ih =>
    have hold := ih ((List.prefix_append _ _).trans hL')
    obtain ⟨M, rfl⟩ := hL'
    rw [history_snoc, List.countP_append]
    cases hl : l.eventOf t with
    | none => simpa using hold
    | some e =>
      have hact : l = .act t e := by
        cases l with
        | act u e' =>
          simp only [Label.eventOf, Option.ite_none_right_eq_some, Option.some.injEq] at hl
          rw [hl.1, hl.2]
        | _ => cases hl
      rw [Option.toList_some, List.countP_singleton]
      split
      · rename_i hp
        have hissued : J (history t L') e.op := by
          rw [List.append_assoc, List.singleton_append, hact] at h hk
          exact Run.issued_at h h₀ hk hJ
        have hzero : (history t L').countP P = 0 := List.countP_eq_zero.mpr fun e' he' => by
          simp [hP _ e hissued hp e' he']
        omega
      · exact hold

end Issued

lemma card_threadsOf_le (P : S.Kind → Bool) (L : List (Label S)) :
    (threadsOf P L).card ≤ L.countP fun l => (spawnedOf P l).isSome := by
  rw [← List.length_filterMap_eq_countP]
  exact List.toFinset_card_le _

lemma tally_le_card {ts : Finset ℕ} {P : Event I → Bool} (h : ∀ t ∈ ts, (history t L).countP P ≤ 1) :
    tally ts P L ≤ ts.card := by
  rw [tally_eq_sum, Finset.card_eq_sum_ones]
  exact Finset.sum_le_sum h

lemma tally_of_subset {ts us : Finset ℕ} {P : Event I → Bool} (hts : ts ⊆ us)
    (hz : ∀ t ∈ us, t ∉ ts → (history t L).countP P = 0) : tally us P L = tally ts P L := by
  rw [tally_eq_sum, tally_eq_sum, Finset.sum_subset hts hz]

lemma Step.live_after {w w' : World S} {l : Label S} {p : Prog I Unit} (hs : Step w l w')
    (hp : w.threads t = some ⟨k, p⟩) (hn : t < w.next) (hc : l ≠ .crash (S.site k)) :
    (∃ p', w'.threads t = some ⟨k, p'⟩) ∨ l = .exit t ∧ w'.threads t = none ∧ p.done = true := by
  cases hs with
  | @spawn u k' hu _ =>
    have hne : t ≠ u := (hn.trans_le hu).ne
    exact .inl ⟨p, by simpa [World.spawn, hne] using hp⟩
  | @act u k' o f r hu _ =>
    by_cases hne : t = u
    · subst hne
      rw [hp, Option.some.injEq, Thread.mk.injEq] at hu
      exact .inl ⟨f r, by simp [World.act, hu.1]⟩
    · exact .inl ⟨p, by simpa [World.act, hne] using hp⟩
  | @exit u k' q hu hd =>
    by_cases hne : t = u
    · subst hne
      rw [hp, Option.some.injEq, Thread.mk.injEq] at hu
      exact .inr ⟨rfl, by simp [World.exit], hu.2 ▸ hd⟩
    · exact .inl ⟨p, by simpa [World.exit, hne] using hp⟩
  | env => exact .inl ⟨p, hp⟩
  | @crash y =>
    have hne : S.site k ≠ y := fun he => hc (he ▸ rfl)
    exact .inl ⟨p, by simp [World.crash, hp, hne]⟩

lemma Step.gone_after {w w' : World S} {l : Label S} (hs : Step w l w') (hnone : w.threads t = none)
    (hn : t < w.next) : w'.threads t = none ∧ history t (L ++ [l]) = history t L := by
  cases hs with
  | @spawn u k' hu _ =>
    have hne : t ≠ u := (hn.trans_le hu).ne
    exact ⟨by simpa [World.spawn, hne] using hnone, history_spawn ..⟩
  | @act u k' o f r hu _ =>
    have hne : u ≠ t := by rintro rfl; simp [hnone] at hu
    exact ⟨by simpa [World.act, hne.symm] using hnone, history_act_ne hne ..⟩
  | @exit u k' q hu _ =>
    have hne : t ≠ u := by rintro rfl; simp [hnone] at hu
    exact ⟨by simpa [World.exit, hne] using hnone, history_exit ..⟩
  | env => exact ⟨hnone, history_env ..⟩
  | crash => exact ⟨by simp [World.crash, hnone], history_crash ..⟩

lemma Run.live_or_ended (h : Run w₀ L w) (h₀ : ∀ t, w₀.threads t = none) (hk : Label.spawn t k ∈ L)
    (hc : Label.crash (S.site k) ∉ L) : (∃ p, w.threads t = some ⟨k, p⟩) ∨
      w.threads t = none ∧ ∃ q, Follows (S.program k) (history t L) q ∧ q.done = true := by
  induction h with
  | nil => cases hk
  | @snoc L w l w' hr _ hs ih =>
    have htr := Run.tracked hr h₀
    rcases List.mem_append.mp hk with hk | hk
    swap
    · obtain rfl := List.mem_singleton.mp hk
      cases hs with
      | spawn => exact .inl ⟨S.program k, by simp [World.spawn]⟩
    have hold : t < w.next := by
      by_contra hle
      exact (htr.fresh t (not_lt.mp hle)).2.2 k hk
    have hl : l ≠ .crash (S.site k) := fun he => hc (by simp [he])
    rcases ih hk fun hm => hc (List.mem_append_left _ hm) with ⟨p, hp⟩ | ⟨hnone, q, hq, hd⟩
    · rcases hs.live_after hp hold hl with hlive | ⟨rfl, hnone, hd⟩
      · exact .inl hlive
      · refine .inr ⟨hnone, p, ?_, hd⟩
        rw [history_exit]
        exact (htr.live t _ hp).2
    · obtain ⟨hnone', hh⟩ := hs.gone_after (L := L) hnone hold
      exact .inr ⟨hnone', q, hh ▸ hq, hd⟩

lemma Run.follows (h : Run w₀ L w)
    (h₀ : ∀ t, w₀.threads t = none) (hk : Label.spawn t k ∈ L) : ∃ q, Follows (S.program k) (history t L) q := by
  induction h with
  | nil => cases hk
  | @snoc L w l w' hr _ hs ih =>
    have htr := Run.tracked hr h₀
    rcases List.mem_append.mp hk with hold | hnew
    swap
    · obtain rfl := List.mem_singleton.mp hnew
      cases hs with
      | spawn ht _ =>
        rw [history_spawn, (htr.fresh t ht).2.1]
        exact ⟨_, .nil⟩
    · cases hs with
      | @act u k' o f r hu _ =>
        by_cases hut : u = t
        · subst hut
          obtain ⟨hk', hf⟩ := htr.live u _ hu
          obtain rfl := htr.unique u k k' hold hk'
          rw [history_act_self]
          exact ⟨_, hf.snoc r⟩
        · rw [history_act_ne hut]
          exact ih hold
      | spawn =>
        rw [history_spawn]
        exact ih hold
      | exit =>
        rw [history_exit]
        exact ih hold
      | env =>
        rw [history_env]
        exact ih hold
      | crash =>
        rw [history_crash]
        exact ih hold

end ShadowProxy.Effects

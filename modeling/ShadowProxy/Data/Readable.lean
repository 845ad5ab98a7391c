import Mathlib.Data.List.Forall2

/-! Texts that can be read back: what a text was made of is told from it, whatever comes after it. -/

namespace ShadowProxy.Data.Readable

/-- Characters are a finite type as well, which is not to be enumerated here. -/
instance decidableForallChar {P : Char → Prop} [DecidablePred P] (w : List Char) : Decidable (∀ c ∈ w, P c) :=
  List.decidableBAll P w

variable {σ τ α : Type}

lemma map_eq_of_forall₂ {R : α → σ → Prop} {f : α → τ} {g : σ → τ} {xs : List α} {ys : List σ}
    (h : List.Forall₂ R xs ys) (hfg : ∀ x ∈ xs, ∀ y, R x y → f x = g y) : xs.map f = ys.map g := by
  induction h with
  | nil => rfl
  | cons hR _ ih =>
    rw [List.map_cons, List.map_cons, hfg _ List.mem_cons_self _ hR, ih fun x hx =>
      hfg x (List.mem_cons_of_mem _ hx)]

/-- What an item was made of, and where its text ends, are told from any text that starts with it. -/
def Rigid (Ends : List σ → Prop) (text : α → List σ) (R : α → α → Prop) (P : α → Prop) (x : α) : Prop :=
  ∀ y u v, P y → Ends u → Ends v → text x ++ u = text y ++ v → R x y ∧ u = v

def continued (sep u : List σ) : List (List σ) → List σ
  | [] => u
  | t :: ts => sep ++ (t ++ continued sep u ts)

lemma intercalate_continued (sep u t : List σ) (ts : List (List σ)) :
    sep.intercalate (t :: ts) ++ u = t ++ continued sep u ts := by
  induction ts generalizing t with
  | nil => simp [continued]
  | cons t' ts ih => rw [List.intercalate_cons_cons, List.append_assoc, List.append_assoc, ih t', continued]

section Items

variable {Ends : List σ → Prop} {text : α → List σ} {R : α → α → Prop} {P : α → Prop} {comma close : σ}
  {sep : List σ}

lemma ends_continued (hcomma : ∀ u, Ends (comma :: u)) (hclose : ∀ u, Ends (close :: u)) (u : List σ)
    (ts : List (List σ)) : Ends (continued (comma :: sep) (close :: u) ts) := by
  cases ts with
  | nil => exact hclose u
  | cons t ts => exact hcomma _

lemma continued_rigid (hcomma : ∀ u, Ends (comma :: u)) (hclose : ∀ u, Ends (close :: u)) (hne : close ≠ comma)
    {xs : List α} (hx : ∀ x ∈ xs, Rigid Ends text R P x) {ys : List α} (hy : ∀ y ∈ ys, P y) {u v : List σ}
    (he : continued (comma :: sep) (close :: u) (xs.map text) =
      continued (comma :: sep) (close :: v) (ys.map text)) :
    List.Forall₂ R xs ys ∧ u = v := by
  induction xs generalizing ys with
  | nil =>
    cases ys with
    | nil => exact ⟨.nil, (List.cons.inj he).2⟩
    | cons y ys => exact (hne (List.cons.inj he).1).elim
  | cons x xs ih =>
    cases ys with
    | nil => exact (hne (List.cons.inj he).1.symm).elim
    | cons y ys =>
      simp only [List.map_cons, continued, List.append_cancel_left_eq] at he
      obtain ⟨hR, ht⟩ := hx x List.mem_cons_self y _ _ (hy y List.mem_cons_self) (ends_continued hcomma hclose _ _)
        (ends_continued hcomma hclose _ _) he
      obtain ⟨hRs, huv⟩ := ih (fun x hm => hx x (List.mem_cons_of_mem _ hm))
        (fun y hm => hy y (List.mem_cons_of_mem _ hm)) ht
      exact ⟨.cons hR hRs, huv⟩

lemma items_rigid (hcomma : ∀ u, Ends (comma :: u)) (hclose : ∀ u, Ends (close :: u)) (hne : close ≠ comma)
    {xs : List α} (hx : ∀ x ∈ xs, Rigid Ends text R P x) {ys : List α} (hy : ∀ y ∈ ys, P y)
    (hlead : ∀ x, x ∈ xs ∨ x ∈ ys → ∃ c t, text x = c :: t ∧ c ≠ close) {u v : List σ}
    (he : (comma :: sep).intercalate (xs.map text) ++ close :: u = (comma :: sep).intercalate (ys.map text) ++
      close :: v) :
    List.Forall₂ R xs ys ∧ u = v := by
  have hnonempty : ∀ x, x ∈ xs ∨ x ∈ ys → ∀ w w' ts, close :: w ≠ (comma :: sep).intercalate (text x :: ts) ++
      w' := by
    intro x hm w w' ts
    obtain ⟨c, t, ht, hc⟩ := hlead x hm
    rw [intercalate_continued, ht]
    exact fun h => hc (List.cons.inj h).1.symm
  cases xs with
  | nil =>
    cases ys with
    | nil => exact ⟨.nil, (List.cons.inj he).2⟩
    | cons y ys => exact (hnonempty y (.inr List.mem_cons_self) _ _ _ he).elim
  | cons x xs =>
    cases ys with
    | nil => exact (hnonempty x (.inl List.mem_cons_self) _ _ _ he.symm).elim
    | cons y ys =>
      rw [List.map_cons, List.map_cons, intercalate_continued, intercalate_continued] at he
      obtain ⟨hR, ht⟩ := hx x List.mem_cons_self y _ _ (hy y List.mem_cons_self) (ends_continued hcomma hclose _ _)
        (ends_continued hcomma hclose _ _) he
      obtain ⟨hRs, huv⟩ := continued_rigid hcomma hclose hne (fun x hm => hx x (List.mem_cons_of_mem _ hm))
        (fun y hm => hy y (List.mem_cons_of_mem _ hm)) ht
      exact ⟨.cons hR hRs, huv⟩

end Items

lemma word_rigid {letter : σ → Bool} {t t' u v : List σ} (ht : ∀ c ∈ t, letter c = true)
    (ht' : ∀ c ∈ t', letter c = true) (hu : ∀ c ∈ u.head?, letter c = false)
    (hv : ∀ c ∈ v.head?, letter c = false) (he : t ++ u = t' ++ v) : t = t' ∧ u = v := by
  have htake : ∀ {s w : List σ}, (∀ c ∈ s, letter c = true) → (∀ c ∈ w.head?, letter c = false) →
      (s ++ w).takeWhile letter = s := by
    intro s w hs hw
    rw [List.takeWhile_append_of_pos hs]
    cases w with
    | nil => simp
    | cons c w => simp [hw c rfl]
  have htt : t = t' := by rw [← htake ht hu, he, htake ht' hv]
  subst htt
  exact ⟨rfl, List.append_cancel_left he⟩

structure PrefixFree (code : α → List τ) (mark : τ) : Prop where
  distinct : ∀ {a b u v}, code a ++ u = code b ++ v → a = b
  marked : ∀ a u v, code a ++ u ≠ mark :: v

lemma PrefixFree.rigid {code : α → List τ} {mark : τ} (h : PrefixFree code mark) {s t : List α} {u v : List τ}
    (he : s.flatMap code ++ mark :: u = t.flatMap code ++ mark :: v) : s = t ∧ u = v := by
  induction s generalizing t with
  | nil =>
    cases t with
    | nil => exact ⟨rfl, (List.cons.inj he).2⟩
    | cons b t =>
      rw [List.flatMap_cons, List.append_assoc] at he
      exact (h.marked b _ _ he.symm).elim
  | cons a s ih =>
    cases t with
    | nil =>
      rw [List.flatMap_cons, List.append_assoc] at he
      exact (h.marked a _ _ he).elim
    | cons b t =>
      rw [List.flatMap_cons, List.flatMap_cons, List.append_assoc, List.append_assoc] at he
      obtain rfl := h.distinct he
      obtain ⟨rfl, huv⟩ := ih (List.append_cancel_left he)
      exact ⟨rfl, huv⟩

end ShadowProxy.Data.Readable

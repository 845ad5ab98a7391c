import ShadowProxy.Evaluator.Text

/-! Strings, numbers and constants in lower case. -/

namespace ShadowProxy

/-- What `str.lower` may put in the place of a character. -/
def Lowers (c : Char) (image : Str) : Prop :=
  if c.toNat < 128 then image = [c.toLower] else ∀ d ∈ image, d.toNat < 128 → d.isAlpha = true

inductive Lowered : Str → Str → Prop
  | nil : Lowered [] []
  | cons {c : Char} {image s t : Str} : Lowers c image → Lowered s t → Lowered (c :: s) (image ++ t)

def quotes : Str := ['\'', '"']

lemma ascii_cases {P : Char → Prop} (h : ∀ n < 128, P (Char.ofNat n)) {c : Char} (hc : c.toNat < 128) : P c :=
  Char.ofNat_toNat c ▸ h c.toNat hc

lemma toLower_mark {c d : Char} (hc : c.toNat < 128) (hd : d ∈ '\\' :: quotes) : c.toLower = d → c = d :=
  ascii_cases (P := fun c => ∀ d ∈ '\\' :: quotes, c.toLower = d → c = d) (by decide) hc d hd

lemma toLower_ascii {c : Char} (hc : c.toNat < 128) : c.toLower.toNat < 128 :=
  ascii_cases (P := fun c => c.toLower.toNat < 128) (by decide) hc

lemma Lowers.mark {c d : Char} {image : Str} (h : Lowers c image) (hd : d ∈ '\\' :: quotes) (hm : d ∈ image) :
    c = d := by
  rw [Lowers] at h
  split at h
  · rename_i hc
    rw [h, List.mem_singleton] at hm
    exact toLower_mark hc hd hm.symm
  · have hplain : ∀ d ∈ '\\' :: quotes, d.toNat < 128 ∧ d.isAlpha = false := by decide
    have halpha := h d hm (hplain d hd).1
    rw [(hplain d hd).2] at halpha
    cases halpha

lemma Lowers.ascii {c : Char} {image : Str} (h : Lowers c image) (hc : c.toNat < 128) : image = [c.toLower] := by
  rwa [Lowers, if_pos hc] at h

namespace Lowered

variable {s t : Str}

lemma append_inv {s' : Str} (h : Lowered (s ++ s') t) : ∃ t₁ t₂, t = t₁ ++ t₂ ∧ Lowered s t₁ ∧ Lowered s' t₂ := by
  induction s generalizing t with
  | nil => exact ⟨[], t, rfl, .nil, h⟩
  | cons c s ih =>
    cases h with
    | cons hc hs =>
      obtain ⟨t₁, t₂, rfl, h₁, h₂⟩ := ih hs
      exact ⟨_, t₂, (List.append_assoc _ _ _).symm, .cons hc h₁, h₂⟩

lemma ascii (h : Lowered s t) (hs : ∀ c ∈ s, c.toNat < 128) : t = s.map Char.toLower := by
  induction h with
  | nil => rfl
  | cons hc _ ih =>
    rw [hc.ascii (hs _ List.mem_cons_self), ih fun c hc => hs c (List.mem_cons_of_mem _ hc)]
    rfl

lemma mark (h : Lowered s t) {d : Char} (hd : d ∈ '\\' :: quotes) (hm : d ∈ t) : d ∈ s := by
  induction h with
  | nil => exact hm
  | cons hc _ ih =>
    rcases List.mem_append.mp hm with hm | hm
    · exact hc.mark hd hm ▸ List.mem_cons_self
    · exact List.mem_cons_of_mem _ (ih hm)

end Lowered

def skipString (quote : Char) : Str → Option Str
  | [] => none
  | '\\' :: _ :: t => skipString quote t
  | c :: t => if c = quote then some t else skipString quote t

/-- What a character of a string becomes between quotes: the quote itself only after a backslash. -/
def Chunk (quote : Char) (t : Str) : Prop :=
  (quote ∉ t ∧ '\\' ∉ t) ∨ ∃ d ds, t = '\\' :: d :: ds ∧ d.toNat < 128 ∧ quote ∉ ds ∧ '\\' ∉ ds

lemma skipString_free {quote : Char} {t : Str} (hq : quote ∉ t) (hb : '\\' ∉ t) (r : Str) :
    skipString quote (t ++ r) = skipString quote r := by
  induction t with
  | nil => rfl
  | cons c t ih =>
    simp only [List.mem_cons, not_or] at hq hb
    rw [List.cons_append, skipString, if_neg (Ne.symm hq.1), ih hq.2 hb.2]
    rintro d t' rfl
    exact (hb.1 rfl).elim

lemma skipString_chunk {quote : Char} {t : Str} (h : Chunk quote t) (r : Str) :
    skipString quote (t ++ r) = skipString quote r := by
  obtain ⟨hq, hb⟩ | ⟨d, ds, rfl, -, hq, hb⟩ := h
  · exact skipString_free hq hb r
  · exact skipString_free hq hb r

lemma Chunk.lowered {quote : Char} (hquote : quote ∈ quotes) {t t' : Str} (h : Chunk quote t) (hl : Lowered t t') :
    Chunk quote t' := by
  have hq' : quote ∈ '\\' :: quotes := List.mem_cons_of_mem _ hquote
  have hb' : '\\' ∈ '\\' :: quotes := List.mem_cons_self
  obtain ⟨hq, hb⟩ | ⟨d, ds, rfl, hd, hq, hb⟩ := h
  · exact .inl ⟨fun hm => hq (hl.mark hq' hm), fun hm => hb (hl.mark hb' hm)⟩
  · cases hl with
    | cons hc hl =>
      cases hl with
      | cons hd' hl =>
        rw [hc.ascii (by decide), hd'.ascii hd]
        exact .inr ⟨d.toLower, _, rfl, toLower_ascii hd, fun hm => hq (hl.mark hq' hm), fun hm =>
          hb (hl.mark hb' hm)⟩

lemma digitChar_hex : ∀ d < 16, d.digitChar ∈ "0123456789abcdef".toList := by decide

lemma mem_toDigits_hex (n : ℕ) : ∀ c ∈ Nat.toDigits 16 n, c ∈ "0123456789abcdef".toList := by
  induction n using Nat.strong_induction_on with
  | _ n ih =>
    rw [Nat.toDigits_eq_if (by decide)]
    intro c hc
    split at hc
    · rename_i hn
      rw [List.mem_singleton.mp hc]
      exact digitChar_hex n hn
    · rcases List.mem_append.mp hc with hc | hc
      · exact ih (n / 16) (by omega) c hc
      · rw [List.mem_singleton.mp hc]
        exact digitChar_hex (n % 16) (Nat.mod_lt _ (by decide))

lemma notMem_hex {d : Char} (hd : d ∈ '\\' :: quotes) (width n : ℕ) : d ∉ hex width n := by
  intro hm
  have hdigit : d ∈ "0123456789abcdef".toList := by
    rw [hex, List.leftpad] at hm
    rcases List.mem_append.mp hm with hm | hm
    · rw [List.eq_of_mem_replicate hm]
      decide
    · exact mem_toDigits_hex n d hm
  have hdisjoint : ∀ d ∈ '\\' :: quotes, d ∉ "0123456789abcdef".toList := by decide
  exact hdisjoint d hd hdigit

lemma escapeChar_chunk (printable : Char → Bool) {quote : Char} (hquote : quote ∈ quotes) (c : Char) :
    Chunk quote (escapeChar printable quote c) := by
  have hq : quote.toNat < 128 := by
    have hall : ∀ q ∈ quotes, q.toNat < 128 := by decide
    exact hall quote hquote
  have hnone : ∀ width n, quote ∉ hex width n ∧ '\\' ∉ hex width n := fun width n =>
    ⟨notMem_hex (List.mem_cons_of_mem _ hquote) width n, notMem_hex List.mem_cons_self width n⟩
  rw [escapeChar]
  split_ifs with hmark
  · refine .inr ⟨c, [], rfl, ?_, by simp, by simp⟩
    obtain rfl | rfl := hmark
    · exact hq
    · decide
  · exact .inr ⟨'t', [], rfl, by decide, by simp, by simp⟩
  · exact .inr ⟨'n', [], rfl, by decide, by simp, by simp⟩
  · exact .inr ⟨'r', [], rfl, by decide, by simp, by simp⟩
  · simp only [not_or] at hmark
    exact .inl ⟨by simp [Ne.symm hmark.1], by simp [Ne.symm hmark.2]⟩
  · exact .inr ⟨'x', _, rfl, by decide, hnone 2 _⟩
  · exact .inr ⟨'u', _, rfl, by decide, hnone 4 _⟩
  · exact .inr ⟨'U', _, rfl, by decide, hnone 8 _⟩

lemma skipString_body (printable : Char → Bool) {quote : Char} (hquote : quote ∈ quotes) (s : Str) {t : Str}
    (h : Lowered (s.flatMap (escapeChar printable quote)) t) (r : Str) :
    skipString quote (t ++ quote :: r) = some r := by
  induction s generalizing t with
  | nil =>
    cases h
    have hb : quote ≠ '\\' := by
      have hall : ∀ q ∈ quotes, q ≠ '\\' := by decide
      exact hall quote hquote
    rw [List.nil_append, skipString, if_pos rfl]
    exact fun _ _ he => (hb he).elim
  | cons c s ih =>
    rw [List.flatMap_cons] at h
    obtain ⟨t₁, t₂, rfl, h₁, h₂⟩ := h.append_inv
    rw [List.append_assoc, skipString_chunk ((escapeChar_chunk printable hquote c).lowered hquote h₁), ih h₂]

lemma quoteOf_mem (s : Str) : quoteOf s ∈ quotes := by
  rw [quoteOf]
  split <;> decide

lemma reprStr_quoted {printable : Char → Bool} {s t : Str} (h : Lowered (reprStr printable s) t) :
    ∃ body, t = quoteOf s :: (body ++ [quoteOf s]) ∧ ∀ r, skipString (quoteOf s) (body ++ quoteOf s :: r) =
      some r := by
  have hq := quoteOf_mem s
  have hsmall : ∀ q ∈ quotes, q.toNat < 128 ∧ q.toLower = q := by decide
  cases h with
  | cons hc hl =>
    obtain ⟨t₁, t₂, rfl, h₁, h₂⟩ := hl.append_inv
    refine ⟨t₁, ?_, skipString_body printable hq s h₁⟩
    rw [hc.ascii (hsmall _ hq).1, h₂.ascii (by simpa using (hsmall _ hq).1)]
    simp [(hsmall _ hq).2]

lemma reprStr_rigid {printable : Char → Bool} {s s' t t' u v : Str} (h : Lowered (reprStr printable s) t)
    (h' : Lowered (reprStr printable s') t') (he : t ++ u = t' ++ v) : t = t' ∧ u = v := by
  obtain ⟨body, rfl, hs⟩ := reprStr_quoted h
  obtain ⟨body', rfl, hs'⟩ := reprStr_quoted h'
  simp only [List.cons_append, List.append_assoc, List.nil_append, List.cons.injEq] at he
  obtain ⟨hq, he⟩ := he
  have huv : u = v := by
    have hu := hs u
    rw [he, hq, hs' v] at hu
    exact (Option.some.inj hu).symm
  subst huv
  rw [hq] at he ⊢
  rw [List.append_cancel_right he]
  exact ⟨rfl, rfl⟩

def wordChars : Str := "0123456789.+-abcdefghijklmnopqrstuvwxyz"

def Delimited (u : Str) : Prop := u = [] ∨ ∃ d ∈ ",]\x7d".toList, ∃ u', u = d :: u'

lemma delimiter_notMem : ∀ d ∈ ",]\x7d".toList, d ∉ wordChars := by decide

lemma Delimited.head {u : Str} (hu : Delimited u) : ∀ c ∈ u.head?, decide (c ∈ wordChars) = false := by
  obtain rfl | ⟨d, hd, u', rfl⟩ := hu
  · simp
  · simpa using delimiter_notMem d hd

/-- The `repr` of a float is no `int`'s, and no constant's. -/
structure PyFloat.WellFormed (x : PyFloat) : Prop where
  chars : x.repr ⊆ "0123456789.+-einfa".toList
  marked : ∃ c ∈ ".en".toList, c ∈ x.repr

lemma decimal_chars (n : ℤ) : decimal n ⊆ "-0123456789".toList := by
  have hdigits : ∀ n : ℕ, Nat.toDigits 10 n ⊆ "-0123456789".toList := by
    intro n c hc
    have hdigit := Nat.isDigit_of_mem_toDigits (by decide) (by decide) hc
    have hsmall : c.toNat < 128 := by
      simp only [Char.isDigit, Bool.and_eq_true, decide_eq_true_eq, UInt32.le_iff_toNat_le] at hdigit
      have hle : c.toNat ≤ 57 := hdigit.2
      omega
    exact ascii_cases (P := fun c => c.isDigit = true → c ∈ "-0123456789".toList) (by decide) hsmall hdigit
  cases n with
  | ofNat n => exact hdigits n
  | negSucc n => exact List.cons_subset.mpr ⟨by decide, hdigits _⟩

lemma toDigits_injective {m n : ℕ} (h : Nat.toDigits 10 m = Nat.toDigits 10 n) : m = n := by
  rw [← Nat.ofDigitChars_ten_toDigits (n := m), h, Nat.ofDigitChars_ten_toDigits]

lemma decimal_injective : Function.Injective decimal := by
  have hsign : ∀ m n : ℕ, Nat.toDigits 10 m ≠ '-' :: Nat.toDigits 10 n := by
    intro m n h
    have hdigit : ('-' : Char).isDigit = true :=
      Nat.isDigit_of_mem_toDigits (n := m) (by decide) (by decide) (h ▸ List.mem_cons_self)
    exact absurd hdigit (by decide)
  intro m n h
  cases m with
  | ofNat m =>
    cases n with
    | ofNat n => exact congrArg _ (toDigits_injective h)
    | negSucc n => exact (hsign _ _ h).elim
  | negSucc m =>
    cases n with
    | ofNat n => exact (hsign _ _ h.symm).elim
    | negSucc n => exact congrArg _ (Nat.succ.inj (toDigits_injective (List.cons.inj h).2))

end ShadowProxy

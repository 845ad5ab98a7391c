import Mathlib.Data.List.Basic

/-! The JSON texts of `json.loads`, with the three constants of it that are no JSON. -/

namespace ShadowProxy.Data.JsonText

abbrev Text := List Char

def blank (c : Char) : Prop := c = ' ' ∨ c = '\t' ∨ c = '\n' ∨ c = '\r'

instance : DecidablePred blank := fun c => inferInstanceAs (Decidable (c = ' ' ∨ c = '\t' ∨ c = '\n' ∨ c = '\r'))

abbrev Blank (w : Text) : Prop := ∀ c ∈ w, blank c

def digit (c : Char) : Prop := c ∈ "0123456789".toList

def hexDigit (c : Char) : Prop := c ∈ "0123456789abcdefABCDEF".toList

structure Digits (s : Text) : Prop where
  ne_nil : s ≠ []
  digit : ∀ c ∈ s, digit c

def Natural (s : Text) : Prop := Digits s ∧ (s = ['0'] ∨ s.head? ≠ some '0')

def Fraction (s : Text) : Prop := s = [] ∨ ∃ ds, Digits ds ∧ s = '.' :: ds

def Exponent (s : Text) : Prop :=
  s = [] ∨ ∃ e ∈ ['e', 'E'], ∃ sign ∈ [[], ['+'], ['-']], ∃ ds, Digits ds ∧ s = e :: (sign ++ ds)

def Number (s : Text) : Prop :=
  ∃ sign ∈ [[], ['-']], ∃ n f e, Natural n ∧ Fraction f ∧ Exponent e ∧ s = sign ++ (n ++ (f ++ e))

inductive Body : Text → Prop
  | nil : Body []
  | plain {c : Char} {s : Text} : c ≠ '"' → c ≠ '\\' → 0x20 ≤ c.toNat → Body s → Body (c :: s)
  | escape {c : Char} {s : Text} : c ∈ "\"\\/bfnrt".toList → Body s → Body ('\\' :: c :: s)
  | unicode {h s : Text} : h.length = 4 → (∀ c ∈ h, hexDigit c) → Body s → Body ('\\' :: 'u' :: (h ++ s))

mutual

inductive Value : Text → Prop
  | constant {s : Text} : s ∈ ["null", "true", "false", "NaN", "Infinity", "-Infinity"].map String.toList → Value s
  | number {s : Text} : Number s → Value s
  | string {s : Text} : Body s → Value ('"' :: (s ++ ['"']))
  | emptyArray {w : Text} : Blank w → Value ('[' :: (w ++ [']']))
  | array {s : Text} : Items s → Value ('[' :: (s ++ [']']))
  | emptyObject {w : Text} : Blank w → Value ('\x7b' :: (w ++ ['\x7d']))
  | object {s : Text} : Members s → Value ('\x7b' :: (s ++ ['\x7d']))

inductive Padded : Text → Prop
  | mk {w s w' : Text} : Blank w → Value s → Blank w' → Padded (w ++ (s ++ w'))

inductive Items : Text → Prop
  | last {s : Text} : Padded s → Items s
  | cons {s rest : Text} : Padded s → Items rest → Items (s ++ ',' :: rest)

inductive Member : Text → Prop
  | mk {w k w' s : Text} : Blank w → Body k → Blank w' → Padded s →
      Member (w ++ '"' :: (k ++ '"' :: (w' ++ ':' :: s)))

inductive Members : Text → Prop
  | last {s : Text} : Member s → Members s
  | cons {s rest : Text} : Member s → Members rest → Members (s ++ ',' :: rest)

end

def opening : Text := "-0123456789\"[\x7bntfNI".toList

def closing : Text := "0123456789\"]\x7dleNy".toList

def OpensWith (cs s : Text) : Prop := ∃ c ∈ cs, ∃ rest, s = c :: rest

def ClosesWith (cs s : Text) : Prop := ∃ c ∈ cs, ∃ rest, s = rest ++ [c]

lemma OpensWith.append {cs s : Text} (h : OpensWith cs s) (t : Text) : OpensWith cs (s ++ t) := by
  obtain ⟨c, hc, rest, rfl⟩ := h
  exact ⟨c, hc, rest ++ t, rfl⟩

lemma ClosesWith.append {cs t : Text} (h : ClosesWith cs t) (s : Text) : ClosesWith cs (s ++ t) := by
  obtain ⟨c, hc, rest, rfl⟩ := h
  exact ⟨c, hc, s ++ rest, by simp⟩

lemma closesWith_bracketed {cs : Text} {c : Char} (h : c ∈ cs) (b : Char) (s : Text) :
    ClosesWith cs (b :: (s ++ [c])) :=
  ⟨c, h, b :: s, rfl⟩

lemma digit_opening {c : Char} (h : digit c) : c ∈ opening := by
  have hsub : "0123456789".toList ⊆ opening := by decide
  exact hsub h

lemma digit_closing {c : Char} (h : digit c) : c ∈ closing := by
  have hsub : "0123456789".toList ⊆ closing := by decide
  exact hsub h

lemma Digits.opens {s : Text} (h : Digits s) : OpensWith opening s := by
  obtain ⟨c, rest, rfl⟩ := List.exists_cons_of_ne_nil h.ne_nil
  exact ⟨c, digit_opening (h.digit c List.mem_cons_self), rest, rfl⟩

lemma Digits.closes {s : Text} (h : Digits s) : ClosesWith closing s := by
  obtain hs | ⟨rest, c, rfl⟩ := List.eq_nil_or_concat' s
  · exact (h.ne_nil hs).elim
  · exact ⟨c, digit_closing (h.digit c (by simp)), rest, rfl⟩

lemma Number.opens {s : Text} (h : Number s) : OpensWith opening s := by
  obtain ⟨sign, hsign, n, f, e, hn, -, -, rfl⟩ := h
  simp only [List.mem_cons, List.not_mem_nil, or_false] at hsign
  obtain rfl | rfl := hsign
  · exact hn.1.opens.append _
  · exact ⟨'-', by decide, _, rfl⟩

lemma Number.closes {s : Text} (h : Number s) : ClosesWith closing s := by
  obtain ⟨sign, -, n, f, e, hn, hf, he, rfl⟩ := h
  refine ClosesWith.append ?_ sign
  obtain rfl | ⟨mark, -, esign, -, ds, hds, rfl⟩ := he
  · obtain rfl | ⟨ds, hds, rfl⟩ := hf
    · simpa using hn.1.closes
    · rw [List.append_nil]
      exact (hds.closes.append ['.']).append n
  · exact ((((hds.closes.append esign).append [mark]).append f).append n)

lemma Value.opens {s : Text} (h : Value s) : OpensWith opening s := by
  cases h with
  | constant h =>
    simp only [List.map_cons, List.map_nil, List.mem_cons, List.not_mem_nil, or_false] at h
    rcases h with rfl | rfl | rfl | rfl | rfl | rfl <;> exact ⟨_, by decide, _, rfl⟩
  | number h => exact h.opens
  | string => exact ⟨'"', by decide, _, rfl⟩
  | emptyArray | array => exact ⟨'[', by decide, _, rfl⟩
  | emptyObject | object => exact ⟨'\x7b', by decide, _, rfl⟩

lemma Value.closes {s : Text} (h : Value s) : ClosesWith closing s := by
  cases h with
  | constant h =>
    simp only [List.map_cons, List.map_nil, List.mem_cons, List.not_mem_nil, or_false] at h
    rcases h with rfl | rfl | rfl | rfl | rfl | rfl
    · exact ⟨'l', by decide, "nul".toList, rfl⟩
    · exact ⟨'e', by decide, "tru".toList, rfl⟩
    · exact ⟨'e', by decide, "fals".toList, rfl⟩
    · exact ⟨'N', by decide, "Na".toList, rfl⟩
    · exact ⟨'y', by decide, "Infinit".toList, rfl⟩
    · exact ⟨'y', by decide, "-Infinit".toList, rfl⟩
  | number h => exact h.closes
  | string => exact closesWith_bracketed (by decide) _ _
  | emptyArray | array => exact closesWith_bracketed (by decide) _ _
  | emptyObject | object => exact closesWith_bracketed (by decide) _ _

end ShadowProxy.Data.JsonText

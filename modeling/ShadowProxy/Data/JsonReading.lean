import ShadowProxy.Data.JsonScanner
import ShadowProxy.Data.Readable

/-! The scanner reads a text as a value if and only if the text denotes it. -/

namespace ShadowProxy.Data.JsonText

scoped instance decidableForallHead {P : Char → Prop} [DecidablePred P] (o : Option Char) :
  Decidable (∀ c ∈ o, P c) :=
  Option.decidableForallMem o

section Runs

variable {p : Char → Bool} {w u : Text}

lemma takeWhile_run (hw : ∀ c ∈ w, p c = true) (hu : ∀ c ∈ u.head?, p c = false) : (w ++ u).takeWhile p = w := by
  rw [List.takeWhile_append_of_pos hw]
  cases u with
  | nil => simp
  | cons c u => simp [hu c rfl]

lemma dropWhile_run (hw : ∀ c ∈ w, p c = true) (hu : ∀ c ∈ u.head?, p c = false) : (w ++ u).dropWhile p = u := by
  rw [List.dropWhile_append_of_pos hw]
  cases u with
  | nil => rfl
  | cons c u => simp [hu c rfl]

end Runs

lemma isDigit_iff {c : Char} : isDigit c = true ↔ digit c := List.contains_iff_mem

lemma skip_run {w u : Text} (hw : Blank w) (hu : ∀ c ∈ u.head?, ¬ blank c) : skip (w ++ u) = u :=
  dropWhile_run (fun c hc => decide_eq_true (hw c hc)) fun c hc => decide_eq_false (hu c hc)

lemma blank_skip (s : Text) : ∃ w, Blank w ∧ s = w ++ skip s := by
  refine ⟨s.takeWhile fun c => decide (blank c), fun c hc => ?_, List.takeWhile_append_dropWhile.symm⟩
  have h := List.mem_takeWhile_imp hc
  exact of_decide_eq_true h

def stops : Text := [' ', '\t', '\n', '\r', ',', ':', ']', '\x7d']

def Stop (rest : Text) : Prop := ∀ c ∈ rest.head?, c ∈ stops

lemma blank_stops {c : Char} (h : blank c) : c ∈ stops := by
  obtain rfl | rfl | rfl | rfl := h <;> decide

lemma stop_blank {w u : Text} (hw : Blank w) (hu : Stop u) : Stop (w ++ u) := by
  cases w with
  | nil => exact hu
  | cons c w =>
    intro d hd
    obtain rfl : c = d := Option.some.inj hd
    exact blank_stops (hw c List.mem_cons_self)

lemma blank_nil : Blank [] := fun _ hc => nomatch hc

lemma Blank.append {w w' : Text} (h : Blank w) (h' : Blank w') : Blank (w ++ w') :=
  fun c hc => (List.mem_append.mp hc).elim (h c) (h' c)

section Strings

variable {quoted s t rest : Text} {us : List ℕ}

lemma lookup_escapes {e : Char} {u : ℕ} : escapes.lookup e = some u ↔ (e, u) ∈ escapes := by
  constructor
  · intro h
    obtain ⟨l₁, l₂, he, -⟩ := List.lookup_eq_some_iff.mp h
    rw [he]
    exact List.mem_append_right _ List.mem_cons_self
  · have hall : ∀ p ∈ escapes, escapes.lookup p.1 = some p.2 := by decide
    exact hall (e, u)

lemma escapes_ne_u {e : Char} {u : ℕ} (h : (e, u) ∈ escapes) : e ≠ 'u' := by
  have hall : ∀ p ∈ escapes, p.1 ≠ 'u' := by decide
  exact hall (e, u) h

lemma map_ok {α β : Type} {x : Scanned α} {f : α → β} {v : β} (h : x.map (fun r => (f r.1, r.2)) = .ok (v, rest)) :
    ∃ a, x = .ok (a, rest) ∧ v = f a := by
  cases x with
  | error e => cases h
  | ok r =>
    obtain ⟨a, u⟩ := r
    obtain ⟨rfl, rfl⟩ := Prod.mk.inj (Except.ok.inj h)
    exact ⟨a, rfl, rfl⟩

lemma scanUnits_sound (h : scanUnits quoted s = .ok (us, rest)) : ∃ k, Units k us ∧ s = k ++ '"' :: rest := by
  fun_induction scanUnits quoted s generalizing us with
  | case1 | case3 | case4 | case5 | case7 | case8 | case10 => cases h
  | case2 =>
    obtain ⟨rfl, rfl⟩ := Prod.mk.inj (Except.ok.inj h)
    exact ⟨[], .nil, rfl⟩
  | case6 h₁ h₂ h₃ h₄ s _ u hu _ ih =>
    obtain ⟨us, hus, rfl⟩ := map_ok h
    obtain ⟨k, hk, rfl⟩ := ih hus
    exact ⟨'\\' :: 'u' :: ([h₁, h₂, h₃, h₄] ++ k), .unicode rfl hu hk, rfl⟩
  | case9 e s _ u hu _ ih =>
    obtain ⟨us, hus, rfl⟩ := map_ok h
    obtain ⟨k, hk, rfl⟩ := ih hus
    exact ⟨'\\' :: e :: k, .escape (lookup_escapes.mp hu) hk, rfl⟩
  | case11 c s hq hb hc ih =>
    obtain ⟨us, hus, rfl⟩ := map_ok h
    obtain ⟨k, hk, rfl⟩ := ih hus
    exact ⟨c :: k, .plain hq hb (by omega) hk, rfl⟩

lemma scanUnits_quote (s : Text) : scanUnits quoted ('"' :: s) = .ok ([], s) := by
  rw [scanUnits.eq_def]
  rfl

lemma scanUnits_plain {c : Char} (hq : c ≠ '"') (hb : c ≠ '\\') (hc : 0x20 ≤ c.toNat) :
    scanUnits quoted (c :: s) = (scanUnits quoted s).map fun r => (c.toNat :: r.1, r.2) := by
  rw [scanUnits.eq_def]
  dsimp only
  rw [if_neg hq, if_neg hb, if_neg (by omega)]

lemma scanUnits_escape {e : Char} {u : ℕ} (he : (e, u) ∈ escapes) :
    scanUnits quoted ('\\' :: e :: s) = (scanUnits quoted s).map fun r => (u :: r.1, r.2) := by
  rw [scanUnits.eq_def]
  dsimp only
  rw [if_neg (by decide), if_pos rfl, if_neg (escapes_ne_u he), lookup_escapes.mpr he]

lemma scanUnits_unicode {h : Text} {u : ℕ} (hlen : h.length = 4) (hu : hexNumber h = some u) (hs : s ≠ []) :
    scanUnits quoted ('\\' :: 'u' :: (h ++ s)) = (scanUnits quoted s).map fun r => (u :: r.1, r.2) := by
  obtain ⟨h₁, h₂, h₃, h₄, rfl⟩ := List.length_eq_four.mp hlen
  rw [scanUnits.eq_def]
  dsimp only [List.cons_append, List.nil_append]
  rw [if_neg (by decide), if_pos rfl, if_pos rfl, if_neg hs, hu]

lemma scanUnits_complete {k : Text} (h : Units k us) : scanUnits quoted (k ++ '"' :: rest) = .ok (us, rest) := by
  induction h with
  | nil => exact scanUnits_quote rest
  | plain hq hb hc _ ih => rw [List.cons_append, scanUnits_plain hq hb hc, ih, Except.map]
  | escape he _ ih => rw [List.cons_append, List.cons_append, scanUnits_escape he, ih, Except.map]
  | unicode hlen hu _ ih =>
    rw [List.cons_append, List.cons_append, List.append_assoc, scanUnits_unicode hlen hu (by simp), ih, Except.map]

def Quoted (t : Text) (cs : List ℕ) : Prop := ∃ k us, Units k us ∧ t = k ++ ['"'] ∧ cs = joinSurrogates us

end Strings

section Numbers

variable {s t rest n f e : Text}

lemma span_digits {s : Text} (h : s.takeWhile isDigit ≠ []) : Digits (s.takeWhile isDigit) where
  ne_nil := h
  digit _ hc := isDigit_iff.mp (List.mem_takeWhile_imp hc)

lemma Digits.run {ds : Text} (h : Digits ds) : ∀ c ∈ ds, isDigit c = true :=
  fun c hc => isDigit_iff.mpr (h.digit c hc)

lemma splitSign_sound (signs s : Text) : (splitSign signs s).1 ++ (splitSign signs s).2 = s ∧
    ((splitSign signs s).1 = [] ∨ ∃ c ∈ signs, (splitSign signs s).1 = [c]) := by
  cases s with
  | nil => exact ⟨rfl, .inl rfl⟩
  | cons c s =>
    rw [splitSign]
    split_ifs with hc
    · exact ⟨rfl, .inr ⟨c, List.contains_iff_mem.mp hc, rfl⟩⟩
    · exact ⟨rfl, .inl rfl⟩

lemma splitSign_none {signs : Text} (h : ∀ c ∈ s.head?, c ∉ signs) : splitSign signs s = ([], s) := by
  cases s with
  | nil => rfl
  | cons c s => rw [splitSign, if_neg (by simpa using h c rfl)]

lemma splitSign_some {signs : Text} {c : Char} (h : c ∈ signs) : splitSign signs (c :: s) = ([c], s) := by
  rw [splitSign, if_pos (List.contains_iff_mem.mpr h)]

lemma scanNatural_sound (h : scanNatural s = some (n, rest)) : Natural n ∧ s = n ++ rest := by
  cases s with
  | nil => cases h
  | cons c s =>
    rw [scanNatural] at h
    split_ifs at h with h0 hd
    · obtain ⟨rfl, rfl⟩ := Prod.mk.inj (Option.some.inj h)
      subst h0
      exact ⟨⟨⟨by simp, by simp [digit]⟩, .inl rfl⟩, rfl⟩
    · obtain ⟨rfl, rfl⟩ := Prod.mk.inj (Option.some.inj h)
      refine ⟨⟨⟨by simp, fun d hm => ?_⟩, .inr (by simpa using h0)⟩, ?_⟩
      · rcases List.mem_cons.mp hm with rfl | hm
        · exact isDigit_iff.mp hd
        · exact isDigit_iff.mp (List.mem_takeWhile_imp hm)
      · rw [List.cons_append, List.takeWhile_append_dropWhile]

lemma scanNatural_complete (hn : Natural n) (hrest : ∀ c ∈ rest.head?, isDigit c = false) :
    scanNatural (n ++ rest) = some (n, rest) := by
  obtain ⟨hds, hzero⟩ := hn
  obtain ⟨c, ds, rfl⟩ := List.exists_cons_of_ne_nil hds.ne_nil
  rw [List.cons_append, scanNatural]
  by_cases h0 : c = '0'
  · have hs : ds = [] := by simpa [h0] using hzero
    rw [if_pos h0, hs, h0, List.nil_append]
  · have hrun : ∀ d ∈ ds, isDigit d = true := fun d hd => hds.run d (List.mem_cons_of_mem c hd)
    rw [if_neg h0, if_pos (hds.run c List.mem_cons_self), takeWhile_run hrun hrest, dropWhile_run hrun hrest]

lemma scanFraction_sound (s : Text) :
    Fraction (scanFraction s).1 ∧ s = (scanFraction s).1 ++ (scanFraction s).2 := by
  cases s with
  | nil => exact ⟨.inl rfl, rfl⟩
  | cons c s =>
    rw [scanFraction]
    split_ifs with hf
    · refine ⟨.inr ⟨_, span_digits hf.2, by rw [hf.1]⟩, ?_⟩
      rw [List.cons_append, List.takeWhile_append_dropWhile]
    · exact ⟨.inl rfl, rfl⟩

lemma scanFraction_complete (hf : Fraction f) (hrest : ∀ c ∈ rest.head?, isDigit c = false ∧ c ≠ '.') :
    scanFraction (f ++ rest) = (f, rest) := by
  obtain rfl | ⟨ds, hds, rfl⟩ := hf
  · cases rest with
    | nil => rfl
    | cons c rest => rw [List.nil_append, scanFraction, if_neg fun h => (hrest c rfl).2 h.1]
  · have hrest : ∀ c ∈ rest.head?, isDigit c = false := fun c hc => (hrest c hc).1
    rw [List.cons_append, scanFraction, takeWhile_run hds.run hrest, dropWhile_run hds.run hrest,
      if_pos ⟨rfl, hds.ne_nil⟩]

lemma scanExponent_sound (s : Text) :
    Exponent (scanExponent s).1 ∧ s = (scanExponent s).1 ++ (scanExponent s).2 := by
  cases s with
  | nil => exact ⟨.inl rfl, rfl⟩
  | cons c s =>
    obtain ⟨hsplit, hsign⟩ := splitSign_sound ['+', '-'] s
    simp only [scanExponent]
    split_ifs with he
    · refine ⟨.inr ⟨c, by simpa using he.1, _, ?_, _, span_digits he.2, rfl⟩, ?_⟩
      · simpa using hsign
      · rw [List.cons_append, List.append_assoc, List.takeWhile_append_dropWhile, hsplit]
    · exact ⟨.inl rfl, rfl⟩

lemma scanExponent_complete (he : Exponent e) (hrest : ∀ c ∈ rest.head?, isDigit c = false ∧ c ≠ 'e' ∧ c ≠ 'E') :
    scanExponent (e ++ rest) = (e, rest) := by
  obtain rfl | ⟨mark, hmark, sign, hsign, ds, hds, rfl⟩ := he
  · cases rest with
    | nil => rfl
    | cons c rest =>
      have hne := (hrest c rfl).2
      simp [scanExponent, hne]
  · have hrest : ∀ c ∈ rest.head?, isDigit c = false := fun c hc => (hrest c hc).1
    have hsplit : splitSign ['+', '-'] (sign ++ (ds ++ rest)) = (sign, ds ++ rest) := by
      have hnone : ∀ c ∈ (ds ++ rest).head?, c ∉ ['+', '-'] := by
        obtain ⟨c, ds', rfl⟩ := List.exists_cons_of_ne_nil hds.ne_nil
        intro d hd
        obtain rfl : c = d := Option.some.inj hd
        have hall : ∀ c ∈ ['+', '-'], isDigit c = false := by decide
        exact fun hm => by simpa [hall c hm] using hds.run c List.mem_cons_self
      simp only [List.mem_cons, List.not_mem_nil, or_false] at hsign
      rcases hsign with rfl | rfl | rfl
      · exact splitSign_none hnone
      · exact splitSign_some (by decide)
      · exact splitSign_some (by decide)
    simp only [List.cons_append, List.append_assoc, scanExponent, hsplit, takeWhile_run hds.run hrest,
      dropWhile_run hds.run hrest]
    rw [if_pos ⟨by simpa using hmark, hds.ne_nil⟩]

lemma Natural.head_digit (hn : Natural n) : ∃ c ds, n = c :: ds ∧ isDigit c = true := by
  obtain ⟨c, ds, rfl⟩ := List.exists_cons_of_ne_nil hn.1.ne_nil
  exact ⟨c, ds, rfl, hn.1.run c List.mem_cons_self⟩

lemma Fraction.head (hf : Fraction f) : f = [] ∨ ∃ ds, f = '.' :: ds := by
  obtain rfl | ⟨ds, -, rfl⟩ := hf
  · exact .inl rfl
  · exact .inr ⟨ds, rfl⟩

lemma Exponent.head (he : Exponent e) : e = [] ∨ ∃ c ds, (c = 'e' ∨ c = 'E') ∧ e = c :: ds := by
  obtain rfl | ⟨c, hc, sign, -, ds, -, rfl⟩ := he
  · exact .inl rfl
  · exact .inr ⟨c, sign ++ ds, by simpa using hc, rfl⟩

lemma number_parts (hf : Fraction f) (he : Exponent e) (hrest : Stop rest) :
    (∀ c ∈ rest.head?, isDigit c = false ∧ c ≠ 'e' ∧ c ≠ 'E') ∧
      (∀ c ∈ (e ++ rest).head?, isDigit c = false ∧ c ≠ '.') ∧ ∀ c ∈ (f ++ (e ++ rest)).head?,
      isDigit c = false := by
  have hstop : ∀ c ∈ stops, isDigit c = false ∧ c ≠ '.' ∧ c ≠ 'e' ∧ c ≠ 'E' := by decide
  have hafter : ∀ c ∈ (e ++ rest).head?, isDigit c = false ∧ c ≠ '.' := by
    obtain rfl | ⟨d, ds, hd, rfl⟩ := he.head
    · exact fun c hc => ⟨(hstop c (hrest c hc)).1, (hstop c (hrest c hc)).2.1⟩
    · intro c hc
      obtain rfl : d = c := Option.some.inj hc
      rcases hd with rfl | rfl <;> decide
  refine ⟨fun c hc => ⟨(hstop c (hrest c hc)).1, (hstop c (hrest c hc)).2.2⟩, hafter, ?_⟩
  obtain rfl | ⟨ds, rfl⟩ := hf.head
  · exact fun c hc => (hafter c hc).1
  · intro c hc
    obtain rfl : '.' = c := Option.some.inj hc
    decide

variable {ν : Type} {b : Builder ν} {lim : Limits} {v : ν}

lemma scanNumber_sound (h : scanNumber b lim s = .ok (v, rest)) : ∃ t, Scalar b lim t v ∧ s = t ++ rest := by
  rw [scanNumber] at h
  obtain ⟨hsplit, hsign⟩ := splitSign_sound ['-'] s
  have hsign : (splitSign ['-'] s).1 ∈ [[], ['-']] := by simpa using hsign
  cases hn : scanNatural (splitSign ['-'] s).2 with
  | none => simp [hn] at h
  | some r =>
    obtain ⟨n, t⟩ := r
    obtain ⟨hnat, ht⟩ := scanNatural_sound hn
    obtain ⟨hf, hft⟩ := scanFraction_sound t
    obtain ⟨he, het⟩ := scanExponent_sound (scanFraction t).2
    simp only [hn] at h
    split_ifs at h with hint hfits
    · obtain ⟨rfl, rfl⟩ := Prod.mk.inj (Except.ok.inj h)
      refine ⟨_, .int hsign hnat hfits, ?_⟩
      rw [hint.1, List.nil_append] at hft
      rw [hint.2, List.nil_append] at het
      rw [List.append_assoc, ← het, ← hft, ← ht, hsplit]
    · obtain ⟨rfl, rfl⟩ := Prod.mk.inj (Except.ok.inj h)
      refine ⟨_, .float hsign hnat hf he hint, ?_⟩
      rw [List.append_assoc, List.append_assoc, List.append_assoc, ← het, ← hft, ← ht, hsplit]

lemma splitSign_number {sign : Text} (hsign : sign ∈ [[], ['-']]) (hn : Natural n) :
    splitSign ['-'] (sign ++ (n ++ rest)) = (sign, n ++ rest) := by
  obtain ⟨c, ds, rfl, hc⟩ := hn.head_digit
  simp only [List.mem_cons, List.not_mem_nil, or_false] at hsign
  rcases hsign with rfl | rfl
  · apply splitSign_none
    intro d hd
    obtain rfl : c = d := Option.some.inj hd
    have hminus : isDigit '-' = false := by decide
    simp only [List.mem_singleton]
    rintro rfl
    exact Bool.false_ne_true (hminus.symm.trans hc)
  · exact splitSign_some List.mem_cons_self

lemma scanNumber_int {sign : Text} (hsign : sign ∈ [[], ['-']]) (hn : Natural n) (hfits : lim.fits n)
    (hrest : Stop rest) : scanNumber b lim (sign ++ (n ++ rest)) = .ok (b.int (sign ++ n), rest) := by
  obtain ⟨hexp, hfrac, hnat⟩ := number_parts (f := []) (e := []) (.inl rfl) (.inl rfl) hrest
  have hf := scanFraction_complete (.inl rfl) hfrac
  have he := scanExponent_complete (.inl rfl) hexp
  simp only [List.nil_append] at hf he hnat
  simp only [scanNumber, splitSign_number hsign hn, scanNatural_complete hn hnat, hf, he]
  rw [if_pos ⟨trivial, trivial⟩, if_pos hfits]

variable (b) (lim) in
lemma scanNumber_float {sign : Text} (hsign : sign ∈ [[], ['-']]) (hn : Natural n) (hf : Fraction f)
    (he : Exponent e) (hfloat : ¬ (f = [] ∧ e = [])) (hrest : Stop rest) :
    scanNumber b lim (sign ++ (n ++ (f ++ (e ++ rest)))) = .ok (b.float (sign ++ (n ++ (f ++ e))), rest) := by
  obtain ⟨hexp, hfrac, hnat⟩ := number_parts hf he hrest
  simp only [scanNumber, splitSign_number hsign hn, scanNatural_complete hn hnat, scanFraction_complete hf hfrac,
    scanExponent_complete he hexp]
  rw [if_neg hfloat]

end Numbers

section Words

variable {s w rest : Text} {k : Constant}

lemma scanWord_sound (h : scanWord s = some (k, rest)) : ∃ w, (w, k) ∈ words ∧ s = w ++ rest := by
  obtain ⟨⟨w, l⟩, hw, he⟩ := List.exists_of_findSome?_eq_some h
  split_ifs at he with hpre
  obtain ⟨rfl, rfl⟩ := Prod.mk.inj (Option.some.inj he)
  refine ⟨w, hw, ?_⟩
  obtain ⟨t, rfl⟩ := List.isPrefixOf_iff_prefix.mp hpre
  simp

lemma scanWord_complete (rest : Text) (h : (w, k) ∈ words) : scanWord (w ++ rest) = some (k, rest) := by
  simp only [words, List.mem_cons, Prod.mk.injEq, List.not_mem_nil, or_false] at h
  rcases h with ⟨rfl, rfl⟩ | ⟨rfl, rfl⟩ | ⟨rfl, rfl⟩ | ⟨rfl, rfl⟩ | ⟨rfl, rfl⟩ | ⟨rfl, rfl⟩ <;> rfl

lemma scanWord_number {sign n : Text} (rest : Text) (hsign : sign ∈ [[], ['-']]) (hn : Natural n) :
    scanWord (sign ++ (n ++ rest)) = none := by
  obtain ⟨c, ds, rfl, hc⟩ := hn.head_digit
  rw [scanWord, List.findSome?_eq_none_iff]
  intro p hp
  rw [if_neg]
  intro hpre
  obtain ⟨t, ht⟩ := List.isPrefixOf_iff_prefix.mp hpre
  have hfirst : ∀ p ∈ words, ∀ d ∈ p.1.head?, isDigit d = false := by decide
  have hsecond : ∀ p ∈ words, ∀ d ∈ p.1.tail.head?, isDigit d = false := by decide
  have hlong : ∀ p ∈ words, p.1 ≠ [] ∧ p.1.tail ≠ [] := by decide
  obtain ⟨d, ws, hw⟩ := List.exists_cons_of_ne_nil (hlong p hp).1
  have htail := (hlong p hp).2
  rw [hw] at htail
  obtain ⟨d', ws', rfl⟩ := List.exists_cons_of_ne_nil htail
  rw [hw] at ht
  simp only [List.mem_cons, List.not_mem_nil, or_false] at hsign
  rcases hsign with rfl | rfl
  · obtain rfl : d = c := (List.cons.inj ht).1
    exact Bool.false_ne_true ((hfirst p hp d (by simp [hw])).symm.trans hc)
  · obtain rfl : d' = c := (List.cons.inj (List.cons.inj ht).2).1
    exact Bool.false_ne_true ((hsecond p hp d' (by simp [hw])).symm.trans hc)

end Words

structure Reads {α : Type} (scan : Text → Scanned α) (D : Text → α → Prop) : Prop where
  sound : ∀ {s v rest}, scan s = .ok (v, rest) → ∃ t, D t v ∧ s = t ++ rest
  complete : ∀ {t v rest}, D t v → Stop rest → scan (t ++ rest) = .ok (v, rest)
  lead : ∀ {t v}, D t v → OpensWith opening t

structure ReadsClosed {α : Type} (scan : Text → Scanned α) (D : Text → α → Prop) : Prop where
  sound : ∀ {s v rest}, scan s = .ok (v, rest) → ∃ t, D t v ∧ s = t ++ rest
  complete : ∀ {t v} rest, D t v → scan (t ++ rest) = .ok (v, rest)

section Items

variable {α : Type} {scan : Text → Scanned α} {D : Text → α → Prop} {close : Char} {trailing s t w rest : Text}
  {v : α} {vs : List α}

lemma Around.blank (h : Around D t v) (hw : Blank w) : Around D (w ++ t) v := by
  obtain ⟨w₁, u, w₂, h₁, hu, h₂, rfl⟩ := h
  exact ⟨w ++ w₁, u, w₂, hw.append h₁, hu, h₂, by rw [List.append_assoc]⟩

lemma ItemsOf.blank (h : ItemsOf (Around D) t vs) (hw : Blank w) : ItemsOf (Around D) (w ++ t) vs := by
  cases h with
  | last h => exact .last (h.blank hw)
  | cons h hs =>
    rw [← List.append_assoc]
    exact .cons (h.blank hw) hs

lemma ItemsOf.length_le (hD : ∀ {t v}, D t v → t ≠ []) (h : ItemsOf D t vs) : vs.length ≤ t.length := by
  induction h with
  | last h => exact List.length_pos_iff.mpr (hD h)
  | cons _ _ ih =>
    simp only [List.length_cons, List.length_append]
    omega

lemma Reads.around_ne_nil (hr : Reads scan D) (h : Around D t v) : t ≠ [] := by
  obtain ⟨w, s, w', -, hs, -, rfl⟩ := h
  obtain ⟨c, -, s, rfl⟩ := hr.lead hs
  simp

lemma Reads.head_not_stop (hr : Reads scan D) (h : D t v) (u : Text) : ∀ c ∈ (t ++ u).head?, c ∉ stops := by
  have hopening : ∀ c ∈ opening, c ∉ stops := by decide
  obtain ⟨c, hc, s, rfl⟩ := hr.lead h
  intro d hd
  obtain rfl : c = d := Option.some.inj hd
  exact hopening c hc

lemma Reads.around_skip (hr : Reads scan D) (h : Around D t v) :
    ∃ s w, D s v ∧ Blank w ∧ ∀ u, skip (t ++ u) = s ++ (w ++ u) := by
  obtain ⟨w, s, w', hw, hs, hw', rfl⟩ := h
  refine ⟨s, w', hs, hw', fun u => ?_⟩
  rw [List.append_assoc, List.append_assoc]
  exact skip_run hw fun c hc hblank => hr.head_not_stop hs _ c hc (blank_stops hblank)

lemma Reads.items_skip (hr : Reads scan D) (h : ItemsOf (Around D) t vs) : ∃ s, ItemsOf (Around D) s vs ∧
    ∀ u, skip (t ++ u) = s ++ u := by
  cases h with
  | last h =>
    obtain ⟨s, w, hs, hw, he⟩ := hr.around_skip h
    exact ⟨s ++ w, .last ⟨[], s, w, blank_nil, hs, hw, rfl⟩, fun u => by rw [he, List.append_assoc]⟩
  | @cons t rest v vs h hvs =>
    obtain ⟨s, w, hs, hw, he⟩ := hr.around_skip h
    refine ⟨s ++ w ++ ',' :: rest, .cons ⟨[], s, w, blank_nil, hs, hw, rfl⟩ hvs, fun u => ?_⟩
    rw [List.append_assoc, he]
    simp

lemma Reads.items_skip_head (hr : Reads scan D) (h : ItemsOf (Around D) t vs) (u : Text) :
    ∀ c ∈ (skip (t ++ u)).head?, c ∉ stops := by
  have hitem : ∀ {t v}, Around D t v → ∀ u, ∀ c ∈ (skip (t ++ u)).head?, c ∉ stops := by
    intro t v hv u c hc
    obtain ⟨s, w, hs, -, he⟩ := hr.around_skip hv
    rw [he] at hc
    exact hr.head_not_stop hs _ c hc
  cases h with
  | last h => exact hitem h u
  | cons h =>
    rw [List.append_assoc]
    exact hitem h _

def Closing (c : Char) : Prop := c = ']' ∨ c = '\x7d'

lemma Closing.stops (h : Closing close) : close ∈ stops ∧ ¬ blank close ∧ ',' ≠ close := by
  obtain rfl | rfl := h <;> decide

lemma skip_mark {c : Char} (hw : Blank w) (hc : ¬ blank c) : skip (w ++ c :: t) = c :: t := by
  apply skip_run hw
  intro d hd
  obtain rfl : c = d := Option.some.inj hd
  exact hc

lemma scanItems_sound (hr : Reads scan D) {n : ℕ} (h : scanItems close trailing scan n s = .ok (vs, rest)) :
    ∃ t, s = t ++ close :: rest ∧ ItemsOf (Around D) t vs := by
  induction n generalizing s vs with
  | zero => cases h
  | succ n ih =>
    rw [scanItems] at h
    cases hv : scan s with
    | error e => simp [hv] at h
    | ok r =>
      obtain ⟨v, u⟩ := r
      obtain ⟨t, ht, rfl⟩ := hr.sound hv
      obtain ⟨w, hw, hu⟩ := blank_skip u
      have haround : Around D (t ++ w) v := ⟨[], t, w, blank_nil, ht, hw, rfl⟩
      simp only [hv] at h
      cases hskip : skip u with
      | nil => simp [hskip] at h
      | cons c u' =>
        rw [hskip] at hu
        simp only [hskip] at h
        split_ifs at h with hclose hcomma htrail
        · obtain ⟨rfl, rfl⟩ := Prod.mk.inj (Except.ok.inj h)
          exact ⟨t ++ w, by rw [hu, hclose, List.append_assoc], .last haround⟩
        · obtain ⟨vs, hvs, rfl⟩ := map_ok h
          obtain ⟨t', ht', hitems⟩ := ih hvs
          obtain ⟨w', hw', hu'⟩ := blank_skip u'
          refine ⟨t ++ w ++ ',' :: (w' ++ t'), ?_, .cons haround (hitems.blank hw')⟩
          rw [hu, hu', ht', hcomma]
          simp

lemma scanItems_complete (hr : Reads scan D) (hc : Closing close) {n : ℕ} (h : ItemsOf (Around D) t vs)
    (hn : vs.length ≤ n) : scanItems close trailing scan n (skip (t ++ close :: rest)) = .ok (vs, rest) := by
  obtain ⟨hstop, hblank, hcomma⟩ := hc.stops
  induction h generalizing n with
  | @last t v h =>
    obtain ⟨n, rfl⟩ : ∃ m, n = m + 1 := ⟨n - 1, by simp only [List.length_singleton] at hn; omega⟩
    obtain ⟨s, w, hs, hw, he⟩ := hr.around_skip h
    have hend : Stop (w ++ close :: rest) := stop_blank hw fun d hd => Option.some.inj hd ▸ hstop
    rw [he, scanItems, hr.complete hs hend]
    simp only [skip_mark hw hblank, reduceIte]
  | @cons t rest' v vs h hvs ih =>
    obtain ⟨n, rfl⟩ : ∃ m, n = m + 1 := ⟨n - 1, by simp only [List.length_cons] at hn; omega⟩
    obtain ⟨s, w, hs, hw, he⟩ := hr.around_skip h
    have hend : Stop (w ++ ',' :: (rest' ++ close :: rest)) :=
      stop_blank hw fun d hd => Option.some.inj hd ▸ by decide
    have hmore : (skip (rest' ++ close :: rest)).head? ≠ some close := fun hd =>
      hr.items_skip_head hvs _ close hd hstop
    have htail := ih (n := n) (by simp only [List.length_cons] at hn; omega)
    rw [List.append_assoc, List.cons_append, he, scanItems, hr.complete hs hend]
    simp only [skip_mark hw (c := ',') (by decide), hcomma, hmore, htail, Except.map, reduceIte]

lemma scanList_reads (trailing : Text) (hr : Reads scan D) (hc : Closing close) :
    ReadsClosed (scanList close trailing scan) (ListOf close D) where
  sound {s vs rest} h := by
    obtain ⟨w, hw, hs⟩ := blank_skip s
    rw [scanList] at h
    split_ifs at h with hhead
    · obtain ⟨rfl, rfl⟩ := Prod.mk.inj (Except.ok.inj h)
      obtain ⟨u, hu⟩ := List.head?_eq_some_iff.mp hhead
      refine ⟨w ++ [close], ⟨w, rfl, .inl ⟨hw, rfl⟩⟩, ?_⟩
      rw [hu, List.tail_cons, List.append_assoc]
      rw [hu] at hs
      exact hs
    · obtain ⟨t, ht, hitems⟩ := scanItems_sound hr h
      refine ⟨w ++ t ++ [close], ⟨w ++ t, rfl, .inr (hitems.blank hw)⟩, ?_⟩
      rw [List.append_assoc, List.append_assoc, List.singleton_append, ← ht]
      exact hs
  complete {t vs} rest h := by
    obtain ⟨hstop, hblank, -⟩ := hc.stops
    obtain ⟨s, rfl, ⟨hs, rfl⟩ | hitems⟩ := h
    · rw [List.append_assoc, List.singleton_append, scanList, skip_mark hs hblank]
      simp
    · rw [List.append_assoc, List.singleton_append, scanList]
      have hmore : (skip (s ++ close :: rest)).head? ≠ some close :=
        fun hd => hr.items_skip_head hitems _ close hd hstop
      rw [if_neg hmore]
      apply scanItems_complete hr hc hitems
      obtain ⟨s', hs', he⟩ := hr.items_skip hitems
      have hlen := hs'.length_le hr.around_ne_nil
      rw [he, List.length_append]
      omega

end Items

section Values

variable {ν : Type} {scan : Text → Scanned ν} {D : Text → ν → Prop} {quoted : Text}

lemma scanString_quote {k : Text} {us : List ℕ} (h : Units k us) (rest : Text) :
    scanString quoted (k ++ '"' :: rest) = .ok (joinSurrogates us, rest) := by
  rw [scanString, scanUnits_complete h, Except.map]

lemma scanString_reads : ReadsClosed (scanString quoted) Quoted where
  sound {s cs rest} h := by
    obtain ⟨us, hus, rfl⟩ := map_ok h
    obtain ⟨k, hk, rfl⟩ := scanUnits_sound hus
    exact ⟨k ++ ['"'], ⟨k, us, hk, rfl, rfl⟩, by simp⟩
  complete {t cs} rest h := by
    obtain ⟨k, us, hk, rfl, rfl⟩ := h
    rw [List.append_assoc, List.singleton_append, scanString_quote hk]

lemma scanMember_reads (hr : Reads scan D) : Reads (scanMember scan) (Entry D) where
  sound {s m rest} h := by
    cases s with
    | nil => cases h
    | cons c s =>
      rw [scanMember] at h
      split_ifs at h with hc
      cases hk : scanString (c :: s) s with
      | error e => simp [hk] at h
      | ok r =>
        obtain ⟨cs, u⟩ := r
        obtain ⟨t, ⟨k, us, hus, rfl, rfl⟩, hs⟩ := scanString_reads.sound hk
        obtain ⟨w, hw, hu⟩ := blank_skip u
        simp only [hk] at h
        cases hskip : skip u with
        | nil => simp [hskip] at h
        | cons d u' =>
          simp only [hskip] at h
          split_ifs at h with hd
          obtain ⟨v, hv, rfl⟩ := map_ok (f := fun v => (joinSurrogates us, v)) h
          obtain ⟨t', ht', he⟩ := hr.sound hv
          obtain ⟨w', hw', hu'⟩ := blank_skip u'
          refine ⟨_, .mk hus hw hw' ht', ?_⟩
          rw [hc, hs, hu, hskip, hd, hu', he]
          simp
  complete {t m rest} h hrest := by
    obtain ⟨hus, hw, hw', hs⟩ := h
    rename_i k w w' s us v
    have hskip : skip (w' ++ (s ++ rest)) = s ++ rest :=
      skip_run hw' fun c hc hblank => hr.head_not_stop hs _ c hc (blank_stops hblank)
    have hvalue := hr.complete hs hrest
    simp only [List.append_assoc, List.cons_append]
    simp only [scanMember, scanString_quote hus, skip_mark hw (c := ':') (by decide), hskip, hvalue,
      Except.map, reduceIte]
  lead {t m} h := by
    obtain ⟨hus, hw, hw', hs⟩ := h
    exact ⟨'"', by decide, _, rfl⟩

lemma ReadsClosed.map {α : Type} {scan : Text → Scanned α} {D : Text → α → Prop} (hr : ReadsClosed scan D)
    (f : α → ν) : ReadsClosed (fun s => (scan s).map fun r => (f r.1, r.2)) fun t v => ∃ a, D t a ∧ v = f a where
  sound {s v rest} h := by
    obtain ⟨a, ha, rfl⟩ := map_ok h
    obtain ⟨t, ht, rfl⟩ := hr.sound ha
    exact ⟨t, ⟨a, ht, rfl⟩, rfl⟩
  complete {t v} rest h := by
    obtain ⟨a, ha, rfl⟩ := h
    simp only [hr.complete rest ha, Except.map]

lemma readsClosed_error (e : Failure) : ReadsClosed (fun _ => .error e) fun (_ : Text) (_ : ν) => False where
  sound h := nomatch h
  complete _ h := h.elim

variable {b : Builder ν} {lim : Limits}

def brackets : Text := ['"', '[', '\x7b']

lemma number_lead {sign n : Text} (rest : Text) (hsign : sign ∈ [[], ['-']]) (hn : Natural n) :
    ∃ c s, sign ++ (n ++ rest) = c :: s ∧ c ∈ opening ∧ c ∉ brackets := by
  have hdigits : ∀ c ∈ "0123456789".toList, c ∈ opening ∧ c ∉ brackets := by decide
  obtain ⟨c, ds, rfl, hc⟩ := hn.head_digit
  simp only [List.mem_cons, List.not_mem_nil, or_false] at hsign
  rcases hsign with rfl | rfl
  · exact ⟨c, ds ++ rest, rfl, hdigits c (isDigit_iff.mp hc)⟩
  · exact ⟨'-', c :: (ds ++ rest), rfl, by decide⟩

lemma word_lead {w : Text} {k : Constant} (h : (w, k) ∈ words) :
    ∃ c s, w = c :: s ∧ c ∈ opening ∧ c ∉ brackets := by
  have hall : ∀ p ∈ words, p.1 ≠ [] ∧ ∀ c ∈ p.1.head?, c ∈ opening ∧ c ∉ brackets := by decide
  obtain ⟨hne, hhead⟩ := hall _ h
  obtain ⟨c, s, rfl⟩ := List.exists_cons_of_ne_nil hne
  exact ⟨c, s, rfl, hhead c rfl⟩

lemma scanValue_plain {arr obj : Text → Scanned ν} {c : Char} {s : Text} (hc : c ∉ brackets) :
    scanValue b lim arr obj (c :: s) = scanPlain b lim (c :: s) := by
  simp only [brackets, List.mem_cons, List.not_mem_nil, or_false, not_or] at hc
  rw [scanValue, if_neg hc.1, if_neg hc.2.1, if_neg hc.2.2]

lemma scanValue_scalar {arr obj : Text → Scanned ν} {t rest : Text} {v : ν} (h : Scalar b lim t v)
    (hrest : Stop rest) : scanValue b lim arr obj (t ++ rest) = .ok (v, rest) := by
  cases h with
  | constant hw =>
    have hword := scanWord_complete rest hw
    obtain ⟨c, s, rfl, -, hc⟩ := word_lead hw
    rw [List.cons_append] at hword ⊢
    rw [scanValue_plain hc, scanPlain, hword]
  | int hsign hn hfits =>
    have hword := scanWord_number rest hsign hn
    have hnumber := scanNumber_int (b := b) hsign hn hfits hrest
    obtain ⟨c, s, hs, -, hc⟩ := number_lead rest hsign hn
    rw [List.append_assoc]
    rw [hs] at hword hnumber ⊢
    rw [scanValue_plain hc, scanPlain, hword]
    exact hnumber
  | float hsign hn hf he hfloat =>
    rename_i sign n f e
    have hword := scanWord_number (f ++ (e ++ rest)) hsign hn
    have hnumber := scanNumber_float b lim hsign hn hf he hfloat hrest
    obtain ⟨c, s, hs, -, hc⟩ := number_lead (f ++ (e ++ rest)) hsign hn
    rw [List.append_assoc, List.append_assoc, List.append_assoc]
    rw [hs] at hword hnumber ⊢
    rw [scanValue_plain hc, scanPlain, hword]
    exact hnumber
  | str hus =>
    rw [List.cons_append, List.append_assoc, List.singleton_append, scanValue, if_pos rfl, scanString_quote hus,
      Except.map]

lemma scanValue_reads {arr obj : Text → Scanned ν} {A O : Text → ν → Prop} (ha : ReadsClosed arr A)
    (ho : ReadsClosed obj O) : Reads (scanValue b lim arr obj) fun t v =>
      Scalar b lim t v ∨ (∃ s, t = '[' :: s ∧ A s v) ∨ ∃ s, t = '\x7b' :: s ∧ O s v where
  sound {s v rest} h := by
    cases s with
    | nil => cases h
    | cons c s =>
      rw [scanValue] at h
      split_ifs at h with hq harr hobj
      · obtain ⟨cs, hcs, rfl⟩ := map_ok h
        obtain ⟨t, ⟨k, us, hus, rfl, rfl⟩, hs⟩ := scanString_reads.sound hcs
        exact ⟨_, .inl (.str hus), by rw [hq, hs, List.cons_append]⟩
      · obtain ⟨t, ht, hs⟩ := ha.sound h
        exact ⟨_, .inr (.inl ⟨t, rfl, ht⟩), by rw [harr, hs, List.cons_append]⟩
      · obtain ⟨t, ht, hs⟩ := ho.sound h
        exact ⟨_, .inr (.inr ⟨t, rfl, ht⟩), by rw [hobj, hs, List.cons_append]⟩
      · rw [scanPlain] at h
        cases hw : scanWord (c :: s) with
        | some r =>
          simp only [hw] at h
          obtain ⟨rfl, rfl⟩ := Prod.mk.inj (Except.ok.inj h)
          obtain ⟨w, hmem, hs⟩ := scanWord_sound hw
          exact ⟨w, .inl (.constant hmem), hs⟩
        | none =>
          simp only [hw] at h
          obtain ⟨t, ht, hs⟩ := scanNumber_sound h
          exact ⟨t, .inl ht, hs⟩
  complete {t v rest} h hrest := by
    obtain h | ⟨s, rfl, hs⟩ | ⟨s, rfl, hs⟩ := h
    · exact scanValue_scalar h hrest
    · rw [List.cons_append, scanValue, if_neg (by decide), if_pos rfl, ha.complete rest hs]
    · rw [List.cons_append, scanValue, if_neg (by decide), if_neg (by decide), if_pos rfl, ho.complete rest hs]
  lead {t v} h := by
    have hlead : ∀ {t : Text}, (∃ c s, t = c :: s ∧ c ∈ opening ∧ c ∉ brackets) → OpensWith opening t :=
      fun ⟨c, s, ht, hc, _⟩ => ⟨c, hc, s, ht⟩
    obtain h | ⟨s, rfl, -⟩ | ⟨s, rfl, -⟩ := h
    · cases h with
      | constant hw => exact hlead (word_lead hw)
      | int hsign hn => exact hlead (by simpa using number_lead [] hsign hn)
      | float hsign hn => exact hlead (number_lead _ hsign hn)
      | str hus => exact ⟨'"', by decide, _, rfl⟩
    · exact ⟨'[', by decide, s, rfl⟩
    · exact ⟨'\x7b', by decide, s, rfl⟩

lemma Reads.congr {α : Type} {scan : Text → Scanned α} {D D' : Text → α → Prop} (hr : Reads scan D)
    (h : ∀ t v, D t v ↔ D' t v) : Reads scan D' where
  sound hs := by
    obtain ⟨t, ht, rfl⟩ := hr.sound hs
    exact ⟨t, (h t _).mp ht, rfl⟩
  complete ht := hr.complete ((h _ _).mpr ht)
  lead ht := hr.lead ((h _ _).mpr ht)

lemma scanOnce_reads (b : Builder ν) (lim : Limits) (d : ℕ) : Reads (scanOnce b lim d) (Denotes b lim d) := by
  induction d with
  | zero =>
    apply (scanValue_reads (readsClosed_error .recursion) (readsClosed_error .recursion)).congr
    simp [Denotes]
  | succ d ih =>
    have harr := (scanList_reads "Illegal trailing comma before end of array".toList ih (.inl rfl)).map b.arr
    have hobj := (scanList_reads "Illegal trailing comma before end of object".toList
      (scanMember_reads ih) (.inr rfl)).map b.obj
    apply (scanValue_reads harr hobj).congr
    intro t v
    constructor
    · rintro (h | ⟨s, rfl, vs, hs, rfl⟩ | ⟨s, rfl, ms, hs, rfl⟩)
      · exact .inl h
      · exact .inr (.inl ⟨s, vs, rfl, rfl, hs⟩)
      · exact .inr (.inr ⟨s, ms, rfl, rfl, hs⟩)
    · rintro (h | ⟨s, vs, rfl, rfl, hs⟩ | ⟨s, ms, rfl, rfl, hs⟩)
      · exact .inl h
      · exact .inr (.inl ⟨s, rfl, vs, hs, rfl⟩)
      · exact .inr (.inr ⟨s, rfl, ms, hs, rfl⟩)

lemma scanOnce_bracketed {d : ℕ} {t : Text} {v : ν} (h : Denotes b lim d t v)
    (ho : t.head? = some '[' ∨ t.head? = some '\x7b') (rest : Text) : scanOnce b lim d (t ++ rest) =
    .ok (v, rest) := by
  have hscalar : ¬ Scalar b lim t v := by
    intro hs
    have hplain : ∀ {t : Text}, (∃ c s, t = c :: s ∧ c ∈ opening ∧ c ∉ brackets) →
        ¬ (t.head? = some '[' ∨ t.head? = some '\x7b') := by
      rintro t ⟨c, s, rfl, -, hc⟩
      rw [List.head?_cons, Option.some.injEq, Option.some.injEq]
      rintro (rfl | rfl) <;> exact hc (by decide)
    cases hs with
    | constant hw => exact hplain (word_lead hw) ho
    | int hsign hn => exact hplain (by simpa using number_lead [] hsign hn) ho
    | float hsign hn => exact hplain (number_lead _ hsign hn) ho
    | str => rcases ho with ho | ho <;> cases ho
  cases d with
  | zero => exact (hscalar h).elim
  | succ d =>
    have ih := scanOnce_reads b lim d
    obtain h | ⟨s, vs, rfl, rfl, hs⟩ | ⟨s, ms, rfl, rfl, hs⟩ := h
    · exact (hscalar h).elim
    · have hr := scanList_reads "Illegal trailing comma before end of array".toList ih (.inl rfl)
      rw [List.cons_append, scanOnce, scanValue, if_neg (by decide), if_pos rfl, hr.complete rest hs, Except.map]
    · have hr := scanList_reads "Illegal trailing comma before end of object".toList (scanMember_reads ih)
        (.inr rfl)
      rw [List.cons_append, scanOnce, scanValue, if_neg (by decide), if_neg (by decide), if_pos rfl,
        hr.complete rest hs, Except.map]

theorem decode_eq_iff {s : Text} {v : ν} : decode b lim s = .ok v ↔ Around (Denotes b lim lim.depth) s v := by
  have hr := scanOnce_reads b lim lim.depth
  constructor
  · intro h
    rw [decode] at h
    split_ifs at h
    cases hv : scanOnce b lim lim.depth (skip s) with
    | error e => simp [hv] at h
    | ok r =>
      obtain ⟨v', rest⟩ := r
      simp only [hv] at h
      split_ifs at h with hrest
      obtain rfl := Except.ok.inj h
      obtain ⟨t, ht, hs⟩ := hr.sound hv
      obtain ⟨w, hw, he⟩ := blank_skip s
      obtain ⟨w', hw', he'⟩ := blank_skip rest
      rw [hrest, List.append_nil] at he'
      exact ⟨w, t, rest, hw, ht, he' ▸ hw', by rw [← hs, ← he]⟩
  · rintro ⟨w, t, w', hw, ht, hw', rfl⟩
    have hopen : ∀ c ∈ (t ++ w').head?, c ∈ opening := by
      obtain ⟨c, hc, s, rfl⟩ := hr.lead ht
      intro d hd
      obtain rfl : c = d := Option.some.inj hd
      exact hc
    have hbom : (w ++ (t ++ w')).head? ≠ some '\uFEFF' := by
      cases w with
      | nil =>
        have hnot : '\uFEFF' ∉ opening := by decide
        exact fun h => hnot (hopen _ h)
      | cons c w =>
        intro h
        obtain rfl : c = '\uFEFF' := Option.some.inj h
        exact absurd (hw _ List.mem_cons_self) (by decide)
    have hskip : skip (w ++ (t ++ w')) = t ++ w' :=
      skip_run hw fun c hc hblank => hr.head_not_stop ht _ c hc (blank_stops hblank)
    have hend : skip w' = [] := by simpa using skip_run (u := []) hw' (by simp)
    have hstop : Stop w' := by simpa using stop_blank (u := []) hw' (by simp [Stop])
    rw [decode, if_neg hbom, hskip, hr.complete ht hstop]
    simp only [hend, reduceIte]

theorem decode_cut {s p : Text} {v v' : ν} (hs : Denotes b lim lim.depth s v)
    (ho : s.head? = some '[' ∨ s.head? = some '\x7b') (hp : p <+: s) (hv : decode b lim p = .ok v') : p = s := by
  obtain ⟨q, rfl⟩ := hp
  obtain ⟨w, t, w', hw, ht, -, rfl⟩ := decode_eq_iff.mp hv
  have hr := scanOnce_reads b lim lim.depth
  obtain ⟨c, -, t, rfl⟩ := hr.lead ht
  obtain rfl : w = [] := by
    cases w with
    | nil => rfl
    | cons d w =>
      have hd : blank d := hw d List.mem_cons_self
      rcases ho with ho | ho <;> obtain rfl := Option.some.inj ho <;> exact absurd hd (by decide)
  have hcut := scanOnce_bracketed ht ho (w' ++ q)
  have hend : Stop [] := by simp [Stop]
  have hwhole := hr.complete hs hend
  simp only [List.nil_append, List.append_assoc, List.append_nil] at hcut hwhole
  obtain ⟨-, hrest⟩ := Prod.mk.inj (Except.ok.inj (hcut.symm.trans hwhole))
  obtain ⟨-, rfl⟩ := List.append_eq_nil_iff.mp hrest
  rw [List.append_nil]

end Values

end ShadowProxy.Data.JsonText

import Mathlib.Data.Nat.Digits.Defs
import ShadowProxy.Store.Decoding

/-! What `json.dumps` writes, `json.loads` reads back. -/

namespace ShadowProxy

open Data.JsonText (Builder Limits Units Around Scalar Denotes ItemsOf ListOf Entry Blank hexNumber hexValue
  joinSurrogates escapes
  Natural Fraction Exponent hexNumber_append scanUnits)

section Strings

lemma hexValue_digitChar : ∀ d < 16, hexValue (Nat.digitChar d) = some d := by decide

lemma hexNumber_toDigits (n : ℕ) : hexNumber (Nat.toDigits 16 n) = some n := by
  induction n using Nat.strongRecOn with
  | ind n ih =>
    by_cases hn : n < 16
    · rw [Nat.toDigits_of_lt_base hn]
      simp [hexNumber, hexValue_digitChar n hn]
    · rw [Nat.toDigits_of_base_le (by decide) (by omega), hexNumber_append, ih (n / 16) (by omega),
        hexValue_digitChar _ (Nat.mod_lt n (by decide))]
      simp only [Option.bind_some, Option.map_some, Option.some.injEq]
      omega

lemma hexNumber_zeros (k : ℕ) (h : Str) : hexNumber (List.replicate k '0' ++ h) = hexNumber h := by
  induction k with
  | zero => rfl
  | succ k ih => rw [List.replicate_succ, List.cons_append, ← ih]; rfl

lemma hex_four {n : ℕ} (hn : n < 0x10000) : (hex 4 n).length = 4 ∧ hexNumber (hex 4 n) = some n := by
  have hlen := Nat.toDigits_length 16 n 4 (by decide) hn
  constructor
  · rw [hex, List.length_leftpad]
    omega
  · rw [hex, List.leftpad, hexNumber_zeros, hexNumber_toDigits]

def charUnits (ascii : Bool) (c : Char) : List ℕ :=
  if ascii = false ∨ c.toNat < 0x10000 then [c.toNat]
  else [0xD800 + (c.toNat - 0x10000) / 0x400, 0xDC00 + (c.toNat - 0x10000) % 0x400]

lemma dumpsChar_escape : ∀ c ∈ escaped, (∃ p ∈ escapes, p.2 = c.toNat ∧ dumpsChar c = ['\\', p.1]) ∨
    dumpsChar c = '\\' :: 'u' :: hex 4 c.toNat := by decide +kernel

variable {s : Str} {us : List ℕ}

lemma units_hex {n : ℕ} (hn : n < 0x10000) (h : Units s us) : Units ('\\' :: 'u' :: (hex 4 n ++ s)) (n :: us) :=
  .unicode (hex_four hn).1 (hex_four hn).2 h

lemma units_dumpsChar (c : Char) (h : Units s us) : Units (dumpsChar c ++ s) (c.toNat :: us) := by
  by_cases hc : c ∈ escaped
  · rcases dumpsChar_escape c hc with ⟨p, hp, hu, he⟩ | he
    · rw [he, ← hu]
      exact .escape hp h
    · have hsmall : ∀ c ∈ escaped, c.toNat < 0x10000 := by decide
      rw [he]
      exact units_hex (hsmall c hc) h
  · rw [dumpsChar_plain hc]
    simp only [escaped, List.mem_cons, List.mem_map, List.mem_range, not_or, not_exists, not_and] at hc
    refine .plain hc.1 hc.2.1 ?_ h
    by_contra hlow
    exact hc.2.2 c.toNat (by omega) (Char.ofNat_toNat c)

lemma char_valid (c : Char) : c.toNat < 0xD800 ∨ 0xDFFF < c.toNat ∧ c.toNat < 0x110000 := by
  have h := c.valid
  rw [UInt32.isValidChar, Nat.isValidChar] at h
  exact h

lemma units_encodeChar (ascii : Bool) (c : Char) (h : Units s us) :
    Units (encodeChar ascii c ++ s) (charUnits ascii c ++ us) := by
  have hvalid := char_valid c
  rw [encodeChar, charUnits]
  split_ifs with h₁ h₂ h₃ h₄
  · exact units_dumpsChar c h
  · exact (h₂ (h₁.imp_right (by omega))).elim
  · exact units_hex h₃ h
  · exact (h₄ (.inr h₃)).elim
  · rename_i h₅
    exact (h₅.elim (fun ha => h₁ (.inl ha)) h₃).elim
  · have hlow := units_hex (n := 0xDC00 + (c.toNat - 0x10000) % 0x400) (by omega) h
    have hhigh := units_hex (n := 0xD800 + (c.toNat - 0x10000) / 0x400) (by omega) hlow
    rw [List.cons_append, List.cons_append, List.append_assoc, List.cons_append, List.cons_append]
    exact hhigh

lemma units_encodeStr (ascii : Bool) (s : Str) :
    Units (s.flatMap (encodeChar ascii)) (s.flatMap (charUnits ascii)) := by
  induction s with
  | nil => exact .nil
  | cons c s ih =>
    rw [List.flatMap_cons, List.flatMap_cons]
    exact units_encodeChar ascii c ih

lemma joinSurrogates_cons {n : ℕ} (hn : ¬ (0xD800 ≤ n ∧ n ≤ 0xDBFF)) (us : List ℕ) :
    joinSurrogates (n :: us) = n :: joinSurrogates us := by
  cases us with
  | nil => rfl
  | cons l us => rw [joinSurrogates, if_neg fun h => hn h.1]

lemma joinSurrogates_charUnits (ascii : Bool) (s : Str) :
    joinSurrogates (s.flatMap (charUnits ascii)) = s.map Char.toNat := by
  induction s with
  | nil => rfl
  | cons c s ih =>
    have hvalid := char_valid c
    rw [List.flatMap_cons, List.map_cons, ← ih, charUnits]
    split_ifs with hc
    · exact joinSurrogates_cons (by omega) _
    · rw [not_or] at hc
      have hpair : 0x10000 + (0xD800 + (c.toNat - 0x10000) / 0x400 - 0xD800) * 0x400 +
          (0xDC00 + (c.toNat - 0x10000) % 0x400 - 0xDC00) = c.toNat := by omega
      rw [List.cons_append, List.cons_append, List.nil_append, joinSurrogates, if_pos (by omega), hpair]

lemma textOf_toNat (s : Str) : textOf (s.map Char.toNat) = some s := by
  induction s with
  | nil => rfl
  | cons c s ih =>
    rw [textOf] at ih ⊢
    rw [List.map_cons, List.mapM_cons, if_pos (char_valid c), ih, Char.ofNat_toNat]
    rfl

lemma textOf_joinSurrogates (ascii : Bool) (s : Str) :
    textOf (joinSurrogates (s.flatMap (charUnits ascii))) = some s := by
  rw [joinSurrogates_charUnits, textOf_toNat]

end Strings

section Numbers

lemma toDigits_digit {n : ℕ} {c : Char} (h : c ∈ Nat.toDigits 10 n) : Data.JsonText.digit c := by
  have hall : ∀ c ∈ "-0123456789".toList, c.isDigit = true → c ∈ "0123456789".toList := by decide
  have hmem : c ∈ "-0123456789".toList := decimal_chars n h
  exact hall c hmem (Nat.isDigit_of_mem_toDigits (by decide) (by decide) h)

lemma toDigits_head {n : ℕ} (hn : n ≠ 0) : (Nat.toDigits 10 n).head? ≠ some '0' := by
  induction n using Nat.strongRecOn with
  | ind n ih =>
    by_cases hlt : n < 10
    · have hall : ∀ d < 10, d ≠ 0 → some (Nat.digitChar d) ≠ some '0' := by decide
      rw [Nat.toDigits_of_lt_base hlt]
      exact hall n hlt hn
    · have ih := ih (n / 10) (by omega) (by omega)
      obtain ⟨c, ds, hds⟩ := List.exists_cons_of_ne_nil (Nat.toDigits_ne_nil (b := 10) (n := n / 10))
      rw [hds] at ih
      rw [Nat.toDigits_of_base_le (by decide) (by omega), hds]
      exact ih

lemma natural_toDigits (n : ℕ) : Natural (Nat.toDigits 10 n) := by
  refine ⟨⟨Nat.toDigits_ne_nil, fun c hc => toDigits_digit hc⟩, ?_⟩
  by_cases hn : n = 0
  · subst hn
    exact .inl rfl
  · exact .inr (toDigits_head hn)

lemma readInt_toDigits (n : ℕ) : readInt (Nat.toDigits 10 n) = n := by
  obtain ⟨c, ds, hds⟩ := List.exists_cons_of_ne_nil (Nat.toDigits_ne_nil (b := 10) (n := n))
  have hread : readInt (Nat.toDigits 10 n) = Nat.ofDigitChars 10 (Nat.toDigits 10 n) 0 := by
    have hc : c ≠ '-' := by
      rintro rfl
      have hminus : '-' ∉ "0123456789".toList := by decide
      exact hminus (toDigits_digit (hds ▸ List.mem_cons_self))
    rw [hds, readInt]
    rintro ds' he
    exact hc (List.cons.inj he).1
  rw [hread, Nat.ofDigitChars_ten_toDigits]

lemma readInt_decimal (n : ℤ) : readInt (decimal n) = n := by
  cases n with
  | ofNat n => exact readInt_toDigits n
  | negSucc n =>
    rw [decimal, readInt, Nat.ofDigitChars_ten_toDigits]
    rfl

variable {readFloat : Str → PyFloat} {lim : Limits}

lemma scalar_int (n : ℤ) (h : lim.digits = 0 ∨ (Nat.toDigits 10 n.natAbs).length ≤ lim.digits) :
    Scalar (jsonBuilder readFloat) lim (decimal n) (some (.int n)) := by
  have hvalue : (jsonBuilder readFloat).int (decimal n) = some (.int n) :=
    congrArg (fun m => some (Json.int m)) (readInt_decimal n)
  rw [← hvalue]
  have hsign : ∀ sign ∈ [[], ['-']], ∀ n, lim.fits (Nat.toDigits 10 n) → Scalar (jsonBuilder readFloat) lim
      (sign ++ Nat.toDigits 10 n) ((jsonBuilder readFloat).int (sign ++ Nat.toDigits 10 n)) :=
    fun sign hs n hn => .int hs (natural_toDigits n) hn
  cases n with
  | ofNat n => exact hsign [] (by simp) n h
  | negSucc n => exact hsign ['-'] (by simp) (n + 1) h

lemma floatText_parts {s : Str} (h : floatText s = true) :
    ∃ sign ∈ [[], ['-']], ∃ n f e, Natural n ∧ Fraction f ∧ Exponent e ∧
    ¬ (f = [] ∧ e = []) ∧ s = sign ++ (n ++ (f ++ e)) := by
  rw [floatText] at h
  split at h
  · rename_i hscan
    obtain ⟨t, ht, rfl⟩ := Data.JsonText.scanNumber_sound hscan
    rw [List.append_nil]
    generalize hv : true = v at ht
    cases ht with
    | float hsign hn hf he hfloat => exact ⟨_, hsign, _, _, _, hn, hf, he, hfloat, rfl⟩
    | constant | int | str => cases hv
  · cases h

lemma scalar_float {x : PyFloat} (h : x.rereads readFloat = true) :
    Scalar (jsonBuilder readFloat) lim x.dumps (some (.float x)) := by
  simp only [PyFloat.rereads, Bool.or_eq_true, Bool.and_eq_true, decide_eq_true_eq] at h
  obtain ⟨text⟩ := x
  obtain ((rfl | rfl) | rfl) | ⟨htext, hread⟩ := h
  · exact .constant (k := .nan) (by decide)
  · exact .constant (k := .infinity) (by decide)
  · exact .constant (k := .negInfinity) (by decide)
  · have htext : floatText text = true := htext
    obtain ⟨sign, hsign, n, f, e, hn, hf, he, hfloat, rfl⟩ := floatText_parts htext
    have hletter : ∀ s ∈ (["nan", "inf", "-inf"].map String.toList : List Str), sign ++ (n ++ (f ++ e)) ≠ s := by
      have hall : ∀ s ∈ ["nan", "inf", "-inf"].map String.toList, ∀ c ∈ s, Data.JsonText.isDigit c = false :=
        by decide
      rintro s hs rfl
      obtain ⟨c, ds, rfl, hc⟩ := hn.head_digit
      exact Bool.false_ne_true ((hall _ hs c (by simp)).symm.trans hc)
    have hdumps : (PyFloat.mk (sign ++ (n ++ (f ++ e)))).dumps = sign ++ (n ++ (f ++ e)) := by
      rw [PyFloat.dumps, if_neg (hletter _ (by decide)), if_neg (hletter _ (by decide)),
        if_neg (hletter _ (by decide))]
    have hvalue : (jsonBuilder readFloat).float (sign ++ (n ++ (f ++ e))) =
        some (.float ⟨sign ++ (n ++ (f ++ e))⟩) :=
      congrArg (fun y => some (Json.float y)) hread
    rw [hdumps, ← hvalue]
    exact .float hsign hn hf he hfloat

end Numbers

section Lists

variable {α β : Type} {D : Str → α → Prop} {text : β → Str} {value : β → α} {w : Str}

lemma itemsOf_join (hw : Blank w) {xs : List β} (hne : xs ≠ []) (h : ∀ x ∈ xs, D (text x) (value x)) :
    ItemsOf (Around D) (join (',' :: w) (xs.map text)) (xs.map value) := by
  have haround : ∀ x ∈ xs, Around D (text x) (value x) := fun x hx =>
    ⟨[], text x, [], Data.JsonText.blank_nil, h x hx, Data.JsonText.blank_nil, by simp⟩
  clear h
  induction xs with
  | nil => exact (hne rfl).elim
  | cons x xs ih =>
    cases xs with
    | nil => exact .last (haround x List.mem_cons_self)
    | cons y ys =>
      have hrest := (ih (List.cons_ne_nil _ _) fun z hz => haround z (List.mem_cons_of_mem _ hz)).blank hw
      rw [List.map_cons, List.map_cons, join, List.append_assoc]
      exact .cons (haround x List.mem_cons_self) hrest

lemma listOf_join (close : Char) (hw : Blank w) {xs : List β} (h : ∀ x ∈ xs, D (text x) (value x)) :
    ListOf close D (join (',' :: w) (xs.map text) ++ [close]) (xs.map value) := by
  refine ⟨_, rfl, ?_⟩
  cases xs with
  | nil => exact .inl ⟨Data.JsonText.blank_nil, rfl⟩
  | cons x xs => exact .inr (itemsOf_join hw (List.cons_ne_nil _ _) h)

lemma mapM_some (f : β → Option α) {xs : List β} {ys : List α} (h : xs.map f = ys.map some) :
    xs.mapM f = some ys := by
  induction xs generalizing ys with
  | nil =>
    obtain rfl : ys = [] := List.map_eq_nil_iff.mp h.symm
    rfl
  | cons x xs ih =>
    cases ys with
    | nil => cases h
    | cons y ys =>
      obtain ⟨hx, hxs⟩ := List.cons.inj h
      rw [List.mapM_cons, hx, ih hxs]
      rfl

lemma setMember_append {k : Str} {v : Json} {ms : List (Str × Json)} (h : k ∉ ms.map Prod.fst) :
    Json.setMember k v ms = ms ++ [(k, v)] := by
  induction ms with
  | nil => rfl
  | cons m ms ih =>
    simp only [List.map_cons, List.mem_cons, not_or] at h
    rw [Json.setMember, if_neg (Ne.symm h.1), ih h.2, List.cons_append]

lemma dictOf_nodup {ms : List (Str × Json)} (h : (ms.map Prod.fst).Nodup) : dictOf ms = ms := by
  have hfold : ∀ d : List (Str × Json), ((d ++ ms).map Prod.fst).Nodup →
      ms.foldl (fun d m => Json.setMember m.1 m.2 d) d = d ++ ms := by
    clear h
    induction ms with
    | nil => simp
    | cons m ms ih =>
      intro d hd
      have hnot : m.1 ∉ d.map Prod.fst := by
        rw [List.map_append, List.nodup_append] at hd
        exact fun hm => hd.2.2 _ hm m.1 (by simp) rfl
      rw [List.foldl_cons, setMember_append hnot, ih _ (by simpa using hd), List.append_assoc,
        List.singleton_append]
  exact hfold [] h

end Lists

structure DumpsStyle.Separates (style : DumpsStyle) : Prop where
  item : ∃ w, Blank w ∧ style.itemSeparator = ',' :: w
  key : ∃ w w', Blank w ∧ Blank w' ∧ style.keySeparator = w ++ ':' :: w'

section Values

variable (style : DumpsStyle)

def encodeMember (m : Str × Json) : Str := encodeStr style m.1 ++ style.keySeparator ++ m.2.encode style

lemma encodeItems_eq (xs : List Json) : Json.encodeItems style xs = xs.map (Json.encode style) := by
  induction xs with
  | nil => rfl
  | cons x xs ih => rw [Json.encodeItems, ih, List.map_cons]

lemma encodeMembers_eq (ms : List (Str × Json)) : Json.encodeMembers style ms = ms.map (encodeMember style) := by
  induction ms with
  | nil => rfl
  | cons m ms ih =>
    rw [Json.encodeMembers, ih, List.map_cons]
    rfl

lemma largest_item (step : ℕ) (int : ℤ → ℕ) {x : Json} {xs : List Json} (h : x ∈ xs) :
    x.largest step int ≤ Json.largestItem step int xs := by
  induction xs with
  | nil => cases h
  | cons y ys ih =>
    rw [Json.largestItem]
    rcases List.mem_cons.mp h with rfl | h
    · exact le_max_left _ _
    · exact le_max_of_le_right (ih h)

lemma largest_member (step : ℕ) (int : ℤ → ℕ) {m : Str × Json} {ms : List (Str × Json)} (h : m ∈ ms) :
    m.2.largest step int ≤ Json.largestMember step int ms := by
  induction ms with
  | nil => cases h
  | cons n ns ih =>
    rw [Json.largestMember]
    rcases List.mem_cons.mp h with rfl | h
    · exact le_max_left _ _
    · exact le_max_of_le_right (ih h)

variable {style} {readFloat : Str → PyFloat} {lim : Limits}

lemma scalar_str (s : Str) : Scalar (jsonBuilder readFloat) lim (encodeStr style s) (some (.str s)) := by
  have hvalue : (jsonBuilder readFloat).str (joinSurrogates (s.flatMap (charUnits style.ensureAscii))) =
      some (.str s) :=
    congrArg (Option.map Json.str) (textOf_joinSurrogates style.ensureAscii s)
  rw [← hvalue]
  exact .str (units_encodeStr style.ensureAscii s)

lemma isPython_item {x : Json} {xs : List Json} (h : Json.isPythonItems readFloat xs = true) (hx : x ∈ xs) :
    x.isPython readFloat = true := by
  induction xs with
  | nil => cases hx
  | cons y ys ih =>
    rw [Json.isPythonItems, Bool.and_eq_true] at h
    rcases List.mem_cons.mp hx with rfl | hx
    · exact h.1
    · exact ih h.2 hx

lemma isPython_member {m : Str × Json} {ms : List (Str × Json)} (h : Json.isPythonMembers readFloat ms = true)
    (hm : m ∈ ms) : m.2.isPython readFloat = true := by
  induction ms with
  | nil => cases hm
  | cons n ns ih =>
    rw [Json.isPythonMembers, Bool.and_eq_true] at h
    rcases List.mem_cons.mp hm with rfl | hm
    · exact h.1
    · exact ih h.2 hm

lemma encode_denotes (hstyle : style.Separates) (v : Json) (hdigits : lim.digits = 0 ∨ v.digits ≤ lim.digits)
    (hpython : v.isPython readFloat = true) {d : ℕ} (hd : v.depth ≤ d) :
    Denotes (jsonBuilder readFloat) lim d (v.encode style) (some v) := by
  obtain ⟨w, hw, hitem⟩ := hstyle.item
  induction v using Json.induct generalizing d with
  | null => exact Denotes.scalar _ (.constant (w := "null".toList) (k := .null) (by decide))
  | bool b =>
    cases b
    · exact Denotes.scalar _ (.constant (w := "false".toList) (k := .false) (by decide))
    · exact Denotes.scalar _ (.constant (w := "true".toList) (k := .true) (by decide))
  | int n => exact Denotes.scalar _ (scalar_int n hdigits)
  | float x => exact Denotes.scalar _ (scalar_float hpython)
  | str s => exact Denotes.scalar _ (scalar_str s)
  | arr xs ih =>
    simp only [Json.depth, Json.digits, Json.largest] at hd hdigits
    obtain ⟨d, rfl⟩ : ∃ d', d = d' + 1 := ⟨d - 1, by omega⟩
    have hitems : ∀ x ∈ xs, Denotes (jsonBuilder readFloat) lim d (x.encode style) (some x) := by
      intro x hx
      have hdepth := largest_item 1 (fun _ => 0) hx
      have hlen := largest_item 0 (fun n => (Nat.toDigits 10 n.natAbs).length) hx
      apply ih x hx _ (isPython_item hpython hx)
      · rw [Json.depth]
        omega
      · rw [Json.digits]
        omega
    have hvalue : (jsonBuilder readFloat).arr (xs.map some) = some (.arr xs) :=
      congrArg (Option.map Json.arr) (mapM_some id (by simp))
    have hlist := listOf_join ']' hw hitems
    rw [Json.encode, encodeItems_eq, hitem, ← hvalue]
    exact .inr (.inl ⟨_, _, rfl, rfl, hlist⟩)
  | obj ms ih =>
    obtain ⟨u, u', hu, hu', hkey⟩ := hstyle.key
    obtain ⟨hnodup, hmembers⟩ := Bool.and_eq_true_iff.mp hpython
    simp only [Json.depth, Json.digits, Json.largest] at hd hdigits
    obtain ⟨d, rfl⟩ : ∃ d', d = d' + 1 := ⟨d - 1, by omega⟩
    let entry : Str × Json → List ℕ × Option Json := fun m =>
      (joinSurrogates (m.1.flatMap (charUnits style.ensureAscii)), some m.2)
    have hentries : ∀ m ∈ ms, Entry (Denotes (jsonBuilder readFloat) lim d) (encodeMember style m) (entry m) := by
      intro m hm
      have hdepth := largest_member 1 (fun _ => 0) hm
      have hlen := largest_member 0 (fun n => (Nat.toDigits 10 n.natAbs).length) hm
      have hvalue : Denotes (jsonBuilder readFloat) lim d (m.2.encode style) (some m.2) := by
        apply ih m hm _ (isPython_member hmembers hm)
        · rw [Json.depth]
          omega
        · rw [Json.digits]
          omega
      have hentry := Entry.mk (units_encodeStr style.ensureAscii m.1) hu hu' hvalue
      simpa [encodeMember, encodeStr, hkey, entry] using hentry
    have hvalue : (jsonBuilder readFloat).obj (ms.map entry) = some (.obj ms) := by
      have hread : (ms.map entry).mapM (fun m => (textOf m.1).bind fun k => m.2.map fun v => (k, v)) = some ms :=
        mapM_some _ (by simp [entry, textOf_joinSurrogates])
      have hdict := congrArg (Option.map fun ms => Json.obj (dictOf ms)) hread
      rw [Option.map_some, dictOf_nodup (of_decide_eq_true hnodup)] at hdict
      exact hdict
    have hlist := listOf_join '\x7d' hw hentries
    rw [Json.encode, encodeMembers_eq, hitem, ← hvalue]
    exact .inr (.inr ⟨_, _, rfl, rfl, hlist⟩)

lemma loads_encode (hstyle : style.Separates) {v : Json} (hpython : v.isPython readFloat = true)
    (hv : v.Within lim) : Json.loads readFloat lim (v.encode style) = .ok (some v) := by
  have hdenotes := encode_denotes hstyle v hv.2 hpython hv.1
  exact Data.JsonText.decode_eq_iff.mpr ⟨[], _, [], Data.JsonText.blank_nil, hdenotes,
    Data.JsonText.blank_nil, by simp⟩

end Values

lemma archiveStyle_separates : archiveStyle.Separates :=
  ⟨⟨[' '], by decide, rfl⟩, [], [' '], by decide, by decide, rfl⟩

lemma tapeStyle_separates : tapeStyle.Separates :=
  ⟨⟨[' '], by decide, rfl⟩, [], [' '], by decide, by decide, rfl⟩

lemma hashStyle_separates : hashStyle.Separates :=
  ⟨⟨[], by decide, rfl⟩, [], [], by decide, by decide, rfl⟩

theorem loads_dumpsWith {style : DumpsStyle} (hstyle : style.Separates) {readFloat : Str → PyFloat}
    {lim : Limits} {v : Json} (hpython : v.isPython readFloat = true) {text : Str}
    (h : v.dumpsWith style lim = some text) : Json.loads readFloat lim text = .ok (some v) := by
  rw [Json.dumpsWith] at h
  split_ifs at h with hv
  obtain rfl := Option.some.inj h
  exact loads_encode hstyle hpython hv

def accents : Json := .obj [("mot", .str "été \"𝄞\"\n"), ("n", .arr [.int (-40), .null, .bool true, .arr []])]

theorem loads_accents : Json.loads PyFloat.mk ⟨3, 2⟩ (accents.encode archiveStyle) = .ok (some accents) ∧
    Json.loads PyFloat.mk ⟨3, 2⟩ (accents.encode tapeStyle) = .ok (some accents) ∧
    Json.loads PyFloat.mk ⟨3, 2⟩ (accents.encode hashStyle) = .ok (some accents) :=
  ⟨@loads_dumpsWith archiveStyle archiveStyle_separates PyFloat.mk ⟨3, 2⟩ accents (by decide +kernel) _
    (by decide +kernel),
    @loads_dumpsWith tapeStyle tapeStyle_separates PyFloat.mk ⟨3, 2⟩ accents (by decide +kernel) _
    (by decide +kernel),
    @loads_dumpsWith hashStyle hashStyle_separates PyFloat.mk ⟨3, 2⟩ accents (by decide +kernel) _
    (by decide +kernel)⟩

end ShadowProxy

import Mathlib.Data.List.Induction
import ShadowProxy.Data.JsonReading

/-! The texts the decoder accepts are those of the grammar. -/

namespace ShadowProxy.Data.JsonText

section Bodies

variable {h k : Text} {us : List ℕ} {u : ℕ}

def hexDigits : Text := "0123456789abcdefABCDEF".toList

lemma hexValue_digit {c : Char} (hc : hexValue c ≠ none) : c ∈ hexDigits := by
  have hrange : ∀ n < 128, hexValue (Char.ofNat n) ≠ none → Char.ofNat n ∈ hexDigits := by decide
  have hsmall : c.toNat < 128 := by
    by_contra hlarge
    have hle : ∀ d : Char, d.toNat < 128 → ¬ c ≤ d := fun d hd hcd => hlarge (lt_of_le_of_lt hcd hd)
    apply hc
    rw [hexValue, if_neg fun h => hle _ (by decide) h.2, if_neg fun h => hle _ (by decide) h.2,
      if_neg fun h => hle _ (by decide) h.2]
  have h := hrange c.toNat hsmall
  rw [Char.ofNat_toNat] at h
  exact h hc

lemma hexDigit_value : ∀ c ∈ hexDigits, hexValue c ≠ none := by decide

lemma hexNumber_append (h : Text) (c : Char) :
    hexNumber (h ++ [c]) = (hexNumber h).bind fun n => (hexValue c).map fun d => 16 * n + d := by
  rw [hexNumber, List.foldl_append]
  rfl

lemma hexNumber_ne_none : hexNumber h ≠ none ↔ ∀ c ∈ h, c ∈ hexDigits := by
  induction h using List.reverseRecOn with
  | nil => simp [hexNumber]
  | append_singleton h c ih =>
    rw [hexNumber_append]
    constructor
    · intro hne d hd
      cases hn : hexNumber h with
      | none => simp [hn] at hne
      | some n =>
        rcases List.mem_append.mp hd with hd | hd
        · exact ih.mp (by simp [hn]) d hd
        · obtain rfl := List.mem_singleton.mp hd
          exact hexValue_digit fun hv => by simp [hn, hv] at hne
    · intro hall
      obtain ⟨n, hn⟩ := Option.ne_none_iff_exists'.mp (ih.mpr fun d hd => hall d (List.mem_append_left _ hd))
      obtain ⟨d, hd⟩ := Option.ne_none_iff_exists'.mp (hexDigit_value c (hall c (by simp)))
      simp [hn, hd]

lemma Units.body (h : Units k us) : Body k := by
  have hescapes : ∀ p ∈ escapes, p.1 ∈ "\"\\/bfnrt".toList := by decide
  induction h with
  | nil => exact .nil
  | plain hq hb hc _ ih => exact .plain hq hb hc ih
  | escape he _ ih => exact .escape (hescapes _ he) ih
  | unicode hlen hu _ ih => exact .unicode hlen (hexNumber_ne_none.mp (by simp [hu])) ih

lemma Body.units (h : Body k) : ∃ us, Units k us := by
  have hescapes : ∀ e ∈ "\"\\/bfnrt".toList, ∃ p ∈ escapes, p.1 = e := by decide
  induction h with
  | nil => exact ⟨[], .nil⟩
  | plain hq hb hc _ ih =>
    obtain ⟨us, hus⟩ := ih
    exact ⟨_, .plain hq hb hc hus⟩
  | escape he _ ih =>
    obtain ⟨us, hus⟩ := ih
    obtain ⟨⟨e, u⟩, hu, rfl⟩ := hescapes _ he
    exact ⟨_, .escape hu hus⟩
  | unicode hlen hh _ ih =>
    obtain ⟨us, hus⟩ := ih
    obtain ⟨u, hu⟩ := Option.ne_none_iff_exists'.mp (hexNumber_ne_none.mpr hh)
    exact ⟨_, .unicode hlen hu hus⟩

end Bodies

section Accepted

variable {ν : Type} {b : Builder ν} {lim : Limits}

lemma words_eq :
    words.map Prod.fst = ["null", "true", "false", "NaN", "Infinity", "-Infinity"].map String.toList := rfl

lemma Scalar.value {t : Text} {v : ν} (h : Scalar b lim t v) : Value t := by
  cases h with
  | constant hw => exact .constant (words_eq ▸ List.mem_map_of_mem hw)
  | int hsign hn => exact .number ⟨_, hsign, _, [], [], hn, .inl rfl, .inl rfl, by simp⟩
  | float hsign hn hf he => exact .number ⟨_, hsign, _, _, _, hn, hf, he, rfl⟩
  | str hus => exact .string hus.body

lemma Around.padded {D : Text → ν → Prop} (hD : ∀ {t v}, D t v → Value t) {t : Text} {v : ν} (h : Around D t v) :
    Padded t := by
  obtain ⟨w, s, w', hw, hs, hw', rfl⟩ := h
  exact .mk hw (hD hs) hw'

lemma ItemsOf.items {D : Text → ν → Prop} (hD : ∀ {t v}, D t v → Value t) {t : Text} {vs : List ν}
    (h : ItemsOf (Around D) t vs) : Items t := by
  induction h with
  | last h => exact .last (h.padded hD)
  | cons h _ ih => exact .cons (h.padded hD) ih

lemma Around.member {D : Text → ν → Prop} (hD : ∀ {t v}, D t v → Value t) {t : Text} {m : List ℕ × ν}
    (h : Around (Entry D) t m) : Member t := by
  obtain ⟨w, s, w', hw, ⟨hk, h₁, h₂, hs⟩, hw', rfl⟩ := h
  have hmember := Member.mk hw hk.body h₁ (.mk h₂ (hD hs) hw')
  simpa using hmember

lemma ItemsOf.members {D : Text → ν → Prop} (hD : ∀ {t v}, D t v → Value t) {t : Text} {ms : List (List ℕ × ν)}
    (h : ItemsOf (Around (Entry D)) t ms) : Members t := by
  induction h with
  | last h => exact .last (h.member hD)
  | cons h _ ih => exact .cons (h.member hD) ih

lemma Denotes.value {d : ℕ} {t : Text} {v : ν} (h : Denotes b lim d t v) : Value t := by
  induction d generalizing t v with
  | zero => exact Scalar.value h
  | succ d ih =>
    obtain h | ⟨s, vs, rfl, -, s', rfl, ⟨hs, -⟩ | hs⟩ | ⟨s, ms, rfl, -, s', rfl, ⟨hs, -⟩ | hs⟩ := h
    · exact h.value
    · exact .emptyArray hs
    · exact .array (hs.items ih)
    · exact .emptyObject hs
    · exact .object (hs.members ih)

end Accepted

section Derived

variable {ν : Type} (b : Builder ν) {lim : Limits}

lemma Number.scalar (hlim : lim.digits = 0) {t : Text} (h : Number t) : ∃ v, Scalar b lim t v := by
  obtain ⟨sign, hsign, n, f, e, hn, hf, he, rfl⟩ := h
  by_cases hint : f = [] ∧ e = []
  · obtain ⟨rfl, rfl⟩ := hint
    simp only [List.append_nil]
    exact ⟨_, .int hsign hn (.inl hlim)⟩
  · exact ⟨_, .float hsign hn hf he hint⟩

lemma Denotes.scalar {d : ℕ} {t : Text} {v : ν} (h : Scalar b lim t v) : Denotes b lim d t v := by
  cases d with
  | zero => exact h
  | succ d => exact .inl h

def Roomy {α : Type} (D : ℕ → Text → α → Prop) (t : Text) : Prop := ∀ d, t.length ≤ d → ∃ v, D d t v

lemma Roomy.items {α : Type} {D : ℕ → Text → α → Prop} {t rest : Text} (h : Roomy D t)
    (hs : Roomy (fun d => ItemsOf (D d)) rest) : Roomy (fun d => ItemsOf (D d)) (t ++ ',' :: rest) := by
  intro d hd
  simp only [List.length_append, List.length_cons] at hd
  obtain ⟨v, hv⟩ := h d (by omega)
  obtain ⟨vs, hvs⟩ := hs d (by omega)
  exact ⟨v :: vs, .cons hv hvs⟩

lemma roomy_bracketed {α : Type} {D : ℕ → Text → α → Prop} {o c : Char} {s : Text} {f : List α → ν}
    (hdenotes : ∀ d vs, (Blank s ∧ vs = [] ∨ ItemsOf (Around (D d)) s vs) →
      Denotes b lim (d + 1) (o :: (s ++ [c])) (f vs))
    (h : Blank s ∨ Roomy (fun d => ItemsOf (Around (D d))) s) : Roomy (Denotes b lim) (o :: (s ++ [c])) := by
  intro d hd
  simp only [List.length_cons, List.length_append, List.length_nil] at hd
  obtain ⟨d, rfl⟩ : ∃ d', d = d' + 1 := ⟨d - 1, by omega⟩
  rcases h with h | h
  · exact ⟨_, hdenotes d [] (.inl ⟨h, rfl⟩)⟩
  · obtain ⟨vs, hvs⟩ := h d (by omega)
    exact ⟨_, hdenotes d vs (.inr hvs)⟩

lemma denotes_arr {d : ℕ} {s : Text} {vs : List ν}
    (h : Blank s ∧ vs = [] ∨ ItemsOf (Around (Denotes b lim d)) s vs) :
    Denotes b lim (d + 1) ('[' :: (s ++ [']'])) (b.arr vs) :=
  .inr (.inl ⟨_, vs, rfl, rfl, _, rfl, h⟩)

lemma denotes_obj {d : ℕ} {s : Text} {ms : List (List ℕ × ν)}
    (h : Blank s ∧ ms = [] ∨ ItemsOf (Around (Entry (Denotes b lim d))) s ms) :
    Denotes b lim (d + 1) ('\x7b' :: (s ++ ['\x7d'])) (b.obj ms) :=
  .inr (.inr ⟨_, ms, rfl, rfl, _, rfl, h⟩)

lemma Padded.denotes (hlim : lim.digits = 0) {t : Text} (h : Padded t) :
    Roomy (fun d => Around (Denotes b lim d)) t := by
  refine @Padded.rec (fun t _ => Roomy (Denotes b lim) t) (fun t _ => Roomy (fun d => Around (Denotes b lim d)) t)
    (fun t _ => Roomy (fun d => ItemsOf (Around (Denotes b lim d))) t)
    (fun t _ => Roomy (fun d => Around (Entry (Denotes b lim d))) t)
    (fun t _ => Roomy (fun d => ItemsOf (Around (Entry (Denotes b lim d)))) t)
    ?constant ?number ?string ?emptyArray ?array ?emptyObject ?object ?padded ?lastItem ?items ?member ?lastMember
      ?members t h
  case constant =>
    intro t h d _
    obtain ⟨⟨w, k⟩, hw, rfl⟩ := List.mem_map.mp (words_eq.symm ▸ h)
    exact ⟨_, Denotes.scalar b (.constant hw)⟩
  case number =>
    intro t h d _
    obtain ⟨v, hv⟩ := h.scalar b hlim
    exact ⟨v, Denotes.scalar b hv⟩
  case string =>
    intro s h d _
    obtain ⟨us, hus⟩ := h.units
    exact ⟨_, Denotes.scalar b (.str hus)⟩
  case emptyArray =>
    intro w hw
    exact roomy_bracketed b (fun d vs => denotes_arr b) (.inl hw)
  case array =>
    intro s _ ih
    exact roomy_bracketed b (fun d vs => denotes_arr b) (.inr ih)
  case emptyObject =>
    intro w hw
    exact roomy_bracketed b (fun d ms => denotes_obj b) (.inl hw)
  case object =>
    intro s _ ih
    exact roomy_bracketed b (fun d ms => denotes_obj b) (.inr ih)
  case padded =>
    intro w s w' hw _ hw' ih d hd
    simp only [List.length_append] at hd
    obtain ⟨v, hv⟩ := ih d (by omega)
    exact ⟨v, w, s, w', hw, hv, hw', rfl⟩
  case lastItem =>
    intro s _ ih d hd
    obtain ⟨v, hv⟩ := ih d hd
    exact ⟨[v], .last hv⟩
  case items =>
    intro s rest _ _ ih ihs
    exact ih.items ihs
  case member =>
    intro w k w' s hw hk hw' _ ih d hd
    simp only [List.length_append, List.length_cons] at hd
    obtain ⟨us, hus⟩ := hk.units
    obtain ⟨v, w₁, t, w₂, h₁, ht, h₂, rfl⟩ := ih d (by omega)
    exact ⟨_, w, _, w₂, hw, .mk hus hw' h₁ ht, h₂, by simp⟩
  case lastMember =>
    intro s _ ih d hd
    obtain ⟨m, hm⟩ := ih d hd
    exact ⟨[m], .last hm⟩
  case members =>
    intro s rest _ _ ih ihs
    exact ih.items ihs

theorem decode_accepts_iff (hlim : lim.digits = 0) {s : Text} (hd : s.length ≤ lim.depth) :
    (∃ v, decode b lim s = .ok v) ↔ Padded s := by
  constructor
  · rintro ⟨v, hv⟩
    exact (decode_eq_iff.mp hv).padded Denotes.value
  · intro h
    obtain ⟨v, hv⟩ := h.denotes b hlim lim.depth hd
    exact ⟨v, decode_eq_iff.mpr hv⟩

end Derived

section Tighter

variable {α β ν : Type}

def Stopped (x : Scanned α) : Prop := x = .error .recursion ∨ x = .error .digits

def Tighter (x y : Scanned α) : Prop := Stopped x ∨ x = y

lemma Tighter.map {x y : Scanned α} (h : Tighter x y) (f : α × Text → β × Text) : Tighter (x.map f) (y.map f) := by
  obtain (rfl | rfl) | rfl := h
  · exact .inl (.inl rfl)
  · exact .inl (.inr rfl)
  · exact .inr rfl

section Items

variable {close : Char} {trailing : Text} {scan scan' : Text → Scanned α} (h : ∀ s, Tighter (scan s) (scan' s))

include h

lemma scanItems_tighter (n : ℕ) (s : Text) :
    Tighter (scanItems close trailing scan n s) (scanItems close trailing scan' n s) := by
  induction n generalizing s with
  | zero => exact .inr rfl
  | succ n ih =>
    rw [scanItems, scanItems]
    obtain (he | he) | he := h s
    · exact .inl (.inl (by rw [he]))
    · exact .inl (.inr (by rw [he]))
    · rw [← he]
      split
      · exact .inr rfl
      · split
        · exact .inr rfl
        · split_ifs
          · exact .inr rfl
          · exact .inr rfl
          · exact (ih _).map _
          · exact .inr rfl

lemma scanList_tighter (s : Text) :
    Tighter (scanList close trailing scan s) (scanList close trailing scan' s) := by
  rw [scanList, scanList]
  split_ifs
  · exact .inr rfl
  · exact scanItems_tighter h _ _

end Items

variable {b : Builder ν} {lim lim' : Limits}

lemma scanMember_tighter {scan scan' : Text → Scanned ν} (h : ∀ s, Tighter (scan s) (scan' s)) (s : Text) :
    Tighter (scanMember scan s) (scanMember scan' s) := by
  rw [scanMember.eq_def, scanMember.eq_def]
  split
  · exact .inr rfl
  · split_ifs
    · split
      · exact .inr rfl
      · split
        · exact .inr rfl
        · split_ifs
          · exact (h _).map _
          · exact .inr rfl
    · exact .inr rfl

lemma scanNumber_tighter (hlim : lim'.digits = 0) (s : Text) :
    Tighter (scanNumber b lim s) (scanNumber b lim' s) := by
  rw [scanNumber, scanNumber]
  split
  · exact .inr rfl
  · dsimp only
    split_ifs with hint hfits hfits' hfits'
    · exact .inr rfl
    · exact (hfits' (.inl hlim)).elim
    · exact .inl (.inr rfl)
    · exact .inr rfl
    · exact .inr rfl

lemma scanValue_tighter {arr arr' obj obj' : Text → Scanned ν} (ha : ∀ s, Tighter (arr s) (arr' s))
    (ho : ∀ s, Tighter (obj s) (obj' s)) (hlim : lim'.digits = 0) (s : Text) :
    Tighter (scanValue b lim arr obj s) (scanValue b lim' arr' obj' s) := by
  cases s with
  | nil => exact .inr rfl
  | cons c s =>
    rw [scanValue, scanValue]
    split_ifs
    · exact .inr rfl
    · exact ha s
    · exact ho s
    · rw [scanPlain, scanPlain]
      split
      · exact .inr rfl
      · exact scanNumber_tighter hlim _

lemma scanOnce_tighter (hlim : lim'.digits = 0) {d d' : ℕ} (hd : d ≤ d') (s : Text) :
    Tighter (scanOnce b lim d s) (scanOnce b lim' d' s) := by
  induction d generalizing d' s with
  | zero =>
    cases d' with
    | zero => exact scanValue_tighter (fun _ => .inr rfl) (fun _ => .inr rfl) hlim s
    | succ d' => exact scanValue_tighter (fun _ => .inl (.inl rfl)) (fun _ => .inl (.inl rfl)) hlim s
  | succ d ih =>
    obtain ⟨d', rfl⟩ : ∃ n, d' = n + 1 := ⟨d' - 1, by omega⟩
    have ih : ∀ s, Tighter (scanOnce b lim d s) (scanOnce b lim' d' s) := ih (by omega)
    apply scanValue_tighter _ _ hlim
    · exact fun s => (scanList_tighter ih s).map _
    · exact fun s => (scanList_tighter (scanMember_tighter ih) s).map _

theorem decode_error {s msg rest : Text} (h : decode b lim s = .error (.decode msg rest)) : ¬ Padded s := by
  intro hs
  let lim' : Limits := ⟨max lim.depth s.length, 0⟩
  have hroom : s.length ≤ lim'.depth := le_max_right _ _
  obtain ⟨v, hv⟩ := (decode_accepts_iff b rfl hroom).mpr hs
  rw [decode] at h hv
  split_ifs at h hv
  have htighter : Tighter (scanOnce b lim lim.depth (skip s)) (scanOnce b lim' lim'.depth (skip s)) :=
    scanOnce_tighter rfl (le_max_left _ _) _
  rcases htighter with (he | he) | he
  · simp [he] at h
  · simp [he] at h
  · rw [← he] at hv
    cases hscan : scanOnce b lim lim.depth (skip s) with
    | error e => simp [hscan] at hv
    | ok r =>
      simp only [hscan] at h hv
      split_ifs at h hv

end Tighter

end ShadowProxy.Data.JsonText

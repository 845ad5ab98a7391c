import ShadowProxy.Evaluator.Lowercase

/-! How much of a value its text in lower case gives away. -/

namespace ShadowProxy

open Data.Readable (Rigid items_rigid word_rigid map_eq_of_forall₂)

mutual

def Json.alike (spell : Str → Str) : Json → Json → Bool
  | .null, .null => true
  | .bool a, .bool b => a = b
  | .int a, .int b => a = b
  | .float a, .float b => a = b
  | .str s, .str t => spell s = spell t
  | .arr xs, .arr ys => Json.alikeItems spell xs ys
  | .obj ms, .obj ns => Json.alikeMembers spell ms ns
  | _, _ => false

def Json.alikeItems (spell : Str → Str) : List Json → List Json → Bool
  | [], [] => true
  | x :: xs, y :: ys => x.alike spell y && Json.alikeItems spell xs ys
  | _, _ => false

def Json.alikeMembers (spell : Str → Str) : List (Str × Json) → List (Str × Json) → Bool
  | [], [] => true
  | (k, x) :: ms, (l, y) :: ns => spell k = spell l && x.alike spell y && Json.alikeMembers spell ms ns
  | _, _ => false

end

inductive Json.Floats (P : PyFloat → Prop) : Json → Prop
  | null : Floats P .null
  | bool (b : Bool) : Floats P (.bool b)
  | int (n : ℤ) : Floats P (.int n)
  | float {x : PyFloat} : P x → Floats P (.float x)
  | str (s : Str) : Floats P (.str s)
  | arr {xs : List Json} : (∀ x ∈ xs, Floats P x) → Floats P (.arr xs)
  | obj {ms : List (Str × Json)} : (∀ m ∈ ms, Floats P m.2) → Floats P (.obj ms)

def separators : List Str := ["[", "]", "\x7b", "\x7d", ", ", ": "].map String.toList

/-- What is known of Python: `str` and `str.lower`, and the floats of `json.loads`. -/
structure Python.Documented (py : Python) (printable : Char → Bool) : Prop where
  str : ∀ v, py.str v = v.text printable
  lower : ∀ s, Lowered s (py.lower s)
  lower_separator : ∀ sep ∈ separators, ∀ s t, py.lower (s ++ sep ++ t) = py.lower s ++ sep ++ py.lower t
  loads : ∀ text v, py.loads text = .ok v → v.Floats PyFloat.WellFormed

inductive Shape where
  | scalar
  | str
  | arr
  | obj
  deriving DecidableEq

def Json.shape : Json → Shape
  | .str _ => .str
  | .arr _ => .arr
  | .obj _ => .obj
  | _ => .scalar

def Shape.leads : Shape → Str
  | .scalar => wordChars
  | .str => quotes
  | .arr => ['[']
  | .obj => ['\x7b']

lemma Shape.leads_disjoint {k l : Shape} (h : k ≠ l) : ∀ c ∈ k.leads, c ∉ l.leads := by
  cases k <;> cases l <;> first | exact (h rfl).elim | decide

lemma Shape.leads_not_delimiter (k : Shape) : ∀ d ∈ ",]\x7d".toList, d ∉ k.leads := by
  cases k <;> decide

def Json.word : Json → Str
  | .null => "none"
  | .bool true => "true"
  | .bool false => "false"
  | .int n => decimal n
  | .float x => x.repr
  | _ => []

def numberChars : Str := "-0123456789.+einfa"

def Json.IsNumber : Json → Prop
  | .int _ | .float _ => True
  | _ => False

lemma number_chars {v : Json} (h : v.IsNumber) (hv : v.Floats PyFloat.WellFormed) : v.word ⊆ numberChars := by
  have hdigits : "-0123456789".toList ⊆ numberChars := by decide
  have hchars : "0123456789.+-einfa".toList ⊆ numberChars := by decide
  cases v with
  | int n => exact List.Subset.trans (decimal_chars n) hdigits
  | float x =>
    cases hv with
    | float hx => exact List.Subset.trans hx.chars hchars
  | null | bool | str | arr | obj => exact h.elim

lemma constant_chars {v : Json} (h : v = .null ∨ v = .bool true ∨ v = .bool false) : ¬ v.word ⊆ numberChars := by
  obtain rfl | rfl | rfl := h <;> decide

lemma decimal_ne_float (n : ℤ) {x : PyFloat} (hx : x.WellFormed) : decimal n ≠ x.repr := by
  intro h
  obtain ⟨c, hc, hm⟩ := hx.marked
  have hdisjoint : ∀ c ∈ ".en".toList, c ∉ "-0123456789".toList := by decide
  exact hdisjoint c hc (decimal_chars n (h ▸ hm))

lemma scalar_cases {v : Json} (h : v.shape = .scalar) :
    (v = .null ∨ v = .bool true ∨ v = .bool false) ∨ v.IsNumber := by
  cases v with
  | null => exact .inl (.inl rfl)
  | bool b => cases b <;> simp
  | int | float => exact .inr trivial
  | str | arr | obj => cases h

lemma word_injective {a b : Json} (ha : a.shape = .scalar) (hb : b.shape = .scalar)
    (hfa : a.Floats PyFloat.WellFormed) (hfb : b.Floats PyFloat.WellFormed) (h : a.word = b.word) : a = b := by
  rcases scalar_cases ha with hca | hna <;> rcases scalar_cases hb with hcb | hnb
  · obtain rfl | rfl | rfl := hca <;> obtain rfl | rfl | rfl := hcb <;> first | rfl | exact absurd h (by decide)
  · exact (constant_chars hca (h ▸ number_chars hnb hfb)).elim
  · exact (constant_chars hcb (h ▸ number_chars hna hfa)).elim
  · cases hfa with
    | int n =>
      cases hfb with
      | int m => exact congrArg _ (decimal_injective h)
      | float hx => exact (decimal_ne_float n hx h).elim
      | null | bool | str | arr | obj => exact hnb.elim
    | float hx =>
      cases hfb with
      | int m => exact (decimal_ne_float m hx h.symm).elim
      | float hy => exact congrArg (Json.float ∘ PyFloat.mk) h
      | null | bool | str | arr | obj => exact hnb.elim
    | null | bool | str | arr | obj => exact hna.elim

lemma word_subset {v : Json} (h : v.shape = .scalar) (hv : v.Floats PyFloat.WellFormed) : v.word ⊆ wordChars := by
  have hnumbers : numberChars ⊆ wordChars := by decide
  rcases scalar_cases h with hc | hn
  · obtain rfl | rfl | rfl := hc <;> decide
  · exact List.Subset.trans (number_chars hn hv) hnumbers

lemma decimal_ne_nil (n : ℤ) : decimal n ≠ [] := by
  cases n with
  | ofNat n => exact Nat.toDigits_ne_nil
  | negSucc n => exact List.cons_ne_nil _ _

lemma join_rigid {α : Type} {text : α → Str} {R : α → α → Prop} {P : α → Prop} {close : Char} {sep rest : Str}
    (hsep : sep = ',' :: rest) (hc : close = ']' ∨ close = '\x7d') {xs : List α}
    (hx : ∀ x ∈ xs, Rigid Delimited text R P x) {ys : List α} (hy : ∀ y ∈ ys, P y)
    (hlead : ∀ x, x ∈ xs ∨ x ∈ ys → ∃ c t, text x = c :: t ∧ c ≠ close) {u v : Str}
    (he : join sep (xs.map text) ++ close :: u = join sep (ys.map text) ++ close :: v) :
    List.Forall₂ R xs ys ∧ u = v := by
  have hclose : close ∈ ",]\x7d".toList ∧ close ≠ ',' := by obtain rfl | rfl := hc <;> decide
  rw [join_eq_intercalate, join_eq_intercalate, hsep] at he
  exact items_rigid (fun u => .inr ⟨',', by decide, u, rfl⟩) (fun u => .inr ⟨close, hclose.1, u, rfl⟩) hclose.2
    hx hy hlead he

lemma alikeItems_iff {spell : Str → Str} {xs ys : List Json} :
    Json.alikeItems spell xs ys = true ↔ List.Forall₂ (fun x y => x.alike spell y = true) xs ys := by
  induction xs generalizing ys with
  | nil => cases ys <;> simp [Json.alikeItems]
  | cons x xs ih => cases ys <;> simp [Json.alikeItems, ih]

lemma alikeMembers_iff {spell : Str → Str} {ms ns : List (Str × Json)} : Json.alikeMembers spell ms ns = true ↔
    List.Forall₂ (fun m n => spell m.1 = spell n.1 ∧ m.2.alike spell n.2 = true) ms ns := by
  induction ms generalizing ns with
  | nil => cases ns <;> simp [Json.alikeMembers]
  | cons m ms ih => cases ns <;> simp [Json.alikeMembers, ih]

section Documented

variable {py : Python} {printable : Char → Bool}

def lowered (py : Python) (printable : Char → Bool) (v : Json) : Str := py.lower (v.repr printable)

def spelled (py : Python) (printable : Char → Bool) (s : Str) : Str := py.lower (reprStr printable s)

def loweredEntry (py : Python) (printable : Char → Bool) (m : Str × Json) : Str :=
  spelled py printable m.1 ++ ": ".toList ++ lowered py printable m.2

variable (hpy : py.Documented printable)

include hpy

lemma lower_nil : py.lower [] = [] := (hpy.lower []).ascii (by simp)

lemma lower_fixed {s : Str} (h : ∀ c ∈ s, c.toNat < 128 ∧ c.toLower = c) : py.lower s = s := by
  rw [(hpy.lower s).ascii fun c hc => (h c hc).1, List.map_congr_left fun c hc => (h c hc).2, List.map_id']

lemma lower_join (ts : List Str) : py.lower (join ", " ts) = join ", " (ts.map py.lower) := by
  induction ts with
  | nil => exact lower_nil hpy
  | cons t ts ih =>
    cases ts with
    | nil => rfl
    | cons t' ts =>
      rw [join, hpy.lower_separator _ (by decide), ih]
      rfl

lemma lower_bracketed {o c : Str} (ho : o ∈ separators) (hc : c ∈ separators) (s : Str) :
    py.lower (o ++ s ++ c) = o ++ py.lower s ++ c := by
  have hopen := hpy.lower_separator o ho [] s
  have hclose := hpy.lower_separator c hc (o ++ s) []
  simp only [List.append_nil, List.nil_append, lower_nil hpy] at hopen hclose
  rw [hclose, hopen]

lemma lowered_arr (xs : List Json) : lowered py printable (.arr xs) =
    "[".toList ++ join ", " (xs.map (lowered py printable)) ++ "]".toList := by
  rw [lowered, Json.repr, lower_bracketed hpy (by decide) (by decide), lower_join hpy, Json.reprItems_eq,
    List.map_map]
  rfl

lemma lowered_obj (ms : List (Str × Json)) : lowered py printable (.obj ms) =
    "\x7b".toList ++ join ", " (ms.map (loweredEntry py printable)) ++ "\x7d".toList := by
  have hentry : py.lower ∘ entryText printable = loweredEntry py printable := by
    funext m
    exact hpy.lower_separator _ (by decide) _ _
  rw [lowered, Json.repr, lower_bracketed hpy (by decide) (by decide), lower_join hpy, Json.reprMembers_eq,
    List.map_map, hentry]

lemma lowered_word {v : Json} (h : v.shape = .scalar) (hv : v.Floats PyFloat.WellFormed) :
    lowered py printable v = v.word := by
  cases v with
  | null => exact (hpy.lower "None".toList).ascii (by decide)
  | bool b =>
    cases b
    · exact (hpy.lower "False".toList).ascii (by decide)
    · exact (hpy.lower "True".toList).ascii (by decide)
  | int n =>
    have hdigits : ∀ c ∈ "-0123456789".toList, c.toNat < 128 ∧ c.toLower = c := by decide
    exact lower_fixed hpy fun c hc => hdigits c (decimal_chars n hc)
  | float x =>
    have hchars : ∀ c ∈ "0123456789.+-einfa".toList, c.toNat < 128 ∧ c.toLower = c := by decide
    cases hv with
    | float hx => exact lower_fixed hpy fun c hc => hchars c (hx.chars hc)
  | str | arr | obj => cases h

lemma lowered_leads {v : Json} (hv : v.Floats PyFloat.WellFormed) :
    ∃ c ∈ v.shape.leads, ∃ rest, lowered py printable v = c :: rest := by
  have hword : v.shape = .scalar → v.word ≠ [] →
      ∃ c ∈ v.shape.leads, ∃ rest, lowered py printable v = c :: rest := by
    intro hs hne
    obtain ⟨c, rest, hc⟩ := List.exists_cons_of_ne_nil hne
    refine ⟨c, hs ▸ word_subset hs hv (hc ▸ List.mem_cons_self), rest, ?_⟩
    rw [lowered_word hpy hs hv, hc]
  cases v with
  | null => exact hword rfl (by decide)
  | bool b => exact hword rfl (by cases b <;> decide)
  | int n => exact hword rfl (decimal_ne_nil n)
  | float x =>
    apply hword rfl
    cases hv with
    | float hx =>
      obtain ⟨c, -, hc⟩ := hx.marked
      exact List.ne_nil_of_mem hc
  | str s =>
    obtain ⟨body, hbody, -⟩ := reprStr_quoted (hpy.lower (reprStr printable s))
    exact ⟨quoteOf s, quoteOf_mem s, _, hbody⟩
  | arr xs => exact ⟨'[', List.mem_singleton_self _, _, lowered_arr hpy xs⟩
  | obj ms => exact ⟨'\x7b', List.mem_singleton_self _, _, lowered_obj hpy ms⟩

lemma lowered_shape {a b : Json} (ha : a.Floats PyFloat.WellFormed) (hb : b.Floats PyFloat.WellFormed) {u v : Str}
    (he : lowered py printable a ++ u = lowered py printable b ++ v) : a.shape = b.shape := by
  obtain ⟨c, hc, rest, hrest⟩ := lowered_leads hpy ha
  obtain ⟨d, hd, rest', hrest'⟩ := lowered_leads hpy hb
  rw [hrest, hrest', List.cons_append, List.cons_append, List.cons.injEq] at he
  by_contra hne
  exact Shape.leads_disjoint hne c hc (he.1 ▸ hd)

omit hpy in
lemma alike_scalar {spell : Str → Str} {a : Json} (h : a.shape = .scalar) : a.alike spell a = true := by
  cases a with
  | null => rfl
  | bool | int | float => simp [Json.alike]
  | str | arr | obj => cases h

lemma lowered_rigid_scalar {a : Json} (hs : a.shape = .scalar) (ha : a.Floats PyFloat.WellFormed) :
    Rigid Delimited (lowered py printable) (fun a b => a.alike (spelled py printable) b = true)
      (Json.Floats PyFloat.WellFormed) a := by
  intro b u v hb hu hv he
  have hsb : b.shape = .scalar := (lowered_shape hpy ha hb he).symm.trans hs
  rw [lowered_word hpy hs ha, lowered_word hpy hsb hb] at he
  obtain ⟨hw, huv⟩ := word_rigid (fun _ hc => decide_eq_true (word_subset hs ha hc))
    (fun _ hc => decide_eq_true (word_subset hsb hb hc)) hu.head hv.head he
  obtain rfl := word_injective hs hsb ha hb hw
  exact ⟨alike_scalar hs, huv⟩

lemma loweredEntry_rigid {m : Str × Json}
    (ih : Rigid Delimited (lowered py printable) (fun a b => a.alike (spelled py printable) b = true)
      (Json.Floats PyFloat.WellFormed) m.2) :
    Rigid Delimited (loweredEntry py printable)
      (fun m n => spelled py printable m.1 = spelled py printable n.1 ∧
        m.2.alike (spelled py printable) n.2 = true)
      (fun m => m.2.Floats PyFloat.WellFormed) m := by
  intro n u v hn hu hv he
  simp only [loweredEntry, List.append_assoc] at he
  obtain ⟨hkey, hrest⟩ := reprStr_rigid (hpy.lower _) (hpy.lower _) he
  obtain ⟨hvalue, huv⟩ := ih n.2 u v hn hu hv (List.append_cancel_left hrest)
  exact ⟨⟨hkey, hvalue⟩, huv⟩

lemma lowered_rigid (a : Json) (ha : a.Floats PyFloat.WellFormed) :
    Rigid Delimited (lowered py printable) (fun a b => a.alike (spelled py printable) b = true)
      (Json.Floats PyFloat.WellFormed) a := by
  induction a using Json.induct with
  | null | bool | int | float => exact lowered_rigid_scalar hpy rfl ha
  | str s =>
    intro b u v hb hu hv he
    have hsb := lowered_shape hpy ha hb he
    cases b with
    | str t =>
      obtain ⟨hst, huv⟩ := reprStr_rigid (hpy.lower _) (hpy.lower _) he
      exact ⟨decide_eq_true hst, huv⟩
    | _ => cases hsb
  | arr xs ih =>
    intro b u v hb hu hv he
    have hsb := lowered_shape hpy ha hb he
    cases b with
    | arr ys =>
      cases ha with
      | arr hxs =>
      cases hb with
      | arr hys =>
        rw [lowered_arr hpy, lowered_arr hpy] at he
        simp only [List.append_assoc, List.append_cancel_left_eq] at he
        have hlead : ∀ x, x ∈ xs ∨ x ∈ ys → ∃ c t, lowered py printable x = c :: t ∧ c ≠ ']' := by
          intro x hx
          obtain ⟨c, hc, t, ht⟩ := lowered_leads hpy (hx.elim (hxs x) (hys x))
          exact ⟨c, t, ht, fun he => Shape.leads_not_delimiter _ ']' (by decide) (he ▸ hc)⟩
        obtain ⟨hR, huv⟩ := join_rigid rfl (.inl rfl) (fun x hx => ih x hx (hxs x hx)) hys hlead he
        exact ⟨alikeItems_iff.mpr hR, huv⟩
    | _ => cases hsb
  | obj ms ih =>
    intro b u v hb hu hv he
    have hsb := lowered_shape hpy ha hb he
    cases b with
    | obj ns =>
      cases ha with
      | obj hms =>
      cases hb with
      | obj hns =>
        rw [lowered_obj hpy, lowered_obj hpy] at he
        simp only [List.append_assoc, List.append_cancel_left_eq] at he
        have hlead : ∀ m, m ∈ ms ∨ m ∈ ns → ∃ c t, loweredEntry py printable m = c :: t ∧ c ≠ '\x7d' := by
          intro m _
          obtain ⟨body, hbody, -⟩ := reprStr_quoted (hpy.lower (reprStr printable m.1))
          have hquote : ∀ q ∈ quotes, q ≠ '\x7d' := by decide
          exact ⟨quoteOf m.1, _, by rw [loweredEntry, spelled, hbody]; rfl, hquote _ (quoteOf_mem m.1)⟩
        obtain ⟨hR, huv⟩ := join_rigid rfl (.inr rfl) (fun m hm => loweredEntry_rigid hpy (ih m hm (hms m hm)))
          hns hlead he
        exact ⟨alikeMembers_iff.mpr hR, huv⟩
    | _ => cases hsb

lemma lowered_of_alike {a b : Json} (h : a.alike (spelled py printable) b = true) :
    lowered py printable a = lowered py printable b := by
  induction a using Json.induct generalizing b with
  | null | bool | int | float => cases b <;> simp_all [Json.alike]
  | str s =>
    cases b with
    | str t => exact of_decide_eq_true h
    | _ => cases h
  | arr xs ih =>
    cases b with
    | arr ys =>
      have hmap : xs.map (lowered py printable) = ys.map (lowered py printable) :=
        map_eq_of_forall₂ (alikeItems_iff.mp h) fun x hx y hxy => ih x hx hxy
      rw [lowered_arr hpy, lowered_arr hpy, hmap]
    | _ => cases h
  | obj ms ih =>
    cases b with
    | obj ns =>
      have hmap : ms.map (loweredEntry py printable) = ns.map (loweredEntry py printable) := by
        refine map_eq_of_forall₂ (alikeMembers_iff.mp h) fun m hm n hmn => ?_
        rw [loweredEntry, loweredEntry, hmn.1, ih m hm hmn.2]
      rw [lowered_obj hpy, lowered_obj hpy, hmap]
    | _ => cases h

theorem lowered_eq_iff {a b : Json} (ha : a.Floats PyFloat.WellFormed) (hb : b.Floats PyFloat.WellFormed) :
    lowered py printable a = lowered py printable b ↔ a.alike (spelled py printable) b = true := by
  refine ⟨fun he => ?_, lowered_of_alike hpy⟩
  exact (lowered_rigid hpy a ha b [] [] hb (.inl rfl) (.inl rfl) (by simpa using he)).1

end Documented

end ShadowProxy

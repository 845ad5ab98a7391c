import ShadowProxy.Evaluator.Reading

/-! When a match means equal actions. -/

namespace ShadowProxy

open JsonActionEvaluator

/-- Equality of numbers: the zeros are one, and `nan` is none. -/
def PyFloat.same (x y : PyFloat) : Bool := x.repr ≠ ("nan" : Str) && (x = y || x.isZero && y.isZero)

mutual

/-- Equality of JSON values: of one type, objects in any order of their members. -/
def Json.same (norm : Str → Str) : Json → Json → Bool
  | .null, .null => true
  | .bool a, .bool b => a = b
  | .int a, .int b => a = b
  | .float a, .float b => a.same b
  | .str s, .str t => norm s = norm t
  | .arr xs, .arr ys => Json.sameItems norm xs ys
  | .obj ms, .obj ns => ms.length = ns.length && Json.sameMembers norm ms ns
  | _, _ => false

def Json.sameItems (norm : Str → Str) : List Json → List Json → Bool
  | [], [] => true
  | x :: xs, y :: ys => x.same norm y && Json.sameItems norm xs ys
  | _, _ => false

def Json.sameMembers (norm : Str → Str) : List (Str × Json) → List (Str × Json) → Bool
  | [], _ => true
  | (k, x) :: ms, ns =>
    (match ns.lookup k with
      | some y => x.same norm y
      | none => false) && Json.sameMembers norm ms ns

end

def Action (py : Python) (key text : Str) (action : Json) : Prop :=
  stripCodeFence text ≠ [] ∧ action ≠ .null ∧
    ∃ ms, py.loads (stripCodeFence text) = .ok (.obj ms) ∧ ms.lookup key = some action

def normalized (py : Python) (s : Str) : Str := py.lower (strip s)

variable {py : Python} {printable : Char → Bool} {cfg : EvaluatorConfig} {key : Str}

lemma action_iff {text : Str} {action : Json} : Action py key text action ↔
    action ≠ .null ∧ ∃ v, parse py text = .ok (v, none) ∧ getKey v key = action := by
  constructor
  · rintro ⟨hs, hne, ms, hms, ha⟩
    obtain ⟨c, cs, hcs⟩ := List.exists_cons_of_ne_nil hs
    refine ⟨hne, .obj ms, ?_, by simp [getKey, ha]⟩
    rw [hcs] at hms
    simp [parse, hcs, hms]
  · rintro ⟨hne, v, hv, ha⟩
    rw [parse] at hv
    split at hv
    · simp at hv
    · rename_i stripped hs
      split at hv
      · rename_i w hw
        obtain rfl : w = v := by simpa using hv
        cases w with
        | obj ms =>
          refine ⟨hs, hne, ms, hw, ?_⟩
          cases hm : ms.lookup key with
          | none => exact (hne (by rw [← ha, getKey, hm]; rfl)).elim
          | some a => rw [← ha, getKey, hm]; rfl
        | _ => exact (hne ha.symm).elim
      · simp at hv
      · cases hv

lemma Action.unique {text : Str} {a b : Json} (ha : Action py key text a) (hb : Action py key text b) : a = b := by
  obtain ⟨-, -, ms, hms, hma⟩ := ha
  obtain ⟨-, -, ns, hns, hnb⟩ := hb
  obtain rfl := Json.obj.inj (Except.ok.inj (hms.symm.trans hns))
  exact Option.some.inj (hma.symm.trans hnb)

lemma matched_iff (hj : cfg.requireJson = true) {primaryText candidateText : Str} :
    (∃ result, evaluate py cfg primaryText candidateText = .ok result ∧ result.verdict = .matched) ↔
      ∃ a b, Action py cfg.compareKey primaryText a ∧ Action py cfg.compareKey candidateText b ∧
        normalizeValue py cfg a = normalizeValue py cfg b := by
  constructor
  · rintro ⟨result, h, hv⟩
    obtain ⟨hp, hc⟩ := evaluate_ok_iff.mp ⟨result, h⟩
    obtain ⟨⟨p, pErr⟩, hp⟩ := readable_iff.mp hp
    obtain ⟨⟨c, cErr⟩, hc⟩ := readable_iff.mp hc
    simp only [evaluate, hp, hc, bind, Except.bind, pure, Except.pure, hj, Bool.true_and] at h
    split at h
    · obtain rfl := Except.ok.inj h
      cases hv
    rename_i herr
    simp only [Bool.or_eq_true, Option.isSome_iff_ne_none, not_or, ne_eq, not_not] at herr
    obtain ⟨rfl, rfl⟩ := herr
    split at h
    · obtain rfl := Except.ok.inj h
      cases hv
    rename_i hnull
    rw [not_or] at hnull
    split at h
    · rename_i hnorm
      exact ⟨_, _, action_iff.mpr ⟨hnull.1, p, hp, rfl⟩, action_iff.mpr ⟨hnull.2, c, hc, rfl⟩, hnorm⟩
    · obtain rfl := Except.ok.inj h
      cases hv
  · rintro ⟨a, b, ha, hb, hnorm⟩
    obtain ⟨hna, p, hp, rfl⟩ := action_iff.mp ha
    obtain ⟨hnb, c, hc, rfl⟩ := action_iff.mp hb
    simp [evaluate, hp, hc, bind, Except.bind, pure, Except.pure, hna, hnb, hnorm]

lemma same_false_of_shape {norm : Str → Str} {a b : Json} (h : a.shape ≠ b.shape) : a.same norm b = false := by
  cases a <;> cases b <;> first | rfl | exact (h rfl).elim

lemma alike_false_of_shape {spell : Str → Str} {a b : Json} (h : a.shape ≠ b.shape) : a.alike spell b = false := by
  cases a <;> cases b <;> first | rfl | exact (h rfl).elim

lemma sameItems_iff {norm : Str → Str} {xs ys : List Json} :
    Json.sameItems norm xs ys = true ↔ List.Forall₂ (fun x y => x.same norm y = true) xs ys := by
  induction xs generalizing ys with
  | nil => cases ys <;> simp [Json.sameItems]
  | cons x xs ih => cases ys <;> simp [Json.sameItems, ih]

lemma sameMembers_iff {norm : Str → Str} {ms ns : List (Str × Json)} : Json.sameMembers norm ms ns = true ↔
    ∀ m ∈ ms, ∃ y, ns.lookup m.1 = some y ∧ m.2.same norm y = true := by
  induction ms with
  | nil => simp [Json.sameMembers]
  | cons m ms ih =>
    rw [Json.sameMembers, Bool.and_eq_true, ih, List.forall_mem_cons]
    refine and_congr_left fun _ => ?_
    cases ns.lookup m.1 <;> simp

section Differences

variable (norm spell : Str → Str)

/-- Where the spellings of one value differ: in a string, in the sign of a zero, or in what member stands where. -/
inductive Respelled : Json → Json → Prop
  | string {s t : Str} : norm s = norm t → spell s ≠ spell t → Respelled (.str s) (.str t)
  | zero {x y : PyFloat} : x.isZero = true → y.isZero = true → x ≠ y → Respelled (.float x) (.float y)
  | item {xs ys : List Json} {x y : Json} : (x, y) ∈ xs.zip ys → Respelled x y → Respelled (.arr xs) (.arr ys)
  | key {ms ns : List (Str × Json)} {m n : Str × Json} : (m, n) ∈ ms.zip ns → spell m.1 ≠ spell n.1 →
      Respelled (.obj ms) (.obj ns)
  | misplaced {ms ns : List (Str × Json)} {m n : Str × Json} : (m, n) ∈ ms.zip ns → ns.lookup m.1 ≠ some n.2 →
      m.2.alike spell n.2 = false → Respelled (.obj ms) (.obj ns)
  | member {ms ns : List (Str × Json)} {m n : Str × Json} : (m, n) ∈ ms.zip ns → ns.lookup m.1 = some n.2 →
      Respelled m.2 n.2 → Respelled (.obj ms) (.obj ns)

/-- Where values of one spelling differ: in a string, at a `nan`, or in the value under a key. -/
inductive Confused : Json → Json → Prop
  | string {s t : Str} : spell s = spell t → norm s ≠ norm t → Confused (.str s) (.str t)
  | nan {x : PyFloat} : x.repr = ("nan" : Str) → Confused (.float x) (.float x)
  | item {xs ys : List Json} {x y : Json} : (x, y) ∈ xs.zip ys → Confused x y → Confused (.arr xs) (.arr ys)
  | absent {ms ns : List (Str × Json)} {m : Str × Json} : m ∈ ms → ns.lookup m.1 = none →
      Confused (.obj ms) (.obj ns)
  | misplaced {ms ns : List (Str × Json)} {m : Str × Json} {y : Json} : m ∈ ms → ns.lookup m.1 = some y →
      (∀ n, (m, n) ∈ ms.zip ns → n.2 ≠ y) → m.2.same norm y = false → Confused (.obj ms) (.obj ns)
  | member {ms ns : List (Str × Json)} {m n : Str × Json} : (m, n) ∈ ms.zip ns → ns.lookup m.1 = some n.2 →
      Confused m.2 n.2 → Confused (.obj ms) (.obj ns)

variable {norm spell} {a b : Json}

lemma Respelled.not_alike (h : Respelled norm spell a b) : ¬ a.alike spell b = true := by
  induction h with
  | string _ hs => simpa [Json.alike] using hs
  | zero _ _ hne => simpa [Json.alike] using hne
  | item hxy _ ih => exact fun h => ih ((List.forall₂_iff_zip.mp (alikeItems_iff.mp h)).2 hxy)
  | key hmn hk => exact fun h => hk ((List.forall₂_iff_zip.mp (alikeMembers_iff.mp h)).2 hmn).1
  | misplaced hmn _ hv =>
    intro h
    rw [((List.forall₂_iff_zip.mp (alikeMembers_iff.mp h)).2 hmn).2] at hv
    cases hv
  | member hmn _ _ ih => exact fun h => ih ((List.forall₂_iff_zip.mp (alikeMembers_iff.mp h)).2 hmn).2

lemma same_obj {ms ns : List (Str × Json)} : (Json.obj ms).same norm (.obj ns) = true ↔
    ms.length = ns.length ∧ ∀ m ∈ ms, ∃ y, ns.lookup m.1 = some y ∧ m.2.same norm y = true := by
  rw [Json.same, Bool.and_eq_true, decide_eq_true_eq, sameMembers_iff]

lemma Confused.not_same (h : Confused norm spell a b) : ¬ a.same norm b = true := by
  have hmember : ∀ {ms ns : List (Str × Json)} {m : Str × Json} {y : Json}, m ∈ ms → ns.lookup m.1 = some y →
      ¬ m.2.same norm y = true → ¬ (Json.obj ms).same norm (.obj ns) = true := by
    intro ms ns m y hm hy hne h
    obtain ⟨y', hy', hs⟩ := (same_obj.mp h).2 m hm
    obtain rfl := Option.some.inj (hy.symm.trans hy')
    exact hne hs
  induction h with
  | string _ hs => simpa [Json.same] using hs
  | nan hx => simp [Json.same, PyFloat.same, hx]
  | item hxy _ ih => exact fun h => ih ((List.forall₂_iff_zip.mp (sameItems_iff.mp h)).2 hxy)
  | absent hm hnone =>
    intro h
    obtain ⟨y, hy, -⟩ := (same_obj.mp h).2 _ hm
    rw [hnone] at hy
    cases hy
  | misplaced hm hy _ hv => exact hmember hm hy (by simp [hv])
  | member hmn hn _ ih => exact hmember (List.of_mem_zip hmn).1 hn ih

lemma alike_or_respelled (h : a.same norm b = true) : a.alike spell b = true ∨ Respelled norm spell a b := by
  induction a using Json.induct generalizing b with
  | null | bool | int => cases b <;> exact .inl h
  | float x =>
    cases b with
    | float y =>
      simp only [Json.same, PyFloat.same, Bool.and_eq_true, Bool.or_eq_true, decide_eq_true_eq] at h
      by_cases hxy : x = y
      · exact .inl (decide_eq_true hxy)
      · obtain ⟨hx, hy⟩ := h.2.resolve_left hxy
        exact .inr (.zero hx hy hxy)
    | _ => cases h
  | str s =>
    cases b with
    | str t =>
      by_cases hs : spell s = spell t
      · exact .inl (decide_eq_true hs)
      · exact .inr (.string (of_decide_eq_true h) hs)
    | _ => cases h
  | arr xs ih =>
    cases b with
    | arr ys =>
      obtain ⟨hlen, hsame⟩ := List.forall₂_iff_zip.mp (sameItems_iff.mp h)
      by_cases hr : ∃ p ∈ xs.zip ys, Respelled norm spell p.1 p.2
      · obtain ⟨⟨x, y⟩, hp, hr⟩ := hr
        exact .inr (.item hp hr)
      · refine .inl (alikeItems_iff.mpr (List.forall₂_iff_zip.mpr ⟨hlen, fun {x y} hp => ?_⟩))
        exact (ih x (List.of_mem_zip hp).1 (hsame hp)).resolve_right fun hr' => hr ⟨_, hp, hr'⟩
    | _ => cases h
  | obj ms ih =>
    cases b with
    | obj ns =>
      obtain ⟨hlen, hsame⟩ := same_obj.mp h
      by_cases hr : Respelled norm spell (.obj ms) (.obj ns)
      · exact .inr hr
      refine .inl (alikeMembers_iff.mpr (List.forall₂_iff_zip.mpr ⟨hlen, fun {m n} hp => ⟨?_, ?_⟩⟩))
      · by_contra hk
        exact hr (.key hp hk)
      · by_contra hv
        by_cases hn : ns.lookup m.1 = some n.2
        · have hm := (List.of_mem_zip hp).1
          obtain ⟨y, hy, hs⟩ := hsame m hm
          obtain rfl := Option.some.inj (hn.symm.trans hy)
          exact hr (.member hp hn ((ih m hm hs).resolve_left hv))
        · exact hr (.misplaced hp hn (by simpa using hv))
    | _ => cases h

lemma same_or_confused (h : a.alike spell b = true) : a.same norm b = true ∨ Confused norm spell a b := by
  induction a using Json.induct generalizing b with
  | null | bool | int => cases b <;> exact .inl h
  | float x =>
    cases b with
    | float y =>
      obtain rfl : x = y := of_decide_eq_true h
      by_cases hx : x.repr = ("nan" : Str)
      · exact .inr (.nan hx)
      · exact .inl (Bool.and_eq_true_iff.mpr ⟨decide_eq_true hx, by simp⟩)
    | _ => cases h
  | str s =>
    cases b with
    | str t =>
      by_cases hs : norm s = norm t
      · exact .inl (decide_eq_true hs)
      · exact .inr (.string (of_decide_eq_true h) hs)
    | _ => cases h
  | arr xs ih =>
    cases b with
    | arr ys =>
      obtain ⟨hlen, halike⟩ := List.forall₂_iff_zip.mp (alikeItems_iff.mp h)
      by_cases hc : ∃ p ∈ xs.zip ys, Confused norm spell p.1 p.2
      · obtain ⟨⟨x, y⟩, hp, hc⟩ := hc
        exact .inr (.item hp hc)
      · refine .inl (sameItems_iff.mpr (List.forall₂_iff_zip.mpr ⟨hlen, fun {x y} hp => ?_⟩))
        exact (ih x (List.of_mem_zip hp).1 (halike hp)).resolve_right fun hc' => hc ⟨_, hp, hc'⟩
    | _ => cases h
  | obj ms ih =>
    cases b with
    | obj ns =>
      obtain ⟨hlen, halike⟩ := List.forall₂_iff_zip.mp (alikeMembers_iff.mp h)
      by_cases hc : Confused norm spell (.obj ms) (.obj ns)
      · exact .inr hc
      refine .inl (same_obj.mpr ⟨hlen, fun m hm => ?_⟩)
      cases hy : ns.lookup m.1 with
      | none => exact absurd (.absent hm hy) hc
      | some y =>
        refine ⟨y, rfl, ?_⟩
        by_contra hs
        by_cases hn : ∃ n, (m, n) ∈ ms.zip ns ∧ n.2 = y
        · obtain ⟨n, hp, rfl⟩ := hn
          exact hc (.member hp hy ((ih m hm (halike hp).2).resolve_left hs))
        · exact hc (.misplaced hm hy (fun n hp he => hn ⟨n, hp, he⟩) (by simpa using hs))
    | _ => cases h

end Differences

def Spells (py : Python) (printable : Char → Bool) (s : Str) (v : Json) : Prop :=
  normalized py s = py.lower (v.repr printable)

structure Unambiguous (py : Python) (printable : Char → Bool) (a b : Json) : Prop where
  left : ∀ s, a = .str s → b.shape ≠ .str → ¬ Spells py printable s b
  right : ∀ s, b = .str s → a.shape ≠ .str → ¬ Spells py printable s a
  kept : a.shape ≠ .str → a.same (normalized py) b = true → ¬ Respelled (normalized py) (spelled py printable) a b
  apart : a.shape ≠ .str → a.alike (spelled py printable) b = true →
    ¬ Confused (normalized py) (spelled py printable) a b

lemma exists_str {a : Json} (h : a.shape = .str) : ∃ s, a = .str s := by
  cases a <;> first | exact ⟨_, rfl⟩ | cases h

lemma Unambiguous.iff_left {s : Str} {b : Json} (hb : b.shape ≠ .str) :
    Unambiguous py printable (.str s) b ↔ ¬ Spells py printable s b := by
  refine ⟨fun h => h.left s rfl hb, fun h =>
    ⟨?_, fun _ _ ha => (ha rfl).elim, fun ha => (ha rfl).elim, fun ha => (ha rfl).elim⟩⟩
  rintro _ ⟨⟩ -
  exact h

lemma Unambiguous.iff_right {s : Str} {a : Json} (ha : a.shape ≠ .str) :
    Unambiguous py printable a (.str s) ↔ ¬ Spells py printable s a := by
  refine ⟨fun h => h.right s rfl ha, fun h => ⟨fun _ _ hb => (hb rfl).elim, ?_, fun _ hs => ?_, fun _ hs => ?_⟩⟩
  · rintro _ ⟨⟩ -
    exact h
  · rw [same_false_of_shape ha] at hs
    cases hs
  · rw [alike_false_of_shape ha] at hs
    cases hs

lemma Unambiguous.iff_same {a b : Json} (ha : a.shape ≠ .str) (hb : b.shape ≠ .str) :
    Unambiguous py printable a b ↔
    (a.same (normalized py) b = true ↔ a.alike (spelled py printable) b = true) := by
  constructor
  · intro h
    exact ⟨fun hs => (alike_or_respelled hs).resolve_right (h.kept ha hs),
      fun hs => (same_or_confused hs).resolve_right (h.apart ha hs)⟩
  · intro h
    refine ⟨?_, ?_, fun _ hs hr => hr.not_alike (h.mp hs), fun _ hs hc => hc.not_same (h.mpr hs)⟩
    · rintro s rfl
      exact (ha rfl).elim
    · rintro s rfl
      exact (hb rfl).elim

section Documented

variable (hpy : py.Documented printable) (hn : cfg.normalize = .lowercaseStrip)

include hpy hn

lemma normalizeValue_str (s : Str) : normalizeValue py cfg (.str s) = normalized py s := by
  rw [normalizeValue, hn]
  dsimp only
  rw [hpy.str, Json.text, normalized]

omit hpy hn in
lemma strip_repr {v : Json} (hs : v.shape ≠ .str) (hv : v.Floats PyFloat.WellFormed) :
    strip (v.repr printable) = v.repr printable := by
  cases hv with
  | null => exact strip_fixed (s := "None") (by decide)
  | bool b =>
    cases b
    · exact strip_fixed (s := "False") (by decide)
    · exact strip_fixed (s := "True") (by decide)
  | int n =>
    have hchars : ∀ c ∈ "-0123456789".toList, isSpace c = false := by decide
    exact strip_fixed fun c hc => hchars c (decimal_chars n hc)
  | float hx =>
    have hchars : ∀ c ∈ "0123456789.+-einfa".toList, isSpace c = false := by decide
    exact strip_fixed fun c hc => hchars c (hx.chars hc)
  | str => exact (hs rfl).elim
  | arr => exact strip_bracketed (by decide) (by decide) _
  | obj => exact strip_bracketed (by decide) (by decide) _

lemma normalizeValue_of_ne_str {v : Json} (hs : v.shape ≠ .str) (hv : v.Floats PyFloat.WellFormed) :
    normalizeValue py cfg v = lowered py printable v := by
  have htext : v.text printable = v.repr printable := by
    cases v <;> first | rfl | exact (hs rfl).elim
  rw [normalizeValue, hn]
  dsimp only
  rw [hpy.str, htext, strip_repr hs hv, lowered]

lemma normalizeValue_spells {v : Json} (hs : v.shape ≠ .str) (hv : v.Floats PyFloat.WellFormed) (s : Str) :
    normalizeValue py cfg (.str s) = normalizeValue py cfg v ↔ Spells py printable s v := by
  rw [normalizeValue_str hpy hn, normalizeValue_of_ne_str hpy hn hs hv, lowered, Spells]

lemma normalizeValue_eq_iff {a b : Json} (ha : a.Floats PyFloat.WellFormed) (hb : b.Floats PyFloat.WellFormed) :
    (normalizeValue py cfg a = normalizeValue py cfg b ↔ a.same (normalized py) b = true) ↔
    Unambiguous py printable a b := by
  by_cases hsa : a.shape = .str
  · obtain ⟨s, rfl⟩ := exists_str hsa
    by_cases hsb : b.shape = .str
    · obtain ⟨t, rfl⟩ := exists_str hsb
      rw [normalizeValue_str hpy hn, normalizeValue_str hpy hn]
      exact iff_of_true (decide_eq_true_iff).symm
        ⟨fun _ _ h => (h rfl).elim, fun _ _ h => (h rfl).elim, fun h => (h rfl).elim, fun h => (h rfl).elim⟩
    · rw [normalizeValue_spells hpy hn hsb hb, same_false_of_shape (Ne.symm hsb), Unambiguous.iff_left hsb]
      simp
  · by_cases hsb : b.shape = .str
    · obtain ⟨t, rfl⟩ := exists_str hsb
      rw [eq_comm, normalizeValue_spells hpy hn hsa ha, same_false_of_shape hsa, Unambiguous.iff_right hsa]
      simp
    · rw [normalizeValue_of_ne_str hpy hn hsa ha, normalizeValue_of_ne_str hpy hn hsb hb, lowered_eq_iff hpy ha hb,
        Unambiguous.iff_same hsa hsb]
      exact iff_comm

omit hn in
lemma Action.floats {text : Str} {a : Json} (h : Action py key text a) : a.Floats PyFloat.WellFormed := by
  obtain ⟨-, -, ms, hms, ha⟩ := h
  cases hpy.loads _ _ hms with
  | obj hf =>
    obtain ⟨l₁, l₂, rfl, -⟩ := List.lookup_eq_some_iff.mp ha
    exact hf (key, a) (by simp)

theorem match_iff_same_iff (hj : cfg.requireJson = true) (primaryText candidateText : Str) :
    ((∃ result, evaluate py cfg primaryText candidateText = .ok result ∧ result.verdict = .matched) ↔
      ∃ a b, Action py cfg.compareKey primaryText a ∧ Action py cfg.compareKey candidateText b ∧
        a.same (normalized py) b = true) ↔
    ∀ a b, Action py cfg.compareKey primaryText a → Action py cfg.compareKey candidateText b →
      Unambiguous py printable a b := by
  rw [matched_iff hj]
  constructor
  · intro h a b ha hb
    refine (normalizeValue_eq_iff hpy hn (ha.floats hpy) (hb.floats hpy)).mp ⟨fun he => ?_, fun he => ?_⟩
    · obtain ⟨a', b', ha', hb', hs⟩ := h.mp ⟨a, b, ha, hb, he⟩
      rwa [ha.unique ha', hb.unique hb']
    · obtain ⟨a', b', ha', hb', hs⟩ := h.mpr ⟨a, b, ha, hb, he⟩
      rwa [ha.unique ha', hb.unique hb']
  · intro h
    constructor
    · rintro ⟨a, b, ha, hb, he⟩
      have hiff := (normalizeValue_eq_iff hpy hn (ha.floats hpy) (hb.floats hpy)).mpr (h a b ha hb)
      exact ⟨a, b, ha, hb, hiff.mp he⟩
    · rintro ⟨a, b, ha, hb, he⟩
      have hiff := (normalizeValue_eq_iff hpy hn (ha.floats hpy) (hb.floats hpy)).mpr (h a b ha hb)
      exact ⟨a, b, ha, hb, hiff.mpr he⟩

end Documented

def one : Str := "\x7b\"action\": 1\x7d"

def quotedOne : Str := "\x7b\"action\": \"1\"\x7d"

def printableAscii (c : Char) : Bool := 0x20 ≤ c.toNat && c.toNat < 0x7f

def asciiPython : Python where
  loads text :=
    if text = one then .ok (.obj [("action", .int 1)])
    else if text = quotedOne then .ok (.obj [("action", .str "1")])
    else .error (.jsonDecodeError "Expecting value")
  str := Json.text printableAscii
  repr := Json.repr printableAscii
  lower := List.map Char.toLower

lemma lowers_toLower (c : Char) : Lowers c [c.toLower] := by
  rw [Lowers]
  split
  · rfl
  · rename_i hc
    have hself : c.toLower = c := by
      refine dif_neg fun h => hc ?_
      have hz : c.toNat ≤ 90 := UInt32.le_iff_toNat_le.mp h.2
      omega
    intro d hd hsmall
    rw [List.mem_singleton.mp hd, hself] at hsmall
    exact (hc hsmall).elim

lemma documented_ascii : asciiPython.Documented printableAscii where
  str _ := rfl
  lower s := by
    induction s with
    | nil => exact .nil
    | cons c s ih => exact .cons (lowers_toLower c) ih
  lower_separator sep hsep s t := by
    have hfixed : ∀ sep ∈ separators, sep.map Char.toLower = sep := by decide
    simp only [asciiPython, List.map_append, hfixed sep hsep]
  loads text v h := by
    simp only [asciiPython] at h
    split_ifs at h
    · obtain rfl := Except.ok.inj h
      exact .obj (by simpa using .int 1)
    · obtain rfl := Except.ok.inj h
      exact .obj (by simpa using .str _)

theorem match_of_one :
    ¬ ((∃ result, evaluate asciiPython {} one quotedOne = .ok result ∧ result.verdict = .matched) ↔
    ∃ a b, Action asciiPython "action" one a ∧ Action asciiPython "action" quotedOne b ∧
      a.same (normalized asciiPython) b = true) := by
  have hone : Action asciiPython "action" one (.int 1) := ⟨by decide, by decide, _, rfl, rfl⟩
  have hquoted : Action asciiPython "action" quotedOne (.str "1") := ⟨by decide, by decide, _, rfl, rfl⟩
  intro h
  obtain ⟨a, b, ha, hb, hs⟩ := h.mp ((matched_iff rfl).mpr ⟨_, _, hone, hquoted, by decide⟩)
  rw [ha.unique hone, hb.unique hquoted] at hs
  cases hs

theorem match_iff_same_iff_one :
    ((∃ result, evaluate asciiPython {} one quotedOne = .ok result ∧ result.verdict = .matched) ↔
      ∃ a b, Action asciiPython "action" one a ∧ Action asciiPython "action" quotedOne b ∧
        a.same (normalized asciiPython) b = true) ↔
    ∀ a b, Action asciiPython "action" one a → Action asciiPython "action" quotedOne b →
      Unambiguous asciiPython printableAscii a b :=
  match_iff_same_iff documented_ascii rfl rfl one quotedOne

end ShadowProxy

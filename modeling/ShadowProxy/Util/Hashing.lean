import Mathlib.Data.Char
import Mathlib.Data.List.Lex
import Mathlib.Data.List.Perm.Basic
import Mathlib.Data.List.Sort
import ShadowProxy.Evaluator.Reading
import ShadowProxy.Util.Sha256

/-! `request_hash` tells requests apart up to the order of the members of their objects. -/

namespace ShadowProxy

open Data.Readable

section Encoding

def sortMembers {β : Type} (ms : List (Str × β)) : List (Str × β) := ms.insertionSort fun m n => m.1 ≤ n.1

mutual

def Json.canonicalize : Json → Json
  | .obj ms => .obj (sortMembers (Json.canonicalizeMembers ms))
  | .arr xs => .arr (Json.canonicalizeItems xs)
  | v => v

def Json.canonicalizeItems : List Json → List Json
  | [] => []
  | x :: xs => x.canonicalize :: Json.canonicalizeItems xs

def Json.canonicalizeMembers : List (Str × Json) → List (Str × Json)
  | [] => []
  | (k, x) :: ms => (k, x.canonicalize) :: Json.canonicalizeMembers ms

end

def dumpsChar (c : Char) : Str :=
  if c = '"' ∨ c = '\\' then ['\\', c]
  else if c = '\n' then "\\n"
  else if c = '\r' then "\\r"
  else if c = '\t' then "\\t"
  else if c = '\x08' then "\\b"
  else if c = '\x0c' then "\\f"
  else if c.toNat < 0x20 then '\\' :: 'u' :: hex 4 c.toNat
  else [c]

def dumpsStr (s : Str) : Str := '"' :: (s.flatMap dumpsChar ++ ['"'])

def PyFloat.dumps (x : PyFloat) : Str :=
  if x.repr = ("nan" : Str) then "NaN"
  else if x.repr = ("inf" : Str) then "Infinity"
  else if x.repr = ("-inf" : Str) then "-Infinity"
  else x.repr

mutual

/-- `json.dumps` with `separators=(",", ":")` and `sort_keys=True` -/
def Json.dumps : Json → Str
  | .null => "null"
  | .bool true => "true"
  | .bool false => "false"
  | .int n => decimal n
  | .float x => x.dumps
  | .str s => dumpsStr s
  | .arr xs => "[".toList ++ join "," (Json.dumpsItems xs) ++ "]".toList
  | .obj ms => "\x7b".toList ++
      join "," ((sortMembers (Json.dumpsMembers ms)).map fun m => dumpsStr m.1 ++ ":".toList ++ m.2) ++
      "\x7d".toList

def Json.dumpsItems : List Json → List Str
  | [] => []
  | x :: xs => x.dumps :: Json.dumpsItems xs

def Json.dumpsMembers : List (Str × Json) → List (Str × Str)
  | [] => []
  | (k, x) :: ms => (k, x.dumps) :: Json.dumpsMembers ms

end

def encodeUtf8 (s : Str) : List Sha256.Byte := (String.ofList s).toUTF8.data.toList.map UInt8.toBitVec

def hexdigest (bs : List Sha256.Byte) : Str := bs.flatMap fun b => hex 2 b.toNat

def hashedBytes (body : Json) : List Sha256.Byte := encodeUtf8 body.canonicalize.dumps

def requestHash (body : Json) : Str := hexdigest (Sha256.digest (hashedBytes body))

end Encoding

/-- Equal up to the order of the members of objects, at every depth. -/
inductive Json.Reordered : Json → Json → Prop
  | null : Reordered .null .null
  | bool (b : Bool) : Reordered (.bool b) (.bool b)
  | int (n : ℤ) : Reordered (.int n) (.int n)
  | float (x : PyFloat) : Reordered (.float x) (.float x)
  | str (s : Str) : Reordered (.str s) (.str s)
  | arr {xs ys : List Json} : List.Forall₂ Reordered xs ys → Reordered (.arr xs) (.arr ys)
  | obj {ms ns ns' : List (Str × Json)} :
      ms.map Prod.fst = ns'.map Prod.fst → List.Forall₂ Reordered (ms.map Prod.snd) (ns'.map Prod.snd) →
        ns'.Perm ns →
        Reordered (.obj ms) (.obj ns)

/-- The objects of a value are dictionaries. -/
inductive Json.DistinctKeys : Json → Prop
  | null : DistinctKeys .null
  | bool (b : Bool) : DistinctKeys (.bool b)
  | int (n : ℤ) : DistinctKeys (.int n)
  | float (x : PyFloat) : DistinctKeys (.float x)
  | str (s : Str) : DistinctKeys (.str s)
  | arr {xs : List Json} : (∀ x ∈ xs, DistinctKeys x) → DistinctKeys (.arr xs)
  | obj {ms : List (Str × Json)} : (ms.map Prod.fst).Nodup → (∀ m ∈ ms, DistinctKeys m.2) → DistinctKeys (.obj ms)

section Members

variable {β γ : Type}

lemma sortMembers_perm (ms : List (Str × β)) : (sortMembers ms).Perm ms := List.perm_insertionSort _ ms

lemma sortMembers_map (f : β → γ) (ms : List (Str × β)) :
    sortMembers (ms.map fun m => (m.1, f m.2)) = (sortMembers ms).map fun m => (m.1, f m.2) :=
  (List.map_insertionSort (fun m n : Str × β => m.1 ≤ n.1) (fun m n : Str × γ => m.1 ≤ n.1)
    (fun m => (m.1, f m.2)) ms
    fun _ _ _ _ => Iff.rfl).symm

lemma sortMembers_pairwise (ms : List (Str × β)) : (sortMembers ms).Pairwise fun m n => m.1 ≤ n.1 :=
  haveI : Std.Total fun m n : Str × β => m.1 ≤ n.1 := ⟨fun m n => le_total m.1 n.1⟩
  haveI : IsTrans (Str × β) fun m n => m.1 ≤ n.1 := ⟨fun _ _ _ => le_trans⟩
  List.pairwise_insertionSort _ ms

lemma sortMembers_sortMembers (ms : List (Str × β)) : sortMembers (sortMembers ms) = sortMembers ms :=
  (sortMembers_pairwise ms).insertionSort_eq

lemma sortMembers_eq_of_perm {ms ns : List (Str × β)} (hkeys : (ms.map Prod.fst).Nodup) (h : ms.Perm ns) :
    sortMembers ms = sortMembers ns := by
  have hperm : (sortMembers ms).Perm (sortMembers ns) :=
    ((sortMembers_perm ms).trans h).trans (sortMembers_perm ns).symm
  refine hperm.eq_of_pairwise ?_ (sortMembers_pairwise ms) (sortMembers_pairwise ns)
  intro m n hm hn hmn hnm
  have hm' : m ∈ ms := (sortMembers_perm ms).subset hm
  have hn' : n ∈ ms := h.symm.subset ((sortMembers_perm ns).subset hn)
  exact List.inj_on_of_nodup_map hkeys hm' hn' (le_antisymm hmn hnm)

end Members

def dumpsMember (m : Str × Json) : Str := dumpsStr m.1 ++ ":".toList ++ m.2.dumps

lemma canonicalizeItems_eq (xs : List Json) : Json.canonicalizeItems xs = xs.map Json.canonicalize := by
  induction xs with
  | nil => rfl
  | cons x xs ih => rw [Json.canonicalizeItems, ih, List.map_cons]

lemma canonicalizeMembers_eq (ms : List (Str × Json)) :
    Json.canonicalizeMembers ms = ms.map fun m => (m.1, m.2.canonicalize) := by
  induction ms with
  | nil => rfl
  | cons m ms ih => rw [Json.canonicalizeMembers, ih, List.map_cons]

lemma dumps_arr (xs : List Json) :
    (Json.arr xs).dumps = "[".toList ++ join "," (xs.map Json.dumps) ++ "]".toList := by
  have hitems : Json.dumpsItems xs = xs.map Json.dumps := by
    induction xs with
    | nil => rfl
    | cons x xs ih => rw [Json.dumpsItems, ih, List.map_cons]
  rw [Json.dumps, hitems]

lemma dumps_obj (ms : List (Str × Json)) : (Json.obj ms).dumps =
    "\x7b".toList ++ join "," ((sortMembers ms).map dumpsMember) ++ "\x7d".toList := by
  have hmembers : Json.dumpsMembers ms = ms.map fun m => (m.1, m.2.dumps) := by
    induction ms with
    | nil => rfl
    | cons m ms ih => rw [Json.dumpsMembers, ih, List.map_cons]
  rw [Json.dumps, hmembers, sortMembers_map, List.map_map]
  rfl

lemma dumps_canonicalize (v : Json) : v.canonicalize.dumps = v.dumps := by
  induction v using Json.induct with
  | null | bool | int | float | str => rfl
  | arr xs ih =>
    rw [Json.canonicalize, canonicalizeItems_eq, dumps_arr, dumps_arr, List.map_map]
    rw [List.map_congr_left (f := Json.dumps ∘ Json.canonicalize) ih]
  | obj ms ih =>
    have hentry : ∀ m ∈ sortMembers ms, dumpsMember (m.1, m.2.canonicalize) = dumpsMember m := by
      intro m hm
      rw [dumpsMember, dumpsMember, ih m ((sortMembers_perm ms).subset hm)]
    rw [Json.canonicalize, canonicalizeMembers_eq, dumps_obj, dumps_obj, sortMembers_sortMembers, sortMembers_map,
      List.map_map, List.map_congr_left (f := dumpsMember ∘ _) hentry]

lemma sortMembers_dumps_of_reordered {ms ns ns' : List (Str × Json)} (hkeys : (ms.map Prod.fst).Nodup)
    (hfst : ms.map Prod.fst = ns'.map Prod.fst)
    (hsnd : (ms.map Prod.snd).map Json.dumps = (ns'.map Prod.snd).map Json.dumps) (hperm : ns'.Perm ns) :
    (sortMembers ms).map dumpsMember = (sortMembers ns).map dumpsMember := by
  let entry : Str × Json → Str × Str := fun m => (m.1, m.2.dumps)
  have hentries : ms.map entry = ns'.map entry := by
    have hzip : ∀ ls : List (Str × Json), ls.map entry =
        (ls.map Prod.fst).zip ((ls.map Prod.snd).map Json.dumps) := by
      intro ls
      rw [List.map_map, List.zip_map']
      rfl
    rw [hzip ms, hzip ns', hfst, hsnd]
  have hsorted : ∀ ls : List (Str × Json), (sortMembers ls).map dumpsMember =
      (sortMembers (ls.map entry)).map fun m => dumpsStr m.1 ++ ":".toList ++ m.2 := by
    intro ls
    rw [sortMembers_map, List.map_map]
    rfl
  rw [hsorted ms, hentries, ← hsorted ns', sortMembers_eq_of_perm (hfst ▸ hkeys) hperm]

lemma dumps_of_reordered {a b : Json} (h : a.Reordered b) (ha : a.DistinctKeys) : a.dumps = b.dumps := by
  induction a using Json.induct generalizing b with
  | null | bool | int | float | str =>
    cases h
    rfl
  | arr xs ih =>
    cases h with
    | arr hxy =>
    cases ha with
    | arr hxs =>
      rw [dumps_arr, dumps_arr, map_eq_of_forall₂ hxy fun x hx y hR => ih x hx hR (hxs x hx)]
  | obj ms ih =>
    cases h with
    | obj hfst hsnd hperm =>
    cases ha with
    | obj hkeys hms =>
      have hvalues := map_eq_of_forall₂ (f := Json.dumps) (g := Json.dumps) hsnd fun x hx y hR => by
        obtain ⟨m, hm, rfl⟩ := List.mem_map.mp hx
        exact ih m hm hR (hms m hm)
      rw [dumps_obj, dumps_obj, sortMembers_dumps_of_reordered hkeys hfst hvalues hperm]

def escaped : Str := '"' :: '\\' :: (List.range 0x20).map Char.ofNat

lemma dumpsChar_plain {c : Char} (h : c ∉ escaped) : dumpsChar c = [c] := by
  simp only [escaped, List.mem_cons, List.mem_map, List.mem_range, not_or, not_exists, not_and] at h
  have hlarge : ¬ c.toNat < 0x20 := fun hc => h.2.2 c.toNat hc (Char.ofNat_toNat c)
  have hne : ∀ d : Char, d.toNat < 0x20 → c ≠ d := by
    rintro d hd rfl
    exact hlarge hd
  rw [dumpsChar, if_neg (not_or.mpr ⟨h.1, h.2.1⟩), if_neg (hne _ (by decide)), if_neg (hne _ (by decide)),
    if_neg (hne _ (by decide)), if_neg (hne _ (by decide)), if_neg (hne _ (by decide)), if_neg hlarge]

lemma dumpsChar_escaped {c : Char} (hc : c ∈ escaped) : ∃ rest, dumpsChar c = '\\' :: rest := by
  have hhead : ∀ c ∈ escaped, (dumpsChar c).head? = some '\\' := by decide
  exact List.head?_eq_some_iff.mp (hhead c hc)

lemma dumpsChar_distinct : ∀ c ∈ escaped, ∀ d ∈ escaped, dumpsChar c <+: dumpsChar d → c = d := by decide +kernel

lemma dumpsChar_prefixFree : PrefixFree dumpsChar '"' where
  distinct {c d u v} he := by
    have hmixed : ∀ {c d : Char} {u v : Str}, c ∉ escaped → d ∈ escaped → dumpsChar c ++ u ≠ dumpsChar d ++ v := by
      intro c d u v hc hd he
      obtain ⟨rest, hrest⟩ := dumpsChar_escaped hd
      rw [dumpsChar_plain hc, hrest] at he
      exact hc ((List.cons.inj he).1 ▸ by decide)
    by_cases hc : c ∈ escaped <;> by_cases hd : d ∈ escaped
    · rcases List.prefix_or_prefix_of_prefix (he ▸ List.prefix_append (dumpsChar c) u)
        (List.prefix_append _ _) with h | h
      · exact dumpsChar_distinct c hc d hd h
      · exact (dumpsChar_distinct d hd c hc h).symm
    · exact (hmixed hd hc he.symm).elim
    · exact (hmixed hc hd he).elim
    · rw [dumpsChar_plain hc, dumpsChar_plain hd] at he
      exact (List.cons.inj he).1
  marked c u v he := by
    by_cases hc : c ∈ escaped
    · obtain ⟨rest, hrest⟩ := dumpsChar_escaped hc
      rw [hrest] at he
      exact absurd (List.cons.inj he).1 (by decide)
    · rw [dumpsChar_plain hc] at he
      exact hc ((List.cons.inj he).1 ▸ by decide)

lemma dumpsStr_rigid {s t u v : Str} (he : dumpsStr s ++ u = dumpsStr t ++ v) : s = t ∧ u = v := by
  simp only [dumpsStr, List.cons_append, List.append_assoc, List.cons.injEq, List.nil_append, true_and] at he
  exact dumpsChar_prefixFree.rigid he

def dumpsLetters : Str := "0123456789.+-abcdefghijklmnopqrstuvwxyzNI"

def dumpsLetter (c : Char) : Bool := c ∈ dumpsLetters

def dumpsNumberLetters : Str := "0123456789.+-einfaNIty"

lemma Delimited.head_dumpsLetter {u : Str} (hu : Delimited u) : ∀ c ∈ u.head?, dumpsLetter c = false := by
  have hdelimiters : ∀ d ∈ ",]\x7d".toList, dumpsLetter d = false := by decide
  obtain rfl | ⟨d, hd, u', rfl⟩ := hu
  · simp
  · simpa using hdelimiters d hd

lemma PyFloat.dumps_cases (x : PyFloat) : (x.dumps = x.repr) ∨
    (x.repr = ("nan" : Str) ∧ x.dumps = ("NaN" : Str)) ∨ (x.repr = ("inf" : Str) ∧ x.dumps = ("Infinity" : Str)) ∨
      (x.repr = ("-inf" : Str) ∧ x.dumps = ("-Infinity" : Str)) := by
  rw [PyFloat.dumps]
  split_ifs with hnan hinf hneg
  · exact .inr (.inl ⟨hnan, rfl⟩)
  · exact .inr (.inr (.inl ⟨hinf, rfl⟩))
  · exact .inr (.inr (.inr ⟨hneg, rfl⟩))
  · exact .inl rfl

lemma PyFloat.dumps_letters {x : PyFloat} (hx : x.WellFormed) : x.dumps ⊆ dumpsNumberLetters := by
  have hrepr : "0123456789.+-einfa".toList ⊆ dumpsNumberLetters := by decide
  obtain h | ⟨-, h⟩ | ⟨-, h⟩ | ⟨-, h⟩ := x.dumps_cases <;> rw [h]
  · exact List.Subset.trans hx.chars hrepr
  · decide
  · decide
  · decide

lemma PyFloat.dumps_marked {x : PyFloat} (hx : x.WellFormed) : ∃ c ∈ ".enN".toList, c ∈ x.dumps := by
  have hmarks : ".en".toList ⊆ ".enN".toList := by decide
  obtain h | ⟨-, h⟩ | ⟨-, h⟩ | ⟨-, h⟩ := x.dumps_cases <;> rw [h]
  · obtain ⟨c, hc, hm⟩ := hx.marked
    exact ⟨c, hmarks hc, hm⟩
  · exact ⟨'N', by decide, by decide⟩
  · exact ⟨'n', by decide, by decide⟩
  · exact ⟨'n', by decide, by decide⟩

def reprOfDumps (s : Str) : Str :=
  if s = ("NaN" : Str) then "nan"
  else if s = ("Infinity" : Str) then "inf"
  else if s = ("-Infinity" : Str) then "-inf"
  else s

lemma PyFloat.repr_of_dumps {x : PyFloat} (hx : x.WellFormed) : reprOfDumps x.dumps = x.repr := by
  have hne : ∀ s : Str, ¬ s ⊆ "0123456789.+-einfa".toList → x.repr ≠ s := fun s hs he => hs (he ▸ hx.chars)
  obtain h | ⟨h, hd⟩ | ⟨h, hd⟩ | ⟨h, hd⟩ := x.dumps_cases
  · rw [h, reprOfDumps, if_neg (hne _ (by decide)), if_neg (hne _ (by decide)), if_neg (hne _ (by decide))]
  · rw [h, hd]
    rfl
  · rw [h, hd]
    rfl
  · rw [h, hd]
    rfl

lemma PyFloat.dumps_injective {x y : PyFloat} (hx : x.WellFormed) (hy : y.WellFormed) (h : x.dumps = y.dumps) :
    x = y := by
  have hrepr : x.repr = y.repr := by rw [← PyFloat.repr_of_dumps hx, h, PyFloat.repr_of_dumps hy]
  cases x
  exact congrArg PyFloat.mk hrepr

lemma dumps_number_letters {v : Json} (h : v.IsNumber) (hv : v.Floats PyFloat.WellFormed) :
    v.dumps ⊆ dumpsNumberLetters := by
  have hdigits : "-0123456789".toList ⊆ dumpsNumberLetters := by decide
  cases v with
  | int n => exact List.Subset.trans (decimal_chars n) hdigits
  | float x =>
    cases hv with
    | float hx => exact PyFloat.dumps_letters hx
  | null | bool | str | arr | obj => exact h.elim

lemma dumps_constant_letters {v : Json} (h : v = .null ∨ v = .bool true ∨ v = .bool false) :
    ¬ v.dumps ⊆ dumpsNumberLetters := by
  obtain rfl | rfl | rfl := h <;> decide

lemma decimal_ne_dumps (n : ℤ) {x : PyFloat} (hx : x.WellFormed) : decimal n ≠ x.dumps := by
  intro h
  obtain ⟨c, hc, hm⟩ := PyFloat.dumps_marked hx
  have hdisjoint : ∀ c ∈ ".enN".toList, c ∉ "-0123456789".toList := by decide
  exact hdisjoint c hc (decimal_chars n (h ▸ hm))

lemma dumps_scalar_injective {a b : Json} (ha : a.shape = .scalar) (hb : b.shape = .scalar)
    (hfa : a.Floats PyFloat.WellFormed) (hfb : b.Floats PyFloat.WellFormed) (h : a.dumps = b.dumps) : a = b := by
  rcases scalar_cases ha with hca | hna <;> rcases scalar_cases hb with hcb | hnb
  · obtain rfl | rfl | rfl := hca <;> obtain rfl | rfl | rfl := hcb <;> first | rfl | exact absurd h (by decide)
  · exact (dumps_constant_letters hca (h ▸ dumps_number_letters hnb hfb)).elim
  · exact (dumps_constant_letters hcb (h ▸ dumps_number_letters hna hfa)).elim
  · cases hfa with
    | int n =>
      cases hfb with
      | int m => exact congrArg _ (decimal_injective h)
      | float hy => exact (decimal_ne_dumps n hy h).elim
      | null | bool | str | arr | obj => exact hnb.elim
    | float hx =>
      cases hfb with
      | int m => exact (decimal_ne_dumps m hx h.symm).elim
      | float hy => exact congrArg Json.float (PyFloat.dumps_injective hx hy h)
      | null | bool | str | arr | obj => exact hnb.elim
    | null | bool | str | arr | obj => exact hna.elim

lemma dumps_scalar_letters {v : Json} (h : v.shape = .scalar) (hv : v.Floats PyFloat.WellFormed) :
    ∀ c ∈ v.dumps, dumpsLetter c = true := by
  have hnumbers : ∀ c ∈ dumpsNumberLetters, dumpsLetter c = true := by decide
  rcases scalar_cases h with hc | hn
  · obtain rfl | rfl | rfl := hc <;> decide
  · exact fun c hc => hnumbers c (dumps_number_letters hn hv hc)

def Shape.dumpsLeads : Shape → Str
  | .scalar => dumpsLetters
  | .str => ['"']
  | .arr => ['[']
  | .obj => ['\x7b']

lemma Shape.dumpsLeads_disjoint {k l : Shape} (h : k ≠ l) : ∀ c ∈ k.dumpsLeads, c ∉ l.dumpsLeads := by
  cases k <;> cases l <;> first | exact (h rfl).elim | decide

lemma Shape.dumpsLeads_not_delimiter (k : Shape) : ∀ d ∈ ",]\x7d".toList, d ∉ k.dumpsLeads := by
  cases k <;> decide

lemma dumps_scalar_ne_nil {v : Json} (h : v.shape = .scalar) (hv : v.Floats PyFloat.WellFormed) :
    v.dumps ≠ [] := by
  rcases scalar_cases h with hc | hn
  · obtain rfl | rfl | rfl := hc <;> decide
  · cases hv with
    | int n => exact decimal_ne_nil n
    | float hx =>
      obtain ⟨c, -, hm⟩ := PyFloat.dumps_marked hx
      exact List.ne_nil_of_mem hm
    | null | bool | str | arr | obj => exact hn.elim

lemma dumps_leads {v : Json} (hv : v.Floats PyFloat.WellFormed) :
    ∃ c ∈ v.shape.dumpsLeads, ∃ rest, v.dumps = c :: rest := by
  have hscalar : v.shape = .scalar → ∃ c ∈ v.shape.dumpsLeads, ∃ rest, v.dumps = c :: rest := by
    intro hs
    obtain ⟨c, rest, hc⟩ := List.exists_cons_of_ne_nil (dumps_scalar_ne_nil hs hv)
    have hletter := dumps_scalar_letters hs hv c (hc ▸ List.mem_cons_self)
    exact ⟨c, hs ▸ of_decide_eq_true hletter, rest, hc⟩
  cases v with
  | null | bool | int | float => exact hscalar rfl
  | str s => exact ⟨'"', List.mem_singleton_self _, _, rfl⟩
  | arr xs => exact ⟨'[', List.mem_singleton_self _, _, dumps_arr xs⟩
  | obj ms => exact ⟨'\x7b', List.mem_singleton_self _, _, dumps_obj ms⟩

lemma dumps_shape {a b : Json} (ha : a.Floats PyFloat.WellFormed) (hb : b.Floats PyFloat.WellFormed) {u v : Str}
    (he : a.dumps ++ u = b.dumps ++ v) : a.shape = b.shape := by
  obtain ⟨c, hc, rest, hrest⟩ := dumps_leads ha
  obtain ⟨d, hd, rest', hrest'⟩ := dumps_leads hb
  rw [hrest, hrest', List.cons_append, List.cons_append, List.cons.injEq] at he
  by_contra hne
  exact Shape.dumpsLeads_disjoint hne c hc (he.1 ▸ hd)

lemma dumps_rigid_scalar {a : Json} (hs : a.shape = .scalar) (ha : a.Floats PyFloat.WellFormed) :
    Rigid Delimited Json.dumps Json.Reordered (Json.Floats PyFloat.WellFormed) a := by
  intro b u v hb hu hv he
  have hsb : b.shape = .scalar := (dumps_shape ha hb he).symm.trans hs
  obtain ⟨hw, huv⟩ := word_rigid (dumps_scalar_letters hs ha) (dumps_scalar_letters hsb hb)
    hu.head_dumpsLetter hv.head_dumpsLetter he
  obtain rfl := dumps_scalar_injective hs hsb ha hb hw
  refine ⟨?_, huv⟩
  cases a with
  | null => exact .null
  | bool b => exact .bool b
  | int n => exact .int n
  | float x => exact .float x
  | str | arr | obj => cases hs

lemma dumpsMember_rigid {m : Str × Json}
    (ih : Rigid Delimited Json.dumps Json.Reordered (Json.Floats PyFloat.WellFormed) m.2) :
    Rigid Delimited dumpsMember (fun m n => m.1 = n.1 ∧ m.2.Reordered n.2)
      (fun m => m.2.Floats PyFloat.WellFormed) m := by
  intro n u v hn hu hv he
  simp only [dumpsMember, List.append_assoc] at he
  obtain ⟨hkey, hrest⟩ := dumpsStr_rigid he
  obtain ⟨hvalue, huv⟩ := ih n.2 u v hn hu hv (List.append_cancel_left hrest)
  exact ⟨⟨hkey, hvalue⟩, huv⟩

lemma reordered_of_sorted {ms ns : List (Str × Json)}
    (h : List.Forall₂ (fun m n : Str × Json => m.1 = n.1 ∧ m.2.Reordered n.2) (sortMembers ms) (sortMembers ns)) :
    (Json.obj ms).Reordered (.obj ns) := by
  obtain ⟨ns', hR, hperm⟩ := List.perm_comp_forall₂ (sortMembers_perm ms).symm h
  have hkeys : ms.map Prod.fst = ns'.map Prod.fst := map_eq_of_forall₂ hR fun _ _ _ hmn => hmn.1
  have hvalues : List.Forall₂ Json.Reordered (ms.map Prod.snd) (ns'.map Prod.snd) :=
    List.forall₂_map_left_iff.mpr (List.forall₂_map_right_iff.mpr (hR.imp fun _ _ hmn => hmn.2))
  exact .obj hkeys hvalues (hperm.trans (sortMembers_perm ns))

lemma dumps_rigid (a : Json) (ha : a.Floats PyFloat.WellFormed) :
    Rigid Delimited Json.dumps Json.Reordered (Json.Floats PyFloat.WellFormed) a := by
  induction a using Json.induct with
  | null | bool | int | float => exact dumps_rigid_scalar rfl ha
  | str s =>
    intro b u v hb hu hv he
    have hsb := dumps_shape ha hb he
    cases b with
    | str t =>
      obtain ⟨rfl, huv⟩ := dumpsStr_rigid he
      exact ⟨.str s, huv⟩
    | _ => cases hsb
  | arr xs ih =>
    intro b u v hb hu hv he
    have hsb := dumps_shape ha hb he
    cases b with
    | arr ys =>
      cases ha with
      | arr hxs =>
      cases hb with
      | arr hys =>
        rw [dumps_arr, dumps_arr] at he
        simp only [List.append_assoc, List.append_cancel_left_eq] at he
        have hlead : ∀ x, x ∈ xs ∨ x ∈ ys → ∃ c t, x.dumps = c :: t ∧ c ≠ ']' := by
          intro x hx
          obtain ⟨c, hc, t, ht⟩ := dumps_leads (hx.elim (hxs x) (hys x))
          exact ⟨c, t, ht, fun he => Shape.dumpsLeads_not_delimiter _ ']' (by decide) (he ▸ hc)⟩
        obtain ⟨hR, huv⟩ := join_rigid rfl (.inl rfl) (fun x hx => ih x hx (hxs x hx)) hys hlead he
        exact ⟨.arr hR, huv⟩
    | _ => cases hsb
  | obj ms ih =>
    intro b u v hb hu hv he
    have hsb := dumps_shape ha hb he
    cases b with
    | obj ns =>
      cases ha with
      | obj hms =>
      cases hb with
      | obj hns =>
        rw [dumps_obj, dumps_obj] at he
        simp only [List.append_assoc, List.append_cancel_left_eq] at he
        have hlead : ∀ m, m ∈ sortMembers ms ∨ m ∈ sortMembers ns → ∃ c t, dumpsMember m = c :: t ∧ c ≠ '\x7d' :=
          fun m _ => ⟨'"', _, rfl, by decide⟩
        have hms' : ∀ m ∈ sortMembers ms, m ∈ ms := fun m hm => (sortMembers_perm ms).subset hm
        have hns' : ∀ m ∈ sortMembers ns, m ∈ ns := fun m hm => (sortMembers_perm ns).subset hm
        obtain ⟨hR, huv⟩ := join_rigid rfl (.inr rfl)
          (fun m hm => dumpsMember_rigid (ih m (hms' m hm) (hms m (hms' m hm))))
          (fun m hm => hns m (hns' m hm)) hlead he
        exact ⟨reordered_of_sorted hR, huv⟩
    | _ => cases hsb

lemma dumps_eq_iff {a b : Json} (hka : a.DistinctKeys) (ha : a.Floats PyFloat.WellFormed)
    (hb : b.Floats PyFloat.WellFormed) : a.dumps = b.dumps ↔ a.Reordered b := by
  refine ⟨fun he => ?_, fun h => dumps_of_reordered h hka⟩
  exact (dumps_rigid a ha b [] [] hb (.inl rfl) (.inl rfl) (by rw [he])).1

lemma encodeUtf8_injective : Function.Injective encodeUtf8 := by
  intro s t h
  have hbytes : (String.ofList s).toUTF8.data.toList = (String.ofList t).toUTF8.data.toList :=
    List.map_injective_iff.mpr (fun _ _ => UInt8.toBitVec_inj.mp) h
  have hutf8 : (String.ofList s).toUTF8 = (String.ofList t).toUTF8 := ByteArray.ext (Array.toList_inj.mp hbytes)
  exact String.ofList_injective (String.toByteArray_inj.mp hutf8)

lemma hex_byte : ∀ b : Sha256.Byte, hex 2 b.toNat = [(b.toNat / 16).digitChar, (b.toNat % 16).digitChar] := by
  decide

lemma hex_byte_injective {b c : Sha256.Byte} (h : hex 2 b.toNat = hex 2 c.toNat) : b = c := by
  have hdigit : ∀ m < 16, ∀ n < 16, m.digitChar = n.digitChar → m = n := by decide
  rw [hex_byte, hex_byte, List.cons.injEq, List.cons.injEq] at h
  have hhigh := hdigit _ (by omega) _ (by omega) h.1
  have hlow := hdigit _ (Nat.mod_lt _ (by decide)) _ (Nat.mod_lt _ (by decide)) h.2.1
  exact BitVec.eq_of_toNat_eq (by omega)

lemma hexdigest_injective : Function.Injective hexdigest := by
  intro s
  induction s with
  | nil =>
    intro t h
    cases t with
    | nil => rfl
    | cons c t => simp [hexdigest, hex_byte] at h
  | cons b s ih =>
    intro t h
    cases t with
    | nil => simp [hexdigest, hex_byte] at h
    | cons c t =>
      simp only [hexdigest, List.flatMap_cons] at h
      obtain ⟨hbyte, hrest⟩ := List.append_inj h (by simp [hex_byte])
      rw [hex_byte_injective hbyte, ih hrest]

theorem requestHash_eq_iff {a b : Json} (hka : a.DistinctKeys) (ha : a.Floats PyFloat.WellFormed)
    (hb : b.Floats PyFloat.WellFormed) :
    (hashedBytes a = hashedBytes b ↔ a.Reordered b) ∧
      ((Sha256.digest (hashedBytes a) = Sha256.digest (hashedBytes b) → hashedBytes a = hashedBytes b) →
        (requestHash a = requestHash b ↔ a.Reordered b)) := by
  have hbytes : hashedBytes a = hashedBytes b ↔ a.Reordered b := by
    rw [hashedBytes, hashedBytes, encodeUtf8_injective.eq_iff, dumps_canonicalize, dumps_canonicalize,
      dumps_eq_iff hka ha hb]
  refine ⟨hbytes, fun hcollision => ?_⟩
  rw [← hbytes, requestHash, requestHash, hexdigest_injective.eq_iff]
  exact ⟨hcollision, congrArg Sha256.digest⟩

def asking (content : Str) : Json := .obj [("content", .str content), ("temperature", .float ⟨"0.0"⟩)]

def askingBackwards (content : Str) : Json := .obj [("temperature", .float ⟨"0.0"⟩), ("content", .str content)]

lemma asking_distinctKeys (content : Str) : (asking content).DistinctKeys := by
  refine .obj (show ["content".toList, "temperature".toList].Nodup by decide) ?_
  simp only [List.forall_mem_cons]
  exact ⟨.str _, .float _, by simp⟩

lemma asking_floats (content : Str) :
    (asking content).Floats PyFloat.WellFormed ∧ (askingBackwards content).Floats PyFloat.WellFormed := by
  have hzero : (Json.float ⟨"0.0"⟩).Floats PyFloat.WellFormed := .float ⟨by decide, '.', by decide, by decide⟩
  constructor <;> refine .obj ?_ <;> simp only [List.forall_mem_cons]
  · exact ⟨.str _, hzero, by simp⟩
  · exact ⟨hzero, .str _, by simp⟩

theorem requestHash_asking : requestHash (asking "hi") = requestHash (askingBackwards "hi") ∧
    requestHash (asking "hi") ≠ requestHash (asking "hello") := by
  have hhi := asking_floats "hi"
  have hhello := asking_floats "hello"
  have hsame := requestHash_eq_iff (asking_distinctKeys "hi") hhi.1 hhi.2
  have hother := requestHash_eq_iff (asking_distinctKeys "hi") hhi.1 hhello.1
  have hbytes : hashedBytes (asking "hi") = hashedBytes (askingBackwards "hi") := by decide +kernel
  have hdigest : Sha256.digest (hashedBytes (asking "hi")) ≠ Sha256.digest (hashedBytes (asking "hello")) :=
    by decide +kernel
  refine ⟨(hsame.2 fun _ => hbytes).mpr (hsame.1.mp hbytes), fun h => ?_⟩
  have hreordered := (hother.2 fun he => (hdigest he).elim).mp h
  exact hdigest (congrArg Sha256.digest (hother.1.mpr hreordered))

end ShadowProxy

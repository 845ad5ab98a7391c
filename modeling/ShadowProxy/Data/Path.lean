import Mathlib.Data.List.Induction
import Mathlib.Data.List.TakeWhile

/-! Slash-separated paths. -/

namespace ShadowProxy.Data.Path

abbrev Segment := List Char

def segments : List Char → List Segment
  | [] => [[]]
  | c :: p =>
    if c = '/' then [] :: segments p
    else match segments p with
      | [] => [[c]]
      | s :: ss => (c :: s) :: ss

def afterLast (p : List Char) : Segment := (p.reverse.takeWhile (· ≠ '/')).reverse

def removeSuffix (suffix p : List Char) : List Char :=
  if suffix.isSuffixOf p then p.take (p.length - suffix.length) else p

def descend (dir : List Segment) (segment : Segment) : List Segment :=
  if segment = [] ∨ segment = ['.'] then dir
  else if segment = ['.', '.'] then dir.dropLast
  else dir ++ [segment]

def resolve (dir : List Segment) (segs : List Segment) : List Segment := segs.foldl descend dir

/-- What a relative path comes to: how far it climbs, and the names it then goes down. -/
def walk (segs : List Segment) : ℕ × List Segment :=
  segs.foldl (fun w segment =>
    if segment = [] ∨ segment = ['.'] then w
    else if segment = ['.', '.'] then if w.2 = [] then (w.1 + 1, []) else (w.1, w.2.dropLast)
    else (w.1, w.2 ++ [segment])) (0, [])

def Proper (segment : Segment) : Prop := segment ≠ [] ∧ segment ≠ ['.'] ∧ segment ≠ ['.', '.']

lemma segments_of_notMem {p : List Char} (h : '/' ∉ p) : segments p = [p] := by
  induction p with
  | nil => rfl
  | cons c p ih =>
    simp only [List.mem_cons, not_or] at h
    simp [segments, Ne.symm h.1, ih h.2]

lemma segments_append_slash {a : List Char} (h : '/' ∉ a) (b : List Char) :
    segments (a ++ '/' :: b) = a :: segments b := by
  induction a with
  | nil => simp [segments]
  | cons c a ih =>
    simp only [List.mem_cons, not_or] at h
    simp [segments, Ne.symm h.1, ih h.2]

lemma afterLast_of_notMem {p : List Char} (h : '/' ∉ p) : afterLast p = p := by
  rw [afterLast, List.takeWhile_eq_self_iff.mpr, List.reverse_reverse]
  intro c hc
  have hne : c ≠ '/' := fun he => h (he ▸ List.mem_reverse.mp hc)
  simpa using hne

lemma afterLast_append_slash (a b : List Char) : afterLast (a ++ '/' :: b) = afterLast b := by
  simp only [afterLast, List.reverse_append, List.reverse_cons, List.append_assoc, List.reverse_inj]
  induction b.reverse with
  | nil => simp
  | cons c r ih =>
    by_cases hc : c = '/'
    · simp [hc]
    · simpa [hc] using ih

lemma afterLast_append (p : List Char) {s : Segment} (h : '/' ∉ s) : afterLast (p ++ s) = afterLast p ++ s := by
  have hs : ∀ c ∈ s.reverse, decide (c ≠ '/') = true := fun c hc => by
    have hne : c ≠ '/' := fun he => h (he ▸ List.mem_reverse.mp hc)
    simpa using hne
  simp only [afterLast, List.reverse_append]
  rw [List.takeWhile_append_of_pos hs]
  simp

@[simp] lemma removeSuffix_append (s p : List Char) : removeSuffix s (p ++ s) = p := by
  simp [removeSuffix]

@[simp] lemma resolve_nil (dir : List Segment) : resolve dir [] = dir := rfl

lemma descend_proper {s : Segment} (h : Proper s) (dir : List Segment) : descend dir s = dir ++ [s] := by
  simp [descend, h.1, h.2.1, h.2.2]

lemma resolve_proper {segs : List Segment} (h : ∀ s ∈ segs, Proper s) (dir : List Segment) :
    resolve dir segs = dir ++ segs := by
  induction segs generalizing dir with
  | nil => simp
  | cons s ss ih =>
    have hs := ih (fun s' hs' => h s' (List.mem_cons_of_mem _ hs')) (descend dir s)
    simp only [resolve, List.foldl_cons] at hs ⊢
    rw [hs, descend_proper (h s List.mem_cons_self)]
    simp

lemma walk_concat (segs : List Segment) (s : Segment) : walk (segs ++ [s]) =
    if s = [] ∨ s = ['.'] then walk segs
    else if s = ['.', '.'] then
      if (walk segs).2 = [] then ((walk segs).1 + 1, []) else ((walk segs).1, (walk segs).2.dropLast)
    else ((walk segs).1, (walk segs).2 ++ [s]) := by
  rw [walk, List.foldl_append]
  rfl

lemma resolve_walk (dir segs : List Segment) :
    resolve dir segs = dir.take (dir.length - (walk segs).1) ++ (walk segs).2 := by
  induction segs using List.reverseRecOn with
  | nil => simp [walk]
  | append_singleton segs s ih =>
    have hstep : resolve dir (segs ++ [s]) = descend (resolve dir segs) s := by simp [resolve]
    rw [hstep, ih, walk_concat, descend]
    split_ifs with hstay hup hnames
    · rfl
    · have htake : dir.take (dir.length - ((walk segs).1 + 1)) =
          (dir.take (dir.length - (walk segs).1)).dropLast := by
        rw [List.dropLast_eq_take, List.take_take, List.length_take]
        congr 1
        omega
      rw [hnames, List.append_nil, List.append_nil, htake]
    · rw [List.dropLast_append_of_ne_nil hnames]
    · rw [List.append_assoc]

end ShadowProxy.Data.Path

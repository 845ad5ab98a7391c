import ShadowProxy.Data.Path

/-! Slash-separated paths as roots and names. -/

namespace ShadowProxy.Data

structure PurePath where
  root : List Char
  parts : List Path.Segment
  deriving DecidableEq

namespace PurePath

def rootOf : List Char → List Char
  | '/' :: '/' :: '/' :: _ => ['/']
  | '/' :: '/' :: _ => ['/', '/']
  | '/' :: _ => ['/']
  | _ => []

def parse (s : List Char) : PurePath := ⟨rootOf s, (Path.segments s).filter fun x => x ≠ [] ∧ x ≠ ['.']⟩

def isAbsolute (p : PurePath) : Bool := p.root ≠ []

def join (p q : PurePath) : PurePath := if q.isAbsolute then q else ⟨p.root, p.parts ++ q.parts⟩

def child (p : PurePath) (name : Path.Segment) : PurePath := ⟨p.root, p.parts ++ [name]⟩

def parent (p : PurePath) : PurePath := ⟨p.root, p.parts.dropLast⟩

def parents (p : PurePath) : List PurePath := p.parts.inits.reverse.tail.map fun parts => ⟨p.root, parts⟩

def joinParts : List Path.Segment → List Char
  | [] => []
  | [s] => s
  | s :: s' :: ss => s ++ '/' :: joinParts (s' :: ss)

def str (p : PurePath) : List Char := if p.root = [] ∧ p.parts = [] then ['.'] else p.root ++ joinParts p.parts

@[simp] lemma parent_child (p : PurePath) (name : Path.Segment) : (p.child name).parent = p := by
  simp [parent, child]

lemma isAbsolute_of_mem_parents {p q : PurePath} (hq : q ∈ p.parents) (hp : p.isAbsolute = true) :
    q.isAbsolute = true := by
  obtain ⟨parts, -, rfl⟩ := List.mem_map.mp hq
  exact hp

lemma isAbsolute_join {p : PurePath} (hp : p.isAbsolute = true) (q : PurePath) : (p.join q).isAbsolute = true := by
  rw [join]
  split
  · assumption
  · exact hp

lemma join_of_isAbsolute (p : PurePath) {q : PurePath} (hq : q.isAbsolute = true) : p.join q = q := if_pos hq

end PurePath

end ShadowProxy.Data

import ShadowProxy.Scenario

/-! Where the payload of a request is written. -/

namespace ShadowProxy

open Data Path

def dayDir (root : List Str) (t : DateTime) : List Str :=
  root ++ ["raw".toList, pad4 t.year, pad2 t.month, pad2 t.day]

def fileWalk (requestId : Str) : ℕ × List Str := walk (segments (requestId ++ keySuffix))

/-- The id climbs out of no directory that it does not enter again. -/
def StaysIn (day : List Str) (requestId : Str) : Prop :=
  day.drop (day.length - (fileWalk requestId).1) <+: (fileWalk requestId).2

def below (day : List Str) (requestId : Str) : List Str :=
  (fileWalk requestId).2.drop (day.length - (day.length - (fileWalk requestId).1))

instance (day : List Str) (requestId : Str) : Decidable (StaysIn day requestId) :=
  inferInstanceAs (Decidable (List.IsPrefix _ _))

variable {root : List Str} {t t' : DateTime}

lemma locate_filesystem (root : List Str) (t : DateTime) (id : Str) :
    (RawBackend.filesystem root).locate (keyFor t id) = resolve (dayDir root t) (segments (id ++ keySuffix)) := by
  have hkey : keyFor t id = "raw".toList ++ '/' :: (pad4 t.year ++ '/' :: (pad2 t.month ++
      '/' :: (pad2 t.day ++ '/' :: (id ++ keySuffix)))) := by
    simp [keyFor, DateTime.datePath]
  have hproper : ∀ s ∈ ["raw".toList, pad4 t.year, pad2 t.month, pad2 t.day], Proper s := by
    simp only [List.forall_mem_cons, List.not_mem_nil, false_implies, implies_true, and_true]
    refine ⟨proper_raw, ?_, ?_, ?_⟩
    · simp [Proper, pad4]
    · simp [Proper, pad2, digit_ne_dot]
    · simp [Proper, pad2, digit_ne_dot]
  rw [RawBackend.locate, hkey, segments_append_slash (by decide), segments_append_slash (by simp),
    segments_append_slash (by simp), segments_append_slash (by simp), dayDir, ← resolve_proper hproper root]
  rfl

lemma locate_walk (root : List Str) (t : DateTime) (id : Str) : (RawBackend.filesystem root).locate (keyFor t id) =
    (dayDir root t).take ((dayDir root t).length - (fileWalk id).1) ++ (fileWalk id).2 := by
  rw [locate_filesystem, resolve_walk, fileWalk]

lemma inside_iff {id : Str} :
    dayDir root t <+: (RawBackend.filesystem root).locate (keyFor t id) ↔ StaysIn (dayDir root t) id := by
  let k := (dayDir root t).length - (fileWalk id).1
  have happ : (dayDir root t).take k ++ (dayDir root t).drop k <+: (dayDir root t).take k ++ (fileWalk id).2 ↔
    (dayDir root t).drop k <+: (fileWalk id).2 := List.prefix_append_right_inj _
  rw [List.take_append_drop] at happ
  rw [locate_walk, StaysIn, happ]

lemma locate_below {id : Str} (h : StaysIn (dayDir root t) id) :
    (RawBackend.filesystem root).locate (keyFor t id) = dayDir root t ++ below (dayDir root t) id := by
  obtain ⟨rest, hrest⟩ := h
  have hbelow : below (dayDir root t) id = rest := by
    rw [below, ← hrest, List.drop_append_of_le_length (by rw [List.length_drop])]
    simp
  rw [locate_walk, ← hrest, hbelow, ← List.append_assoc, List.take_append_drop]

structure KeysSafe (root : List Str) (t t' : DateTime) (id id' : Str) : Prop where
  inside : dayDir root t <+: (RawBackend.filesystem root).locate (keyFor t id)
  inside' : dayDir root t' <+: (RawBackend.filesystem root).locate (keyFor t' id')
  distinct : id ≠ id' → (RawBackend.filesystem root).locate (keyFor t id) ≠
    (RawBackend.filesystem root).locate (keyFor t' id')

lemma keysSafe_plain {id id' : Str} (h : PlainId id) (h' : PlainId id') : KeysSafe root t t' id id' := by
  have hinside : ∀ {t id}, PlainId id → dayDir root t <+: (RawBackend.filesystem root).locate (keyFor t id) :=
    fun {t id} h =>
    ⟨[id ++ keySuffix], by simp [locate_filesystem_plain root t h, dayDir]⟩
  exact ⟨hinside h, hinside h', fun hne he => hne ((locate_plain_inj _ h h').mp he).2⟩

theorem keysSafe_iff (hday : t.date = t'.date) (id id' : Str) : KeysSafe root t t' id id' ↔
    StaysIn (dayDir root t) id ∧ StaysIn (dayDir root t) id' ∧
      (id ≠ id' → below (dayDir root t) id ≠ below (dayDir root t) id') := by
  have hdir : dayDir root t' = dayDir root t := by
    simp only [DateTime.date, Prod.mk.injEq] at hday
    simp [dayDir, hday]
  constructor
  · rintro ⟨hi, hi', hd⟩
    have hs := inside_iff.mp hi
    have hs' := inside_iff.mp hi'
    refine ⟨hs, hdir ▸ hs', fun hne he => hd hne ?_⟩
    rw [locate_below hs, locate_below hs', hdir, he]
  · rintro ⟨hs, hs', hd⟩
    rw [← hdir] at hs'
    refine ⟨inside_iff.mpr hs, inside_iff.mpr hs', fun hne he => hd hne ?_⟩
    rw [locate_below hs, locate_below hs', hdir] at he
    exact List.append_cancel_left he

/-- The first of the ids climbs out of the archive, and the last two name one file. -/
theorem keys_unsafe : ¬ KeysSafe ["srv".toList] morning morning "../../../../x" "x" ∧
    ¬ KeysSafe ["srv".toList] morning morning "./x" "x" := by
  constructor
  · intro h
    exact absurd (inside_iff.mp h.inside) (by decide)
  · intro h
    exact h.distinct (by decide) (by decide)

theorem keysSafe_iff_morning : KeysSafe ["srv".toList] morning anHourLater "team/a" "team/./b" ∧
    ¬ KeysSafe ["srv".toList] morning anHourLater "team/a" "team/../team/a" := by
  constructor
  · exact (keysSafe_iff (by decide) "team/a" "team/./b").mpr (by decide)
  · exact fun h => absurd ((keysSafe_iff (by decide) "team/a" "team/../team/a").mp h) (by decide)

end ShadowProxy

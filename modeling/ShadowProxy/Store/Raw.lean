import ShadowProxy.Clock
import ShadowProxy.Data.Path

/-! Keys of the raw payload store and the objects they name. -/

namespace ShadowProxy

open Data

def keySuffix : Str := ".json.gz"

def keyFor (now : DateTime) (requestId : Str) : Str :=
  "raw/".toList ++ now.datePath ++ '/' :: (requestId ++ keySuffix)

/-- `object_key.rsplit("/", 1)[-1].removesuffix(".json.gz")` -/
def requestIdOfKey (objectKey : Str) : Str := Path.removeSuffix keySuffix (Path.afterLast objectKey)

/-- `root` holds the directories above the archive. -/
inductive RawBackend where
  | filesystem (root : List Str)
  | spaces
  deriving DecidableEq

abbrev Location := List Str

/-- The file a key opens below the root, or the bucket's key itself. -/
def RawBackend.locate : RawBackend → Str → Location
  | .filesystem root, key => Path.resolve root (Path.segments key)
  | .spaces, key => [key]

/-- A torn object is one whose bytes no longer decode. -/
inductive RawObject where
  | payload (doc : Json)
  | torn
  deriving DecidableEq

def RawObject.ofPut (payload : Json) : Except Exn Str → Option RawObject
  | .ok _ | .error (.rawStore .written) => some (.payload payload)
  | .error (.rawStore .torn) => some .torn
  | .error _ => none

def PlainId (requestId : Str) : Prop := '/' ∉ requestId

instance (requestId : Str) : Decidable (PlainId requestId) := inferInstanceAs (Decidable (¬ _))

lemma slash_notMem_keySuffix : '/' ∉ keySuffix := by decide

lemma keyFor_inj {t t' : DateTime} {id id' : Str} :
    keyFor t id = keyFor t' id' ↔ t.date = t'.date ∧ id = id' := by
  constructor
  · intro h
    simp only [keyFor, DateTime.datePath, List.append_assoc] at h
    have h₁ := List.append_cancel_left h
    have hy := List.append_inj h₁ (by simp [pad4])
    have hm := List.append_inj (List.append_cancel_left hy.2) (by simp [pad2])
    have hd := List.append_inj (List.append_cancel_left hm.2) (by simp [pad2])
    have hid := List.append_cancel_right (List.cons.inj hd.2).2
    refine ⟨?_, hid⟩
    have hy' := pad4_inj (by have := t.year_mem; omega) (by have := t'.year_mem; omega) hy.1
    have hm' := pad2_inj (by have := t.month_mem; omega) (by have := t'.month_mem; omega) hm.1
    have hd' := pad2_inj (by have := t.day_mem; omega) (by have := t'.day_mem; omega) hd.1
    simp [DateTime.date, hy', hm', hd']
  · rintro ⟨h, rfl⟩
    simp only [DateTime.date, Prod.mk.injEq] at h
    simp [keyFor, DateTime.datePath, h]

@[simp] lemma requestIdOfKey_keyFor (t : DateTime) (id : Str) :
    requestIdOfKey (keyFor t id) = Path.afterLast id := by
  rw [requestIdOfKey, keyFor, Path.afterLast_append_slash,
    Path.afterLast_append _ slash_notMem_keySuffix, Path.removeSuffix_append]

lemma requestIdOfKey_plain (t : DateTime) {id : Str} (h : PlainId id) :
    requestIdOfKey (keyFor t id) = id := by
  rw [requestIdOfKey_keyFor, Path.afterLast_of_notMem h]

lemma digit_ne_dot (n : ℕ) : digit n ≠ '.' := by
  have h : ∀ d < 10, Char.ofNat (48 + d) ≠ '.' := by decide
  exact h _ (Nat.mod_lt n (by decide))

lemma proper_raw : Path.Proper "raw".toList := ⟨by decide, by decide, by decide⟩

lemma proper_append_keySuffix (id : Str) : Path.Proper (id ++ keySuffix) := by
  have hl : 8 ≤ (id ++ keySuffix).length := by
    rw [List.length_append]
    exact Nat.le_add_left 8 _
  refine ⟨?_, ?_, ?_⟩ <;> intro he <;> rw [he] at hl <;> simp at hl

lemma locate_filesystem_plain (root : List Str) (t : DateTime) {id : Str} (h : PlainId id) :
    (RawBackend.filesystem root).locate (keyFor t id) =
      root ++ ["raw".toList, pad4 t.year, pad2 t.month, pad2 t.day, id ++ keySuffix] := by
  have hid : '/' ∉ id ++ keySuffix := by
    rw [List.mem_append, not_or]
    exact ⟨h, slash_notMem_keySuffix⟩
  have hkey : keyFor t id = "raw".toList ++ '/' :: (pad4 t.year ++ '/' :: (pad2 t.month ++
      '/' :: (pad2 t.day ++ '/' :: (id ++ keySuffix)))) := by
    simp [keyFor, DateTime.datePath]
  rw [RawBackend.locate, hkey, Path.segments_append_slash (by decide), Path.segments_append_slash (by simp),
    Path.segments_append_slash (by simp), Path.segments_append_slash (by simp), Path.segments_of_notMem hid]
  refine Path.resolve_proper (fun s hs => ?_) root
  simp only [List.mem_cons, List.not_mem_nil, or_false] at hs
  rcases hs with hs | hs | hs | hs | hs <;> rw [hs]
  · exact proper_raw
  · simp [Path.Proper, pad4]
  · simp [Path.Proper, pad2, digit_ne_dot]
  · simp [Path.Proper, pad2, digit_ne_dot]
  · exact proper_append_keySuffix id

lemma locate_plain_inj (backend : RawBackend) {t t' : DateTime} {id id' : Str} (h : PlainId id)
    (h' : PlainId id') : backend.locate (keyFor t id) = backend.locate (keyFor t' id') ↔
      t.date = t'.date ∧ id = id' := by
  cases backend with
  | spaces => simp [RawBackend.locate, keyFor_inj]
  | filesystem root =>
    constructor
    · intro he
      rw [locate_filesystem_plain root t h, locate_filesystem_plain root t' h'] at he
      have hs := List.append_cancel_left he
      simp only [List.cons.injEq, and_true, true_and] at hs
      obtain ⟨hy, hm, hd, hid⟩ := hs
      refine ⟨?_, List.append_cancel_right hid⟩
      have hy' := pad4_inj (by have := t.year_mem; omega) (by have := t'.year_mem; omega) hy
      have hm' := pad2_inj (by have := t.month_mem; omega) (by have := t'.month_mem; omega) hm
      have hd' := pad2_inj (by have := t.day_mem; omega) (by have := t'.day_mem; omega) hd
      simp [DateTime.date, hy', hm', hd']
    · rintro ⟨hd, rfl⟩
      rw [keyFor_inj.mpr ⟨hd, rfl⟩]

end ShadowProxy

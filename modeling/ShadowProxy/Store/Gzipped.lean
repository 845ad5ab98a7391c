import ShadowProxy.Store.Files
import ShadowProxy.Store.RoundTrip

/-! The filesystem store over the real `json`, and any `gzip`. -/

namespace ShadowProxy

open Data.JsonText (Limits)

structure Gzip where
  stream : List Bytes → Bytes
  trailer : List Bytes → Bytes
  gunzip : Bytes → Except Exn Bytes
  gunzip_closed : ∀ chunks, gunzip (stream chunks ++ trailer chunks) = .ok chunks.flatten
  gunzip_unclosed : ∀ {chunks text}, gunzip (stream chunks) = .ok text → text = []

/-- `text.encode("utf-8")` -/
def encodeText (s : Str) : Bytes := (String.ofList s).toUTF8.data.toList

/-- `text.decode("utf-8")` -/
def decodeText (bs : Bytes) : Option Str := (ByteArray.mk bs.toArray).utf8Decode?.map Array.toList

section Text

variable {s t : Str} {bs : Bytes}

lemma toUTF8_ofList (s : Str) : (String.ofList s).toUTF8 = s.utf8Encode := String.toByteArray_ofList

lemma mk_encodeText (s : Str) : ByteArray.mk (encodeText s).toArray = s.utf8Encode := by
  rw [encodeText, Array.toArray_toList, ← toUTF8_ofList]

lemma decodeText_encodeText (s : Str) : decodeText (encodeText s) = some s := by
  rw [decodeText, mk_encodeText, List.utf8Decode?_utf8Encode]
  rfl

lemma encodeText_of_decodeText (h : decodeText bs = some s) : encodeText s = bs := by
  rw [decodeText] at h
  obtain ⟨cs, hcs, rfl⟩ := Option.map_eq_some_iff.mp h
  have henc := ByteArray.utf8Encode_get_utf8Decode? (b := ByteArray.mk bs.toArray) (h := by simp [hcs])
  simp only [hcs, Option.get_some] at henc
  rw [encodeText, toUTF8_ofList, henc]

lemma encodeText_isPrefixOf (h : encodeText s <+: encodeText t) : s <+: t := by
  obtain ⟨q, hq⟩ := h
  apply List.isPrefix_of_utf8Encode_append_eq_utf8Encode (ByteArray.mk q.toArray)
  apply ByteArray.ext
  apply Array.toList_inj.mp
  simpa [encodeText, toUTF8_ofList] using hq

end Text

section Documents

variable (readFloat : Str → PyFloat) (lim : Limits)

/-- The exceptions of `json.loads`. A value with a lone surrogate in a string, which is no error of Python's, is
left out. -/
def loadsText (s : Str) : Except Exn Json :=
  match Json.loads readFloat lim s with
  | .ok (some v) => .ok v
  | .ok none => .error .valueError
  | .error (.decode msg _) => .error (.jsonDecodeError msg)
  | .error .recursion => .error .recursionError
  | .error .digits => .error .valueError

def loadsBytes (bs : Bytes) : Except Exn Json :=
  match decodeText bs with
  | none => .error .valueError
  | some s => loadsText readFloat lim s

def dumpsBytes (doc : Json) : Except Exn Bytes :=
  if doc.isPython readFloat then
    match doc.dumpsWith archiveStyle lim with
    | some text => .ok (encodeText text)
    | none => .error (if lim.depth < doc.depth then .recursionError else .valueError)
  else .error .typeError

variable {readFloat} {lim} {doc : Json} {s : Str} {text : Bytes}

lemma loadsText_ok : loadsText readFloat lim s = .ok doc ↔ Json.loads readFloat lim s = .ok (some doc) := by
  rw [loadsText]
  cases Json.loads readFloat lim s with
  | ok v => cases v <;> simp
  | error e => cases e <;> simp

lemma loadsText_nil : loadsText readFloat lim [] ≠ .ok doc := by
  rw [Ne, loadsText_ok, Json.loads, Data.JsonText.decode_eq_iff]
  rintro ⟨w, t, w', -, ht, -, he⟩
  obtain ⟨c, -, t, rfl⟩ := (Data.JsonText.scanOnce_reads _ lim lim.depth).lead ht
  simp at he

lemma dumpsBytes_ok (h : dumpsBytes readFloat lim doc = .ok text) :
    doc.isPython readFloat = true ∧ doc.Within lim ∧ text = encodeText (doc.encode archiveStyle) := by
  by_cases hpython : doc.isPython readFloat = true
  · by_cases hv : doc.Within lim
    · rw [dumpsBytes, if_pos hpython, Json.dumpsWith, if_pos hv] at h
      exact ⟨hpython, hv, (Except.ok.inj h).symm⟩
    · rw [dumpsBytes, if_pos hpython, Json.dumpsWith, if_neg hv] at h
      cases h
  · rw [dumpsBytes, if_neg hpython] at h
    cases h

lemma loadsBytes_dumpsBytes (h : dumpsBytes readFloat lim doc = .ok text) :
    loadsBytes readFloat lim text = .ok doc := by
  obtain ⟨hpython, hv, rfl⟩ := dumpsBytes_ok h
  rw [loadsBytes, decodeText_encodeText]
  exact loadsText_ok.mpr (loads_encode archiveStyle_separates hpython hv)

lemma loadsBytes_truncated {ms : List (Str × Json)} {p : Bytes} (h : dumpsBytes readFloat lim (.obj ms) = .ok text)
    (hp : p <+: text) (hne : p ≠ text) : loadsBytes readFloat lim p ≠ .ok doc := by
  obtain ⟨hpython, hv, rfl⟩ := dumpsBytes_ok h
  intro hdoc
  rw [loadsBytes] at hdoc
  cases hs : decodeText p with
  | none => simp [hs] at hdoc
  | some s =>
    simp only [hs] at hdoc
    obtain rfl := encodeText_of_decodeText hs
    have hdenotes := encode_denotes archiveStyle_separates _ hv.2 hpython hv.1
    have hcut := Data.JsonText.decode_cut hdenotes (.inr rfl) (encodeText_isPrefixOf hp) (loadsText_ok.mp hdoc)
    exact hne (congrArg encodeText hcut)

lemma loadsBytes_nil : loadsBytes readFloat lim [] ≠ .ok doc := loadsText_nil

end Documents

/-- The store's codec, with nothing left to assume of `json`. -/
def Gzip.codec (gz : Gzip) (readFloat : Str → PyFloat) (lim : Limits) : Codec where
  dumps := dumpsBytes readFloat lim
  loads := loadsBytes readFloat lim
  stream := gz.stream
  trailer := gz.trailer
  gunzip := gz.gunzip
  loads_dumps := loadsBytes_dumpsBytes
  loads_truncated := loadsBytes_truncated
  loads_nil := loadsBytes_nil
  gunzip_closed := gz.gunzip_closed
  gunzip_unclosed := gz.gunzip_unclosed

end ShadowProxy

import Mathlib.Data.List.Infix
import ShadowProxy.Store.Raw

/-! The filesystem store, byte by byte. -/

namespace ShadowProxy

abbrev Bytes := List UInt8

/-- What the store uses of `json` and `gzip`: a file grows with every chunk written to it and gets its
trailer when it is closed. -/
structure Codec where
  dumps : Json → Except Exn Bytes
  loads : Bytes → Except Exn Json
  stream : List Bytes → Bytes
  trailer : List Bytes → Bytes
  gunzip : Bytes → Except Exn Bytes
  loads_dumps : ∀ {doc text}, dumps doc = .ok text → loads text = .ok doc
  loads_truncated : ∀ {ms text p doc}, dumps (.obj ms) = .ok text → p <+: text → p ≠ text → loads p ≠ .ok doc
  loads_nil : ∀ {doc}, loads [] ≠ .ok doc
  gunzip_closed : ∀ chunks, gunzip (stream chunks ++ trailer chunks) = .ok chunks.flatten
  gunzip_unclosed : ∀ {chunks text}, gunzip (stream chunks) = .ok text → text = []

structure TargetFile where
  content : Option Bytes
  writing : Option (List Bytes) := none

inductive PutStep where
  | encode
  | truncateOpen
  | write (chunk : Bytes)
  | close

/-- How far a put got, and whether the `with` block still closed the file. -/
structure Interruption where
  completed : ℕ
  unwinds : Bool

def putSteps (chunks : List Bytes) : List PutStep := .encode :: .truncateOpen :: (chunks.map .write ++ [.close])

namespace Codec

variable (codec : Codec)

def closed (chunks : List Bytes) : Bytes := codec.stream chunks ++ codec.trailer chunks

def step (file : TargetFile) : PutStep → TargetFile
  | .encode => file
  | .truncateOpen => ⟨some (codec.stream []), some []⟩
  | .write chunk =>
    match file.writing with
    | some chunks => ⟨some (codec.stream (chunks ++ [chunk])), some (chunks ++ [chunk])⟩
    | none => file
  | .close =>
    match file.writing with
    | some chunks => ⟨some (codec.closed chunks), none⟩
    | none => file

def put (chunks : List Bytes) (old : Option Bytes) : TargetFile := (putSteps chunks).foldl codec.step ⟨old, none⟩

def interruptedPut (chunks : List Bytes) (i : Interruption) (old : Option Bytes) : TargetFile :=
  let file := ((putSteps chunks).take i.completed).foldl codec.step ⟨old, none⟩
  if i.unwinds then codec.step file .close else file

def get : Option Bytes → Except Exn Json
  | none => .error (.rawStore .unwritten)
  | some content => codec.gunzip content >>= codec.loads

def object (content : Bytes) : RawObject :=
  match codec.get (some content) with
  | .ok doc => .payload doc
  | .error _ => .torn

end Codec

namespace Interruption

variable (i : Interruption) (chunks : List Bytes)

def Finished : Prop := 2 ≤ i.completed ∧ (i.unwinds = true ∨ chunks.length + 3 ≤ i.completed) ∧
  (chunks.take (i.completed - 2)).flatten = chunks.flatten

instance : Decidable (i.Finished chunks) := by
  unfold Finished
  infer_instance

def outcome : PutFailure := if i.completed ≤ 1 then .unwritten else if i.Finished chunks then .written else .torn

end Interruption

variable {codec : Codec} {chunks : List Bytes} {old : Option Bytes} {i : Interruption} {doc : Json}

lemma Codec.foldl_write (written : List Bytes) (content : Option Bytes) (chunks : List Bytes)
    (hc : content = some (codec.stream written)) :
    (chunks.map PutStep.write).foldl codec.step ⟨content, some written⟩ =
      ⟨some (codec.stream (written ++ chunks)), some (written ++ chunks)⟩ := by
  induction chunks generalizing written content with
  | nil => simp [hc]
  | cons chunk chunks ih => simp [Codec.step, ih]

lemma Codec.put_content (codec : Codec) (chunks : List Bytes) (old : Option Bytes) :
    (codec.put chunks old).content = some (codec.closed chunks) := by
  simp [Codec.put, putSteps, Codec.step, Codec.foldl_write]

lemma Codec.interruptedPut_unopened (h : i.completed ≤ 1) : (codec.interruptedPut chunks i old).content = old := by
  have hfile : ((putSteps chunks).take i.completed).foldl codec.step ⟨old, none⟩ = ⟨old, none⟩ := by
    obtain h | h : i.completed = 0 ∨ i.completed = 1 := by omega
    all_goals simp [h, putSteps, Codec.step]
  simp only [Codec.interruptedPut, hfile]
  split <;> rfl

lemma Codec.interruptedPut_open {n : ℕ} (h : i.completed = n + 2) (hn : n ≤ chunks.length) :
    (codec.interruptedPut chunks i old).content =
      some (if i.unwinds then codec.closed (chunks.take n) else codec.stream (chunks.take n)) := by
  have htake : (putSteps chunks).take i.completed = .encode :: .truncateOpen :: (chunks.take n).map .write := by
    rw [h, putSteps, List.take_succ_cons, List.take_succ_cons, List.take_append_of_le_length (by simpa using hn),
      List.map_take]
  simp only [Codec.interruptedPut, htake, List.foldl_cons, Codec.step]
  rw [Codec.foldl_write _ _ _ rfl]
  cases i.unwinds <;> simp

lemma Codec.interruptedPut_closed (h : chunks.length + 3 ≤ i.completed) :
    (codec.interruptedPut chunks i old).content = some (codec.closed chunks) := by
  have hlen : (putSteps chunks).length = chunks.length + 3 := by simp [putSteps]
  have htake : (putSteps chunks).take i.completed = putSteps chunks := by
    apply List.take_of_length_le
    omega
  have hput : (putSteps chunks).foldl codec.step ⟨old, none⟩ = ⟨some (codec.closed chunks), none⟩ := by
    simp [putSteps, Codec.step, Codec.foldl_write]
  simp only [Codec.interruptedPut, htake, hput]
  split <;> rfl

lemma Codec.object_closed {text : Bytes} (hd : codec.dumps doc = .ok text) (hc : chunks.flatten = text) :
    codec.object (codec.closed chunks) = .payload doc := by
  have hget : codec.get (some (codec.closed chunks)) = .ok doc := by
    simp only [Codec.get, Codec.closed, codec.gunzip_closed, hc]
    exact codec.loads_dumps hd
  simp only [Codec.object, hget]

lemma Codec.object_torn {content : Bytes}
    (h : ∀ text doc, codec.gunzip content = .ok text → codec.loads text ≠ .ok doc) :
    codec.object content = .torn := by
  have hget : ∀ doc, codec.get (some content) ≠ .ok doc := fun doc hdoc => by
    cases ht : codec.gunzip content with
    | error e =>
      simp only [Codec.get, ht] at hdoc
      cases hdoc
    | ok text =>
      simp only [Codec.get, ht] at hdoc
      exact h text doc ht hdoc
  cases hg : codec.get (some content) with
  | error e => simp only [Codec.object, hg]
  | ok doc => exact absurd hg (hget doc)

lemma Codec.put_refines (hd : codec.dumps doc = .ok chunks.flatten) (key : Str) :
    (codec.put chunks old).content.map codec.object = RawObject.ofPut doc (.ok key) := by
  rw [Codec.put_content, Option.map_some, Codec.object_closed hd rfl]
  rfl

lemma Codec.interruptedPut_refines {ms : List (Str × Json)}
    (hd : 1 ≤ i.completed → codec.dumps (.obj ms) = .ok chunks.flatten) :
    (codec.interruptedPut chunks i old).content.map codec.object =
      (RawObject.ofPut (.obj ms) (.error (.rawStore (i.outcome chunks)))).or (old.map codec.object) := by
  by_cases h₁ : i.completed ≤ 1
  · simp [Codec.interruptedPut_unopened h₁, Interruption.outcome, h₁, RawObject.ofPut]
  have hd := hd (by omega)
  by_cases h₃ : chunks.length + 3 ≤ i.completed
  · have hf : i.Finished chunks := ⟨by omega, .inr h₃, by rw [List.take_of_length_le (by omega)]⟩
    simp [Codec.interruptedPut_closed h₃, Interruption.outcome, h₁, hf, Codec.object_closed hd rfl,
      RawObject.ofPut]
  obtain ⟨n, hn⟩ : ∃ n, i.completed = n + 2 := ⟨i.completed - 2, by omega⟩
  rw [Codec.interruptedPut_open hn (by omega), Option.map_some]
  have hfin : i.Finished chunks ↔ i.unwinds = true ∧ (chunks.take n).flatten = chunks.flatten := by
    constructor
    · rintro ⟨_, h, hflat⟩
      exact ⟨h.resolve_right h₃, by simpa [hn] using hflat⟩
    · rintro ⟨h, hflat⟩
      exact ⟨by omega, .inl h, by simpa [hn] using hflat⟩
  by_cases hf : i.Finished chunks
  · obtain ⟨hu, hflat⟩ := hfin.mp hf
    rw [if_pos hu, Codec.object_closed hd hflat]
    simp [Interruption.outcome, h₁, hf, RawObject.ofPut]
  · have htorn : codec.object (if i.unwinds then codec.closed (chunks.take n) else codec.stream (chunks.take n)) =
        .torn := by
      refine Codec.object_torn fun text doc htext => ?_
      by_cases hu : i.unwinds = true
      · rw [if_pos hu, Codec.closed, codec.gunzip_closed] at htext
        obtain rfl := Except.ok.inj htext
        have hpre := List.IsPrefix.flatten (List.take_prefix n chunks)
        exact codec.loads_truncated hd hpre fun hflat => hf (hfin.mpr ⟨hu, hflat⟩)
      · rw [if_neg hu] at htext
        rw [codec.gunzip_unclosed htext]
        exact codec.loads_nil
    rw [htorn]
    simp [Interruption.outcome, h₁, hf, RawObject.ofPut]

end ShadowProxy

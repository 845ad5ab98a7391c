import Mathlib.Data.List.Induction
import ShadowProxy.Archive.FailedMerge
import ShadowProxy.Store.Gzipped

/-! What a history of puts to one key leaves to read. -/

namespace ShadowProxy

open Data.JsonText (Limits)

section History

structure PutAttempt where
  members : List (Str × Json)
  chunks : List Bytes
  interruption : Interruption

def PutAttempt.outcome (a : PutAttempt) : PutFailure := a.interruption.outcome a.chunks

def Codec.puts (codec : Codec) (attempts : List PutAttempt) (content : Option Bytes) : Option Bytes :=
  attempts.foldl (fun content a => (codec.interruptedPut a.chunks a.interruption content).content) content

variable {codec : Codec} {attempts : List PutAttempt} {old : Option Bytes} {doc : Json}

lemma Codec.get_eq_ok {content : Option Bytes} :
    codec.get content = .ok doc ↔ content.map codec.object = some (.payload doc) := by
  cases content with
  | none => simp [Codec.get]
  | some content => cases hg : codec.get (some content) <;> simp [Codec.object, hg]

def LastWritten (attempts : List PutAttempt) (doc : Json) : Prop :=
  ∃ earlier a later, attempts = earlier ++ a :: later ∧ a.outcome = .written ∧ doc = .obj a.members ∧
    ∀ b ∈ later, b.outcome = .unwritten

lemma lastWritten_append {a : PutAttempt} : LastWritten (attempts ++ [a]) doc ↔
    (a.outcome = .written ∧ doc = .obj a.members) ∨ (a.outcome = .unwritten ∧ LastWritten attempts doc) := by
  constructor
  · rintro ⟨earlier, b, later, he, hb, hdoc, hlater⟩
    obtain rfl | ⟨later, c, rfl⟩ := List.eq_nil_or_concat' later
    · obtain ⟨-, hlast⟩ := List.append_inj' he rfl
      obtain rfl := List.singleton_inj.mp hlast
      exact .inl ⟨hb, hdoc⟩
    · rw [← List.cons_append, ← List.append_assoc] at he
      obtain ⟨rfl, hlast⟩ := List.append_inj' he rfl
      obtain rfl := List.singleton_inj.mp hlast
      exact .inr ⟨hlater a (by simp), earlier, b, later, rfl, hb, hdoc, fun c hc => hlater c (by simp [hc])⟩
  · rintro (⟨ha, hdoc⟩ | ⟨ha, earlier, b, later, rfl, hb, hdoc, hlater⟩)
    · exact ⟨attempts, a, [], rfl, ha, hdoc, by simp⟩
    · refine ⟨earlier, b, later ++ [a], by simp, hb, hdoc, fun c hc => ?_⟩
      rcases List.mem_append.mp hc with hc | hc
      · exact hlater c hc
      · exact List.mem_singleton.mp hc ▸ ha

theorem Gzip.get_puts_iff {gz : Gzip} {readFloat : Str → PyFloat} {lim : Limits} {attempts : List PutAttempt}
    (h : ∀ a ∈ attempts, dumpsBytes readFloat lim (.obj a.members) = .ok a.chunks.flatten) {doc : Json} :
    (gz.codec readFloat lim).get ((gz.codec readFloat lim).puts attempts none) = .ok doc ↔
    LastWritten attempts doc := by
  induction attempts using List.reverseRecOn with
  | nil => simp [Codec.puts, Codec.get, LastWritten]
  | append_singleton attempts a ih =>
    have ih := ih fun b hb => h b (List.mem_append_left _ hb)
    have hput : ∀ old, ((gz.codec readFloat lim).interruptedPut a.chunks a.interruption old).content.map
        (gz.codec readFloat lim).object = (RawObject.ofPut (.obj a.members) (.error (.rawStore a.outcome))).or
          (old.map (gz.codec readFloat lim).object) :=
      fun _ => Codec.interruptedPut_refines fun _ => h a (by simp)
    have hcontent : (gz.codec readFloat lim).puts (attempts ++ [a]) none =
        ((gz.codec readFloat lim).interruptedPut a.chunks
        a.interruption ((gz.codec readFloat lim).puts attempts none)).content := by
      rw [Codec.puts, List.foldl_append]
      rfl
    rw [Codec.get_eq_ok] at ih ⊢
    rw [hcontent, hput, lastWritten_append, ← ih]
    cases ha : a.outcome <;> simp [RawObject.ofPut, eq_comm]

def demoGzip : Gzip where
  stream := demoCodec.stream
  trailer := demoCodec.trailer
  gunzip := demoCodec.gunzip
  gunzip_closed := demoCodec.gunzip_closed
  gunzip_unclosed := demoCodec.gunzip_unclosed

def demoMembers : List (Str × Json) :=
  [("request".toList, .arr [.int 1, .str "é"]), ("primary_response".toList, .null)]

def demoText : Bytes := encodeText ((Json.obj demoMembers).encode archiveStyle)

def demoAttempts : List PutAttempt := [⟨demoMembers, [demoText], ⟨4, true⟩⟩, ⟨demoMembers, [demoText], ⟨1, true⟩⟩]

lemma demo_dumps : dumpsBytes PyFloat.mk ⟨10, 4300⟩ (.obj demoMembers) = .ok demoText := by
  rw [dumpsBytes, if_pos (by decide), Json.dumpsWith, if_pos (by decide)]
  rfl

theorem get_puts_demo :
    (demoGzip.codec PyFloat.mk ⟨10, 4300⟩).get ((demoGzip.codec PyFloat.mk ⟨10, 4300⟩).puts demoAttempts none) =
      .ok (.obj demoMembers) := by
  have hdumps : ∀ a ∈ demoAttempts, dumpsBytes PyFloat.mk ⟨10, 4300⟩ (.obj a.members) = .ok a.chunks.flatten := by
    intro a ha
    simp only [demoAttempts, List.mem_cons, List.not_mem_nil, or_false] at ha
    rcases ha with rfl | rfl <;> rw [List.flatten_singleton] <;> exact demo_dumps
  have hfinished : (⟨4, true⟩ : Interruption).Finished [demoText] := ⟨by decide, .inl rfl, rfl⟩
  refine (Gzip.get_puts_iff hdumps).mpr ⟨[], _, [_], rfl, ?_, rfl, ?_⟩
  · rw [PutAttempt.outcome, Interruption.outcome, if_neg (by decide), if_pos hfinished]
  · intro b hb
    obtain rfl := List.mem_singleton.mp hb
    rfl

end History

end ShadowProxy

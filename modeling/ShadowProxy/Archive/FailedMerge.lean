import ShadowProxy.Archive.Merge
import ShadowProxy.Store.Files

/-! What a merge that fails in the filesystem store leaves of the payload. -/

namespace ShadowProxy

open Effects

abbrev Files := Location → Option Bytes

def Codec.Holds (codec : Codec) (files : Files) (s : State) : Prop :=
  ∀ loc, (files loc).map codec.object = s.objects loc

def Codec.interruptedPutAt (codec : Codec) (files : Files) (loc : Location) (chunks : List Bytes)
    (i : Interruption) : Files :=
  Function.update files loc (codec.interruptedPut chunks i (files loc)).content

def Codec.Recovers (codec : Codec) (dep : Deployment) (files : Files) (key : Str) (payload : Json) : Prop :=
  ∃ doc, codec.get (files (dep.locate key)) = .ok doc ∧ Json.Agree "request" doc payload ∧
    Json.Agree "primary_response" doc payload

variable {dep : Deployment} {codec : Codec} {files : Files} {s s₁ : State} {t : ℕ} {k : Kind} {h : List Ev}
  {chunks : List Bytes} {i : Interruption}

lemma object_after_put (dep : Deployment) (t : ℕ) (k : Kind) (s : State) (id : Str) (payload : Json)
    (res : Except Exn Str) :
    (after dep t k s (.rawPut id payload) res).objects (dep.locate (keyFor s.clock id)) =
      (RawObject.ofPut payload res).or (s.objects (dep.locate (keyFor s.clock id))) := by
  cases hres : RawObject.ofPut payload res <;> simp [after, hres, State.write]

lemma object_after_put_ne {id : Str} {loc : Location} (h : loc ≠ dep.locate (keyFor s.clock id)) (payload : Json)
    (res : Except Exn Str) : (after dep t k s (.rawPut id payload) res).objects loc = s.objects loc := by
  cases hres : RawObject.ofPut payload res <;> simp [after, hres, State.write, Function.update_of_ne h]

lemma Codec.Holds.interruptedPut (hf : codec.Holds files s) (dep : Deployment) (t : ℕ) (k : Kind) (id : Str)
    {ms : List (Str × Json)}
    (hd : 1 ≤ i.completed → codec.dumps (.obj ms) = .ok chunks.flatten) :
    codec.Holds (codec.interruptedPutAt files (dep.locate (keyFor s.clock id)) chunks i)
      (after dep t k s (.rawPut id (.obj ms)) (.error (.rawStore (i.outcome chunks)))) := by
  intro loc
  by_cases hloc : loc = dep.locate (keyFor s.clock id)
  · subst hloc
    rw [Codec.interruptedPutAt, Function.update_self, object_after_put, Codec.interruptedPut_refines hd, hf]
  · rw [Codec.interruptedPutAt, Function.update_of_ne hloc, object_after_put_ne hloc, hf]

lemma Codec.Holds.get (hf : codec.Holds files s) (loc : Location) (doc : Json) :
    codec.get (files loc) = .ok doc ↔ s.objects loc = some (.payload doc) := by
  rw [← hf loc]
  cases hfile : files loc with
  | none => simp [Codec.get]
  | some content => cases hg : codec.get (some content) <;> simp [Codec.object, hg]

lemma setItem_obj {doc v payload : Json} {key : Str} (h : doc.setItem key v = .ok payload) :
    ∃ ms, payload = .obj ms := by
  cases doc with
  | obj ms => exact ⟨_, (Except.ok.inj h).symm⟩
  | null | bool | int | float | str | arr => cases h

theorem failed_merge_recovers_iff {t₀ : DateTime} {requestId id : Str} {doc resp payload : Json}
    {f : Except Exn Str → Program Unit} (hid : PlainId requestId)
    (hobj : s.objects (dep.locate (keyFor t₀ requestId)) = some (.payload doc))
    (hm : Merges dep t k (keyFor t₀ requestId) resp s h (.op (.rawPut id payload) f) s₁)
    (hday : s₁.clock.date = t₀.date) (hf : codec.Holds files s₁)
    (hd : 1 ≤ i.completed → codec.dumps payload = .ok chunks.flatten) :
    codec.Recovers dep (codec.interruptedPutAt files (dep.locate (keyFor s₁.clock id)) chunks i)
      (keyFor t₀ requestId) doc ↔ i.completed ≤ 1 ∨ i.Finished chunks := by
  obtain ⟨hobjects, rfl, doc', hdoc, hset⟩ := Merges.before_put hm
  obtain rfl := RawObject.payload.inj (Option.some.inj (hobj.symm.trans hdoc))
  have hrequest : Json.Agree "request" doc payload := Json.agree_setItem (by decide) hset
  have hprimary : Json.Agree "primary_response" doc payload := Json.agree_setItem (by decide) hset
  obtain ⟨ms, rfl⟩ := setItem_obj hset
  have hkey : keyFor s₁.clock (requestIdOfKey (keyFor t₀ requestId)) = keyFor t₀ requestId := by
    rw [requestIdOfKey_plain t₀ hid]
    exact keyFor_inj.mpr ⟨hday, rfl⟩
  have hread := (hf.interruptedPut dep t k (requestIdOfKey (keyFor t₀ requestId)) hd).get
    (dep.locate (keyFor t₀ requestId))
  have hnew := object_after_put dep t k s₁ (requestIdOfKey (keyFor t₀ requestId)) (.obj ms)
    (.error (.rawStore (i.outcome chunks)))
  rw [hkey, hobjects, hobj] at hnew
  simp only [Codec.Recovers, hread, hnew]
  by_cases h₁ : i.completed ≤ 1
  · have hout : i.outcome chunks = .unwritten := by simp [Interruption.outcome, h₁]
    simp only [hout, h₁, true_or, iff_true]
    exact ⟨_, rfl, hrequest.trans hrequest.symm, hprimary.trans hprimary.symm⟩
  · by_cases h₂ : i.Finished chunks
    · have hout : i.outcome chunks = .written := by simp [Interruption.outcome, h₁, h₂]
      simp only [hout, h₂, or_true, iff_true]
      exact ⟨_, rfl, hrequest.symm, hprimary.symm⟩
    · have hout : i.outcome chunks = .torn := by simp [Interruption.outcome, h₁, h₂]
      simp only [hout, h₁, h₂, or_self, iff_false]
      rintro ⟨doc, htorn, _⟩
      cases htorn

mutual

def Json.render : Json → Str
  | .null => "null"
  | .bool b => if b then "true" else "false"
  | .int n => (toString n).toList
  | .float x => x.repr
  | .str s => "\"".toList ++ s ++ "\"".toList
  | .arr xs => "[".toList ++ renderItems xs ++ "]".toList
  | .obj ms => "\x7b".toList ++ renderMembers ms ++ "\x7d".toList

def Json.renderItems : List Json → Str
  | [] => []
  | [x] => x.render
  | x :: xs => x.render ++ ", ".toList ++ renderItems xs

def Json.renderMembers : List (Str × Json) → Str
  | [] => []
  | [(key, x)] => "\"".toList ++ key ++ "\": ".toList ++ x.render
  | (key, x) :: ms => "\"".toList ++ key ++ "\": ".toList ++ x.render ++ ", ".toList ++ renderMembers ms

end

def Json.bytes (doc : Json) : Bytes := doc.render.map fun c => UInt8.ofNat c.toNat

def magic : Bytes := [0x1f, 0x8b]

def pack (text : Bytes) : Bytes := text.flatMap fun b => [1, b]

def unpack : Bytes → Except Exn Bytes
  | [0] => .ok []
  | 1 :: b :: rest => (unpack rest).map (b :: ·)
  | _ => .error .valueError

lemma unpack_pack (text : Bytes) : unpack (pack text ++ [0]) = .ok text := by
  induction text with
  | nil => rfl
  | cons b text ih =>
    change (unpack (pack text ++ [0])).map _ = _
    rw [ih]
    rfl

lemma unpack_open (text : Bytes) : unpack (pack text) = .error .valueError := by
  induction text with
  | nil => rfl
  | cons b text ih =>
    change (unpack (pack text)).map _ = _
    rw [ih]
    rfl

lemma demo_not_prefix : ¬ demoPayload.bytes <+: mergedPayload.bytes := by decide +kernel

lemma merged_not_prefix : ¬ mergedPayload.bytes <+: demoPayload.bytes := by decide +kernel

lemma merged_ne : mergedPayload.bytes ≠ demoPayload.bytes := fun h => merged_not_prefix (by rw [h])

lemma nil_ne_demo : [] ≠ demoPayload.bytes := fun h => demo_not_prefix (by rw [← h]; exact List.nil_prefix)

lemma nil_ne_merged : [] ≠ mergedPayload.bytes := fun h => merged_not_prefix (by rw [← h]; exact List.nil_prefix)

def demoDumps (doc : Json) : Except Exn Bytes :=
  if doc = demoPayload ∨ doc = mergedPayload then .ok doc.bytes else .error .valueError

def demoLoads (text : Bytes) : Except Exn Json :=
  if text = demoPayload.bytes then .ok demoPayload
  else if text = mergedPayload.bytes then .ok mergedPayload
  else .error (.jsonDecodeError "Expecting value")

def demoGunzip (content : Bytes) : Except Exn Bytes :=
  if magic.isPrefixOf content then unpack (content.drop 2) else .error .valueError

lemma demoDumps_ok {doc : Json} {text : Bytes} (h : demoDumps doc = .ok text) :
    (doc = demoPayload ∨ doc = mergedPayload) ∧ text = doc.bytes := by
  rw [demoDumps] at h
  split at h
  · rename_i hdoc
    exact ⟨hdoc, (Except.ok.inj h).symm⟩
  · cases h

lemma demoDumps_merged : demoDumps mergedPayload = .ok mergedPayload.bytes :=
  by rw [demoDumps, if_pos (Or.inr rfl)]

lemma demoLoads_ok {doc : Json} {text : Bytes} (h : demoLoads text = .ok doc) :
    text = demoPayload.bytes ∨ text = mergedPayload.bytes := by
  rw [demoLoads] at h
  split at h
  · rename_i ht
    exact .inl ht
  · split at h
    · rename_i ht
      exact .inr ht
    · cases h

lemma demoGunzip_magic (text : Bytes) : demoGunzip (magic ++ text) = unpack text := by
  simp [demoGunzip, magic]

def demoCodec : Codec where
  dumps := demoDumps
  loads := demoLoads
  stream chunks := magic ++ pack chunks.flatten
  trailer _ := [0]
  gunzip := demoGunzip
  loads_dumps h := by
    obtain ⟨rfl | rfl, rfl⟩ := demoDumps_ok h
    · exact if_pos rfl
    · rw [demoLoads, if_neg merged_ne, if_pos rfl]
  loads_truncated h hp hne hl := by
    obtain ⟨hdoc | hdoc, rfl⟩ := demoDumps_ok h <;> rw [hdoc] at hp hne
    · obtain rfl | rfl := demoLoads_ok hl
      · exact hne rfl
      · exact merged_not_prefix hp
    · obtain rfl | rfl := demoLoads_ok hl
      · exact demo_not_prefix hp
      · exact hne rfl
  loads_nil hl := by
    obtain h | h := demoLoads_ok hl
    · exact nil_ne_demo h
    · exact nil_ne_merged h
  gunzip_closed chunks := by rw [List.append_assoc, demoGunzip_magic, unpack_pack]
  gunzip_unclosed h := by
    rw [demoGunzip_magic, unpack_open] at h
    cases h

def archivedFiles : Files := fun loc =>
  if loc = disk.locate (keyFor morning "a") then some (demoCodec.closed [demoPayload.bytes]) else none

lemma archivedFiles_hold (now : DateTime) : demoCodec.Holds archivedFiles (archivedState now) := by
  intro loc
  by_cases hloc : loc = disk.locate (keyFor morning "a")
  · subst hloc
    have hdumps : demoCodec.dumps demoPayload = .ok demoPayload.bytes := rfl
    rw [archivedState_object, archivedFiles, if_pos rfl, Option.map_some, Codec.object_closed hdumps (by simp)]
  · have hobj : (archivedState now).objects loc = none := Function.update_of_ne hloc _ _
    rw [archivedFiles, if_neg hloc, hobj]
    rfl

abbrev interruptedMerge (completed : ℕ) (unwinds : Bool) : Files :=
  demoCodec.interruptedPutAt archivedFiles (disk.locate (keyFor anHourLater "a")) [mergedPayload.bytes]
    ⟨completed, unwinds⟩

theorem failed_merge_recovers_after_close : ∃ h f,
    MergesDemo anHourLater h (.op (.rawPut "a" mergedPayload) f) (archivedState anHourLater) ∧
      demoCodec.Recovers disk (interruptedMerge 4 false) (keyFor morning "a") demoPayload := by
  obtain ⟨f, hf⟩ := merge_reaches_put rfl (archivedState_object anHourLater) demoPayload_setItem
  refine ⟨_, f, hf, ?_⟩
  have hd : demoCodec.dumps mergedPayload = .ok [mergedPayload.bytes].flatten := by
    rw [List.flatten_singleton]
    exact demoDumps_merged
  exact (failed_merge_recovers_iff (by decide) (archivedState_object anHourLater) hf rfl
    (archivedFiles_hold anHourLater) fun _ => hd).mpr (.inr ⟨by decide, .inr (by decide), by simp⟩)

theorem failed_merge_destroys_payload : ∃ h f,
    MergesDemo anHourLater h (.op (.rawPut "a" mergedPayload) f) (archivedState anHourLater) ∧
      demoCodec.Holds archivedFiles (archivedState anHourLater) ∧
      ¬ demoCodec.Recovers disk (interruptedMerge 2 true) (keyFor morning "a") demoPayload := by
  obtain ⟨f, hf⟩ := merge_reaches_put (t := 2) (k := ⟨0, .handle ⟨"a", 1⟩⟩) rfl (archivedState_object anHourLater)
    demoPayload_setItem
  refine ⟨_, f, hf, archivedFiles_hold anHourLater, ?_⟩
  rintro ⟨doc, hget, _⟩
  cases hget

end ShadowProxy

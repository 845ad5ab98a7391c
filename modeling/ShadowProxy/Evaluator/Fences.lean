import ShadowProxy.Data.JsonText
import ShadowProxy.Api.FailOpen
import ShadowProxy.Evaluator.Text

/-! A code fence around a JSON text is transparent. -/

namespace ShadowProxy

open Data JsonText

lemma Blank.white {w : Str} (h : Blank w) : White w := fun c hc => by
  obtain rfl | rfl | rfl | rfl := h c hc <;> decide

lemma opening_notSpace : ∀ c ∈ opening, isSpace c = false := by decide

lemma closing_notSpace : ∀ c ∈ closing, isSpace c = false := by decide

def JsonTag (tag : Str) : Prop :=
  tag = [] ∨ ∃ j ∈ ['j', 'J'], ∃ s ∈ ['s', 'S', 'ſ'], ∃ o ∈ ['o', 'O'], ∃ n ∈ ['n', 'N'], tag = [j, s, o, n]

def fenced (w₁ tag w₂ text w₃ w₄ : Str) : Str := w₁ ++ fence ++ tag ++ w₂ ++ text ++ w₃ ++ fence ++ w₄

lemma dropTag_of_head {c : Char} (hj : c ≠ 'j') (hJ : c ≠ 'J') (s : Str) : dropTag (c :: s) = c :: s := by
  unfold dropTag
  split
  · rename_i heq
    obtain ⟨rfl, rfl⟩ := List.cons.inj heq
    simp [hj, hJ]
  · rfl

lemma dropTag_append {tag s : Str} (h : JsonTag tag) (hs : ∃ c rest, s = c :: rest ∧ c ≠ 'j' ∧ c ≠ 'J') :
    dropTag (tag ++ s) = s := by
  obtain rfl | ⟨j, hj, a, ha, o, ho, n, hn, rfl⟩ := h
  · obtain ⟨c, rest, rfl, hj, hJ⟩ := hs
    exact dropTag_of_head hj hJ rest
  · simp only [List.mem_cons, List.not_mem_nil, or_false] at hj ha ho hn
    simp [dropTag, or_assoc, hj, ha, ho, hn]

structure Core (v : Str) : Prop where
  opens : OpensWith opening v
  closes : ClosesWith closing v

namespace Core

variable {v : Str}

lemma lstrip (h : Core v) {w : Str} (hw : White w) (s : Str) : lstrip (w ++ (v ++ s)) = v ++ s := by
  obtain ⟨c, hc, rest, rfl⟩ := h.opens
  rw [lstrip_append hw, List.cons_append, lstrip_cons (opening_notSpace c hc)]

lemma rstrip (h : Core v) (s : Str) {w : Str} (hw : White w) : rstrip (s ++ v ++ w) = s ++ v := by
  obtain ⟨c, hc, rest, rfl⟩ := h.closes
  rw [rstrip_append _ hw, ← List.append_assoc, rstrip_concat _ (closing_notSpace c hc)]

lemma not_fence (h : Core v) (s : Str) : fence.isPrefixOf (v ++ s) = false := by
  obtain ⟨c, hc, rest, rfl⟩ := h.opens
  have hne : ∀ c ∈ opening, '`' ≠ c := by decide
  simp [fence, List.isPrefixOf, hne c hc]

lemma not_tag (h : Core v) (s : Str) : ∃ c rest, v ++ s = c :: rest ∧ c ≠ 'j' ∧ c ≠ 'J' := by
  obtain ⟨c, hc, rest, rfl⟩ := h.opens
  have hne : ∀ c ∈ opening, c ≠ 'j' ∧ c ≠ 'J' := by decide
  exact ⟨c, rest ++ s, rfl, hne c hc⟩

end Core

lemma not_tag_append {w s : Str} (hw : White w) (hs : ∃ c rest, s = c :: rest ∧ c ≠ 'j' ∧ c ≠ 'J') :
    ∃ c rest, w ++ s = c :: rest ∧ c ≠ 'j' ∧ c ≠ 'J' := by
  cases w with
  | nil => exact hs
  | cons c w =>
    have hc : isSpace c = true := hw c List.mem_cons_self
    refine ⟨c, w ++ s, rfl, ?_, ?_⟩
    · rintro rfl
      exact absurd hc (by decide)
    · rintro rfl
      exact absurd hc (by decide)

lemma stripCodeFence_plain {v w w' : Str} (h : Core v) (hw : White w) (hw' : White w') :
    stripCodeFence (w ++ (v ++ w')) = v := by
  have hr := h.rstrip [] hw'
  simp only [List.nil_append] at hr
  rw [stripCodeFence, fenceBody]
  simp only [h.lstrip hw, h.not_fence, strip, hr]
  rfl

lemma fenceBody_eq {text s body : Str} (ho : lstrip text = fence ++ s)
    (hc : rstrip (lstrip (dropTag s)) = body ++ fence) : fenceBody text = some (rstrip body) := by
  have hp : fence.isPrefixOf (fence ++ s) = true := List.isPrefixOf_iff_prefix.mpr (List.prefix_append _ _)
  have hs : fence.isSuffixOf (body ++ fence) = true := List.isSuffixOf_iff_suffix.mpr (List.suffix_append _ _)
  have hdrop : (fence ++ s).drop 3 = s := rfl
  have htake : (body ++ fence).take ((body ++ fence).length - 3) = body := by simp [fence]
  simp only [fenceBody, ho, hp, if_true, hdrop, hc, hs, htake]

lemma rstrip_fence (body : Str) {w : Str} (h : White w) : rstrip (body ++ fence ++ w) = body ++ fence := by
  have hc : rstrip ((body ++ "``".toList) ++ ['`']) = (body ++ "``".toList) ++ ['`'] := rstrip_concat _ (by decide)
  rw [rstrip_append _ h]
  simpa [fence] using hc

lemma stripCodeFence_fenced {v w w' w₁ w₂ w₃ w₄ tag : Str} (h : Core v) (hw : White w) (hw' : White w')
    (h₁ : White w₁) (h₂ : White w₂) (h₃ : White w₃) (h₄ : White w₄) (htag : JsonTag tag) :
    stripCodeFence (fenced w₁ tag w₂ (w ++ (v ++ w')) w₃ w₄) = v := by
  let body := v ++ (w' ++ w₃)
  let rest := (w₂ ++ w) ++ (v ++ (w' ++ w₃ ++ fence ++ w₄))
  have hopen : lstrip (fenced w₁ tag w₂ (w ++ (v ++ w')) w₃ w₄) = fence ++ (tag ++ rest) := by
    simp only [fenced, rest, List.append_assoc]
    rw [lstrip_append h₁]
    exact lstrip_cons (by decide) _
  have htagged : dropTag (tag ++ rest) = rest := dropTag_append htag (not_tag_append (h₂.append hw) (h.not_tag _))
  have hclose : rstrip (lstrip rest) = body ++ fence := by
    rw [h.lstrip (h₂.append hw)]
    simpa [body] using rstrip_fence body h₄
  have hbody : rstrip body = v := h.rstrip [] (hw'.append h₃)
  rw [stripCodeFence, fenceBody_eq hopen (by rw [htagged, hclose]), hbody]
  rfl

section Accepted

variable {py : Python}

/-- `json.loads` accepts nothing but JSON texts. -/
def Grammatical (py : Python) : Prop := ∀ text v, py.loads text = .ok v → Padded text

lemma core_of_padded {text : Str} (h : Padded text) :
    ∃ w v w', White w ∧ Core v ∧ White w' ∧ text = w ++ (v ++ w') := by
  cases h with
  | mk hw hv hw' => exact ⟨_, _, _, Blank.white hw, ⟨hv.opens, hv.closes⟩, Blank.white hw', rfl⟩

lemma parse_congr {text text' : Str} (h : stripCodeFence text = stripCodeFence text') :
    JsonActionEvaluator.parse py text = JsonActionEvaluator.parse py text' := by
  rw [JsonActionEvaluator.parse, JsonActionEvaluator.parse, h]

theorem fences_transparent (hpy : Grammatical py) {text : Str} {value : Json} (hx : py.loads text = .ok value)
    {w₁ w₂ w₃ w₄ tag : Str} (h₁ : White w₁) (h₂ : White w₂) (h₃ : White w₃) (h₄ : White w₄) (htag : JsonTag tag) :
    stripCodeFence (fenced w₁ tag w₂ text w₃ w₄) = strip text ∧ stripCodeFence text = strip text ∧
      (∀ cfg other, JsonActionEvaluator.evaluate py cfg (fenced w₁ tag w₂ text w₃ w₄) other =
        JsonActionEvaluator.evaluate py cfg text other) ∧
      (∀ cfg other, JsonActionEvaluator.evaluate py cfg other (fenced w₁ tag w₂ text w₃ w₄) =
        JsonActionEvaluator.evaluate py cfg other text) ∧
      ∀ key, extractAction py (fenced w₁ tag w₂ text w₃ w₄) key = extractAction py text key := by
  obtain ⟨w, v, w', hw, hv, hw', rfl⟩ := core_of_padded (hpy text value hx)
  have hstrip : strip (w ++ (v ++ w')) = v := by
    have hr := hv.rstrip [] hw'
    rw [strip, hv.lstrip hw]
    simpa using hr
  have hfenced := stripCodeFence_fenced hv hw hw' h₁ h₂ h₃ h₄ htag
  have hplain := stripCodeFence_plain hv hw hw'
  have hsame := hfenced.trans hplain.symm
  refine ⟨hfenced.trans hstrip.symm, hplain.trans hstrip.symm, fun cfg other => ?_, fun cfg other => ?_,
    fun key => ?_⟩
  · rw [JsonActionEvaluator.evaluate, JsonActionEvaluator.evaluate, parse_congr hsame]
  · rw [JsonActionEvaluator.evaluate, JsonActionEvaluator.evaluate, parse_congr hsame]
  · rw [extractAction, extractAction, hsame]

end Accepted

lemma padded_buy : Padded buy := by
  have hword : ∀ s : Str, (∀ c ∈ s, c ≠ '"' ∧ c ≠ '\\' ∧ 0x20 ≤ c.toNat) → Body s := by
    intro s hs
    induction s with
    | nil => exact .nil
    | cons c s ih =>
      obtain ⟨hq, hb, hc⟩ := hs c List.mem_cons_self
      exact .plain hq hb hc (ih fun d hd => hs d (List.mem_cons_of_mem c hd))
  have hvalue : Padded (" ".toList ++ (('"' :: ("buy".toList ++ ['"'])) ++ [])) :=
    .mk (by decide) (.string (hword _ (by decide))) (by decide)
  have hmember : Member ([] ++ '"' :: ("action".toList ++ '"' :: ([] ++ ':' :: " \"buy\"".toList))) :=
    .mk (by decide) (hword _ (by decide)) (by decide) hvalue
  have hobject : Padded ([] ++ (('\x7b' :: (_ ++ ['\x7d'])) ++ [])) :=
    .mk (by decide) (.object (.last hmember)) (by decide)
  exact hobject

lemma grammatical_demo : Grammatical demoPython := by
  intro text v h
  by_cases ht : text = buy
  · exact ht ▸ padded_buy
  · simp only [demoPython, if_neg ht, reduceCtorEq] at h

theorem fences_transparent_buy :
    let wrapped := fenced [] "JSON" ['\n'] buy ['\n'] [' ']
    stripCodeFence wrapped = strip buy ∧ stripCodeFence buy = strip buy ∧
      (∀ cfg other, JsonActionEvaluator.evaluate demoPython cfg wrapped other =
        JsonActionEvaluator.evaluate demoPython cfg buy other) ∧
      (∀ cfg other, JsonActionEvaluator.evaluate demoPython cfg other wrapped =
        JsonActionEvaluator.evaluate demoPython cfg other buy) ∧
      ∀ key, extractAction demoPython wrapped key = extractAction demoPython buy key := by
  have hloads : demoPython.loads buy = .ok (.obj [("action", .str "buy")]) := rfl
  exact fences_transparent grammatical_demo hloads (by decide) (by decide) (by decide) (by decide)
    (.inr ⟨'J', by decide, 'S', by decide, 'O', by decide, 'N', by decide, rfl⟩)

end ShadowProxy

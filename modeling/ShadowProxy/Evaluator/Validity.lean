import ShadowProxy.Evaluator.Fences
import ShadowProxy.Store.Gzipped

/-! Which replies the evaluator takes for JSON. -/

namespace ShadowProxy

open Data.JsonText (Limits Padded)

namespace JsonActionEvaluator

variable {py : Python} {cfg : EvaluatorConfig} {readFloat : Str → PyFloat} {lim : Limits} {text : Str}
  {v : Json} {err : Option Str}

lemma padded_ne_nil (h : Padded text) : text ≠ [] := by
  obtain ⟨-, hs, -⟩ := h
  obtain ⟨c, -, rest, rfl⟩ := hs.opens
  simp

lemma loadsText_padded (h : loadsText readFloat lim text = .ok v) : Padded text :=
  (Data.JsonText.decode_eq_iff.mp (loadsText_ok.mp h)).padded Data.JsonText.Denotes.value

lemma loadsText_decodeError {msg : Str} (h : loadsText readFloat lim text = .error (.jsonDecodeError msg)) :
    ¬ Padded text := by
  rw [loadsText] at h
  split at h
  · cases h
  · cases h
  · rename_i he
    exact Data.JsonText.decode_error he
  · cases h
  · cases h

lemma parse_isSome_iff (hloads : py.loads = loadsText readFloat lim) (h : parse py text = .ok (v, err)) :
    err.isSome = true ↔ ¬ Padded (stripCodeFence text) := by
  rw [parse] at h
  cases hs : stripCodeFence text with
  | nil =>
    simp only [hs] at h
    obtain ⟨-, rfl⟩ := Prod.mk.inj (Except.ok.inj h)
    exact ⟨fun _ hp => padded_ne_nil hp rfl, fun _ => rfl⟩
  | cons c cs =>
    simp only [hs, hloads] at h
    cases hl : loadsText readFloat lim (c :: cs) with
    | ok v =>
      simp only [hl] at h
      obtain ⟨-, rfl⟩ := Prod.mk.inj (Except.ok.inj h)
      exact ⟨fun he => absurd he (by decide), fun hp => (hp (loadsText_padded hl)).elim⟩
    | error e =>
      simp only [hl] at h
      split at h
      · rename_i he
        cases he
      · rename_i msg he
        obtain rfl := Except.error.inj he
        obtain ⟨-, rfl⟩ := Prod.mk.inj (Except.ok.inj h)
        exact ⟨fun _ => loadsText_decodeError hl, fun _ => rfl⟩
      · cases h

lemma evaluate_invalidJson {primaryText candidateText : Str} {result : EvaluationResult} {p c : Json}
    {pErr cErr : Option Str} (hp : parse py primaryText = .ok (p, pErr))
    (hc : parse py candidateText = .ok (c, cErr)) (h : evaluate py cfg primaryText candidateText = .ok result) :
    result.verdict = .invalidJson ↔ (cfg.requireJson && (pErr.isSome || cErr.isSome)) = true := by
  simp only [evaluate, hp, hc, bind, Except.bind, pure, Except.pure] at h
  split at h
  · rename_i hinvalid
    obtain rfl := Except.ok.inj h
    exact ⟨fun _ => hinvalid, fun _ => rfl⟩
  · rename_i hvalid
    have hne : result.verdict ≠ .invalidJson := by
      split at h
      · obtain rfl := Except.ok.inj h
        simp
      · split at h
        all_goals
          obtain rfl := Except.ok.inj h
          simp
    exact ⟨fun he => (hne he).elim, fun he => (hvalid he).elim⟩

theorem invalidJson_iff (hloads : py.loads = loadsText readFloat lim) {primaryText candidateText : Str}
    {result : EvaluationResult} (h : evaluate py cfg primaryText candidateText = .ok result) :
    result.verdict = .invalidJson ↔ cfg.requireJson = true ∧
      (¬ Padded (stripCodeFence primaryText) ∨ ¬ Padded (stripCodeFence candidateText)) := by
  obtain ⟨hp, hc⟩ := evaluate_ok_iff.mp ⟨result, h⟩
  obtain ⟨⟨p, pErr⟩, hp⟩ := readable_iff.mp hp
  obtain ⟨⟨c, cErr⟩, hc⟩ := readable_iff.mp hc
  rw [evaluate_invalidJson hp hc h, Bool.and_eq_true, Bool.or_eq_true, parse_isSome_iff hloads hp,
    parse_isSome_iff hloads hc]

def scanningPython : Python where
  loads := loadsText PyFloat.mk ⟨100, 4300⟩
  str v := v.text fun _ => true
  repr v := v.text fun _ => true
  lower s := s.map Char.toLower

theorem invalidJson_cut : Verdict.invalidJson = .invalidJson ↔ EvaluatorConfig.requireJson {} = true ∧
    (¬ Padded (stripCodeFence "```json\n\x7b\"action\": 1\x7d\n```".toList) ∨
      ¬ Padded (stripCodeFence "\x7b\"action\": 1".toList)) :=
  @invalidJson_iff scanningPython {} PyFloat.mk ⟨100, 4300⟩ rfl _ _
    { verdict := .invalidJson
      reasons := ["primary_json_ok", "candidate_json_invalid:json_decode_error:Expecting ',' delimiter"] }
    (by decide +kernel)

end JsonActionEvaluator

end ShadowProxy

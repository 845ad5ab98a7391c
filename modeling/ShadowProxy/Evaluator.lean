import ShadowProxy.Settings

/-! The deterministic JSON comparator. -/

namespace ShadowProxy

/-- What the proxy uses of Python itself: `json.loads`, `str`, `repr` and `str.lower`. -/
structure Python where
  loads : Str → Except Exn Json
  str : Json → Str
  repr : Json → Str
  lower : Str → Str

inductive Verdict where
  | pending
  | matched
  | mismatch
  | invalidJson
  | candidateError
  | primaryError
  deriving DecidableEq

def Verdict.value : Verdict → Str
  | .pending => "pending"
  | .matched => "match"
  | .mismatch => "mismatch"
  | .invalidJson => "invalid_json"
  | .candidateError => "candidate_error"
  | .primaryError => "primary_error"

structure EvaluationResult where
  verdict : Verdict
  reasons : List Str
  primaryAction : Option Str := none
  candidateAction : Option Str := none
  deriving DecidableEq

/-- `str.isspace`, which is also what `\s` matches. -/
def isSpace (c : Char) : Bool :=
  let n := c.toNat
  (9 ≤ n && n ≤ 13) || (28 ≤ n && n ≤ 32) || n = 0x85 || n = 0xA0 || n = 0x1680 ||
    (0x2000 ≤ n && n ≤ 0x200A) || n = 0x2028 || n = 0x2029 || n = 0x202F || n = 0x205F || n = 0x3000

def lstrip (s : Str) : Str := s.dropWhile isSpace

def rstrip (s : Str) : Str := (s.reverse.dropWhile isSpace).reverse

def strip (s : Str) : Str := rstrip (lstrip s)

def fence : Str := "```"

/-- `(?:json)?` under `re.IGNORECASE`, where `ſ` is a case variant of `s`. -/
def dropTag : Str → Str
  | j :: s :: o :: n :: rest =>
    if (j = 'j' || j = 'J') && (s = 's' || s = 'S' || s = 'ſ') && (o = 'o' || o = 'O') &&
      (n = 'n' || n = 'N') then rest else j :: s :: o :: n :: rest
  | s => s

/-- The `body` group of `_FENCE_RE`. No whitespace character is a backtick, so the greedy runs never
give back what they took, and the lazy body ends before the whitespace of the closing fence. -/
def fenceBody (text : Str) : Option Str :=
  let s := lstrip text
  if fence.isPrefixOf s then
    let s := rstrip (lstrip (dropTag (s.drop 3)))
    if fence.isSuffixOf s then some (rstrip (s.take (s.length - 3))) else none
  else none

def stripCodeFence (text : Str) : Str := (fenceBody text).getD (strip text)

namespace JsonActionEvaluator

variable (py : Python) (cfg : EvaluatorConfig)

def normalizeValue (value : Json) : Str :=
  match cfg.normalize with
  | .lowercaseStrip => py.lower (strip (py.str value))
  | .none => py.str value

def parse (text : Str) : Except Exn (Json × Option Str) :=
  match stripCodeFence text with
  | [] => .ok (.null, some "empty_content")
  | stripped =>
    match py.loads stripped with
    | .ok v => .ok (v, none)
    | .error (.jsonDecodeError msg) => .ok (.null, some ("json_decode_error:".toList ++ msg))
    | .error e => .error e

def parseReason (side : Str) : Option Str → Str
  | none => side ++ "_json_ok".toList
  | some err => side ++ "_json_invalid:".toList ++ err

def getKey (obj : Json) (key : Str) : Json :=
  match obj with
  | .obj ms => (ms.lookup key).getD .null
  | _ => .null

/-- `None if action is None else str(action)` -/
def actionText (action : Json) : Option Str := if action = .null then none else some (py.str action)

def evaluate (primaryText candidateText : Str) : Except Exn EvaluationResult := do
  let (pObj, pErr) ← parse py primaryText
  let (cObj, cErr) ← parse py candidateText
  let reasons := [parseReason "primary" pErr, parseReason "candidate" cErr]
  if cfg.requireJson && (pErr.isSome || cErr.isSome) then
    return { verdict := .invalidJson, reasons }
  let pAction := getKey pObj cfg.compareKey
  let cAction := getKey cObj cfg.compareKey
  if pAction = .null ∨ cAction = .null then
    return {
      verdict := .mismatch
      reasons := reasons ++ ["missing_action_key".toList]
      primaryAction := actionText py pAction
      candidateAction := actionText py cAction }
  if normalizeValue py cfg pAction = normalizeValue py cfg cAction then
    return {
      verdict := .matched
      reasons := reasons ++ ["action_match".toList]
      primaryAction := some (py.str pAction)
      candidateAction := some (py.str cAction) }
  return {
    verdict := .mismatch
    reasons := reasons ++ ["action_mismatch:".toList ++ py.repr pAction ++ "!=".toList ++ py.repr cAction]
    primaryAction := some (py.str pAction)
    candidateAction := some (py.str cAction) }

section Readable

variable {py} {cfg}

/-- `json.loads` raises nothing but a decode error on a text without its fence. -/
def Readable (py : Python) (text : Str) : Prop :=
  stripCodeFence text = [] ∨ ∀ e, py.loads (stripCodeFence text) = .error e → ∃ msg, e = .jsonDecodeError msg

lemma readable_iff {text : Str} : Readable py text ↔ ∃ v, parse py text = .ok v := by
  rw [Readable, parse]
  cases hs : stripCodeFence text with
  | nil => simp
  | cons c cs =>
    dsimp only
    cases hl : py.loads (c :: cs) with
    | ok v => simp
    | error e => cases e <;> simp

lemma evaluate_ok_iff {primaryText candidateText : Str} :
    (∃ result, evaluate py cfg primaryText candidateText = .ok result) ↔
      Readable py primaryText ∧ Readable py candidateText := by
  rw [readable_iff, readable_iff]
  constructor
  · rintro ⟨result, h⟩
    cases hp : parse py primaryText with
    | error e => simp [evaluate, hp, bind, Except.bind] at h
    | ok p =>
      cases hc : parse py candidateText with
      | error e => simp [evaluate, hp, hc, bind, Except.bind] at h
      | ok c => exact ⟨⟨p, rfl⟩, c, rfl⟩
  · rintro ⟨⟨p, hp⟩, c, hc⟩
    simp only [evaluate, hp, hc, bind, Except.bind, pure, Except.pure]
    split
    · exact ⟨_, rfl⟩
    split
    · exact ⟨_, rfl⟩
    split <;> exact ⟨_, rfl⟩

def Comparison (v : Verdict) : Prop := v = .matched ∨ v = .mismatch ∨ v = .invalidJson

lemma evaluate_verdict {primaryText candidateText : Str} {result : EvaluationResult}
    (h : evaluate py cfg primaryText candidateText = .ok result) : Comparison result.verdict := by
  obtain ⟨hp, hc⟩ := evaluate_ok_iff.mp ⟨result, h⟩
  obtain ⟨p, hp⟩ := readable_iff.mp hp
  obtain ⟨c, hc⟩ := readable_iff.mp hc
  simp only [evaluate, hp, hc, bind, Except.bind, pure, Except.pure] at h
  split at h
  · obtain rfl := Except.ok.inj h
    exact .inr (.inr rfl)
  split at h
  · obtain rfl := Except.ok.inj h
    exact .inr (.inl rfl)
  split at h
  · obtain rfl := Except.ok.inj h
    exact .inl rfl
  · obtain rfl := Except.ok.inj h
    exact .inr (.inl rfl)

end Readable

end JsonActionEvaluator

end ShadowProxy

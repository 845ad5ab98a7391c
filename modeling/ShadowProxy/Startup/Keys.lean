import Mathlib.Data.List.Infix
import Mathlib.Tactic.Tauto
import ShadowProxy.Evaluator.Text
import ShadowProxy.Scenario

/-! What becomes of the API key: at startup, and in the client that is made with it. -/

namespace ShadowProxy

def findMarker (py : Python) (markers : List Str) (key : Str) : Option Str := markers.find? (· <:+: py.lower key)

section Startup

def Settings.dummyKeyMarkers : List Str :=
  ["fake", "dummy", "example", "placeholder", "changeme", "change-me", "your-key", "your_key", "yourkey",
    "todo", "xxx", "abc123", "secret-here", "paste-"].map String.toList

def Settings.minKeyLength : ℕ := 20

def keyMissingMessage : Str :=
  "DO_INFERENCE_API_KEY is not set.\n\n".toList ++
  "  Create a Model Access Key:\n".toList ++
  "    1. https://cloud.digitalocean.com\n".toList ++
  "    2. INFERENCE -> Manage -> Model Access Keys\n".toList ++
  "    3. 'Create model access key', copy the secret (shown once),\n".toList ++
  "       paste it into .env as DO_INFERENCE_API_KEY=...\n\n".toList ++
  "  For local dev without a real key, set SHADOW_PROXY_ALLOW_DUMMY_KEY=1.".toList

def dummyKeyMessage (marker : Str) : Str :=
  "DO_INFERENCE_API_KEY looks like a placeholder value ".toList ++
  "(contains ".toList ++ reprStr (fun _ => true) marker ++ "). Refusing to start so we don't send ".toList ++
  "garbage requests to DigitalOcean. Replace it with a real Model ".toList ++
  "Access Key from https://cloud.digitalocean.com (INFERENCE -> Manage).\n".toList ++
  "  For local dev, set SHADOW_PROXY_ALLOW_DUMMY_KEY=1.".toList

def shortKeyMessage (length : ℕ) : Str :=
  "DO_INFERENCE_API_KEY is only ".toList ++ decimal length ++ " characters long, which is too ".toList ++
  "short to be a real Model Access Key (expected >= ".toList ++ decimal Settings.minKeyLength ++ "). ".toList ++
  "Did you paste the full key?\n".toList ++
  "  For local dev, set SHADOW_PROXY_ALLOW_DUMMY_KEY=1.".toList

def Settings.missingSpaces (settings : Settings) : List Str :=
  ([("DO_SPACES_BUCKET".toList, settings.doSpacesBucket), ("DO_SPACES_KEY".toList, settings.doSpacesKey),
    ("DO_SPACES_SECRET".toList, settings.doSpacesSecret)].filter fun x => x.2 = []).map Prod.fst

/-- `assert_runtime_ready`, with the text of the `RuntimeError` it raises -/
def Settings.assertRuntimeReady (py : Python) (settings : Settings) : Except Str Unit :=
  if settings.shadowProxyAllowDummyKey then .ok ()
  else
    let key := settings.doInferenceApiKey
    if key = [] then .error keyMissingMessage
    else
      match findMarker py Settings.dummyKeyMarkers key with
      | some marker => .error (dummyKeyMessage marker)
      | none =>
        if key.length < Settings.minKeyLength then .error (shortKeyMessage key.length)
        else if settings.rawStoreType = .spaces ∧ settings.missingSpaces ≠ [] then
          .error ("RAW_STORE_TYPE=spaces but these env vars are unset: ".toList ++
            join ", " settings.missingSpaces)
        else .ok ()

end Startup

def Ascii (s : Str) : Prop := ∀ c ∈ s, c.toNat < 128

instance (s : Str) : Decidable (Ascii s) := List.decidableBAll _ s

/-- The constructor of `httpx.AsyncClient`, as far as a base URL and headers can make it fail. -/
structure Httpx where
  asyncClient : Str → List (Str × Str) → Except Str Unit

/-- `httpx` takes the URL, and encodes headers as ASCII. -/
structure Httpx.Documented (httpx : Httpx) (baseUrl : Str) : Prop where
  asyncClient : ∀ headers, httpx.asyncClient baseUrl headers = .ok () ↔ ∀ h ∈ headers, Ascii h.1 ∧ Ascii h.2

structure DOInferenceClient where
  baseUrl : Str
  apiKey : Str
  maxRetries : ℤ

namespace DOInferenceClient

def dummyKeyMarkers : List Str :=
  ["fake", "dummy", "example", "placeholder", "changeme", "your-key", "your_key", "yourkey", "todo",
    "xxx", "abc123", "paste-"].map String.toList

def minKeyLength : ℕ := 20

/-- `_validate_api_key`, with the text of the `ValueError` it raises -/
def validateApiKey (py : Python) (apiKey : Str) (strict : Bool) : Except Str Unit :=
  if apiKey = [] then
    .error ("DO_INFERENCE_API_KEY is required. ".toList ++
      "Set it via env / .env, or route through Settings which explains how.".toList)
  else if strict then
    match findMarker py dummyKeyMarkers apiKey with
    | some marker =>
      .error ("DOInferenceClient refused a key that looks like a placeholder ".toList ++
        "(contains ".toList ++ reprStr (fun _ => true) marker ++ ").".toList)
    | none =>
      if apiKey.length < minKeyLength then
        .error ("DOInferenceClient refused a key of length ".toList ++ decimal apiKey.length ++
          " (minimum ".toList ++ decimal minKeyLength ++ ").".toList)
      else .ok ()
  else .ok ()

/-- `s.rstrip("/")` -/
def rstripSlash (s : Str) : Str := (s.reverse.dropWhile (· = '/')).reverse

def authorization (apiKey : Str) : Str := "Bearer ".toList ++ apiKey

/-- `__init__`, with the text of the error it raises -/
def init (py : Python) (httpx : Httpx) (baseUrl apiKey : Str) (maxRetries : ℤ) (strict : Bool) :
    Except Str DOInferenceClient := do
  validateApiKey py apiKey strict
  let baseUrl := rstripSlash baseUrl
  httpx.asyncClient baseUrl [("Authorization", authorization apiKey), ("Content-Type", "application/json")]
  return { baseUrl, apiKey, maxRetries := max 0 maxRetries }

end DOInferenceClient

def Settings.client (py : Python) (httpx : Httpx) (settings : Settings) (maxRetries : ℤ) :
    Except Str DOInferenceClient :=
  DOInferenceClient.init py httpx settings.doInferenceBaseUrl settings.doInferenceApiKey maxRetries
    (!settings.shadowProxyAllowDummyKey)

def unsharedMarkers : List Str := ["change-me", "secret-here"].map String.toList

section Agreement

variable {py : Python} {settings : Settings} {key : Str}

lemma findMarker_eq_none {markers : List Str} :
    findMarker py markers key = none ↔ ∀ m ∈ markers, ¬ m <:+: py.lower key := by
  simp [findMarker]

lemma settings_markers : (∀ m ∈ Settings.dummyKeyMarkers, ¬ m <:+: py.lower key) ↔
    (∀ m ∈ DOInferenceClient.dummyKeyMarkers, ¬ m <:+: py.lower key) ∧
    ∀ m ∈ unsharedMarkers, ¬ m <:+: py.lower key := by
  have hperm : Settings.dummyKeyMarkers.Perm (DOInferenceClient.dummyKeyMarkers ++ unsharedMarkers) := by decide
  rw [← List.forall_mem_append]
  exact ⟨fun h m hm => h m (hperm.mem_iff.mpr hm), fun h m hm => h m (hperm.mem_iff.mp hm)⟩

lemma assertRuntimeReady_iff (hspaces : settings.rawStoreType = .spaces → settings.missingSpaces = []) :
    settings.assertRuntimeReady py = .ok () ↔ settings.shadowProxyAllowDummyKey = true ∨
      settings.doInferenceApiKey ≠ [] ∧ findMarker py Settings.dummyKeyMarkers settings.doInferenceApiKey = none ∧
        20 ≤ settings.doInferenceApiKey.length := by
  have hcomplete : ¬ (settings.rawStoreType = .spaces ∧ settings.missingSpaces ≠ []) := fun h => h.2 (hspaces h.1)
  simp only [Settings.assertRuntimeReady, Settings.minKeyLength, if_neg hcomplete]
  by_cases hallow : settings.shadowProxyAllowDummyKey = true
  · simp [hallow]
  by_cases hempty : settings.doInferenceApiKey = []
  · simp [hallow, hempty]
  cases hmarker : findMarker py Settings.dummyKeyMarkers settings.doInferenceApiKey with
  | some marker => simp [hallow, hempty]
  | none =>
    by_cases hshort : settings.doInferenceApiKey.length < 20
    · simp [hallow, hempty, hshort]
    · simp [hallow, hempty, hshort, not_lt.mp hshort]

lemma validateApiKey_iff {strict : Bool} : DOInferenceClient.validateApiKey py key strict = .ok () ↔
    key ≠ [] ∧ (strict = true → findMarker py DOInferenceClient.dummyKeyMarkers key = none ∧ 20 ≤ key.length) := by
  simp only [DOInferenceClient.validateApiKey, DOInferenceClient.minKeyLength]
  by_cases hempty : key = []
  · simp [hempty]
  cases strict with
  | false => simp [hempty]
  | true =>
    cases hmarker : findMarker py DOInferenceClient.dummyKeyMarkers key with
    | some marker => simp [hempty]
    | none =>
      by_cases hshort : key.length < 20
      · simp [hempty, hshort]
      · simp [hempty, hshort, not_lt.mp hshort]

lemma ascii_authorization : Ascii (DOInferenceClient.authorization key) ↔ Ascii key := by
  have hbearer : Ascii "Bearer ".toList := by decide
  constructor
  · exact fun h c hc => h c (List.mem_append_right _ hc)
  · exact fun h c hc => (List.mem_append.mp hc).elim (hbearer c) (h c)

lemma init_iff {httpx : Httpx} {baseUrl : Str} {maxRetries : ℤ} {strict : Bool}
    (hhttpx : httpx.Documented (DOInferenceClient.rstripSlash baseUrl)) :
    (∃ client, DOInferenceClient.init py httpx baseUrl key maxRetries strict = .ok client) ↔
      DOInferenceClient.validateApiKey py key strict = .ok () ∧ Ascii key := by
  have hheaders : httpx.asyncClient (DOInferenceClient.rstripSlash baseUrl) [("Authorization",
      DOInferenceClient.authorization key), ("Content-Type", "application/json")] = .ok () ↔ Ascii key := by
    have hnames : Ascii "Authorization" ∧ Ascii "Content-Type" ∧ Ascii "application/json" := by decide
    rw [hhttpx.asyncClient]
    simp only [List.forall_mem_cons, ascii_authorization, List.not_mem_nil, false_imp_iff, implies_true, and_true]
    exact ⟨fun h => h.1.2, fun h => ⟨⟨hnames.1, h⟩, hnames.2⟩⟩
  rw [← hheaders]
  simp only [DOInferenceClient.init, bind, Except.bind, pure, Except.pure]
  cases DOInferenceClient.validateApiKey py key strict with
  | error e => simp
  | ok u =>
    cases httpx.asyncClient (DOInferenceClient.rstripSlash baseUrl) [("Authorization",
      DOInferenceClient.authorization key), ("Content-Type", "application/json")] <;> simp

theorem key_checks_agree_iff (py : Python) (httpx : Httpx) (settings : Settings) (maxRetries : ℤ)
    (hspaces : settings.rawStoreType = .spaces → settings.missingSpaces = [])
    (hhttpx : httpx.Documented (DOInferenceClient.rstripSlash settings.doInferenceBaseUrl)) :
    (settings.assertRuntimeReady py = .ok () ↔ ∃ client, settings.client py httpx maxRetries = .ok client) ↔
    (settings.shadowProxyAllowDummyKey = true → settings.doInferenceApiKey ≠ [] ∧
      Ascii settings.doInferenceApiKey) ∧
      (settings.shadowProxyAllowDummyKey = false → 20 ≤ settings.doInferenceApiKey.length →
        (∀ m ∈ DOInferenceClient.dummyKeyMarkers, ¬ m <:+: py.lower settings.doInferenceApiKey) →
        (Ascii settings.doInferenceApiKey ↔ ∀ m ∈ unsharedMarkers,
          ¬ m <:+: py.lower settings.doInferenceApiKey)) := by
  rw [Settings.client, init_iff hhttpx, assertRuntimeReady_iff hspaces, validateApiKey_iff, findMarker_eq_none,
    findMarker_eq_none, settings_markers]
  cases settings.shadowProxyAllowDummyKey with
  | true => simp
  | false =>
    have hlong : 20 ≤ settings.doInferenceApiKey.length → settings.doInferenceApiKey ≠ [] := by
      intro hlength hempty
      simp [hempty] at hlength
    simp only [Bool.false_eq_true, false_or, Bool.not_false, true_imp_iff, false_imp_iff, true_and]
    tauto

def asciiHttpx : Httpx where
  asyncClient _ headers := if ∀ h ∈ headers, Ascii h.1 ∧ Ascii h.2 then .ok ()
    else .error "'ascii' codec can't encode character: ordinal not in range(128)"

lemma asciiHttpx_documented (baseUrl : Str) : asciiHttpx.Documented baseUrl where
  asyncClient headers := by
    unfold asciiHttpx
    dsimp only
    split_ifs with h
    · exact iff_of_true rfl h
    · exact iff_of_false (fun he => by cases he) h

def placeholderKey : Settings := { doInferenceApiKey := "please-change-me-2024-now" }

theorem key_checks_disagree : ¬ (placeholderKey.assertRuntimeReady demoPython = .ok () ↔
    ∃ client, placeholderKey.client demoPython asciiHttpx 2 = .ok client) := by
  have hclient : ∃ client, placeholderKey.client demoPython asciiHttpx 2 = .ok client := ⟨_, rfl⟩
  exact fun h => absurd (h.mpr hclient) (by decide)

theorem key_checks_agree_long :
    (Settings.assertRuntimeReady demoPython { doInferenceApiKey := List.replicate 40 'a' } = .ok () ↔
    ∃ client, Settings.client demoPython asciiHttpx { doInferenceApiKey := List.replicate 40 'a' } 2 =
    .ok client) :=
  (key_checks_agree_iff demoPython asciiHttpx { doInferenceApiKey := List.replicate 40 'a' } 2 (by simp)
    (asciiHttpx_documented _)).mpr (by decide)

end Agreement

end ShadowProxy

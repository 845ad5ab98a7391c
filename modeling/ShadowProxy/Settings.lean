import ShadowProxy.Json

/-! The YAML-driven application config, and the settings out of the environment. -/

namespace ShadowProxy

structure LLMEndpointConfig where
  modelId : Str
  timeoutS : PyFloat
  maxRetries : ℤ
  deriving DecidableEq

structure RouteConfig where
  primary : LLMEndpointConfig
  candidate : LLMEndpointConfig
  deriving DecidableEq

inductive Normalize where
  | none
  | lowercaseStrip
  deriving DecidableEq

structure EvaluatorConfig where
  requireJson : Bool := true
  compareKey : Str := "action"
  normalize : Normalize := .lowercaseStrip

inductive OverflowPolicy where
  | dropNew
  | dropOld
  deriving DecidableEq

/-- `InProcessDispatcher` refuses a capacity or a worker count below one. -/
structure DispatcherConfig where
  queueCapacity : ℕ := 10000
  workers : ℕ := 8
  overflowPolicy : OverflowPolicy := .dropNew
  queueCapacity_pos : 1 ≤ queueCapacity := by decide
  workers_pos : 1 ≤ workers := by decide

inductive OnFailure where
  | failOpen
  | failClosed
  deriving DecidableEq

/-- Durations are in microseconds. -/
structure StoreConfig where
  onFailure : OnFailure := .failOpen
  staleThreshold : ℤ := 600000000

structure AppConfig where
  routes : List (Str × RouteConfig)
  evaluator : EvaluatorConfig
  dispatcher : DispatcherConfig
  store : StoreConfig

inductive RawStoreType where
  | filesystem
  | spaces
  deriving DecidableEq

structure Settings where
  doInferenceApiKey : Str := []
  doInferenceBaseUrl : Str := "https://inference.do-ai.run/v1"
  databaseUrl : Str := "sqlite+aiosqlite:///./data/comparisons.db"
  rawStoreType : RawStoreType := .filesystem
  rawStoreFilesystemPath : Str := "./data/raw"
  doSpacesBucket : Str := []
  doSpacesKey : Str := []
  doSpacesSecret : Str := []
  configFile : Str := "./config/models.yaml"
  shadowProxyAllowDummyKey : Bool := false
  deriving DecidableEq

def AppConfig.route (config : AppConfig) (name : Str) : Option RouteConfig := config.routes.lookup name

end ShadowProxy

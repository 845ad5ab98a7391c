import Mathlib.Data.List.Sort
import ShadowProxy.Effects.Schedule
import ShadowProxy.Runs

/-! Schedules of the proxy in which the stores answer, but for the puts a script fails. -/

namespace ShadowProxy

open Effects SqlComparisonStore

variable {dep : Deployment}

structure Script (dep : Deployment) where
  reply : Except Exn ChatResponse
  draw : ℚ := 0
  put : Option PutFailure := none
  reply_legal : ∀ resp, reply = .ok resp → toChatResponse dep.py dep.pydantic resp.raw = .ok resp
  draw_mem : 0 ≤ draw ∧ draw < 1 := by decide

abbrev older (a b : ComparisonRow) : Prop := a.receivedAt.instant ≤ b.receivedAt.instant

namespace Script

def answer (a : Script dep) (k : Kind) (s : State) : (o : Op) → Except Exn o.Ret
  | .now => .ok s.clock
  | .perfCounter => .ok 0
  | .chatCompletions _ _ _ => a.reply
  | .rawPut requestId _ =>
    match a.put with
    | none => .ok (keyFor s.clock requestId)
    | some failure => .error (.rawStore failure)
  | .rawGet key =>
    match s.objects (dep.locate key) with
    | some (.payload doc) => .ok doc
    | _ => .error (.rawStore .unwritten)
  | .insertPending record => if s.row record.requestId = none then .ok () else .error .database
  | .markInProgress _ => .ok ()
  | .finalize _ _ => .ok ()
  | .get requestId => .ok (s.row requestId)
  | .findStale threshold limit => .ok ((staleIds s.clock threshold s.rows).take limit)
  | .findAllUnfinished limit => .ok (((unfinishedRows s.rows).insertionSort older |>.take limit).map rowId)
  | .sample => .ok ((s.procs k.replica).sampleRate, a.draw)
  | .enqueue requestId =>
    .ok (InProcessDispatcher.enqueue dep.config.dispatcher (s.procs k.replica).queue ⟨requestId, 0⟩).2
  | .count _ => .ok ()
  | .offer _ => .ok ()
  | .serve => .ok ()

instance : Std.Total older := ⟨fun _ _ => le_total _ _⟩

instance : IsTrans ComparisonRow older := ⟨fun _ _ _ => le_trans⟩

lemma findStale_take (now : DateTime) (threshold : ℤ) (limit : ℕ) (t : Rows) :
    FindStale now threshold limit t ((staleIds now threshold t).take limit) :=
  ⟨(List.take_sublist _ _).subperm, by simp⟩

lemma findAllUnfinished_sort (limit : ℕ) (t : Rows) :
    FindAllUnfinished limit t (((unfinishedRows t).insertionSort older |>.take limit).map rowId) :=
  ⟨_, List.perm_insertionSort older _, List.pairwise_insertionSort older _, rfl⟩

lemma legal_answer (a : Script dep) (k : Kind) (s : State) (o : Op) : legal dep k s o (a.answer k s o) := by
  cases o
  case rawPut =>
    dsimp only [answer]
    split <;> trivial
  case rawGet =>
    dsimp only [answer]
    split
    · rename_i h
      exact h
    · trivial
  case insertPending =>
    dsimp only [answer]
    split
    · rename_i h
      exact h
    · trivial
  case findStale => exact findStale_take _ _ _ _
  case findAllUnfinished => exact findAllUnfinished_sort _ _
  case sample => exact ⟨rfl, a.draw_mem⟩
  case chatCompletions =>
    dsimp only [answer]
    cases h : a.reply with
    | ok resp => exact a.reply_legal resp h
    | error e => trivial
  all_goals trivial

end Script

instance (s : State) (k : Kind) : Decidable (canSpawn dep s k) := by
  unfold canSpawn
  cases k.task <;> infer_instance

instance (s : State) (e : Env) : Decidable (canEnv s e) := by
  unfold canEnv
  cases e <;> infer_instance

abbrev driver (dep : Deployment) : Driver (system dep) where
  Script := Script dep
  answer := Script.answer
  legal := Script.legal_answer
  canSpawn := fun s k => inferInstanceAs (Decidable (canSpawn dep s k))
  canEnv := fun s e => inferInstanceAs (Decidable (canEnv s e))

def buy : Str := "\x7b\"action\": \"buy\"\x7d"

def demoPython : Python where
  loads s := if s = buy then .ok (.obj [("action", .str "buy")])
    else .error (.jsonDecodeError "Expecting value")
  str
    | .str s => s
    | _ => "None"
  repr
    | .str s => "'".toList ++ s ++ "'".toList
    | _ => "None"
  lower s := s

def demoPydantic : Pydantic where
  int
    | .int n => some n
    | _ => none
  float
    | .float x => some x
    | _ => none
  int_int _ := rfl
  float_float _ := rfl

def demoRoute : RouteConfig where
  primary := { modelId := "primary-model", timeoutS := ⟨"30.0"⟩, maxRetries := 2 }
  candidate := { modelId := "candidate-model", timeoutS := ⟨"30.0"⟩, maxRetries := 2 }

def installed (config : AppConfig) (rawBackend : Option RawBackend)
    (default_route : config.route "default" = some demoRoute) : Deployment where
  config := config
  defaultRoute := demoRoute
  default_route := default_route
  rawBackend := rawBackend
  py := demoPython
  pydantic := demoPydantic
  requestHash := fun _ => "hash"

def demoConfig : AppConfig :=
  { routes := [("default", demoRoute)], evaluator := {}, dispatcher := {}, store := {} }

lemma demoConfig_route : demoConfig.route "default" = some demoRoute := by decide

abbrev demo (rawBackend : Option RawBackend) : Deployment := installed demoConfig rawBackend demoConfig_route

abbrev disk : Deployment := demo (some (.filesystem []))

def demoReply (content : Str) : ChatResponse where
  id := "reply"
  model := "model"
  content := content
  finishReason := none
  promptTokens := none
  completionTokens := none
  totalTokens := none
  raw := .obj [("id", .str "reply"), ("model", .str "model"),
    ("choices", .arr [.obj [("message", .obj [("content", .str content)])]])]

lemma demoReply_legal (content : Str) :
    toChatResponse demoPython demoPydantic (demoReply content).raw = .ok (demoReply content) := by
  cases content <;> rfl

def demoChat (requestId content : Str) : ChatCall where
  body := {
    messages := [⟨.user, content⟩]
    temperature := none
    maxCompletionTokens := none
    metadata := none
    route := "default"
    messages_ne_nil := by simp
    maxCompletionTokens_mem := by simp }
  xRequestId := some (requestId.map fun c => Fin.ofNat 256 c.toNat)
  newRequestId := []

def demoClock (day hour : ℕ) (hd : 1 ≤ day ∧ day ≤ 31 := by decide) (hh : hour ≤ 23 := by decide) : DateTime where
  year := 2026
  month := 7
  day := day
  hour := hour
  minute := 0
  second := 0
  microsecond := 0
  year_mem := by decide
  month_mem := by decide
  day_mem := hd
  hour_le := hh
  minute_le := by decide
  second_le := by decide
  microsecond_le := by decide

def morning : DateTime := demoClock 16 9

def anHourLater : DateTime := demoClock 16 10

def nextDay : DateTime := demoClock 17 0

abbrev DemoCommand (rawBackend : Option RawBackend) := Command (driver (demo rawBackend))

section Commands

variable {config : AppConfig} {rawBackend : Option RawBackend} {hroute : config.route "default" = some demoRoute}

def replies (content : Str) : Script (installed config rawBackend hroute) where
  reply := .ok (demoReply content)
  reply_legal := fun _ h => Except.ok.inj h ▸ demoReply_legal content

def timesOut : Script (installed config rawBackend hroute) where
  reply := .error (.llmTimeout "timed out")
  reply_legal := fun _ h => nomatch h

def Script.failing (a : Script (installed config rawBackend hroute)) (failure : PutFailure) :
    Script (installed config rawBackend hroute) :=
  { a with put := some failure }

def acts (n t : ℕ) (a : Script (installed config rawBackend hroute)) :
    List (Command (driver (installed config rawBackend hroute))) :=
  List.replicate n (.act t a)

def begin (t : ℕ) (task : Task) : List (Command (driver (installed config rawBackend hroute))) :=
  [.spawn t ⟨0, task⟩]

def boot (t : ℕ) : List (Command (driver (installed config rawBackend hroute))) :=
  begin t .startup ++ acts 2 t timesOut ++ [.exit t]

def tick (now : DateTime) : List (Command (driver (installed config rawBackend hroute))) := [.env (.tick now)]

end Commands

def spawned (t : ℕ) (P : Task → Bool) : ProxyLabel dep → Bool
  | .spawn t' k => t' = t && P k.task
  | _ => false

def acted (t : ℕ) (P : Ev → Bool) : ProxyLabel dep → Bool
  | .act t' e => t' = t && P e
  | _ => false

lemma any_spawned {L : List (ProxyLabel dep)} {t : ℕ} {P : Task → Bool} :
    L.any (spawned t P) = true ↔ ∃ task, Started L t task ∧ P task = true := by
  simp only [List.any_eq_true]
  constructor
  · rintro ⟨l, hl, hP⟩
    cases l <;> simp only [spawned, Bool.and_eq_true, decide_eq_true_eq, Bool.false_eq_true] at hP
    obtain ⟨rfl, hP⟩ := hP
    exact ⟨_, ⟨_, hl⟩, hP⟩
  · rintro ⟨task, ⟨x, hx⟩, hP⟩
    exact ⟨_, hx, by simp [spawned, hP]⟩

lemma any_acted {L : List (ProxyLabel dep)} {t : ℕ} {P : Ev → Bool} :
    L.any (acted t P) = true ↔ ∃ e : Ev, Label.act t e ∈ L ∧ P e = true := by
  simp only [List.any_eq_true]
  constructor
  · rintro ⟨l, hl, hP⟩
    cases l <;> simp only [acted, Bool.and_eq_true, decide_eq_true_eq, Bool.false_eq_true] at hP
    obtain ⟨rfl, hP⟩ := hP
    exact ⟨_, hl, hP⟩
  · rintro ⟨e, he, hP⟩
    exact ⟨_, he, by simp [acted, hP]⟩

def isChat (r : Str) : Task → Bool
  | .chat c => c.requestId = r
  | _ => false

def isHandle (r : Str) : Task → Bool
  | .handle job => job.requestId = r
  | _ => false

def isSweep : Task → Bool
  | .sweep => true
  | _ => false

def drew (sampledIn : Bool) : Ev → Bool
  | ⟨.sample, .ok (rate, draw)⟩ => decide (draw < rate) = sampledIn
  | _ => false

def asksCandidate : Ev → Bool
  | ⟨.chatCompletions .candidate _ _, _⟩ => true
  | _ => false

lemma started_chat {L : List (ProxyLabel dep)} {t : ℕ} {r : Str} :
    L.any (spawned t (isChat r)) = true ↔ ∃ c, Started L t (.chat c) ∧ c.requestId = r := by
  rw [any_spawned]
  constructor
  · rintro ⟨task, hs, hP⟩
    cases task <;> simp only [isChat, decide_eq_true_eq, Bool.false_eq_true] at hP
    exact ⟨_, hs, hP⟩
  · rintro ⟨c, hs, hr⟩
    exact ⟨_, hs, by simp [isChat, hr]⟩

lemma started_handle {L : List (ProxyLabel dep)} {t : ℕ} {r : Str} :
    L.any (spawned t (isHandle r)) = true ↔ ∃ job, Started L t (.handle job) ∧ job.requestId = r := by
  rw [any_spawned]
  constructor
  · rintro ⟨task, hs, hP⟩
    cases task <;> simp only [isHandle, decide_eq_true_eq, Bool.false_eq_true] at hP
    exact ⟨_, hs, hP⟩
  · rintro ⟨job, hs, hr⟩
    exact ⟨_, hs, by simp [isHandle, hr]⟩

lemma started_sweep {L : List (ProxyLabel dep)} {t : ℕ} (h : L.any (spawned t isSweep) = true) :
    Started L t .sweep := by
  obtain ⟨task, hst, hP⟩ := any_spawned.mp h
  cases task <;> first | exact hst | cases hP

lemma acted_drew {L : List (ProxyLabel dep)} {t : ℕ} {b : Bool} :
    L.any (acted t (drew b)) = true ↔
      ∃ rate draw, Acted L t .sample (.ok (rate, draw)) ∧ decide (draw < rate) = b := by
  rw [any_acted]
  constructor
  · rintro ⟨e, he, hP⟩
    unfold drew at hP
    split at hP
    · exact ⟨_, _, he, of_decide_eq_true hP⟩
    · cases hP
  · rintro ⟨rate, draw, ha, hd⟩
    exact ⟨_, ha, by simp [drew, hd]⟩

lemma acted_asksCandidate {L : List (ProxyLabel dep)} {t : ℕ} (h : L.any (acted t asksCandidate) = true) :
    ∃ req timeoutS res, Acted L t (.chatCompletions .candidate req timeoutS) res := by
  obtain ⟨e, he, hP⟩ := any_acted.mp h
  unfold asksCandidate at hP
  split at hP
  · exact ⟨_, _, _, he⟩
  · cases hP

end ShadowProxy

import ShadowProxy.Data.PurePath
import ShadowProxy.Settings

/-! Where the settings come from, and what their relative paths are relative to. -/

namespace ShadowProxy

open Data

inductive StartupError where
  | runtimeError (message : Str)
  | indexError
  | validationError
  deriving DecidableEq

/-- What the processes on a machine share: its files, the environment, and where `settings.py` is. -/
structure Machine where
  environ : Str → Option Str
  isFile : PurePath → Bool
  isDir : PurePath → Bool
  /-- `Path.resolve` of an absolute path -/
  realpath : PurePath → PurePath
  /-- `os.path.expanduser` -/
  expandHome : Str → Str
  /-- `Path(__file__).resolve()` -/
  moduleFile : PurePath
  moduleFile_absolute : moduleFile.isAbsolute = true
  /-- `Settings(_env_file=…)` -/
  load : Option Str → Except StartupError Settings

namespace Machine

variable (m : Machine) (cwd : PurePath)

def resolve (p : PurePath) : PurePath := m.realpath (cwd.join p)

def expanduser (p : PurePath) : Except StartupError PurePath :=
  match p.root, p.parts with
  | [], ('~' :: user) :: rest =>
    let home := m.expandHome ('~' :: user)
    if home.head? = some '~' then .error (.runtimeError "Could not determine home directory.")
    else .ok ⟨(PurePath.parse home).root, (PurePath.parse home).parts ++ rest⟩
  | _, _ => .ok p

def overridden : Except StartupError (Option PurePath) :=
  match m.environ "SHADOW_PROXY_ENV_FILE" with
  | some (c :: override) => do
    let p ← m.expanduser (PurePath.parse (c :: override))
    return if m.isFile (m.resolve cwd p) then some (m.resolve cwd p) else none
  | _ => return none

/-- The walk up: it ends at a `.env`, or without one at the first `pyproject.toml`. -/
def walk : List PurePath → Option PurePath
  | [] => none
  | dir :: dirs =>
    if m.isFile (dir.child ".env") then some (dir.child ".env")
    else if m.isFile (dir.child "pyproject.toml") then none
    else walk dirs

def upward : List PurePath := m.resolve cwd cwd :: (m.resolve cwd cwd).parents

def moduleRoot : Except StartupError PurePath :=
  match m.moduleFile.parents with
  | _ :: _ :: root :: _ => .ok root
  | _ => .error .indexError

def findEnvFile : Except StartupError (Option PurePath) := do
  match ← m.overridden cwd with
  | some p => return some p
  | none =>
    match m.walk (m.upward cwd) with
    | some p => return some p
    | none =>
      let root ← m.moduleRoot
      return if m.isFile (root.child ".env") then some (root.child ".env") else none

/-- The settings, with `_LOADED_ENV_FILE` as it is left. -/
def getSettings : Except StartupError (Option PurePath × Settings) := do
  let envFile ← m.findEnvFile cwd
  let settings ← m.load (envFile.map PurePath.str)
  return (envFile, settings)

section Resolvers

variable (loadedEnvFile : Option PurePath) (settings : Settings)

def anchorDir : PurePath :=
  match loadedEnvFile with
  | some envFile => envFile.parent
  | none =>
    let here := m.resolve cwd cwd
    if m.isFile (here.child "pyproject.toml") || m.isDir (here.child "config") then here
    else if m.isDir (PurePath.parse "/app") then PurePath.parse "/app"
    else m.moduleFile.parent

def resolveRelative (raw : Str) : Except StartupError PurePath := do
  let p ← m.expanduser (PurePath.parse raw)
  return m.resolve cwd (if p.isAbsolute then p else (m.anchorDir cwd loadedEnvFile).join p)

def resolvedConfigFile : Except StartupError PurePath := m.resolveRelative cwd loadedEnvFile settings.configFile

def resolvedRawStorePath : Except StartupError PurePath :=
  m.resolveRelative cwd loadedEnvFile settings.rawStoreFilesystemPath

def sqliteSchemes : List Str := ["sqlite+aiosqlite:///", "sqlite:///"].map String.toList

def resolvedDatabaseUrl : Except StartupError Str :=
  match sqliteSchemes.find? (· <+: settings.databaseUrl) with
  | some scheme => do
    let p ← m.resolveRelative cwd loadedEnvFile (settings.databaseUrl.drop scheme.length)
    return scheme ++ p.str
  | none => return settings.databaseUrl

end Resolvers

def startupPaths : Except StartupError
    (Except StartupError PurePath × Except StartupError PurePath × Except StartupError Str) := do
  let (loadedEnvFile, settings) ← m.getSettings cwd
  return (m.resolvedConfigFile cwd loadedEnvFile settings, m.resolvedRawStorePath cwd loadedEnvFile settings,
    m.resolvedDatabaseUrl cwd loadedEnvFile settings)

def walked : List PurePath → List PurePath
  | [] => []
  | dir :: dirs => dir :: if m.isFile (dir.child "pyproject.toml") then [] else walked dirs

/-- The walk from a working directory meets no `.env` but that of one directory. -/
def MeetsOnly (root : PurePath) : Prop :=
  ∀ dir ∈ m.walked (m.upward cwd), m.isFile (dir.child ".env") = true → dir = root

section TwoRuns

variable {m} {root cwd cwd' : PurePath}

lemma walk_cases {dirs : List PurePath}
    (h : ∀ dir ∈ m.walked dirs, m.isFile (dir.child ".env") = true → dir = root) :
    m.walk dirs = none ∨ m.walk dirs = some (root.child ".env") := by
  induction dirs with
  | nil => exact .inl rfl
  | cons dir dirs ih =>
    rw [walk]
    split
    · rename_i henv
      rw [h dir List.mem_cons_self henv]
      exact .inr rfl
    split
    · exact .inl rfl
    · rename_i hproject
      refine ih fun d hd => h d ?_
      rw [walked, if_neg hproject]
      exact List.mem_cons_of_mem _ hd

lemma findEnvFile_eq (hroot : m.moduleRoot = .ok root) (henv : m.isFile (root.child ".env") = true)
    (hoverride : m.environ "SHADOW_PROXY_ENV_FILE" = none) (hwalk : m.MeetsOnly cwd root) :
    m.findEnvFile cwd = .ok (some (root.child ".env")) := by
  have hnone : m.overridden cwd = .ok none := by
    rw [overridden, hoverride]
    rfl
  rw [findEnvFile, hnone, hroot]
  rcases walk_cases hwalk with h | h
  · simp only [bind, Except.bind, pure, Except.pure, h, if_pos henv]
  · simp only [bind, Except.bind, pure, Except.pure, h]

lemma moduleRoot_isAbsolute (hroot : m.moduleRoot = .ok root) : root.isAbsolute = true := by
  refine PurePath.isAbsolute_of_mem_parents ?_ m.moduleFile_absolute
  rw [moduleRoot] at hroot
  split at hroot
  · rename_i hparents
    obtain rfl := Except.ok.inj hroot
    simp [hparents]
  · cases hroot

lemma resolveRelative_eq {envFile : PurePath} (hanchor : envFile.parent.isAbsolute = true) (raw : Str) :
    m.resolveRelative cwd (some envFile) raw = m.resolveRelative cwd' (some envFile) raw := by
  unfold resolveRelative
  cases m.expanduser (PurePath.parse raw) with
  | error e => rfl
  | ok p =>
    have habsolute : (if p.isAbsolute then p else envFile.parent.join p).isAbsolute = true := by
      split
      · assumption
      · exact PurePath.isAbsolute_join hanchor p
    have hresolve : ∀ cwd, m.resolve cwd (if p.isAbsolute then p else envFile.parent.join p) =
        m.realpath (if p.isAbsolute then p else envFile.parent.join p) := fun cwd => by
      rw [resolve, PurePath.join_of_isAbsolute cwd habsolute]
    exact congrArg Except.ok ((hresolve cwd).trans (hresolve cwd').symm)

lemma resolvedDatabaseUrl_eq {envFile : PurePath} (hanchor : envFile.parent.isAbsolute = true)
    (settings : Settings) :
    m.resolvedDatabaseUrl cwd (some envFile) settings = m.resolvedDatabaseUrl cwd' (some envFile) settings := by
  unfold resolvedDatabaseUrl
  split
  · rw [resolveRelative_eq hanchor]
  · rfl

theorem startupPaths_eq (hroot : m.moduleRoot = .ok root) (henv : m.isFile (root.child ".env") = true)
    (hoverride : m.environ "SHADOW_PROXY_ENV_FILE" = none) (hwalk : m.MeetsOnly cwd root)
    (hwalk' : m.MeetsOnly cwd' root) : m.startupPaths cwd = m.startupPaths cwd' := by
  have hanchor : (root.child ".env").parent.isAbsolute = true := by
    rw [PurePath.parent_child]
    exact moduleRoot_isAbsolute hroot
  rw [startupPaths, startupPaths, getSettings, getSettings, findEnvFile_eq hroot henv hoverride hwalk,
    findEnvFile_eq hroot henv hoverride hwalk']
  simp only [Option.map_some, bind, Except.bind, pure, Except.pure]
  cases m.load (some (root.child ".env").str) with
  | error e => rfl
  | ok settings =>
    simp only [resolvedConfigFile, resolvedRawStorePath, Except.ok.injEq, Prod.mk.injEq]
    exact ⟨resolveRelative_eq hanchor _, resolveRelative_eq hanchor _, resolvedDatabaseUrl_eq hanchor settings⟩

end TwoRuns

def proxyFiles : List PurePath :=
  ["/srv/proxy/.env", "/srv/proxy/pyproject.toml"].map fun s => PurePath.parse s.toList

def checkout : Machine where
  environ _ := none
  isFile p := p ∈ proxyFiles
  isDir _ := false
  realpath p := p
  expandHome s := s
  moduleFile := PurePath.parse "/srv/proxy/src/shadow_proxy/settings.py"
  moduleFile_absolute := by decide
  load _ := .ok {}

theorem startupPaths_eq_checkout :
    checkout.startupPaths (PurePath.parse "/srv/proxy/src") = checkout.startupPaths (PurePath.parse "/tmp") := by
  have hroot : checkout.moduleRoot = .ok (PurePath.parse "/srv/proxy") := by decide
  have hbelow : checkout.MeetsOnly (PurePath.parse "/srv/proxy/src") (PurePath.parse "/srv/proxy") := by
    rw [MeetsOnly]
    decide
  have houtside : checkout.MeetsOnly (PurePath.parse "/tmp") (PurePath.parse "/srv/proxy") := by
    rw [MeetsOnly]
    decide
  exact startupPaths_eq hroot (by decide) rfl hbelow houtside

end Machine

end ShadowProxy

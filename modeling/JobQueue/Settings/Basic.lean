import JobQueue.Config
import JobQueue.Settings.Path
import JobQueue.Settings.Tree

/-! # Settings

The settings of a host program come from variables whose names start with `TASKLANE_`, in any
case; the rest is the name of the setting. What is not set keeps its default, other names are
ignored; of two variables for one setting the later counts.

* `Settings.read`: a variable that does not fit its setting makes the settings invalid; settings
  that are read are checked as a runner's configuration.
* `Settings.databaseFile`, `Settings.databaseUrl`: where the database is. -/

namespace JobQueue

/-- How log lines look. -/
inductive LogFormat where
  | pretty
  | json
deriving DecidableEq, Repr

def LogFormat.name : LogFormat → String
  | .pretty => "pretty"
  | .json => "json"

/-- The format of a name in any case. -/
def LogFormat.ofName? (s : String) : Option LogFormat :=
  [LogFormat.pretty, .json].find? fun f => f.name == SettingValue.lower s

/-- **The settings.** -/
structure Settings where
  databasePath : String
  maxConnections : Nat
  queues : List String
  workerCount : Nat
  pollMillis : Nat
  baseRetryMillis : Nat
  staleMillis : Nat
  cleanupMillis : Nat
  retentionMillis : Nat
  storeTimeoutMillis : Nat
  maxAttempts : Int
  shutdownMillis : Nat
  logFormat : LogFormat
  logDirectory : Option String
deriving DecidableEq, Repr

/-- Why there are no settings. -/
inductive SettingsError where
  /-- A variable does not fit its setting. -/
  | invalid
  /-- The path of the database names a variable that is not set. -/
  | unexpandable (path : String)
  | config (fault : ConfigFault)
  /-- The variables cannot be put together. -/
  | broken (cause : Breakdown)
deriving DecidableEq, Repr

def SettingsError.message : SettingsError → String
  | .invalid => "invalid TASKLANE_* settings"
  | .unexpandable path => "cannot expand db path " ++ path
  | .config fault => "Configuration error: " ++ fault.message
  | .broken cause => cause.message

namespace Settings

/-- The settings without any variable. -/
def standard : Settings where
  databasePath := "~/.tasklane/jobs.db"
  maxConnections := 8
  queues := ["default"]
  workerCount := 2
  pollMillis := 1000
  baseRetryMillis := 10000
  staleMillis := 300000
  cleanupMillis := 60000
  retentionMillis := 604800000
  storeTimeoutMillis := 5000
  maxAttempts := 3
  shutdownMillis := 30000
  logFormat := .pretty
  logDirectory := none

/-- The configuration of the runner. -/
def runnerConfig (s : Settings) : RunnerConfig where
  workerCount := s.workerCount
  pollInterval := .ofMillis s.pollMillis
  baseRetryDelay := .ofMillis s.baseRetryMillis
  staleThreshold := .ofMillis s.staleMillis
  cleanupInterval := .ofMillis s.cleanupMillis
  retention := .ofMillis s.retentionMillis
  storeTimeout := .ofMillis s.storeTimeoutMillis
  defaultMaxAttempts := s.maxAttempts

/-- How long a shutdown may take. -/
def shutdownTimeout (s : Settings) : Duration := .ofMillis s.shutdownMillis

/-! ### Reading -/

/-- The start of the names of variables, in lower case. -/
def namePrefix : List Char := "tasklane_".toList

/-- A letter in lower case. The Kelvin sign is the one letter outside ASCII whose lower case is an
ASCII letter. -/
def lowerChar (c : Char) : Char := if c.toNat = 0x212A then 'k' else c.toLower

/-- The setting that a variable is for. -/
def settingName? (name : String) : Option String :=
  let cs := name.toList.map lowerChar
  if namePrefix.isPrefixOf cs then some (String.ofList (cs.drop namePrefix.length)) else none

/-- The variables put together. -/
def gather (vars : Environment) : Except Breakdown SettingTree :=
  vars.foldlM
    (fun tree v =>
      match settingName? v.1 with
      | none => .ok tree
      | some name =>
        let ⟨outer, steps⟩ := SettingName.ofText name
        SettingTree.put (.ofText (name == "queues") v.2) (.member outer :: steps) tree)
    (.table [])

/-- A setting that was given, or its default. -/
def field {α : Type} (tree : SettingTree) (setting : String) (standard : α)
    (read : SettingTree → Option α) : Except SettingsError α :=
  match tree.member? setting with
  | none => .ok standard
  | some part =>
    match read part with
    | some a => .ok a
    | none => .error .invalid

/-- A natural number of 64 bits. -/
def natField (tree : SettingTree) (setting : String) (standard : Nat) : Except SettingsError Nat :=
  field tree setting standard fun part =>
    part.value?.bind (SettingValue.asNat? 18446744073709551615)

/-- A text. -/
def textOf? (tree : SettingTree) : Option String := tree.value?.map SettingValue.asText

/-- The log format of a text, or of a table with nothing but a part of that name. -/
def formatOf? : SettingTree → Option LogFormat
  | .value (.text s) => LogFormat.ofName? s
  | .table [(name, _)] => LogFormat.ofName? name
  | _ => none

/-- The settings that a tree describes. -/
def ofTree (tree : SettingTree) : Except SettingsError Settings := do
  let d := standard
  return {
    databasePath := ← field tree "db_path" d.databasePath textOf?
    maxConnections := ← field tree "max_connections" d.maxConnections fun part =>
      part.value?.bind (SettingValue.asNat? 4294967295)
    queues := ← field tree "queues" d.queues SettingTree.texts?
    workerCount := ← natField tree "worker_count" d.workerCount
    pollMillis := ← natField tree "poll_interval_ms" d.pollMillis
    baseRetryMillis := ← natField tree "base_retry_delay_ms" d.baseRetryMillis
    staleMillis := ← natField tree "stale_threshold_ms" d.staleMillis
    cleanupMillis := ← natField tree "cleanup_interval_ms" d.cleanupMillis
    retentionMillis := ← natField tree "retention_ms" d.retentionMillis
    storeTimeoutMillis := ← natField tree "store_timeout_ms" d.storeTimeoutMillis
    maxAttempts := ← field tree "max_attempts" d.maxAttempts fun part =>
      part.value?.bind SettingValue.asInt32?
    shutdownMillis := ← natField tree "shutdown_timeout_ms" d.shutdownMillis
    logFormat := ← field tree "log_format" d.logFormat formatOf?
    logDirectory := ← field tree "log_dir" d.logDirectory fun part => (textOf? part).map some }

/-- **The settings of the variables**, checked. -/
def read (vars : Environment) : Except SettingsError Settings := do
  let tree ← (gather vars).mapError SettingsError.broken
  let settings ← ofTree tree
  match settings.runnerConfig.check with
  | .ok () => return settings
  | .error fault => throw (.config fault)

/-! ### The database -/

/-- The file of the database. -/
def databaseFile (s : Settings) (env : Environment) : Except SettingsError String :=
  match Path.expand env s.databasePath with
  | some path => .ok path
  | none => .error (.unexpandable s.databasePath)

def databaseUrl (s : Settings) (env : Environment) : Except SettingsError String :=
  (s.databaseFile env).map ("sqlite://" ++ ·)

end Settings

end JobQueue

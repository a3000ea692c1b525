import JobQueue.Error
import JobQueue.Duration

/-! # The configuration of a runner

* `RunnerConfig.check`: the first fault of a configuration, in the order of `ConfigFault`.
* `RunnerConfig.handlerTimeout?`: four fifths of the stale threshold, so that a handler has to end
  before its job counts as abandoned; there is none when four times the threshold is no duration. -/

namespace JobQueue

/-- **How a runner works.** -/
structure RunnerConfig where
  /-- Worker loops for each queue. -/
  workerCount : Nat
  /-- The time between two polls of a worker loop. -/
  pollInterval : Duration
  /-- The delay after a first failed attempt. -/
  baseRetryDelay : Duration
  /-- The age from which a claim counts as abandoned. -/
  staleThreshold : Duration
  /-- The time between two cleanup passes. -/
  cleanupInterval : Duration
  /-- How long jobs are kept after their end. -/
  retention : Duration
  /-- The limit for one call of the store. -/
  storeTimeout : Duration
  /-- The attempts of a job whose request does not say. -/
  defaultMaxAttempts : Int
deriving DecidableEq, Repr

/-- The settings that must not be zero. -/
inductive ConfigDuration where
  | pollInterval | staleThreshold | cleanupInterval | retention | storeTimeout
deriving DecidableEq, Repr

/-- What is wrong with a configuration. -/
inductive ConfigFault where
  | noWorkers
  | noAttempts
  | zero (setting : ConfigDuration)
deriving DecidableEq, Repr

namespace ConfigDuration

/-- The order in which they are checked. -/
def all : List ConfigDuration :=
  [.pollInterval, .staleThreshold, .cleanupInterval, .retention, .storeTimeout]

def name : ConfigDuration → String
  | .pollInterval => "poll_interval"
  | .staleThreshold => "stale_threshold"
  | .cleanupInterval => "cleanup_interval"
  | .retention => "retention"
  | .storeTimeout => "store_timeout"

def value (config : RunnerConfig) : ConfigDuration → Duration
  | .pollInterval => config.pollInterval
  | .staleThreshold => config.staleThreshold
  | .cleanupInterval => config.cleanupInterval
  | .retention => config.retention
  | .storeTimeout => config.storeTimeout

end ConfigDuration

namespace ConfigFault

def message : ConfigFault → String
  | .noWorkers => "worker_count must be at least 1"
  | .noAttempts => "default_max_attempts must be at least 1"
  | .zero setting => setting.name ++ " must be non-zero"

def toError (fault : ConfigFault) : JobError := .config fault.message

end ConfigFault

namespace RunnerConfig

/-- The usual configuration. -/
def standard : RunnerConfig where
  workerCount := 2
  pollInterval := .ofSecs 1
  baseRetryDelay := .ofSecs 10
  staleThreshold := .ofSecs 300
  cleanupInterval := .ofSecs 60
  retention := .ofSecs 604800
  storeTimeout := .ofSecs 5
  defaultMaxAttempts := 3

/-- **The first fault**, if any. -/
def check (config : RunnerConfig) : Except ConfigFault Unit :=
  if config.workerCount = 0 then .error .noWorkers
  else if config.defaultMaxAttempts < 1 then .error .noAttempts
  else match ConfigDuration.all.find? fun setting => (setting.value config).isZero with
    | some setting => .error (.zero setting)
    | none => .ok ()

/-- **The time a handler has.** -/
def handlerTimeout? (config : RunnerConfig) : Option Duration :=
  (config.staleThreshold.scale? 4).map (·.part 5)

/-- The time a handler has, or the breakdown in computing it. -/
def handlerTimeout (config : RunnerConfig) : Except Breakdown Duration :=
  match config.handlerTimeout? with
  | some limit => .ok limit
  | none => .error .multiple

end RunnerConfig

end JobQueue

import JobQueue.Config
import JobQueue.InFlight
import JobQueue.Job.Basic
import JobQueue.QueueStats

/-! # Runners

A runner serves the queues that are declared before its start, with `workerCount` worker loops each
and one cleanup loop. It starts once; the first stop after that ends the loops.

* `start`: gives the worker loops to be run; `loops` lists them.
* `stop`: gives whether there are loops to end.
* `start_of_started`, `stop_stop`: a second start is refused, a second stop finds nothing to do. -/

namespace JobQueue

/-- **A runner.** -/
structure Runner where
  id : WorkerId
  config : RunnerConfig
  /-- The declared queues, in order of declaration. -/
  queues : List QueueName
  started : Bool
  /-- The loops were started and not yet told to end. -/
  active : Bool
deriving DecidableEq, Repr

/-- The place of a worker loop: its queue, and its number among the loops of the queue. -/
structure Slot where
  queue : QueueName
  number : Nat
deriving DecidableEq, Repr

/-- Whether loops can be run where a start is called. If not, the reason is as the runtime words it. -/
inductive Runtime where
  | current
  | missing (reason : String)
deriving DecidableEq, Repr

/-- **An overview** of a runner. -/
structure RunnerStats where
  workerId : WorkerId
  activeJobs : List JobId
  queues : List QueueStats
deriving DecidableEq, Repr

namespace Runner

/-- A runner that was not started; its configuration must have no fault. -/
def create (id : WorkerId) (config : RunnerConfig) : Except JobError Runner :=
  match config.check with
  | .error fault => .error fault.toError
  | .ok () => .ok ⟨id, config, [], false, false⟩

/-- **A queue is declared.** After the start nothing changes, and a second time neither. -/
def addQueue (runner : Runner) (queue : QueueName) : Runner :=
  if runner.started ∨ queue ∈ runner.queues then runner
  else { runner with queues := runner.queues ++ [queue] }

/-- The worker loops, by queue and number. -/
def loops (runner : Runner) : List Slot :=
  runner.queues.flatMap fun queue => (List.range runner.config.workerCount).map (Slot.mk queue)

/-- The worker id of a loop. -/
def workerId (runner : Runner) (slot : Slot) : WorkerId :=
  runner.id ++ ":" ++ slot.queue ++ ":" ++ String.ofList (Decimal.digits slot.number)

/-- **The start.** The first success gives the loops. A worker loop that cannot be built ends the
start, which counts all the same. -/
def start (runner : Runner) : Runtime → Except JobError (List Slot) × Runner
  | .missing reason => (.error (.internal ("start requires a Tokio runtime: " ++ reason)), runner)
  | .current =>
    if runner.started then (.error .alreadyStarted, runner)
    else if runner.loops ≠ [] ∧ runner.config.handlerTimeout? = none then
      (.error (.breakdown .multiple), { runner with started := true })
    else (.ok runner.loops, { runner with started := true, active := true })

/-- **The stop**: whether there are loops to end. -/
def stop (runner : Runner) : Bool × Runner := (runner.active, { runner with active := false })

def stats (runner : Runner) (inFlight : InFlight) (queues : List QueueStats) : RunnerStats :=
  ⟨runner.id, inFlight.ids, queues⟩

theorem addQueue_of_started {runner : Runner} (queue : QueueName) (h : runner.started = true) :
    runner.addQueue queue = runner := by
  simp [addQueue, h]

theorem start_of_started {runner : Runner} (h : runner.started = true) :
    runner.start .current = (.error .alreadyStarted, runner) := by
  simp [start, h]

theorem stop_stop (runner : Runner) : runner.stop.2.stop = (false, runner.stop.2) := by
  simp [stop]

end Runner

end JobQueue

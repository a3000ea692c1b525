import JobQueue.Handler
import JobQueue.Json.Basic
import JobQueue.Request.Basic
import JobQueue.Runner
import JobQueue.Simulation.Fault

/-! # Commands

What a host program or a handler can ask of a running system at once, and the answers. -/

namespace JobQueue

/-- To whom a task belongs: to the runner, or to those who work without it. -/
inductive Party where
  | direct
  | runner
deriving DecidableEq, Repr

/-- **A command.** -/
inductive Command where
  | now
  | setClock (time : Int)
  | advanceClock (d : Duration)
  | enqueue (request : Request)
  /-- A call of the store; it waits as long as the store does. -/
  | call (call : Call)
  /-- A call of the store with the runner's limit. -/
  | boundedCall (call : Call)
  /-- The overview of the runner. -/
  | overview
  /-- A job of a store in memory, whatever its state. -/
  | peek (id : JobId)
  /-- All jobs that ever entered and are still there. -/
  | jobs
  /-- The ids of the jobs that are worked on outside the runner. -/
  | inFlight
  /-- The calls of the store since they were last forgotten. -/
  | calls
  | forgetCalls
  /-- The log of the handlers since it was last forgotten. -/
  | log
  | forgetLog
  | inject (fault : StoreFault)
  /-- From now on these calls and no others are never answered. -/
  | stall (methods : List Method)
  | migrate
  | schemaVersion
  | schema
  /-- The database is opened anew. -/
  | reopen
  /-- So many workers claim jobs of a queue until nothing is left. -/
  | race (queue : QueueName) (workers : Nat)
  /-- The shutdown is signalled to those who work outside the runner. -/
  | shutdown
  /-- The kinds of work with a handler. -/
  | jobTypes (party : Party)
  | isRegistered (party : Party) (jobType : JobType)
  /-- The runner gets the handlers for trying out. -/
  | registerDemo
  /-- A queue is declared; the answer is the declared queues. -/
  | addQueue (queue : QueueName)
  | start
  | isStarted
deriving Repr

/-- **An answer.** -/
inductive Answer where
  | nothing
  | truth (b : Bool)
  | time (t : Int)
  | job (job : Job)
  | found (job : Option Job)
  | count (n : Nat)
  | queues (stats : List QueueStats)
  | overview (stats : RunnerStats)
  /-- Each job, or why it cannot be read. -/
  | jobs (readings : List (JobId × Except JobError Job))
  | names (names : List String)
  | calls (calls : List Call)
  | entries (entries : List Json)
  | version (n : Int)
  | refused (e : JobError)
deriving Repr

namespace Answer

/-- A result, or the error in its place. -/
def ofExcept {α : Type} (f : α → Answer) : Except JobError α → Answer
  | .ok a => f a
  | .error e => .refused e

/-- The answer of a call. -/
def ofOutcome : (call : Call) → call.Outcome → Answer
  | .insert _, r => ofExcept (fun _ => .nothing) r
  | .findById _, r => ofExcept .found r
  | .claimNext _ _, r => ofExcept .found r
  | .complete _ _ _, r => ofExcept .job r
  | .fail _ _ _ _, r => ofExcept .job r
  | .failPermanently _ _ _, r => ofExcept .job r
  | .cancel _, r => ofExcept .job r
  | .recoverStale _, r => ofExcept .count r
  | .deleteOlderThan _, r => ofExcept .count r
  | .queueStats, r => ofExcept .queues r

/-- The command broke down. -/
def breakdown? : Answer → Option Breakdown
  | .refused e => e.breakdown?
  | _ => none

end Answer

end JobQueue

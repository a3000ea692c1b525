import JobQueue.Config
import JobQueue.Handler
import JobQueue.Retry
import JobQueue.Store.Call

/-! # One attempt of a worker

A worker takes jobs from one queue. An attempt is a claim, the run of the handler and the report,
one store call at either end:

* `claiming`: the claim is out. Its answer ends the attempt, or gives a job; a job without a
  handler is given up at once.
* `handling`: the handler runs; its outcome decides the report.
* `reporting`: the report is out. Whatever its answer, the attempt is over; a report that is lost
  leaves the job running, to be recovered later.
* `finished`: the claim's error, or whether there was a job.

The transitions are functions on `Attempt`; what runs them, in which order and at what times, is
not their business. -/

namespace JobQueue

/-- **A worker.** -/
structure Worker where
  queue : QueueName
  id : WorkerId
  retry : RetryPolicy
  handlerTimeout : Duration
  storeTimeout : Duration
deriving DecidableEq, Repr

/-- A worker for a queue; there is none when its configuration leaves no handler timeout. -/
def Worker.create (queue : QueueName) (id : WorkerId) (config : RunnerConfig) :
    Except Breakdown Worker := do
  let handlerTimeout ← config.handlerTimeout
  return ⟨queue, id, ⟨config.baseRetryDelay⟩, handlerTimeout, config.storeTimeout⟩

/-- **A report** on a held job. -/
inductive Report where
  | complete (result : Fields)
  | fail (error : String) (delay : Duration)
  | failPermanently (error : String)
deriving Repr

/-- The report as a call of the store. -/
def Report.call (report : Report) (id : JobId) (worker : WorkerId) : Call :=
  match report with
  | .complete result => .complete id worker result
  | .fail error delay => .fail id worker error delay
  | .failPermanently error => .failPermanently id worker error

/-- **Where an attempt stands.** -/
inductive Attempt where
  | claiming
  | handling (job : Job)
  | reporting (job : Job) (report : Report)
  | finished (claimed : Except JobError Bool)
deriving Repr

namespace Attempt

/-- The job that the worker holds, from the answer of the claim to the end of the report. -/
def job? : Attempt → Option Job
  | .handling job => some job
  | .reporting job _ => some job
  | _ => none

end Attempt

namespace Worker

/-- The claim of an attempt. -/
def claim (worker : Worker) : Call := .claimNext worker.queue worker.id

/-- The reason for giving up a job that no handler is registered for. -/
def noHandler (jobType : JobType) : String :=
  "no handler registered for job type '" ++ jobType ++ "'"

/-- **The claim is answered**; `registered` says for which work there is a handler. -/
def afterClaim (registered : JobType → Bool) : Except JobError (Option Job) → Attempt
  | .error e => .finished (.error e)
  | .ok none => .finished (.ok false)
  | .ok (some job) =>
    if registered job.jobType then .handling job
    else .reporting job (.failPermanently (noHandler job.jobType))

/-- **The handler has ended**, or its time has. -/
def afterHandler (worker : Worker) (job : Job) (ending : Option Ending) : Attempt :=
  match verdict worker.handlerTimeout ending with
  | .ok result => .reporting job (.complete result)
  | .error message => .reporting job (.fail message (worker.retry.delayFor job.currentAttempt))

/-- **The report is answered.** -/
def afterReport : Attempt := .finished (.ok true)

end Worker

end JobQueue

import JobQueue.Job.Status
import JobQueue.Json.Basic
import JobQueue.Timestamp

/-! # Jobs

A job is a piece of work for the handler of its type, waiting in a queue until it is due. It may
be attempted up to `maxAttempts` times; `attempts` counts the attempts that failed. While a worker
holds the job, `claimedBy` and `claimedAt` say who and since when.

* `Job.create`: a job as it enters the store.
* `isClaimable`, `currentAttempt`, `isLastAttempt`; `attempt` is the current attempt as long as the
  counter has room for it.
* `Job.InRange`: the counters fit 32 bits and the times are points in time, as stores and texts
  demand. -/

namespace JobQueue

/-- The name of a queue. -/
abbrev QueueName := String

/-- The name of a worker. -/
abbrev WorkerId := String

/-- The kind of work, by which the handler is found. -/
abbrev JobType := String

/-- **A job.** -/
structure Job where
  id : JobId
  queue : QueueName
  jobType : JobType
  payload : Fields
  status : Status
  attempts : Int
  maxAttempts : Int
  /-- The earliest time of a claim. -/
  scheduledAt : Int
  claimedBy : Option WorkerId
  claimedAt : Option Int
  result : Option Fields
  lastError : Option String
  createdAt : Int
  updatedAt : Int
deriving Repr

/-- The integer fits 32 bits with a sign. -/
def FitsInt32 (n : Int) : Prop := -2147483648 ≤ n ∧ n ≤ 2147483647

instance (n : Int) : Decidable (FitsInt32 n) := by unfold FitsInt32; infer_instance

namespace Job

/-- **A new job**: pending, never attempted, not claimed. -/
def create (id : JobId) (now : Int) (queue : QueueName) (jobType : JobType)
    (payload : Fields) (scheduledAt : Int) (maxAttempts : Int) : Job where
  id := id
  queue := queue
  jobType := jobType
  payload := payload
  status := .pending
  attempts := 0
  maxAttempts := maxAttempts
  scheduledAt := scheduledAt
  claimedBy := none
  claimedAt := none
  result := none
  lastError := none
  createdAt := now
  updatedAt := now

/-- The job waits and is due. -/
def isClaimable (job : Job) (now : Int) : Bool :=
  job.status == .pending && job.scheduledAt ≤ now

/-- The number of the attempt that is being made, from one. -/
def currentAttempt (job : Job) : Int := job.attempts + 1

/-- **The number of the attempt**, which must fit the counter. -/
def attempt (job : Job) : Except Breakdown Int :=
  if job.currentAttempt ≤ 2147483647 then .ok job.currentAttempt else .error .sum

/-- One more failure uses up the attempts. -/
def isLastAttempt (job : Job) : Bool := job.maxAttempts ≤ job.attempts + 1

/-- The numbers are within their ranges. -/
structure InRange (job : Job) : Prop where
  attempts : FitsInt32 job.attempts
  maxAttempts : FitsInt32 job.maxAttempts
  scheduledAt : Timestamp.InRange job.scheduledAt
  claimedAt : ∀ t, job.claimedAt = some t → Timestamp.InRange t
  createdAt : Timestamp.InRange job.createdAt
  updatedAt : Timestamp.InRange job.updatedAt

/-- The job is given back: nobody holds it, as of `now`. -/
def release (job : Job) (now : Int) : Job :=
  { job with claimedBy := none, claimedAt := none, updatedAt := now }

end Job

end JobQueue

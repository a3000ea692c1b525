import JobQueue.Job.Basic
import JobQueue.QueueStats

/-! # Calls of a job store

A store keeps jobs and changes each in single steps. `Call` lists what can be asked of it and
`Call.Result` what a successful call gives back; the two stores of this library answer the same
calls.

* A job is *claimed* by a worker: it becomes running, and only that worker can report on it.
* A report (`complete`, `fail`, `failPermanently`) is accepted only while the worker holds the
  job.
* `recoverStale` puts abandoned jobs back, `deleteOlderThan` removes jobs that ended long ago. -/

namespace JobQueue

/-- The kinds of calls. -/
inductive Method where
  | insert | findById | claimNext | complete | fail | failPermanently | cancel
  | recoverStale | deleteOlderThan | queueStats
deriving DecidableEq, Repr

namespace Method

def all : List Method :=
  [.insert, .findById, .claimNext, .complete, .fail, .failPermanently, .cancel, .recoverStale,
    .deleteOlderThan, .queueStats]

/-- The name of the call in messages. -/
def name : Method → String
  | .insert => "insert"
  | .findById => "find_by_id"
  | .claimNext => "claim_next"
  | .complete => "complete"
  | .fail => "fail"
  | .failPermanently => "fail_permanently"
  | .cancel => "cancel"
  | .recoverStale => "cleanup_stale_running"
  | .deleteOlderThan => "delete_older_than"
  | .queueStats => "get_all_queue_stats"

def ofName? (s : String) : Option Method := all.find? fun m => m.name == s

end Method

/-- **A call of a store.** -/
inductive Call where
  /-- A job enters the store. -/
  | insert (job : Job)
  | findById (id : JobId)
  /-- The first due job of the queue is given to the worker. -/
  | claimNext (queue : QueueName) (worker : WorkerId)
  /-- The worker has done the job. -/
  | complete (id : JobId) (worker : WorkerId) (result : Fields)
  /-- The worker's attempt failed; while attempts are left the job is due again after the delay. -/
  | fail (id : JobId) (worker : WorkerId) (error : String) (delay : Duration)
  /-- The worker gives the job up, whatever attempts are left. -/
  | failPermanently (id : JobId) (worker : WorkerId) (error : String)
  | cancel (id : JobId)
  /-- Running jobs claimed longer ago than the threshold wait again. -/
  | recoverStale (threshold : Duration)
  /-- Jobs that ended before the time are removed. -/
  | deleteOlderThan (cutoff : Int)
  | queueStats
deriving Repr

namespace Call

/-- **What a successful call gives back.** -/
def Result : Call → Type
  | .insert _ => Unit
  | .findById _ => Option Job
  | .claimNext _ _ => Option Job
  | .complete _ _ _ => Job
  | .fail _ _ _ _ => Job
  | .failPermanently _ _ _ => Job
  | .cancel _ => Job
  | .recoverStale _ => Nat
  | .deleteOlderThan _ => Nat
  | .queueStats => List QueueStats

/-- The result of a call, or why there is none. -/
abbrev Outcome (call : Call) : Type := Except JobError call.Result

def method : Call → Method
  | .insert _ => .insert
  | .findById _ => .findById
  | .claimNext _ _ => .claimNext
  | .complete _ _ _ => .complete
  | .fail _ _ _ _ => .fail
  | .failPermanently _ _ _ => .failPermanently
  | .cancel _ => .cancel
  | .recoverStale _ => .recoverStale
  | .deleteOlderThan _ => .deleteOlderThan
  | .queueStats => .queueStats

/-- The error of a caller that waited for the call as long as it would. -/
def timeout (call : Call) (limit : Duration) : JobError :=
  .timeout (call.method.name ++ " exceeded " ++ limit.text)

end Call

end JobQueue

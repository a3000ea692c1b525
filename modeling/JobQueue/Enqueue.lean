import JobQueue.IdSource
import JobQueue.Request.Fault
import JobQueue.Store.Backend

/-! # Enqueueing

A request that breaks a rule is refused before an id is drawn; else it becomes a pending job with
the next id, due as the request says, and enters the store. -/

namespace JobQueue

/-- The job that a request asks for. -/
def Request.toJob (request : Request) (id : JobId) (now : Int) (defaultMaxAttempts : Int) : Job :=
  Job.create id now request.queue request.jobType request.payload (request.schedule.dueTime now)
    (request.maxAttempts.getD defaultMaxAttempts)

/-- **What is left to do for a request**: the job to insert, and the source of ids after it. -/
def Request.prepare (request : Request) (now : Int) (defaultMaxAttempts : Int)
    (ids : IdSource) : Except RequestFault (Job × IdSource) := do
  request.check
  let (id, ids) := ids.draw
  return (request.toJob id now defaultMaxAttempts, ids)

/-- A request that breaks no rule becomes a job with the next id. -/
theorem Request.prepare_of_check {request : Request} (h : request.check = .ok ()) (now : Int)
    (defaultMaxAttempts : Int) (ids : IdSource) :
    request.prepare now defaultMaxAttempts ids =
      .ok (request.toJob ids.draw.1 now defaultMaxAttempts, ids.draw.2) := by
  unfold prepare
  rw [h]
  rfl

/-- **A request is put into the store.** -/
def Backend.enqueue (request : Request) (now : Int) (defaultMaxAttempts : Int) (ids : IdSource)
    (store : Backend) : Except JobError Job × IdSource × Backend :=
  match request.prepare now defaultMaxAttempts ids with
  | .error fault => (.error fault.toError, ids, store)
  | .ok (job, ids) =>
    match store.run (.insert job) now with
    | (.error e, store) => (.error e, ids, store)
    | (.ok (), store) => (.ok job, ids, store)

end JobQueue

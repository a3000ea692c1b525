import JobQueue.Store.Call

/-! # The store in memory

Jobs are kept in a list with one job an id. An inserted job replaces the one of its id. The store
can be made unavailable, when every call fails without effect; and when a change breaks down in the
middle, every later call that reaches the jobs breaks down too.

* `put`, `replace`: `find?_put_self`, `find?_replace_of_ne`.
* `claimNext`: takes the first of the due jobs by scheduled time, creation and id.
* `withHeld`: the guard of all reports: the job is there, running, and held by the worker.
* `run`: a call at a time. `check_eq_error`: what may be in its way. -/

namespace JobQueue

/-- **A store in memory.** -/
structure MemoryStore where
  jobs : List Job
  available : Bool
  broken : Bool
deriving Repr

namespace MemoryStore

def empty : MemoryStore := ⟨[], true, false⟩

/-- The store takes calls. -/
def reachable (store : MemoryStore) : Except JobError Unit :=
  if store.available then .ok () else .error (.database "mock store unavailable")

/-- The jobs, unless a change broke down before. -/
def intact (store : MemoryStore) : Except Breakdown (List Job) :=
  if store.broken then .error .poisoned else .ok store.jobs

/-! ### The jobs -/

def find? (id : JobId) (jobs : List Job) : Option Job := jobs.find? fun job => job.id == id

/-- The job takes the place of the one with its id, or comes last. -/
def put (new : Job) : List Job → List Job
  | [] => [new]
  | job :: rest => if job.id = new.id then new :: rest else job :: put new rest

/-- The job takes the place of the one with its id. -/
def replace (new : Job) (jobs : List Job) : List Job :=
  jobs.map fun job => if job.id = new.id then new else job

theorem find?_put_self (job : Job) (jobs : List Job) : find? job.id (put job jobs) = some job := by
  induction jobs with
  | nil => simp [find?, put]
  | cons j rest ih =>
    unfold put
    split
    · simp [find?]
    · rename_i h
      simpa [find?, h] using ih

theorem find?_replace_of_ne {id : JobId} {job : Job} (jobs : List Job) (h : job.id ≠ id) :
    find? id (replace job jobs) = find? id jobs := by
  induction jobs with
  | nil => rfl
  | cons j rest ih =>
    have hjob : (job.id == id) = false := by simpa using h
    unfold find? replace at ih ⊢
    rw [List.map_cons, List.find?_cons, List.find?_cons, ih]
    by_cases hj : j.id = job.id
    · rw [if_pos hj, hj, hjob]
    · rw [if_neg hj]

/-! ### Claims -/

/-- The order of claims: by the time a job is due, then by its creation, then by id. -/
def precedes (a b : Job) : Bool :=
  a.scheduledAt < b.scheduledAt ||
    (a.scheduledAt == b.scheduledAt &&
      (a.createdAt < b.createdAt || (a.createdAt == b.createdAt && a.id < b.id)))

/-- The first job in the order of claims. -/
def first? : List Job → Option Job
  | [] => none
  | job :: rest =>
    match first? rest with
    | none => some job
    | some other => if precedes other job then some other else some job

/-- The jobs of the queue that wait and are due. -/
def claimable (queue : QueueName) (now : Int) (jobs : List Job) : List Job :=
  jobs.filter fun job => job.queue == queue && job.isClaimable now

/-- The job in the hands of a worker. -/
def claimed (job : Job) (worker : WorkerId) (now : Int) : Job :=
  { job with
    status := .running
    claimedBy := some worker
    claimedAt := some now
    updatedAt := now }

/-! ### Reports -/

/-- The text for the one who holds the job. -/
def holderText (job : Job) : String := job.claimedBy.getD "nobody"

/-- **The guard of a report**: the job is there, it runs, and the worker holds it. -/
def held (id : JobId) (worker : WorkerId) (jobs : List Job) : Except JobError Job :=
  match find? id jobs with
  | none => .error (.jobNotFound id)
  | some job =>
    if job.status ≠ .running then
      .error (.invalidState ("Job " ++ id ++ " is " ++ job.status.name ++ ", expected running"))
    else if job.claimedBy ≠ some worker then
      .error (.invalidState
        ("Job " ++ id ++ " is claimed by " ++ holderText job ++ ", not " ++ worker))
    else .ok job

/-- **The job after a failed attempt**: it waits for its next time while attempts are left. -/
def failed (job : Job) (error : String) (delay : Duration) (now : Int) : Except Breakdown Job := do
  let attempts ← job.attempt
  if attempts < job.maxAttempts then
    let time ← Timestamp.after now delay
    return { job with
      status := .pending, scheduledAt := time, attempts := attempts, lastError := some error }
  else return { job with status := .failed, attempts := attempts, lastError := some error }

/-- The guard of a cancellation: the job is there and has not ended. -/
def live (id : JobId) (jobs : List Job) : Except JobError Job :=
  match find? id jobs with
  | none => .error (.jobNotFound id)
  | some job =>
    if job.status.isTerminal then
      .error (.invalidState ("Cannot cancel job " ++ id ++ " in state " ++ job.status.name))
    else .ok job

/-! ### Cleanup and statistics -/

/-- The job runs and was claimed before the time. -/
def isStale (cutoff : Int) (job : Job) : Bool :=
  job.status == .running && job.claimedAt.any fun time => time < cutoff

/-- The job ended before the time. -/
def isExpired (cutoff : Int) (job : Job) : Bool :=
  job.status.isTerminal && job.updatedAt < cutoff

/-- The job waits again. -/
def requeued (now : Int) (job : Job) : Job :=
  { job with status := .pending }.release now

/-- Each job is counted for its queue. -/
def stats (jobs : List Job) : List QueueStats :=
  jobs.foldl (fun counts job => QueueStats.tally job.queue job.status 1 counts) []

/-! ### Calls -/

/-- The store with other jobs. -/
def withJobs (store : MemoryStore) (jobs : List Job) : MemoryStore := { store with jobs := jobs }

def claimNext (queue : QueueName) (worker : WorkerId) (now : Int) (store : MemoryStore) :
    Option Job × MemoryStore :=
  match first? (claimable queue now store.jobs) with
  | none => (none, store)
  | some job =>
    (some (claimed job worker now), store.withJobs (replace (claimed job worker now) store.jobs))

/-- A report of the worker that holds the job: the job changes as `change` says and is given back.
-/
def withHeld (id : JobId) (worker : WorkerId) (now : Int) (store : MemoryStore)
    (change : Job → Job) : Except JobError Job × MemoryStore :=
  match held id worker store.jobs with
  | .error e => (.error e, store)
  | .ok job =>
    let job := (change job).release now
    (.ok job, store.withJobs (replace job store.jobs))

def complete (id : JobId) (worker : WorkerId) (result : Fields) (now : Int)
    (store : MemoryStore) : Except JobError Job × MemoryStore :=
  store.withHeld id worker now fun job => { job with status := .completed, result := some result }

/-- A failed attempt. A breakdown in the middle of the change breaks the store. -/
def fail (id : JobId) (worker : WorkerId) (error : String) (delay : Duration) (now : Int)
    (store : MemoryStore) : Except JobError Job × MemoryStore :=
  match held id worker store.jobs with
  | .error e => (.error e, store)
  | .ok job =>
    match failed job error delay now with
    | .error cause => (.error (.breakdown cause), { store with broken := true })
    | .ok job => (.ok (job.release now), store.withJobs (replace (job.release now) store.jobs))

def failPermanently (id : JobId) (worker : WorkerId) (error : String) (now : Int)
    (store : MemoryStore) : Except JobError Job × MemoryStore :=
  store.withHeld id worker now fun job => { job with status := .failed, lastError := some error }

def cancel (id : JobId) (now : Int) (store : MemoryStore) : Except JobError Job × MemoryStore :=
  match live id store.jobs with
  | .error e => (.error e, store)
  | .ok job =>
    let job := { job with status := .cancelled }.release now
    (.ok job, store.withJobs (replace job store.jobs))

def recoverStale (cutoff now : Int) (store : MemoryStore) : Nat × MemoryStore :=
  (store.jobs.countP (isStale cutoff),
    store.withJobs (store.jobs.map fun job =>
      if isStale cutoff job then requeued now job else job))

def deleteOlderThan (cutoff : Int) (store : MemoryStore) : Nat × MemoryStore :=
  (store.jobs.countP (isExpired cutoff),
    store.withJobs (store.jobs.filter fun job => !isExpired cutoff job))

/-- What a call computes before it reaches the jobs. -/
def prepare (call : Call) (now : Int) : Except Breakdown Unit :=
  match call with
  | .recoverStale threshold => discard (Timestamp.before now threshold)
  | _ => .ok ()

/-- Nothing is in the way of a call at a time: the store takes calls, the call's own times are in
range, and the jobs are intact. -/
def check (call : Call) (now : Int) (store : MemoryStore) : Except JobError Unit := do
  store.reachable
  (prepare call now).mapError .breakdown
  discard (store.intact.mapError .breakdown)

/-- What is in the way of a call: the store takes none, or something breaks down. -/
theorem check_eq_error {call : Call} {now : Int} {store : MemoryStore} {e : JobError}
    (h : store.check call now = .error e) :
    e = .database "mock store unavailable" ∨ ∃ cause, e = .breakdown cause := by
  unfold check at h
  cases hreach : store.reachable with
  | error f =>
    rw [hreach] at h
    obtain rfl := Except.error.inj h
    unfold reachable at hreach
    split at hreach
    · cases hreach
    · exact .inl (Except.error.inj hreach).symm
  | ok =>
    rw [hreach] at h
    cases hprepare : prepare call now with
    | error cause =>
      rw [hprepare] at h
      exact .inr ⟨cause, (Except.error.inj h).symm⟩
    | ok =>
      rw [hprepare] at h
      cases hintact : store.intact with
      | error cause =>
        rw [hintact] at h
        exact .inr ⟨cause, (Except.error.inj h).symm⟩
      | ok jobs =>
        rw [hintact] at h
        cases h

/-- **A call at a time.** -/
def run (call : Call) (now : Int) (store : MemoryStore) : call.Outcome × MemoryStore :=
  match store.check call now with
  | .error e => (.error e, store)
  | .ok () =>
    match call with
    | .insert job => (.ok (), store.withJobs (put job store.jobs))
    | .findById id => (.ok (find? id store.jobs), store)
    | .claimNext queue worker =>
      let (job, store) := store.claimNext queue worker now
      (.ok job, store)
    | .complete id worker result => store.complete id worker result now
    | .fail id worker error delay => store.fail id worker error delay now
    | .failPermanently id worker error => store.failPermanently id worker error now
    | .cancel id => store.cancel id now
    | .recoverStale threshold =>
      let (n, store) := store.recoverStale (now - threshold.wholeMillis) now
      (.ok n, store)
    | .deleteOlderThan cutoff =>
      let (n, store) := store.deleteOlderThan cutoff
      (.ok n, store)
    | .queueStats => (.ok (stats store.jobs), store)

end MemoryStore

end JobQueue

import JobQueue.Store.Call
import JobQueue.Store.Sql.Migration
import JobQueue.Store.Sql.RowReader

/-! # The store in a database

Each call of the store is one statement. A change names the rows that it applies to, so it cannot
collide with another: a claim takes the first due row of its queue while it still waits, a report
applies to the row only while it runs and the worker holds it.

A statement takes effect even when the row that it gives back cannot be read as a job; the answer is
then the fault in the row. When a change finds no row, a second statement tells why. The statement
of a call is prepared once for a connection.

* `claimNext`, `complete`, `fail`, `failPermanently`, `cancel`, `recoverStale`, `deleteOlderThan`.
* `run`: a call at a time. -/

namespace JobQueue.Sql

/-! ### Conditions and changes of rows -/

namespace Row

/-- The order of claims: by the time a job is due, then by its creation, then by id. -/
def orderLt (a b : Row) : Bool :=
  Value.lexLt [a.scheduledAt, a.createdAt, .text a.id] [b.scheduledAt, b.createdAt, .text b.id]

/-- The row waits in the queue and is due. -/
def isDue (queue : String) (now : Int) (row : Row) : Bool :=
  row.queue == queue && row.status == Status.pending.name && row.scheduledAt.isAtMost (.int now)

/-- The row runs and the worker holds it. -/
def isHeldBy (id : String) (worker : String) (row : Row) : Bool :=
  row.id == id && row.status == Status.running.name && row.claimedBy == some worker

/-- The row waits or runs. -/
def isLive (id : String) (row : Row) : Bool :=
  row.id == id && (row.status == Status.pending.name || row.status == Status.running.name)

/-- The row runs since before the time. -/
def isStale (cutoff : Int) (row : Row) : Bool :=
  row.status == Status.running.name && row.claimedAt.isBelow (.int cutoff)

/-- The row ended before the time. -/
def isExpired (cutoff : Int) (row : Row) : Bool :=
  (row.status == Status.completed.name || row.status == Status.failed.name ||
    row.status == Status.cancelled.name) && row.updatedAt.isBelow (.int cutoff)

/-- The row goes to the worker. -/
def claim (worker : String) (now : Int) (row : Row) : Row :=
  { row with
    status := Status.running.name
    claimedBy := some worker
    claimedAt := .int now
    updatedAt := .int now }

/-- The row is held by nobody and has a new state. -/
def settle (status : Status) (now : Int) (row : Row) : Row :=
  { row with
    status := status.name
    claimedBy := none
    claimedAt := .null
    updatedAt := .int now }

/-- The row's attempt failed. -/
def failAttempt (retryAt : Int) (error : String) (now : Int) (row : Row) : Row :=
  let attempts := row.attempts.succ
  let again := attempts.isBelow row.maxAttempts
  { row with
    status := if again then Status.pending.name else Status.failed.name
    scheduledAt := if again then .int retryAt else row.scheduledAt
    attempts := attempts.inIntegerColumn
    lastError := some error
    claimedBy := none
    claimedAt := .null
    updatedAt := .int now }

end Row

/-- The first due row of the queue. -/
def Table.firstDue? (table : Table) (queue : String) (now : Int) : Option Row :=
  (table.rows.filter (Row.isDue queue now)).foldl
    (fun best row => match best with
      | none => some row
      | some other => if row.orderLt other then some row else some other) none

/-! ### The store -/

/-- **A store in a database.** -/
structure Store where
  connection : Connection
  /-- The columns that the jobs table had when the statement of a call was prepared. -/
  prepared : List (Method × List Column)
deriving Repr

/-- What a change does to the job: it may also be refused. -/
inductive Action where
  | complete
  | fail
  | failPermanently
  | cancel
deriving DecidableEq, Repr

namespace Action

def text : Action → String
  | .complete => "complete"
  | .fail => "fail"
  | .failPermanently => "fail"
  | .cancel => "cancel"

def method : Action → Method
  | .complete => .complete
  | .fail => .fail
  | .failPermanently => .failPermanently
  | .cancel => .cancel

/-- The columns, of those that can be dropped, that the change names. -/
def columns : Action → List Column
  | .complete => [.result, .claimedBy]
  | .fail => [.attempts, .maxAttempts, .lastError, .claimedBy]
  | .failPermanently => [.lastError, .claimedBy]
  | .cancel => [.claimedBy]

end Action

namespace Store

def ofConnection (connection : Connection) : Store := ⟨connection, []⟩

/-- The schema is brought up to date. -/
def migrate (store : Store) : Except Fault Unit × Store :=
  let (r, connection) := store.connection.migrate
  (r, { store with connection := connection })

/-- The database is opened anew, without prepared statements. -/
def reopen (store : Store) : Store := ofConnection store.connection.reopen

/-- The columns of a table that a change of state sets, of those in indexes. -/
def movedColumns : List Column := [.status, .scheduledAt, .claimedAt, .updatedAt]

/-- The statement of a call, which names the columns, is prepared, unless it is already or cannot
be. -/
def prepare (store : Store) (method : Method) (columns : List Column) : Store :=
  match store.connection.query columns Table.columns with
  | .error _ => store
  | .ok present =>
    if store.prepared.any fun p => p.1 = method then store
    else { store with prepared := store.prepared ++ [(method, present)] }

@[simp] theorem connection_prepare (store : Store) (method : Method) (columns : List Column) :
    (store.prepare method columns).connection = store.connection := by
  unfold prepare
  split
  · rfl
  · split <;> rfl

/-- The places of the columns for the statement of a call. -/
def places (store : Store) (method : Method) : Places :=
  let present := store.connection.database.jobs.elim [] Table.columns
  ⟨((store.prepared.find? fun p => p.1 = method).map (·.2)).getD present, present⟩

/-- The job of a row in the answer of a statement. -/
def read (store : Store) (method : Method) (row : Row) : Except JobError Job :=
  (row.job (store.places method)).mapError RowFault.toError

/-- The job of a row that may be missing. -/
def read? (store : Store) (method : Method) : Option Row → Except JobError (Option Job)
  | some row => (store.read method row).map some
  | none => .ok none

/-- The answer of a statement, or its fault as an error of the store. -/
def answer {α : Type} (result : Except Fault α) : Except JobError α := result.mapError Fault.toError

/-- **Why a change found no row.** -/
def miss (store : Store) (id : JobId) (action : Action) : JobError :=
  match store.connection.query [.claimedBy] fun table => table.find? id with
  | .error fault => fault.toError
  | .ok none => .jobNotFound id
  | .ok (some row) =>
    .invalidState ("Cannot " ++ action.text ++ " job " ++ id ++ " in state " ++ row.status ++
      match row.claimedBy with
      | some holder => " (claimed by " ++ holder ++ ")"
      | none => "")

/-- A change of the rows that meet the condition; the answer is these rows as they are then. -/
def update (store : Store) (columns : List Column) (condition : Row → Bool)
    (change : Row → Row) : Except Fault (List Row × Store) := do
  let (rows, connection) ← store.connection.modify columns
    (fun table => table.update condition change)
    fun table => table.updatePages movedColumns condition change
  return (rows, { store with connection := connection })

/-- A change of the job of an id, which is given back; when the condition fails, the reason. -/
def transition (store : Store) (id : JobId) (action : Action) (condition : Row → Bool)
    (change : Row → Row) : Except JobError Job × Store :=
  let store := store.prepare action.method action.columns
  match store.update action.columns condition change with
  | .error fault => (.error fault.toError, store)
  | .ok (row :: _, store) => (store.read action.method row, store)
  | .ok ([], store) => (.error (store.miss id action), store)

def insert (store : Store) (job : Job) : Except JobError Unit × Store :=
  match store.connection.insert (.ofJob job) with
  | .error fault => (.error fault.toError, store)
  | .ok connection => (.ok (), { store with connection := connection })

def findById (store : Store) (id : JobId) : Except JobError (Option Job) × Store :=
  let store := store.prepare .findById []
  match store.connection.query [] fun table => table.find? id with
  | .error fault => (.error fault.toError, store)
  | .ok row => (store.read? .findById row, store)

/-- The first due row of the queue. -/
def firstDue? (store : Store) (queue : QueueName) (now : Int) : Option Row :=
  store.connection.database.jobs.bind fun table => table.firstDue? queue now

/-- **The first due job of the queue goes to the worker.** -/
def claimNext (store : Store) (queue : QueueName) (worker : WorkerId) (now : Int) :
    Except JobError (Option Job) × Store :=
  let columns := [.claimedBy, .createdAt]
  let due := store.firstDue? queue now
  let condition (row : Row) : Bool :=
    due.any (fun due => due.id == row.id) && row.status == Status.pending.name
  let store := store.prepare .claimNext columns
  match store.update columns condition (Row.claim worker now) with
  | .error fault => (.error fault.toError, store)
  | .ok (rows, store) => (store.read? .claimNext rows.head?, store)

def complete (store : Store) (id : JobId) (worker : WorkerId) (result : Fields) (now : Int) :
    Except JobError Job × Store :=
  store.transition id .complete (Row.isHeldBy id worker) fun row =>
    { row.settle .completed now with result := some (Json.obj result).text }

/-- The attempt failed: the job waits for its next time while attempts are left, else it has
failed. -/
def fail (store : Store) (id : JobId) (worker : WorkerId) (error : String) (delay : Duration)
    (now : Int) : Except JobError Job × Store :=
  store.transition id .fail (Row.isHeldBy id worker)
    (Row.failAttempt (Timestamp.later now delay) error now)

def failPermanently (store : Store) (id : JobId) (worker : WorkerId) (error : String)
    (now : Int) : Except JobError Job × Store :=
  store.transition id .failPermanently (Row.isHeldBy id worker) fun row =>
    { row.settle .failed now with lastError := some error }

def cancel (store : Store) (id : JobId) (now : Int) : Except JobError Job × Store :=
  store.transition id .cancel (Row.isLive id) (Row.settle .cancelled now)

def recoverStale (store : Store) (threshold : Duration) (now : Int) :
    Except JobError Nat × Store :=
  match Timestamp.before now threshold with
  | .error cause => (.error (.breakdown cause), store)
  | .ok cutoff =>
    match store.update [.claimedBy] (Row.isStale cutoff) (Row.settle .pending now) with
    | .error fault => (.error fault.toError, store)
    | .ok (rows, store) => (.ok rows.length, store)

def deleteOlderThan (store : Store) (cutoff : Int) : Except JobError Nat × Store :=
  match store.connection.modify [] (fun table => table.delete (Row.isExpired cutoff))
      fun table => table.deletePages (Row.isExpired cutoff) with
  | .error fault => (.error fault.toError, store)
  | .ok (n, connection) => (.ok n, { store with connection := connection })

/-- The count of a group goes to its queue. -/
def addGroup (counts : List QueueStats) (group : Table.GroupKey × Nat) :
    Except JobError (List QueueStats) := do
  let ((queue, name), n) := group
  let status ← (Status.ofName name).mapError JobError.domain
  return QueueStats.tally queue status n counts

/-- The counts of all queues; the first group without a known state is an error. -/
def queueStats (store : Store) : Except JobError (List QueueStats) := do
  let groups ← answer (store.connection.query [] Table.groups)
  groups.foldlM addGroup []

/-- **A call at a time.** -/
def run (call : Call) (now : Int) (store : Store) : call.Outcome × Store :=
  match call with
  | .insert job => store.insert job
  | .findById id => store.findById id
  | .claimNext queue worker => store.claimNext queue worker now
  | .complete id worker result => store.complete id worker result now
  | .fail id worker error delay => store.fail id worker error delay now
  | .failPermanently id worker error => store.failPermanently id worker error now
  | .cancel id => store.cancel id now
  | .recoverStale threshold => store.recoverStale threshold now
  | .deleteOlderThan cutoff => store.deleteOlderThan cutoff
  | .queueStats => (store.queueStats, store)

end Store

end JobQueue.Sql

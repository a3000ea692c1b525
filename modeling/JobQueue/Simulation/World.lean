import JobQueue.Clock
import JobQueue.Enqueue
import JobQueue.Simulation.Task

/-! # The simulated system

A world is a store with a clock and the tasks that work on it, in virtual time. Time stands still
while anything can be done and then jumps to the next moment at which something is due.

A task is on the queue of ready tasks, which is served from the front, or it rests until its moment
comes, or until something happens to it. The host is served when no other task is ready, and at a
new moment before all others. Tasks belong to a party: the runner, or those who work without it;
each party has its handlers, its jobs in flight and its shutdown signal.

* `World.go`, `World.yield`, `World.rest`, `World.spawn`, `World.remove`: what a step does to a
  task.
* `World.discard`: the end of a task in the middle of its work.
* `World.invoke`: a call of the store. -/

namespace JobQueue

/-- **A world.** -/
structure World where
  /-- The elapsed milliseconds. -/
  elapsed : Nat
  clock : Clock
  store : Backend
  /-- The calls that are never answered. -/
  stalled : List Method
  /-- The calls of the store, the latest first. -/
  calls : List Call
  ids : IdSource
  /-- The ids of the jobs that entered, the latest first. -/
  entered : List JobId
  config : RunnerConfig
  runner : Option Runner
  direct : Site
  team : Site
  /-- The log of the handlers, the latest first. -/
  log : List Json
  tasks : List Task
  ready : List TaskId
  /-- Something happened that the host waits for. -/
  hostReady : Bool
  nextTask : TaskId
  nextTurn : Nat
  /-- How the host has ended. -/
  ended : Option Ending

namespace World

/-- The task of the host. -/
def hostTask : TaskId := 0

/-- A world in which only the host is about to begin. -/
def create (store : Backend) (clock : Clock) (config : RunnerConfig) (runner : Option Runner)
    (host : Program) : World where
  elapsed := 0
  clock := clock
  store := store
  stalled := []
  calls := []
  ids := .sequential
  entered := []
  config := config
  runner := runner
  direct := .empty
  team := .empty
  log := []
  tasks := [.create hostTask .direct (.running .host host)]
  ready := [hostTask]
  hostReady := false
  nextTask := 1
  nextTurn := 1
  ended := none

/-- Nanoseconds of a millisecond. -/
def nanosPerMilli : Nat := 1000000

/-- The elapsed nanoseconds. -/
def nanos (w : World) : Nat := w.elapsed * nanosPerMilli

/-- The first millisecond that is not before the moment. -/
def ceilMillis (nanos : Nat) : Nat := (nanos + (nanosPerMilli - 1)) / nanosPerMilli

/-- The seconds from which on a wait has no end that can be expressed. -/
def endlessSecs : Nat := 9223372036854775807

/-- The nanoseconds of thirty years, after which a wait without an end is over. -/
def thirtyYears : Nat := 946080000 * nanosPerSecond

/-- The moment, in nanoseconds, at which a wait is over that begins now. -/
def after (w : World) (d : Duration) : Nat :=
  w.nanos + if endlessSecs ≤ d.secs then thirtyYears else d.nanos

/-- The time of the clock. -/
def now (w : World) : Int := w.clock.now w.elapsed

/-! ### Parties -/

def site (w : World) : Party → Site
  | .direct => w.direct
  | .runner => w.team

def setSite (w : World) (party : Party) (site : Site) : World :=
  match party with
  | .direct => { w with direct := site }
  | .runner => { w with team := site }

def track (w : World) (party : Party) (id : JobId) : World :=
  w.setSite party { w.site party with inFlight := (w.site party).inFlight.track id }

def release (w : World) (party : Party) (id : JobId) : World :=
  w.setSite party { w.site party with inFlight := (w.site party).inFlight.release id }

def register (w : World) (party : Party) (jobType : JobType) (code : HandlerCode) : World :=
  w.setSite party { w.site party with registry := (w.site party).registry.register jobType code }

/-! ### Tasks -/

def task? (w : World) (id : TaskId) : Option Task := w.tasks.find? fun t => t.id == id

def setTask (w : World) (task : Task) : World :=
  { w with tasks := w.tasks.map fun t => if t.id = task.id then task else t }

/-- The task goes on at once with the work. -/
def go (w : World) (task : Task) (work : Work) : World :=
  let w := w.setTask { task with work := work, limit := none, alarm := none }
  { w with ready := task.id :: w.ready }

/-- The task rests until something happens to it. -/
def settle (w : World) (task : Task) : World := w.setTask { task with alarm := none }

/-- The task rests until the moment, given in nanoseconds. Its turn among the tasks of that moment
is kept when it rests again for the same one; the host's turn is the first. -/
def rest (w : World) (task : Task) (time : Nat) : World :=
  let due := ceilMillis time
  if task.alarm.any fun a => a.1 == due then w.setTask task
  else
    let turn := if task.id = hostTask then 0 else w.nextTurn
    let w := w.setTask { task with alarm := some (due, turn) }
    { w with nextTurn := w.nextTurn + 1 }

def remove (w : World) (id : TaskId) : World :=
  { w with tasks := w.tasks.filter fun t => t.id != id }

/-- A new task, the last of the ready ones. -/
def spawn (w : World) (party : Party) (work : Work) : World :=
  { w with
    tasks := w.tasks ++ [.create w.nextTask party work]
    ready := w.ready ++ [w.nextTask]
    nextTask := w.nextTask + 1 }

/-- The task is given a place among the ready ones. -/
def wake (w : World) (id : TaskId) : World :=
  if id = hostTask then { w with hostReady := true } else { w with ready := w.ready ++ [id] }

/-- The task goes on with the work when the other ready tasks have been served. -/
def yield (w : World) (task : Task) (work : Work) : World :=
  (w.setTask { task with work := work, limit := none, alarm := none }).wake task.id

/-- The tasks of which the condition holds are woken. -/
def wakeAll (w : World) (condition : Task → Bool) : World :=
  (w.tasks.filter condition).foldl (fun w t => w.wake t.id) w

/-- The shutdown of a party is signalled; its tasks take notice. -/
def signalShutdown (w : World) (party : Party) : World :=
  let w := w.setSite party { w.site party with shutdown := (w.site party).shutdown.signal }
  w.wakeAll fun t => t.party == party

/-- All loops of the runner have ended. -/
def drained (w : World) : Bool := !w.tasks.any fun t => t.work.isLoop

/-- A loop has ended: those who wait for this take notice. -/
def removeLoop (w : World) (id : TaskId) : World :=
  (w.remove id).wakeAll fun t => t.work.isStopping

/-! ### Ends in the middle -/

/-- The task ends in the middle of its work and gives up the job that it holds; a handler that works
on the job goes on. -/
def abandon (w : World) (task : Task) : World :=
  let w := if task.work.isLoop then w.removeLoop task.id else w.remove task.id
  match task.work with
  | .attempting trial _ =>
    match trial.attempt.job? with
    | some job => w.release trial.party job.id
    | none => w
  | _ => w

/-- Another task ends this one. With a store in memory this takes effect only when the task would
be served, else at the next call of the store, so at once. -/
def cancelWith (stop : World → Task → World) (w : World) (task : Task) : World :=
  match w.store with
  | .memory _ => (w.setTask { task with cancelled := true, alarm := none }).wake task.id
  | .sql _ => stop w task

/-- **The task is dropped.** One that waits for the loops of the runner takes them with it. -/
def discard (w : World) (task : Task) : World :=
  let w := w.abandon task
  if task.work.isStopping then
    (w.tasks.filter fun t => t.work.isLoop).foldl (cancelWith abandon) w
  else w

/-- Another task ends this one, if it is still there. -/
def cancel (w : World) (id : TaskId) : World :=
  match w.task? id with
  | some task => cancelWith discard w task
  | none => w

/-! ### The store -/

def record (w : World) (call : Call) : World := { w with calls := call :: w.calls }

def isStalled (w : World) (call : Call) : Bool := w.stalled.contains call.method

/-- The call is made now. -/
def invoke (w : World) (call : Call) : call.Outcome × World :=
  let (outcome, store) := w.store.run call w.now
  (outcome, { w with store := store })

/-- The id of a job that enters. -/
def enter (w : World) (id : JobId) : World := { w with entered := id :: w.entered }

/-- The ids of the jobs that entered, in increasing order. -/
def enteredIds (w : World) : List JobId := (w.entered.foldl InFlight.track .empty).ids

/-- A job is looked at, if it is there. -/
def look (w : World) (id : JobId) : Except JobError (Option Job) × World := w.invoke (.findById id)

/-- What is found of a job: it, or why it cannot be read. -/
def reading? (id : JobId) : Except JobError (Option Job) → Option (JobId × Except JobError Job)
  | .ok none => none
  | .ok (some job) => some (id, .ok job)
  | .error e => some (id, .error e)

/-- The jobs of these ids that are there. -/
def readings (w : World) :
    List JobId → Except Breakdown (List (JobId × Except JobError Job)) × World
  | [] => (.ok [], w)
  | id :: ids =>
    match w.look id with
    | (.error (.breakdown cause), w) => (.error cause, w)
    | (found, w) =>
      let (rest, w) := readings w ids
      (rest.map ((reading? id found).toList ++ ·), w)

/-- The job has the state, as far as the store tells. -/
def hasStatus (w : World) (id : JobId) (status : Status) : Except Breakdown Bool × World :=
  match w.look id with
  | (.ok (some job), w) => (.ok (job.status == status), w)
  | (.error (.breakdown cause), w) => (.error cause, w)
  | (_, w) => (.ok false, w)

end World

end JobQueue

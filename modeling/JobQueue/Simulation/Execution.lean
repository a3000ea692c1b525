import JobQueue.DemoHandlers
import JobQueue.Simulation.World

/-! # Carrying out commands

A command is carried out at once and answered. Only a store call that is stalled waits, up to a
limit or for ever (`Progress.waits`), and the schema of a database is brought up to date in steps
between which other tasks are served (`Progress.upgrades`). -/

namespace JobQueue.World

/-- What became of a command. -/
inductive Progress where
  | done (answer : Answer) (world : World)
  /-- No answer comes; with a limit, `late` is the answer when it is reached. -/
  | waits (limit : Option Duration) (late : Answer) (world : World)
  /-- The schema is to be brought up to date. -/
  | upgrades (world : World)

/-! ### The store -/

/-- A call, with the answer that `finish` makes of its outcome. -/
def attemptCall (w : World) (call : Call) (limit : Option Duration)
    (finish : call.Outcome → World → Answer) : Progress :=
  let w := w.record call
  if w.isStalled call then
    .waits limit (.refused (call.timeout (limit.getD .longest))) w
  else
    let (outcome, w) := w.invoke call
    .done (finish outcome w) w

/-- A request enters the store. -/
def enqueue (w : World) (request : Request) : Progress :=
  let maxAttempts := w.config.defaultMaxAttempts
  match request.prepare w.now maxAttempts w.ids with
  | .error fault => .done (.refused fault.toError) w
  | .ok (job, ids) =>
    let w := w.record (.insert job)
    if w.isStalled (.insert job) then .waits none .nothing { w with ids := ids }
    else
      match w.store.enqueue request w.now maxAttempts w.ids with
      | (.ok job, ids, store) =>
        .done (.job job) ({ w with ids := ids, store := store }.enter job.id)
      | (.error e, ids, store) => .done (.refused e) { w with ids := ids, store := store }

/-- A job of a store in memory. -/
def peek (w : World) (id : JobId) : Answer :=
  match w.store with
  | .memory store =>
    match store.intact with
    | .ok jobs => .found (MemoryStore.find? id jobs)
    | .error cause => .refused (.breakdown cause)
  | .sql _ => .found none

/-- An operation on the database, if there is one. -/
def onDatabase {α : Type} (w : World) (f : Sql.Store → Except Sql.Fault α × Sql.Store)
    (finish : α → Answer) : Progress :=
  match w.store with
  | .memory _ => .done .nothing w
  | .sql store =>
    let (r, store) := f store
    .done (Answer.ofExcept finish (r.mapError Sql.Fault.toError)) { w with store := .sql store }

/-- The schema of the database is brought up to date, if there is one. -/
def migrate (w : World) : Progress :=
  match w.store with
  | .memory _ => .done .nothing w
  | .sql _ => .upgrades w

/-- Claims by so many workers until nothing is left or each has met an error: the claimed ids, the
latest first, and the first error. -/
def claimAll (queue : QueueName) : Nat → Nat → List JobId × Option JobError → World →
    (List JobId × Option JobError) × World
  | 0, _, seen, w => (seen, w)
  | _, 0, seen, w => (seen, w)
  | fuel + 1, workers + 1, (ids, e?), w =>
    match w.invoke (.claimNext queue "racer") with
    | (.ok (some job), w) => claimAll queue fuel (workers + 1) (job.id :: ids, e?) w
    | (.ok none, w) => ((ids, e?), w)
    | (.error e, w) => claimAll queue fuel workers (ids, e?.orElse fun _ => some e) w

/-- **Claims by competing workers** until nothing is left: the claimed ids in increasing order. -/
def race (w : World) (queue : QueueName) (workers : Nat) : Answer × World :=
  match claimAll queue (w.entered.length + workers + 1) workers ([], none) w with
  | ((_, some e), w) => (.refused e, w)
  | ((ids, none), w) => (.names (ids.mergeSort fun a b => a ≤ b), w)

/-! ### The runner -/

/-- The runner gets the handlers for trying out. -/
def registerDemo (w : World) : World :=
  DemoHandlers.all.foldl (fun w entry => w.register .runner entry.1 entry.2) w

/-- The worker loops of the runner and its cleanup loop begin. -/
def spawnLoops (w : World) (runner : Runner) (slots : List Slot) : World :=
  let w := slots.foldl
    (fun w slot =>
      match Worker.create slot.queue (runner.workerId slot) w.config with
      | .ok worker => w.spawn .runner (.polling worker (.start w.config.pollInterval w.nanos))
      | .error _ => w) w
  w.spawn .runner (.idling (.start w.config.cleanupInterval w.nanos))

/-- **The runner starts.** -/
def start (w : World) : Answer × World :=
  match w.runner with
  | none => (.nothing, w)
  | some runner =>
    let (r, runner) := runner.start .current
    let w := { w with runner := some runner }
    match r with
    | .error e => (.refused e, w)
    | .ok slots => (.nothing, w.spawnLoops runner slots)

/-- A queue is declared. -/
def addQueue (w : World) (queue : QueueName) : Answer × World :=
  let runner := w.runner.map fun runner => runner.addQueue queue
  (.names ((runner.map Runner.queues).getD []), { w with runner := runner })

/-! ### Commands -/

/-- **A command is carried out.** -/
def execute (w : World) : Command → Progress
  | .now => .done (.time w.now) w
  | .setClock time =>
    let w := { w with clock := w.clock.set w.elapsed time }
    .done (.time w.now) w
  | .advanceClock d =>
    let w := { w with clock := w.clock.advance d }
    .done (.time w.now) w
  | .enqueue request => w.enqueue request
  | .call (.insert job) =>
    (w.enter job.id).attemptCall (.insert job) none fun r _ => Answer.ofOutcome (.insert job) r
  | .call call => w.attemptCall call none fun r _ => Answer.ofOutcome call r
  | .boundedCall call =>
    w.attemptCall call (some w.config.storeTimeout) fun r _ => Answer.ofOutcome call r
  | .overview =>
    w.attemptCall .queueStats (some w.config.storeTimeout) fun r w =>
      match w.runner with
      | some runner =>
        Answer.ofExcept (fun queues => .overview (runner.stats w.team.inFlight queues)) r
      | none => Answer.ofExcept .queues r
  | .peek id => .done (w.peek id) w
  | .jobs =>
    let (r, w) := w.readings w.enteredIds
    .done (Answer.ofExcept .jobs (r.mapError JobError.breakdown)) w
  | .inFlight => .done (.names w.direct.inFlight.ids) w
  | .calls => .done (.calls w.calls.reverse) w
  | .forgetCalls => .done .nothing { w with calls := [] }
  | .log => .done (.entries w.log.reverse) w
  | .forgetLog => .done .nothing { w with log := [] }
  | .inject fault =>
    let (r, store) := w.store.inject fault
    let answer := match fault with
      | .setCell _ _ _ => Answer.ofExcept .count r
      | _ => Answer.ofExcept (fun _ => .nothing) r
    .done answer { w with store := store }
  | .stall methods => .done .nothing { w with stalled := methods }
  | .migrate => w.migrate
  | .schemaVersion => w.onDatabase (fun store => (store.connection.schemaVersion, store)) .version
  | .schema => w.onDatabase (fun store => (.ok store.connection.database.schema, store)) .names
  | .reopen =>
    w.onDatabase (fun store => (store.reopen.connection.schemaVersion, store.reopen)) .version
  | .race queue workers =>
    let (answer, w) := w.race queue workers
    .done answer w
  | .shutdown => .done .nothing (w.signalShutdown .direct)
  | .jobTypes party => .done (.names (w.site party).registry.jobTypes) w
  | .isRegistered party jobType =>
    .done (.truth ((w.site party).registry.find? jobType).isSome) w
  | .registerDemo => .done .nothing w.registerDemo
  | .addQueue queue =>
    let (answer, w) := w.addQueue queue
    .done answer w
  | .start =>
    let (answer, w) := w.start
    .done answer w
  | .isStarted => .done (.truth (w.runner.any Runner.started)) w

end JobQueue.World

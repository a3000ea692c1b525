import JobQueue.Simulation.Execution

/-! # Steps of the simulated system

A step serves the first ready task, which makes one move: it takes a tick, makes one store call,
gives one command, or goes to rest. A task that can go on stays first. When no task is ready, time
jumps to the earliest moment at which a task goes on by itself, and the tasks of that moment
become ready in the order in which they began to wait for it.

* The upgrade of a schema takes its steps in turns with the other tasks: one of them may apply a
  migration after another has found it pending.
* A worker or a cleanup loop looks at the shutdown signal only when it waits for a tick, so it
  never ends in the middle of an attempt or a pass.
* A store call by a worker or a cleanup pass that gets no answer is given up at its limit.
* A handler that has not ended when its time is over is cancelled; one that has no time never
  begins.
* A breakdown ends the task in which it happens: a handler has then panicked, and so has the host; a
  loop is no more (`World.breakDown`).

`World.step` is one step, `World.run` the steps up to the end of the host. -/

namespace JobQueue.World

/-! ### Ends of programs -/

/-- A program has ended: the worker of the handler is told, or nothing is left to do. -/
def finish (w : World) (task : Task) (role : Role) (ending : Ending) : World :=
  match role with
  | .host => { w with ended := some ending }
  | .handler owner =>
    let w := w.remove task.id
    match w.task? owner with
    | none => w
    | some t =>
      match t.work with
      | .attempting trial sequel =>
        if trial.handler = some task.id then
          let work := .attempting { trial with ending := some ending } sequel
          (w.setTask { t with work := work }).wake owner
        else w
      | _ => w

/-- **A task breaks down** in the middle of its work. -/
def breakDown (w : World) (task : Task) (cause : Breakdown) : World :=
  let left := w.abandon task
  match task.work.role? with
  | some role => left.finish task role (.panicked (some cause.message))
  | none => left

/-! ### Bounded calls -/

/-- A call of a task with a limit, `next` going on with its outcome. A stalled call keeps the task
at rest until the limit; a breakdown of the call is one of the task. -/
def await (w : World) (task : Task) (call : Call) (limit : Duration)
    (next : call.Outcome → World → World) : World :=
  match task.limit with
  | some time =>
    if time ≤ w.nanos then next (.error (call.timeout limit)) w else w.rest task time
  | none =>
    let w := w.record call
    if w.isStalled call then
      let time := w.after limit
      if limit.isZero then next (.error (call.timeout limit)) w
      else w.rest { task with limit := some time } time
    else
      let (outcome, w) := w.invoke call
      match outcome with
      | .error (.breakdown cause) => w.breakDown task cause
      | outcome => next outcome w

/-! ### Workers -/

/-- A worker loop that waits for its tick. -/
def stepPolling (w : World) (task : Task) (worker : Worker) (ticker : Ticker) : World :=
  if (w.site task.party).shutdown.endsWait then w.removeLoop task.id
  else if ticker.isDue w.nanos then
    w.go task (.attempting (.start worker task.party) (.loop (ticker.take w.nanos)))
  else w.rest task ticker.due

/-- The handler of a claimed job is started, if it has any time. -/
def startHandler (w : World) (task : Task) (trial : Trial) (job : Job) (code : HandlerCode)
    (sequel : Sequel (Except JobError Bool)) : World :=
  let limit := trial.worker.handlerTimeout
  let trial := trial.move (.handling job)
  let task := { task with work := .attempting trial sequel }
  match JobContext.ofJob job limit with
  | .error cause => w.breakDown task cause
  | .ok context =>
    if limit.isZero then
      w.go task (.attempting (trial.move (trial.worker.afterHandler job none)) sequel)
    else
      let trial := { trial with handler := some w.nextTask }
      let w := w.spawn trial.party (.running (.handler task.id) (code context job.payload))
      let time := w.after limit
      w.rest { task with work := .attempting trial sequel, limit := some time } time

/-- The claim of a worker is answered: a claimed job is in flight, and its handler starts. -/
def claimAnswered (w : World) (task : Task) (trial : Trial)
    (sequel : Sequel (Except JobError Bool)) (answer : Except JobError (Option Job)) : World :=
  let registry := (w.site trial.party).registry
  let attempt := Worker.afterClaim (fun jobType => (registry.find? jobType).isSome) answer
  let w := match attempt.job? with
    | some job => w.track trial.party job.id
    | none => w
  match attempt with
  | .handling job =>
    match registry.find? job.jobType with
    | some code => w.startHandler task trial job code sequel
    | none => w.go task (.attempting (trial.move attempt) sequel)
  | _ => w.go task (.attempting (trial.move attempt) sequel)

/-- A worker whose handler runs: it has ended, its time is over, or neither. -/
def stepHandling (w : World) (task : Task) (trial : Trial) (job : Job)
    (sequel : Sequel (Except JobError Bool)) : World :=
  let go (w : World) : World :=
    w.go task (.attempting (trial.move (trial.worker.afterHandler job trial.ending)) sequel)
  match trial.ending, task.limit with
  | some _, _ => go w
  | none, some time =>
    if time ≤ w.nanos then go (trial.handler.elim w w.cancel) else w.rest task time
  | none, none => w.settle task

/-- A worker in an attempt. -/
def stepAttempting (w : World) (task : Task) (trial : Trial)
    (sequel : Sequel (Except JobError Bool)) : World :=
  let worker := trial.worker
  match trial.attempt with
  | .claiming =>
    w.await task worker.claim worker.storeTimeout fun answer w =>
      w.claimAnswered task trial sequel answer
  | .handling job => w.stepHandling task trial job sequel
  | .reporting job report =>
    w.await task (report.call job.id worker.id) worker.storeTimeout fun _ w =>
      (w.release trial.party job.id).go task (.attempting (trial.move Worker.afterReport) sequel)
  | .finished claimed =>
    match sequel with
    | .loop ticker => w.go task (.polling worker ticker)
    | .program role next => w.go task (.running role (next claimed))

/-! ### Cleanup -/

/-- A cleanup loop that waits for its tick. -/
def stepIdling (w : World) (task : Task) (ticker : Ticker) : World :=
  if (w.site task.party).shutdown.endsWait then w.removeLoop task.id
  else if ticker.isDue w.nanos then
    w.go task (.cleaning .recovering (.loop (ticker.take w.nanos)))
  else w.rest task ticker.due

/-- A cleanup pass comes to its next point, or breaks down. -/
def advancePass (w : World) (task : Task) (sequel : Sequel CleanupReport) :
    Except Breakdown CleanupPass → World
  | .ok pass => w.go task (.cleaning pass sequel)
  | .error cause => w.breakDown task cause

/-- The count of a call that counts. -/
def countOf (call : Call) (outcome : call.Outcome) : Except JobError Nat :=
  match Answer.ofOutcome call outcome with
  | .count n => .ok n
  | .refused e => .error e
  | _ => .ok 0

/-- A cleanup pass. -/
def stepCleaning (w : World) (task : Task) (pass : CleanupPass) (sequel : Sequel CleanupReport) :
    World :=
  let limit := w.config.storeTimeout
  match pass with
  | .recovering =>
    w.await task (CleanupPass.recoverCall w.config) limit fun outcome w =>
      w.advancePass task sequel (CleanupPass.afterRecovery outcome)
  | .pruning recovered =>
    match CleanupPass.pruneCall w.config w.now with
    | .error cause => w.breakDown task cause
    | .ok call =>
      w.await task call limit fun outcome w =>
        w.advancePass task sequel (CleanupPass.afterPruning recovered (countOf call outcome))
  | .finished report =>
    match sequel with
    | .loop ticker => w.go task (.idling ticker)
    | .program role next => w.go task (.running role (next report))

/-! ### Programs -/

/-- A program waits for the end of a time, then goes on with `next`. -/
def stepPause (w : World) (task : Task) (role : Role) (time : Duration) (next : Program) : World :=
  match task.limit with
  | some limit => if limit ≤ w.nanos then w.go task (.running role next) else w.rest task limit
  | none =>
    let limit := w.after time
    if time.isZero then w.go task (.running role next)
    else w.rest { task with limit := some limit } limit

/-- A command of a program is carried out. -/
def stepCommand (w : World) (task : Task) (role : Role) (command : Command)
    (next : Answer → Program) : World :=
  match w.execute command with
  | .done answer w =>
    match answer.breakdown? with
    | some cause => w.breakDown task cause
    | none => w.go task (.running role (next answer))
  | .waits (some limit) late w => w.go task (.running role (.pause limit (next late)))
  | .waits none _ w => w.settle { task with work := .running role .stuck, limit := none }
  | .upgrades w => w.go task (.running role (.upgrade .reading next))

/-- The schema is a step nearer to being up to date; before the step that follows the other tasks
have their turn. -/
def stepUpgrade (w : World) (task : Task) (role : Role) (upgrade : Sql.Upgrade)
    (next : Answer → Program) : World :=
  match w.store with
  | .memory _ => w.go task (.running role (next .nothing))
  | .sql store =>
    let (upgrade, connection) := upgrade.step store.connection
    let w := { w with store := .sql { store with connection := connection } }
    match upgrade with
    | .finished result =>
      let answer := Answer.ofExcept (fun _ => .nothing) (result.mapError Sql.Fault.toError)
      w.go task (.running role (next answer))
    | upgrade => w.yield task (.running role (.upgrade upgrade next))

/-- A program waits for a job to have a state; it looks once a millisecond. -/
def stepAwaitStatus (w : World) (task : Task) (role : Role) (id : JobId) (status : Status)
    (limit : Duration) (next : Bool → Program) : World :=
  let time := task.limit.getD (w.after limit)
  match w.hasStatus id status with
  | (.error cause, w) => w.breakDown task cause
  | (.ok true, w) => w.go task (.running role (next true))
  | (.ok false, w) =>
    if time ≤ w.nanos then w.go task (.running role (next false))
    else w.rest { task with limit := some time } (w.nanos + nanosPerMilli)

/-- A program waits for the loops of the runner: they have ended, the time is over, when the jobs in
flight are reported, or neither. -/
def stepStopping (w : World) (task : Task) (role : Role) (next : Answer → Program) : World :=
  if w.drained then w.go task (.running role (next .nothing))
  else match task.limit with
    | some time =>
      if time ≤ w.nanos then
        w.go task (.running role (next (.refused (.shutdownTimeout w.team.inFlight.ids))))
      else w.rest task time
    | none => w.settle task

/-- **The runner is stopped.** The shutdown is signalled and the loops have the given time to end;
when it is over they go on to their end. -/
def stop (w : World) (task : Task) (role : Role) (timeout : Duration) (next : Answer → Program) :
    World :=
  match w.runner with
  | none => w.go task (.running role (next .nothing))
  | some runner =>
    let (active, runner) := runner.stop
    let w := { w with runner := some runner }
    if active then
      (w.signalShutdown .runner).stepStopping
        { task with work := .stopping role next, limit := some (w.after timeout) } role next
    else w.go task (.running role (next .nothing))

/-- A program. -/
def stepProgram (w : World) (task : Task) (role : Role) (program : Program) : World :=
  let shutdown := (w.site task.party).shutdown
  match program with
  | .finish ending => w.finish task role ending
  | .perform command next => w.stepCommand task role command next
  | .register party jobType code next =>
    (w.register party jobType code).go task (.running role next)
  | .checkShutdown next => w.go task (.running role (next shutdown.signalled))
  | .pause time next => w.stepPause task role time next
  | .awaitShutdown next =>
    if shutdown.endsWait then w.go task (.running role next) else w.settle task
  | .pauseUnlessShutdown time onTime onShutdown =>
    if shutdown.endsWait && !time.isZero then w.go task (.running role onShutdown)
    else w.stepPause task role time onTime
  | .awaitStatus id status limit next => w.stepAwaitStatus task role id status limit next
  | .attempt queue worker next =>
    match Worker.create queue worker w.config with
    | .error cause => w.breakDown task cause
    | .ok worker => w.go task (.attempting (.start worker .direct) (.program role next))
  | .cleanup next => w.go task (.cleaning .recovering (.program role next))
  | .upgrade upgrade next => w.stepUpgrade task role upgrade next
  | .stop timeout next => w.stop task role timeout next
  | .log entry next => { w with log := entry :: w.log }.go task (.running role next)
  | .stuck => w.settle task

/-! ### The system -/

/-- **One move of a task.** -/
def stepTask (w : World) (task : Task) : World :=
  if task.cancelled then w.discard task
  else match task.work with
    | .polling worker ticker => w.stepPolling task worker ticker
    | .attempting trial sequel => w.stepAttempting task trial sequel
    | .idling ticker => w.stepIdling task ticker
    | .cleaning pass sequel => w.stepCleaning task pass sequel
    | .running role program => w.stepProgram task role program
    | .stopping role next => w.stepStopping task role next

/-- The next moment at which a task goes on by itself. -/
def nextAlarm (w : World) : Option Nat :=
  w.tasks.foldl
    (fun best t => match t.alarm, best with
      | some (due, _), some time => some (min due time)
      | some (due, _), none => some due
      | none, best => best) none

/-- A task in the order of turns. -/
def insertByTurn (turn : Nat) (id : TaskId) : List (Nat × TaskId) → List (Nat × TaskId)
  | [] => [(turn, id)]
  | (n, other) :: rest =>
    if turn < n then (turn, id) :: (n, other) :: rest else (n, other) :: insertByTurn turn id rest

/-- The tasks of the moment, in the order of their turns. -/
def dueTasks (w : World) (time : Nat) : List TaskId :=
  (w.tasks.foldl
    (fun due t => match t.alarm with
      | some (moment, turn) => if moment ≤ time then insertByTurn turn t.id due else due
      | none => due) []).map (·.2)

/-- Time jumps to the moment; its tasks become ready. -/
def jump (w : World) (time : Nat) : World :=
  { w with
    elapsed := max w.elapsed time
    ready := w.dueTasks time
    tasks := w.tasks.map fun t =>
      if t.alarm.any fun a => a.1 ≤ time then { t with alarm := none } else t }

/-- **One step**; there is none when nothing can happen any more. -/
def step (w : World) : Option World :=
  match w.ready with
  | id :: rest =>
    let w := { w with ready := rest }
    match w.task? id with
    | some task => some (w.stepTask task)
    | none => some w
  | [] =>
    if w.hostReady then some { w with hostReady := false, ready := [hostTask] }
    else w.nextAlarm.map w.jump

/-- **Steps** until the host has ended or nothing can happen any more; `fuel` bounds their
number. -/
def run : Nat → World → World
  | 0, w => w
  | fuel + 1, w =>
    if w.ended.isSome then w
    else match w.step with
      | some w => run fuel w
      | none => w

/-- Steps enough for any host. -/
def patience : Nat := 1000000000

end JobQueue.World

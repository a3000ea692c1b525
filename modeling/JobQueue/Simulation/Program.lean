import JobQueue.Cleanup
import JobQueue.Simulation.Command

/-! # Programs

The host and the handlers are given as programs: trees of what they do next. A program gives
commands and goes on by their answers, lets time pass, waits for the shutdown or for a job, makes an
attempt as a worker does or a cleanup pass, brings the schema of the database up to date, stops the
runner, and writes to a log, until it ends. -/

namespace JobQueue

/-- **A program.** -/
inductive Program where
  | finish (ending : Ending)
  | perform (command : Command) (next : Answer → Program)
  /-- A handler, given by its code, is registered. -/
  | register (party : Party) (jobType : JobType) (code : JobContext → Fields → Program)
      (next : Program)
  /-- The program asks whether the shutdown was signalled. -/
  | checkShutdown (next : Bool → Program)
  | pause (time : Duration) (next : Program)
  | awaitShutdown (next : Program)
  /-- Time passes, unless the shutdown comes first. -/
  | pauseUnlessShutdown (time : Duration) (onTime onShutdown : Program)
  /-- The job is looked at time and again, until it has the state or the time is over. -/
  | awaitStatus (id : JobId) (status : Status) (limit : Duration) (next : Bool → Program)
  /-- One attempt of a worker outside the runner. -/
  | attempt (queue : QueueName) (worker : WorkerId) (next : Except JobError Bool → Program)
  /-- One cleanup pass. -/
  | cleanup (next : CleanupReport → Program)
  /-- The schema is brought up to date, as far as it is not. -/
  | upgrade (upgrade : Sql.Upgrade) (next : Answer → Program)
  /-- The runner is stopped. -/
  | stop (timeout : Duration) (next : Answer → Program)
  | log (entry : Json) (next : Program)
  /-- The program goes on no more. -/
  | stuck

instance : Inhabited Program := ⟨.stuck⟩

/-- **The code of a handler.** -/
abbrev HandlerCode := JobContext → Fields → Program

end JobQueue

import JobQueue.InFlight
import JobQueue.Shutdown
import JobQueue.Simulation.Program
import JobQueue.Worker.Attempt
import JobQueue.Worker.Ticker

/-! # Tasks

Each worker loop, each cleanup loop, each handler and the host is a *task*. What a task is doing is
its `Work`: a loop waits for its tick, an attempt or a pass is under way, a program runs. An
attempt and a pass are made by a loop or in the middle of a program; their `Sequel` says which.

* `Trial`: an attempt that is under way, with its handler.
* `Work.isLoop`: the task is a loop of the runner. -/

namespace JobQueue

/-- **What the tasks of a party share.** -/
structure Site where
  registry : Registry HandlerCode
  inFlight : InFlight
  shutdown : Shutdown

def Site.empty : Site := ⟨.empty, .empty, .fresh⟩

/-- The number of a task. -/
abbrev TaskId := Nat

/-- Who runs a program: the host, or a handler for the worker of a task. -/
inductive Role where
  | host
  | handler (worker : TaskId)
deriving DecidableEq, Repr

/-- **What comes after** an attempt or a pass: a loop waits for its next tick, a program goes on
with the result. -/
inductive Sequel (α : Type) where
  | loop (ticker : Ticker)
  | program (role : Role) (next : α → Program)

def Sequel.isLoop {α : Type} : Sequel α → Bool
  | .loop _ => true
  | .program _ _ => false

/-- **An attempt under way.** -/
structure Trial where
  worker : Worker
  /-- Whose handlers and jobs in flight the attempt uses. -/
  party : Party
  attempt : Attempt
  /-- The task of the handler. -/
  handler : Option TaskId
  /-- How the handler has ended. -/
  ending : Option Ending

namespace Trial

def start (worker : Worker) (party : Party) : Trial := ⟨worker, party, .claiming, none, none⟩

/-- The attempt has come so far; there is no handler any more. -/
def move (trial : Trial) (attempt : Attempt) : Trial :=
  { trial with attempt := attempt, handler := none, ending := none }

end Trial

/-- **What a task does.** -/
inductive Work where
  /-- A worker loop waits for its next tick. -/
  | polling (worker : Worker) (ticker : Ticker)
  /-- A worker makes an attempt. -/
  | attempting (trial : Trial) (sequel : Sequel (Except JobError Bool))
  /-- A cleanup loop waits for its next tick. -/
  | idling (ticker : Ticker)
  /-- A cleanup pass. -/
  | cleaning (pass : CleanupPass) (sequel : Sequel CleanupReport)
  /-- A program runs. -/
  | running (role : Role) (program : Program)
  /-- A program waits for the loops of the runner to end. -/
  | stopping (role : Role) (next : Answer → Program)

namespace Work

/-- The work of a loop of the runner. -/
def isLoop : Work → Bool
  | .polling _ _ => true
  | .attempting _ sequel => sequel.isLoop
  | .idling _ => true
  | .cleaning _ sequel => sequel.isLoop
  | _ => false

def isStopping : Work → Bool
  | .stopping _ _ => true
  | _ => false

/-- Who runs the program that the work is a part of. -/
def role? : Work → Option Role
  | .attempting _ (.program role _) => some role
  | .cleaning _ (.program role _) => some role
  | .running role _ => some role
  | .stopping role _ => some role
  | _ => none

end Work

/-- **A task.** -/
structure Task where
  id : TaskId
  party : Party
  work : Work
  /-- The end of what the task is waiting for, in nanoseconds. -/
  limit : Option Nat
  /-- The moment, in milliseconds, at which the task goes on by itself, and its turn then. -/
  alarm : Option (Nat × Nat)
  /-- The task is to be dropped when it is served. -/
  cancelled : Bool

def Task.create (id : TaskId) (party : Party) (work : Work) : Task :=
  ⟨id, party, work, none, none, false⟩

end JobQueue

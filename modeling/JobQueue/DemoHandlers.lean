import JobQueue.Simulation.Program

/-! # Handlers for trying out

* `echo` returns its payload.
* `sleep` lets the `ms` milliseconds of its payload pass, at most a minute, and fails when the
  shutdown comes first.
* `fail` always fails. -/

namespace JobQueue.DemoHandlers

/-- The longest sleep, in milliseconds. -/
def maxSleepMillis : Nat := 60000

def echo : HandlerCode := fun _ payload => .finish (.returned payload)

/-- The milliseconds to sleep. -/
def sleepMillis? (payload : Fields) : Option Nat :=
  match Fields.get? "ms" payload with
  | some (.int n) => if 0 ≤ n then some (min n.toNat maxSleepMillis) else none
  | _ => none

def sleep : HandlerCode := fun _ payload =>
  match sleepMillis? payload with
  | none => .finish (.failed "payload field 'ms' must be a non-negative integer")
  | some ms =>
    .pauseUnlessShutdown (.ofMillis ms)
      (.finish (.returned [("slept_ms", .int ms)]))
      (.finish (.failed "interrupted by shutdown"))

/-- The reason for a failure. -/
def failReason (payload : Fields) : String :=
  match Fields.get? "reason" payload with
  | some (.str reason) => reason
  | _ => "demo failure"

def fail : HandlerCode := fun context payload =>
  let number (n : Int) : String := String.ofList (Decimal.ofInt n)
  .finish (.failed (failReason payload ++ " (attempt " ++ number context.attempt ++ "/" ++
    number context.maxAttempts ++ ")"))

/-- All of them, by the kind of work. -/
def all : List (JobType × HandlerCode) := [("echo", echo), ("sleep", sleep), ("fail", fail)]

end JobQueue.DemoHandlers

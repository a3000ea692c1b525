import JobQueue.Config
import JobQueue.Store.Call
import JobQueue.Timestamp

/-! # Cleanup passes

A pass puts abandoned jobs back and then removes jobs that ended long ago. The second call is made
whatever the first one answers; the report says for each how many jobs it changed, if it
succeeded. -/

namespace JobQueue

/-- **The result of a pass**; a part that failed has no count. -/
structure CleanupReport where
  recovered : Option Nat
  deleted : Option Nat
deriving DecidableEq, Repr

/-- **Where a pass stands.** -/
inductive CleanupPass where
  | recovering
  | pruning (recovered : Option Nat)
  | finished (report : CleanupReport)
deriving DecidableEq, Repr

namespace CleanupPass

/-- The count of a call that succeeded; a breakdown of the call is one of the pass. -/
def counted : Except JobError Nat → Except Breakdown (Option Nat)
  | .ok n => .ok (some n)
  | .error (.breakdown cause) => .error cause
  | .error _ => .ok none

/-- The first call. -/
def recoverCall (config : RunnerConfig) : Call := .recoverStale config.staleThreshold

/-- The second call, at its time. -/
def pruneCall (config : RunnerConfig) (now : Int) : Except Breakdown Call :=
  (Timestamp.before now config.retention).map .deleteOlderThan

/-- **The first call is answered.** -/
def afterRecovery (answer : Except JobError Nat) : Except Breakdown CleanupPass :=
  (counted answer).map .pruning

/-- **The second call is answered.** -/
def afterPruning (recovered : Option Nat) (answer : Except JobError Nat) :
    Except Breakdown CleanupPass :=
  (counted answer).map fun deleted => .finished ⟨recovered, deleted⟩

end CleanupPass

end JobQueue

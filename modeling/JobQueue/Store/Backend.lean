import JobQueue.Store.Memory
import JobQueue.Store.Sql.Store

/-! # Either store

The rest of the library works with a store of either kind, through its calls only. -/

namespace JobQueue

/-- **A job store.** -/
inductive Backend where
  | memory (store : MemoryStore)
  | sql (store : Sql.Store)
deriving Repr

/-- **A call at a time.** -/
def Backend.run (call : Call) (now : Int) : Backend → call.Outcome × Backend
  | .memory store =>
    let (outcome, store) := store.run call now
    (outcome, .memory store)
  | .sql store =>
    let (outcome, store) := store.run call now
    (outcome, .sql store)

end JobQueue

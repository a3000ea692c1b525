import JobQueue.Store.Backend

/-! # Faults

What can be done to a store behind the back of those who use it. A fault that the kind of store does
not have changes nothing. -/

namespace JobQueue

/-- **A fault of a store.** -/
inductive StoreFault where
  /-- Every call of a store in memory fails, or no longer does. -/
  | unavailable (value : Bool)
  /-- One column of a row is set past the checks of the table. -/
  | setCell (id : String) (column : Sql.Column) (value : Sql.Value)
  | readOnly (value : Bool)
  | noGrowth
  | dropTable
  | dropColumn (column : Sql.Column)
  | close
  | locked (value : Bool)
  | forgetVersions
deriving Repr

namespace Sql.Connection

/-- The fault takes effect; the answer is the number of rows that it changed. -/
def inject (c : Connection) : StoreFault → Except Fault (Nat × Connection)
  | .unavailable _ => .ok (0, c)
  | .setCell id column value => c.setCell id column value
  | .readOnly value => (c.setReadOnly value).map fun c => (0, c)
  | .noGrowth => c.forbidGrowth.map fun c => (0, c)
  | .dropTable => c.dropTable.map fun c => (0, c)
  | .dropColumn column => (c.dropColumn column).map fun c => (0, c)
  | .close => .ok (0, c.close)
  | .locked value => .ok (0, c.setLocked value)
  | .forgetVersions => c.forgetVersions.map fun c => (0, c)

end Sql.Connection

/-- **The fault takes effect**; the answer is the number of rows that it changed. -/
def Backend.inject (fault : StoreFault) : Backend → Except JobError Nat × Backend
  | .memory store =>
    match fault with
    | .unavailable value => (.ok 0, .memory { store with available := !value })
    | _ => (.ok 0, .memory store)
  | .sql store =>
    match store.connection.inject fault with
    | .ok (n, connection) => (.ok n, .sql { store with connection := connection })
    | .error fault => (.error fault.toError, .sql store)

end JobQueue

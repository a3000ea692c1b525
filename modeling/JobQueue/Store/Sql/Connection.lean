import JobQueue.Store.Sql.Database

/-! # Access to a database

A connection may be closed, may be read-only, may find the database locked by another writer, or may
be unable to make the file grow. A statement meets the obstacles in a fixed order: the connection is
closed; a table or a column that it names does not exist; it writes and may not; the constraints of
the table; no room.

* `Connection.query`: a statement that reads the jobs table.
* `Connection.modify`: a statement that changes it.
* `paged_of_unbounded`: only a file that may not grow has no room.
* `jobs_of_withTable`: the rows do not depend on the room. -/

namespace JobQueue.Sql

/-- The obstacles of a connection. -/
structure Access where
  closed : Bool
  readOnly : Bool
  locked : Bool
  bounded : Bool
deriving DecidableEq, Repr

/-- No obstacle. -/
def Access.free : Access := ⟨false, false, false, false⟩

/-- **A database and the access to it.** -/
structure Connection where
  database : Database
  access : Access
deriving Repr

namespace Connection

def ofDatabase (database : Database) : Connection := ⟨database, .free⟩

/-- The connection is open. -/
def opened (c : Connection) : Except Fault Unit :=
  if c.access.closed then .error .closed else .ok ()

/-- Statements may write. -/
def writable (c : Connection) : Except Fault Unit :=
  if c.access.readOnly then .error .readOnly
  else if c.access.locked then .error .locked
  else .ok ()

/-- The jobs table. -/
def table (c : Connection) : Except Fault Table := do
  c.opened
  match c.database.jobs with
  | some table => .ok table
  | none => .error (.noTable "jobs")

/-- The named columns exist. -/
def named (table : Table) (columns : List Column) : Except Fault Unit :=
  (table.resolve columns).mapError Fault.noColumn

/-- The pages after a change of them, and those then given up; a file that can grow has room for
every change. -/
def paged {α : Type} (c : Connection) (unchanged : α) (change : Paging α) :
    Except Fault (α × Nat) :=
  let after := change ⟨c.database.free, c.access.bounded⟩
  if c.access.bounded && after.isNone then .error .full
  else .ok (after.elim (unchanged, c.database.free) fun (pages, space) => (pages, space.free))

theorem paged_of_unbounded {α : Type} {c : Connection} (h : c.access.bounded = false)
    (unchanged : α) (change : Paging α) : ∃ after, c.paged unchanged change = .ok after := by
  unfold paged
  simp [h]

/-- The jobs table is another one, whose pages have changed. -/
def withTable (c : Connection) (table : Table) (change : Paging Pages) :
    Except Fault Connection := do
  let (pages, free) ← c.paged table.pages change
  let table := { table with pages := pages }
  return { c with database := { c.database with jobs := some table, free := free } }

/-- Only the pages of the table depend on the room, and nothing else changes with it. -/
theorem jobs_of_withTable {c c' : Connection} {table : Table} {change : Paging Pages}
    (h : c.withTable table change = .ok c') :
    (∃ pages, c'.database.jobs = some { table with pages := pages }) ∧
      c'.database.versions = c.database.versions ∧ c'.access = c.access := by
  unfold withTable at h
  cases hp : c.paged table.pages change with
  | error fault =>
    rw [hp] at h
    cases h
  | ok after =>
    obtain ⟨pages, free⟩ := after
    rw [hp] at h
    obtain rfl := (Except.ok.inj h).symm
    exact ⟨⟨pages, rfl⟩, rfl, rfl⟩

/-- **A statement that reads** the jobs table. -/
def query {α : Type} (c : Connection) (columns : List Column) (read : Table → α) :
    Except Fault α := do
  let table ← c.table
  named table columns
  return read table

/-- **A statement that changes** the jobs table and its pages, and gives an answer. -/
def modify {α : Type} (c : Connection) (columns : List Column) (change : Table → α × Table)
    (pages : Table → Paging Pages) : Except Fault (α × Connection) := do
  let table ← c.table
  named table columns
  c.writable
  let (a, changed) := change table
  return (a, ← c.withTable changed (pages table))

/-- A new row. -/
def insert (c : Connection) (row : Row) : Except Fault Connection := do
  let table ← c.table
  (table.resolve Column.all).mapError Fault.noColumnNamed
  c.writable
  c.withTable (← table.insert? row) (table.insertPages row)

/-! ### Interference -/

def close (c : Connection) : Connection := { c with access := { c.access with closed := true } }

/-- A new connection to the same file, or to a new database where there is none; what another
connection holds it still holds. -/
def reopen (c : Connection) : Connection :=
  ⟨if c.database.inFile then c.database else .empty false,
    { Access.free with locked := c.access.locked }⟩

def setReadOnly (c : Connection) (value : Bool) : Except Fault Connection := do
  c.opened
  return { c with access := { c.access with readOnly := value } }

/-- Another connection takes the right to write, or gives it back. -/
def setLocked (c : Connection) (value : Bool) : Connection :=
  { c with access := { c.access with locked := value } }

/-- The file can grow no more; a database without pages still can. -/
def forbidGrowth (c : Connection) : Except Fault Connection := do
  c.opened
  return { c with access := { c.access with bounded := c.access.bounded || c.database.hasPages } }

/-- The jobs table goes, with its rows and indexes. -/
def dropTable (c : Connection) : Except Fault Connection := do
  let table ← c.table
  c.writable
  let free := c.database.free + table.pages.count
  return { c with database := { c.database with jobs := none, free := free } }

/-- A column of the jobs table goes, unless the key or an index needs it. -/
def dropColumn (c : Connection) (column : Column) : Except Fault Connection := do
  let table ← c.table
  (table.resolve [column]).mapError Fault.noColumnToDrop
  if column = .id then throw (.keyColumn column)
  c.writable
  match table.indexes.find? fun index => index.columns.contains column with
  | some index => throw (.indexedColumn index.name column)
  | none =>
    let table := { table with dropped := table.dropped ++ [column] }
    c.withTable table (table.pages.replaceRows table.columns table.rows)

/-- A single column of a row is set past the checks of the table; the answer is the number of
rows. -/
def setCell (c : Connection) (id : String) (column : Column) (value : Value) :
    Except Fault (Nat × Connection) := do
  let table ← c.table
  named table [column]
  c.writable
  match table.find? id with
  | none => return (0, c)
  | some row =>
    let new ← table.set? row column value
    let (rows, changed) := table.update (fun row => row.id == id) fun _ => new
    return (rows.length,
      ← c.withTable changed (table.updatePages [column] (fun row => row.id == id) fun _ => new))

/-- The record of applied versions is emptied. -/
def forgetVersions (c : Connection) : Except Fault Connection := do
  c.opened
  match c.database.versions with
  | some _ =>
    c.writable
    return { c with database := { c.database with versions := some [] } }
  | none => .error (.noTable "schema_version")

end Connection

end JobQueue.Sql

import JobQueue.Store.Sql.Pages

/-! # The database

A database may have the table of jobs, with its indexes, and the table of applied schema versions.
Columns of the jobs table can be dropped; the rows keep their values but no statement can name
them.

A statement is an answer and the table after it; what it does to the pages of the table is said
apart, as it matters only where the pages may run out. `Sql.Fault` lists what a statement can fail
with; a statement that fails changes nothing.

* `Table.update`, `Table.delete`: the rows that a condition picks, and how many.
* `Table.insert?`, `Table.set?`: the constraints of the table, in the order in which they are
  checked.
* `Table.groups`: the counts by queue and state in increasing order. -/

namespace JobQueue.Sql

/-- **What a statement fails with.** -/
inductive Fault where
  /-- The connections are closed. -/
  | closed
  | noTable (table : String)
  | noColumn (column : Column)
  /-- An inserted column does not exist. -/
  | noColumnNamed (column : Column)
  | readOnly
  /-- Another connection is writing. -/
  | locked
  /-- The file cannot grow. -/
  | full
  /-- A check of the table fails. -/
  | checkFailed (condition : String)
  /-- A column must have a value. -/
  | missingValue (column : Column)
  /-- The key exists. -/
  | notUnique (column : String)
  /-- The column to be dropped does not exist. -/
  | noColumnToDrop (column : Column)
  /-- The column of the key cannot be dropped. -/
  | keyColumn (column : Column)
  /-- A column of an index cannot be dropped. -/
  | indexedColumn (index : String) (column : Column)
deriving DecidableEq, Repr

namespace Fault

/-- The wording of the database. -/
def message : Fault → String
  | .closed => "attempted to acquire a connection on a closed pool"
  | .noTable table => "Database error [1]: no such table: " ++ table
  | .noColumn column => "Database error [1]: no such column: " ++ column.name
  | .noColumnNamed column => "Database error [1]: table jobs has no column named " ++ column.name
  | .readOnly => "Database error [8]: attempt to write a readonly database"
  | .locked => "Database locked (SQLITE_BUSY): database is locked"
  | .full => "Database full: database or disk is full"
  | .checkFailed condition =>
    "Check constraint violation: CHECK constraint failed: " ++ condition ++ " (275)"
  | .missingValue column =>
    "Database error [1299]: NOT NULL constraint failed: jobs." ++ column.name
  | .notUnique column =>
    "Unique constraint violation: UNIQUE constraint failed: " ++ column ++ " (1555)"
  | .noColumnToDrop column => "Database error [1]: no such column: \"" ++ column.name ++ "\""
  | .keyColumn column =>
    "Database error [1]: cannot drop PRIMARY KEY column: \"" ++ column.name ++ "\""
  | .indexedColumn index column =>
    "Database error [1]: error in index " ++ index ++ " after drop column: no such column: " ++
      column.name

def toError (fault : Fault) : JobError := .database fault.message

end Fault

/-- An index on columns of the jobs table. -/
structure Index where
  name : String
  columns : List Column
deriving DecidableEq, Repr

/-- **The table of jobs.** -/
structure Table where
  /-- The rows in the order of their numbers. -/
  rows : List Row
  dropped : List Column
  indexes : List Index
  pages : Pages
deriving Repr

namespace Table

/-- A table without rows and indexes. -/
def empty : Table := ⟨[], [], [], .empty⟩

/-- The columns that the table has. -/
def columns (table : Table) : List Column :=
  Column.all.filter fun column => !table.dropped.contains column

/-- The rows that meet the condition are changed; the answer is the rows as they are then. -/
def update (table : Table) (condition : Row → Bool) (change : Row → Row) : List Row × Table :=
  ((table.rows.filter condition).map change,
    { table with rows := table.rows.map fun row => if condition row then change row else row })

/-- The rows that meet the condition are removed; the answer is their number. -/
def delete (table : Table) (condition : Row → Bool) : Nat × Table :=
  (table.rows.countP condition,
    { table with rows := table.rows.filter fun row => !condition row })

/-- The row of an id. -/
def find? (table : Table) (id : String) : Option Row := table.rows.find? fun row => row.id == id

/-- **A new row**, if the table's constraints allow it: at least one attempt is allowed, and the
id is new. -/
def insert? (table : Table) (row : Row) : Except Fault Table :=
  if row.maxAttempts.isBelow (.int 1) then .error (.checkFailed "max_attempts >= 1")
  else if table.rows.any fun other => other.id == row.id then .error (.notUnique "jobs.id")
  else .ok { table with rows := table.rows ++ [row] }

/-- **A row with one column set**, if the table's constraints but the checks allow it. -/
def set? (table : Table) (row : Row) (column : Column) (value : Value) : Except Fault Row :=
  match row.set? column value with
  | none => .error (.missingValue column)
  | some new =>
    if new.id ≠ row.id ∧ (table.find? new.id).isSome then .error (.notUnique "jobs.id")
    else .ok new

/-- The columns that a statement names exist; else the first that does not. -/
def resolve (table : Table) (columns : List Column) : Except Column Unit :=
  match columns.find? table.dropped.contains with
  | some column => .error column
  | none => .ok ()

/-! ### Pages -/

/-- The pages after a new row. -/
def insertPages (table : Table) (row : Row) : Paging Pages :=
  table.pages.insert table.columns row

/-- The pages after an update that sets the columns. -/
def updatePages (table : Table) (changed : List Column) (condition : Row → Bool)
    (change : Row → Row) : Paging Pages :=
  (table.rows.filter condition).foldlM
    (fun pages row => pages.update table.columns changed row (change row)) table.pages

/-- Ended rows are found by their state and time. -/
def retentionColumns : List Column := [.status, .updatedAt]

/-- The order in which ended rows are found. -/
def retentionLe (a b : Row) : Bool :=
  !Value.lexLt (retentionColumns.map b.value) (retentionColumns.map a.value)

/-- The pages after ended rows are removed. -/
def deletePages (table : Table) (condition : Row → Bool) : Paging Pages :=
  ((table.rows.filter condition).mergeSort retentionLe).foldlM
    (fun pages row => pages.delete retentionColumns row) table.pages

/-! ### Groups -/

/-- A queue and the name of a state. -/
abbrev GroupKey := String × String

def GroupKey.lt (a b : GroupKey) : Bool := a.1 < b.1 || (a.1 == b.1 && a.2 < b.2)

/-- One more row of a group, the groups in increasing order. -/
def count (key : GroupKey) : List (GroupKey × Nat) → List (GroupKey × Nat)
  | [] => [(key, 1)]
  | (k, n) :: rest =>
    if GroupKey.lt key k then (key, 1) :: (k, n) :: rest
    else if key = k then (k, n + 1) :: rest
    else (k, n) :: count key rest

/-- **The number of rows of each queue and state**, in increasing order. -/
def groups (table : Table) : List (GroupKey × Nat) :=
  table.rows.foldl (fun counts row => count (row.queue, row.status) counts) []

@[simp] theorem rows_update (table : Table) (condition : Row → Bool) (change : Row → Row) :
    (table.update condition change).2.rows =
      table.rows.map fun row => if condition row then change row else row := rfl

@[simp] theorem rows_delete (table : Table) (condition : Row → Bool) :
    (table.delete condition).2.rows = table.rows.filter fun row => !condition row := rfl

theorem update_of_none {table : Table} {condition : Row → Bool} (change : Row → Row)
    (h : ∀ row ∈ table.rows, condition row = false) :
    table.update condition change = ([], table) := by
  have hmap : (table.rows.map fun row => if condition row then change row else row)
      = table.rows := by
    conv => rhs; rw [← List.map_id table.rows]
    exact List.map_congr_left fun row hrow => by simp [h row hrow]
  have hfilter : table.rows.filter condition = [] :=
    List.filter_eq_nil_iff.2 fun row hrow => by simp [h row hrow]
  unfold update
  rw [hmap, hfilter]
  rfl

end Table

/-- **A database.** -/
structure Database where
  jobs : Option Table
  /-- The applied schema versions. -/
  versions : Option (List Int)
  /-- The pages that were given up. -/
  free : Nat
  /-- The database is kept in a file. -/
  inFile : Bool
deriving Repr

namespace Database

/-- A new database. -/
def empty (inFile : Bool) : Database := ⟨none, none, 0, inFile⟩

/-- The database has pages, of which there may be no more. -/
def hasPages (db : Database) : Bool := db.inFile || db.jobs.isSome || db.versions.isSome

/-- The names of the tables and indexes, each with its kind. -/
def schema (db : Database) : List String :=
  let indexes := match db.jobs with
    | some table => table.indexes.map fun index => "index " ++ index.name
    | none => []
  let tables :=
    (if db.jobs.isSome then ["table jobs"] else []) ++
      (if db.versions.isSome then ["table schema_version"] else [])
  (indexes ++ tables).mergeSort fun a b => a ≤ b

end Database

end JobQueue.Sql

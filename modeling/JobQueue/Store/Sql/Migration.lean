import JobQueue.Store.Sql.Connection

/-! # Schema versions

A migration is a list of statements that raises the schema by one version and records it. It runs in
one transaction: all its statements take effect, or none. `migrate` applies the migrations above the
highest recorded version, in order. A connection that shares its database with others is not alone
between the look at the version and the transactions: `Upgrade` is the same work in steps.

* `migrations`: the schema, as data.
* `schemaVersion`: zero for a database without a record.
* `Upgrade.complete_step`: without interference the steps come to what `migrate` does. -/

namespace JobQueue.Sql

/-- **A statement of a migration.** What exists already is left alone. -/
inductive Statement where
  | createJobs
  | createIndex (index : Index)
  | createVersions
  | recordVersion (version : Int)
deriving DecidableEq, Repr

/-- The migrations; the one at place `n` leads to version `n + 1`. -/
def migrations : List (List Statement) :=
  [[.createJobs,
    .createIndex ⟨"idx_jobs_claim", [.queue, .status, .scheduledAt]⟩,
    .createIndex ⟨"idx_jobs_stale", [.status, .claimedAt]⟩,
    .createIndex ⟨"idx_jobs_retention", [.status, .updatedAt]⟩,
    .createVersions,
    .recordVersion 1]]

namespace Statement

/-- The statement would change nothing. -/
def isDone (db : Database) : Statement → Bool
  | .createJobs => db.jobs.isSome
  | .createIndex index =>
    db.jobs.any fun table => table.indexes.any fun other => other.name == index.name
  | .createVersions => db.versions.isSome
  | .recordVersion _ => false

/-- The statement takes effect. -/
def apply (c : Connection) : Statement → Except Fault Connection
  | .createJobs => c.withTable .empty Pages.create
  | .createIndex index =>
    match c.database.jobs with
    | none => .error (.noTable "main.jobs")
    | some table =>
      match table.resolve index.columns with
      | .error column => .error (.noColumn column)
      | .ok () =>
        c.withTable { table with indexes := table.indexes ++ [index] }
          (table.pages.addIndex index.columns table.rows)
  | .createVersions => do
    let (_, free) ← c.paged () .take
    return { c with database := { c.database with versions := some [], free := free } }
  | .recordVersion version =>
    match c.database.versions with
    | none => .error (.noTable "schema_version")
    | some versions =>
      if versions.contains version then .error (.notUnique "schema_version.version")
      else .ok { c with database := { c.database with versions := some (versions ++ [version]) } }

end Statement

namespace Connection

/-- One statement. -/
def execute (c : Connection) (statement : Statement) : Except Fault Connection := do
  if statement.isDone c.database then return c
  c.writable
  statement.apply c

/-- **All statements or none.** -/
def transaction (c : Connection) (statements : List Statement) : Except Fault Connection :=
  statements.foldlM execute c

/-- **The highest recorded version**, zero without a record. -/
def schemaVersion (c : Connection) : Except Fault Int := do
  c.opened
  return (c.database.versions.getD []).foldl max ((c.database.versions.getD []).head?.getD 0)

/-- The migrations from a version on. -/
def pending (version : Int) : List (List Statement) :=
  (migrations.zipIdx.filter fun m => version < m.2 + 1).map (·.1)

/-- The migrations one after the other, up to one that fails. -/
def migrateAll (c : Connection) : List (List Statement) → Except Fault Unit × Connection
  | [] => (.ok (), c)
  | statements :: rest =>
    match c.transaction statements with
    | .error fault => (.error fault, c)
    | .ok c => migrateAll c rest

/-- **The schema is brought up to date.** -/
def migrate (c : Connection) : Except Fault Unit × Connection :=
  match c.schemaVersion with
  | .error fault => (.error fault, c)
  | .ok version => c.migrateAll (pending version)

end Connection

/-- **Where a connection stands that brings the schema up to date.** -/
inductive Upgrade where
  /-- It has not looked at the recorded versions yet. -/
  | reading
  /-- It applies the migrations that are left, of those that it found pending. -/
  | applying (left : List (List Statement))
  | finished (result : Except Fault Unit)

namespace Upgrade

/-- Nothing or some migrations are left. -/
def remaining : List (List Statement) → Upgrade
  | [] => .finished (.ok ())
  | left => .applying left

/-- **The next step**: the look at the versions, or one migration. -/
def step (c : Connection) : Upgrade → Upgrade × Connection
  | .reading =>
    match c.schemaVersion with
    | .error fault => (.finished (.error fault), c)
    | .ok version => (remaining (Connection.pending version), c)
  | .applying [] => (.finished (.ok ()), c)
  | .applying (statements :: left) =>
    match c.transaction statements with
    | .error fault => (.finished (.error fault), c)
    | .ok c => (remaining left, c)
  | .finished result => (.finished result, c)

/-- What comes of the upgrade when no one else touches the database. -/
def complete (c : Connection) : Upgrade → Except Fault Unit × Connection
  | .reading => c.migrate
  | .applying left => c.migrateAll left
  | .finished result => (result, c)

theorem complete_remaining (c : Connection) (left : List (List Statement)) :
    (remaining left).complete c = c.migrateAll left := by
  cases left <;> rfl

/-- **A step does a part of what is to come.** -/
theorem complete_step (c : Connection) (upgrade : Upgrade) :
    (upgrade.step c).1.complete (upgrade.step c).2 = upgrade.complete c := by
  cases upgrade with
  | reading =>
    simp only [step, complete, Connection.migrate]
    cases c.schemaVersion with
    | error fault => rfl
    | ok version => exact complete_remaining c _
  | applying left =>
    cases left with
    | nil => rfl
    | cons statements left =>
      simp only [step, complete, Connection.migrateAll]
      cases c.transaction statements with
      | error fault => rfl
      | ok c => exact complete_remaining c left
  | finished result => rfl

end Upgrade

end JobQueue.Sql

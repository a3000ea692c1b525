import JobQueue.Proofs.Sql.Ready

/-! # Upgrades of one database by several processes

Every process that opens the database brings its schema up to date: it looks at the recorded
versions, and then applies the migrations that it found pending. The look is not part of a
transaction, so other processes may come between the two steps.

For a database whose jobs table, if it has one, has all its columns (`Upgradable`):

* `migrate_outdated`, `migrate_current`: a single run records version 1 unless a version above it
  is recorded, keeps the rows, and never fails.
* `Startup.Describes`: what is so after any schedule of steps, `Startup.describes_run`.
* `Startup.upgrades_of_schedule`: **whatever the schedule, the database becomes the one that a single run
  makes of it**; a process fails exactly when it is overtaken (`Overtaken`), that is, when another
  one applies the migrations after its look and before its own transaction. -/

namespace JobQueue.Sql

namespace Connection

/-- The rows of the jobs table. -/
def rows (c : Connection) : List Row := c.database.jobs.elim [] Table.rows

/-- The recorded versions. -/
def recorded (c : Connection) : List Int := c.database.versions.getD []

/-- Only versions below the first are recorded, if any. -/
def Outdated (c : Connection) : Prop := ∀ version ∈ c.recorded, version < 1

instance (c : Connection) : Decidable c.Outdated :=
  inferInstanceAs (Decidable (∀ version ∈ c.recorded, version < 1))

/-- **Nothing is in the way of the statements of a migration**: no obstacle, and a jobs table has
all its columns. -/
structure Upgradable (c : Connection) : Prop where
  access : c.access = .free
  columns : ∀ table, c.database.jobs = some table → table.dropped = []

/-! ### Statements of a migration -/

/-- **What a statement leaves as it is** that makes a table or an index. -/
structure Extends (c c' : Connection) : Prop where
  upgradable : c'.Upgradable
  rows : c'.rows = c.rows
  recorded : c'.recorded = c.recorded
  jobs : c.database.jobs.isSome = true → c'.database.jobs.isSome = true

variable {c c' c'' : Connection}

theorem Extends.refl (h : c.Upgradable) : c.Extends c := ⟨h, rfl, rfl, id⟩

theorem Extends.trans (h : c.Extends c') (h' : c'.Extends c'') : c.Extends c'' :=
  ⟨h'.upgradable, h'.rows.trans h.rows, h'.recorded.trans h.recorded,
    fun hsome => h'.jobs (h.jobs hsome)⟩

theorem transaction_cons (c : Connection) (statement : Statement) (statements : List Statement) :
    c.transaction (statement :: statements) =
      c.execute statement >>= fun c' => c'.transaction statements := List.foldlM_cons

theorem transaction_append (c : Connection) (first rest : List Statement) :
    c.transaction (first ++ rest) = c.transaction first >>= fun c' => c'.transaction rest :=
  List.foldlM_append

theorem Upgradable.writable (h : c.Upgradable) : c.writable = .ok () := by
  unfold Connection.writable
  rw [h.access]
  rfl

theorem execute_of_isDone {statement : Statement} (hdone : statement.isDone c.database = true) :
    c.execute statement = .ok c := by
  unfold execute
  rw [if_pos hdone]
  rfl

theorem Upgradable.execute (h : c.Upgradable) {statement : Statement}
    (hdone : statement.isDone c.database = false) :
    c.execute statement = statement.apply c := by
  unfold Connection.execute
  rw [hdone, h.writable]
  rfl

theorem Upgradable.withTable (h : c.Upgradable) {table : Table} (hdropped : table.dropped = [])
    (hrows : table.rows = c.rows) (change : Paging Pages) :
    ∃ c', c.withTable table change = .ok c' ∧ c.Extends c' ∧ c'.database.jobs.isSome = true := by
  obtain ⟨c', hc'⟩ := withTable_of_unbounded (c := c) (by rw [h.access]; rfl) table change
  obtain ⟨⟨pages, hjobs⟩, hversions, haccess⟩ := jobs_of_withTable hc'
  refine ⟨c', hc', ⟨⟨haccess.trans h.access, fun other hother => ?_⟩, ?_, ?_, ?_⟩, ?_⟩
  · rw [hjobs] at hother
    rw [← Option.some.inj hother]
    exact hdropped
  · show c'.database.jobs.elim [] Table.rows = _
    rw [hjobs]
    exact hrows
  · show c'.database.versions.getD [] = _
    rw [hversions]
    rfl
  · rw [hjobs]
    exact fun _ => rfl
  · rw [hjobs]
    rfl

theorem Upgradable.createJobs (h : c.Upgradable) :
    ∃ c', c.execute .createJobs = .ok c' ∧ c.Extends c' ∧ c'.database.jobs.isSome = true := by
  cases hjobs : c.database.jobs with
  | some table =>
    have hdone : Statement.createJobs.isDone c.database = true := by
      show c.database.jobs.isSome = true
      rw [hjobs]
      rfl
    exact ⟨c, execute_of_isDone hdone, .refl h, by rw [hjobs]; rfl⟩
  | none =>
    have hdone : Statement.createJobs.isDone c.database = false := by
      show c.database.jobs.isSome = false
      rw [hjobs]
      rfl
    have hrows : Table.empty.rows = c.rows := by
      unfold rows
      rw [hjobs]
      rfl
    rw [h.execute hdone]
    exact h.withTable rfl hrows Pages.create

theorem Upgradable.createIndex (h : c.Upgradable) (hsome : c.database.jobs.isSome = true)
    (index : Index) : ∃ c', c.execute (.createIndex index) = .ok c' ∧ c.Extends c' := by
  obtain ⟨table, hjobs⟩ := Option.isSome_iff_exists.1 hsome
  have hdropped := h.columns table hjobs
  cases hdone : (Statement.createIndex index).isDone c.database with
  | true => exact ⟨c, execute_of_isDone hdone, .refl h⟩
  | false =>
    have hresolve : table.resolve index.columns = .ok () := by
      unfold Table.resolve
      rw [hdropped, List.find?_eq_none.2 (by simp)]
    have hrows : table.rows = c.rows := by
      unfold rows
      rw [hjobs]
      rfl
    let indexed : Table := { table with indexes := table.indexes ++ [index] }
    have hindexed : indexed.dropped = [] := hdropped
    obtain ⟨c', hc', hextends, -⟩ :=
      h.withTable hindexed hrows (table.pages.addIndex index.columns table.rows)
    refine ⟨c', ?_, hextends⟩
    rw [h.execute hdone]
    unfold Statement.apply
    dsimp only
    rw [hjobs]
    dsimp only
    rw [hresolve]
    exact hc'

theorem Upgradable.createVersions (h : c.Upgradable) :
    ∃ c', c.execute .createVersions = .ok c' ∧ c.Extends c' ∧
      c'.database.versions.isSome = true := by
  cases hversions : c.database.versions with
  | some versions =>
    have hdone : Statement.createVersions.isDone c.database = true := by
      show c.database.versions.isSome = true
      rw [hversions]
      rfl
    exact ⟨c, execute_of_isDone hdone, .refl h, by rw [hversions]; rfl⟩
  | none =>
    have hdone : Statement.createVersions.isDone c.database = false := by
      show c.database.versions.isSome = false
      rw [hversions]
      rfl
    obtain ⟨after, hafter⟩ := paged_of_unbounded (c := c) (by rw [h.access]; rfl) () .take
    refine ⟨{ c with database := { c.database with versions := some [], free := after.2 } }, ?_,
      ⟨⟨h.access, h.columns⟩, rfl, ?_, id⟩, rfl⟩
    · rw [h.execute hdone]
      show (c.paged () .take >>= fun after => _) = _
      rw [hafter]
      rfl
    · unfold recorded
      rw [hversions]
      rfl

theorem Upgradable.recordVersion (h : c.Upgradable) (hsome : c.database.versions.isSome = true)
    (version : Int) :
    (version ∈ c.recorded ∧
        c.execute (.recordVersion version) = .error (.notUnique "schema_version.version")) ∨
      (version ∉ c.recorded ∧ ∃ c', c.execute (.recordVersion version) = .ok c' ∧
        c'.Upgradable ∧ c'.rows = c.rows ∧ c'.recorded = c.recorded ++ [version]) := by
  obtain ⟨versions, hversions⟩ := Option.isSome_iff_exists.1 hsome
  have hrecorded : c.recorded = versions := by
    unfold recorded
    rw [hversions]
    rfl
  have hexecute : c.execute (.recordVersion version) =
      if versions.contains version then .error (.notUnique "schema_version.version")
      else .ok { c with
        database := { c.database with versions := some (versions ++ [version]) } } := by
    rw [h.execute rfl]
    unfold Statement.apply
    dsimp only
    rw [hversions]
  rw [hrecorded, hexecute]
  by_cases hmem : version ∈ versions
  · exact .inl ⟨hmem, if_pos (List.contains_iff_mem.2 hmem)⟩
  · refine .inr ⟨hmem, _, if_neg fun h => hmem (List.contains_iff_mem.1 h), ⟨h.access, h.columns⟩,
      rfl, rfl⟩

theorem Upgradable.createIndexes (h : c.Upgradable) (hsome : c.database.jobs.isSome = true)
    (indexes : List Index) :
    ∃ c', c.transaction (indexes.map .createIndex) = .ok c' ∧ c.Extends c' := by
  induction indexes generalizing c with
  | nil => exact ⟨c, rfl, .refl h⟩
  | cons index indexes ih =>
    obtain ⟨c₁, hc₁, h₁⟩ := h.createIndex hsome index
    obtain ⟨c₂, hc₂, h₂⟩ := ih h₁.upgradable (h₁.jobs hsome)
    refine ⟨c₂, ?_, h₁.trans h₂⟩
    rw [List.map_cons, transaction_cons, hc₁]
    exact hc₂

/-- **The transaction of a migration** takes effect and records its version, or fails where the
version is recorded. -/
theorem Upgradable.transaction (h : c.Upgradable) (indexes : List Index) (version : Int) :
    let statements := .createJobs ::
      (indexes.map .createIndex ++ [.createVersions, .recordVersion version])
    (version ∈ c.recorded ∧
        c.transaction statements = .error (.notUnique "schema_version.version")) ∨
      (version ∉ c.recorded ∧ ∃ c', c.transaction statements = .ok c' ∧
        c'.Upgradable ∧ c'.rows = c.rows ∧ c'.recorded = c.recorded ++ [version]) := by
  intro statements
  obtain ⟨c₁, hc₁, h₁, hjobs⟩ := h.createJobs
  obtain ⟨c₂, hc₂, h₂⟩ := h₁.upgradable.createIndexes hjobs indexes
  obtain ⟨c₃, hc₃, h₃, hversions⟩ := h₂.upgradable.createVersions
  have hextends : c.Extends c₃ := (h₁.trans h₂).trans h₃
  have htransaction : c.transaction statements = c₃.execute (.recordVersion version) := by
    rw [transaction_cons, hc₁]
    show c₁.transaction (_ ++ _) = _
    rw [transaction_append, hc₂]
    show c₂.transaction [_, _] = _
    rw [transaction_cons, hc₃]
    show c₃.transaction [_] = _
    rw [transaction_cons]
    exact bind_pure _
  rw [htransaction, ← hextends.recorded, ← hextends.rows]
  exact hextends.upgradable.recordVersion hversions version

/-! ### A single run -/

theorem foldl_max_lt_iff {versions : List Int} {first bound : Int} :
    versions.foldl max first < bound ↔ first < bound ∧ ∀ version ∈ versions, version < bound := by
  induction versions generalizing first with
  | nil => simp
  | cons version versions ih =>
    rw [List.foldl_cons, ih, max_lt_iff, List.forall_mem_cons, and_assoc]

theorem Upgradable.schemaVersion (h : c.Upgradable) :
    ∃ version, c.schemaVersion = .ok version ∧ (version < 1 ↔ c.Outdated) := by
  refine ⟨c.recorded.foldl max (c.recorded.head?.getD 0), ?_, ?_⟩
  · unfold Connection.schemaVersion opened
    rw [h.access]
    rfl
  · rw [foldl_max_lt_iff]
    refine ⟨And.right, fun houtdated => ⟨?_, houtdated⟩⟩
    cases hhead : c.recorded.head? with
    | none => exact Int.zero_lt_one
    | some version => exact houtdated version (List.mem_of_head? hhead)

theorem pending_of_lt {version : Int} (h : version < 1) : pending version = migrations := by
  unfold pending
  rw [List.filter_eq_self.2 fun m _ => decide_eq_true (by omega)]
  exact List.zipIdx_map_fst 0 migrations

theorem pending_of_le {version : Int} (h : 1 ≤ version) : pending version = [] := by
  unfold pending
  rw [List.filter_eq_nil_iff.2 fun m hm => ?_]
  · rfl
  · have hlt : m.2 < 1 := List.snd_lt_of_mem_zipIdx hm
    simpa using (by omega : ¬ version < (m.2 : Int) + 1)

theorem Upgradable.transaction_of_mem_migrations (h : c.Upgradable) {statements : List Statement}
    (hmem : statements ∈ migrations) :
    (1 ∈ c.recorded ∧
        c.transaction statements = .error (.notUnique "schema_version.version")) ∨
      (1 ∉ c.recorded ∧ ∃ c', c.transaction statements = .ok c' ∧
        c'.Upgradable ∧ c'.rows = c.rows ∧ c'.recorded = c.recorded ++ [1]) := by
  obtain rfl := List.mem_singleton.1 hmem
  exact h.transaction [_, _, _] 1

theorem Outdated.not_recorded (h : c.Outdated) : 1 ∉ c.recorded := fun hmem =>
  Int.lt_irrefl 1 (h 1 hmem)

theorem Upgradable.migrateAll_recorded (h : c.Upgradable) (hrecorded : 1 ∈ c.recorded) :
    c.migrateAll migrations = (.error (.notUnique "schema_version.version"), c) := by
  obtain ⟨-, hfails⟩ | ⟨hnot, -⟩ :=
    h.transaction_of_mem_migrations (List.mem_singleton_self _)
  · unfold migrations migrateAll
    rw [hfails]
  · exact absurd hrecorded hnot

/-- **A single run on an outdated schema** succeeds, keeps the rows and records version 1. -/
theorem Upgradable.migrate_outdated (h : c.Upgradable) (houtdated : c.Outdated) :
    c.migrate.1 = .ok () ∧ c.migrateAll migrations = c.migrate ∧ c.migrate.2.Upgradable ∧
      c.migrate.2.rows = c.rows ∧ c.migrate.2.recorded = c.recorded ++ [1] := by
  obtain ⟨version, hversion, hlt⟩ := h.schemaVersion
  have hmigrate : c.migrateAll migrations = c.migrate := by
    unfold migrate
    rw [hversion]
    show _ = c.migrateAll (pending version)
    rw [pending_of_lt (hlt.2 houtdated)]
  obtain ⟨hmem, -⟩ | ⟨-, c', hc', hupgradable, hrows, hrecorded⟩ :=
    h.transaction_of_mem_migrations (List.mem_singleton_self _)
  · exact absurd hmem houtdated.not_recorded
  · have hall : c.migrateAll migrations = (.ok (), c') := by
      unfold migrations migrateAll
      rw [hc']
      rfl
    rw [← hmigrate, hall]
    exact ⟨rfl, rfl, hupgradable, hrows, hrecorded⟩

theorem Upgradable.recorded_migrate (h : c.Upgradable) (houtdated : c.Outdated) :
    1 ∈ c.migrate.2.recorded := by
  obtain ⟨-, -, -, -, hrecorded⟩ := h.migrate_outdated houtdated
  rw [hrecorded]
  exact List.mem_append_right _ (List.mem_singleton_self 1)

/-- **A single run on a schema that is up to date** changes nothing. -/
theorem Upgradable.migrate_current (h : c.Upgradable) (hcurrent : ¬ c.Outdated) :
    c.migrate = (.ok (), c) := by
  obtain ⟨version, hversion, hlt⟩ := h.schemaVersion
  unfold migrate
  rw [hversion]
  show c.migrateAll (pending version) = _
  rw [pending_of_le (Int.not_lt.1 fun hlow => hcurrent (hlt.1 hlow))]
  rfl

theorem Upgradable.migrate (h : c.Upgradable) :
    c.migrate.1 = .ok () ∧ c.migrate.2.Upgradable ∧ c.migrate.2.rows = c.rows ∧
      c.migrate.2.recorded = (if c.Outdated then c.recorded ++ [1] else c.recorded) ∧
      ¬ c.migrate.2.Outdated := by
  by_cases houtdated : c.Outdated
  · obtain ⟨hok, -, hupgradable, hrows, hrecorded⟩ := h.migrate_outdated houtdated
    refine ⟨hok, hupgradable, hrows, by rw [hrecorded, if_pos houtdated], fun hstill => ?_⟩
    exact hstill.not_recorded (h.recorded_migrate houtdated)
  · rw [h.migrate_current houtdated, if_neg houtdated]
    exact ⟨rfl, h, rfl, rfl, houtdated⟩

end Connection

/-! ### One step -/

namespace Upgrade

open Connection

variable {c : Connection}

theorem step_reading_outdated (h : c.Upgradable) (houtdated : c.Outdated) :
    Upgrade.reading.step c = (.applying migrations, c) := by
  obtain ⟨version, hversion, hlt⟩ := h.schemaVersion
  unfold step
  rw [hversion]
  show (remaining (pending version), c) = _
  rw [pending_of_lt (hlt.2 houtdated)]
  rfl

theorem step_reading_current (h : c.Upgradable) (hcurrent : ¬ c.Outdated) :
    Upgrade.reading.step c = (.finished (.ok ()), c) := by
  obtain ⟨version, hversion, hlt⟩ := h.schemaVersion
  unfold step
  rw [hversion]
  show (remaining (pending version), c) = _
  rw [pending_of_le (Int.not_lt.1 fun hlow => hcurrent (hlt.1 hlow))]
  rfl

theorem step_applying (c : Connection) (statements : List Statement) :
    (Upgrade.applying [statements]).step c =
      (.finished (c.migrateAll [statements]).1, (c.migrateAll [statements]).2) := by
  unfold migrateAll
  simp only [step]
  cases c.transaction statements <;> rfl

theorem step_applying_outdated (h : c.Upgradable) (houtdated : c.Outdated) :
    (Upgrade.applying migrations).step c = (.finished (.ok ()), c.migrate.2) := by
  obtain ⟨hok, hmigrate, -⟩ := h.migrate_outdated houtdated
  refine (step_applying c _).trans ?_
  show (Upgrade.finished (c.migrateAll migrations).1, (c.migrateAll migrations).2) = _
  rw [hmigrate, hok]

/-- **Where another process has applied the migration, it fails.** -/
theorem step_applying_recorded (h : c.Upgradable) (hrecorded : 1 ∈ c.recorded) :
    (Upgrade.applying migrations).step c =
      (.finished (.error (.notUnique "schema_version.version")), c) := by
  refine (step_applying c _).trans ?_
  show (Upgrade.finished (c.migrateAll migrations).1, (c.migrateAll migrations).2) = _
  rw [h.migrateAll_recorded hrecorded]

end Upgrade

/-! ### Processes -/

/-- **Processes that bring one database up to date**, each at a step of its own. -/
structure Startup where
  connection : Connection
  processes : List Upgrade

namespace Startup

open Connection Upgrade

/-- No process has looked at the database. -/
def init (c : Connection) (n : Nat) : Startup := ⟨c, List.replicate n .reading⟩

/-- The process of this number takes its next step. -/
def turn (s : Startup) (i : Nat) : Startup :=
  match s.processes[i]? with
  | none => s
  | some upgrade =>
    ⟨(upgrade.step s.connection).2, s.processes.set i (upgrade.step s.connection).1⟩

/-- The processes take their steps in the order of a schedule. -/
def run (s : Startup) (schedule : List Nat) : Startup := schedule.foldl turn s

theorem run_append (s : Startup) (before rest : List Nat) :
    s.run (before ++ rest) = (s.run before).run rest := List.foldl_append

theorem run_cons (s : Startup) (i : Nat) (rest : List Nat) :
    s.run (i :: rest) = (s.turn i).run rest := rfl

variable {s : Startup} {i j : Nat} {upgrade : Upgrade}

theorem turn_of_some (h : s.processes[i]? = some upgrade) :
    s.turn i = ⟨(upgrade.step s.connection).2,
      s.processes.set i (upgrade.step s.connection).1⟩ := by
  unfold turn
  rw [h]

theorem processes_turn_self (h : s.processes[i]? = some upgrade) :
    (s.turn i).processes[i]? = some (upgrade.step s.connection).1 := by
  obtain ⟨hlt, -⟩ := List.getElem?_eq_some_iff.1 h
  rw [turn_of_some h]
  exact List.getElem?_set_self hlt

theorem processes_turn_of_ne (h : i ≠ j) : (s.turn i).processes[j]? = s.processes[j]? := by
  unfold turn
  split
  · rfl
  · exact List.getElem?_set_ne h

theorem length_turn (s : Startup) (i : Nat) :
    (s.turn i).processes.length = s.processes.length := by
  unfold turn
  split
  · rfl
  · exact List.length_set

theorem processes_run_of_not_mem {schedule : List Nat} (h : i ∉ schedule) :
    (s.run schedule).processes[i]? = s.processes[i]? := by
  induction schedule generalizing s with
  | nil => rfl
  | cons j schedule ih =>
    rw [run_cons, ih (List.not_mem_of_not_mem_cons h),
      processes_turn_of_ne (Ne.symm (List.ne_of_not_mem_cons h))]

theorem processes_run_of_finished {result : Except Fault Unit} (schedule : List Nat)
    (h : s.processes[i]? = some (.finished result)) :
    (s.run schedule).processes[i]? = some (.finished result) := by
  induction schedule generalizing s with
  | nil => exact h
  | cons j schedule ih =>
    refine ih ?_
    by_cases heq : j = i
    · subst heq
      exact processes_turn_self h
    · rw [processes_turn_of_ne heq]
      exact h

/-! ### The invariant -/

/-- **What is so after a schedule**: the first process that takes a second turn has upgraded an
outdated database, and until then all processes that took one are about to. -/
structure Describes (c : Connection) (n : Nat) (schedule : List Nat) (s : Startup) : Prop where
  length : s.processes.length = n
  /-- No one has applied the migrations. -/
  waiting : c.Outdated → schedule.Nodup →
    s.connection = c ∧ ∀ i ∈ schedule, s.processes[i]? = some (.applying migrations)
  upgraded : ¬ (c.Outdated ∧ schedule.Nodup) → s.connection = c.migrate.2
  unseen : ∀ i < n, i ∉ schedule → s.processes[i]? = some .reading
  seen : ∀ i ∈ schedule, (s.processes[i]? = some (.applying migrations) ∧ c.Outdated) ∨
    ∃ result, s.processes[i]? = some (.finished result)

variable {c : Connection} {n : Nat} {schedule : List Nat}

theorem describes_init (hc : c.Upgradable) (n : Nat) : Describes c n [] (init c n) where
  length := List.length_replicate
  waiting _ _ := ⟨rfl, fun _ hmem => absurd hmem List.not_mem_nil⟩
  upgraded hnot := by
    rw [hc.migrate_current fun houtdated => hnot ⟨houtdated, List.nodup_nil⟩]
    rfl
  unseen i hi _ := by
    show (List.replicate n Upgrade.reading)[i]? = _
    rw [List.getElem?_replicate, if_pos hi]
  seen _ hmem := absurd hmem List.not_mem_nil

theorem nodup_snoc : (schedule ++ [i]).Nodup ↔ i ∉ schedule ∧ schedule.Nodup :=
  List.nodup_append_comm.trans List.nodup_cons

theorem Describes.next (h : Describes c n schedule s) (hprocess : s.processes[i]? = some upgrade)
    (hwaiting : c.Outdated → i ∉ schedule → schedule.Nodup →
      upgrade.step s.connection = (.applying migrations, c))
    (hupgraded : ¬ (c.Outdated ∧ i ∉ schedule ∧ schedule.Nodup) →
      ∃ result, upgrade.step s.connection = (.finished result, c.migrate.2)) :
    Describes c n (schedule ++ [i]) (s.turn i) := by
  have hself := processes_turn_self hprocess
  have hother : ∀ j, j ≠ i → (s.turn i).processes[j]? = s.processes[j]? := fun j hne =>
    processes_turn_of_ne (Ne.symm hne)
  have hconnection : (s.turn i).connection = (upgrade.step s.connection).2 := by
    rw [turn_of_some hprocess]
  have hmem : ∀ j, j ∈ schedule ++ [i] → j ≠ i → j ∈ schedule := fun j hj hne => by
    simpa [hne] using hj
  refine ⟨(length_turn s i).trans h.length, ?_, ?_, ?_, ?_⟩
  · intro houtdated hnodup
    obtain ⟨hnew, hold⟩ := nodup_snoc.1 hnodup
    have hstep := hwaiting houtdated hnew hold
    rw [hstep] at hself hconnection
    refine ⟨hconnection, fun j hj => ?_⟩
    by_cases heq : j = i
    · subst heq
      exact hself
    · rw [hother j heq]
      exact (h.waiting houtdated hold).2 j (hmem j hj heq)
  · intro hnot
    obtain ⟨result, hstep⟩ := hupgraded (by rwa [nodup_snoc] at hnot)
    rw [hconnection, hstep]
  · intro j hj hnotin
    have hne : j ≠ i := fun heq => hnotin (by rw [heq]; simp)
    rw [hother j hne]
    exact h.unseen j hj fun hmem => hnotin (List.mem_append_left _ hmem)
  · intro j hj
    by_cases heq : j = i
    · subst heq
      rw [hself]
      by_cases hall : c.Outdated ∧ j ∉ schedule ∧ schedule.Nodup
      · rw [hwaiting hall.1 hall.2.1 hall.2.2]
        exact .inl ⟨rfl, hall.1⟩
      · obtain ⟨result, hstep⟩ := hupgraded hall
        rw [hstep]
        exact .inr ⟨result, rfl⟩
    · rw [hother j heq]
      exact h.seen j (hmem j hj heq)

theorem Describes.turn (h : Describes c n schedule s) (hc : c.Upgradable) (hi : i < n) :
    Describes c n (schedule ++ [i]) (s.turn i) := by
  obtain ⟨-, hmigrated, -, -, hcurrent⟩ := hc.migrate
  by_cases hwait : c.Outdated ∧ schedule.Nodup
  · obtain ⟨hconnection, happlying⟩ := h.waiting hwait.1 hwait.2
    by_cases hmem : i ∈ schedule
    · -- The second turn of a process: it is the first one to apply the migrations.
      refine h.next (happlying i hmem) (fun _ hnot => absurd hmem hnot) fun _ => ?_
      rw [hconnection]
      exact ⟨_, step_applying_outdated hc hwait.1⟩
    · refine h.next (h.unseen i hi hmem) (fun _ _ _ => ?_)
        fun hnot => absurd ⟨hwait.1, hmem, hwait.2⟩ hnot
      rw [hconnection]
      exact step_reading_outdated hc hwait.1
  · have hconnection := h.upgraded hwait
    by_cases hmem : i ∈ schedule
    · obtain ⟨hprocess, houtdated⟩ | ⟨result, hprocess⟩ := h.seen i hmem
      · refine h.next hprocess (fun _ hnot => absurd hmem hnot) fun _ => ?_
        rw [hconnection]
        exact ⟨_, step_applying_recorded hmigrated (hc.recorded_migrate houtdated)⟩
      · refine h.next hprocess (fun _ hnot => absurd hmem hnot) fun _ => ⟨result, ?_⟩
        rw [hconnection]
        rfl
    · refine h.next (h.unseen i hi hmem) (fun houtdated _ hnodup => ?_) fun _ => ⟨.ok (), ?_⟩
      · exact absurd ⟨houtdated, hnodup⟩ hwait
      · rw [hconnection]
        exact step_reading_current hmigrated hcurrent

theorem describes_run (hc : c.Upgradable) (hschedule : ∀ i ∈ schedule, i < n) :
    Describes c n schedule ((init c n).run schedule) := by
  induction schedule using List.reverseRecOn with
  | nil => exact describes_init hc n
  | append_singleton schedule i ih =>
    obtain ⟨hold, hlast⟩ := List.forall_mem_append.1 hschedule
    rw [run_append]
    exact (ih hold).turn hc (hlast i (List.mem_singleton_self i))

/-! ### Which process fails -/

/-- **The first process to take a second turn does so between the first two turns of this one.** -/
def Overtaken (schedule : List Nat) (i : Nat) : Prop :=
  ∃ before middle rest, schedule = before ++ i :: (middle ++ i :: rest) ∧
    i ∉ before ∧ i ∉ middle ∧ before.Nodup ∧ ¬ (before ++ i :: middle).Nodup

theorem exists_of_two_le_count (h : 2 ≤ schedule.count i) :
    ∃ before middle rest, schedule = before ++ i :: (middle ++ i :: rest) ∧
      i ∉ before ∧ i ∉ middle := by
  obtain ⟨before, later, rfl, hbefore⟩ :=
    List.eq_append_cons_of_mem (List.count_pos_iff.1 (by omega : 0 < schedule.count i))
  rw [List.count_append, List.count_cons_self, List.count_eq_zero.2 hbefore] at h
  obtain ⟨middle, rest, rfl, hmiddle⟩ :=
    List.eq_append_cons_of_mem (List.count_pos_iff.1 (by omega : 0 < later.count i))
  exact ⟨before, middle, rest, rfl, hbefore, hmiddle⟩

theorem append_cons_inj {before before' later later' : List Nat} (h : i ∉ before)
    (h' : i ∉ before') (heq : before ++ i :: later = before' ++ i :: later') :
    before = before' ∧ later = later' := by
  have htakeWhile : ∀ {first rest : List Nat}, i ∉ first →
      (first ++ i :: rest).takeWhile (· != i) = first := fun hnot => by
    rw [List.takeWhile_append_of_pos fun j hj => bne_iff_ne.2 (ne_of_mem_of_not_mem hj hnot),
      List.takeWhile_cons_of_neg (by simp), List.append_nil]
  have hbefore : before = before' := by
    rw [← htakeWhile h, heq, htakeWhile h']
  subst hbefore
  exact ⟨rfl, (List.cons.inj (List.append_cancel_left heq)).2⟩

theorem overtaken_iff {before middle rest : List Nat} (hbefore : i ∉ before)
    (hmiddle : i ∉ middle) : Overtaken (before ++ i :: (middle ++ i :: rest)) i ↔
      before.Nodup ∧ ¬ (before ++ i :: middle).Nodup := by
  refine ⟨?_, fun h => ⟨before, middle, rest, rfl, hbefore, hmiddle, h⟩⟩
  rintro ⟨before', middle', rest', heq, hbefore', hmiddle', h⟩
  obtain ⟨rfl, hlater⟩ := append_cons_inj hbefore hbefore' heq
  obtain ⟨rfl, -⟩ := append_cons_inj hmiddle hmiddle' hlater
  exact h

/-- **What comes of a process** that has taken two turns. -/
theorem result_of_two_turns (hc : c.Upgradable) (hschedule : ∀ i ∈ schedule, i < n)
    (hcount : 2 ≤ schedule.count i) :
    ∃ result, ((init c n).run schedule).processes[i]? = some (.finished result) ∧
      (result = .ok () ∧ ¬ (c.Outdated ∧ Overtaken schedule i) ∨
        result = .error (.notUnique "schema_version.version") ∧ c.Outdated ∧
          Overtaken schedule i) := by
  obtain ⟨before, middle, rest, rfl, hbefore, hmiddle⟩ := exists_of_two_le_count hcount
  obtain ⟨-, hmigrated, -, -, hcurrent⟩ := hc.migrate
  have hi : i < n := hschedule i (by simp)
  have hfirst := describes_run hc fun j hj => hschedule j (List.mem_append_left _ hj)
  have hsecond : Describes c n (before ++ i :: middle)
      ((init c n).run (before ++ i :: middle)) := describes_run hc fun j hj => hschedule j (by
    rw [← List.cons_append, ← List.append_assoc]
    exact List.mem_append_left _ hj)
  have hreading := hfirst.unseen i hi hbefore
  have hlooked : ((init c n).run (before ++ i :: middle)).processes[i]? =
      some (Upgrade.reading.step ((init c n).run before).connection).1 := by
    rw [run_append, run_cons, processes_run_of_not_mem hmiddle, processes_turn_self hreading]
  have hrun : (init c n).run (before ++ i :: (middle ++ i :: rest)) =
      (((init c n).run (before ++ i :: middle)).turn i).run rest := by
    rw [← List.cons_append, ← List.append_assoc, run_append, run_cons]
  rw [overtaken_iff hbefore hmiddle, hrun]
  by_cases hlook : c.Outdated ∧ before.Nodup
  · rw [(hfirst.waiting hlook.1 hlook.2).1, step_reading_outdated hc hlook.1] at hlooked
    have hturn := processes_turn_self hlooked
    by_cases hnodup : (before ++ i :: middle).Nodup
    · rw [(hsecond.waiting hlook.1 hnodup).1, step_applying_outdated hc hlook.1] at hturn
      exact ⟨_, processes_run_of_finished rest hturn, .inl ⟨rfl, fun h => h.2.2 hnodup⟩⟩
    · rw [hsecond.upgraded fun h => hnodup h.2,
        step_applying_recorded hmigrated (hc.recorded_migrate hlook.1)] at hturn
      exact ⟨_, processes_run_of_finished rest hturn, .inr ⟨rfl, hlook.1, hlook.2, hnodup⟩⟩
  · rw [hfirst.upgraded hlook, step_reading_current hmigrated hcurrent] at hlooked
    have hturn := processes_turn_self hlooked
    exact ⟨_, processes_run_of_finished rest hturn, .inl ⟨rfl, fun h => hlook ⟨h.1, h.2.1⟩⟩⟩

theorem nodup_recorded_migrate (hc : c.Upgradable) (hnodup : c.recorded.Nodup) :
    c.migrate.2.recorded.Nodup := by
  obtain ⟨-, -, -, hrecorded, -⟩ := hc.migrate
  rw [hrecorded]
  split
  case isTrue houtdated =>
    exact List.nodup_append_comm.1 (List.nodup_cons.2 ⟨houtdated.not_recorded, hnodup⟩)
  case isFalse => exact hnodup

/-- **Processes that bring one database up to date at the same time**, each with a look at the
versions and then its migrations, in any order of their steps:

* A single run succeeds, and records version 1 if only lower versions are recorded.
* The database is as it was until some process takes its second turn, and then it is the one that a
  single run makes of it. No row of the jobs is lost or changed, and no version is recorded twice.
* A process that has taken two turns has finished. It has failed if it was overtaken on an outdated
  schema, because the version that it applies is recorded by then; otherwise it has succeeded. -/
theorem upgrades_of_schedule {c : Connection} (hc : c.Upgradable) (n : Nat) (schedule : List Nat)
    (hschedule : ∀ i ∈ schedule, i < n) :
    let s := (init c n).run schedule
    (c.migrate.1 = .ok () ∧
        c.migrate.2.recorded = if c.Outdated then c.recorded ++ [1] else c.recorded) ∧
      (s.connection = (if c.Outdated ∧ schedule.Nodup then c else c.migrate.2) ∧
        s.connection.rows = c.rows ∧ (c.recorded.Nodup → s.connection.recorded.Nodup)) ∧
      ∀ i, 2 ≤ schedule.count i →
        ∃ result, s.processes[i]? = some (.finished result) ∧
          (result = .ok () ∧ ¬ (c.Outdated ∧ Overtaken schedule i) ∨
            result = .error (.notUnique "schema_version.version") ∧ c.Outdated ∧
              Overtaken schedule i) := by
  intro s
  obtain ⟨hok, -, hrows, hrecorded, -⟩ := hc.migrate
  have hdescribes : Describes c n schedule s := describes_run hc hschedule
  refine ⟨⟨hok, hrecorded⟩, ?_, fun i hcount => result_of_two_turns hc hschedule hcount⟩
  by_cases hwait : c.Outdated ∧ schedule.Nodup
  · rw [if_pos hwait, (hdescribes.waiting hwait.1 hwait.2).1]
    exact ⟨rfl, rfl, id⟩
  · rw [if_neg hwait, hdescribes.upgraded hwait]
    exact ⟨rfl, hrows, nodup_recorded_migrate hc⟩

/-- Two processes on a new database, one after the other: both succeed. -/
theorem upgrades_of_schedule_in_turn :
    let c := Connection.ofDatabase (.empty true)
    let s := (init c 2).run [0, 0, 1, 1]
    c.Upgradable ∧ (∀ i ∈ [0, 0, 1, 1], i < 2) ∧ s.connection.recorded = [1] ∧
      s.processes[0]? = some (.finished (.ok ())) ∧
      s.processes[1]? = some (.finished (.ok ())) := by
  intro c s
  have hc : c.Upgradable := ⟨rfl, fun _ h => nomatch h⟩
  have hschedule : ∀ i ∈ [0, 0, 1, 1], i < 2 := by decide
  obtain ⟨⟨-, hrecorded⟩, ⟨hconnection, -, -⟩, hresults⟩ :=
    upgrades_of_schedule hc 2 [0, 0, 1, 1] hschedule
  have hfirst : ¬ Overtaken ([] ++ 0 :: ([] ++ 0 :: [1, 1])) 0 := by
    rw [overtaken_iff (by decide) (by decide)]
    decide
  have hsecond : ¬ Overtaken ([0, 0] ++ 1 :: ([] ++ 1 :: [])) 1 := by
    rw [overtaken_iff (by decide) (by decide)]
    decide
  have hok : ∀ i, 2 ≤ [0, 0, 1, 1].count i → ¬ Overtaken [0, 0, 1, 1] i →
      s.processes[i]? = some (.finished (.ok ())) := fun i hcount hnot => by
    obtain ⟨result, hfinished, ⟨rfl, -⟩ | ⟨-, -, hovertaken⟩⟩ := hresults i hcount
    · exact hfinished
    · exact absurd hovertaken hnot
  refine ⟨hc, hschedule, ?_, hok 0 (by decide) hfirst, hok 1 (by decide) hsecond⟩
  rw [hconnection, if_neg fun h => absurd h.2 (by decide), hrecorded]
  rfl

/-- **Two processes that look at a new database before either has applied the migrations**: the
second one to apply them fails. -/
theorem overtaken_upgrade_fails :
    let c := Connection.ofDatabase (.empty true)
    let s := (init c 2).run [0, 1, 0, 1]
    c.Upgradable ∧ s.processes[0]? = some (.finished (.ok ())) ∧
      s.processes[1]? = some (.finished (.error (.notUnique "schema_version.version"))) :=
  ⟨⟨rfl, fun _ h => nomatch h⟩, rfl, rfl⟩

end Startup

end JobQueue.Sql

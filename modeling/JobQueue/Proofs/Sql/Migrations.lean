import JobQueue.Proofs.Sql.Upgrades

/-! # A run of the migrations

A run looks at the recorded versions and applies the migrations above the highest one, each in a
transaction. This holds of every database, also of one that was left half way, and under every
obstacle.

* `Connection.Adds`: what statements that take effect do to a database: they add versions that were
  not recorded, and keep the rows and columns of the jobs. Said of a statement (`execute_adds`), and
  from there of a transaction and of a list of migrations.
* `Connection.Numbered`: each migration records the version at its place. So a run records the
  versions above the highest one, up to the number of migrations.
* `Connection.migrate_idempotent`: **a run loses nothing, a second one changes nothing, and a
  failure undoes the migration in which it occurs.** -/

namespace JobQueue.Sql

/-- The versions that the statement records. -/
def Statement.versions : Statement → List Int
  | .recordVersion version => [version]
  | .createJobs | .createIndex _ | .createVersions => []

namespace Connection

/-- The versions that the statements record. -/
def versionsOf (statements : List Statement) : List Int := statements.flatMap Statement.versions

/-- The versions that the migrations record. -/
def versionsOfAll (migrations : List (List Statement)) : List Int := migrations.flatMap versionsOf

/-- **What statements do that take effect**: a jobs table keeps its rows and columns, and the
versions are added to those that were recorded, of which they are none. -/
structure Adds (c : Connection) (added : List Int) (c' : Connection) : Prop where
  access : c'.access = c.access
  rows : c'.rows = c.rows
  jobs : ∀ table, c.database.jobs = some table → ∃ table', c'.database.jobs = some table' ∧
    table'.rows = table.rows ∧ table'.columns = table.columns
  recorded : c'.recorded = c.recorded ++ added
  fresh : ∀ version ∈ added, version ∉ c.recorded
  nodup : added.Nodup

variable {c c' c'' : Connection} {added added' : List Int}

theorem Adds.refl (c : Connection) : c.Adds [] c :=
  ⟨rfl, rfl, fun table htable => ⟨table, htable, rfl, rfl⟩, (List.append_nil _).symm, nofun,
    List.nodup_nil⟩

theorem Adds.trans (h : c.Adds added c') (h' : c'.Adds added' c'') :
    c.Adds (added ++ added') c'' where
  access := h'.access.trans h.access
  rows := h'.rows.trans h.rows
  jobs table htable := by
    obtain ⟨table', htable', hrows, hcolumns⟩ := h.jobs table htable
    obtain ⟨table'', htable'', hrows', hcolumns'⟩ := h'.jobs table' htable'
    exact ⟨table'', htable'', hrows'.trans hrows, hcolumns'.trans hcolumns⟩
  recorded := by rw [h'.recorded, h.recorded, List.append_assoc]
  fresh version hmem hold := by
    rcases List.mem_append.1 hmem with hmem | hmem
    · exact h.fresh version hmem hold
    · refine h'.fresh version hmem ?_
      rw [h.recorded]
      exact List.mem_append_left _ hold
  nodup := by
    refine List.nodup_append.2 ⟨h.nodup, h'.nodup, fun version hmem other hother heq => ?_⟩
    refine h'.fresh other hother ?_
    rw [h.recorded, ← heq]
    exact List.mem_append_right _ hmem

/-! ### Statements -/

theorem adds_of_withTable {table : Table} {change : Paging Pages} (hrows : table.rows = c.rows)
    (hjobs : ∀ old, c.database.jobs = some old →
      table.rows = old.rows ∧ table.columns = old.columns)
    (h : c.withTable table change = .ok c') : c.Adds [] c' := by
  obtain ⟨⟨pages, hafter⟩, hversions, haccess⟩ := jobs_of_withTable h
  refine ⟨haccess, ?_, fun old hold => ⟨_, hafter, hjobs old hold⟩, ?_, nofun, List.nodup_nil⟩
  · show c'.database.jobs.elim [] Table.rows = _
    rw [hafter]
    exact hrows
  · unfold recorded
    rw [hversions, List.append_nil]

theorem apply_createJobs_adds (hdone : Statement.createJobs.isDone c.database = false)
    (h : Statement.createJobs.apply c = .ok c') : c.Adds [] c' := by
  have hnone : c.database.jobs = none :=
    Option.isNone_iff_eq_none.1 (Option.isSome_eq_false_iff.1 hdone)
  refine adds_of_withTable ?_ (fun old hold => ?_) h
  · unfold rows
    rw [hnone]
    rfl
  · rw [hnone] at hold
    cases hold

theorem apply_createIndex_adds {index : Index}
    (h : (Statement.createIndex index).apply c = .ok c') : c.Adds [] c' := by
  unfold Statement.apply at h
  dsimp only at h
  split at h
  · cases h
  · next table hjobs =>
    split at h
    · cases h
    · refine adds_of_withTable ?_ (fun old hold => ?_) h
      · unfold rows
        rw [hjobs]
        rfl
      · rw [hjobs] at hold
        obtain rfl := Option.some.inj hold
        exact ⟨rfl, rfl⟩

theorem apply_createVersions_adds (hdone : Statement.createVersions.isDone c.database = false)
    (h : Statement.createVersions.apply c = .ok c') : c.Adds [] c' := by
  have hnone : c.database.versions = none :=
    Option.isNone_iff_eq_none.1 (Option.isSome_eq_false_iff.1 hdone)
  obtain ⟨after, -, hafter⟩ := bind_eq_ok h
  obtain rfl := Except.ok.inj hafter
  refine ⟨rfl, rfl, fun table htable => ⟨table, htable, rfl, rfl⟩, ?_, nofun, List.nodup_nil⟩
  unfold recorded
  rw [hnone]
  rfl

theorem apply_recordVersion_adds {version : Int}
    (h : (Statement.recordVersion version).apply c = .ok c') : c.Adds [version] c' := by
  unfold Statement.apply at h
  dsimp only at h
  split at h
  · cases h
  · next versions hversions =>
    have hrecorded : c.recorded = versions := by
      unfold recorded
      rw [hversions]
      rfl
    split at h
    · cases h
    · next hnew =>
      obtain rfl := Except.ok.inj h
      refine ⟨rfl, rfl, fun table htable => ⟨table, htable, rfl, rfl⟩, ?_, ?_,
        List.nodup_singleton version⟩
      · rw [hrecorded]
        rfl
      · rw [hrecorded]
        intro other hother hmem
        rw [List.mem_singleton.1 hother] at hmem
        exact hnew (List.contains_iff_mem.2 hmem)

/-- **A statement that takes effect** adds the versions that it records. -/
theorem execute_adds {statement : Statement} (h : c.execute statement = .ok c') :
    c.Adds statement.versions c' := by
  unfold execute at h
  split at h
  · next hdone =>
    obtain rfl := Except.ok.inj h
    -- A version is recorded each time; all else is left alone when it exists.
    cases statement with
    | recordVersion => cases hdone
    | _ => exact .refl c
  · next hnot =>
    have hdone := Bool.eq_false_iff.2 hnot
    obtain ⟨-, -, happly⟩ := bind_eq_ok h
    cases statement with
    | createJobs => exact apply_createJobs_adds hdone happly
    | createIndex index => exact apply_createIndex_adds happly
    | createVersions => exact apply_createVersions_adds hdone happly
    | recordVersion version => exact apply_recordVersion_adds happly

/-! ### Transactions -/

/-- **A transaction that takes effect** adds the versions that its statements record. -/
theorem transaction_adds {statements : List Statement} :
    ∀ {c c' : Connection}, c.transaction statements = .ok c' →
      c.Adds (versionsOf statements) c' := by
  induction statements with
  | nil =>
    intro c c' h
    obtain rfl := Except.ok.inj h
    exact .refl c
  | cons statement statements ih =>
    intro c c' h
    rw [transaction_cons] at h
    obtain ⟨next, hstatement, hrest⟩ := bind_eq_ok h
    exact (execute_adds hstatement).trans (ih hrest)

/-- **The statement at which a transaction fails**, after the statements before it. -/
theorem exists_of_transaction_eq_error {fault : Fault} {statements : List Statement} :
    ∀ {c : Connection}, c.transaction statements = .error fault →
      ∃ done statement rest reached, statements = done ++ statement :: rest ∧
        c.transaction done = .ok reached ∧ reached.execute statement = .error fault := by
  induction statements with
  | nil =>
    intro c h
    cases h
  | cons statement statements ih =>
    intro c h
    rw [transaction_cons] at h
    cases hstatement : c.execute statement with
    | error other =>
      rw [hstatement] at h
      obtain rfl := Except.error.inj h
      exact ⟨[], statement, statements, c, rfl, rfl, hstatement⟩
    | ok next =>
      rw [hstatement] at h
      obtain ⟨done, failed, rest, reached, rfl, hdone, hfailed⟩ := ih h
      refine ⟨statement :: done, failed, rest, reached, rfl, ?_, hfailed⟩
      rw [transaction_cons, hstatement]
      exact hdone

/-! ### Migrations one after the other -/

theorem migrateAll_of_ok {statements : List Statement} (h : c.transaction statements = .ok c')
    (rest : List (List Statement)) : c.migrateAll (statements :: rest) = c'.migrateAll rest := by
  rw [migrateAll, h]

theorem migrateAll_of_error {statements : List Statement} {fault : Fault}
    (h : c.transaction statements = .error fault) (rest : List (List Statement)) :
    c.migrateAll (statements :: rest) = (.error fault, c) := by
  rw [migrateAll, h]

theorem migrateAll_adds {list : List (List Statement)} :
    ∀ {c : Connection}, (c.migrateAll list).1 = .ok () →
      c.Adds (versionsOfAll list) (c.migrateAll list).2 := by
  induction list with
  | nil => exact fun _ => .refl _
  | cons statements list ih =>
    intro c h
    cases hnext : c.transaction statements with
    | error fault =>
      rw [migrateAll_of_error hnext] at h
      cases h
    | ok next =>
      rw [migrateAll_of_ok hnext] at h ⊢
      exact (transaction_adds hnext).trans (ih h)

/-- **Migrations of which one fails** come to what those before it come to. -/
theorem exists_of_migrateAll_eq_error {fault : Fault} {list : List (List Statement)} :
    ∀ {c : Connection}, (c.migrateAll list).1 = .error fault →
      ∃ before failed after, list = before ++ failed :: after ∧
        c.migrateAll before = (.ok (), (c.migrateAll list).2) ∧
        (c.migrateAll list).2.transaction failed = .error fault := by
  induction list with
  | nil =>
    intro c h
    cases h
  | cons statements list ih =>
    intro c h
    cases hnext : c.transaction statements with
    | error other =>
      rw [migrateAll_of_error hnext] at h ⊢
      obtain rfl := Except.error.inj h
      exact ⟨[], statements, list, rfl, rfl, hnext⟩
    | ok next =>
      rw [migrateAll_of_ok hnext] at h ⊢
      obtain ⟨before, failed, after, rfl, hbefore, hfailed⟩ := ih h
      exact ⟨statements :: before, failed, after, rfl, (migrateAll_of_ok hnext _).trans hbefore,
        hfailed⟩

/-! ### The versions of the migrations -/

/-- **Each migration records the version at its place**, counted from the first. -/
def Numbered : Nat → List (List Statement) → Prop
  | _, [] => True
  | first, statements :: rest => versionsOf statements = [(first : Int)] ∧ Numbered (first + 1) rest

theorem numbered_migrations : Numbered 1 migrations := ⟨rfl, trivial⟩

theorem Numbered.drop {list : List (List Statement)} :
    ∀ {first : Nat}, Numbered first list → ∀ n, Numbered (first + n) (list.drop n) := by
  induction list with
  | nil => exact fun _ n => by rw [List.drop_nil]; trivial
  | cons statements list ih =>
    intro first h n
    cases n with
    | zero => exact h
    | succ n =>
      rw [List.drop_succ_cons, Nat.add_comm n, ← Nat.add_assoc]
      exact ih h.2 n

theorem Numbered.mem_versionsOfAll {list : List (List Statement)} :
    ∀ {first : Nat}, Numbered first list → ∀ version : Int,
      version ∈ versionsOfAll list ↔ first ≤ version ∧ version < first + list.length := by
  induction list with
  | nil =>
    intro first _ version
    simp only [versionsOfAll, List.flatMap_nil, List.not_mem_nil, List.length_nil, false_iff]
    omega
  | cons statements list ih =>
    intro first h version
    have hrest := ih h.2 version
    unfold versionsOfAll at hrest ⊢
    rw [List.flatMap_cons, List.mem_append, hrest, h.1, List.mem_singleton, List.length_cons]
    omega

theorem pending_eq_drop (version : Int) : pending version = migrations.drop version.toNat := by
  have hlist : ∀ (list : List (List Statement)) (first : Nat),
      ((list.zipIdx first).filter fun m => decide (version < m.2 + 1)).map (·.1) =
        list.drop (version.toNat - first) := by
    intro list
    induction list with
    | nil => exact fun first => by rw [List.drop_nil]; rfl
    | cons statements list ih =>
      intro first
      rw [List.zipIdx_cons, List.filter_cons]
      by_cases hlow : version < (first : Int) + 1
      · rw [if_pos (decide_eq_true hlow), List.map_cons, ih,
          (by omega : version.toNat - (first + 1) = 0), (by omega : version.toNat - first = 0)]
        rfl
      · rw [if_neg (by simpa using hlow), ih,
          (by omega : version.toNat - first = version.toNat - (first + 1) + 1),
          List.drop_succ_cons]
  exact hlist migrations 0

/-! ### The highest version -/

/-- The highest of the versions, zero for none. -/
def highest (versions : List Int) : Int := versions.foldl max (versions.head?.getD 0)

theorem schemaVersion_eq (c : Connection) :
    c.schemaVersion = c.opened >>= fun _ => .ok (highest c.recorded) := rfl

theorem le_highest {versions : List Int} {version : Int} (h : version ∈ versions) :
    version ≤ highest versions := by
  by_contra hlt
  exact lt_irrefl version ((foldl_max_lt_iff.1 (not_le.1 hlt)).2 version h)

theorem highest_le {versions : List Int} {bound : Int} (hsome : versions ≠ [])
    (h : ∀ version ∈ versions, version ≤ bound) : highest versions ≤ bound := by
  obtain ⟨first, rest, rfl⟩ := List.exists_cons_of_ne_nil hsome
  refine Int.lt_add_one_iff.1 (foldl_max_lt_iff.2 ⟨?_, fun version hmem => ?_⟩)
  · exact Int.lt_add_one_iff.2 (h first List.mem_cons_self)
  · exact Int.lt_add_one_iff.2 (h version hmem)

/-- **The highest version after a run** is the number of migrations, unless it was above it. -/
theorem highest_append_pending (versions : List Int) :
    highest (versions ++ versionsOfAll (pending (highest versions))) =
      max (highest versions) migrations.length := by
  have hmem := (numbered_migrations.drop (highest versions).toNat).mem_versionsOfAll
  rw [← pending_eq_drop] at hmem
  have hlength : (pending (highest versions)).length =
      migrations.length - (highest versions).toNat := by
    rw [pending_eq_drop, List.length_drop]
  have hsome : 0 < migrations.length := Nat.zero_lt_one
  by_cases hlow : highest versions < migrations.length
  · have hlast : (migrations.length : Int) ∈ versionsOfAll (pending (highest versions)) := by
      rw [hmem, hlength]
      omega
    rw [max_eq_right hlow.le]
    refine le_antisymm (highest_le (List.append_ne_nil_of_right_ne_nil _ (List.ne_nil_of_mem hlast))
      fun version hversion => ?_) (le_highest (List.mem_append_right _ hlast))
    rcases List.mem_append.1 hversion with hold | hnew
    · exact (le_highest hold).trans hlow.le
    · rw [hmem, hlength] at hnew
      omega
  · have hnone : pending (highest versions) = [] := by
      rw [pending_eq_drop]
      exact List.drop_eq_nil_of_le (by omega)
    rw [hnone, max_eq_left (not_lt.1 hlow)]
    show highest (versions ++ []) = _
    rw [List.append_nil]

/-! ### A run -/

theorem migrate_of_opened (h : c.opened = .ok ()) :
    c.migrate = c.migrateAll (pending (highest c.recorded)) := by
  unfold migrate
  rw [schemaVersion_eq, h]
  rfl

theorem migrate_of_closed {fault : Fault} (h : c.opened = .error fault) :
    c.migrate = (.error fault, c) := by
  unfold migrate
  rw [schemaVersion_eq, h]
  rfl

theorem Adds.opened (h : c.Adds added c') : c'.opened = c.opened := by
  unfold Connection.opened
  rw [h.access]

theorem migrate_of_le (hopened : c.opened = .ok ())
    (h : (migrations.length : Int) ≤ highest c.recorded) : c.migrate = (.ok (), c) := by
  rw [migrate_of_opened hopened, pending_eq_drop, List.drop_eq_nil_of_le (by omega)]
  rfl

/-- **A run of the migrations**, on any database and under any obstacles.

* A run that succeeds keeps every row of the jobs, and the table of the jobs if there is one. The
  highest version becomes the number of migrations unless it was above it; the versions that are
  recorded for this are new. A second run succeeds and changes nothing.
* A run that fails either could not look at the versions, and nothing has changed; or a statement of
  one of the migrations failed, and the database is the one that the migrations before it have made.
* A run succeeds when nothing is in its way and a jobs table has all its columns. -/
theorem migrate_idempotent (c : Connection) :
    (c.migrate.1 = .ok () →
      let c' := c.migrate.2
      (c'.rows = c.rows ∧ ∀ table, c.database.jobs = some table →
        ∃ table', c'.database.jobs = some table' ∧ table'.rows = table.rows ∧
          table'.columns = table.columns) ∧
      (∃ version, c.schemaVersion = .ok version ∧
        c'.schemaVersion = .ok (max version migrations.length)) ∧
      (∃ added, c'.recorded = c.recorded ++ added ∧ added.Nodup ∧
        ∀ version ∈ added, version ∉ c.recorded) ∧
      c'.migrate = (.ok (), c')) ∧
    (∀ fault, c.migrate.1 = .error fault →
      (c.schemaVersion = .error fault ∧ c.migrate.2 = c) ∨
        ∃ version before failed after, c.schemaVersion = .ok version ∧
          pending version = before ++ failed :: after ∧
          c.migrateAll before = (.ok (), c.migrate.2) ∧
          ∃ done statement rest reached, failed = done ++ statement :: rest ∧
            c.migrate.2.transaction done = .ok reached ∧
            reached.execute statement = .error fault) ∧
    (c.Upgradable → c.migrate.1 = .ok ()) := by
  refine ⟨fun hok => ?_, fun fault hfails => ?_, fun h => h.migrate.1⟩
  · intro c'
    cases hopened : c.opened with
    | error fault =>
      rw [migrate_of_closed hopened] at hok
      cases hok
    | ok =>
      have hmigrate := migrate_of_opened hopened
      have hadds : c.Adds (versionsOfAll (pending (highest c.recorded))) c' := by
        show c.Adds _ c.migrate.2
        rw [hmigrate] at hok ⊢
        exact migrateAll_adds hok
      have hopened' : c'.opened = .ok () := hadds.opened.trans hopened
      have hhighest : highest c'.recorded = max (highest c.recorded) migrations.length := by
        rw [hadds.recorded, highest_append_pending]
      refine ⟨⟨hadds.rows, hadds.jobs⟩, ⟨highest c.recorded, ?_, ?_⟩,
        ⟨_, hadds.recorded, hadds.nodup, hadds.fresh⟩, migrate_of_le hopened' ?_⟩
      · rw [schemaVersion_eq, hopened]
        rfl
      · rw [schemaVersion_eq, hopened', ← hhighest]
        rfl
      · rw [hhighest]
        exact le_max_right _ _
  · cases hopened : c.opened with
    | error other =>
      rw [migrate_of_closed hopened] at hfails ⊢
      obtain rfl := Except.error.inj hfails
      refine .inl ⟨?_, rfl⟩
      rw [schemaVersion_eq, hopened]
      rfl
    | ok =>
      have hmigrate := migrate_of_opened hopened
      rw [hmigrate] at hfails
      obtain ⟨before, failed, after, hpending, hbefore, hfailed⟩ :=
        exists_of_migrateAll_eq_error hfails
      rw [← hmigrate] at hbefore hfailed
      refine .inr ⟨highest c.recorded, before, failed, after, ?_, hpending, hbefore,
        exists_of_transaction_eq_error hfailed⟩
      rw [schemaVersion_eq, hopened]
      rfl

/-- A database that was left half way: its tables are there, but no version is recorded. A run
brings it to the first version; while another connection is writing, a run fails at the last
statement and leaves the database as it was. -/
theorem migrate_idempotent_of_half_way :
    let c : Connection := { (Connection.ofDatabase (.empty true)).migrate.2 with
      database := { (Connection.ofDatabase (.empty true)).migrate.2.database with
        versions := some [] } }
    let locked := c.setLocked true
    (c.Upgradable ∧ c.migrate.1 = .ok () ∧ c.migrate.2.rows = c.rows ∧
      c.migrate.2.schemaVersion = .ok 1 ∧ c.migrate.2.migrate = (.ok (), c.migrate.2)) ∧
      locked.migrate = (.error .locked, locked) := by
  intro c locked
  have hupgradable : c.Upgradable := by
    refine ⟨rfl, fun table htable => ?_⟩
    obtain rfl := Option.some.inj htable
    rfl
  obtain ⟨hsucceeds, -, hfree⟩ := migrate_idempotent c
  have hok := hfree hupgradable
  obtain ⟨⟨hrows, -⟩, ⟨version, hversion, hafter⟩, -, hagain⟩ := hsucceeds hok
  obtain rfl : 0 = version := Except.ok.inj hversion
  have hlocked : locked.migrate.1 = .error .locked := rfl
  refine ⟨⟨hupgradable, hok, hrows, hafter, hagain⟩, Prod.ext hlocked ?_⟩
  obtain ⟨hclosed, -⟩ | ⟨version, before, failed, after, hversion, hpending, hbefore, -⟩ :=
    (migrate_idempotent locked).2.1 .locked hlocked
  · cases hclosed
  · obtain rfl : 0 = version := Except.ok.inj hversion
    have hlength : 1 = before.length + (after.length + 1) := by
      rw [← List.length_cons (a := failed), ← List.length_append, ← hpending]
      rfl
    obtain rfl : before = [] := List.eq_nil_of_length_eq_zero (by omega)
    exact (Prod.mk.inj hbefore).2.symm

end Connection

end JobQueue.Sql

import JobQueue.Proofs.Sql.JobRow

/-! # Statements of a ready store

A store is *ready* (`Store.Ready`) when its table is there with all columns and nothing is in the
way of its statements. A migrated new store is ready (`ready_fresh`), and every statement leaves it
so. For a ready store this module says what the statements do to the rows, without the pages, the
prepared columns and the obstacles of a connection.

* `Ready.read`: a row is read by the places of all columns, that is, as `Row.reading` says.
* `Ready.update`, `Ready.delete`, `Ready.insert_new`: the rows after a change of them.
* `Ready.transition`: the change of the row of an id, or its refusal (`refusal`), which leaves the
  connection as it is. `Ready.claimNext`: the claim of a row. -/

namespace JobQueue

theorem bind_eq_ok {ε α β : Type} {x : Except ε α} {f : α → Except ε β} {b : β}
    (h : (x >>= f) = .ok b) : ∃ a, x = .ok a ∧ f a = .ok b := by
  cases x with
  | error e => cases h
  | ok a => exact ⟨a, rfl, h⟩

namespace Sql

namespace Store

/-- The rows of the jobs table. -/
def rows (store : Store) : List Row := store.connection.database.jobs.elim [] Table.rows

/-- The row of an id. -/
def row? (store : Store) (id : JobId) : Option Row := store.rows.find? fun row => row.id == id

/-- **The store takes every statement**, and its statements know all columns. -/
structure Ready (store : Store) : Prop where
  access : store.connection.access = .free
  table : ∃ table, store.connection.database.jobs = some table ∧ table.dropped = []
  prepared : ∀ p ∈ store.prepared, p.2 = Column.all

/-- A new database with the schema. -/
def fresh (inFile : Bool) : Store := (ofConnection (.ofDatabase (.empty inFile))).migrate.2

theorem ready_fresh (inFile : Bool) : (fresh inFile).Ready := by
  refine ⟨?_, ?_, ?_⟩
  · cases inFile <;> rfl
  · cases inFile <;> exact ⟨_, rfl, rfl⟩
  · intro p hp
    cases inFile <;> cases hp

@[simp] theorem rows_fresh (inFile : Bool) : (fresh inFile).rows = [] := by
  cases inFile <;> rfl

end Store

/-! ### The connection -/

namespace Connection

theorem withTable_of_unbounded {c : Connection} (h : c.access.bounded = false) (table : Table)
    (change : Paging Pages) : ∃ c', c.withTable table change = .ok c' := by
  obtain ⟨after, hafter⟩ := paged_of_unbounded h table.pages change
  unfold withTable
  rw [hafter]
  exact ⟨_, rfl⟩

theorem withTable_pure {c : Connection} {table : Table} (h : c.database.jobs = some table) :
    c.withTable table (pure table.pages) = .ok c := by
  have hpaged : c.paged table.pages (pure table.pages) = .ok (table.pages, c.database.free) := by
    show (if (c.access.bounded && false) = true then Except.error Fault.full
      else .ok (table.pages, c.database.free)) = _
    rw [Bool.and_false]
    rfl
  unfold withTable
  rw [hpaged]
  show Except.ok (Connection.mk { c.database with jobs := some table } c.access) = .ok c
  rw [← h]

theorem named_of_nothing_dropped {table : Table} (h : table.dropped = []) (columns : List Column) :
    named table columns = .ok () := by
  have hfind : columns.find? table.dropped.contains = none := by
    rw [h, List.find?_eq_none]
    simp
  unfold named Table.resolve
  rw [hfind]
  rfl

variable {c : Connection} {table : Table}

theorem query_of_free {α : Type} (hfree : c.access = .free) (hjobs : c.database.jobs = some table)
    (hcols : table.dropped = []) (columns : List Column) (read : Table → α) :
    c.query columns read = .ok (read table) := by
  have htable : c.table = .ok table := by
    simp [Connection.table, opened, hfree, Access.free, hjobs, bind, Except.bind]
  unfold query
  rw [htable]
  show (do named table columns; return read table) = _
  rw [named_of_nothing_dropped hcols]
  rfl

theorem modify_of_free {α : Type} (hfree : c.access = .free)
    (hjobs : c.database.jobs = some table) (hcols : table.dropped = []) (columns : List Column)
    (change : Table → α × Table) (pages : Table → Paging Pages) :
    ∃ c', c.modify columns change pages = .ok ((change table).1, c') ∧
      c.withTable (change table).2 (pages table) = .ok c' := by
  have htable : c.table = .ok table := by
    simp [Connection.table, opened, hfree, Access.free, hjobs, bind, Except.bind]
  have hwrite : c.writable = .ok () := by
    simp [writable, hfree, Access.free]
  obtain ⟨c', hc'⟩ := withTable_of_unbounded (c := c) (by rw [hfree]; rfl) (change table).2
    (pages table)
  refine ⟨c', ?_, hc'⟩
  unfold modify
  rw [htable]
  show (do named table columns; c.writable; return (_, ← c.withTable _ _)) = _
  rw [named_of_nothing_dropped hcols, hwrite]
  show (do return (_, ← c.withTable _ _)) = _
  rw [hc']
  rfl

theorem insert_of_free (hfree : c.access = .free) (hjobs : c.database.jobs = some table)
    (hcols : table.dropped = []) (row : Row) :
    c.insert row = table.insert? row >>= fun changed =>
      c.withTable changed (table.insertPages row) := by
  have htable : c.table = .ok table := by
    simp [Connection.table, opened, hfree, Access.free, hjobs, bind, Except.bind]
  have hwrite : c.writable = .ok () := by
    simp [writable, hfree, Access.free]
  have hcolumns : (table.resolve Column.all).mapError Fault.noColumnNamed = .ok () := by
    have hfind : Column.all.find? table.dropped.contains = none := by
      rw [hcols, List.find?_eq_none]
      simp
    unfold Table.resolve
    rw [hfind]
    rfl
  unfold Connection.insert
  rw [htable]
  show (do (table.resolve Column.all).mapError Fault.noColumnNamed; c.writable; _) = _
  rw [hcolumns, hwrite]
  rfl

end Connection

namespace Store

variable {store : Store}

/-! ### Preparing and reading -/

theorem Ready.query {α : Type} (h : store.Ready) (columns : List Column) (read : Table → α) :
    ∃ table, store.connection.query columns read = .ok (read table) ∧ table.rows = store.rows := by
  obtain ⟨table, hjobs, hcols⟩ := h.table
  refine ⟨table, Connection.query_of_free h.access hjobs hcols columns read, ?_⟩
  unfold rows
  rw [hjobs]
  rfl

theorem columns_of_nothing_dropped {table : Table} (h : table.dropped = []) :
    table.columns = Column.all := by
  unfold Table.columns
  rw [h]
  rfl

theorem Ready.prepare (h : store.Ready) (method : Method) (columns : List Column) :
    (store.prepare method columns).Ready := by
  obtain ⟨table, hjobs, hcols⟩ := h.table
  refine ⟨by rw [connection_prepare]; exact h.access,
    ⟨table, by rw [connection_prepare]; exact hjobs, hcols⟩, ?_⟩
  intro p hp
  unfold Store.prepare at hp
  rw [Connection.query_of_free h.access hjobs hcols, columns_of_nothing_dropped hcols] at hp
  dsimp only at hp
  split at hp
  · exact h.prepared p hp
  · rcases List.mem_append.1 hp with hp | hp
    · exact h.prepared p hp
    · rw [List.mem_singleton.1 hp]

@[simp] theorem rows_prepare (store : Store) (method : Method) (columns : List Column) :
    (store.prepare method columns).rows = store.rows := by
  simp [rows]

@[simp] theorem row?_prepare (store : Store) (method : Method) (columns : List Column)
    (id : JobId) : (store.prepare method columns).row? id = store.row? id := by
  simp [row?]

theorem Ready.places (h : store.Ready) (method : Method) :
    store.places method = .now Column.all := by
  obtain ⟨table, hjobs, hcols⟩ := h.table
  have hpresent : store.connection.database.jobs.elim [] Table.columns = Column.all := by
    rw [hjobs]
    exact columns_of_nothing_dropped hcols
  have hprepared : ((store.prepared.find? fun p => p.1 = method).map (·.2)).getD Column.all =
      Column.all := by
    cases hp : store.prepared.find? fun p => p.1 = method with
    | none => rfl
    | some p => exact h.prepared p (List.mem_of_find?_eq_some hp)
  unfold Store.places
  simp only [hpresent, hprepared]
  rfl

theorem Ready.read (h : store.Ready) (method : Method) (row : Row) :
    store.read method row = row.reading := by
  unfold Store.read Row.reading
  rw [h.places]

theorem Ready.read? (h : store.Ready) (method : Method) (row : Option Row) :
    store.read? method row = match row with
      | none => .ok none
      | some row => row.reading.map some := by
  cases row with
  | none => rfl
  | some row =>
    show (store.read method row).map some = _
    rw [h.read]

/-! ### Changes of the rows -/

theorem Ready.modify {α : Type} (h : store.Ready) (columns : List Column)
    (change : Table → α × Table) (pages : Table → Paging Pages)
    (hkeep : ∀ table, (change table).2.dropped = table.dropped) :
    ∃ table c, store.connection.modify columns change pages = .ok ((change table).1, c) ∧
      table.rows = store.rows ∧ Ready { store with connection := c } ∧
      rows { store with connection := c } = (change table).2.rows := by
  obtain ⟨table, hjobs, hcols⟩ := h.table
  obtain ⟨c, hmodify, htable⟩ :=
    Connection.modify_of_free h.access hjobs hcols columns change pages
  obtain ⟨⟨pages', hjobs'⟩, -, haccess⟩ := Connection.jobs_of_withTable htable
  have hrows : table.rows = store.rows := by
    unfold rows
    rw [hjobs]
    rfl
  refine ⟨table, c, hmodify, hrows, ⟨?_, ?_, h.prepared⟩, ?_⟩
  · exact haccess.trans h.access
  · exact ⟨_, hjobs', (hkeep table).trans hcols⟩
  · unfold rows
    dsimp only
    rw [hjobs']
    rfl

theorem Ready.update (h : store.Ready) (columns : List Column) (condition : Row → Bool)
    (change : Row → Row) :
    ∃ after, store.update columns condition change =
        .ok ((store.rows.filter condition).map change, after) ∧ after.Ready ∧
      after.rows = store.rows.map fun row => if condition row then change row else row := by
  obtain ⟨table, c, hmodify, hrows, hready, hafter⟩ := h.modify columns
    (fun table => table.update condition change)
    (fun table => table.updatePages movedColumns condition change) fun _ => rfl
  refine ⟨_, ?_, hready, ?_⟩
  · unfold Store.update
    rw [hmodify, ← hrows]
    rfl
  · rw [hafter, Table.rows_update, hrows]

theorem Ready.update_of_none (h : store.Ready) (columns : List Column) {condition : Row → Bool}
    (change : Row → Row) (hnone : ∀ row ∈ store.rows, condition row = false) :
    store.update columns condition change = .ok ([], store) := by
  obtain ⟨table, hjobs, hcols⟩ := h.table
  have hrows : table.rows = store.rows := by
    unfold rows
    rw [hjobs]
    rfl
  rw [← hrows] at hnone
  have hfilter : table.rows.filter condition = [] :=
    List.filter_eq_nil_iff.2 fun row hrow => by simp [hnone row hrow]
  obtain ⟨c, hmodify, htable⟩ := Connection.modify_of_free h.access hjobs hcols columns
    (fun table => table.update condition change)
    (fun table => table.updatePages movedColumns condition change)
  have hpages : table.updatePages movedColumns condition change = pure table.pages := by
    unfold Table.updatePages
    rw [hfilter]
    rfl
  have hc : c = store.connection := by
    rw [Table.update_of_none change hnone, hpages,
      Connection.withTable_pure hjobs] at htable
    exact (Except.ok.inj htable).symm
  unfold Store.update
  rw [hmodify, Table.update_of_none change hnone, hc]
  rfl

theorem Ready.delete (h : store.Ready) (columns : List Column) (condition : Row → Bool) :
    ∃ c, (store.connection.modify columns (fun table => table.delete condition)
        fun table => table.deletePages condition) = .ok (store.rows.countP condition, c) ∧
      Ready { store with connection := c } ∧
      rows { store with connection := c } = store.rows.filter fun row => !condition row := by
  obtain ⟨table, c, hmodify, hrows, hready, hafter⟩ := h.modify columns
    (fun table => table.delete condition) (fun table => table.deletePages condition) fun _ => rfl
  refine ⟨c, ?_, hready, ?_⟩
  · rw [hmodify, ← hrows]
    rfl
  · rw [hafter, Table.rows_delete, hrows]

theorem Ready.insert_eq (h : store.Ready) (job : Job) :
    ∃ table, store.connection.database.jobs = some table ∧ table.rows = store.rows ∧
      store.connection.insert (.ofJob job) = table.insert? (.ofJob job) >>= fun changed =>
        store.connection.withTable changed (table.insertPages (.ofJob job)) := by
  obtain ⟨table, hjobs, hcols⟩ := h.table
  refine ⟨table, hjobs, ?_, Connection.insert_of_free h.access hjobs hcols _⟩
  unfold rows
  rw [hjobs]
  rfl

theorem row?_isSome (store : Store) (id : JobId) :
    (store.rows.any fun row => row.id == id) = (store.row? id).isSome := by
  unfold row?
  rw [Bool.eq_iff_iff, List.find?_isSome, List.any_eq_true]

theorem Ready.insert_new (h : store.Ready) {job : Job} (hallowed : 1 ≤ job.maxAttempts)
    (hnew : store.row? job.id = none) :
    ∃ after, store.insert job = (.ok (), after) ∧ after.Ready ∧
      after.rows = store.rows ++ [.ofJob job] := by
  obtain ⟨table, hjobs, hrows, hinsert⟩ := h.insert_eq job
  have hany : (table.rows.any fun row => row.id == (Row.ofJob job).id) = false := by
    rw [hrows, row?_isSome, show (Row.ofJob job).id = job.id from rfl, hnew]
    rfl
  have hadd : table.insert? (.ofJob job) =
      .ok { table with rows := table.rows ++ [.ofJob job] } := by
    unfold Table.insert?
    rw [show (Row.ofJob job).maxAttempts = .int job.maxAttempts from rfl, Value.isBelow_int,
      decide_eq_false (by omega), hany]
    rfl
  obtain ⟨c, hc⟩ := Connection.withTable_of_unbounded (c := store.connection)
    (by rw [h.access]; rfl) { table with rows := table.rows ++ [.ofJob job] }
    (table.insertPages (.ofJob job))
  obtain ⟨⟨pages, hjobs'⟩, -, haccess⟩ := Connection.jobs_of_withTable hc
  obtain ⟨table', hjobs'', hcols⟩ := h.table
  refine ⟨{ store with connection := c }, ?_, ⟨haccess.trans h.access, ⟨_, hjobs', ?_⟩, h.prepared⟩,
    ?_⟩
  · have hinserted : store.connection.insert (.ofJob job) = .ok c := by
      rw [hinsert, hadd]
      exact hc
    unfold Store.insert
    rw [hinserted]
  · rw [hjobs] at hjobs''
    rw [Option.some.inj hjobs'']
    exact hcols
  · rw [← hrows]
    unfold rows
    dsimp only
    rw [hjobs']
    rfl

theorem Ready.insert_disallowed (h : store.Ready) {job : Job} (hallowed : job.maxAttempts < 1) :
    store.insert job = (.error (Fault.checkFailed "max_attempts >= 1").toError, store) := by
  obtain ⟨table, hjobs, hrows, hinsert⟩ := h.insert_eq job
  have hadd : table.insert? (.ofJob job) = .error (.checkFailed "max_attempts >= 1") := by
    unfold Table.insert?
    rw [show (Row.ofJob job).maxAttempts = .int job.maxAttempts from rfl, Value.isBelow_int,
      decide_eq_true hallowed]
    rfl
  unfold Store.insert
  rw [hinsert, hadd]
  rfl

theorem Ready.insert_taken (h : store.Ready) {job : Job} (hallowed : 1 ≤ job.maxAttempts)
    (htaken : store.row? job.id ≠ none) :
    store.insert job = (.error (Fault.notUnique "jobs.id").toError, store) := by
  obtain ⟨table, hjobs, hrows, hinsert⟩ := h.insert_eq job
  have hany : (table.rows.any fun row => row.id == (Row.ofJob job).id) = true := by
    rw [hrows, row?_isSome]
    exact Option.isSome_iff_ne_none.2 htaken
  have hadd : table.insert? (.ofJob job) = .error (.notUnique "jobs.id") := by
    unfold Table.insert?
    rw [show (Row.ofJob job).maxAttempts = .int job.maxAttempts from rfl, Value.isBelow_int,
      decide_eq_false (by omega), hany]
    rfl
  unfold Store.insert
  rw [hinsert, hadd]
  rfl

/-! ### Changes of one row -/

/-- **Why the change is refused**, given what is there under the id. -/
def refusal (id : JobId) (action : Action) : Option Row → JobError
  | none => .jobNotFound id
  | some row =>
    .invalidState ("Cannot " ++ action.text ++ " job " ++ id ++ " in state " ++ row.status ++
      match row.claimedBy with
      | some holder => " (claimed by " ++ holder ++ ")"
      | none => "")

theorem Ready.miss (h : store.Ready) (id : JobId) (action : Action) :
    store.miss id action = refusal id action (store.row? id) := by
  obtain ⟨table, hquery, hrows⟩ := h.query [.claimedBy] fun table => table.find? id
  have hfind : table.find? id = store.row? id := by
    unfold Table.find? row?
    rw [hrows]
  unfold Store.miss
  rw [hquery, hfind]
  cases store.row? id <;> rfl

theorem Ready.transition (h : store.Ready) (id : JobId) (action : Action) (condition : Row → Bool)
    (change : Row → Row) :
    ∃ after, store.transition id action condition change =
        ((match store.rows.filter condition with
          | row :: _ => (change row).reading
          | [] => .error (refusal id action (store.row? id))), after) ∧
      after.Ready ∧
      (after.rows = store.rows.map fun row => if condition row then change row else row) ∧
      (store.rows.filter condition = [] → after.connection = store.connection) := by
  have hprepared := h.prepare action.method action.columns
  obtain ⟨after, hupdate, hready, hrows⟩ := hprepared.update action.columns condition change
  rw [rows_prepare] at hupdate hrows
  cases hfilter : store.rows.filter condition with
  | cons row rest =>
    refine ⟨after, ?_, hready, hrows, nofun⟩
    unfold Store.transition
    dsimp only
    rw [hupdate, hfilter]
    show (after.read action.method (change row), after) = _
    rw [hready.read]
  | nil =>
    have hmiss : ∀ row ∈ (store.prepare action.method action.columns).rows,
        condition row = false := by
      rw [rows_prepare]
      exact fun row hrow => by simpa using List.filter_eq_nil_iff.1 hfilter row hrow
    have hnone := hprepared.update_of_none action.columns change hmiss
    rw [hupdate] at hnone
    have hafter : after = store.prepare action.method action.columns :=
      (Prod.mk.inj (Except.ok.inj hnone)).2
    refine ⟨after, ?_, hready, hrows, fun _ => by rw [hafter, connection_prepare]⟩
    unfold Store.transition
    dsimp only
    rw [hupdate, hfilter]
    show (Except.error (after.miss id action), after) = _
    rw [hready.miss, hafter, row?_prepare]

/-- The row is the first due one of the queue and waits. -/
def isNext (store : Store) (queue : QueueName) (now : Int) (row : Row) : Bool :=
  (store.firstDue? queue now).any (fun due => due.id == row.id) &&
    row.status == Status.pending.name

/-- **The claim of a row**, if there is a next one. -/
theorem Ready.claimNext (h : store.Ready) (queue : QueueName) (worker : WorkerId) (now : Int) :
    ∃ after, store.claimNext queue worker now =
        ((match store.rows.filter (store.isNext queue now) with
          | row :: _ => (row.claim worker now).reading.map some
          | [] => .ok none), after) ∧
      after.Ready ∧
      (after.rows = store.rows.map fun row =>
        if store.isNext queue now row then row.claim worker now else row) ∧
      (store.rows.filter (store.isNext queue now) = [] →
        after.connection = store.connection) := by
  have hprepared := h.prepare .claimNext [.claimedBy, .createdAt]
  obtain ⟨after, hupdate, hready, hrows⟩ := hprepared.update [.claimedBy, .createdAt]
    (store.isNext queue now) (Row.claim worker now)
  rw [rows_prepare] at hupdate hrows
  have hanswer : store.claimNext queue worker now = (after.read? .claimNext
      ((store.rows.filter (store.isNext queue now)).map (Row.claim worker now)).head?, after) := by
    have hcondition : (fun row : Row => (store.firstDue? queue now).any
        (fun due => due.id == row.id) && row.status == Status.pending.name) =
        store.isNext queue now := rfl
    unfold Store.claimNext
    dsimp only
    rw [hcondition, hupdate]
  rw [hanswer, hready.read?]
  cases hfilter : store.rows.filter (store.isNext queue now) with
  | cons row rest => exact ⟨after, rfl, hready, hrows, nofun⟩
  | nil =>
    have hmiss : ∀ row ∈ (store.prepare .claimNext [.claimedBy, .createdAt]).rows,
        store.isNext queue now row = false := by
      rw [rows_prepare]
      exact fun row hrow => by simpa using List.filter_eq_nil_iff.1 hfilter row hrow
    have hnone := hprepared.update_of_none [.claimedBy, .createdAt] (Row.claim worker now) hmiss
    rw [hupdate] at hnone
    have hafter : after = store.prepare .claimNext [.claimedBy, .createdAt] :=
      (Prod.mk.inj (Except.ok.inj hnone)).2
    exact ⟨after, rfl, hready, hrows, fun _ => by rw [hafter, connection_prepare]⟩

end Store

end Sql

end JobQueue

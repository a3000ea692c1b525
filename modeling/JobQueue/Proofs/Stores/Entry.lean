import JobQueue.Enqueue
import JobQueue.Proofs.Memory.History

/-! # Jobs enter whole or not at all

A request that breaks a rule is refused before an id is drawn and before the store is called. Else a
job is built for it, which the store takes or refuses; a refusal leaves the store as it was. This
holds of a store of either kind, whatever is in it, whatever is in the way of its statements, and
whatever ids are drawn.

The two kinds differ when the id is taken. The database refuses the job, whatever the state of the
row that has the id. The store in memory puts the job in the place of the one with the id, which is
lost.

* `Backend.Enters`: a new row, or a job in the place of another one.
* `Backend.insert_cases`: a store takes a job or refuses it.
* `enqueue_atomic`: **what comes of a request.** -/

namespace JobQueue

open MemoryStore

/-! ### The job for a request -/

/-- **The job is as the request asks for**: it waits, nobody has attempted it or holds it, and it is
due as the request says, as of the time of the request. -/
structure Request.Asks (request : Request) (now : Int) (job : Job) : Prop where
  work : job.queue = request.queue ∧ job.jobType = request.jobType ∧ job.payload = request.payload
  status : job.status = .pending
  attempts : job.attempts = 0
  unclaimed : job.claimedBy = none ∧ job.claimedAt = none
  times : job.createdAt = now ∧ job.updatedAt = now
  due : job.scheduledAt = match request.schedule with
    | .immediate => now
    | .delayed delay => min (now + delay.wholeMillis) Timestamp.latest
    | .at time => time

theorem Request.asks_toJob (request : Request) (id : JobId) (now default : Int) :
    request.Asks now (request.toJob id now default) := by
  refine ⟨⟨rfl, rfl, rfl⟩, rfl, rfl, ⟨rfl, rfl⟩, ⟨rfl, rfl⟩, ?_⟩
  show request.schedule.dueTime now = _
  cases request.schedule <;> rfl

/-! ### Rows -/

namespace Backend

/-- The rows of a store, of either kind. -/
def rows : Backend → List Sql.Row
  | .memory store => store.jobs.map Sql.Row.ofJob
  | .sql store => store.rows

/-- **How a job enters** a store. -/
inductive Enters (job : Job) : Backend → Backend → Prop
  /-- Its id is new, and it comes after the rows that were there. -/
  | added {store after : Backend} (hnew : ∀ row ∈ store.rows, row.id ≠ job.id)
      (hrows : after.rows = store.rows ++ [.ofJob job]) : Enters job store after
  /-- In memory it takes the place of the job with its id. -/
  | replaced {store after : MemoryStore} {before later : List Job} {old : Job}
      (hid : old.id = job.id) (hjobs : store.jobs = before ++ old :: later)
      (hafter : after.jobs = before ++ job :: later) : Enters job (.memory store) (.memory after)

/-- **The rows that were there stay just if the id is new.** -/
theorem Enters.rows_eq_iff {job : Job} {store after : Backend} (h : Enters job store after) :
    after.rows = store.rows ++ [.ofJob job] ↔ ∀ row ∈ store.rows, row.id ≠ job.id := by
  cases h with
  | added hnew hrows => exact iff_of_true hrows hnew
  | @replaced store after before later old hid hjobs hafter =>
    have hold : Sql.Row.ofJob old ∈ (Backend.memory store).rows := by
      show Sql.Row.ofJob old ∈ store.jobs.map Sql.Row.ofJob
      rw [hjobs]
      exact List.mem_map_of_mem (List.mem_append_right before List.mem_cons_self)
    refine iff_of_false (fun heq => ?_) fun hnew => hnew _ hold hid
    have hlength := congrArg List.length heq
    simp [rows, hjobs, hafter] at hlength

end Backend

/-! ### The database -/

namespace Sql

theorem Table.rows_of_insert? {table changed : Table} {row : Row}
    (h : table.insert? row = .ok changed) :
    (∀ other ∈ table.rows, other.id ≠ row.id) ∧ changed.rows = table.rows ++ [row] := by
  unfold Table.insert? at h
  split at h
  · cases h
  · split at h
    · cases h
    · next hnew =>
      rw [← Except.ok.inj h]
      refine ⟨fun other hother hid => hnew ?_, rfl⟩
      exact List.any_eq_true.2 ⟨other, hother, beq_iff_eq.2 hid⟩

theorem Connection.rows_of_insert {c after : Connection} {row : Row}
    (h : c.insert row = .ok after) :
    ∃ table changed, c.database.jobs = some table ∧ after.database.jobs = some changed ∧
      (∀ other ∈ table.rows, other.id ≠ row.id) ∧ changed.rows = table.rows ++ [row] := by
  obtain ⟨table, htable, h⟩ := bind_eq_ok h
  obtain ⟨-, -, htable⟩ := bind_eq_ok htable
  obtain ⟨-, -, h⟩ := bind_eq_ok h
  obtain ⟨-, -, h⟩ := bind_eq_ok h
  obtain ⟨inserted, hinsert, h⟩ := bind_eq_ok h
  obtain ⟨⟨pages, hafter⟩, -, -⟩ := jobs_of_withTable h
  obtain ⟨hnew, hrows⟩ := Table.rows_of_insert? hinsert
  refine ⟨table, _, ?_, hafter, hnew, hrows⟩
  split at htable
  · next hjobs => rw [hjobs, Except.ok.inj htable]
  · cases htable

/-- **The database takes a job with a new id, or refuses it and stays.** -/
theorem Store.insert_cases (store : Store) (job : Job) :
    (∃ fault : Fault, store.insert job = (.error fault.toError, store)) ∨
      ∃ after, store.insert job = (.ok (), after) ∧ (∀ row ∈ store.rows, row.id ≠ job.id) ∧
        after.rows = store.rows ++ [.ofJob job] := by
  unfold Store.insert
  cases hinsert : store.connection.insert (.ofJob job) with
  | error fault => exact .inl ⟨fault, rfl⟩
  | ok connection =>
    obtain ⟨table, changed, hjobs, hafter, hnew, hrows⟩ := Connection.rows_of_insert hinsert
    refine .inr ⟨_, rfl, ?_, ?_⟩
    · unfold Store.rows
      rw [hjobs]
      exact hnew
    · unfold Store.rows
      dsimp only
      rw [hjobs, hafter]
      exact hrows

end Sql

/-! ### In memory -/

namespace MemoryStore

theorem put_cases (job : Job) : ∀ jobs : List Job,
    ((∀ other ∈ jobs, other.id ≠ job.id) ∧ put job jobs = jobs ++ [job]) ∨
      ∃ before old later, jobs = before ++ old :: later ∧ old.id = job.id ∧
        put job jobs = before ++ job :: later
  | [] => .inl ⟨fun _ hother => absurd hother List.not_mem_nil, rfl⟩
  | first :: rest => by
    unfold put
    by_cases hid : first.id = job.id
    · rw [if_pos hid]
      exact .inr ⟨[], first, rest, rfl, hid, rfl⟩
    · rw [if_neg hid]
      rcases put_cases job rest with ⟨hnew, hput⟩ | ⟨before, old, later, hrest, hold, hput⟩
      · exact .inl ⟨List.forall_mem_cons.2 ⟨hid, hnew⟩, by rw [hput]; rfl⟩
      · exact .inr ⟨first :: before, old, later, by rw [hrest]; rfl, hold, by rw [hput]; rfl⟩

theorem run_insert_cases (store : MemoryStore) (job : Job) (now : Int) :
    (∃ e, store.run (.insert job) now = (.error e, store) ∧ e.kind ≠ .validation) ∨
      store.run (.insert job) now = (.ok (), store.withJobs (put job store.jobs)) := by
  unfold MemoryStore.run
  cases hcheck : store.check (.insert job) now with
  | error e =>
    refine .inl ⟨e, rfl, ?_⟩
    rcases check_eq_error hcheck with rfl | ⟨cause, rfl⟩ <;> exact nofun
  | ok => exact .inr rfl

end MemoryStore

namespace Backend

theorem run_memory (store : MemoryStore) (call : Call) (now : Int) :
    (Backend.memory store).run call now =
      ((store.run call now).1, .memory (store.run call now).2) := rfl

theorem run_sql (store : Sql.Store) (call : Call) (now : Int) :
    (Backend.sql store).run call now = ((store.run call now).1, .sql (store.run call now).2) := rfl

/-- **A store takes a job, or refuses it and stays.** -/
theorem insert_cases (store : Backend) (job : Job) (now : Int) :
    (∃ e, store.run (.insert job) now = (.error e, store) ∧ e.kind ≠ .validation) ∨
      ∃ after, store.run (.insert job) now = (.ok (), after) ∧ Enters job store after := by
  cases store with
  | memory store =>
    rw [run_memory]
    rcases store.run_insert_cases job now with ⟨e, hrun, hkind⟩ | hrun
    · exact .inl ⟨e, by rw [hrun], hkind⟩
    · refine .inr ⟨.memory (store.withJobs (put job store.jobs)), by rw [hrun], ?_⟩
      rcases put_cases job store.jobs with ⟨hnew, hput⟩ | ⟨before, old, later, hjobs, hid, hput⟩
      · refine .added (List.forall_mem_map.2 hnew) ?_
        show (put job store.jobs).map Sql.Row.ofJob = _
        rw [hput, List.map_append]
        rfl
      · exact .replaced hid hjobs hput
  | sql store =>
    have hrun : store.run (.insert job) now = store.insert job := rfl
    rw [run_sql, hrun]
    rcases store.insert_cases job with ⟨fault, hinsert⟩ | ⟨after, hinsert, hnew, hrows⟩
    · exact .inl ⟨fault.toError, by rw [hinsert]; rfl, nofun⟩
    · exact .inr ⟨.sql after, by rw [hinsert]; rfl, .added hnew hrows⟩

/-! ### Requests -/

section Enqueue

variable {request : Request} (now default : Int) (ids : IdSource) (store : Backend)

theorem enqueue_of_fault {fault : RequestFault} (h : request.check = .error fault) :
    store.enqueue request now default ids = (.error fault.toError, ids, store) := by
  unfold enqueue Request.prepare
  rw [h]
  rfl

theorem enqueue_of_error (h : request.check = .ok ()) {e : JobError}
    (hrun : store.run (.insert (request.toJob ids.draw.1 now default)) now = (.error e, store)) :
    store.enqueue request now default ids = (.error e, ids.draw.2, store) := by
  unfold enqueue
  rw [Request.prepare_of_check h]
  dsimp only
  rw [hrun]

theorem enqueue_of_ok (h : request.check = .ok ()) {after : Backend}
    (hrun : store.run (.insert (request.toJob ids.draw.1 now default)) now = (.ok (), after)) :
    store.enqueue request now default ids =
      (.ok (request.toJob ids.draw.1 now default), ids.draw.2, after) := by
  unfold enqueue
  rw [Request.prepare_of_check h]
  dsimp only
  rw [hrun]

end Enqueue

end Backend

/-- **What comes of a request**, for a store of either kind with any content and any obstacles, any
source of ids and any time:

* An error leaves the store as it was. It is one of validation exactly when the request breaks a
  rule; then no id is drawn, and the store plays no part in the answer.
* Else the answer is a job with the next id, as the request asks for, and it enters the store. In a
  database its id is new. The rows that were there are still there, with the job after them, exactly
  when the id is new; in memory the job takes the place of the one that had the id. -/
theorem enqueue_atomic (request : Request) (now default : Int) (ids : IdSource)
    (store : Backend) :
    let answer := store.enqueue request now default ids
    (∀ e, answer.1 = .error e → answer.2.2 = store) ∧
      ((∃ text, answer.1 = .error (.validation text)) ↔ ∃ fault, request.check = .error fault) ∧
      (∀ fault, request.check = .error fault → answer = (.error fault.toError, ids, store)) ∧
      ∀ job, answer.1 = .ok job →
        job.id = ids.draw.1 ∧ answer.2.1 = ids.draw.2 ∧ request.Asks now job ∧
          Backend.Enters job store answer.2.2 ∧
          (answer.2.2.rows = store.rows ++ [.ofJob job] ↔ ∀ row ∈ store.rows, row.id ≠ job.id) := by
  intro answer
  cases hcheck : request.check with
  | error fault =>
    have hanswer : answer = (.error fault.toError, ids, store) :=
      store.enqueue_of_fault now default ids hcheck
    rw [hanswer]
    refine ⟨fun _ _ => rfl, iff_of_true ⟨_, rfl⟩ ⟨fault, rfl⟩, fun other hother => ?_,
      fun job hjob => ?_⟩
    · rw [Except.error.inj hother]
    · cases hjob
  | ok =>
    rcases store.insert_cases (request.toJob ids.draw.1 now default) now with
      ⟨e, hrun, hkind⟩ | ⟨after, hrun, henters⟩
    · have hanswer : answer = (.error e, ids.draw.2, store) :=
        store.enqueue_of_error now default ids hcheck hrun
      rw [hanswer]
      refine ⟨fun _ _ => rfl, iff_of_false ?_ ?_, fun fault hfault => ?_, fun job hjob => ?_⟩
      · rintro ⟨text, htext⟩
        exact hkind (by rw [Except.error.inj htext]; rfl)
      · rintro ⟨fault, hfault⟩
        cases hfault
      · cases hfault
      · cases hjob
    · have hanswer : answer = (.ok (request.toJob ids.draw.1 now default), ids.draw.2, after) :=
        store.enqueue_of_ok now default ids hcheck hrun
      rw [hanswer]
      refine ⟨fun e he => ?_, iff_of_false ?_ ?_, fun fault hfault => ?_, fun job hjob => ?_⟩
      · cases he
      · rintro ⟨text, htext⟩
        cases htext
      · rintro ⟨fault, hfault⟩
        cases hfault
      · cases hfault
      · obtain rfl := Except.ok.inj hjob
        exact ⟨rfl, rfl, request.asks_toJob _ now default, henters, henters.rows_eq_iff⟩

/-- Into a new database the job enters as its only row. -/
theorem enqueue_atomic_of_fresh :
    let store := Backend.sql (.fresh true)
    let answer := store.enqueue (.create "q" "t" []) 5 3 .sequential
    ∃ job, answer.1 = .ok job ∧ job.id = "job-1" ∧ job.createdAt = 5 ∧
      answer.2.2.rows = [.ofJob job] := by
  intro store answer
  have haccepted : answer.1.isOk = true := by decide +kernel
  have hatomic : answer = store.enqueue (.create "q" "t" []) 5 3 .sequential := rfl
  obtain ⟨-, -, -, hok⟩ := enqueue_atomic (.create "q" "t" []) 5 3 .sequential store
  rw [← hatomic] at hok
  clear_value answer
  cases hjob : answer.1 with
  | error e =>
    rw [hjob] at haccepted
    cases haccepted
  | ok job =>
    obtain ⟨hid, -, hasks, -, hrows⟩ := hok job hjob
    have hfirst : IdSource.sequential.draw.1 = "job-1" := by decide +kernel
    have hempty : store.rows = [] := Sql.Store.rows_fresh true
    rw [hempty, List.nil_append] at hrows
    exact ⟨job, rfl, hid.trans hfirst, hasks.times.1,
      hrows.2 fun _ hrow => absurd hrow List.not_mem_nil⟩

/-- **A job that has ended is lost** from the store in memory when its id is drawn again. -/
theorem enqueue_replaces :
    let old := (Request.toJob (.create "q" "t" []) "job-1" 0 3).completed [] 1
    let store := Backend.memory (MemoryStore.ofJobs [old])
    let answer := store.enqueue (.create "q" "u" []) 5 3 .sequential
    ∃ job, answer.1 = .ok job ∧ job.jobType = "u" ∧ store.rows = [.ofJob old] ∧
      answer.2.2.rows = [.ofJob job] := by
  intro old store answer
  exact ⟨_, rfl, rfl, rfl, by decide +kernel⟩

end JobQueue

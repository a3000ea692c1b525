import JobQueue.Proofs.Sql.Ready
import JobQueue.Store.Backend
import JobQueue.Worker.Attempt

/-! # What the answer to a report tells

Whatever has become of a store, also when somebody changed its rows or its schema: a report is
accepted only of a worker that holds the job, and is rejected only of one that does not. Every other
answer is a failure of the store.

* `JobError.isRejection`: the error of a change that does not apply.
* `Backend.holds`: the worker holds the job, in a store of either kind.
* `Report.tells_outcome`: **acceptance and rejection tell whether the worker holds the job.** -/

namespace JobQueue

/-- The error says that there is no such job, or that its state does not allow the change. -/
def JobError.isRejection (e : JobError) : Bool :=
  e.kind == .notFound || e.kind == .invalidState

/-- **The answer tells whether the job is held.** -/
structure Tells (answer : Except JobError Job) (held : Bool) : Prop where
  accepted : ∀ job, answer = .ok job → held = true
  rejected : ∀ e, answer = .error e → e.isRejection = true → held = false

namespace Tells

theorem of_ok (job : Job) : Tells (.ok job) true := ⟨fun _ _ => rfl, fun _ he => (nomatch he)⟩

theorem of_failure {e : JobError} (h : e.isRejection = false) (held : Bool) :
    Tells (.error e) held := by
  refine ⟨fun _ hjob => (nomatch hjob), fun f hf hrejection => ?_⟩
  rw [← Except.error.inj hf, h] at hrejection
  cases hrejection

theorem of_free (e : JobError) : Tells (.error e) false :=
  ⟨fun _ hjob => (nomatch hjob), fun _ _ _ => rfl⟩

end Tells

/-! ### In a database -/

namespace Sql

theorem RowFault.isRejection_toError (fault : RowFault) : fault.toError.isRejection = false := by
  cases fault <;> rfl

theorem Connection.answer_of_modify {α : Type} {c after : Connection} {columns : List Column}
    {change : Table → α × Table} {pages : Table → Paging Pages} {a : α}
    (h : c.modify columns change pages = .ok (a, after)) :
    ∃ table, c.database.jobs = some table ∧ a = (change table).1 := by
  obtain ⟨table, htable, h⟩ := bind_eq_ok h
  obtain ⟨-, -, htable⟩ := bind_eq_ok htable
  obtain ⟨-, -, h⟩ := bind_eq_ok h
  obtain ⟨-, -, h⟩ := bind_eq_ok h
  obtain ⟨_, -, h⟩ := bind_eq_ok h
  refine ⟨table, ?_, (Prod.mk.inj (Except.ok.inj h)).1.symm⟩
  split at htable
  · next hjobs => rw [hjobs, Except.ok.inj htable]
  · cases htable

namespace Store

theorem rows_of_update {store after : Store} {columns : List Column} {condition : Row → Bool}
    {change : Row → Row} {changed : List Row}
    (h : store.update columns condition change = .ok (changed, after)) :
    changed = (store.rows.filter condition).map change := by
  obtain ⟨made, hmodify, h⟩ := bind_eq_ok h
  obtain ⟨table, hjobs, hrows⟩ := Connection.answer_of_modify hmodify
  obtain rfl := (Prod.mk.inj (Except.ok.inj h)).1
  rw [hrows]
  unfold rows
  rw [hjobs]
  rfl

/-- **The answer of a change** tells whether there is a row that it applies to. -/
theorem tells_transition (store : Store) (id : JobId) (action : Action) (condition : Row → Bool)
    (change : Row → Row) :
    Tells (store.transition id action condition change).1 (store.rows.any condition) := by
  have hrows : (store.prepare action.method action.columns).rows = store.rows := by
    unfold rows
    rw [connection_prepare]
  unfold transition
  dsimp only
  cases hupdate : (store.prepare action.method action.columns).update action.columns condition
      change with
  | error fault =>
    refine .of_failure ?_ _
    rfl
  | ok made =>
    obtain ⟨changed, after⟩ := made
    have hchanged := rows_of_update hupdate
    rw [hrows] at hchanged
    cases changed with
    | nil =>
      have hfilter := List.filter_eq_nil_iff.1 (List.map_eq_nil_iff.1 hchanged.symm)
      rw [List.any_eq_false.2 hfilter]
      exact .of_free _
    | cons row others =>
      have hsome : store.rows.any condition = true := by
        cases hfilter : store.rows.filter condition with
        | nil =>
          rw [hfilter] at hchanged
          cases hchanged
        | cons first rest =>
          have hfirst : first ∈ store.rows.filter condition := hfilter ▸ List.mem_cons_self
          exact List.any_eq_true.2 ⟨first, List.mem_filter.1 hfirst⟩
      rw [hsome]
      show Tells ((row.job (after.places action.method)).mapError RowFault.toError) true
      cases row.job (after.places action.method) with
      | ok job => exact .of_ok job
      | error fault => exact .of_failure fault.isRejection_toError _

end Store

end Sql

/-! ### In memory -/

namespace MemoryStore

variable {id : JobId} {worker : WorkerId} {now : Int} {store : MemoryStore}

theorem isRejection_of_check {call : Call} {e : JobError} (h : store.check call now = .error e) :
    e.isRejection = false := by
  rcases check_eq_error h with rfl | ⟨cause, rfl⟩ <;> rfl

theorem tells_check (call : Call) {made : Except JobError Job × MemoryStore} {held : Bool}
    (hmade : Tells made.1 held) : Tells
      (match store.check call now with
        | .error e => (Except.error e, store)
        | .ok () => made).1 held := by
  cases hcheck : store.check call now with
  | ok => exact hmade
  | error e => exact .of_failure (isRejection_of_check hcheck) held

theorem tells_withHeld (change : Job → Job) :
    Tells (store.withHeld id worker now change).1 (held id worker store.jobs).isOk := by
  unfold withHeld
  cases held id worker store.jobs with
  | error e => exact .of_free e
  | ok job => exact .of_ok _

theorem tells_fail (error : String) (delay : Duration) :
    Tells (store.fail id worker error delay now).1 (held id worker store.jobs).isOk := by
  unfold fail
  cases held id worker store.jobs with
  | error e => exact .of_free e
  | ok job =>
    dsimp only
    cases failed job error delay now with
    | error cause =>
      refine .of_failure ?_ _
      rfl
    | ok job => exact .of_ok _

end MemoryStore

/-! ### In either store -/

/-- **The worker holds the job**: it runs, and the worker claimed it. -/
def Backend.holds (id : JobId) (worker : WorkerId) : Backend → Bool
  | .memory store => (MemoryStore.held id worker store.jobs).isOk
  | .sql store => store.rows.any (Sql.Row.isHeldBy id worker)

namespace Report

/-- **What is answered to a report.** -/
def outcome (report : Report) (id : JobId) (worker : WorkerId) (now : Int) (store : Backend) :
    Except JobError Job :=
  match report with
  | .complete result => (store.run (.complete id worker result) now).1
  | .fail error delay => (store.run (.fail id worker error delay) now).1
  | .failPermanently error => (store.run (.failPermanently id worker error) now).1

/-- **Acceptance and rejection of a report** tell whether the worker holds the job. -/
theorem tells_outcome (report : Report) (id : JobId) (worker : WorkerId) (now : Int)
    (store : Backend) : Tells (report.outcome id worker now store) (store.holds id worker) := by
  cases store with
  | memory store =>
    cases report with
    | complete result => exact MemoryStore.tells_check _ (MemoryStore.tells_withHeld _)
    | fail error delay => exact MemoryStore.tells_check _ (MemoryStore.tells_fail error delay)
    | failPermanently error => exact MemoryStore.tells_check _ (MemoryStore.tells_withHeld _)
  | sql store =>
    cases report with
    | complete result => exact store.tells_transition id .complete _ _
    | fail error delay => exact store.tells_transition id .fail _ _
    | failPermanently error => exact store.tells_transition id .failPermanently _ _

end Report

end JobQueue

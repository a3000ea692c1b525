import JobQueue.Proofs.Sql.Claims

/-! # Workers on one store

Any number of workers share a store in a database, and each makes one attempt after another. An
attempt is cut wherever the store is called and wherever the handler ends, so that others may act in
between: a worker of another id, or anybody who calls the store directly. A call may also be lost,
when it fails or is given up without effect.

A list of events, the latest first, is run on a system (`System.run`); an event whose time has not
come, such as a report of a worker that has no job, does nothing.

* `Worker.Move`, `Event`: what may happen. `System.act`: a move of an attempt.
* `System.operations`: the operations that reach the store. `store_run`: the store is as after
  these, so what is known of all histories of a store is known here. -/

namespace JobQueue

/-- **What may happen to the attempt of a worker.** -/
inductive Worker.Move where
  /-- The claim reaches the store; `registered` says for which work there is a handler. -/
  | claim (registered : JobType → Bool) (now : Int)
  /-- The claim is without effect, for the error. -/
  | loseClaim (e : JobError)
  /-- The handler ends, or its time is over. -/
  | handle (ending : Option Ending)
  /-- The report reaches the store. -/
  | report (now : Int)
  /-- The report is without effect. -/
  | loseReport
  /-- The next attempt begins. -/
  | begin

/-- **What may happen**: a move of a worker's attempt, or another call of the store. -/
inductive Event where
  | act (worker : Worker) (move : Worker.Move)
  | other (op : Operation)

/-- The worker that the call claims or reports for. -/
def Call.worker? : Call → Option WorkerId
  | .claimNext _ worker => some worker
  | .complete _ worker _ => some worker
  | .fail _ worker _ _ => some worker
  | .failPermanently _ worker _ => some worker
  | _ => none

theorem Report.worker?_call (report : Report) (id : JobId) (worker : WorkerId) :
    (report.call id worker).worker? = some worker := by
  cases report <;> rfl

/-- **A store and the attempts of the workers** of all ids. -/
structure System where
  store : Sql.Store
  attempts : WorkerId → Attempt

namespace System

/-- A new store, with workers that are about to claim. -/
def start (inFile : Bool) : System := ⟨.fresh inFile, fun _ => .claiming⟩

/-- The attempt of the worker has come so far. -/
def advance (system : System) (worker : WorkerId) (attempt : Attempt) : System :=
  { system with attempts := Function.update system.attempts worker attempt }

@[simp] theorem attempts_advance_self (system : System) (worker : WorkerId) (attempt : Attempt) :
    (system.advance worker attempt).attempts worker = attempt :=
  Function.update_self _ _ _

theorem attempts_advance_of_ne (system : System) {worker other : WorkerId} (attempt : Attempt)
    (h : other ≠ worker) : (system.advance worker attempt).attempts other = system.attempts other :=
  Function.update_of_ne h _ _

/-- A call of the store, with its answer. -/
def perform (system : System) (call : Call) (now : Int) : call.Outcome × System :=
  let (answer, store) := system.store.run call now
  (answer, { system with store := store })

/-- **A move of the worker's attempt**, which stands at a point; if it has not come to that, nothing
happens. -/
def act (system : System) (worker : Worker) : Worker.Move → Attempt → System
  | .claim registered now, .claiming =>
    let (answer, system) := system.perform worker.claim now
    system.advance worker.id (Worker.afterClaim registered answer)
  | .loseClaim e, .claiming => system.advance worker.id (Worker.afterClaim (fun _ => true) (.error e))
  | .handle ending, .handling job => system.advance worker.id (worker.afterHandler job ending)
  | .report now, .reporting job report =>
    (system.perform (report.call job.id worker.id) now).2.advance worker.id Worker.afterReport
  | .loseReport, .reporting _ _ => system.advance worker.id Worker.afterReport
  | .begin, .finished _ => system.advance worker.id .claiming
  | _, _ => system

def step (system : System) : Event → System
  | .act worker move => system.act worker move (system.attempts worker.id)
  | .other op => (system.perform op.call op.now).2

section Moves

variable {system : System} {worker : Worker} {job : Job} {report : Report}

theorem step_claim (h : system.attempts worker.id = .claiming) (registered : JobType → Bool)
    (now : Int) : system.step (.act worker (.claim registered now)) =
      (system.perform worker.claim now).2.advance worker.id
        (Worker.afterClaim registered (system.store.claimNext worker.queue worker.id now).1) := by
  show system.act worker (.claim registered now) (system.attempts worker.id) = _
  rw [h]
  rfl

theorem step_loseClaim (h : system.attempts worker.id = .claiming) (e : JobError) :
    system.step (.act worker (.loseClaim e)) = system.advance worker.id (.finished (.error e)) := by
  show system.act worker (.loseClaim e) (system.attempts worker.id) = _
  rw [h]
  rfl

theorem step_handle (h : system.attempts worker.id = .handling job) (ending : Option Ending) :
    system.step (.act worker (.handle ending)) =
      system.advance worker.id (worker.afterHandler job ending) := by
  show system.act worker (.handle ending) (system.attempts worker.id) = _
  rw [h]
  rfl

theorem step_report (h : system.attempts worker.id = .reporting job report) (now : Int) :
    system.step (.act worker (.report now)) =
      (system.perform (report.call job.id worker.id) now).2.advance worker.id
        Worker.afterReport := by
  show system.act worker (.report now) (system.attempts worker.id) = _
  rw [h]
  rfl

theorem step_loseReport (h : system.attempts worker.id = .reporting job report) :
    system.step (.act worker .loseReport) = system.advance worker.id Worker.afterReport := by
  show system.act worker .loseReport (system.attempts worker.id) = _
  rw [h]
  rfl

theorem step_begin {claimed : Except JobError Bool}
    (h : system.attempts worker.id = .finished claimed) :
    system.step (.act worker .begin) = system.advance worker.id .claiming := by
  show system.act worker .begin (system.attempts worker.id) = _
  rw [h]
  rfl

end Moves

/-- **The system after the events**, the latest first. -/
def run : List Event → System → System
  | [], system => system
  | event :: earlier, system => (run earlier system).step event

/-- **A system after events** from the start. -/
def after (inFile : Bool) (events : List Event) : System := run events (start inFile)

/-! ### Operations -/

/-- The operation of a move on the store, if it makes one. -/
def operationOf (worker : Worker) : Worker.Move → Attempt → Option Operation
  | .claim _ now, .claiming => some ⟨worker.claim, now⟩
  | .report now, .reporting job report => some ⟨report.call job.id worker.id, now⟩
  | _, _ => none

/-- The operation of the event on the store, if it makes one. -/
def operation? (system : System) : Event → Option Operation
  | .act worker move => operationOf worker move (system.attempts worker.id)
  | .other op => some op

/-- **The operations that reach the store**, the latest first. -/
def operations : List Event → System → List Operation
  | [], _ => []
  | event :: earlier, system =>
    ((run earlier system).operation? event).toList ++ operations earlier system

theorem store_step (system : System) (event : Event) : (system.step event).store =
    match system.operation? event with
    | some op => (system.store.run op.call op.now).2
    | none => system.store := by
  cases event with
  | other op => rfl
  | act worker move =>
    show (system.act worker move (system.attempts worker.id)).store =
      match operationOf worker move (system.attempts worker.id) with
      | some op => (system.store.run op.call op.now).2
      | none => system.store
    cases move <;> cases system.attempts worker.id <;> rfl

theorem operation?_handle (system : System) (worker : Worker) (ending : Option Ending) :
    system.operation? (.act worker (.handle ending)) = none := by
  show operationOf worker (.handle ending) (system.attempts worker.id) = none
  cases system.attempts worker.id <;> rfl

theorem store_handle (system : System) (worker : Worker) (ending : Option Ending) :
    (system.step (.act worker (.handle ending))).store = system.store := by
  rw [store_step, operation?_handle]

/-- **The store is as after the operations that reached it.** -/
theorem store_run (inFile : Bool) : ∀ events : List Event, (after inFile events).store =
    Sql.Store.after inFile (operations events (start inFile))
  | [] => rfl
  | event :: earlier => by
    have hearlier : (run earlier (start inFile)).store = _ := store_run inFile earlier
    show ((run earlier (start inFile)).step event).store = Sql.Store.after inFile
      (((run earlier (start inFile)).operation? event).toList ++ operations earlier (start inFile))
    rw [store_step, hearlier]
    cases (run earlier (start inFile)).operation? event <;> rfl

theorem run_append (later earlier : List Event) (system : System) :
    run (later ++ earlier) system = run later (run earlier system) := by
  induction later with
  | nil => rfl
  | cons event later ih => exact congrArg (step · event) ih

theorem operations_suffix {earlier events : List Event} (h : earlier <:+ events)
    (system : System) : operations earlier system <:+ operations events system := by
  obtain ⟨later, rfl⟩ := h
  induction later with
  | nil => exact List.suffix_rfl
  | cons event later ih => exact ih.trans (List.suffix_append _ _)

theorem exists_event_of_mem {op : Operation} {system : System} : ∀ {events : List Event},
    op ∈ operations events system → ∃ event earlier, event :: earlier <:+ events ∧
      (run earlier system).operation? event = some op
  | [], h => absurd h List.not_mem_nil
  | event :: earlier, h => by
    rcases List.mem_append.1 h with h | h
    · exact ⟨event, earlier, List.suffix_rfl, Option.mem_toList.1 h⟩
    · obtain ⟨first, before, hsuffix, hop⟩ := exists_event_of_mem h
      exact ⟨first, before, hsuffix.trans (List.suffix_cons event earlier), hop⟩

/-! ### Inserted jobs -/

/-- The other calls of the store. -/
def others (events : List Event) : List Operation :=
  events.filterMap fun event => match event with
    | .act _ _ => none
    | .other op => some op

theorem mem_others {events : List Event} {op : Operation} :
    op ∈ others events ↔ .other op ∈ events := by
  unfold others
  rw [List.mem_filterMap]
  constructor
  · rintro ⟨event, hevent, hop⟩
    cases event with
    | act => cases hop
    | other other => rwa [← Option.some.inj hop]
  · exact fun hevent => ⟨.other op, hevent, rfl⟩

theorem others_suffix {earlier events : List Event} (h : earlier <:+ events) :
    others earlier <:+ others events := by
  obtain ⟨later, rfl⟩ := h
  exact ⟨others later, (List.filterMap_append).symm⟩

theorem worker?_operationOf {worker : Worker} {move : Worker.Move} {attempt : Attempt}
    {op : Operation} (h : operationOf worker move attempt = some op) :
    op.call.worker? = some worker.id := by
  unfold operationOf at h
  split at h
  · rw [← Option.some.inj h]
    rfl
  · rw [← Option.some.inj h]
    exact Report.worker?_call _ _ _
  · cases h

theorem other_of_insert {system : System} {event : Event} {op : Operation} {job : Job}
    (hop : system.operation? event = some op) (hcall : op.call = .insert job) :
    event = .other op := by
  cases event with
  | other other => rw [Option.some.inj hop]
  | act worker move =>
    have hworker := worker?_operationOf hop
    rw [hcall] at hworker
    cases hworker

theorem inserting_operations {P : Job → Prop} {events : List Event}
    (h : Inserting P (others events)) (system : System) :
    Inserting P (operations events system) := by
  intro op hop job hcall
  obtain ⟨event, earlier, hsuffix, hmade⟩ := exists_event_of_mem hop
  rw [other_of_insert hmade hcall] at hsuffix
  exact h op (mem_others.2 (hsuffix.subset List.mem_cons_self)) job hcall

end System

end JobQueue

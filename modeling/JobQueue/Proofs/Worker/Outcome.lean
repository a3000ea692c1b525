import JobQueue.Proofs.Sql.Ledger
import JobQueue.Proofs.Worker.System

/-! # One attempt from end to end

A worker claims, has its handler run, and reports, while others do to the store what they like. As
long as the others do not act for the worker, the row that it holds when it reports is the row that
it claimed, since nobody else makes a row its own (`find?_of_held`). So the report finds either the
claimed row, which becomes what the report says, or a row that is not the worker's any more, and
then nothing changes.

* `Event.IsOthers`: what others do while an attempt is under way; `attempts_run`: it does not touch
  the attempt.
* `Holds.run_report`: what a report does to the rows; `reports_of_claim`: what it does after a
  claim (`Reports`).
* `takesUp_of_claim`: what a worker does with a job that it was given (`TakesUp`).
* `attempt_outcome`: **an attempt from end to end**, with every answer of the claim, every ending
  of the handler, and every interference. -/

namespace JobQueue

open MemoryStore

/-- **The event is not the worker's**, nor made for it; and jobs enter as they are built. -/
def Event.IsOthers (worker : WorkerId) : Event → Prop
  | .act actor _ => actor.id ≠ worker
  | .other op => op.call.worker? ≠ some worker ∧ ∀ job, op.call = .insert job → job.Built

/-- **What the worker reports of its handler.** -/
def Worker.reportOf (worker : Worker) (job : Job) : Option Ending → Report
  | some (.returned result) => .complete result
  | some (.failed message) => .fail message (worker.retry.delayFor (job.attempts + 1))
  | some (.panicked message) =>
    .fail ("handler panicked: " ++ message.getD "Unknown panic")
      (worker.retry.delayFor (job.attempts + 1))
  | none =>
    .fail ("handler timed out after " ++ worker.handlerTimeout.text)
      (worker.retry.delayFor (job.attempts + 1))

theorem Worker.afterHandler_eq (worker : Worker) (job : Job) (ending : Option Ending) :
    worker.afterHandler job ending = .reporting job (worker.reportOf job ending) := by
  cases ending with
  | none => rfl
  | some ending => cases ending <;> rfl

/-- **The row after the report.** -/
def Report.change (now : Int) (row : Sql.Row) : Report → Sql.Row
  | .complete result =>
    { row.settle .completed now with result := some (Json.obj result).text }
  | .fail error delay => row.failAttempt (Timestamp.later now delay) error now
  | .failPermanently error => { row.settle .failed now with lastError := some error }

/-! ### Held jobs -/

namespace Sql.Store

theorem find?_of_isHeldBy {op : Operation} {earlier : List Operation}
    (hbuilt : Inserting Job.Built (op :: earlier)) {id : JobId} {worker : WorkerId}
    (hworker : op.call.worker? ≠ some worker) (h : Held (jobsAfter (op :: earlier)) id worker) :
    find? id (jobsAfter (op :: earlier)) = find? id (jobsAfter earlier) := by
  obtain ⟨job, hfind, hheld⟩ := h
  obtain ⟨-, hrunning, hholder⟩ := Call.isHeldBy_iff.1 hheld
  rcases Call.change_of_effect op.call op.now (distinct_jobsAfter earlier) id with hsame | hchange
  · exact hsame
  exfalso
  have hnext : find? id (op.call.effect op.now (jobsAfter earlier)) = some job := hfind
  rw [hnext] at hchange
  generalize find? id (jobsAfter earlier) = before at hchange
  obtain ⟨call, now⟩ := op
  cases hchange with
  | enter =>
    rw [(hbuilt.latest rfl).status] at hrunning
    cases hrunning
  | move hmove =>
    cases hmove with
    | claim => exact hworker hholder
    | _ => cases hrunning

/-- **What the worker holds is what it held before** the operations of others. -/
theorem find?_of_held {base : List Operation} {id : JobId} {worker : WorkerId} :
    ∀ {later : List Operation}, Inserting Job.Built (later ++ base) →
      (∀ op ∈ later, op.call.worker? ≠ some worker) →
      Held (jobsAfter (later ++ base)) id worker →
      find? id (jobsAfter (later ++ base)) = find? id (jobsAfter base)
  | [], _, _, _ => rfl
  | op :: later, hbuilt, hothers, hheld => by
    have hsame := find?_of_isHeldBy hbuilt (hothers op List.mem_cons_self) hheld
    have hbefore : Held (jobsAfter (later ++ base)) id worker := by
      obtain ⟨job, hfind, hjob⟩ := hheld
      exact ⟨job, hsame.symm.trans hfind, hjob⟩
    exact hsame.trans (find?_of_held hbuilt.earlier
      (fun other hother => hothers other (List.mem_cons_of_mem op hother)) hbefore)

/-! ### Reports -/

variable {store : Store} {jobs : List Job}

theorem ofJob_turn_report (report : Report) {id : JobId} {worker : WorkerId} {job : Job}
    (hattempts : job.attempts ≤ 2147483647) (now : Int) :
    Row.ofJob ((report.call id worker).turn now job) = report.change now (.ofJob job) := by
  cases report with
  | complete result => rfl
  | fail error delay => exact (Row.failAttempt_ofJob hattempts _ error now).symm
  | failPermanently error => rfl

theorem Holds.transition_report (h : store.Holds jobs) (id : JobId) (worker : WorkerId)
    (report : Report) (now : Int) : ∃ answer, Transition store jobs (report.call id worker) now id
      report.action (answer, (store.run (report.call id worker) now).2) := by
  cases report with
  | complete result => exact ⟨_, h.complete id worker result now⟩
  | fail error delay => exact ⟨_, h.fail id worker error delay now⟩
  | failPermanently error => exact ⟨_, h.failPermanently id worker error now⟩

/-- **What a report does to the rows**: the row that the worker holds becomes what the report says,
and the others stay; without such a row nothing changes. -/
theorem Holds.run_report (h : store.Holds jobs) (id : JobId) (worker : WorkerId)
    (report : Report) (now : Int) :
    (∀ job, find? id jobs = some job → job.isHeldBy id worker = true →
      (store.run (report.call id worker) now).2.row? id =
          some (report.change now (.ofJob job)) ∧
        ∀ other, other ≠ id →
          (store.run (report.call id worker) now).2.row? other = store.row? other) ∧
      (¬ Held jobs id worker →
        (store.run (report.call id worker) now).2.connection = store.connection) := by
  obtain ⟨answer, htransition⟩ := h.transition_report id worker report now
  generalize (store.run (report.call id worker) now).2 = after at htransition ⊢
  cases htransition with
  | @taken taken _ hfind htakes hholds =>
    have hheld := (takes_report report now jobs taken).symm.trans htakes
    refine ⟨fun job hjob _ => ?_, fun hfree => absurd ⟨taken, hfind, hheld⟩ hfree⟩
    obtain rfl := Option.some.inj (hfind.symm.trans hjob)
    have hlive : taken.status.isTerminal = false := by
      rw [(Call.isHeldBy_iff.1 hheld).2.1]
      rfl
    have hmem := ((Call.find?_eq_some_iff h.distinct).1 hfind).1
    refine ⟨?_, fun other hother => ?_⟩
    · rw [hholds.row?, find?_report report now hfind htakes, Option.map_some,
        ofJob_turn_report report ((h.room taken hmem).attempts hlive)]
    · have heffect : (report.call id worker).effect now jobs =
          (report.call id worker).turned now jobs := by
        cases report <;> rfl
      rw [hholds.row?, h.row?, heffect, Call.find?_turned]
      cases hfound : find? other jobs with
      | none => rfl
      | some third =>
        have hthird := ((Call.find?_eq_some_iff h.distinct).1 hfound).2
        have hmissed : (report.call id worker).takes now jobs third = false := by
          rw [takes_report]
          unfold Job.isHeldBy
          rw [beq_eq_false_iff_ne.2 (hthird.trans_ne hother), Bool.false_and, Bool.false_and]
        rw [Option.map_some, hmissed]
        rfl
  | refused hnone hholds hconnection =>
    refine ⟨fun job hfind hheld => ?_, fun _ => hconnection⟩
    have hmem := ((Call.find?_eq_some_iff h.distinct).1 hfind).1
    rw [← takes_report report now jobs job, hnone job hmem] at hheld
    cases hheld

end Sql.Store

namespace System

variable {inFile : Bool}

/-! ### Interference -/

theorem attempts_step {worker : WorkerId} {event : Event} (h : event.IsOthers worker)
    (system : System) : (system.step event).attempts worker = system.attempts worker := by
  cases event with
  | other op => rfl
  | act actor move =>
    have hne : worker ≠ actor.id := fun heq => h heq.symm
    show (system.act actor move (system.attempts actor.id)).attempts worker = _
    cases move <;> cases system.attempts actor.id <;> first
      | rfl
      | exact attempts_advance_of_ne _ _ hne

theorem attempts_run {worker : WorkerId} {system : System} : ∀ {later : List Event},
    (∀ event ∈ later, event.IsOthers worker) →
      (run later system).attempts worker = system.attempts worker
  | [], _ => rfl
  | event :: later, h =>
    (attempts_step (h event List.mem_cons_self) (run later system)).trans
      (attempts_run fun other hother => h other (List.mem_cons_of_mem event hother))

theorem operations_append (later earlier : List Event) (system : System) :
    operations (later ++ earlier) system =
      operations later (run earlier system) ++ operations earlier system := by
  induction later with
  | nil => rfl
  | cons event later ih =>
    show ((run (later ++ earlier) system).operation? event).toList ++
      operations (later ++ earlier) system = _
    rw [ih, run_append, ← List.append_assoc]
    rfl

/-- The event is one of others, or the end of the worker's handler. -/
def WhileHandling (worker : Worker) (event : Event) : Prop :=
  event.IsOthers worker.id ∨ ∃ ending, event = .act worker (.handle ending)

theorem worker?_of_whileHandling {worker : Worker} {during : List Event}
    (h : ∀ event ∈ during, WhileHandling worker event) {system : System} {op : Operation}
    (hop : op ∈ operations during system) : op.call.worker? ≠ some worker.id := by
  obtain ⟨event, earlier, hsuffix, hmade⟩ := exists_event_of_mem hop
  rcases h event (hsuffix.subset List.mem_cons_self) with hothers | ⟨ending, rfl⟩
  · cases event with
    | other other =>
      rw [← Option.some.inj hmade]
      exact hothers.1
    | act actor move =>
      rw [worker?_operationOf hmade]
      exact fun heq => hothers (Option.some.inj heq)
  · rw [operation?_handle] at hmade
    cases hmade

theorem built_of_whileHandling {worker : Worker} {during : List Event}
    (h : ∀ event ∈ during, WhileHandling worker event) :
    Inserting Job.Built (others during) := by
  intro op hop
  rcases h (.other op) (mem_others.1 hop) with hothers | ⟨ending, hending⟩
  · exact hothers.2
  · cases hending

/-! ### The report -/

theorem holds_after_events (inFile : Bool) {events : List Event}
    (hbuilt : Inserting Job.Built (others events)) :
    (after inFile events).store.Holds (jobsAfter (operations events (start inFile))) := by
  rw [store_run]
  exact Sql.Store.holds_after inFile _
    ((inserting_operations hbuilt (start inFile)).mono fun _ hjob => hjob.hasRoom)

/-- **What the report of the worker comes to**, when the worker claimed the row: if a row of the id
is still the worker's it is the claimed one, which becomes what the report says, and the other rows
stay; else nothing changes. A lost report changes nothing. The attempt is over in any case, and it
had a job. -/
structure Reports (worker : Worker) (id : JobId) (report : Report) (row : Sql.Row)
    (system : System) : Prop where
  reporting : ∃ job, system.attempts worker.id = .reporting job report ∧ job.id = id
  held : ∀ current now, system.store.row? id = some current →
    current.isHeldBy id worker.id = true → current = row ∧
      (system.step (.act worker (.report now))).store.row? id = some (report.change now row) ∧
      ∀ other, other ≠ id → (system.step (.act worker (.report now))).store.row? other =
        system.store.row? other
  free : ∀ now, (∀ current, system.store.row? id = some current →
      current.isHeldBy id worker.id = false) →
    (system.step (.act worker (.report now))).store.connection = system.store.connection
  finished : ∀ now,
    (system.step (.act worker (.report now))).attempts worker.id = .finished (.ok true)
  lost : system.step (.act worker .loseReport) = system.advance worker.id (.finished (.ok true))

theorem reports_of_reporting {events : List Event} (hbuilt : Inserting Job.Built (others events))
    {worker : Worker} {job : Job} {report : Report}
    (hreporting : (after inFile events).attempts worker.id = .reporting job report)
    {claimed : Job} (hclaimed : Sql.Store.Held (jobsAfter (operations events (start inFile)))
        job.id worker.id →
      find? job.id (jobsAfter (operations events (start inFile))) = some claimed) :
    Reports worker job.id report (.ofJob claimed) (after inFile events) := by
  have hholds := holds_after_events inFile hbuilt
  have hrun := fun now => hholds.run_report job.id worker.id report now
  refine ⟨⟨job, hreporting, rfl⟩, fun current now hcurrent hheld => ?_, fun now hfree => ?_,
    fun now => ?_, step_loseReport hreporting⟩
  · rw [hholds.row?] at hcurrent
    obtain ⟨found, hfind, rfl⟩ := Option.map_eq_some_iff.1 hcurrent
    rw [Sql.Row.isHeldBy_ofJob] at hheld
    have hsame := hclaimed ⟨found, hfind, hheld⟩
    obtain rfl := Option.some.inj (hfind.symm.trans hsame)
    rw [step_report hreporting]
    exact ⟨rfl, (hrun now).1 found hfind hheld⟩
  · rw [step_report hreporting]
    refine (hrun now).2 ?_
    rintro ⟨found, hfind, hheld⟩
    have hnot := hfree (.ofJob found) (by rw [hholds.row?, hfind]; rfl)
    rw [Sql.Row.isHeldBy_ofJob, hheld] at hnot
    cases hnot
  · rw [step_report hreporting, attempts_advance_self]
    rfl

/-- **What the report comes to after a claim**, when others acted in between. -/
theorem reports_of_claim (events : List Event) {during : List Event}
    (hbuilt : Inserting Job.Built (others events)) {worker : Worker}
    (hduring : ∀ event ∈ during, WhileHandling worker event) {job claimed : Job} {report : Report}
    (hclaimed : find? job.id (jobsAfter (operations events (start inFile))) = some claimed)
    (hreporting : (run during (after inFile events)).attempts worker.id = .reporting job report) :
    Reports worker job.id report (.ofJob claimed) (run during (after inFile events)) := by
  have hrun : run during (after inFile events) = after inFile (during ++ events) :=
    (run_append during events (start inFile)).symm
  have hall : Inserting Job.Built (others (during ++ events)) := by
    intro op hop
    rw [show others (during ++ events) = others during ++ others events from
      List.filterMap_append] at hop
    rcases List.mem_append.1 hop with hop | hop
    · exact built_of_whileHandling hduring op hop
    · exact hbuilt op hop
  rw [hrun] at hreporting ⊢
  refine reports_of_reporting hall hreporting fun hheld => ?_
  have hhistory := inserting_operations hall (start inFile)
  rw [operations_append] at hheld hhistory ⊢
  rw [Sql.Store.find?_of_held hhistory (fun _ hop => worker?_of_whileHandling hduring hop) hheld]
  exact hclaimed

/-! ### The claim -/

/-- **The next row of the queue**: it is due, and no due row comes before it. -/
structure IsNextRow (rows : List Sql.Row) (queue : QueueName) (now : Int) (row : Sql.Row) :
    Prop where
  mem : row ∈ rows
  due : row.isDue queue now = true
  least : ∀ other ∈ rows, other.isDue queue now = true → other.orderLt row = false

theorem isDue_iff_mem_claimable {jobs : List Job} {queue : QueueName} {now : Int} {job : Job}
    (hjob : job ∈ jobs) :
    (Sql.Row.ofJob job).isDue queue now = true ↔ job ∈ claimable queue now jobs := by
  rw [Sql.Row.isDue_ofJob]
  unfold claimable
  rw [List.mem_filter]
  exact (and_iff_right hjob).symm

theorem isNextRow_of_isFirst {jobs : List Job} {queue : QueueName} {now : Int} {job : Job}
    (h : IsFirst (claimable queue now jobs) job) :
    IsNextRow (jobs.map Sql.Row.ofJob) queue now (.ofJob job) := by
  have hmem : job ∈ jobs := (mem_claimable.1 h.mem).1
  refine ⟨List.mem_map_of_mem hmem, (isDue_iff_mem_claimable hmem).2 h.mem,
    fun row hrow hdue => ?_⟩
  obtain ⟨other, hother, rfl⟩ := List.mem_map.1 hrow
  have hleast := h.least other ((isDue_iff_mem_claimable hother).1 hdue)
  rw [Sql.Row.orderLt_ofJob, ← Bool.not_eq_true, precedes_iff, not_lt]
  exact hleast

theorem reading_completed {job : Job} (hjob : job.Consistent) (hpayload : job.payload.Legible)
    {result : Fields} (hresult : result.ReadsBack) (now : Int) :
    ∃ done, ((Report.complete result).change now (.ofJob job)).reading = .ok done ∧
      done.status = .completed ∧ done.result = some result := by
  obtain ⟨payload, hread⟩ := Option.isSome_iff_exists.1 hpayload
  have hsome : Sql.Row.fieldsOf? (some (Json.obj result).text) = .ok (some result) := by
    show (Sql.Row.fieldsOf (Json.obj result).text).map some = .ok (some result)
    rw [Sql.Row.fieldsOf_eq_ok_iff.2 hresult]
    rfl
  have hattempts : FitsInt32 (job.completed result now).attempts := hjob.fitsInt32_attempts
  have hmax : FitsInt32 (job.completed result now).maxAttempts := hjob.fitsInt32_maxAttempts
  have hcompleted : (Sql.Row.ofJob (job.completed result now)).reading = .ok
      { job.completed result now with payload := payload, result := some result } :=
    (Sql.Row.reading_eq_ok_iff hattempts hmax).2
      ⟨payload, some result, Sql.Row.fieldsOf_eq_ok_iff.2 hread, hsome, rfl⟩
  exact ⟨_, hcompleted, rfl, rfl⟩

/-- **What is read of a claimed job**, if its payload is read: the same job, with a number for its
attempt. -/
theorem exists_reading {job : Job} (hjob : job.Consistent)
    (hlive : job.status.isTerminal = false) (hpayload : job.payload.Legible) :
    ∃ read, (Sql.Row.ofJob job).reading = .ok read ∧ read.id = job.id ∧
      read.attempts = job.attempts ∧
      ∀ timeout, ∃ context, JobContext.ofJob read timeout = .ok context := by
  have hlegible : job.Legible := (hjob.legible_iff fun hstatus => by
    rw [hstatus] at hlive
    cases hlive).2 hpayload
  cases hread : (Sql.Row.ofJob job).reading with
  | error e =>
    have hok := hjob.isOk_reading.2 hlegible
    rw [hread] at hok
    cases hok
  | ok read =>
    obtain ⟨payload, result, -, -, rfl⟩ := (Sql.Row.reading_eq_ok_iff hjob.fitsInt32_attempts
      hjob.fitsInt32_maxAttempts).1 hread
    refine ⟨_, rfl, rfl, rfl, fun timeout => ?_⟩
    have hattempt : Job.attempt { job with payload := payload, result := result } =
        .ok (job.attempts + 1) := hjob.attempt_eq hlive
    unfold JobContext.ofJob
    rw [hattempt]
    exact ⟨_, rfl⟩

/-! ### From end to end -/

/-- The attempt takes up the job that is read of the row that it claimed: the report on it comes to
what `Reports` says, whatever others do before.

* For work without a handler the job is given up at once; no handler runs.
* Else the handler runs, for an attempt that has a number, and how it ends is what is reported.
* A result that is read back from its text is the result of the job when it is completed. -/
structure TakesUp (worker : Worker) (registered : JobType → Bool) (job : Job) (row : Sql.Row)
    (claimed : System) : Prop where
  reading : row.reading = .ok job
  id : job.id = row.id
  attempts : row.attempts = .int job.attempts
  givenUp : registered job.jobType = false → ∀ during,
    (∀ event ∈ during, event.IsOthers worker.id) →
    Reports worker row.id (.failPermanently (Worker.noHandler job.jobType)) row (run during claimed)
  handling : registered job.jobType = true → claimed.attempts worker.id = .handling job
  context : ∃ context, JobContext.ofJob job worker.handlerTimeout = .ok context
  handled : registered job.jobType = true → ∀ later ending middle,
    (∀ event ∈ later, event.IsOthers worker.id) → (∀ event ∈ middle, event.IsOthers worker.id) →
    Reports worker row.id (worker.reportOf job ending) row
      (run (later ++ .act worker (.handle ending) :: middle) claimed)
  completed : ∀ result now, result.ReadsBack →
    ∃ done, ((Report.complete result).change now row).reading = .ok done ∧
      done.status = .completed ∧ done.result = some result

section Attempts

variable {events : List Event} (hbuilt : Inserting Job.Built (others events)) {worker : Worker}
  (hclaiming : (after inFile events).attempts worker.id = .claiming)
  (registered : JobType → Bool) (now : Int)
include hclaiming

theorem find?_of_claim {stored : Job} (hfirst : IsFirst (claimable worker.queue now
      (jobsAfter (operations events (start inFile)))) stored) :
    find? stored.id (jobsAfter (operations (.act worker (.claim registered now) :: events)
      (start inFile))) = some (claimed stored worker.id now) := by
  have hoperations : operations (.act worker (.claim registered now) :: events) (start inFile) =
      ⟨worker.claim, now⟩ :: operations events (start inFile) := by
    show (operationOf worker _ ((after inFile events).attempts worker.id)).toList ++ _ = _
    rw [hclaiming]
    rfl
  rw [hoperations]
  exact (Call.find?_claimNext (distinct_jobsAfter _) hfirst worker.id stored.id).trans (if_pos rfl)

include hbuilt in
/-- **A job that is read when it is claimed is taken up.** -/
theorem takesUp_of_claim {stored read : Job} (hfirst : IsFirst (claimable worker.queue now
      (jobsAfter (operations events (start inFile)))) stored)
    (hread : (Sql.Row.ofJob (claimed stored worker.id now)).reading = .ok read)
    (hanswer : ((after inFile events).step (.act worker (.claim registered now))).attempts
      worker.id = Worker.afterClaim registered (.ok (some read))) :
    TakesUp worker registered read (.ofJob (claimed stored worker.id now))
      ((after inFile events).step (.act worker (.claim registered now))) := by
  generalize hnext : (after inFile events).step (.act worker (.claim registered now)) = next
    at hanswer ⊢
  have hmem : stored ∈ jobsAfter (operations events (start inFile)) := (mem_claimable.1 hfirst.mem).1
  have hjob := (Call.move_of_isFirst hfirst worker.id).consistent (consistent_of_mem_jobsAfter
    (inserting_operations hbuilt (start inFile)) stored hmem)
  have hpayload := (hjob.isOk_reading.1 (by rw [hread]; rfl)).payload
  obtain ⟨read', hread', hid, hcount, hcontext⟩ := exists_reading hjob rfl hpayload
  obtain rfl := Except.ok.inj (hread.symm.trans hread')
  have hattempt : next.attempts worker.id = if registered read.jobType then .handling read
      else .reporting read (.failPermanently (Worker.noHandler read.jobType)) := hanswer
  -- Every report of the attempt is on the row as it was claimed.
  have hreports : ∀ during report, (∀ event ∈ during, WhileHandling worker event) →
      (run during next).attempts worker.id = .reporting read report →
      Reports worker stored.id report (.ofJob (claimed stored worker.id now)) (run during next) := by
    intro during report hduring hreporting
    have hfound := find?_of_claim hclaiming registered now hfirst
    rw [← hnext] at hreporting ⊢
    rw [show stored.id = read.id from hid.symm] at hfound ⊢
    exact reports_of_claim (.act worker (.claim registered now) :: events) hbuilt hduring hfound
      hreporting
  refine ⟨hread, hid, congrArg Sql.Value.int hcount.symm, fun hnone during hduring => ?_,
    fun hsome => ?_, hcontext worker.handlerTimeout, fun hsome later ending middle hlater hmiddle => ?_,
    fun result time hresult => reading_completed hjob hpayload hresult time⟩
  · refine hreports during _ (fun event hevent => .inl (hduring event hevent)) ?_
    rw [attempts_run hduring, hattempt, if_neg (by rw [hnone]; exact Bool.false_ne_true)]
  · rw [hattempt, if_pos hsome]
  · have hhandling : (run middle next).attempts worker.id = .handling read := by
      rw [attempts_run hmiddle, hattempt, if_pos hsome]
    refine hreports _ _ (fun event hevent => ?_) ?_
    · rcases List.mem_append.1 hevent with hevent | hevent
      · exact .inl (hlater event hevent)
      rcases List.mem_cons.1 hevent with rfl | hevent
      · exact .inr ⟨ending, rfl⟩
      · exact .inl (hmiddle event hevent)
    · rw [run_append, attempts_run hlater]
      show ((run middle next).step (.act worker (.handle ending))).attempts worker.id = _
      rw [step_handle hhandling, attempts_advance_self]
      exact worker.afterHandler_eq read ending

end Attempts

/-- **An attempt of a worker from end to end**, after any events.

* A lost claim is the answer, and nothing else changes.
* When no row is due the answer is that there is no job, and nothing changes.
* Else the next row is claimed, and no other changes. If its payload is not read as an object the
  answer is an error, and the row stays claimed. If it is, the worker takes up the job of the row
  (`TakesUp`), reports on it whatever others do, and the answer is that there was a job.
* When the reader does its part for the objects that came with the calls of others, and payloads are
  not too deep for it, the worker always takes up the job; and a result without floating-point
  numbers that is not too deep becomes the result of the job, when the reader does its part for it. -/
theorem attempt_outcome (inFile : Bool) (events : List Event)
    (hbuilt : Inserting Job.Built (others events)) (worker : Worker)
    (hclaiming : (after inFile events).attempts worker.id = .claiming)
    (registered : JobType → Bool) (now : Int) :
    let system := after inFile events
    let claimed := system.step (.act worker (.claim registered now))
    (∀ e, system.step (.act worker (.loseClaim e)) =
      system.advance worker.id (.finished (.error e))) ∧
    ((∀ row ∈ system.store.rows, row.isDue worker.queue now = false) ∧
        claimed.attempts worker.id = .finished (.ok false) ∧
        claimed.store.connection = system.store.connection ∨
      ∃ row, IsNextRow system.store.rows worker.queue now row ∧
        claimed.store.row? row.id = some (row.claim worker.id now) ∧
        (∀ other, other ≠ row.id → claimed.store.row? other = system.store.row? other) ∧
        (Json.parseFields? row.payload = none →
          ∃ e, claimed.attempts worker.id = .finished (.error e)) ∧
        ((Json.parseFields? row.payload).isSome = true →
          ∃ job, TakesUp worker registered job (row.claim worker.id now) claimed) ∧
        ((∀ op ∈ others events, op.call.Trusted) →
          Inserting (fun job => job.payload.Shallow) (others events) →
          ∃ job, TakesUp worker registered job (row.claim worker.id now) claimed ∧
            ∀ result : Fields, result.Moderate → result.Trusted → ∀ reportedAt, ∃ done,
              ((Report.complete result).change reportedAt (row.claim worker.id now)).reading =
                .ok done ∧ done.status = .completed ∧ done.result = some result)) := by
  intro system claimed
  have hholds : system.store.Holds (jobsAfter (operations events (start inFile))) :=
    holds_after_events inFile hbuilt
  have hstep : claimed = (system.perform worker.claim now).2.advance worker.id
      (Worker.afterClaim registered (system.store.claimNext worker.queue worker.id now).1) :=
    step_claim hclaiming registered now
  have hattempts : claimed.attempts worker.id =
      Worker.afterClaim registered (system.store.claimNext worker.queue worker.id now).1 := by
    rw [hstep, attempts_advance_self]
  have hstore : claimed.store = (system.store.claimNext worker.queue worker.id now).2 := by
    rw [hstep]
    rfl
  refine ⟨step_loseClaim hclaiming, ?_⟩
  have hclaim := hholds.claimNext worker.queue worker.id now
  generalize system.store.claimNext worker.queue worker.id now = answer at hclaim hattempts hstore
  cases hclaim with
  | @nothing unchanged hnone _ hconnection =>
    refine .inl ⟨fun row hrow => ?_, hattempts, by rw [hstore]; exact hconnection⟩
    rw [hholds.rows] at hrow
    obtain ⟨job, hjob, rfl⟩ := List.mem_map.1 hrow
    rw [← Bool.not_eq_true, isDue_iff_mem_claimable hjob, hnone]
    exact List.not_mem_nil
  | @taken stored next hfirst hnext =>
    have hmem : stored ∈ jobsAfter (operations events (start inFile)) :=
      (mem_claimable.1 hfirst.mem).1
    have hjob := (Call.move_of_isFirst hfirst worker.id).consistent (consistent_of_mem_jobsAfter
      (inserting_operations hbuilt (start inFile)) stored hmem)
    have hfound := fun id => Call.find?_claimNext hholds.distinct hfirst worker.id id
    have htakesUp : (Json.parseFields? (Json.obj stored.payload).text).isSome = true → ∃ job,
        TakesUp worker registered job ((Sql.Row.ofJob stored).claim worker.id now) claimed := by
      intro hpayload
      obtain ⟨read, hread, -⟩ := exists_reading hjob rfl hpayload
      rw [hread] at hattempts
      exact ⟨read, takesUp_of_claim hbuilt hclaiming registered now hfirst hread hattempts⟩
    refine .inr ⟨.ofJob stored, ?_, ?_, fun other hother => ?_, fun hunread => ?_, htakesUp,
      fun htrusted hshallow => ?_⟩
    · rw [hholds.rows]
      exact isNextRow_of_isFirst hfirst
    · rw [hstore]
      refine (hnext.row? stored.id).trans ?_
      rw [hfound, if_pos rfl]
      rfl
    · rw [hstore, hholds.row?]
      refine (hnext.row? other).trans ?_
      rw [hfound, if_neg fun heq => hother heq.symm]
    · cases hread : (Sql.Row.ofJob (MemoryStore.claimed stored worker.id now)).reading with
      | error e =>
        rw [hread] at hattempts
        exact ⟨e, hattempts⟩
      | ok read =>
        have hlegible : (Json.parseFields? (Json.obj stored.payload).text).isSome = true :=
          (hjob.isOk_reading.1 (by rw [hread]; rfl)).payload
        rw [show Json.parseFields? (Json.obj stored.payload).text = none from hunread] at hlegible
        cases hlegible
    · have hpayloads := inserting_legible htrusted hshallow
      have hlegible : stored.payload.Legible := Sql.Store.payload_of_mem_jobsAfter
        (inserting_operations hpayloads (start inFile)) stored hmem
      obtain ⟨job, htaken⟩ := htakesUp hlegible
      exact ⟨job, htaken, fun result hmoderate htrusted reportedAt =>
        htaken.completed result reportedAt (htrusted.readsBack hmoderate)⟩

/-- A job is enqueued. -/
def oneArrival (payload : Fields) : List Event :=
  [.other ⟨.insert (Request.toJob (.create "q" "t" payload) "a" 0 3), 0⟩]

theorem built_oneArrival (payload : Fields) : Inserting Job.Built (others (oneArrival payload)) :=
  built_oneJob payload

/-- A job of which the handler returns is completed with the result. -/
theorem attempt_outcome_of_success :
    let worker : Worker := ⟨"q", "w", ⟨⟨0, by decide⟩⟩, ⟨1000000, by decide⟩, ⟨1000000, by decide⟩⟩
    let payload : Fields := [("n", .int 1)]
    let result : Fields := [("done", .bool true)]
    let events : List Event := [.act worker (.handle (some (.returned result))),
      .act worker (.claim (fun _ => true) 5)]
    let handled := run events (after true (oneArrival payload))
    let reported := handled.step (.act worker (.report 9))
    Inserting Job.Built (others (oneArrival payload)) ∧
      (∀ op ∈ others (oneArrival payload), op.call.Trusted) ∧
      Inserting (fun job => job.payload.Shallow) (others (oneArrival payload)) ∧
      result.Moderate ∧ result.Trusted ∧
      (after true (oneArrival payload)).attempts worker.id = .claiming ∧
      reported.attempts worker.id = .finished (.ok true) ∧
      ∃ row done, reported.store.row? "a" = some row ∧ row.reading = .ok done ∧
        done.status = .completed ∧ done.result = some result := by
  intro worker payload result events handled reported
  have hbuilt := built_oneArrival payload
  have hpayload : payload.Plain := ⟨by decide, by decide, by decide, by decide⟩
  have hresult : result.Plain := ⟨by decide, by decide, by decide, by decide⟩
  have htrusted : ∀ op ∈ others (oneArrival payload), op.call.Trusted :=
    brings_oneJob hpayload.trusted
  have hshallow : Inserting (fun job => job.payload.Shallow) (others (oneArrival payload)) :=
    inserting_oneJob hpayload.shallow
  obtain ⟨-, ⟨hnone, -⟩ | ⟨row, hnext, hclaimed, -, -, -, htrust⟩⟩ :=
    attempt_outcome true (oneArrival payload) hbuilt worker rfl (fun _ => true) 5
  · have hdue : ((after true (oneArrival payload)).store.rows.any (Sql.Row.isDue "q" 5)) = true := by
      decide +kernel
    obtain ⟨row, hrow, hdue⟩ := List.any_eq_true.1 hdue
    cases (hnone row hrow).symm.trans hdue
  -- The row is that of the job.
  have hall : ((after true (oneArrival payload)).store.rows.all fun row => row.id == "a") = true := by
    decide +kernel
  have hid := beq_iff_eq.1 (List.all_eq_true.1 hall row hnext.mem)
  obtain ⟨job, htaken, hcompleted⟩ := htrust htrusted hshallow
  have hreport := htaken.handled rfl [] (some (.returned result)) []
    (fun _ h => absurd h List.not_mem_nil) fun _ h => absurd h List.not_mem_nil
  have hstore : handled.store.row? row.id = some (row.claim worker.id 5) := by
    rw [← hclaimed]
    exact congrArg (Sql.Store.row? · row.id) (store_handle _ worker _)
  have hheld : (row.claim worker.id 5).isHeldBy row.id worker.id = true := by
    unfold Sql.Row.isHeldBy Sql.Row.claim
    rw [beq_self_eq_true, beq_self_eq_true, beq_self_eq_true]
    rfl
  obtain ⟨-, hafter, -⟩ := hreport.held _ 9 hstore hheld
  obtain ⟨done, hdone⟩ := hcompleted result hresult.moderate hresult.trusted 9
  exact ⟨hbuilt, htrusted, hshallow, hresult.moderate, hresult.trusted, rfl, hreport.finished 9, _,
    done, hid ▸ hafter, hdone⟩

end System

end JobQueue

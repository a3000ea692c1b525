import JobQueue.Proofs.Sql.Ledger
import JobQueue.Proofs.Worker.System

/-! # Attempts are accounted for

A worker reports only on jobs that it was given, which have a payload that is read, so what it
reports on can be read (`answerable_operations`), and the ledgers of the store are those of the
workers' reports. This takes an invariant of the attempts (`Attempt.Sound`): the job of an attempt
was inserted with a payload that is read, and so is the result that is reported.

* `sound_run`: the invariant holds of all workers after all events.
* `context_of_claim`: what the handler is told of its attempt. `ledger_of_events`: the ledgers.
* `attempts_accounted`: **the accounts of all jobs after all events.** -/

namespace JobQueue

open MemoryStore

/-- The job of the id was inserted, and its payload is read as an object. -/
def Presentable (history : List Operation) (id : JobId) : Prop :=
  ∃ origin ∈ insertedJobs history, origin.id = id ∧ origin.payload.Legible

theorem Presentable.later {earlier history : List Operation} {id : JobId}
    (h : Presentable earlier id) (hsuffix : earlier <:+ history) : Presentable history id := by
  obtain ⟨origin, horigin, hid, hpayload⟩ := h
  exact ⟨origin, insertedJobs_suffix hsuffix horigin, hid, hpayload⟩

/-- **What a worker has in hand can be reported on.** -/
def Attempt.Sound (history : List Operation) : Attempt → Prop
  | .handling job => Presentable history job.id
  | .reporting job report => Presentable history job.id ∧ report.Legible
  | _ => True

theorem Attempt.Sound.later {earlier history : List Operation} {attempt : Attempt}
    (h : attempt.Sound earlier) (hsuffix : earlier <:+ history) : attempt.Sound history := by
  cases attempt with
  | handling job => exact Presentable.later h hsuffix
  | reporting job report => exact ⟨h.1.later hsuffix, h.2⟩
  | _ => trivial

namespace System

/-- The other calls are not made for workers. -/
def Quiet (events : List Event) : Prop := ∀ op ∈ others events, op.call.worker? = none

/-- The results of the handlers are read as objects. -/
def Returning (P : Fields → Prop) (events : List Event) : Prop :=
  ∀ worker result, Event.act worker (.handle (some (.returned result))) ∈ events → P result

theorem insertedIds_operations (system : System) : ∀ events : List Event,
    Sql.Store.insertedIds (operations events system) = Sql.Store.insertedIds (others events)
  | [] => rfl
  | event :: earlier => by
    have hearlier := insertedIds_operations system earlier
    cases event with
    | other op =>
      show Sql.Store.insertedIds ([op] ++ operations earlier system) =
        Sql.Store.insertedIds ([op] ++ others earlier)
      rw [insertedIds_append, insertedIds_append, hearlier]
    | act worker move =>
      have hnone : Sql.Store.insertedIds
          ((run earlier system).operation? (.act worker move)).toList = [] := by
        refine List.filterMap_eq_nil_iff.2 fun op hop => ?_
        have hmade := Option.mem_toList.1 hop
        cases hcall : op.call with
        | insert job => cases other_of_insert hmade hcall
        | _ => rfl
      show Sql.Store.insertedIds (_ ++ operations earlier system) =
        Sql.Store.insertedIds (others earlier)
      rw [insertedIds_append, hnone, hearlier]
      rfl

/-! ### What workers have in hand -/

section Sound

variable (inFile : Bool)

/-- **A job that a claim gives was inserted and is read.** -/
theorem sound_of_claim {history : List Operation} (hbuilt : Inserting Job.Built history)
    (queue : QueueName) (worker : WorkerId) (now : Int) (registered : JobType → Bool) :
    (Worker.afterClaim registered
      ((Sql.Store.after inFile history).claimNext queue worker now).1).Sound history := by
  have hholds := Sql.Store.holds_after inFile history (hbuilt.mono fun _ hjob => hjob.hasRoom)
  have hclaim := hholds.claimNext queue worker now
  generalize (Sql.Store.after inFile history).claimNext queue worker now = answer at hclaim ⊢
  cases hclaim with
  | nothing => trivial
  | @taken job after hfirst hholds' =>
    have hmem : job ∈ jobsAfter history := (mem_claimable.1 hfirst.mem).1
    have hclaimed := (Call.move_of_isFirst hfirst worker).consistent
      (consistent_of_mem_jobsAfter hbuilt job hmem)
    cases hread : (Sql.Row.ofJob (claimed job worker now)).reading with
    | error e => trivial
    | ok read =>
      have hlegible : (claimed job worker now).Legible := hclaimed.isOk_reading.1 (by
        rw [hread]
        rfl)
      obtain ⟨origin, horigin, hsame⟩ := exists_origin hmem
      have hpayload : origin.payload.Legible := by
        rw [← hsame.payload]
        exact hlegible.payload
      have hid : origin.id = read.id := by
        rw [hclaimed.id_of_reading hread]
        exact hsame.id.symm
      have hpresentable : Presentable history read.id := ⟨origin, horigin, hid, hpayload⟩
      show (if registered read.jobType then Attempt.handling read
        else .reporting read _).Sound history
      split
      · exact hpresentable
      · exact ⟨hpresentable, trivial⟩

theorem sound_afterHandler {history : List Operation} {worker : Worker} {job : Job}
    {ending : Option Ending} (hjob : Presentable history job.id)
    (hresult : ∀ result, ending = some (.returned result) → result.Legible) :
    (worker.afterHandler job ending).Sound history := by
  unfold Worker.afterHandler
  cases ending with
  | none => exact ⟨hjob, trivial⟩
  | some ending =>
    cases ending with
    | returned result => exact ⟨hjob, hresult result rfl⟩
    | failed => exact ⟨hjob, trivial⟩
    | panicked => exact ⟨hjob, trivial⟩

theorem sound_advance {history : List Operation} {system : System} {worker : WorkerId}
    {attempt : Attempt} (h : ∀ id, (system.attempts id).Sound history)
    (hattempt : attempt.Sound history) (id : WorkerId) :
    ((system.advance worker attempt).attempts id).Sound history := by
  by_cases hid : id = worker
  · rw [hid, attempts_advance_self]
    exact hattempt
  · rw [attempts_advance_of_ne system attempt hid]
    exact h id

/-- **The jobs in hand can be reported on**, at any time. -/
theorem sound_run : ∀ {events : List Event}, Inserting Job.Built (others events) →
    Returning Fields.Legible events → ∀ id,
      ((after inFile events).attempts id).Sound (operations events (start inFile))
  | [], _, _ => fun _ => trivial
  | event :: earlier, hbuilt, hreturning => by
    have hsuffix : operations earlier (start inFile) <:+ operations (event :: earlier)
        (start inFile) := operations_suffix (List.suffix_cons event earlier) _
    have hbuiltEarlier := hbuilt.suffix (others_suffix (List.suffix_cons event earlier))
    have hearlier : ∀ id, ((after inFile earlier).attempts id).Sound
        (operations (event :: earlier) (start inFile)) := fun id =>
      (sound_run hbuiltEarlier (fun worker result hmem =>
        hreturning worker result (List.mem_cons_of_mem event hmem)) id).later hsuffix
    cases event with
    | other op => exact hearlier
    | act worker move =>
      show ∀ id, (((after inFile earlier).act worker move
        ((after inFile earlier).attempts worker.id)).attempts id).Sound _
      have hworker := hearlier worker.id
      cases move <;> cases hattempt : (after inFile earlier).attempts worker.id <;>
        rw [hattempt] at hworker
      case claim.claiming registered now =>
        refine sound_advance hearlier (Attempt.Sound.later ?_ hsuffix)
        show (Worker.afterClaim registered
          ((after inFile earlier).store.claimNext worker.queue worker.id now).1).Sound _
        rw [store_run]
        exact sound_of_claim inFile (inserting_operations hbuiltEarlier _) _ _ _ registered
      case loseClaim.claiming => exact sound_advance hearlier trivial
      case handle.handling ending job =>
        refine sound_advance hearlier (sound_afterHandler hworker fun result hending => ?_)
        rw [hending] at hreturning
        exact hreturning worker result List.mem_cons_self
      case report.reporting => exact sound_advance hearlier trivial
      case loseReport.reporting => exact sound_advance hearlier trivial
      case begin.finished => exact sound_advance hearlier trivial
      all_goals exact hearlier

/-- **Workers report on what can be read.** -/
theorem answerable_operations {events : List Event}
    (hbuilt : Inserting Job.Built (others events)) (hquiet : Quiet events)
    (hids : (Sql.Store.insertedIds (others events)).Nodup)
    (hreturning : Returning Fields.Legible events) :
    Sql.Store.Answerable (operations events (start inFile)) := by
  intro op hop id worker report hmade
  obtain ⟨event, earlier, hsuffix, hevent⟩ := exists_event_of_mem hop
  have hcall := Call.eq_of_report? hmade
  have hearlier : earlier <:+ events := (List.suffix_cons event earlier).trans hsuffix
  cases event with
  | other other =>
    obtain rfl := Option.some.inj hevent
    have hworker := hquiet other (mem_others.2 (hsuffix.subset List.mem_cons_self))
    rw [hcall, report.worker?_call] at hworker
    cases hworker
  | act actor move =>
    have hsound := sound_run inFile (hbuilt.suffix (others_suffix hearlier))
      (fun worker' result hmem => hreturning worker' result (hearlier.subset hmem)) actor.id
    have hoperation : operationOf actor move ((after inFile earlier).attempts actor.id) = some op :=
      hevent
    generalize (after inFile earlier).attempts actor.id = attempt at hsound hoperation
    unfold operationOf at hoperation
    split at hoperation
    · rw [← Option.some.inj hoperation] at hmade
      cases hmade
    · next job made =>
      rw [← Option.some.inj hoperation, made.report?_call] at hmade
      obtain ⟨rfl, hrest⟩ := Prod.mk.inj (Option.some.inj hmade)
      obtain ⟨-, rfl⟩ := Prod.mk.inj hrest
      obtain ⟨hpresentable, hlegible⟩ := hsound
      refine ⟨hlegible, fun origin horigin hid => ?_⟩
      obtain ⟨origin', horigin', hid', hpayload⟩ :=
        hpresentable.later (operations_suffix hearlier (start inFile))
      rw [← insertedIds_operations (start inFile)] at hids
      rw [origin_unique hids horigin horigin' (hid.trans hid'.symm)]
      exact hpayload
    · cases hoperation

end Sound

/-! ### The accounts -/

section Accounts

variable (inFile : Bool)

/-- **What the handler is told of its attempt**: it is the one after the attempts that are counted,
and one of those allowed. -/
theorem context_of_claim {history : List Operation} (hbuilt : Inserting Job.Built history)
    {queue : QueueName} {worker : WorkerId} {now : Int} {registered : JobType → Bool} {job : Job}
    (h : Worker.afterClaim registered
      ((Sql.Store.after inFile history).claimNext queue worker now).1 = .handling job) :
    ∃ stored, find? job.id (jobsAfter history) = some stored ∧
      stored.attempts + 1 ≤ stored.maxAttempts ∧ ∀ timeout, JobContext.ofJob job timeout =
        .ok ⟨job.id, job.queue, job.jobType, stored.attempts + 1, stored.maxAttempts, timeout⟩ := by
  have hholds := Sql.Store.holds_after inFile history (hbuilt.mono fun _ hjob => hjob.hasRoom)
  have hclaim := hholds.claimNext queue worker now
  generalize (Sql.Store.after inFile history).claimNext queue worker now = answer at hclaim h
  cases hclaim with
  | nothing => cases h
  | @taken stored after hfirst hholds' =>
    obtain ⟨hmem, -, hpending, -⟩ := mem_claimable.1 hfirst.mem
    have hstored := consistent_of_mem_jobsAfter hbuilt stored hmem
    have hlive : stored.status.isTerminal = false := by
      rw [hpending]
      rfl
    have hleft := hstored.left hlive
    have hclaimed := (Call.move_of_isFirst hfirst worker).consistent hstored
    cases hread : (Sql.Row.ofJob (claimed stored worker now)).reading with
    | error e =>
      rw [hread] at h
      cases h
    | ok read =>
      rw [hread] at h
      have hread' : (if registered read.jobType then Attempt.handling read
        else .reporting read _) = .handling job := h
      split at hread'
      · obtain rfl := Attempt.handling.inj hread'
        obtain ⟨payload, result, -, -, rfl⟩ := (Sql.Row.reading_eq_ok_iff
          hclaimed.fitsInt32_attempts hclaimed.fitsInt32_maxAttempts).1 hread
        refine ⟨stored, (Call.find?_eq_some_iff hholds.distinct).2 ⟨hmem, rfl⟩, by omega,
          fun timeout => ?_⟩
        have hattempt : Job.attempt
            { claimed stored worker now with payload := payload, result := result } =
              .ok (stored.attempts + 1) := hstored.attempt_eq hlive
        unfold JobContext.ofJob
        rw [hattempt]
        rfl
      · cases hread'

/-- **The ledger of a job** at any time is that of the reports on it that were accepted. -/
theorem ledger_of_events {events : List Event} (hothers : Inserting Job.Built (others events))
    (hquiet : Quiet events) (hids : (Sql.Store.insertedIds (others events)).Nodup)
    (hreturning : Returning Fields.Legible events) {earlier : List Operation} {id : JobId} {job : Job}
    (hsuffix : earlier <:+ operations events (start inFile))
    (hfind : find? id (jobsAfter earlier) = some job) :
    Ledger job (Sql.Store.acceptedReports inFile id earlier) := by
  have hinserted : (Sql.Store.insertedIds (operations events (start inFile))).Nodup := by
    rw [insertedIds_operations]
    exact hids
  have hanswer := answerable_operations inFile hothers hquiet hids hreturning
  exact (Sql.Store.ledger_after inFile id earlier
    ((inserting_operations hothers (start inFile)).suffix hsuffix)
    (hinserted.sublist (hsuffix.sublist.filterMap _)) (hanswer.suffix hsuffix)).2 job hfind

/-- **Attempts are accounted for** in every run of workers on one store, whatever the others do, as
long as they do not act for a worker, use no id twice, and the results of the handlers are read.
Let the reports on an id be those that the store accepted.

* The attempts in a row are the failures among the reports.
* At most one report is a completion, and all together are no more than the attempts that were
  allowed, also after the job was removed.
* An operation adds to the attempts if it is an accepted failure, and then the job has failed just
  if this uses them up and is due again else; no other operation changes the attempts, and none but
  an accepted giving up makes a job fail.
* A handler that begins is told an attempt that is one more than the failures before its claim, and
  that is one of those allowed. -/
theorem attempts_accounted (events : List Event) (hothers : Inserting Job.Built (others events))
    (hquiet : Quiet events) (hids : (Sql.Store.insertedIds (others events)).Nodup)
    (hreturning : Returning Fields.Legible events) :
    let history := operations events (start inFile)
    let reports := fun id => Sql.Store.acceptedReports inFile id history
    (after inFile events).store = Sql.Store.after inFile history ∧
    (∀ id row, (Sql.Store.after inFile history).row? id = some row →
      row.attempts = .int ((reports id).countP Report.isFail)) ∧
    (∀ id, (reports id).countP Report.isComplete ≤ 1) ∧
    (∀ earlier id row, earlier <:+ history →
      (Sql.Store.after inFile earlier).row? id = some row →
      ∃ allowed, row.maxAttempts = .int allowed ∧ ((reports id).length : Int) ≤ allowed) ∧
    (∀ op earlier id row row', op :: earlier <:+ history →
      (Sql.Store.after inFile earlier).row? id = some row →
      (Sql.Store.after inFile (op :: earlier)).row? id = some row' →
      ∃ job job', row = .ofJob job ∧ row' = .ofJob job' ∧
        Accounted ((Sql.Store.after inFile earlier).acceptedOf id op) job job') ∧
    (∀ worker registered now earlier job,
      .act worker (.claim registered now) :: earlier <:+ events →
      (after inFile earlier).attempts worker.id = .claiming →
      (after inFile (.act worker (.claim registered now) :: earlier)).attempts worker.id =
        .handling job →
      ∃ context row, JobContext.ofJob job worker.handlerTimeout = .ok context ∧
        context.jobId = job.id ∧ (after inFile earlier).store.row? job.id = some row ∧
        row.maxAttempts = .int context.maxAttempts ∧
        context.attempt = 1 + (Sql.Store.acceptedReports inFile job.id
          (operations earlier (start inFile))).countP Report.isFail ∧
        1 ≤ context.attempt ∧ context.attempt ≤ context.maxAttempts) := by
  intro history reports
  have hbuilt : Inserting Job.Built history := inserting_operations hothers _
  have hinserted : (Sql.Store.insertedIds history).Nodup := by
    rw [insertedIds_operations]
    exact hids
  have hanswer : Sql.Store.Answerable history :=
    answerable_operations inFile hothers hquiet hids hreturning
  have hledger : ∀ earlier id job, earlier <:+ history → find? id (jobsAfter earlier) = some job →
      Ledger job (Sql.Store.acceptedReports inFile id earlier) := fun _ _ _ =>
    ledger_of_events inFile hothers hquiet hids hreturning
  have hrow : ∀ earlier id row, earlier <:+ history →
      (Sql.Store.after inFile earlier).row? id = some row →
      ∃ job, find? id (jobsAfter earlier) = some job ∧ Sql.Row.ofJob job = row := by
    intro earlier id row hsuffix hfound
    rw [Sql.Store.row?_after inFile
      ((hbuilt.suffix hsuffix).mono fun _ hjob => hjob.hasRoom)] at hfound
    exact Option.map_eq_some_iff.1 hfound
  refine ⟨store_run inFile events, fun id row hfound => ?_,
    Sql.Store.countP_isComplete_le inFile hbuilt hinserted hanswer,
    fun earlier id row hsuffix hfound => ?_, fun op earlier id row row' hsuffix hfound hfound' => ?_,
    fun worker registered now earlier job hsuffix hclaiming hhandling => ?_⟩
  · obtain ⟨job, hfind, rfl⟩ := hrow history id row List.suffix_rfl hfound
    show Sql.Value.int job.attempts = _
    rw [(hledger history id job List.suffix_rfl hfind).attempts]
  · obtain ⟨job, hfind, rfl⟩ := hrow earlier id row hsuffix hfound
    exact ⟨job.maxAttempts, rfl,
      Sql.Store.length_accepted_le inFile hbuilt hinserted hanswer hsuffix hfind⟩
  · obtain ⟨job, hfind, rfl⟩ :=
      hrow earlier id row ((List.suffix_cons op earlier).trans hsuffix) hfound
    obtain ⟨job', hfind', rfl⟩ := hrow (op :: earlier) id row' hsuffix hfound'
    exact ⟨job, job', rfl, rfl, Sql.Store.step_accounted inFile (hbuilt.suffix hsuffix)
      (hanswer.suffix hsuffix) hfind hfind'⟩
  · have hearlier : earlier <:+ events := (List.suffix_cons _ earlier).trans hsuffix
    have hoperations := operations_suffix hearlier (start inFile)
    have hclaim : Worker.afterClaim registered ((Sql.Store.after inFile
        (operations earlier (start inFile))).claimNext worker.queue worker.id now).1 =
          .handling job := by
      rw [← store_run, ← hhandling]
      show _ = ((after inFile earlier).step (.act worker (.claim registered now))).attempts worker.id
      rw [step_claim hclaiming, attempts_advance_self]
    obtain ⟨stored, hfind, hallowed, hcontext⟩ :=
      context_of_claim inFile (hbuilt.suffix hoperations) hclaim
    have hattempts := (hledger _ job.id stored hoperations hfind).attempts
    refine ⟨_, .ofJob stored, hcontext worker.handlerTimeout, rfl, ?_, rfl, ?_, ?_, hallowed⟩
    · rw [store_run, Sql.Store.row?_after inFile
        ((hbuilt.suffix hoperations).mono fun _ hjob => hjob.hasRoom), hfind]
      rfl
    · show stored.attempts + 1 = _
      rw [hattempts, Int.add_comm]
    · show 1 ≤ stored.attempts + 1
      omega

end Accounts

/-- A failed attempt is accounted for. -/
theorem attempts_accounted_of_failure :
    let worker : Worker := ⟨"q", "w", ⟨⟨0, by decide⟩⟩, ⟨1000000, by decide⟩, ⟨1000000, by decide⟩⟩
    let job := Request.toJob (.create "q" "t" []) "a" 0 3
    let events : List Event := [.act worker (.report 7),
      .act worker (.handle (some (.failed "late"))), .act worker (.claim (fun _ => true) 5),
      .other ⟨.insert job, 0⟩]
    Inserting Job.Built (others events) ∧ Quiet events ∧
      (Sql.Store.insertedIds (others events)).Nodup ∧ Returning Fields.Legible events ∧
      (Sql.Store.acceptedReports true "a" (operations events (start true))).countP
        Report.isFail = 1 ∧
      ∃ row, (after true events).store.row? "a" = some row ∧ row.attempts = .int 1 := by
  intro worker job events
  have hbuilt : Inserting Job.Built (others events) := built_oneJob []
  have hquiet : Quiet events := by
    intro op hop
    rw [List.mem_singleton.1 hop]
    rfl
  have hreturning : Returning Fields.Legible events := by
    intro worker' result hmem
    simp [events] at hmem
  have hids : (Sql.Store.insertedIds (others events)).Nodup := by decide
  have hcount : (Sql.Store.acceptedReports true "a" (operations events (start true))).countP
      Report.isFail = 1 := by
    decide +kernel
  have hthere : ((after true events).store.row? "a").isSome = true := by decide +kernel
  obtain ⟨row, hrow⟩ := Option.isSome_iff_exists.1 hthere
  obtain ⟨hstore, hattempts, -⟩ := attempts_accounted true events hbuilt hquiet hids hreturning
  refine ⟨hbuilt, hquiet, hids, hreturning, hcount, row, hrow, ?_⟩
  rw [hattempts "a" row (hstore ▸ hrow), hcount]
  rfl

end System

end JobQueue

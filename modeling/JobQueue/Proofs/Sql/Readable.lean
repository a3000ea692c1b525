import JobQueue.Proofs.Sql.Claims
import JobQueue.Proofs.Sql.Failures
import JobQueue.Proofs.Stores.Agreement

/-! # What is accepted stays readable

The service accepts a request only when its payload nests far less deep than the reader of JSON
allows, so the job that it makes can be read as long as the reader does its part (`Call.Trusted`): it
reads back what the writer printed for objects without floating-point numbers that are not too deep
(`Fields.Moderate`). A job that entered so is found as it was returned, its first claim hands it
over unchanged, and when all jobs entered so and results are moderate, no row of the store is ever
unreadable.

* `Request.Acceptable`, `Job.Accepted`: the jobs of accepted requests.
* `find?_of_untaken`: until a claim takes it, a live job is what it was.
* `Holds.not_saysUnreadable`: no error says that a row cannot be read.
* `accepted_jobs_readable`: **accepted jobs stay readable.** -/

namespace JobQueue

open MemoryStore

/-! ### Accepted jobs -/

/-- **The service accepts the request**, with this number of attempts if it names none. -/
structure Request.Acceptable (request : Request) (default : Int) : Prop where
  check : request.check = .ok ()
  floatFree : (Json.obj request.payload).floatFree = true
  default : 1 ≤ default ∧ default ≤ 2147483647
  maxAttempts : ∀ n, request.maxAttempts = some n → n ≤ 2147483647

/-- **The job is that of an accepted request.** -/
def Job.Accepted (job : Job) : Prop :=
  ∃ (request : Request) (now default : Int), request.Acceptable default ∧
    job = request.toJob job.id now default

namespace Request.Acceptable

variable {request : Request} {default : Int}

theorem one_le_maxAttempts (h : request.Acceptable default) :
    1 ≤ request.maxAttempts.getD default := by
  have hattempts := (Request.checks h.check).1
  cases hmax : request.maxAttempts with
  | none => exact h.default.1
  | some n =>
    rw [hmax] at hattempts
    have hn : ¬ n < 1 := fun hn => by
      rw [show Request.checkAttempts (some n) = .error (.noAttempts n) from if_pos hn] at hattempts
      cases hattempts
    exact Int.not_lt.1 hn

theorem maxAttempts_le (h : request.Acceptable default) :
    request.maxAttempts.getD default ≤ 2147483647 := by
  cases hmax : request.maxAttempts with
  | none => exact h.default.2
  | some n => exact h.maxAttempts n hmax

theorem moderate (h : request.Acceptable default) : request.payload.Moderate :=
  ⟨h.floatFree, Request.shallow_of_check h.check⟩

theorem prepare (h : request.Acceptable default) (now : Int) (ids : IdSource) :
    request.prepare now default ids =
      .ok (request.toJob ids.draw.1 now default, ids.draw.2) :=
  Request.prepare_of_check h.check now default ids

theorem accepted (h : request.Acceptable default) (id : JobId) (now : Int) :
    (request.toJob id now default).Accepted :=
  ⟨request, now, default, h, rfl⟩

end Request.Acceptable

namespace Job.Accepted

variable {job : Job}

theorem built (h : job.Accepted) : job.Built := by
  obtain ⟨request, now, default, hrequest, hjob⟩ := h
  have hlow := hrequest.one_le_maxAttempts
  refine ⟨⟨request, now, default, hjob⟩, ?_⟩
  rw [hjob]
  exact ⟨by show -2147483648 ≤ request.maxAttempts.getD default; omega, hrequest.maxAttempts_le⟩

theorem allowed (h : job.Accepted) : 1 ≤ job.maxAttempts := by
  obtain ⟨request, now, default, hrequest, hjob⟩ := h
  rw [hjob]
  exact hrequest.one_le_maxAttempts

theorem moderate (h : job.Accepted) : job.payload.Moderate := by
  obtain ⟨request, now, default, hrequest, hjob⟩ := h
  rw [hjob]
  exact hrequest.moderate

theorem readsBack (h : job.Accepted) (hpayload : job.payload.ReadsBack) : job.ReadsBack := by
  refine ⟨hpayload, fun result hresult => ?_⟩
  rw [h.built.result] at hresult
  cases hresult

end Job.Accepted

theorem Job.Consistent.countable {job : Job} (h : job.Consistent) : job.Countable := by
  refine ⟨h.fitsInt32_attempts, h.fitsInt32_maxAttempts, fun hlive => ?_⟩
  have hleft := h.left hlive
  have hmax := h.maxAttempts.2
  omega

namespace Call

/-- **What the call brings** is an accepted job or a moderate result. -/
structure Accepted (call : Call) : Prop where
  job : ∀ job, call = .insert job → job.Accepted
  result : ∀ id worker result, call = .complete id worker result → result.Moderate

theorem Accepted.moderate {call : Call} (h : call.Accepted) : call.Moderate := by
  intro fields hbrings
  cases hbrings with
  | payload job => exact (h.job job rfl).moderate
  | @result job result hresult =>
    rw [(h.job job rfl).built.result] at hresult
    cases hresult
  | report id worker => exact h.result id worker fields rfl

end Call

/-! ### Up to the first claim -/

namespace Sql.Store

/-- **Until a claim takes it, a live job is what it was** when it entered. -/
theorem find?_of_untaken {inFile : Bool} {job : Job} (hpending : job.status = .pending)
    {entered : List Operation} (hentered : find? job.id (jobsAfter entered) = some job) :
    ∀ later : List Operation, Inserting Job.HasRoom (later ++ entered) →
      job.id ∉ insertedIds later →
      (∀ op earlier, op :: earlier <:+ later ++ entered → entered <:+ earlier →
        ¬ Takes inFile job.id op earlier) →
      ∀ other, find? job.id (jobsAfter (later ++ entered)) = some other →
        other.status.isTerminal = false → other = job
  | [], _, _, _, other, hfind, _ => Option.some.inj (hfind.symm.trans hentered)
  | op :: later, h, hid, huntaken, other, hfind, hlive => by
    have ih := find?_of_untaken hpending hentered later h.earlier
      (fun hmem => hid ((List.sublist_cons_self op later).filterMap _ |>.subset hmem))
      fun op' earlier hsuffix => huntaken op' earlier (hsuffix.trans (List.suffix_cons op _))
    have hlater : Inserting Job.HasRoom (op :: (later ++ entered)) := h
    rcases change_of_operation inFile hlater job.id with ⟨-, hsame⟩ | ⟨hrow, hchange⟩
    · exact ih other (hsame.symm.trans hfind) hlive
    · have hnot := huntaken op (later ++ entered) List.suffix_rfl (List.suffix_append later entered)
      rw [show find? job.id (jobsAfter (op :: (later ++ entered))) = some other from hfind]
        at hchange
      generalize hbefore : find? job.id (jobsAfter (later ++ entered)) = before at hchange ih
      generalize hcall : op.call = call at hchange
      cases hchange with
      | enter =>
        have hother := ((Call.find?_eq_some_iff (distinct_jobsAfter _)).1 hfind).2
        exact absurd (hother ▸ mem_insertedIds List.mem_cons_self hcall) hid
      | @move _ old _ hmove =>
        obtain rfl : old = job := ih old rfl hmove.live
        have hrunning : old.status = .running → other = old := fun hstatus => by
          rw [hpending] at hstatus
          cases hstatus
        cases hmove with
        | @claim _ queue worker => exact absurd ⟨⟨queue, worker, hcall⟩, hrow⟩ hnot
        | cancel => cases hlive
        | complete _ hstatus => exact hrunning hstatus
        | retry _ hstatus => exact hrunning hstatus
        | exhaust _ hstatus => exact hrunning hstatus
        | giveUp _ hstatus => exact hrunning hstatus
        | recover _ hstatus => exact hrunning hstatus

/-- **A claim that takes the job of an id hands it over**, if its payload is read back. -/
theorem claimNext_of_takes {inFile : Bool} {history : List Operation}
    (h : Inserting Job.HasRoom history) {job : Job} (hjob : job.Consistent)
    (hread : job.payload.ReadsBack)
    (hfind : ∀ other, find? job.id (jobsAfter history) = some other →
      other.status.isTerminal = false → other = job) {queue : QueueName} {worker : WorkerId}
    {now : Int} (htakes : Takes inFile job.id ⟨.claimNext queue worker, now⟩ history) :
    ((after inFile history).claimNext queue worker now).1 =
      .ok (some (claimed job worker now)) := by
  have hholds := holds_after inFile history h
  have hclaim := hholds.claimNext queue worker now
  have hrow : ((after inFile history).claimNext queue worker now).2.row? job.id ≠
      (after inFile history).row? job.id := htakes.2
  generalize (after inFile history).claimNext queue worker now = answer at hclaim hrow ⊢
  cases hclaim with
  | nothing _ hnext _ =>
    rw [hnext.row?, hholds.row?] at hrow
    exact absurd rfl hrow
  | @taken first _ hfirst hnext =>
    obtain ⟨hmem, hdue⟩ := mem_claimable.1 hfirst.mem
    have hid : first.id = job.id := by
      by_contra hid
      rw [hnext.row?, hholds.row?, Call.find?_claimNext hholds.distinct hfirst, if_neg hid] at hrow
      exact hrow rfl
    obtain rfl : first = job :=
      hfind first ((Call.find?_eq_some_iff hholds.distinct).2 ⟨hmem, hid⟩) (by rw [hdue.2.1]; rfl)
    exact (handover_of_consistent hjob hdue worker).2.2 hread

end Sql.Store

/-! ### Errors -/

/-- **The error says that a row cannot be read**, or is of such a kind. -/
def JobError.SaysUnreadable (e : JobError) : Prop :=
  e.kind = .serialization ∨ e.kind = .domain ∨ ∃ fault : Sql.RowFault, e = fault.toError

namespace Sql

/-- How the message begins when the fault is in a column. -/
theorem RowFault.head_of_toError {fault : RowFault} {text : String}
    (h : fault.toError = .database text) :
    text.toList.head? = some 'C' ∨ text.toList.head? = some 'e' := by
  cases fault with
  | missing column =>
    rw [← JobError.database.inj h]
    exact .inl (by simp)
  | mismatch column value =>
    rw [← JobError.database.inj h]
    exact .inr (by simp)
  | outOfRange column above =>
    rw [← JobError.database.inj h]
    exact .inr (by simp)
  | _ => cases h

theorem not_saysUnreadable_notUnique : ¬ (Fault.notUnique "jobs.id").toError.SaysUnreadable := by
  have hhead : (Fault.notUnique "jobs.id").message.toList.head? = some 'U' := by decide +kernel
  rintro (h | h | ⟨fault, h⟩)
  · cases h
  · cases h
  · rcases fault.head_of_toError h.symm with hfault | hfault
    · rw [hhead] at hfault
      cases hfault
    · rw [hhead] at hfault
      cases hfault

theorem not_saysUnreadable_before {now : Int} {threshold : Duration} {cause : Breakdown}
    (h : Timestamp.before now threshold = .error cause) :
    ¬ (JobError.breakdown cause).SaysUnreadable := by
  unfold Timestamp.before at h
  split at h
  · cases h
  · obtain rfl : Breakdown.difference = cause := Except.error.inj h
    rintro (h | h | ⟨fault, h⟩)
    · cases h
    · cases h
    · cases fault <;> cases h

namespace Store

theorem not_saysUnreadable_refusal (id : JobId) (action : Action) (row : Option Row) :
    ¬ (refusal id action row).SaysUnreadable := by
  rintro (h | h | ⟨fault, h⟩)
  · cases row <;> cases h
  · cases row <;> cases h
  · cases row <;> cases fault <;> cases h

variable {store : Store} {jobs : List Job}

/-- **No error says that a row cannot be read**, when the objects of the jobs and of the call are
read back. -/
theorem Holds.not_saysUnreadable (h : store.Holds jobs) (hcount : ∀ job ∈ jobs, job.Countable)
    (hread : ∀ job ∈ jobs, job.ReadsBack) {call : Call} (hcall : call.ReadsBack)
    (hallowed : ∀ job, call = .insert job → 1 ≤ job.maxAttempts) {now : Int} {e : JobError}
    (herror : (store.run call now).1 = .error e) : ¬ e.SaysUnreadable := by
  have hmoves : ∀ {α : Type} {answer : Except JobError α × Store},
      MovesOne store jobs call now answer → answer.1 = .error e → ¬ e.SaysUnreadable := by
    intro α answer hanswer herror
    cases hanswer with
    | stayed _ hrefused =>
      obtain ⟨id, action, rfl⟩ := hrefused e herror
      exact not_saysUnreadable_refusal id action _
    | moved hjob htakes _ hreading =>
      have hmove := Call.move_of_takes h.distinct hjob htakes
      have hnext := hreading e herror
      rw [reading_of_move hcount hread hcall hjob hmove] at hnext
      cases hnext
  cases call with
  | insert job =>
    have hinsert : (store.insert job).1 = .error e := herror
    by_cases hnew : store.row? job.id = none
    · obtain ⟨after, hanswer, -⟩ := h.ready.insert_new (hallowed job rfl) hnew
      rw [hanswer] at hinsert
      cases hinsert
    · rw [h.ready.insert_taken (hallowed job rfl) hnew] at hinsert
      rw [← Except.error.inj hinsert]
      exact not_saysUnreadable_notUnique
  | findById id =>
    have hfind : (store.findById id).1 = .error e := herror
    rw [findById_eq h, readRow?_find? hcount hread h.distinct] at hfind
    cases hfind
  | recoverStale threshold =>
    have hrecover : (store.recoverStale threshold now).1 = .error e := herror
    rcases h.recoverStale threshold now with
      ⟨cause, hbefore, hanswer, -⟩ | ⟨cutoff, after, -, hanswer, -⟩
    · rw [hanswer] at hrecover
      rw [← Except.error.inj hrecover]
      exact not_saysUnreadable_before hbefore
    · rw [hanswer] at hrecover
      cases hrecover
  | deleteOlderThan cutoff =>
    obtain ⟨after, hanswer, -⟩ := h.deleteOlderThan cutoff now
    have hdelete : (store.deleteOlderThan cutoff).1 = .error e := herror
    rw [hanswer] at hdelete
    cases hdelete
  | queueStats =>
    obtain ⟨counts, hanswer, -⟩ := h.queueStats
    have hstats : store.queueStats = .error e := herror
    rw [hanswer] at hstats
    cases hstats
  | _ => exact hmoves (h.movesOne rfl now) herror

/-! ### Histories -/

theorem built_of_accepted {history : List Operation} (h : ∀ op ∈ history, op.call.Accepted) :
    Inserting Job.Built history :=
  fun op hop job hcall => ((h op hop).job job hcall).built

theorem readable_of_mem_jobsAfter {history : List Operation}
    (h : ∀ op ∈ history, op.call.Accepted) (htrusted : ∀ op ∈ history, op.call.Trusted) :
    ∀ job ∈ jobsAfter history, job.Consistent ∧ job.ReadsBack := fun job hjob =>
  ⟨consistent_of_mem_jobsAfter (built_of_accepted h) job hjob,
    readsBack_of_mem_jobsAfter (fun op hop => (h op hop).moderate.readsBack (htrusted op hop)) job hjob⟩

theorem Holds.enqueue (h : store.Holds jobs) {request : Request} {default : Int}
    (hrequest : request.Acceptable default) (now : Int) {ids : IdSource}
    (hnew : store.row? ids.draw.1 = none) :
    let job := request.toJob ids.draw.1 now default
    (Backend.sql store).enqueue request now default ids =
        (.ok job, ids.draw.2, .sql (store.run (.insert job) now).2) ∧
      find? job.id ((Call.insert job).effect now jobs) = some job := by
  intro job
  have hjob : job.Accepted := hrequest.accepted ids.draw.1 now
  have hadmits : Call.admits jobs job = true := by
    refine Call.admits_iff.2 ⟨hjob.allowed, ?_⟩
    have hrow := h.row? job.id
    rw [show store.row? job.id = none from hnew] at hrow
    exact Option.map_eq_none_iff.1 hrow.symm
  rcases h.insert now hjob.built.hasRoom with ⟨hrefused, -⟩ | ⟨-, after, hinsert, -⟩
  · rw [hadmits] at hrefused
    cases hrefused
  · have hrun : store.run (.insert job) now = (.ok (), after) := hinsert
    constructor
    · rw [hrun]
      unfold Backend.enqueue Backend.run
      rw [hrequest.prepare]
      dsimp only
      rw [hrun]
    · rw [show (Call.insert job).effect now jobs = jobs ++ [job] from if_pos hadmits,
        Call.find?_insert hadmits, if_pos rfl]

/-- **What the service accepts stays readable**, after any history of jobs in range.

* An accepted request whose job gets a new id is answered with the job, the job enters the store,
  and a look-up finds just this job. The first claim that takes it hands it over as it was, but held
  by the worker since the time of the claim, whatever the operations before that claim.
* If all jobs entered by accepted requests and all results are moderate, every row is that of a job
  and is read as this job, and no call at any point of the history is answered with an error that
  says that a row cannot be read.

The reader is trusted with the moderate objects that enter, and with no others. -/
theorem accepted_jobs_readable (inFile : Bool) (history : List Operation)
    (hjobs : Inserting Job.InRange history) :
    (∀ (request : Request) (default : Int), request.Acceptable default →
      (request.payload.Moderate → request.payload.ReadsBack) → ∀ (now : Int) (ids : IdSource),
      (after inFile history).row? ids.draw.1 = none →
      let job := request.toJob ids.draw.1 now default
      let entered : List Operation := ⟨.insert job, now⟩ :: history
      (Backend.sql (after inFile history)).enqueue request now default ids =
          (.ok job, ids.draw.2, .sql (after inFile entered)) ∧
        ((after inFile entered).findById job.id).1 = .ok (some job) ∧
        ∀ later : List Operation, Inserting Job.InRange later → job.id ∉ insertedIds later →
          (∀ op earlier, op :: earlier <:+ later ++ entered → entered <:+ earlier →
            ¬ Takes inFile job.id op earlier) →
          ∀ queue worker t, Takes inFile job.id ⟨.claimNext queue worker, t⟩ (later ++ entered) →
            ((after inFile (later ++ entered)).claimNext queue worker t).1 =
              .ok (some (claimed job worker t))) ∧
    ((∀ op ∈ history, op.call.Accepted) → (∀ op ∈ history, op.call.Trusted) →
      (∀ row ∈ (after inFile history).rows, ∃ job, row = .ofJob job ∧ row.reading = .ok job) ∧
        ∀ op earlier, op :: earlier <:+ history → ∀ e,
          ((after inFile earlier).run op.call op.now).1 = .error e → ¬ e.SaysUnreadable) := by
  have hholds := holds_after inFile history (hjobs.mono fun _ hjob => hjob.hasRoom)
  constructor
  · intro request default hrequest htrusted now ids hnew job entered
    have hjob : job.Accepted := hrequest.accepted ids.draw.1 now
    have hread : job.ReadsBack := hjob.readsBack (htrusted hrequest.moderate)
    have hconsistent : job.Consistent := hjob.built.consistent hjob.allowed
    obtain ⟨henqueue, hentered⟩ := hholds.enqueue hrequest now hnew
    have hfound : find? job.id (jobsAfter entered) = some job := hentered
    have hroom : Inserting Job.HasRoom entered := inserting_cons.2
      ⟨fun other hother => Call.insert.inj hother ▸ hjob.built.hasRoom,
        hjobs.mono fun _ hjob => hjob.hasRoom⟩
    refine ⟨henqueue, ?_, fun later hlater hid huntaken queue worker t htakes => ?_⟩
    · rw [findById_eq (holds_after inFile entered hroom), hfound]
      show (Row.ofJob job).reading.map some = .ok (some job)
      rw [hconsistent.reading.2 hread]
      rfl
    · have hall : Inserting Job.HasRoom (later ++ entered) := fun op hop other hother => by
        rcases List.mem_append.1 hop with hop | hop
        · exact (hlater op hop other hother).hasRoom
        · exact hroom op hop other hother
      exact claimNext_of_takes hall hconsistent hread.payload
        (find?_of_untaken hjob.built.status hfound later hall hid huntaken) htakes
  · intro haccepted htrusted
    constructor
    · intro row hrow
      rw [hholds.rows] at hrow
      obtain ⟨job, hjob, rfl⟩ := List.mem_map.1 hrow
      obtain ⟨hconsistent, hread⟩ := readable_of_mem_jobsAfter haccepted htrusted job hjob
      exact ⟨job, rfl, hconsistent.reading.2 hread⟩
    · intro op earlier hsuffix e herror
      have hop : op ∈ history := hsuffix.subset List.mem_cons_self
      have hbefore : earlier <:+ history := (List.suffix_cons op earlier).trans hsuffix
      have hread := readable_of_mem_jobsAfter
        (fun op' hop' => haccepted op' (hbefore.subset hop'))
        fun op' hop' => htrusted op' (hbefore.subset hop')
      exact (holds_after inFile earlier
        ((hjobs.suffix hbefore).mono fun _ hjob => hjob.hasRoom)).not_saysUnreadable
        (fun job hjob => (hread job hjob).1.countable) (fun job hjob => (hread job hjob).2)
        ((haccepted op hop).moderate.readsBack (htrusted op hop))
        (fun job hcall => ((haccepted op hop).job job hcall).allowed) herror

/-- A plain payload is found and claimed as it was enqueued, and the report of another worker on an
earlier job is refused, but not for want of reading. -/
theorem accepted_jobs_readable_of_plain :
    let payload : Fields := [("n", .int 1)]
    let history : List Operation := ⟨.complete "a" "v" payload, 9⟩ :: oneClaim payload
    let request := Request.create "p" "t" payload
    let job := request.toJob "b" 20 3
    let entered : List Operation := ⟨.insert job, 20⟩ :: history
    Inserting Job.InRange history ∧ request.Acceptable 3 ∧ payload.ReadsBack ∧
      (∀ op ∈ history, op.call.Accepted ∧ op.call.Trusted) ∧
      ((after true entered).findById "b").1 = .ok (some job) ∧
      ((after true entered).claimNext "p" "w" 30).1 = .ok (some (claimed job "w" 30)) ∧
      (∀ row ∈ (after true history).rows, ∃ job, row = .ofJob job ∧ row.reading = .ok job) ∧
      ∃ e, ((after true (oneClaim payload)).complete "a" "v" payload 9).1 = .error e ∧
        ¬ e.SaysUnreadable := by
  intro payload history request job entered
  have hplain : payload.Plain := ⟨by decide, by decide, by decide, by decide⟩
  have hmoderate : payload.Moderate := ⟨by decide, by decide⟩
  have hjobs : Inserting Job.InRange history := inserting_cons.2 ⟨fun _ hcall => (nomatch hcall),
    inserting_oneClaim
      ⟨by decide, by decide, by decide, fun _ h => (nomatch h), by decide, by decide⟩⟩
  have hacceptable : ∀ queue, (Request.create queue "t" payload).check = .ok () →
      (Request.create queue "t" payload).Acceptable 3 := fun queue hcheck =>
    ⟨hcheck, hmoderate.floatFree, by decide, fun _ h => (nomatch h)⟩
  have hrequest : request.Acceptable 3 := hacceptable "p" (by decide +kernel)
  have hcalls : ∀ op ∈ history, op.call.Accepted ∧ op.call.Trusted := by
    intro op hop
    rcases List.mem_cons.1 hop with rfl | hop
    · refine ⟨⟨fun _ hcall => (nomatch hcall), fun id worker result hcall => ?_⟩, ?_⟩
      · obtain ⟨-, -, rfl⟩ := Call.complete.inj hcall
        exact hmoderate
      · rintro _ ⟨⟩
        exact hplain.trusted
    · refine ⟨⟨fun job hcall => ?_, fun id worker result hcall => ?_⟩,
        brings_oneClaim hplain.trusted op hop⟩ <;>
        simp only [oneClaim, oneJob, List.mem_cons, List.not_mem_nil, or_false] at hop <;>
        rcases hop with rfl | rfl <;> cases hcall
      exact (hacceptable "q" (by decide +kernel)).accepted "a" 0
  obtain ⟨henqueue, hhistory⟩ := accepted_jobs_readable true history hjobs
  obtain ⟨-, hfind, hclaim⟩ := henqueue request 3 hrequest (fun _ => hplain.readsBack) 20
    ⟨fun _ => "b", 0⟩ (by decide +kernel)
  obtain ⟨hrows, herrors⟩ :=
    hhistory (fun op hop => (hcalls op hop).1) fun op hop => (hcalls op hop).2
  refine ⟨hjobs, hrequest, hplain.readsBack, hcalls, hfind, ?_, hrows, ?_⟩
  · refine hclaim [] (fun _ hop => absurd hop List.not_mem_nil) List.not_mem_nil ?_ "p" "w" 30
      ⟨⟨"p", "w", rfl⟩, by decide +kernel⟩
    intro op earlier hsuffix hentered
    have hlength := hsuffix.length_le.trans hentered.length_le
    simp at hlength
  · have herror : ((after true (oneClaim payload)).complete "a" "v" payload 9).1 =
        .error (refusal "a" .complete ((after true (oneClaim payload)).row? "a")) := rfl
    exact ⟨_, herror,
      herrors ⟨.complete "a" "v" payload, 9⟩ (oneClaim payload) List.suffix_rfl _ herror⟩

end Store

end Sql

end JobQueue

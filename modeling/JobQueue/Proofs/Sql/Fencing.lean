import JobQueue.Proofs.Sql.Consistency
import JobQueue.Worker.Attempt

/-! # Reports are fenced

A worker may report on a job only while it holds it. Which worker holds a job is in its row; here it
is read off the history: the worker holds the job exactly when the latest operation that changed the
row was a claim by this worker (`held_iff_lastChange`). All other reports are refused and change
nothing, be they late, repeated, or on a job that was recovered, cancelled, claimed again or pruned.

A report that takes effect is answered with the job, if the row can be read as one. It can be unless
a text of it is not read as an object (`Fields.Legible`); the reader is trusted to read what is not
too deep (`Call.Trusted`). When all payloads are read, the holder is the worker that was given the
job last (`lastChange_givenTo_iff`).

* `LastChange`: the latest operation that changed the row of an id.
* `report_after`: **the answer to a report after a history.** -/

namespace JobQueue

open MemoryStore

namespace Report

/-- The change that the report asks for. -/
def action : Report → Sql.Action
  | .complete _ => .complete
  | .fail _ _ => .fail
  | .failPermanently _ => .failPermanently

/-- The result, if there is one, is read as an object. -/
def Legible : Report → Prop
  | .complete result => result.Legible
  | _ => True

theorem legible_of_call {report : Report} {id : JobId} {worker : WorkerId}
    (htrusted : (report.call id worker).Trusted) (hshallow : (report.call id worker).Shallow) :
    report.Legible := by
  cases report with
  | complete result =>
    exact (htrusted result (.report id worker result)).legible
      (hshallow result (.report id worker result))
  | fail _ _ => trivial
  | failPermanently _ => trivial

end Report

namespace Sql.Store

/-! ### Who holds a job -/

/-- **The latest operation that changed the row of the id** meets the condition, together with the
store before it. -/
inductive LastChange (inFile : Bool) (id : JobId) (condition : Operation → Store → Prop) :
    List Operation → Prop
  | latest {op : Operation} {earlier : List Operation}
      (hrow : (after inFile (op :: earlier)).row? id ≠ (after inFile earlier).row? id)
      (hcondition : condition op (after inFile earlier)) :
      LastChange inFile id condition (op :: earlier)
  | earlier {op : Operation} {earlier : List Operation}
      (hrow : (after inFile (op :: earlier)).row? id = (after inFile earlier).row? id)
      (hlast : LastChange inFile id condition earlier) :
      LastChange inFile id condition (op :: earlier)

/-- The operation is a claim by the worker. -/
def ClaimedBy (worker : WorkerId) (op : Operation) (_ : Store) : Prop :=
  ∃ queue, op.call = .claimNext queue worker

/-- The operation is a claim by the worker, which is given the job of the id. -/
def GivenTo (worker : WorkerId) (id : JobId) (op : Operation) (before : Store) : Prop :=
  ∃ queue job, op.call = .claimNext queue worker ∧
    (before.claimNext queue worker op.now).1 = .ok (some job) ∧ job.id = id

/-- The worker holds the job of the id. -/
def Held (jobs : List Job) (id : JobId) (worker : WorkerId) : Prop :=
  ∃ job, find? id jobs = some job ∧ job.isHeldBy id worker = true

variable {inFile : Bool} {id : JobId} {worker : WorkerId}

theorem not_lastChange_nil {condition : Operation → Store → Prop} :
    ¬ LastChange inFile id condition [] :=
  fun h => nomatch h

theorem lastChange_of_eq {condition : Operation → Store → Prop} {op : Operation}
    {earlier : List Operation}
    (hrow : (after inFile (op :: earlier)).row? id = (after inFile earlier).row? id) :
    LastChange inFile id condition (op :: earlier) ↔ LastChange inFile id condition earlier := by
  refine ⟨fun h => ?_, .earlier hrow⟩
  cases h with
  | latest hne _ => exact absurd hrow hne
  | earlier _ hlast => exact hlast

theorem lastChange_of_ne {condition : Operation → Store → Prop} {op : Operation}
    {earlier : List Operation}
    (hrow : (after inFile (op :: earlier)).row? id ≠ (after inFile earlier).row? id) :
    LastChange inFile id condition (op :: earlier) ↔ condition op (after inFile earlier) := by
  refine ⟨fun h => ?_, .latest hrow⟩
  cases h with
  | latest _ hcondition => exact hcondition
  | earlier heq _ => exact absurd heq hrow

theorem held_of_change {jobs : List Job} {op : Operation} {before : Option Job} (store : Store)
    (hbuilt : ∀ job, op.call = .insert job → job.Built) (hid : ∀ job, find? id jobs = some job →
      job.id = id) (hchange : Call.Change op.now op.call before (find? id jobs)) :
    Held jobs id worker ↔ ClaimedBy worker op store := by
  obtain ⟨call, now⟩ := op
  unfold Held ClaimedBy
  dsimp only at hbuilt hchange ⊢
  generalize find? id jobs = found at hid hchange ⊢
  have hlost : ∀ job : Job, job.status ≠ .running →
      ¬ ∃ job', some job = some job' ∧ job'.isHeldBy id worker = true := by
    rintro job hstatus ⟨job', hjob, hheld⟩
    obtain rfl := Option.some.inj hjob
    exact hstatus (Call.isHeldBy_iff.1 hheld).2.1
  cases hchange with
  | @enter job =>
    refine iff_of_false (hlost job ?_) (fun ⟨_, hcall⟩ => nomatch hcall)
    rw [(hbuilt job rfl).status]
    exact nofun
  | prune => exact iff_of_false (fun ⟨_, hjob, _⟩ => nomatch hjob) (fun ⟨_, hcall⟩ => nomatch hcall)
  | move hmove =>
    cases hmove with
    | @claim job queue worker' hqueue hstatus hdue =>
      constructor
      · rintro ⟨job', hjob, hheld⟩
        obtain rfl := Option.some.inj hjob
        have hworker := (Call.isHeldBy_iff.1 hheld).2.2
        exact ⟨queue, by rw [Option.some.inj hworker]⟩
      · rintro ⟨queue', hcall⟩
        obtain ⟨rfl, rfl⟩ := Call.claimNext.inj hcall
        exact ⟨_, rfl, Call.isHeldBy_iff.2 ⟨hid _ rfl, rfl, rfl⟩⟩
    | _ => exact iff_of_false (hlost _ nofun) (fun ⟨_, hcall⟩ => nomatch hcall)

/-- **A worker holds a job exactly when the latest change of its row was a claim by the worker.**
The induction is on the history; an operation that leaves the row as it is leaves its holder. -/
theorem held_iff_lastChange : ∀ history : List Operation, Inserting Job.Built history →
    (Held (jobsAfter history) id worker ↔ LastChange inFile id (ClaimedBy worker) history)
  | [], _ => iff_of_false (fun ⟨_, hjob, _⟩ => nomatch hjob) not_lastChange_nil
  | op :: earlier, hbuilt => by
    have hroom := hbuilt.mono fun _ hjob => hjob.hasRoom
    rcases change_of_operation inFile hroom id with ⟨hrow, hsame⟩ | ⟨hrow, hchange⟩
    · rw [lastChange_of_eq hrow, ← held_iff_lastChange earlier hbuilt.earlier]
      unfold Held
      rw [hsame]
    · rw [lastChange_of_ne hrow]
      exact held_of_change _ (fun _ hjob => hbuilt.latest hjob)
        (fun _ hfind => ((Call.find?_eq_some_iff (distinct_jobsAfter _)).1 hfind).2) hchange

/-! ### Payloads that are read -/

theorem payload_of_mem_jobsAfter {P : Fields → Prop} {history : List Operation}
    (h : Inserting (fun job => P job.payload) history) :
    ∀ job ∈ jobsAfter history, P job.payload :=
  forall_mem_jobsAfter (fun _ hpayload _ => hpayload)
    (fun _ _ _ _ hmove hpayload => by rw [hmove.same.payload]; exact hpayload) history h

theorem givenTo_of_row?_ne {store : Store} {jobs : List Job} (h : store.Holds jobs)
    (hconsistent : ∀ job ∈ jobs, job.Consistent) (hlegible : ∀ job ∈ jobs, job.payload.Legible)
    {queue : QueueName} {now : Int}
    (hrow : (store.claimNext queue worker now).2.row? id ≠ store.row? id) :
    ∃ job, (store.claimNext queue worker now).1 = .ok (some job) ∧ job.id = id := by
  have hclaim := h.claimNext queue worker now
  generalize store.claimNext queue worker now = answer at hrow hclaim ⊢
  cases hclaim with
  | nothing _ hholds _ =>
    rw [hholds.row?, h.row?] at hrow
    exact absurd rfl hrow
  | @taken first _ hfirst hholds =>
    obtain ⟨hmem, -⟩ := mem_claimable.1 hfirst.mem
    have hclaimed := (Call.move_of_isFirst hfirst worker).consistent (hconsistent first hmem)
    have hok := hclaimed.isOk_reading.2 ((hclaimed.legible_iff nofun).2 (hlegible first hmem))
    cases hread : (Row.ofJob (claimed first worker now)).reading with
    | error cause =>
      rw [hread] at hok
      cases hok
    | ok job =>
      refine ⟨job, rfl, (hclaimed.id_of_reading hread).trans ?_⟩
      -- The row of no other id changes.
      by_contra hid
      have hother : first.id ≠ id := hid
      rw [hholds.row?, h.row?, Call.find?_claimNext h.distinct hfirst, if_neg hother] at hrow
      exact hrow rfl

/-- **When all payloads are read the holder is the worker that was given the job last.** -/
theorem lastChange_givenTo_iff : ∀ history : List Operation, Inserting Job.Built history →
    Inserting (fun job => job.payload.Legible) history →
      (LastChange inFile id (GivenTo worker id) history ↔
        LastChange inFile id (ClaimedBy worker) history)
  | [], _, _ => iff_of_false not_lastChange_nil not_lastChange_nil
  | op :: earlier, hbuilt, hlegible => by
    by_cases hrow : (after inFile (op :: earlier)).row? id = (after inFile earlier).row? id
    · rw [lastChange_of_eq hrow, lastChange_of_eq hrow]
      exact lastChange_givenTo_iff earlier hbuilt.earlier hlegible.earlier
    · rw [lastChange_of_ne hrow, lastChange_of_ne hrow]
      obtain ⟨call, now⟩ := op
      have hholds := holds_after inFile earlier
        (hbuilt.earlier.mono fun _ hjob => hjob.hasRoom)
      constructor
      · rintro ⟨queue, job, hcall, -, -⟩
        exact ⟨queue, hcall⟩
      · rintro ⟨queue, rfl⟩
        obtain ⟨job, hanswer, hid⟩ := givenTo_of_row?_ne hholds
          (consistent_of_mem_jobsAfter hbuilt.earlier) (payload_of_mem_jobsAfter hlegible.earlier)
          hrow
        exact ⟨queue, job, rfl, hanswer, hid⟩

/-! ### Answers -/

theorem legible_turn (report : Report) {jobs : List Job} {job : Job} {now : Int}
    (hdistinct : (jobs.map Job.id).Nodup) (hmem : job ∈ jobs) (hjob : job.Consistent)
    (htakes : (report.call id worker).takes now jobs job = true) :
    ((report.call id worker).turn now job).Legible ↔ job.payload.Legible ∧ report.Legible := by
  have hmove := Call.move_of_takes hdistinct hmem htakes
  have hturned := hmove.consistent hjob
  cases report with
  | complete result =>
    rw [Job.legible_iff, hmove.same.payload]
    refine and_congr_right fun _ => ⟨fun h => h result rfl, fun h other hother => ?_⟩
    rw [← Option.some.inj hother]
    exact h
  | fail error delay =>
    have hstatus : ((Call.fail id worker error delay).turn now job).status ≠ .completed := by
      show (job.afterFailure (Timestamp.later now delay) error now).status ≠ .completed
      unfold Job.afterFailure
      split <;> exact nofun
    rw [hturned.legible_iff hstatus, hmove.same.payload]
    exact (and_iff_left trivial).symm
  | failPermanently error =>
    rw [hturned.legible_iff nofun, hmove.same.payload]
    exact (and_iff_left trivial).symm

theorem takes_report (report : Report) (now : Int) (jobs : List Job) (job : Job) :
    (report.call id worker).takes now jobs job = job.isHeldBy id worker := by
  cases report <;> rfl

theorem find?_report (report : Report) {jobs : List Job} {job : Job} (now : Int)
    (hfind : find? id jobs = some job)
    (htakes : (report.call id worker).takes now jobs job = true) :
    find? id ((report.call id worker).effect now jobs) =
      some ((report.call id worker).turn now job) := by
  have heffect : (report.call id worker).effect now jobs =
      (report.call id worker).turned now jobs := by
    cases report <;> rfl
  rw [heffect, Call.find?_turned, hfind, Option.map_some, if_pos htakes]

/-- The payload in the row of the id is read as an object. -/
def LegibleAt (store : Store) (id : JobId) : Prop :=
  ∀ row, store.row? id = some row → (Json.parseFields? row.payload).isSome = true

/-- **What is answered to a report**, by whether the worker holds the job. -/
theorem answer_of_transition {store : Store} {jobs : List Job} (h : store.Holds jobs)
    (hconsistent : ∀ job ∈ jobs, job.Consistent) (report : Report) {now : Int}
    {answer : Except JobError Job × Store}
    (htransition : Transition store jobs (report.call id worker) now id report.action answer) :
    (answer.1.isOk = true ↔ Held jobs id worker ∧ store.LegibleAt id ∧ report.Legible) ∧
      (Held jobs id worker → answer.2.row? id ≠ store.row? id) ∧
      (¬ Held jobs id worker →
        answer.1 = .error (refusal id report.action (store.row? id)) ∧
          answer.2.connection = store.connection) := by
  cases htransition with
  | @taken job after hfind htakes hholds =>
    obtain ⟨hmem, hid⟩ := (Call.find?_eq_some_iff h.distinct).1 hfind
    have hheld : Held jobs id worker :=
      ⟨job, hfind, (takes_report report now jobs job).symm.trans htakes⟩
    have hmove := Call.move_of_takes h.distinct hmem htakes
    have hrow : store.row? id = some (.ofJob job) := by
      rw [h.row?, hfind]
      rfl
    have hpayload : store.LegibleAt id ↔ job.payload.Legible := by
      unfold LegibleAt
      rw [hrow]
      refine ⟨fun hread => hread (.ofJob job) rfl, fun hread row hrow => ?_⟩
      rw [← Option.some.inj hrow]
      exact hread
    refine ⟨?_, fun _ => ?_, fun hfree => absurd hheld hfree⟩
    · rw [(hmove.consistent (hconsistent job hmem)).isOk_reading,
        legible_turn report h.distinct hmem (hconsistent job hmem) htakes, hpayload]
      exact (and_iff_right hheld).symm
    · show after.row? id ≠ store.row? id
      rw [hholds.row?, h.row?, find?_report report now hfind htakes, hfind]
      exact map_ofJob_ne_of_change (.move hmove)
  | @refused after hnone hholds hconnection =>
    have hfree : ¬ Held jobs id worker := by
      rintro ⟨job, hfind, hheld⟩
      have hmem := ((Call.find?_eq_some_iff h.distinct).1 hfind).1
      rw [← takes_report report now jobs job, hnone job hmem] at hheld
      cases hheld
    refine ⟨iff_of_false Bool.false_ne_true fun hheld => hfree hheld.1,
      fun hheld => absurd hheld hfree, fun _ => ⟨?_, hconnection⟩⟩
    rw [h.row?]

/-- **The answer to a report after a history** of any calls, when jobs enter as they are built for
requests.

* It is accepted just if the latest change of the row was a claim by the worker and the texts of
  payload and result are read as objects.
* After such a claim it takes effect in any case; after none it is refused, as unknown or for the
  state of the job, and nothing changes.
* When the reader does its part for the objects that come with the calls, and payloads and result
  are not too deep for it, the report is accepted just if the latest change of the row was a claim
  that gave the worker this job, and is refused without effect else. -/
theorem report_after (inFile : Bool) (history : List Operation)
    (hbuilt : Inserting Job.Built history) (id : JobId) (worker : WorkerId) (report : Report)
    (now : Int) :
    let store := after inFile history
    let answer := store.run (report.call id worker) now
    (answer.1.isOk = true ↔ LastChange inFile id (ClaimedBy worker) history ∧
        store.LegibleAt id ∧ report.Legible) ∧
      (LastChange inFile id (ClaimedBy worker) history →
        answer.2.row? id ≠ store.row? id) ∧
      (¬ LastChange inFile id (ClaimedBy worker) history →
        answer.1 = .error (refusal id report.action (store.row? id)) ∧
          answer.2.connection = store.connection) ∧
      ((∀ op ∈ history, op.call.Trusted) → (report.call id worker).Trusted →
        Inserting (fun job => job.payload.Shallow) history → (report.call id worker).Shallow →
        (answer.1.isOk = true ↔ LastChange inFile id (GivenTo worker id) history) ∧
          (¬ LastChange inFile id (GivenTo worker id) history →
            answer.1 = .error (refusal id report.action (store.row? id)) ∧
              answer.2.connection = store.connection)) := by
  intro store answer
  have hholds := holds_after inFile history (hbuilt.mono fun _ hjob => hjob.hasRoom)
  have hanswer : (answer.1.isOk = true ↔
        Held (jobsAfter history) id worker ∧ store.LegibleAt id ∧ report.Legible) ∧
      (Held (jobsAfter history) id worker → answer.2.row? id ≠ store.row? id) ∧
      (¬ Held (jobsAfter history) id worker →
        answer.1 = .error (refusal id report.action (store.row? id)) ∧
          answer.2.connection = store.connection) := by
    have hconsistent := consistent_of_mem_jobsAfter hbuilt
    cases report with
    | complete result =>
      exact answer_of_transition hholds hconsistent (.complete result)
        (hholds.complete id worker result now)
    | fail error delay =>
      exact answer_of_transition hholds hconsistent (.fail error delay)
        (hholds.fail id worker error delay now)
    | failPermanently error =>
      exact answer_of_transition hholds hconsistent (.failPermanently error)
        (hholds.failPermanently id worker error now)
  rw [held_iff_lastChange history hbuilt] at hanswer
  obtain ⟨hok, heffect, hrefused⟩ := hanswer
  refine ⟨hok, heffect, hrefused, fun htrusted htrustedReport hshallow hshallowReport => ?_⟩
  have hpayloads := inserting_legible htrusted hshallow
  have hlegible : store.LegibleAt id := by
    intro row hrow
    rw [hholds.row?] at hrow
    obtain ⟨job, hfind, rfl⟩ := Option.map_eq_some_iff.1 hrow
    have hmem := ((Call.find?_eq_some_iff hholds.distinct).1 hfind).1
    exact payload_of_mem_jobsAfter hpayloads job hmem
  rw [lastChange_givenTo_iff history hbuilt hpayloads]
  exact ⟨hok.trans (and_iff_left ⟨hlegible, Report.legible_of_call htrustedReport hshallowReport⟩),
    hrefused⟩

/-- The worker that claimed a job completes it. -/
theorem report_after_oneClaim :
    let history := oneClaim [("n", .int 1)]
    let report : Report := .complete [("done", .bool true)]
    Inserting Job.Built history ∧ (∀ op ∈ history, op.call.Trusted) ∧
      (report.call "a" "w").Trusted ∧ Inserting (fun job => job.payload.Shallow) history ∧
      (report.call "a" "w").Shallow ∧
      ((after true history).run (report.call "a" "w") 9).1.isOk = true ∧
      LastChange true "a" (GivenTo "w" "a") history := by
  intro history report
  have hpayload : Fields.Plain [("n", .int 1)] := ⟨by decide, by decide, by decide, by decide⟩
  have hresult : Fields.Plain [("done", .bool true)] :=
    ⟨by decide, by decide, by decide, by decide⟩
  have htrusted : ∀ op ∈ history, op.call.Trusted := brings_oneClaim hpayload.trusted
  have htrustedReport : (report.call "a" "w").Trusted := by
    rintro _ ⟨⟩
    exact hresult.trusted
  have hshallow : Inserting (fun job => job.payload.Shallow) history :=
    inserting_oneClaim hpayload.shallow
  have hshallowReport : (report.call "a" "w").Shallow := by
    rintro _ ⟨⟩
    exact hresult.shallow
  have hok : ((after true history).run (report.call "a" "w") 9).1.isOk = true := by
    decide +kernel
  obtain ⟨-, -, -, hanswer⟩ := report_after true history (built_oneClaim _) "a" "w" report 9
  exact ⟨built_oneClaim _, htrusted, htrustedReport, hshallow, hshallowReport, hok,
    (hanswer htrusted htrustedReport hshallow hshallowReport).1.1 hok⟩

end Sql.Store

end JobQueue

import JobQueue.Proofs.Sql.Claims

/-! # The ledger of a job

The reports that the store accepts on a job are its ledger (`acceptedReports`). While ids are not
used again, the job of an id is the one that was inserted (`exists_origin`), and if the texts of its
payload and of the results are read as objects, a report is accepted exactly when it moves the job
(`acceptedOf_of_move`, `acceptedOf_of_same`). So the ledger can be kept move by move
(`Ledger.move`): attempts are the accepted failures; before a job has ended nothing else is in the
ledger, and an attempt is left; so one more report keeps it within the attempts allowed.

* `ledger_after`: **the ledger of every job after a history.**
* `accepted_cases`: what is in the ledger of an id was there when its job was last in the table.
* `step_accounted`: what an operation does to the attempts and to the state of a row. -/

namespace JobQueue

open MemoryStore

namespace Report

def isFail : Report → Bool
  | .fail _ _ => true
  | _ => false

def isComplete : Report → Bool
  | .complete _ => true
  | _ => false

def isFailPermanently : Report → Bool
  | .failPermanently _ => true
  | _ => false

end Report

/-- The report that the call makes, with the id of the job and the worker. -/
def Call.report? : Call → Option (JobId × WorkerId × Report)
  | .complete id worker result => some (id, worker, .complete result)
  | .fail id worker error delay => some (id, worker, .fail error delay)
  | .failPermanently id worker error => some (id, worker, .failPermanently error)
  | _ => none

theorem Report.report?_call (report : Report) (id : JobId) (worker : WorkerId) :
    (report.call id worker).report? = some (id, worker, report) := by
  cases report <;> rfl

theorem Call.eq_of_report? {call : Call} {id : JobId} {worker : WorkerId} {report : Report}
    (h : call.report? = some (id, worker, report)) : call = report.call id worker := by
  cases call with
  | complete | fail | failPermanently =>
    obtain ⟨rfl, hrest⟩ := Prod.mk.inj (Option.some.inj h)
    obtain ⟨rfl, rfl⟩ := Prod.mk.inj hrest
    rfl
  | _ => cases h

/-! ### Where jobs come from -/

/-- The jobs that the operations insert. -/
def insertedJobs (history : List Operation) : List Job :=
  history.filterMap fun op => match op.call with
    | .insert job => some job
    | _ => none

theorem map_id_insertedJobs (history : List Operation) :
    (insertedJobs history).map Job.id = Sql.Store.insertedIds history := by
  unfold insertedJobs Sql.Store.insertedIds
  rw [List.map_filterMap]
  refine List.filterMap_congr fun op _ => ?_
  cases op.call <;> rfl

theorem insertedIds_append (later earlier : List Operation) :
    Sql.Store.insertedIds (later ++ earlier) =
      Sql.Store.insertedIds later ++ Sql.Store.insertedIds earlier :=
  List.filterMap_append

theorem mem_insertedJobs {history : List Operation} {job : Job} :
    job ∈ insertedJobs history ↔ ∃ op ∈ history, op.call = .insert job := by
  unfold insertedJobs
  rw [List.mem_filterMap]
  refine exists_congr fun op => and_congr_right fun _ => ?_
  cases op.call <;> simp

theorem insertedJobs_suffix {earlier history : List Operation} (h : earlier <:+ history) :
    insertedJobs earlier ⊆ insertedJobs history := by
  intro job hjob
  obtain ⟨op, hop, hcall⟩ := mem_insertedJobs.1 hjob
  exact mem_insertedJobs.2 ⟨op, h.subset hop, hcall⟩

theorem Job.Same.trans {a b c : Job} (hab : a.Same b) (hbc : b.Same c) : a.Same c :=
  ⟨hbc.id.trans hab.id, hbc.queue.trans hab.queue, hbc.jobType.trans hab.jobType,
    hbc.payload.trans hab.payload, hbc.maxAttempts.trans hab.maxAttempts,
    hbc.createdAt.trans hab.createdAt⟩

/-- **Every job was inserted** and is still what it was. -/
theorem exists_origin {history : List Operation} {job : Job} (hjob : job ∈ jobsAfter history) :
    ∃ origin ∈ insertedJobs history, origin.Same job :=
  forall_mem_jobsAfter (P := fun job => ∃ origin ∈ insertedJobs history, origin.Same job)
    (fun origin hmem _ => ⟨origin, hmem, .refl origin⟩)
    (fun _ _ _ _ hmove ⟨origin, hmem, hsame⟩ => ⟨origin, hmem, hsame.trans hmove.same⟩)
    history (fun op hop _ hcall => mem_insertedJobs.2 ⟨op, hop, hcall⟩) job hjob

theorem origin_unique {history : List Operation} (hids : (Sql.Store.insertedIds history).Nodup)
    {a b : Job} (ha : a ∈ insertedJobs history) (hb : b ∈ insertedJobs history)
    (h : a.id = b.id) : a = b :=
  eq_of_id_eq (by rw [map_id_insertedJobs]; exact hids) ha hb h

theorem origin_of_find? {earlier history : List Operation} (hsuffix : earlier <:+ history)
    {id : JobId} {job : Job} (hfind : find? id (jobsAfter earlier) = some job) :
    ∃ origin ∈ insertedJobs history, origin.id = id ∧ origin.Same job := by
  obtain ⟨hmem, hid⟩ := (Call.find?_eq_some_iff (distinct_jobsAfter earlier)).1 hfind
  obtain ⟨origin, horigin, hsame⟩ := exists_origin hmem
  exact ⟨origin, insertedJobs_suffix hsuffix horigin, hsame.id.symm.trans hid, hsame⟩

/-! ### Ledgers -/

/-- **The reports are the ledger of the job.** -/
structure Ledger (job : Job) (reports : List Report) : Prop where
  attempts : job.attempts = reports.countP Report.isFail
  live : job.status.isTerminal = false → ∀ report ∈ reports, report.isFail = true
  completed : reports.countP Report.isComplete ≤ 1
  within : (reports.length : Int) ≤ job.maxAttempts

namespace Ledger

variable {job job' : Job} {reports : List Report}

theorem of_built (hbuilt : job.Built) (hallowed : 1 ≤ job.maxAttempts) : Ledger job [] := by
  refine ⟨hbuilt.attempts, fun _ _ h => absurd h List.not_mem_nil, Nat.zero_le 1, ?_⟩
  show (0 : Int) ≤ job.maxAttempts
  omega

theorem of_live (h : Ledger job reports) (hlive : job.status.isTerminal = false) :
    (reports.length : Int) = job.attempts ∧ reports.countP Report.isComplete = 0 := by
  have hfails := h.live hlive
  refine ⟨?_, List.countP_eq_zero.2 fun report hreport hcomplete => ?_⟩
  · rw [h.attempts, List.countP_eq_length.2 hfails]
  · have hfail := hfails report hreport
    cases report with
    | complete => cases hfail
    | fail => cases hcomplete
    | failPermanently => cases hcomplete

theorem keep (h : Ledger job reports) (hattempts : job'.attempts = job.attempts)
    (hmax : job'.maxAttempts = job.maxAttempts)
    (hlive : job'.status.isTerminal = false → job.status.isTerminal = false) :
    Ledger job' reports :=
  ⟨hattempts.trans h.attempts, fun hlive' => h.live (hlive hlive'), h.completed, hmax ▸ h.within⟩

/-- **One more report** on a job with an attempt left. -/
theorem cons (h : Ledger job reports) (hlive : job.status.isTerminal = false)
    (hleft : job.attempts < job.maxAttempts) (report : Report)
    (hattempts : job'.attempts = job.attempts + if report.isFail then 1 else 0)
    (hmax : job'.maxAttempts = job.maxAttempts)
    (hlive' : job'.status.isTerminal = false → report.isFail = true) :
    Ledger job' (report :: reports) := by
  obtain ⟨hlength, hcompleted⟩ := h.of_live hlive
  refine ⟨?_, fun hnext other hother => ?_, ?_, ?_⟩
  · rw [hattempts, h.attempts, List.countP_cons]
    split <;> simp
  · rcases List.mem_cons.1 hother with rfl | hother
    · exact hlive' hnext
    · exact h.live hlive other hother
  · rw [List.countP_cons, hcompleted]
    split <;> omega
  · rw [List.length_cons, hmax]
    push_cast
    omega

/-- **A move and the report that makes it** keep the ledger. -/
theorem move {now : Int} {call : Call} (h : Ledger job reports) (hjob : job.Consistent)
    (hmove : job.Move now call job') :
    Ledger job' ((call.report?.map fun made => made.2.2).toList ++ reports) := by
  have hlive := hmove.live
  have hleft := hjob.left hlive
  cases hmove with
  | claim => exact h.keep rfl rfl fun _ => hlive
  | @complete _ _ _ result =>
    exact h.cons hlive hleft (.complete result) (Int.add_zero _).symm rfl nofun
  | @retry _ _ _ error delay => exact h.cons hlive hleft (.fail error delay) rfl rfl fun _ => rfl
  | @exhaust _ _ _ error delay => exact h.cons hlive hleft (.fail error delay) rfl rfl nofun
  | @giveUp _ _ _ error =>
    exact h.cons hlive hleft (.failPermanently error) (Int.add_zero _).symm rfl nofun
  | cancel => exact h.keep rfl rfl nofun
  | recover => exact h.keep rfl rfl fun _ => hlive

end Ledger

/-! ### Attempts -/

/-- **What becomes of the attempts and the state of a job** by a report that is accepted, or by
whatever is none: an accepted failure is counted, and the job has failed just if that uses up the
attempts; all else leaves the attempts, and the job only fails by being given up. -/
structure Accounted (accepted : Option Report) (job job' : Job) : Prop where
  failure : accepted.any Report.isFail = true → job'.attempts = job.attempts + 1 ∧
    job'.status = if job'.attempts = job'.maxAttempts then .failed else .pending
  other : accepted.any Report.isFail = false → job'.attempts = job.attempts ∧
    (job'.status = .failed → job.status = .failed ∨
      accepted.any Report.isFailPermanently = true)

theorem Accounted.refl (job : Job) : Accounted none job job :=
  ⟨fun h => (nomatch h), fun _ => ⟨rfl, .inl⟩⟩

/-- **A move and the report that makes it** account for the attempts. -/
theorem Job.Move.accounted {now : Int} {call : Call} {job job' : Job}
    (h : job.Move now call job') (hjob : job.Consistent) :
    Accounted (call.report?.map fun made => made.2.2) job job' := by
  have hleft := hjob.left h.live
  cases h with
  | retry _ _ _ hmore =>
    exact ⟨fun _ => ⟨rfl, (if_neg (show job.attempts + 1 ≠ job.maxAttempts by omega)).symm⟩,
      fun h => (nomatch h)⟩
  | exhaust _ _ _ hlast =>
    exact ⟨fun _ => ⟨rfl, (if_pos (show job.attempts + 1 = job.maxAttempts by omega)).symm⟩,
      fun h => (nomatch h)⟩
  | giveUp => exact ⟨fun h => (nomatch h), fun _ => ⟨rfl, fun _ => .inr rfl⟩⟩
  | _ => exact ⟨fun h => (nomatch h), fun _ => ⟨rfl, fun h => (nomatch h)⟩⟩

/-! ### Accepted reports -/

namespace Sql.Store

/-- **The report on the job of the id that the store accepts** by the operation. -/
def acceptedOf (store : Store) (id : JobId) (op : Operation) : Option Report :=
  if (store.run op.call op.now).1.isOk then
    op.call.report?.bind fun (other, _, report) => if other = id then some report else none
  else none

/-- **The reports on the job of the id that the store accepted**, the latest first. -/
def acceptedReports (inFile : Bool) (id : JobId) : List Operation → List Report
  | [] => []
  | op :: earlier =>
    (acceptedOf (after inFile earlier) id op).toList ++ acceptedReports inFile id earlier

/-- What is reported on can be read: the payloads of the jobs, and the results. -/
def Answerable (history : List Operation) : Prop :=
  ∀ op ∈ history, ∀ id worker report, op.call.report? = some (id, worker, report) →
    report.Legible ∧ ∀ origin ∈ insertedJobs history, origin.id = id → origin.payload.Legible

theorem Answerable.suffix {earlier history : List Operation} (h : Answerable history)
    (hsuffix : earlier <:+ history) : Answerable earlier := by
  intro op hop id worker report hmade
  obtain ⟨hread, hpayload⟩ := h op (hsuffix.subset hop) id worker report hmade
  exact ⟨hread, fun origin horigin => hpayload origin (insertedJobs_suffix hsuffix horigin)⟩

variable {store : Store} {jobs : List Job} {id : JobId}

/-- **A report is accepted** just if the worker holds the job and all texts are read. -/
theorem isOk_report (h : store.Holds jobs) (hconsistent : ∀ job ∈ jobs, job.Consistent)
    (id : JobId) (worker : WorkerId) (report : Report) (now : Int) :
    (store.run (report.call id worker) now).1.isOk = true ↔
      Held jobs id worker ∧ store.LegibleAt id ∧ report.Legible := by
  cases report with
  | complete result =>
    exact (answer_of_transition h hconsistent (.complete result)
      (h.complete id worker result now)).1
  | fail error delay =>
    exact (answer_of_transition h hconsistent (.fail error delay)
      (h.fail id worker error delay now)).1
  | failPermanently error =>
    exact (answer_of_transition h hconsistent (.failPermanently error)
      (h.failPermanently id worker error now)).1

theorem legibleAt_of_find? (h : store.Holds jobs) {job : Job} (hfind : find? id jobs = some job)
    (hpayload : job.payload.Legible) : store.LegibleAt id := by
  intro row hrow
  rw [h.row?, hfind] at hrow
  rw [← Option.some.inj hrow]
  exact hpayload

/-- **A report that moves a job is accepted**, if all texts are read. -/
theorem acceptedOf_of_move (h : store.Holds jobs) (hconsistent : ∀ job ∈ jobs, job.Consistent)
    {op : Operation} {job job' : Job} (hfind : find? id jobs = some job)
    (hmove : job.Move op.now op.call job')
    (hlegible : ∀ worker report, op.call.report? = some (id, worker, report) →
      report.Legible ∧ job.payload.Legible) :
    store.acceptedOf id op = op.call.report?.map fun made => made.2.2 := by
  have hid := ((Call.find?_eq_some_iff h.distinct).1 hfind).2
  have hreport : ∀ (worker : WorkerId) (report : Report), op.call = report.call job.id worker →
      job.status = .running → job.claimedBy = some worker →
      store.acceptedOf id op = op.call.report?.map fun made => made.2.2 := by
    intro worker report hcall hstatus hworker
    have hmade : op.call.report? = some (id, worker, report) := by
      rw [hcall, hid]
      exact report.report?_call id worker
    obtain ⟨hread, hpayload⟩ := hlegible worker report hmade
    have hok : (store.run op.call op.now).1.isOk = true := by
      rw [hcall, hid]
      exact (isOk_report h hconsistent id worker report op.now).2
        ⟨⟨job, hfind, Call.isHeldBy_iff.2 ⟨hid, hstatus, hworker⟩⟩,
          legibleAt_of_find? h hfind hpayload, hread⟩
    unfold acceptedOf
    rw [if_pos hok, hmade]
    exact if_pos rfl
  have hother : op.call.report? = none →
      store.acceptedOf id op = op.call.report?.map fun made => made.2.2 := fun hnone => by
    unfold acceptedOf
    rw [hnone]
    exact ite_self none
  obtain ⟨call, now⟩ := op
  cases hmove with
  | @complete _ _ worker result hjob hstatus hworker =>
    exact hreport worker (.complete result) (by rw [hjob]; rfl) hstatus hworker
  | @retry _ _ worker error delay hjob hstatus hworker _ =>
    exact hreport worker (.fail error delay) (by rw [hjob]; rfl) hstatus hworker
  | @exhaust _ _ worker error delay hjob hstatus hworker _ =>
    exact hreport worker (.fail error delay) (by rw [hjob]; rfl) hstatus hworker
  | @giveUp _ _ worker error hjob hstatus hworker =>
    exact hreport worker (.failPermanently error) (by rw [hjob]; rfl) hstatus hworker
  | _ => exact hother rfl

/-- **What leaves the job as it is was not an accepted report.** -/
theorem acceptedOf_of_same (h : store.Holds jobs) (hconsistent : ∀ job ∈ jobs, job.Consistent)
    {op : Operation} (hsame : find? id (op.call.effect op.now jobs) = find? id jobs) :
    store.acceptedOf id op = none := by
  unfold acceptedOf
  split
  · next hok =>
    cases hmade : op.call.report? with
    | none => rfl
    | some made =>
      obtain ⟨other, worker, report⟩ := made
      show (if other = id then some report else none) = none
      by_cases hother : other = id
      · rw [hother] at hmade
        rw [Call.eq_of_report? hmade] at hok hsame
        obtain ⟨⟨job, hfind, hheld⟩, -⟩ := (isOk_report h hconsistent id worker report op.now).1 hok
        have htakes := (takes_report report op.now jobs job).trans hheld
        have hmove := Call.move_of_takes h.distinct
          ((Call.find?_eq_some_iff h.distinct).1 hfind).1 htakes
        rw [find?_report report op.now hfind htakes, hfind] at hsame
        exact absurd (congrArg Job.status (Option.some.inj hsame)) hmove.status_ne
      · exact if_neg hother
  · rfl

theorem acceptedOf_of_not_report {op : Operation} (hnone : op.call.report? = none) :
    store.acceptedOf id op = none := by
  unfold acceptedOf
  rw [hnone]
  exact ite_self none

/-! ### Histories -/

section History

variable (inFile : Bool)

/-- **What an operation does to a job and its ledger**: neither changes, or the job enters, moves by
the report that is accepted, if any, or is pruned. -/
theorem accepted_of_operation {op : Operation} {earlier : List Operation}
    (hbuilt : Inserting Job.Built (op :: earlier)) (hanswer : Answerable (op :: earlier))
    (id : JobId) :
    (find? id (jobsAfter (op :: earlier)) = find? id (jobsAfter earlier) ∧
      acceptedOf (after inFile earlier) id op = none) ∨
    Call.Change op.now op.call (find? id (jobsAfter earlier))
        (find? id (jobsAfter (op :: earlier))) ∧
      acceptedOf (after inFile earlier) id op = op.call.report?.map fun made => made.2.2 := by
  have hholds := holds_after inFile earlier (hbuilt.earlier.mono fun _ hjob => hjob.hasRoom)
  have hconsistent := consistent_of_mem_jobsAfter hbuilt.earlier
  rcases Call.change_of_effect op.call op.now hholds.distinct id with hsame | hchange
  · exact .inl ⟨hsame, acceptedOf_of_same hholds hconsistent hsame⟩
  · refine .inr ⟨hchange, ?_⟩
    have hlegible : ∀ job, find? id (jobsAfter earlier) = some job → ∀ worker report,
        op.call.report? = some (id, worker, report) → report.Legible ∧ job.payload.Legible := by
      intro job hfind worker report hmade
      obtain ⟨hread, hpayload⟩ := hanswer op List.mem_cons_self id worker report hmade
      obtain ⟨origin, horigin, hid, hsame⟩ := origin_of_find? (List.suffix_cons op earlier) hfind
      refine ⟨hread, ?_⟩
      rw [hsame.payload]
      exact hpayload origin horigin hid
    generalize hbefore : find? id (jobsAfter earlier) = before at hchange
    generalize find? id (op.call.effect op.now (jobsAfter earlier)) = next at hchange
    obtain ⟨call, now⟩ := op
    cases hchange with
    | enter => exact acceptedOf_of_not_report rfl
    | @move _ job _ hmove =>
      exact acceptedOf_of_move hholds hconsistent hbefore hmove (hlegible job hbefore)
    | prune => exact acceptedOf_of_not_report rfl

/-- **The ledger of every job**: what is accepted on an id before it is used is nothing, and what is
accepted on the job of an id is its ledger. -/
theorem ledger_after (id : JobId) : ∀ history : List Operation, Inserting Job.Built history →
    (insertedIds history).Nodup → Answerable history →
    (id ∉ insertedIds history → acceptedReports inFile id history = []) ∧
      ∀ job, find? id (jobsAfter history) = some job →
        Ledger job (acceptedReports inFile id history)
  | [], _, _, _ => ⟨fun _ => rfl, fun _ hfind => (nomatch hfind)⟩
  | op :: earlier, hbuilt, hids, hanswer => by
    have hidsEarlier : (insertedIds earlier).Nodup :=
      hids.sublist ((List.sublist_cons_self op earlier).filterMap _)
    obtain ⟨hunused, hledger⟩ :=
      ledger_after id earlier hbuilt.earlier hidsEarlier
        (hanswer.suffix (List.suffix_cons op earlier))
    have hused : ∀ {history : List Operation} {job : Job},
        find? id (jobsAfter history) = some job → id ∈ insertedIds history := fun hfind => by
      obtain ⟨hmem, hid⟩ := (Call.find?_eq_some_iff (distinct_jobsAfter _)).1 hfind
      rw [← hid]
      exact id_mem_insertedIds _ _ hmem
    have hmore : insertedIds earlier ⊆ insertedIds (op :: earlier) :=
      ((List.sublist_cons_self op earlier).filterMap _).subset
    unfold acceptedReports
    rcases accepted_of_operation inFile hbuilt hanswer id with ⟨hsame, hnone⟩ | ⟨hchange, hmade⟩
    · rw [hnone, hsame]
      exact ⟨fun hnew => hunused fun hold => hnew (hmore hold), hledger⟩
    · rw [hmade]
      generalize hbefore : find? id (jobsAfter earlier) = before at hchange
      generalize hnext : find? id (jobsAfter (op :: earlier)) = next at hchange
      obtain ⟨call, now⟩ := op
      cases hchange with
      | @enter job hallowed =>
        obtain rfl : job.id = id :=
          ((Call.find?_eq_some_iff (distinct_jobsAfter _)).1 hnext).2
        have hnew : job.id ∉ insertedIds earlier := (List.nodup_cons.1 hids).1
        rw [hunused hnew]
        refine ⟨fun _ => rfl, fun other hother => ?_⟩
        rw [← Option.some.inj hother]
        exact .of_built (hbuilt.latest rfl) hallowed
      | @move _ job job' hmove =>
        refine ⟨fun hnew => absurd (hmore (hused hbefore)) hnew, fun other hother => ?_⟩
        rw [← Option.some.inj hother]
        have hmem := ((Call.find?_eq_some_iff (distinct_jobsAfter earlier)).1 hbefore).1
        exact (hledger job hbefore).move
          (consistent_of_mem_jobsAfter hbuilt.earlier job hmem) hmove
      | prune =>
        exact ⟨fun hnew => absurd (hmore (hused hbefore)) hnew, fun _ hfind => (nomatch hfind)⟩

/-- **What is in the ledger of an id** was there when its job was last in the table. -/
theorem accepted_cases (id : JobId) : ∀ history : List Operation, Inserting Job.Built history →
    Answerable history → acceptedReports inFile id history = [] ∨
      ∃ earlier job, earlier <:+ history ∧ find? id (jobsAfter earlier) = some job ∧
        acceptedReports inFile id history = acceptedReports inFile id earlier
  | [], _, _ => .inl rfl
  | op :: earlier, hbuilt, hanswer => by
    have hkept : acceptedOf (after inFile earlier) id op = none →
        acceptedReports inFile id (op :: earlier) = [] ∨
          ∃ before job, before <:+ op :: earlier ∧ find? id (jobsAfter before) = some job ∧
            acceptedReports inFile id (op :: earlier) = acceptedReports inFile id before := by
      intro hnone
      have hsame : acceptedReports inFile id (op :: earlier) = acceptedReports inFile id earlier := by
        rw [acceptedReports, hnone]
        rfl
      rw [hsame]
      have hearlier := hanswer.suffix (List.suffix_cons op earlier)
      rcases accepted_cases id earlier hbuilt.earlier hearlier with hnil | hlast
      · exact .inl hnil
      · obtain ⟨before, job, hsuffix, hfind, heq⟩ := hlast
        exact .inr ⟨before, job, hsuffix.trans (List.suffix_cons op earlier), hfind, heq⟩
    rcases accepted_of_operation inFile hbuilt hanswer id with ⟨-, hnone⟩ | ⟨hchange, hmade⟩
    · exact hkept hnone
    · generalize find? id (jobsAfter earlier) = before at hchange
      generalize hnext : find? id (jobsAfter (op :: earlier)) = next at hchange
      obtain ⟨call, now⟩ := op
      cases hchange with
      | enter => exact hkept hmade
      | @move _ _ job' _ => exact .inr ⟨_, job', List.suffix_rfl, hnext, rfl⟩
      | prune => exact hkept hmade

/-- **Every operation accounts for the attempts** of the rows that it leaves. -/
theorem step_accounted {op : Operation} {earlier : List Operation}
    (hbuilt : Inserting Job.Built (op :: earlier)) (hanswer : Answerable (op :: earlier))
    {id : JobId} {job job' : Job} (hbefore : find? id (jobsAfter earlier) = some job)
    (hnext : find? id (jobsAfter (op :: earlier)) = some job') :
    Accounted (acceptedOf (after inFile earlier) id op) job job' := by
  rcases accepted_of_operation inFile hbuilt hanswer id with ⟨hsame, hnone⟩ | ⟨hchange, hmade⟩
  · obtain rfl : job' = job := Option.some.inj (hnext.symm.trans (hsame.trans hbefore))
    rw [hnone]
    exact .refl job'
  · rw [hbefore, hnext] at hchange
    rw [hmade]
    have hmem := ((Call.find?_eq_some_iff (distinct_jobsAfter earlier)).1 hbefore).1
    have hjob := consistent_of_mem_jobsAfter hbuilt.earlier job hmem
    generalize op.call = call at hchange
    cases hchange with
    | move hmove => exact hmove.accounted hjob

theorem length_accepted_le {history : List Operation} (hbuilt : Inserting Job.Built history)
    (hids : (insertedIds history).Nodup) (hanswer : Answerable history)
    {earlier : List Operation} (hsuffix : earlier <:+ history) {id : JobId} {job : Job}
    (hfind : find? id (jobsAfter earlier) = some job) :
    ((acceptedReports inFile id history).length : Int) ≤ job.maxAttempts := by
  obtain ⟨origin, horigin, hid, hsame⟩ := origin_of_find? hsuffix hfind
  rcases accepted_cases inFile id history hbuilt hanswer with hnil | ⟨before, last, hbefore, hlast, heq⟩
  · have hmem := ((Call.find?_eq_some_iff (distinct_jobsAfter earlier)).1 hfind).1
    have hjob := consistent_of_mem_jobsAfter (hbuilt.suffix hsuffix) job hmem
    have hmax := hjob.maxAttempts.1
    rw [hnil]
    show (0 : Int) ≤ job.maxAttempts
    omega
  · obtain ⟨origin', horigin', hid', hsame'⟩ := origin_of_find? hbefore hlast
    obtain rfl := origin_unique hids horigin' horigin (hid'.trans hid.symm)
    have hledger := (ledger_after inFile id before (hbuilt.suffix hbefore)
      (hids.sublist (hbefore.sublist.filterMap _)) (hanswer.suffix hbefore)).2 last hlast
    rw [heq, hsame.maxAttempts, ← hsame'.maxAttempts]
    exact hledger.within

theorem countP_isComplete_le {history : List Operation} (hbuilt : Inserting Job.Built history)
    (hids : (insertedIds history).Nodup) (hanswer : Answerable history) (id : JobId) :
    (acceptedReports inFile id history).countP Report.isComplete ≤ 1 := by
  rcases accepted_cases inFile id history hbuilt hanswer with hnil | ⟨before, last, hbefore, hlast, heq⟩
  · rw [hnil]
    exact Nat.zero_le 1
  · rw [heq]
    exact ((ledger_after inFile id before (hbuilt.suffix hbefore)
      (hids.sublist (hbefore.sublist.filterMap _)) (hanswer.suffix hbefore)).2 last hlast).completed

end History

end Sql.Store

end JobQueue

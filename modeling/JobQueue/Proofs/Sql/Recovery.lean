import JobQueue.Proofs.Sql.Claims

/-! # No job is stranded

A worker may vanish with a job, or its report may be lost; the job then runs for ever as far as its
row tells. A recovery with a threshold below the age of the claim puts it back, since a running job
always says since when it runs. From then on it is due at its time, and a claim at such a time takes
the job or one before it; so the job is handed over after at most as many claims as jobs are due.

* `before_of_nonneg`: a recovery never breaks down from the epoch on; `lt_cutoff`: which claims it
  takes, said in nanoseconds.
* `find?_recoverStale`: after it the job is pending.
* `exists_handover`: a due job is handed over by one of as many claims.
* `live_job_handed_over`: **no live job is stranded**, after any history. -/

namespace JobQueue

open MemoryStore

namespace Timestamp

theorem before_of_nonneg {now : Int} (h : 0 ≤ now) (d : Duration) :
    before now d = .ok (now - d.wholeMillis) := by
  have hlow : earliest ≤ now - d.wholeMillis := by
    unfold earliest Duration.wholeMillis
    omega
  exact if_pos hlow

/-- What is older than the duration is before its cutoff: rounding to milliseconds does not spare
it. -/
theorem lt_cutoff {now since : Int} {d : Duration}
    (h : (d.nanos : Int) < (now - since) * 1000000) : since < now - d.wholeMillis := by
  unfold Duration.wholeMillis
  omega

end Timestamp

/-- **After a recovery a live job is pending**, if it was not running or its claim was older than
the threshold. -/
theorem find?_recoverStale {jobs : List Job} {id : JobId} {job : Job} {threshold : Duration}
    {now : Int} (hfind : find? id jobs = some job) (hjob : job.Consistent)
    (hlive : job.status.isTerminal = false) (hnow : 0 ≤ now)
    (hstale : ∀ since, job.claimedAt = some since →
      (threshold.nanos : Int) < (now - since) * 1000000) :
    ∃ next, find? id ((Call.recoverStale threshold).effect now jobs) = some next ∧
      next.status = .pending ∧ next.queue = job.queue ∧ next.scheduledAt = job.scheduledAt ∧
      ∀ worker t, claimed next worker t = claimed job worker t := by
  have hcutoff := Timestamp.before_of_nonneg hnow threshold
  have htakes : (Call.recoverStale threshold).takes now jobs job =
      isStale (now - threshold.wholeMillis) job := Call.takes_recoverStale_of_ok hcutoff job
  have heffect : find? id ((Call.recoverStale threshold).effect now jobs) =
      some (if isStale (now - threshold.wholeMillis) job then requeued now job else job) := by
    show find? id ((Call.recoverStale threshold).turned now jobs) = _
    rw [Call.find?_turned, hfind, Option.map_some, htakes]
    rfl
  by_cases hstatus : job.status = .running
  · obtain ⟨since, hsince⟩ := Option.isSome_iff_exists.1 (hjob.claimedAt.1 hstatus)
    have hmet : isStale (now - threshold.wholeMillis) job = true := by
      unfold isStale
      rw [hstatus, hsince, Option.any_some, decide_eq_true (Timestamp.lt_cutoff (hstale since hsince))]
      rfl
    rw [hmet] at heffect
    exact ⟨requeued now job, heffect, rfl, rfl, rfl, fun _ _ => rfl⟩
  · have hmissed : isStale (now - threshold.wholeMillis) job = false := by
      unfold isStale
      rw [beq_eq_false_iff_ne.2 hstatus, Bool.false_and]
    rw [hmissed] at heffect
    refine ⟨job, heffect, ?_, rfl, rfl, fun _ _ => rfl⟩
    cases hpending : job.status with
    | pending => rfl
    | running => exact absurd hpending hstatus
    | _ =>
      rw [hpending] at hlive
      cases hlive

namespace Sql.Store

variable {store : Store} {jobs : List Job} {queue : QueueName} {t : Int}

theorem countP_isDue (h : store.Holds jobs) {due : List Job}
    (hdue : ∀ job, job ∈ due ↔ job ∈ claimable queue t jobs)
    (hordered : due.Pairwise fun a b => a.key < b.key) :
    store.rows.countP (Row.isDue queue t) = due.length := by
  have hnodup : due.Nodup := hordered.imp fun hlt heq => by
    rw [heq] at hlt
    exact lt_irrefl _ hlt
  have hperm : due.Perm (claimable queue t jobs) :=
    (List.perm_ext_iff_of_nodup hnodup
      (List.Nodup.of_map _ (distinct_claimable queue t h.distinct))).2 hdue
  have hcondition : Row.isDue queue t ∘ Row.ofJob = fun job : Job =>
      job.queue == queue && job.isClaimable t :=
    funext fun job => Row.isDue_ofJob job queue t
  rw [hperm.length_eq, h.rows, List.countP_map, hcondition, List.countP_eq_length_filter]
  rfl

/-- **A due job is handed over by one of as many claims as rows are due.** -/
theorem exists_handover (h : store.Holds jobs) {job : Job} (hjob : job ∈ claimable queue t jobs)
    {workers : List WorkerId}
    (hworkers : store.rows.countP (Row.isDue queue t) ≤ workers.length) :
    ∃ i worker, i < store.rows.countP (Row.isDue queue t) ∧ workers[i]? = some worker ∧
      (claims queue t workers store)[i]? = some (handover job worker t) := by
  obtain ⟨due, hdue, hordered⟩ := exists_ordered (distinct_claimable queue t h.distinct)
  have hcount := countP_isDue h hdue hordered
  rw [hcount] at hworkers ⊢
  obtain ⟨i, hi, rfl⟩ := List.mem_iff_getElem.1 ((hdue job).2 hjob)
  have hworker : i < workers.length := lt_of_lt_of_le hi hworkers
  refine ⟨i, workers[i], hi, List.getElem?_eq_getElem hworker, ?_⟩
  rw [claims_eq workers h hdue hordered, List.getElem?_append_left
    (by rw [List.length_zipWith]; omega), List.getElem?_zipWith, List.getElem?_eq_getElem hi,
    List.getElem?_eq_getElem hworker]

theorem Holds.findById_eq (h : store.Holds jobs) {id : JobId} {row : Row}
    (hrow : store.row? id = some row) : (store.findById id).1 = row.reading.map some := by
  obtain ⟨after, hanswer, -, -⟩ := h.findById id
  rw [h.row?] at hrow
  obtain ⟨job, hfind, rfl⟩ := Option.map_eq_some_iff.1 hrow
  rw [hanswer, hfind]

theorem Holds.reading_of_found (h : store.Holds jobs) {id : JobId} {row : Row} {found : Job}
    (hrow : store.row? id = some row) (hfound : (store.findById id).1 = .ok (some found)) :
    row.reading = .ok found := by
  rw [h.findById_eq hrow] at hfound
  cases hreading : row.reading with
  | error cause =>
    rw [hreading] at hfound
    cases hfound
  | ok read =>
    rw [hreading] at hfound
    rw [Option.some.inj (Except.ok.inj hfound)]

theorem reading_of_readsBack {job other : Job} (hjob : job.Consistent)
    (hlive : job.status.isTerminal = false) (hrow : Row.ofJob job = .ofJob other)
    (hpayload : other.payload.ReadsBack) : (Row.ofJob job).reading = .ok other := by
  have hattempts : job.attempts = other.attempts := Value.int.inj (congrArg Row.attempts hrow)
  have hmax : job.maxAttempts = other.maxAttempts := Value.int.inj (congrArg Row.maxAttempts hrow)
  have hresult : other.result = none := by
    have hnone := hjob.result_eq_none fun hstatus => by
      rw [hstatus] at hlive
      cases hlive
    have hsame : job.result.map _ = other.result.map _ := congrArg Row.result hrow
    rw [hnone] at hsame
    exact Option.map_eq_none_iff.1 hsame.symm
  rw [hrow]
  refine (Row.reading_ofJob (hattempts ▸ hjob.fitsInt32_attempts)
    (hmax ▸ hjob.fitsInt32_maxAttempts)).2 ⟨hpayload, fun result hsome => ?_⟩
  rw [hresult] at hsome
  cases hsome

/-- **No live job is stranded**, whatever the operations before: neither a pending job, nor a
running one whose claim is older than the threshold of a recovery, though its worker vanished or its
report was lost.

* The recovery succeeds, and of the claims of the job's queue after it, at a time when the job is
  due, one of as many as there are due rows takes the job.
* This claim is answered with what the claimed row is read as. That is the job as it was looked up
  before the recovery, but in the hands of the worker; a payload that is read back from its text is
  handed over as it entered, as every plain one is.
* It is answered with an error just if the text of the payload is not read as an object.
* So when the reader does its part for the objects that come with the calls, and payloads are not
  too deep for it, the claim returns the job as it was looked up, which is the job of the row if
  there are no floating-point numbers in its payload. -/
theorem live_job_handed_over (inFile : Bool) (history : List Operation)
    (hbuilt : Inserting Job.Built history) (id : JobId) (row : Row)
    (hrow : (after inFile history).row? id = some row) (hlive : row.isLive id = true)
    (threshold : Duration) (now : Int) (hnow : 0 ≤ now)
    (hstale : ∀ since, row.claimedAt = .int since →
      (threshold.nanos : Int) < (now - since) * 1000000)
    (t : Int) (hdue : row.scheduledAt.isAtMost (.int t) = true) :
    let store := after inFile history
    let recovery := store.recoverStale threshold now
    let due := recovery.2.rows.countP (Row.isDue row.queue t)
    recovery.1.isOk = true ∧ ∀ workers : List WorkerId, due ≤ workers.length →
      ∃ i worker answer, i < due ∧ workers[i]? = some worker ∧
        (claims row.queue t workers recovery.2)[i]? = some answer ∧
        answer = (row.claim worker t).reading.map some ∧
        (∀ job, (store.findById id).1 = .ok (some job) →
          answer = .ok (some (claimed job worker t))) ∧
        (∀ job, row = .ofJob job → job.payload.ReadsBack →
          answer = .ok (some (claimed job worker t))) ∧
        (answer.isOk = true ↔ (Json.parseFields? row.payload).isSome = true) ∧
        ((∀ op ∈ history, op.call.Trusted) → Inserting (fun job => job.payload.Shallow) history →
          ∃ stored job, row = .ofJob stored ∧ (store.findById id).1 = .ok (some job) ∧
            answer = .ok (some (claimed job worker t)) ∧
            (stored.payload.Moderate → job = stored)) := by
  intro store recovery due
  have h : store.Holds (jobsAfter history) :=
    holds_after inFile history (hbuilt.mono fun _ hjob => hjob.hasRoom)
  have hfound := hrow
  rw [h.row?] at hfound
  obtain ⟨job, hfind, rfl⟩ := Option.map_eq_some_iff.1 hfound
  have hmem : job ∈ jobsAfter history := ((Call.find?_eq_some_iff h.distinct).1 hfind).1
  have hjob := consistent_of_mem_jobsAfter hbuilt job hmem
  rw [Row.isLive_ofJob, Job.isLive, Bool.and_eq_true, Bool.not_eq_true'] at hlive
  -- The recovery puts the job back, if it was not pending.
  obtain ⟨next, hnext, hpending, hqueue, hscheduled, hclaimed⟩ :=
    find?_recoverStale hfind hjob hlive.2 hnow fun since hsince =>
      hstale since (by rw [Row.ofJob, hsince]; rfl)
  rcases h.recoverStale threshold now with
    ⟨cause, hbefore, -⟩ | ⟨cutoff, recovered, -, hanswer, hrecovered⟩
  · rw [Timestamp.before_of_nonneg hnow] at hbefore
    cases hbefore
  have hrecovery : recovery = (.ok _, recovered) := hanswer
  have hnextMem := ((Call.find?_eq_some_iff hrecovered.distinct).1 hnext).1
  have hrecoveredBuilt : Inserting Job.Built (⟨.recoverStale threshold, now⟩ :: history) :=
    inserting_cons.2 ⟨fun _ hcall => (by cases hcall), hbuilt⟩
  have hnextJob := consistent_of_mem_jobsAfter hrecoveredBuilt next hnextMem
  have hnextDue : next.IsDue job.queue t := by
    refine ⟨hqueue, hpending, ?_⟩
    rw [hscheduled]
    simpa [Row.ofJob] using hdue
  refine ⟨by rw [hrecovery]; rfl, fun workers hworkers => ?_⟩
  have hdueRows : due = recovered.rows.countP (Row.isDue job.queue t) := by
    show recovery.2.rows.countP _ = _
    rw [hrecovery]
    rfl
  rw [hdueRows] at hworkers ⊢
  obtain ⟨i, worker, hi, hworker, hclaim⟩ :=
    exists_handover hrecovered (mem_claimable.2 ⟨hnextMem, hnextDue⟩) hworkers
  have hhandover : handover next worker t = handover job worker t := by
    unfold handover
    rw [hclaimed]
  have hread : ∀ read, (Row.ofJob job).reading = .ok read →
      handover job worker t = .ok (some (claimed read worker t)) := fun read hread => by
    unfold handover
    rw [reading_claimed hjob hread]
    rfl
  refine ⟨i, worker, handover job worker t, hi, hworker, ?_, rfl,
    fun found hlooked => hread found (h.reading_of_found hrow hlooked),
    fun other hsame hpayload => hread other (reading_of_readsBack hjob hlive.2 hsame hpayload), ?_,
    fun htrusted hshallow => ?_⟩
  · rw [← hhandover, ← hclaim, hrecovery]
    rfl
  · have hsame := congrArg Job.payload (hclaimed worker t)
    have hpayload : next.payload = job.payload := hsame
    rw [← hhandover, (handover_of_consistent hnextJob hnextDue worker).1, hpayload]
    rfl
  · obtain ⟨read, hreading, hsame, hhanded⟩ := handedOver_of_trusted hjob hlive.2
      (payload_of_mem_jobsAfter (inserting_trusted htrusted) job hmem)
      (payload_of_mem_jobsAfter hshallow job hmem) t
    refine ⟨job, read, rfl, ?_, hhanded worker, hsame⟩
    rw [h.findById_eq hrow, hreading]
    rfl

/-- The job of a worker that vanished goes to the next worker. -/
theorem live_job_handed_over_of_vanished :
    let payload : Fields := [("n", .int 1)]
    let history := oneClaim payload
    let store := after true history
    let job := claimed (Request.toJob (.create "q" "t" payload) "a" 0 3) "w" 5
    let recovery := store.recoverStale ⟨1000000, by decide⟩ 10
    Inserting Job.Built history ∧ (∀ op ∈ history, op.call.Trusted) ∧
      Inserting (fun job => job.payload.Shallow) history ∧ store.row? "a" = some (.ofJob job) ∧
      recovery.2.rows.countP (Row.isDue "q" 10) = 1 ∧
      ∃ found, (store.findById "a").1 = .ok (some found) ∧
        (recovery.2.claimNext "q" "v" 10).1 = .ok (some (claimed found "v" 10)) := by
  intro payload history store job recovery
  have hrow : store.row? "a" = some (.ofJob job) := by decide +kernel
  have hcount : recovery.2.rows.countP (Row.isDue "q" 10) = 1 := by decide +kernel
  have hpayload : payload.Plain := ⟨by decide, by decide, by decide, by decide⟩
  have htrusted : ∀ op ∈ history, op.call.Trusted := brings_oneClaim hpayload.trusted
  have hshallow : Inserting (fun job => job.payload.Shallow) history :=
    inserting_oneClaim hpayload.shallow
  have hstale : ∀ since, (Row.ofJob job).claimedAt = .int since →
      ((1000000 : Nat) : Int) < (10 - since) * 1000000 := by
    intro since hsince
    obtain rfl : 5 = since := Value.int.inj hsince
    decide
  obtain ⟨-, hclaims⟩ := live_job_handed_over true history (built_oneClaim payload) "a"
    (.ofJob job) hrow (by decide +kernel) ⟨1000000, by decide⟩ 10 (by decide) hstale 10
    (by decide +kernel)
  obtain ⟨i, worker, answer, hi, hworker, hclaim, -, -, -, -, htrust⟩ := hclaims ["v"] hcount.le
  obtain rfl : i = 0 := Nat.lt_one_iff.1 (hcount ▸ hi)
  obtain rfl : "v" = worker := Option.some.inj hworker
  have hanswer : (recovery.2.claimNext "q" "v" 10).1 = answer := Option.some.inj hclaim
  obtain ⟨-, found, -, hfound, hgiven, -⟩ := htrust htrusted hshallow
  exact ⟨built_oneClaim payload, htrusted, hshallow, hrow, hcount, found, hfound,
    hanswer.trans hgiven⟩

end Sql.Store

end JobQueue

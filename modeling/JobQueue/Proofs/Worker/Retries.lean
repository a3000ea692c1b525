import JobQueue.Proofs.Worker.Outcome

/-! # What is decided is what is stored

When an attempt fails, two parties decide whether there is another one, and when: the worker asks
its retry policy about the job as it was given to it, and the store looks at the row as it is when
the failure is reported. In between others may have done anything to the store. They decide alike,
since a report takes effect only on the row that the worker claimed (`find?_of_held`), and a claim
is answered with the counters of the row.

* `delayFor_mono_base`: longer base delays make longer delays.
* `RetryDecision.recorded`: the row that a decision asks for; `failAttempt_ofJob_eq`: the store
  makes it of the row of the job.
* `failure_recorded_as_decided`: **a failure that is accepted is recorded as the policy decided**,
  whatever others did since the claim. -/

namespace JobQueue

open MemoryStore

/-! ### Decisions -/

theorem RetryPolicy.delayFor_mono_base {policy other : RetryPolicy}
    (h : policy.baseDelay.nanos ≤ other.baseDelay.nanos) (attempt : Int) :
    (policy.delayFor attempt).nanos ≤ (other.delayFor attempt).nanos := by
  have hscaled : policy.baseDelay.nanos * (max attempt 1).toNat ≤
      other.baseDelay.nanos * (max attempt 1).toNat := Nat.mul_le_mul_right _ h
  rw [nanos_delayFor, nanos_delayFor]
  exact min_le_min_right _ hscaled

/-- **The row that the decision asks for** after the attempt of this number has failed: due again
after the delay, as far as time goes, or failed for good. -/
def RetryDecision.recorded (decision : RetryDecision) (attempt : Int) (error : String) (now : Int)
    (row : Sql.Row) : Sql.Row :=
  let counted := { row with
    attempts := .int attempt, lastError := some error
    claimedBy := none, claimedAt := .null, updatedAt := .int now }
  match decision with
  | .retry delay => { counted with
      status := Status.pending.name
      scheduledAt := .int (min (now + delay.wholeMillis) Timestamp.latest) }
  | .exhausted => { counted with status := Status.failed.name }

namespace RetryPolicy

variable (policy : RetryPolicy)

theorem decide_of_lt {job : Job} (h : job.attempts + 1 < job.maxAttempts) :
    policy.decide job = .retry (policy.delayFor job.currentAttempt) := by
  unfold RetryPolicy.decide Job.isLastAttempt
  rw [if_neg (by simpa using h)]

theorem decide_of_le {job : Job} (h : job.maxAttempts ≤ job.attempts + 1) :
    policy.decide job = .exhausted := by
  unfold RetryPolicy.decide Job.isLastAttempt
  rw [if_pos (by simpa using h)]

theorem status_recorded (job : Job) (attempt : Int) (error : String) (now : Int) (row : Sql.Row) :
    let failed := (policy.decide job).recorded attempt error now row
    (failed.status = Status.pending.name ↔
        policy.decide job = .retry (policy.delayFor job.currentAttempt)) ∧
      (failed.status = Status.failed.name ↔ policy.decide job = .exhausted) := by
  by_cases hleft : job.attempts + 1 < job.maxAttempts
  · rw [policy.decide_of_lt hleft]
    exact ⟨iff_of_true rfl rfl, iff_of_false (show ¬ "pending" = "failed" by decide) nofun⟩
  · rw [policy.decide_of_le (Int.not_lt.1 hleft)]
    exact ⟨iff_of_false (show ¬ "failed" = "pending" by decide) nofun, iff_of_true rfl rfl⟩

theorem plan_eq_decide {job : Job} (h : job.attempts + 1 ≤ 2147483647) :
    policy.plan job = .ok (policy.decide job) := by
  unfold plan Job.attempt Job.currentAttempt
  rw [if_pos h]
  rfl

end RetryPolicy

/-- **The store decides like the policy** on a job with the same counters. -/
theorem failAttempt_ofJob_eq (policy : RetryPolicy) {job stored : Job}
    (hattempts : job.attempts = stored.attempts) (hmax : job.maxAttempts = stored.maxAttempts)
    (hroom : stored.attempts ≤ 2147483647) (error : String) (now : Int) :
    (Sql.Row.ofJob stored).failAttempt
        (Timestamp.later now (policy.delayFor job.currentAttempt)) error now =
      (policy.decide job).recorded job.currentAttempt error now (.ofJob stored) := by
  rw [Sql.Row.failAttempt_ofJob hroom]
  unfold Job.afterFailure
  by_cases hleft : stored.attempts + 1 < stored.maxAttempts
  · rw [if_pos hleft, policy.decide_of_lt (by rwa [hattempts, hmax])]
    unfold Job.currentAttempt
    rw [hattempts]
    rfl
  · rw [if_neg hleft, policy.decide_of_le (by rw [hattempts, hmax]; exact Int.not_lt.1 hleft)]
    unfold Job.currentAttempt
    rw [hattempts]
    rfl

/-! ### Claims -/

namespace Sql.Store

variable {inFile : Bool} {queue : QueueName} {worker : WorkerId} {t : Int} {job : Job}

/-- **A job that a claim is answered with** is what is read of the job that was claimed. -/
theorem exists_claimed_of_answer {store : Store} {jobs : List Job} (h : store.Holds jobs)
    (hanswer : (store.claimNext queue worker t).1 = .ok (some job)) :
    ∃ first, IsFirst (claimable queue t jobs) first ∧
      (Row.ofJob (claimed first worker t)).reading = .ok job := by
  have hclaim := h.claimNext queue worker t
  generalize store.claimNext queue worker t = answer at hanswer hclaim
  cases hclaim with
  | nothing => cases hanswer
  | @taken first _ hfirst _ =>
    refine ⟨first, hfirst, ?_⟩
    dsimp only at hanswer
    cases hread : (Row.ofJob (claimed first worker t)).reading with
    | error cause =>
      rw [hread] at hanswer
      cases hanswer
    | ok read =>
      rw [hread] at hanswer
      rw [Option.some.inj (Except.ok.inj hanswer)]

theorem exists_find?_of_answer {before : List Operation} (hbuilt : Inserting Job.Built before)
    (hanswer : ((after inFile before).claimNext queue worker t).1 = .ok (some job)) :
    ∃ stored, find? job.id (jobsAfter (⟨.claimNext queue worker, t⟩ :: before)) = some stored ∧
      stored.Consistent ∧ stored.status = .running ∧ job.attempts = stored.attempts ∧
      job.maxAttempts = stored.maxAttempts ∧ job.scheduledAt = stored.scheduledAt := by
  have h := holds_after inFile before (hbuilt.mono fun _ hjob => hjob.hasRoom)
  obtain ⟨first, hfirst, hread⟩ := exists_claimed_of_answer h hanswer
  have hmem := (mem_claimable.1 hfirst.mem).1
  have hclaimed : (claimed first worker t).Consistent :=
    (Call.move_of_isFirst hfirst worker).consistent (consistent_of_mem_jobsAfter hbuilt first hmem)
  refine ⟨claimed first worker t, ?_, hclaimed, rfl, ?_⟩
  · have hid : first.id = job.id := (hclaimed.id_of_reading hread).symm
    show find? job.id ((Call.claimNext queue worker).effect t (jobsAfter before)) = _
    rw [Call.find?_claimNext h.distinct hfirst, if_pos hid]
  · obtain ⟨payload, result, -, -, rfl⟩ := (Row.reading_eq_ok_iff hclaimed.fitsInt32_attempts
      hclaimed.fitsInt32_maxAttempts).1 hread
    exact ⟨rfl, rfl, rfl⟩

/-! ### Failures -/

/-- **A failure that is accepted** is recorded in the row that the worker holds, and the answer is
what is read of the row then. -/
theorem Holds.exists_held_of_fail {store : Store} {jobs : List Job} (h : store.Holds jobs)
    {id : JobId} {error : String} {delay : Duration} {now : Int}
    (haccepted : (store.fail id worker error delay now).1.isOk = true) :
    ∃ held, find? id jobs = some held ∧ held.isHeldBy id worker = true ∧
      let failed := (Row.ofJob held).failAttempt (Timestamp.later now delay) error now
      (store.fail id worker error delay now).2.row? id = some failed ∧
        (store.fail id worker error delay now).1 = failed.reading := by
  have htransition := h.fail id worker error delay now
  generalize store.fail id worker error delay now = answer at htransition haccepted ⊢
  cases htransition with
  | refused => cases haccepted
  | @taken held after hfind hheld hnext =>
    have hrunning : held.status = .running := (Call.isHeldBy_iff.1 hheld).2.1
    have hmem := ((Call.find?_eq_some_iff h.distinct).1 hfind).1
    have hroom : held.attempts ≤ 2147483647 := (h.room held hmem).attempts (by rw [hrunning]; rfl)
    refine ⟨held, hfind, hheld, ?_, ?_⟩
    · rw [Row.failAttempt_ofJob hroom, hnext.row?]
      exact congrArg (Option.map Row.ofJob) (find?_report (.fail error delay) now hfind hheld)
    · rw [Row.failAttempt_ofJob hroom]
      rfl

/-- **A failure that is accepted is recorded as the policy decided.** A worker claims after any
history of jobs that enter as they are built, and is given a job; others, who do not act for it, do
what they like; then it reports that the attempt has failed, with the delay that its policy has for
the attempt. If the report is accepted:

* The row is still the one that it claimed, and it becomes the one that the policy's decision about
  the given job asks for: pending, and due after the delay or at the latest time, just if the
  decision was to retry; failed, with its due time unchanged, just if the attempts are exhausted.
  The attempt can be counted, and the answer is what is read of the row.
* The delay is the base delay times the number of the attempt, at most the longest duration, to the
  nanosecond; so it grows with the number and with the base delay. -/
theorem failure_recorded_as_decided (inFile : Bool) (before later : List Operation)
    (queue : QueueName) (worker : WorkerId) (t : Int)
    (hbuilt : Inserting Job.Built (later ++ ⟨.claimNext queue worker, t⟩ :: before))
    (hothers : ∀ op ∈ later, op.call.worker? ≠ some worker) (job : Job)
    (hclaim : ((after inFile before).claimNext queue worker t).1 = .ok (some job))
    (policy : RetryPolicy) (error : String) (now : Int)
    (haccepted : ((after inFile (later ++ ⟨.claimNext queue worker, t⟩ :: before)).fail job.id
      worker error (policy.delayFor job.currentAttempt) now).1.isOk = true) :
    let claimed := after inFile (⟨.claimNext queue worker, t⟩ :: before)
    let store := after inFile (later ++ ⟨.claimNext queue worker, t⟩ :: before)
    let delay := policy.delayFor job.currentAttempt
    let answer := store.fail job.id worker error delay now
    (∃ row, claimed.row? job.id = some row ∧ store.row? job.id = some row ∧
        row.scheduledAt = .int job.scheduledAt ∧
        let failed := (policy.decide job).recorded job.currentAttempt error now row
        answer.2.row? job.id = some failed ∧ answer.1 = failed.reading ∧
          (failed.status = Status.pending.name ↔ policy.decide job = .retry delay) ∧
          (failed.status = Status.failed.name ↔ policy.decide job = .exhausted)) ∧
      policy.plan job = .ok (policy.decide job) ∧
      (∀ attempt, (policy.delayFor attempt).nanos =
        min (policy.baseDelay.nanos * (max attempt 1).toNat) Duration.longest.nanos) ∧
      (∀ a b, a ≤ b → (policy.delayFor a).nanos ≤ (policy.delayFor b).nanos) ∧
      ∀ other : RetryPolicy, policy.baseDelay.nanos ≤ other.baseDelay.nanos →
        ∀ attempt, (policy.delayFor attempt).nanos ≤ (other.delayFor attempt).nanos := by
  intro claimed store delay answer
  obtain ⟨stored, hfind, hconsistent, hrunning, hattempts, hmax, hscheduled⟩ :=
    exists_find?_of_answer (hbuilt.suffix (List.suffix_append later _)).earlier hclaim
  have hroom : Inserting Job.HasRoom (later ++ ⟨.claimNext queue worker, t⟩ :: before) :=
    hbuilt.mono fun _ hjob => hjob.hasRoom
  have hholds := holds_after inFile _ hroom
  have hlive : stored.status.isTerminal = false := by
    rw [hrunning]
    rfl
  have hleft : job.attempts + 1 ≤ 2147483647 := by
    have hleft := hconsistent.left hlive
    have hfits := hconsistent.maxAttempts
    omega
  refine ⟨?_, policy.plan_eq_decide hleft, policy.nanos_delayFor,
    fun a b => policy.delayFor_mono, fun other => RetryPolicy.delayFor_mono_base⟩
  have hclaimed : claimed.row? job.id = some (.ofJob stored) := by
    rw [row?_after inFile (hroom.suffix (List.suffix_append later _)), hfind]
    rfl
  obtain ⟨held, hfound, hheld, hrow, hanswer⟩ := hholds.exists_held_of_fail haccepted
  have hsame := find?_of_held hbuilt hothers ⟨held, hfound, hheld⟩
  -- What the worker holds is what it claimed.
  obtain rfl : held = stored := Option.some.inj (hfound.symm.trans (hsame.trans hfind))
  rw [failAttempt_ofJob_eq policy hattempts hmax (by omega)] at hrow hanswer
  refine ⟨.ofJob held, hclaimed, ?_, by rw [hscheduled]; rfl, hrow, hanswer,
    policy.status_recorded job _ error now _⟩
  rw [hholds.row?, hfound]
  rfl

/-- A recovery that finds the claim too young does not keep its worker from reporting a failure, and
the job is due again two seconds later. -/
theorem failure_recorded_after_recovery :
    let job := claimed (Request.toJob (.create "q" "t" []) "a" 0 3) "w" 5
    let later : List Operation := [⟨.recoverStale (.ofSecs 60), 7⟩]
    let policy : RetryPolicy := ⟨.ofSecs 2⟩
    let store := after true (later ++ oneClaim [])
    let answer := store.fail "a" "w" "boom" (policy.delayFor job.currentAttempt) 9
    Inserting Job.Built (later ++ oneClaim []) ∧ (∀ op ∈ later, op.call.worker? ≠ some "w") ∧
      ((after true (oneJob [])).claimNext "q" "w" 5).1 = .ok (some job) ∧
      answer.1.isOk = true ∧
      ∃ row, answer.2.row? "a" = some row ∧ row.status = "pending" ∧ row.attempts = .int 1 ∧
        row.scheduledAt = .int 2009 := by
  intro job later policy store answer
  have hbuilt : Inserting Job.Built (later ++ oneClaim []) :=
    inserting_cons.2 ⟨fun _ hjob => (nomatch hjob), built_oneClaim []⟩
  have hothers : ∀ op ∈ later, op.call.worker? ≠ some "w" := by decide
  have hclaim : ((after true (oneJob [])).claimNext "q" "w" 5).1 = .ok (some job) := rfl
  have haccepted : answer.1.isOk = true := by decide +kernel
  obtain ⟨⟨row, -, -, -, hfailed, -⟩, -⟩ := failure_recorded_as_decided true (oneJob []) later
    "q" "w" 5 hbuilt hothers job hclaim policy "boom" 9 haccepted
  have hdue : Timestamp.later 9 (policy.delayFor job.currentAttempt) = 2009 := by decide +kernel
  exact ⟨hbuilt, hothers, hclaim, haccepted, _, hfailed, rfl, rfl, congrArg Sql.Value.int hdue⟩

end Sql.Store

end JobQueue

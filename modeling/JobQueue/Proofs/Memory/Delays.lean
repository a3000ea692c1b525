import JobQueue.Proofs.Memory.History
import JobQueue.Retry

/-! # Delays beyond the latest time

A failed attempt that is not the last one makes the job due again after a delay. The store in memory
adds the delay to the present. As long as the sum is a point in time, the job waits until then, and
nothing else in the store changes. When it is not, the store breaks down in the middle of the change,
and so does every later call: the lock on its jobs stays poisoned. The database stops at the latest
time instead (`Timestamp.later`), as enqueueing does in either store.

At the epoch no delay is too long; from the next millisecond on the longest delays are.

* `MemoryStore.failed_retried`, `MemoryStore.failed_beyond`: the change of the job.
* `MemoryStore.run_of_broken`: a broken store answers no call.
* `MemoryStore.fail_by_delay`: **a failure is recorded just if its delay ends in time.**
* `MemoryStore.fail_beyond_latest`: a delay that a retry policy asks for, and that does not. -/

namespace JobQueue.MemoryStore

variable {jobs : List Job} {job : Job} {worker : WorkerId} {now : Int} {delay : Duration}

theorem held_of_mem (hdistinct : (jobs.map Job.id).Nodup) (hjob : job ∈ jobs)
    (hrunning : job.status = .running) (hholder : job.claimedBy = some worker) :
    held job.id worker jobs = .ok job := by
  have hfind : find? job.id jobs = some job := (Call.find?_eq_some_iff hdistinct).2 ⟨hjob, rfl⟩
  unfold held
  simp [hfind, hrunning, hholder]

/-- **The delay ends in time**: the job is due then, or at the latest time if that is the same. -/
theorem failed_retried (hleft : job.attempts + 1 < job.maxAttempts)
    (hcounter : job.maxAttempts ≤ 2147483647) (htime : now + delay.wholeMillis ≤ Timestamp.latest)
    (error : String) : (failed job error delay now).map (Job.release · now) =
      .ok (job.retried (min (now + delay.wholeMillis) Timestamp.latest) error now) := by
  have hnext : job.attempts < 2147483647 := by omega
  rw [failed_eq now hnext htime error]
  unfold Job.afterFailure Timestamp.later
  rw [if_pos hleft]

theorem failed_beyond (hleft : job.attempts + 1 < job.maxAttempts)
    (hcounter : job.maxAttempts ≤ 2147483647) (htime : Timestamp.latest < now + delay.wholeMillis)
    (error : String) : failed job error delay now = .error .sum := by
  have hattempt : job.attempt = .ok (job.attempts + 1) := if_pos (by
    unfold Job.currentAttempt
    omega)
  have hafter : Timestamp.after now delay = .error .sum := if_neg (by omega)
  unfold failed
  simp only [hattempt, hafter, bind, Except.bind, if_pos hleft]

/-- **The store breaks down in the middle of the change** when the delay does not end in time. -/
theorem fail_beyond (hdistinct : (jobs.map Job.id).Nodup) (hjob : job ∈ jobs)
    (hrunning : job.status = .running) (hholder : job.claimedBy = some worker)
    (hleft : job.attempts + 1 < job.maxAttempts) (hcounter : job.maxAttempts ≤ 2147483647)
    (htime : Timestamp.latest < now + delay.wholeMillis) (error : String) :
    (ofJobs jobs).run (.fail job.id worker error delay) now =
      (.error (.breakdown .sum), { ofJobs jobs with broken := true }) := by
  have hheld : held job.id worker (ofJobs jobs).jobs = .ok job :=
    held_of_mem hdistinct hjob hrunning hholder
  show (ofJobs jobs).fail job.id worker error delay now = _
  unfold fail
  rw [hheld]
  dsimp only
  rw [failed_beyond hleft hcounter htime error]
  rfl

/-- **A broken store answers no call**, and stays as it is. -/
theorem run_of_broken {store : MemoryStore} (havailable : store.available = true)
    (hbroken : store.broken = true) (call : Call) (t : Int) :
    ∃ cause, store.run call t = (.error (.breakdown cause), store) := by
  have hcheck : ∃ cause, store.check call t = .error (.breakdown cause) := by
    unfold check reachable intact
    rw [if_pos havailable, if_pos hbroken]
    cases prepare call t with
    | error cause => exact ⟨cause, rfl⟩
    | ok => exact ⟨.poisoned, rfl⟩
  obtain ⟨cause, hcheck⟩ := hcheck
  refine ⟨cause, ?_⟩
  unfold MemoryStore.run
  rw [hcheck]

/-- **What comes of a failure with a delay**, reported by the worker that holds the job,
when attempts are left:

* If the delay ends in time, the answer is the job as it then is: pending, nobody's, attempted once
  more, and due after the delay, which is not before now. It takes its place among the jobs, all
  others stay as they are, and the store takes calls as one with these jobs does.
* Else the call breaks down, and so does every later one, whatever it asks. -/
theorem fail_by_delay (hdistinct : (jobs.map Job.id).Nodup) (hjob : job ∈ jobs)
    (hrunning : job.status = .running) (hholder : job.claimedBy = some worker)
    (hleft : job.attempts + 1 < job.maxAttempts) (hcounter : job.maxAttempts ≤ 2147483647)
    (hnow : now ≤ Timestamp.latest) (error : String) (delay : Duration) :
    let answer := (ofJobs jobs).run (.fail job.id worker error delay) now
    let due := min (now + delay.wholeMillis) Timestamp.latest
    let retried := { job with
      status := .pending, scheduledAt := due, attempts := job.attempts + 1, lastError := some error
      claimedBy := none, claimedAt := none, updatedAt := now }
    now ≤ due ∧
      (now + delay.wholeMillis ≤ Timestamp.latest → answer =
        (.ok retried, ofJobs (jobs.map fun other => if other.id = job.id then retried else other))) ∧
      (Timestamp.latest < now + delay.wholeMillis → answer.1 = .error (.breakdown .sum) ∧
        ∀ call t, ∃ cause, answer.2.run call t = (.error (.breakdown cause), answer.2)) := by
  intro answer due retried
  have hdelay := delay.wholeMillis_nonneg
  have hheld : held job.id worker (ofJobs jobs).jobs = .ok job :=
    held_of_mem hdistinct hjob hrunning hholder
  have hcall : answer = (ofJobs jobs).fail job.id worker error delay now := rfl
  refine ⟨by omega, fun htime => ?_, fun htime => ?_⟩
  · have hchange := failed_retried hleft hcounter htime error
    rw [hcall]
    unfold fail
    rw [hheld]
    dsimp only
    cases hfailed : failed job error delay now with
    | error cause =>
      rw [hfailed] at hchange
      cases hchange
    | ok changed =>
      rw [hfailed] at hchange
      have hretried : changed.release now = retried := Except.ok.inj hchange
      dsimp only
      rw [hretried]
      rfl
  · have hbroken : answer = (.error (.breakdown .sum), { ofJobs jobs with broken := true }) :=
      fail_beyond hdistinct hjob hrunning hholder hleft hcounter htime error
    rw [hbroken]
    exact ⟨rfl, run_of_broken rfl rfl⟩

/-- At the epoch even the longest delay ends in time: at the latest time there is. -/
theorem fail_by_delay_at_epoch :
    let job := claimed (Job.create "a" 0 "q" "t" [] 0 3) "w" 0
    let other := Job.create "b" 0 "q" "t" [] 0 3
    let answer := (ofJobs [job, other]).run (.fail "a" "w" "boom" .longest) 0
    ∃ retried, answer = (.ok retried, ofJobs [retried, other]) ∧ retried.status = .pending ∧
      retried.scheduledAt = Timestamp.latest := by
  intro job other answer
  have hdistinct : ([job, other].map Job.id).Nodup := by decide
  have htime : 0 + Duration.longest.wholeMillis ≤ Timestamp.latest := by decide +kernel
  have hholder : job.claimedBy = some "w" := rfl
  have hnow : (0 : Int) ≤ Timestamp.latest := by decide
  obtain ⟨-, hretried, -⟩ := fail_by_delay hdistinct List.mem_cons_self rfl hholder (by decide)
    (by decide) hnow "boom" .longest
  have hdue : min (0 + Duration.longest.wholeMillis) Timestamp.latest = Timestamp.latest := by
    decide +kernel
  exact ⟨_, hretried htime, rfl, hdue⟩

/-- **A delay that a retry policy asks for breaks the store in memory**: a millisecond after the epoch
the longest delay ends too late. The failure is not recorded, and afterwards nothing can be looked up.
The database makes a job due at the latest time for the same delay. -/
theorem fail_beyond_latest :
    let job := claimed (Job.create "a" 0 "q" "t" [] 0 3) "w" 1
    let delay := RetryPolicy.delayFor ⟨.longest⟩ job.currentAttempt
    let answer := (ofJobs [job]).run (.fail "a" "w" "boom" delay) 1
    answer.1 = .error (.breakdown .sum) ∧
      (answer.2.run (.findById "a") 2).1 = .error (.breakdown .poisoned) ∧
      ((Sql.Store.after true (oneClaim [])).fail "a" "w" "boom" delay 6).2.rows.map
        Sql.Row.scheduledAt = [.int Timestamp.latest] := by
  intro job delay answer
  have htime : Timestamp.latest < 1 + delay.wholeMillis := by decide +kernel
  have hdistinct : ([job].map Job.id).Nodup := List.nodup_singleton _
  have hleft : job.attempts + 1 < job.maxAttempts := by decide
  have hbroken : answer = (.error (.breakdown .sum), { ofJobs [job] with broken := true }) :=
    fail_beyond hdistinct List.mem_cons_self rfl rfl hleft (by decide) htime "boom"
  rw [hbroken]
  exact ⟨rfl, rfl, by decide +kernel⟩

end JobQueue.MemoryStore

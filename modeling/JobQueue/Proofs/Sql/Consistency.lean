import JobQueue.Proofs.Sql.History

/-! # Jobs are consistent

The fields of a job depend on each other (`Job.Consistent`): who holds it and since when is known
just while it runs, its result when it is completed, its last error once an attempt has failed, and
while it has not ended an attempt is left. A job built for a request is consistent
(`Job.Built.consistent`), and every move keeps it so (`Job.Move.consistent`), although each move
sets only some of the fields; so all rows of a store are those of consistent jobs.

* `Job.Consistent.reading`, `Job.Consistent.isOk_reading`: when a consistent job can be read back.
* `consistent_of_mem_jobsAfter`: all jobs after a history.
* `rows_consistent`: **all rows after a history.** The next attempt can be counted. -/

namespace JobQueue

open MemoryStore

/-- **The fields of the job agree.** -/
structure Job.Consistent (job : Job) : Prop where
  attempts : 0 ≤ job.attempts ∧ job.attempts ≤ job.maxAttempts
  maxAttempts : 1 ≤ job.maxAttempts ∧ job.maxAttempts ≤ 2147483647
  /-- A job that has not ended has an attempt left. -/
  left : job.status.isTerminal = false → job.attempts < job.maxAttempts
  claimedBy : job.status = .running ↔ job.claimedBy.isSome = true
  claimedAt : job.status = .running ↔ job.claimedAt.isSome = true
  claimTime : job.status = .running → job.claimedAt = some job.updatedAt
  result : job.status = .completed ↔ job.result.isSome = true
  failure : job.status = .failed → job.lastError.isSome = true
  lastError : 0 < job.attempts → job.lastError.isSome = true

namespace Job

theorem Built.consistent {job : Job} (h : job.Built) (hallowed : 1 ≤ job.maxAttempts) :
    job.Consistent := by
  have hmax := h.maxAttempts.2
  refine ⟨?_, ⟨hallowed, hmax⟩, ?_, ?_, ?_, ?_, ?_, ?_, ?_⟩
  · rw [h.attempts]
    omega
  · rw [h.attempts]
    omega
  · rw [h.status, h.claimedBy]
    exact iff_of_false nofun nofun
  · rw [h.status, h.claimedAt]
    exact iff_of_false nofun nofun
  · rw [h.status]
    exact nofun
  · rw [h.status, h.result]
    exact iff_of_false nofun nofun
  · rw [h.status]
    exact nofun
  · rw [h.attempts]
    exact nofun

namespace Consistent

variable {job : Job}

theorem result_eq_none (h : job.Consistent) (hstatus : job.status ≠ .completed) :
    job.result = none :=
  Option.not_isSome_iff_eq_none.1 fun hsome => hstatus (h.result.2 hsome)

theorem of_release {now : Int} (hrunning : job.status ≠ .running)
    (hattempts : 0 ≤ job.attempts ∧ job.attempts ≤ job.maxAttempts)
    (hmax : 1 ≤ job.maxAttempts ∧ job.maxAttempts ≤ 2147483647)
    (hleft : job.status.isTerminal = false → job.attempts < job.maxAttempts)
    (hresult : job.status = .completed ↔ job.result.isSome = true)
    (hfailure : job.status = .failed → job.lastError.isSome = true)
    (herror : 0 < job.attempts → job.lastError.isSome = true) : (job.release now).Consistent :=
  ⟨hattempts, hmax, hleft, iff_of_false hrunning nofun, iff_of_false hrunning nofun,
    fun hstatus => absurd hstatus hrunning, hresult, hfailure, herror⟩

end Consistent

/-- **Every move keeps the fields in agreement.** -/
theorem Move.consistent {now : Int} {call : Call} {job job' : Job} (h : Move now call job job')
    (hjob : job.Consistent) : job'.Consistent := by
  -- A job that moves has not ended: an attempt is left, and there is no result yet.
  have hleft := hjob.left h.live
  have hresult := hjob.result_eq_none h.status_ne_completed
  obtain ⟨hlow, hhigh⟩ := hjob.attempts
  have hnoResult : ∀ {status : Status}, status ≠ .completed →
      (status = .completed ↔ job.result.isSome = true) := by
    intro status hstatus
    rw [hresult]
    exact iff_of_false hstatus nofun
  cases h with
  | claim =>
    exact ⟨hjob.attempts, hjob.maxAttempts, fun _ => hleft, iff_of_true rfl rfl,
      iff_of_true rfl rfl, fun _ => rfl, hnoResult nofun, nofun, hjob.lastError⟩
  | complete =>
    exact .of_release nofun hjob.attempts hjob.maxAttempts nofun (iff_of_true rfl rfl) nofun
      hjob.lastError
  | retry _ _ _ hmore =>
    have hcounted : 0 ≤ job.attempts + 1 ∧ job.attempts + 1 ≤ job.maxAttempts := by omega
    exact .of_release nofun hcounted hjob.maxAttempts (fun _ => hmore) (hnoResult nofun) nofun
      fun _ => rfl
  | exhaust =>
    have hcounted : 0 ≤ job.attempts + 1 ∧ job.attempts + 1 ≤ job.maxAttempts := by omega
    exact .of_release nofun hcounted hjob.maxAttempts nofun (hnoResult nofun) (fun _ => rfl)
      fun _ => rfl
  | giveUp =>
    exact .of_release nofun hjob.attempts hjob.maxAttempts nofun (hnoResult nofun) (fun _ => rfl)
      fun _ => rfl
  | cancel =>
    exact .of_release nofun hjob.attempts hjob.maxAttempts nofun (hnoResult nofun) nofun
      hjob.lastError
  | recover =>
    exact .of_release nofun hjob.attempts hjob.maxAttempts (fun _ => hleft) (hnoResult nofun) nofun
      hjob.lastError

namespace Consistent

variable {job : Job}

theorem fitsInt32_attempts (h : job.Consistent) : FitsInt32 job.attempts := by
  have hattempts := h.attempts
  have hmax := h.maxAttempts
  unfold FitsInt32
  omega

theorem fitsInt32_maxAttempts (h : job.Consistent) : FitsInt32 job.maxAttempts := by
  have hmax := h.maxAttempts
  unfold FitsInt32
  omega

theorem attempt_eq (h : job.Consistent) (hlive : job.status.isTerminal = false) :
    job.attempt = .ok (job.attempts + 1) := by
  have hleft := h.left hlive
  have hmax := h.maxAttempts
  unfold Job.attempt
  exact if_pos (show job.attempts + 1 ≤ 2147483647 by omega)

end Consistent

end Job

/-! ### Reading consistent jobs -/

namespace Job.Consistent

variable {job : Job}

theorem reading (h : job.Consistent) :
    (Sql.Row.ofJob job).reading = .ok job ↔ job.ReadsBack :=
  Sql.Row.reading_ofJob h.fitsInt32_attempts h.fitsInt32_maxAttempts

theorem isOk_reading (h : job.Consistent) :
    (Sql.Row.ofJob job).reading.isOk = true ↔ job.Legible :=
  Sql.Row.isOk_reading_ofJob h.fitsInt32_attempts h.fitsInt32_maxAttempts

theorem id_of_reading (h : job.Consistent) {job' : Job}
    (hread : (Sql.Row.ofJob job).reading = .ok job') : job'.id = job.id := by
  obtain ⟨_, _, -, -, rfl⟩ :=
    (Sql.Row.reading_eq_ok_iff h.fitsInt32_attempts h.fitsInt32_maxAttempts).1 hread
  rfl

theorem readsBack_iff (h : job.Consistent) (hstatus : job.status ≠ .completed) :
    job.ReadsBack ↔ job.payload.ReadsBack := by
  refine ⟨fun hjob => hjob.payload, fun hpayload => ⟨hpayload, fun result hresult => ?_⟩⟩
  rw [h.result_eq_none hstatus] at hresult
  cases hresult

theorem legible_iff (h : job.Consistent) (hstatus : job.status ≠ .completed) :
    job.Legible ↔ job.payload.Legible := by
  refine ⟨fun hjob => hjob.payload, fun hpayload => ⟨hpayload, fun result hresult => ?_⟩⟩
  rw [h.result_eq_none hstatus] at hresult
  cases hresult

/-- **A job that is not completed is read** when the reader does its part for its payload, and as the
same job if there are no floating-point numbers in it. -/
theorem exists_reading_of_trusted (h : job.Consistent) (hstatus : job.status ≠ .completed)
    (htrusted : job.payload.Trusted) (hshallow : job.payload.Shallow) :
    ∃ read, (Sql.Row.ofJob job).reading = .ok read ∧ (job.payload.Moderate → read = job) := by
  have hok := h.isOk_reading.2 ((h.legible_iff hstatus).2 (htrusted.legible hshallow))
  cases hread : (Sql.Row.ofJob job).reading with
  | error e =>
    rw [hread] at hok
    cases hok
  | ok read =>
    refine ⟨read, rfl, fun hmoderate => ?_⟩
    have hself := h.reading.2 ((h.readsBack_iff hstatus).2 (htrusted.readsBack hmoderate))
    exact Except.ok.inj (hread.symm.trans hself)

end Job.Consistent

theorem consistent_of_mem_jobsAfter {history : List Operation}
    (h : Inserting Job.Built history) : ∀ job ∈ jobsAfter history, job.Consistent :=
  forall_mem_jobsAfter (fun _ hbuilt hallowed => hbuilt.consistent hallowed)
    (fun _ _ _ _ hmove hjob => hmove.consistent hjob) history h

namespace Sql.Store

/-- **All rows are those of consistent jobs**, whatever the operations and the clocks, when jobs
enter as they are built for requests; and while a job has not ended, counting its next attempt
leaves it within 32 bits. -/
theorem rows_consistent (inFile : Bool) (history : List Operation)
    (hbuilt : Inserting Job.Built history) : ∀ row ∈ (after inFile history).rows,
      ∃ job, row = Row.ofJob job ∧ job.Consistent ∧
        (job.status.isTerminal = false → job.attempt = .ok (job.attempts + 1) ∧
          FitsInt32 (job.attempts + 1)) := by
  intro row hrow
  rw [(holds_after inFile history (hbuilt.mono fun _ hjob => hjob.hasRoom)).rows] at hrow
  obtain ⟨job, hjob, rfl⟩ := List.mem_map.1 hrow
  have hconsistent := consistent_of_mem_jobsAfter hbuilt job hjob
  refine ⟨job, rfl, hconsistent, fun hlive => ⟨hconsistent.attempt_eq hlive, ?_⟩⟩
  have hleft := hconsistent.left hlive
  have hlow := hconsistent.attempts.1
  have hmax := hconsistent.maxAttempts.2
  unfold FitsInt32
  omega

/-- After a failed attempt the row of the job is that of a consistent job. -/
theorem rows_consistent_of_failure :
    let history := ⟨.fail "a" "w" "late" ⟨0, by decide⟩, 7⟩ :: oneClaim []
    Inserting Job.Built history ∧ (after true history).rows.length = 1 ∧
      ∀ row ∈ (after true history).rows, ∃ job, row = Row.ofJob job ∧ job.Consistent ∧
        (job.status.isTerminal = false → job.attempt = .ok (job.attempts + 1) ∧
          FitsInt32 (job.attempts + 1)) := by
  intro history
  have hbuilt : Inserting Job.Built history :=
    inserting_cons.2 ⟨fun _ hjob => (nomatch hjob), built_oneClaim []⟩
  exact ⟨hbuilt, by decide +kernel, rows_consistent true history hbuilt⟩

end Sql.Store

end JobQueue

import JobQueue.Proofs.Jobs.Order

/-! # What a call does to the jobs

Seen as a list of jobs with different ids, a store is changed by a call (`Call.effect`) in one of
three ways: a job enters, jobs are pruned, or the jobs that the call takes (`Call.takes`) turn into
what the call makes of them (`Call.turn`). Seen at one id, nothing changes, or one thing does
(`Change`): a job enters, moves, or is pruned.

A job moves in seven ways (`Job.Move`), each with its guard: it is claimed; its attempt succeeds,
fails with attempts left, fails for the last time, or is given up; it is cancelled; it is recovered.

* `find?_insert`, `find?_turned`: what is there under an id after a call.
* `change_of_effect`: nothing, or a change. `distinct_effect`: ids stay different.
* `forall_mem_effect`: what new jobs have and moves keep, all jobs have. -/

namespace JobQueue

open MemoryStore

namespace Job

/-- The worker holds the job of the id. -/
def isHeldBy (job : Job) (id : JobId) (worker : WorkerId) : Bool :=
  job.id == id && job.status == .running && job.claimedBy == some worker

/-- The job of the id waits or runs. -/
def isLive (job : Job) (id : JobId) : Bool := job.id == id && !job.status.isTerminal

/-- The job after a successful attempt. -/
def completed (job : Job) (result : Fields) (now : Int) : Job :=
  { job with status := .completed, result := some result }.release now

/-- The job after a failed attempt, due again at the time. -/
def retried (job : Job) (retryAt : Int) (error : String) (now : Int) : Job :=
  { job with
    status := .pending, scheduledAt := retryAt, attempts := job.attempts + 1
    lastError := some error }.release now

/-- The job after its last failed attempt. -/
def exhausted (job : Job) (error : String) (now : Int) : Job :=
  { job with
    status := .failed, attempts := job.attempts + 1, lastError := some error }.release now

/-- **The job after a failed attempt**: it is due again while attempts are left. -/
def afterFailure (job : Job) (retryAt : Int) (error : String) (now : Int) : Job :=
  if job.attempts + 1 < job.maxAttempts then job.retried retryAt error now
  else job.exhausted error now

/-- The job after its worker gave it up. -/
def givenUp (job : Job) (error : String) (now : Int) : Job :=
  { job with status := .failed, lastError := some error }.release now

def cancelled (job : Job) (now : Int) : Job := { job with status := .cancelled }.release now

/-- **A move of a job** by a call at a time. -/
inductive Move (now : Int) : Call → Job → Job → Prop
  | claim {job : Job} {queue : QueueName} {worker : WorkerId} (hqueue : job.queue = queue)
      (hstatus : job.status = .pending) (hdue : job.scheduledAt ≤ now) :
      Move now (.claimNext queue worker) job (claimed job worker now)
  | complete {job : Job} {id : JobId} {worker : WorkerId} {result : Fields} (hid : job.id = id)
      (hstatus : job.status = .running) (hworker : job.claimedBy = some worker) :
      Move now (.complete id worker result) job (job.completed result now)
  | retry {job : Job} {id : JobId} {worker : WorkerId} {error : String} {delay : Duration}
      (hid : job.id = id) (hstatus : job.status = .running)
      (hworker : job.claimedBy = some worker) (hleft : job.attempts + 1 < job.maxAttempts) :
      Move now (.fail id worker error delay) job
        (job.retried (Timestamp.later now delay) error now)
  | exhaust {job : Job} {id : JobId} {worker : WorkerId} {error : String} {delay : Duration}
      (hid : job.id = id) (hstatus : job.status = .running)
      (hworker : job.claimedBy = some worker) (hlast : job.maxAttempts ≤ job.attempts + 1) :
      Move now (.fail id worker error delay) job (job.exhausted error now)
  | giveUp {job : Job} {id : JobId} {worker : WorkerId} {error : String} (hid : job.id = id)
      (hstatus : job.status = .running) (hworker : job.claimedBy = some worker) :
      Move now (.failPermanently id worker error) job (job.givenUp error now)
  | cancel {job : Job} {id : JobId} (hid : job.id = id)
      (hlive : job.status.isTerminal = false) : Move now (.cancel id) job (job.cancelled now)
  | recover {job : Job} {threshold : Duration} {cutoff time : Int}
      (hcutoff : Timestamp.before now threshold = .ok cutoff) (hstatus : job.status = .running)
      (hclaimed : job.claimedAt = some time) (hstale : time < cutoff) :
      Move now (.recoverStale threshold) job (requeued now job)

/-- A move keeps what the job is. -/
structure Same (job job' : Job) : Prop where
  id : job'.id = job.id
  queue : job'.queue = job.queue
  jobType : job'.jobType = job.jobType
  payload : job'.payload = job.payload
  maxAttempts : job'.maxAttempts = job.maxAttempts
  createdAt : job'.createdAt = job.createdAt

theorem Same.refl (job : Job) : job.Same job := ⟨rfl, rfl, rfl, rfl, rfl, rfl⟩

namespace Move

variable {now : Int} {call : Call} {job job' : Job}

theorem same (h : Move now call job job') : job.Same job' := by
  cases h <;> exact ⟨rfl, rfl, rfl, rfl, rfl, rfl⟩

theorem live (h : Move now call job job') : job.status.isTerminal = false := by
  cases h with
  | claim _ hstatus _ => rw [hstatus]; rfl
  | complete _ hstatus _ => rw [hstatus]; rfl
  | retry _ hstatus _ _ => rw [hstatus]; rfl
  | exhaust _ hstatus _ _ => rw [hstatus]; rfl
  | giveUp _ hstatus _ => rw [hstatus]; rfl
  | cancel _ hlive => exact hlive
  | recover _ hstatus _ _ => rw [hstatus]; rfl

theorem status_ne_completed (h : Move now call job job') : job.status ≠ .completed := by
  intro hstatus
  have hlive := h.live
  rw [hstatus] at hlive
  cases hlive

theorem status_ne (h : Move now call job job') : job'.status ≠ job.status := by
  cases h with
  | claim _ hstatus _ => rw [hstatus]; exact nofun
  | complete _ hstatus _ => rw [hstatus]; exact nofun
  | retry _ hstatus _ _ => rw [hstatus]; exact nofun
  | exhaust _ hstatus _ _ => rw [hstatus]; exact nofun
  | giveUp _ hstatus _ => rw [hstatus]; exact nofun
  | cancel _ hlive =>
    intro heq
    rw [← heq] at hlive
    cases hlive
  | recover _ hstatus _ _ => rw [hstatus]; exact nofun

theorem attempts_le (h : Move now call job job') : job.attempts ≤ job'.attempts := by
  cases h with
  | retry => exact Int.le_add_one le_rfl
  | exhaust => exact Int.le_add_one le_rfl
  | _ => exact le_rfl

end Move

end Job

/-! ### Effects -/

namespace Call

/-- The call changes this job, one of the jobs. -/
def takes (call : Call) (now : Int) (jobs : List Job) (job : Job) : Bool :=
  match call with
  | .claimNext queue _ =>
    (first? (claimable queue now jobs)).any fun first => first.id == job.id
  | .complete id worker _ => job.isHeldBy id worker
  | .fail id worker _ _ => job.isHeldBy id worker
  | .failPermanently id worker _ => job.isHeldBy id worker
  | .cancel id => job.isLive id
  | .recoverStale threshold =>
    match Timestamp.before now threshold with
    | .ok cutoff => isStale cutoff job
    | .error _ => false
  | _ => false

/-- The job that the call has changed. -/
def turn (call : Call) (now : Int) (job : Job) : Job :=
  match call with
  | .claimNext _ worker => claimed job worker now
  | .complete _ _ result => job.completed result now
  | .fail _ _ error delay => job.afterFailure (Timestamp.later now delay) error now
  | .failPermanently _ _ error => job.givenUp error now
  | .cancel _ => job.cancelled now
  | .recoverStale _ => requeued now job
  | _ => job

/-- The jobs that the call takes have turned. -/
def turned (call : Call) (now : Int) (jobs : List Job) : List Job :=
  jobs.map fun job => if call.takes now jobs job then call.turn now job else job

/-- The job may enter: an attempt is allowed, and the id is new. -/
def admits (jobs : List Job) (job : Job) : Bool :=
  1 ≤ job.maxAttempts && !jobs.any fun other => other.id == job.id

/-- **The jobs after the call.** -/
def effect (call : Call) (now : Int) (jobs : List Job) : List Job :=
  match call with
  | .insert job => if admits jobs job then jobs ++ [job] else jobs
  | .deleteOlderThan cutoff => jobs.filter fun job => !isExpired cutoff job
  | call => call.turned now jobs

theorem id_turn (call : Call) (now : Int) (job : Job) : (call.turn now job).id = job.id := by
  cases call with
  | fail id worker error delay =>
    show (job.afterFailure (Timestamp.later now delay) error now).id = job.id
    unfold Job.afterFailure
    split <;> rfl
  | _ => rfl

variable {call : Call} {now : Int} {jobs : List Job}

theorem turned_of_none (h : ∀ job, call.takes now jobs job = false) :
    call.turned now jobs = jobs := by
  unfold turned
  simp [h]

theorem takes_recoverStale_of_ok {threshold : Duration} {cutoff : Int}
    (h : Timestamp.before now threshold = .ok cutoff) (job : Job) :
    (Call.recoverStale threshold).takes now jobs job = isStale cutoff job := by
  simp only [takes, h]

theorem takes_recoverStale_of_error {threshold : Duration} {cause : Breakdown}
    (h : Timestamp.before now threshold = .error cause) (job : Job) :
    (Call.recoverStale threshold).takes now jobs job = false := by
  simp only [takes, h]

theorem takes_claimNext {queue : QueueName} {worker : WorkerId}
    (hdistinct : (jobs.map Job.id).Nodup) {job : Job} (hjob : job ∈ jobs) :
    (Call.claimNext queue worker).takes now jobs job = true ↔
      first? (claimable queue now jobs) = some job := by
  show (first? (claimable queue now jobs)).any (fun first => first.id == job.id) = true ↔ _
  cases hfirst : first? (claimable queue now jobs) with
  | none => simp
  | some first =>
    rw [Option.any_some, beq_iff_eq, Option.some_inj]
    have hmem : first ∈ jobs := (mem_claimable.1 (isFirst_of_first? hfirst).mem).1
    exact ⟨fun hid => eq_of_id_eq hdistinct hmem hjob hid, fun h => by rw [h]⟩

theorem move_of_isFirst {queue : QueueName} {job : Job}
    (hfirst : IsFirst (claimable queue now jobs) job) (worker : WorkerId) :
    job.Move now (.claimNext queue worker) (claimed job worker now) := by
  obtain ⟨-, hqueue, hstatus, hdue⟩ := mem_claimable.1 hfirst.mem
  exact .claim hqueue hstatus hdue

theorem isHeldBy_iff {job : Job} {id : JobId} {worker : WorkerId} :
    job.isHeldBy id worker = true ↔
      job.id = id ∧ job.status = .running ∧ job.claimedBy = some worker := by
  unfold Job.isHeldBy
  simp only [Bool.and_eq_true, beq_iff_eq, and_assoc]

/-- **A job that a call takes moves.** -/
theorem move_of_takes (hdistinct : (jobs.map Job.id).Nodup) {job : Job} (hjob : job ∈ jobs)
    (h : call.takes now jobs job = true) : job.Move now call (call.turn now job) := by
  cases call with
  | claimNext queue worker =>
    rw [takes_claimNext hdistinct hjob] at h
    exact move_of_isFirst (isFirst_of_first? h) worker
  | complete id worker result =>
    obtain ⟨hid, hstatus, hworker⟩ := isHeldBy_iff.1 h
    exact .complete hid hstatus hworker
  | fail id worker error delay =>
    obtain ⟨hid, hstatus, hworker⟩ := isHeldBy_iff.1 h
    show job.Move now _ (job.afterFailure (Timestamp.later now delay) error now)
    unfold Job.afterFailure
    split
    · next hleft => exact .retry hid hstatus hworker hleft
    · next hlast => exact .exhaust hid hstatus hworker (by omega)
  | failPermanently id worker error =>
    obtain ⟨hid, hstatus, hworker⟩ := isHeldBy_iff.1 h
    exact .giveUp hid hstatus hworker
  | cancel id =>
    have hlive : job.isLive id = true := h
    unfold Job.isLive at hlive
    simp only [Bool.and_eq_true, beq_iff_eq, Bool.not_eq_true'] at hlive
    exact .cancel hlive.1 hlive.2
  | recoverStale threshold =>
    cases hcutoff : Timestamp.before now threshold with
    | error cause =>
      rw [takes_recoverStale_of_error hcutoff] at h
      cases h
    | ok cutoff =>
      rw [takes_recoverStale_of_ok hcutoff] at h
      unfold isStale at h
      simp only [Bool.and_eq_true, beq_iff_eq, Option.any_eq_true, decide_eq_true_eq] at h
      obtain ⟨hstatus, time, hclaimed, hstale⟩ := h
      exact .recover hcutoff hstatus hclaimed hstale
  | insert job => cases h
  | findById id => cases h
  | deleteOlderThan cutoff => cases h
  | queueStats => cases h

/-! ### Seen at one id -/

theorem find?_eq_some_iff (hdistinct : (jobs.map Job.id).Nodup) {id : JobId} {job : Job} :
    find? id jobs = some job ↔ job ∈ jobs ∧ job.id = id := by
  unfold find?
  refine ⟨fun h => ⟨List.mem_of_find?_eq_some h, by simpa using List.find?_some h⟩, ?_⟩
  rintro ⟨hmem, hid⟩
  cases hfind : jobs.find? fun job => job.id == id with
  | none =>
    have hne := List.find?_eq_none.1 hfind job hmem
    exact absurd hid (by simpa using hne)
  | some other =>
    have hother : other.id = id := by simpa using List.find?_some hfind
    rw [eq_of_id_eq hdistinct (List.mem_of_find?_eq_some hfind) hmem (hother.trans hid.symm)]

theorem find?_eq_none_iff {id : JobId} : find? id jobs = none ↔ ∀ job ∈ jobs, job.id ≠ id := by
  unfold find?
  rw [List.find?_eq_none]
  simp only [beq_iff_eq, ne_eq]

theorem admits_iff {job : Job} :
    admits jobs job = true ↔ 1 ≤ job.maxAttempts ∧ find? job.id jobs = none := by
  unfold admits
  rw [find?_eq_none_iff]
  simp only [Bool.and_eq_true, decide_eq_true_eq, Bool.not_eq_true', List.any_eq_false,
    beq_iff_eq, ne_eq]

theorem map_id_turned (call : Call) (now : Int) (jobs : List Job) :
    (call.turned now jobs).map Job.id = jobs.map Job.id := by
  unfold turned
  rw [List.map_map]
  refine List.map_congr_left fun job _ => ?_
  show (if call.takes now jobs job then call.turn now job else job).id = job.id
  split
  · exact id_turn call now job
  · rfl

/-- **Ids stay different.** -/
theorem distinct_effect (call : Call) (now : Int) (hdistinct : (jobs.map Job.id).Nodup) :
    ((call.effect now jobs).map Job.id).Nodup := by
  cases call with
  | insert job =>
    show ((if admits jobs job then jobs ++ [job] else jobs).map Job.id).Nodup
    split
    · next hadmits =>
      have hnew := find?_eq_none_iff.1 (admits_iff.1 hadmits).2
      rw [List.map_append, List.nodup_append]
      refine ⟨hdistinct, List.nodup_singleton _, fun a ha b hb => ?_⟩
      obtain ⟨other, hother, rfl⟩ := List.mem_map.1 ha
      rw [List.mem_singleton.1 hb]
      exact hnew other hother
    · exact hdistinct
  | deleteOlderThan cutoff => exact hdistinct.sublist (List.filter_sublist.map Job.id)
  | _ =>
    show (List.map Job.id (Call.turned _ now jobs)).Nodup
    rw [map_id_turned]
    exact hdistinct

theorem find?_insert {job : Job} (hadmits : admits jobs job = true) (id : JobId) :
    find? id (jobs ++ [job]) = if job.id = id then some job else find? id jobs := by
  have happend : find? id (jobs ++ [job]) =
      (find? id jobs).or (if job.id == id then some job else none) := by
    unfold find?
    rw [List.find?_append, List.find?_singleton]
  rw [happend]
  by_cases hid : job.id = id
  · have hnew := (admits_iff.1 hadmits).2
    rw [hid] at hnew
    rw [if_pos hid, if_pos (by simpa using hid), hnew, Option.none_or]
  · rw [if_neg hid, if_neg (by simpa using hid), Option.or_none]

theorem find?_turned (call : Call) (now : Int) (jobs : List Job) (id : JobId) :
    find? id (call.turned now jobs) = (find? id jobs).map fun job =>
      if call.takes now jobs job then call.turn now job else job := by
  unfold turned find?
  rw [List.find?_map]
  congr 2
  funext job
  show ((if call.takes now jobs job then call.turn now job else job).id == id) = (job.id == id)
  split
  · rw [id_turn]
  · rfl

theorem takes_of_isFirst (hdistinct : (jobs.map Job.id).Nodup) {queue : QueueName} {job : Job}
    (hfirst : IsFirst (claimable queue now jobs) job) (worker : WorkerId) (other : Job) :
    (Call.claimNext queue worker).takes now jobs other = (job.id == other.id) := by
  have hfound := (first?_eq_some (distinct_claimable queue now hdistinct)).2 hfirst
  show (first? (claimable queue now jobs)).any (fun first => first.id == other.id) = _
  rw [hfound, Option.any_some]

theorem effect_claimNext (hdistinct : (jobs.map Job.id).Nodup) {queue : QueueName} {job : Job}
    (hfirst : IsFirst (claimable queue now jobs) job) (worker : WorkerId) :
    (Call.claimNext queue worker).effect now jobs =
      jobs.map fun other => if other.id = job.id then claimed other worker now else other := by
  refine List.map_congr_left fun other _ => ?_
  rw [takes_of_isFirst hdistinct hfirst]
  by_cases hid : other.id = job.id
  · rw [if_pos hid, if_pos (by rw [hid]; exact beq_self_eq_true job.id)]
    rfl
  · rw [if_neg hid, if_neg (by rw [beq_iff_eq]; exact fun h => hid h.symm)]

theorem find?_claimNext (hdistinct : (jobs.map Job.id).Nodup) {queue : QueueName} {job : Job}
    (hfirst : IsFirst (claimable queue now jobs) job) (worker : WorkerId) (id : JobId) :
    find? id ((Call.claimNext queue worker).effect now jobs) =
      if job.id = id then some (claimed job worker now) else find? id jobs := by
  show find? id ((Call.claimNext queue worker).turned now jobs) = _
  rw [find?_turned]
  by_cases hid : job.id = id
  · rw [if_pos hid, (find?_eq_some_iff hdistinct).2 ⟨(mem_claimable.1 hfirst.mem).1, hid⟩,
      Option.map_some, takes_of_isFirst hdistinct hfirst, if_pos (beq_self_eq_true job.id)]
    rfl
  · rw [if_neg hid]
    cases hfind : find? id jobs with
    | none => rfl
    | some other =>
      have hother : other.id = id := ((find?_eq_some_iff hdistinct).1 hfind).2
      rw [Option.map_some, takes_of_isFirst hdistinct hfirst,
        if_neg (by rw [hother]; simpa using hid)]

theorem effect_claimNext_of_nil {queue : QueueName} {worker : WorkerId}
    (hnone : claimable queue now jobs = []) :
    (Call.claimNext queue worker).effect now jobs = jobs := by
  have htakes : ∀ job, (Call.claimNext queue worker).takes now jobs job = false := by
    intro job
    show (first? (claimable queue now jobs)).any _ = false
    rw [hnone]
    rfl
  exact turned_of_none htakes

theorem find?_filter (hdistinct : (jobs.map Job.id).Nodup) (p : Job → Bool) (id : JobId) :
    find? id (jobs.filter p) = (find? id jobs).filter p := by
  refine Option.ext fun job => ?_
  rw [find?_eq_some_iff (hdistinct.sublist (List.filter_sublist.map Job.id)),
    Option.filter_eq_some_iff, find?_eq_some_iff hdistinct, List.mem_filter]
  tauto

/-- **A change of what is there under an id.** -/
inductive Change (now : Int) : Call → Option Job → Option Job → Prop
  | enter {job : Job} (hallowed : 1 ≤ job.maxAttempts) : Change now (.insert job) none (some job)
  | move {call : Call} {job job' : Job} (hmove : job.Move now call job') :
      Change now call (some job) (some job')
  | prune {job : Job} {cutoff : Int} (hended : job.status.isTerminal = true)
      (hold : job.updatedAt < cutoff) : Change now (.deleteOlderThan cutoff) (some job) none

theorem change_of_turned (hdistinct : (jobs.map Job.id).Nodup) (id : JobId) :
    find? id (call.turned now jobs) = find? id jobs ∨
      Change now call (find? id jobs) (find? id (call.turned now jobs)) := by
  rw [find?_turned]
  cases hfind : find? id jobs with
  | none => exact .inl rfl
  | some job =>
    rw [Option.map_some]
    split
    · next htakes =>
      have hjob := (find?_eq_some_iff hdistinct).1 hfind
      exact .inr (.move (move_of_takes hdistinct hjob.1 htakes))
    · exact .inl rfl

/-- **A call changes nothing under an id, or one thing.** -/
theorem change_of_effect (call : Call) (now : Int) (hdistinct : (jobs.map Job.id).Nodup)
    (id : JobId) : find? id (call.effect now jobs) = find? id jobs ∨
      Change now call (find? id jobs) (find? id (call.effect now jobs)) := by
  cases call with
  | insert job =>
    show find? id (if admits jobs job then jobs ++ [job] else jobs) = _ ∨
      Change _ _ _ (find? id (if admits jobs job then jobs ++ [job] else jobs))
    by_cases hadmits : admits jobs job = true
    · rw [if_pos hadmits, find?_insert hadmits]
      obtain ⟨hallowed, hnew⟩ := admits_iff.1 hadmits
      by_cases hid : job.id = id
      · rw [if_pos hid, ← hid, hnew]
        exact .inr (.enter hallowed)
      · rw [if_neg hid]
        exact .inl rfl
    · rw [if_neg hadmits]
      exact .inl rfl
  | deleteOlderThan cutoff =>
    show find? id (jobs.filter fun job => !isExpired cutoff job) = _ ∨
      Change _ _ _ (find? id (jobs.filter fun job => !isExpired cutoff job))
    rw [find?_filter hdistinct]
    cases hfind : find? id jobs with
    | none => exact .inl rfl
    | some job =>
      rw [Option.filter_some]
      split
      · exact .inl rfl
      · next hexpired =>
        rw [Bool.not_eq_true, Bool.not_eq_false'] at hexpired
        unfold isExpired at hexpired
        rw [Bool.and_eq_true, decide_eq_true_eq] at hexpired
        exact .inr (.prune hexpired.1 hexpired.2)
  | _ => exact change_of_turned hdistinct id

/-- **What new jobs have and moves keep, all jobs have.** -/
theorem forall_mem_effect (hdistinct : (jobs.map Job.id).Nodup) {P : Job → Prop}
    (hjobs : ∀ job ∈ jobs, P job)
    (henter : ∀ job, call = .insert job → 1 ≤ job.maxAttempts → P job)
    (hmove : ∀ job job', job.Move now call job' → P job → P job') :
    ∀ job ∈ call.effect now jobs, P job := by
  intro job hjob
  have hfind := (find?_eq_some_iff (distinct_effect call now hdistinct)).2 ⟨hjob, rfl⟩
  rcases change_of_effect call now hdistinct job.id with hsame | hchange
  · rw [hfind] at hsame
    exact hjobs job ((find?_eq_some_iff hdistinct).1 hsame.symm).1
  · rw [hfind] at hchange
    generalize hbefore : find? job.id jobs = before at hchange
    cases hchange with
    | enter hallowed => exact henter job rfl hallowed
    | @move _ old _ hm =>
      exact hmove old job hm (hjobs old ((find?_eq_some_iff hdistinct).1 hbefore).1)

end Call

end JobQueue

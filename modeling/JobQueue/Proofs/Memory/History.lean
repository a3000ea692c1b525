import JobQueue.Proofs.Sql.History

/-! # Histories of the store in memory

The store in memory changes its jobs in its own way: a job takes the place of the one with its id,
field by field, and a counter or a time that leaves its range breaks the store. In *regular*
histories (`Operation.Regular`) none of this shows: jobs enter with new ids and counters that have
room, and a failed attempt is due again at a point in time. Then the store holds just the jobs of
the effects of the calls, and it never breaks.

* `held_cases`, `live_cases`: the guards; `replace_turn`: the job that a call takes has turned.
* `Transition`: the change of one job, or its refusal and the kind of it.
* `run_ofJobs`: **a call leaves the store with the jobs of its effect**; `after_eq`: so does a
  history. -/

namespace JobQueue

open MemoryStore

/-- The counters have 32 bits, also after one more attempt unless the job has ended. -/
structure Job.Countable (job : Job) : Prop where
  attempts : FitsInt32 job.attempts
  maxAttempts : FitsInt32 job.maxAttempts
  next : job.status.isTerminal = false → job.attempts < 2147483647

theorem Job.Move.countable {now : Int} {call : Call} {job job' : Job}
    (h : Job.Move now call job job') (hjob : job.Countable) : job'.Countable := by
  obtain ⟨hlow, -⟩ := hjob.attempts
  have hmax := hjob.maxAttempts.2
  have hnext := hjob.next h.live
  cases h with
  | retry _ _ _ hleft =>
    refine ⟨⟨?_, ?_⟩, hjob.maxAttempts, fun _ => ?_⟩
    · show -2147483648 ≤ job.attempts + 1
      omega
    · show job.attempts + 1 ≤ 2147483647
      omega
    · show job.attempts + 1 < 2147483647
      omega
  | exhaust =>
    refine ⟨⟨?_, ?_⟩, hjob.maxAttempts, nofun⟩
    · show -2147483648 ≤ job.attempts + 1
      omega
    · show job.attempts + 1 ≤ 2147483647
      omega
  | _ => exact ⟨hjob.attempts, hjob.maxAttempts, fun _ => hnext⟩

/-- **Nothing is out of range**: a job enters with a new id, at least one attempt and counters that
have room, and a failed attempt would be due again at a point in time. -/
structure Operation.Regular (op : Operation) (store : MemoryStore) : Prop where
  enter : ∀ job, op.call = .insert job → FitsInt32 job.attempts ∧ FitsInt32 job.maxAttempts ∧
    1 ≤ job.maxAttempts ∧ job.attempts < 2147483647 ∧ ∀ other ∈ store.jobs, other.id ≠ job.id
  retry : ∀ id worker error delay, op.call = .fail id worker error delay →
    op.now + delay.wholeMillis ≤ Timestamp.latest

namespace MemoryStore

/-- A store that takes calls and is intact. -/
def ofJobs (jobs : List Job) : MemoryStore := ⟨jobs, true, false⟩

variable {jobs : List Job} {now : Int}

/-! ### Guards -/

/-- The kind of the refusal, given what is there under the id. -/
def refusalKind : Option Job → ErrorKind
  | none => .notFound
  | some _ => .invalidState

/-- **The guard of reports** passes just the job that the worker holds. -/
theorem held_cases (hdistinct : (jobs.map Job.id).Nodup) (id : JobId) (worker : WorkerId) :
    (∃ job, held id worker jobs = .ok job ∧ find? id jobs = some job ∧
        job.isHeldBy id worker = true) ∨
      ∃ e, held id worker jobs = .error e ∧ e.kind = refusalKind (find? id jobs) ∧
        ∀ job ∈ jobs, job.isHeldBy id worker = false := by
  have hnone : (∀ job, find? id jobs = some job → job.isHeldBy id worker = false) →
      ∀ job ∈ jobs, job.isHeldBy id worker = false := fun h job hjob => by
    by_cases hid : job.id = id
    · exact h job ((Call.find?_eq_some_iff hdistinct).2 ⟨hjob, hid⟩)
    · unfold Job.isHeldBy
      rw [beq_eq_false_iff_ne.2 hid, Bool.false_and, Bool.false_and]
  unfold held
  cases hfind : find? id jobs with
  | none => exact .inr ⟨_, rfl, rfl, hnone fun job hjob => nomatch hfind.symm.trans hjob⟩
  | some job =>
    have hid := ((Call.find?_eq_some_iff hdistinct).1 hfind).2
    have hother : job.isHeldBy id worker = false →
        ∀ job ∈ jobs, job.isHeldBy id worker = false := fun hjob => hnone fun other hother => by
      rwa [← Option.some.inj (hfind.symm.trans hother)]
    dsimp only
    by_cases hstatus : job.status = .running
    · rw [if_neg fun h => h hstatus]
      by_cases hworker : job.claimedBy = some worker
      · rw [if_neg fun h => h hworker]
        exact .inl ⟨job, rfl, rfl, Call.isHeldBy_iff.2 ⟨hid, hstatus, hworker⟩⟩
      · rw [if_pos hworker]
        refine .inr ⟨_, rfl, rfl, hother ?_⟩
        rw [← Bool.not_eq_true]
        exact fun hheld => hworker (Call.isHeldBy_iff.1 hheld).2.2
    · rw [if_pos hstatus]
      refine .inr ⟨_, rfl, rfl, hother ?_⟩
      rw [← Bool.not_eq_true]
      exact fun hheld => hstatus (Call.isHeldBy_iff.1 hheld).2.1

/-- **The guard of cancellations** passes just the job that has not ended. -/
theorem live_cases (hdistinct : (jobs.map Job.id).Nodup) (id : JobId) :
    (∃ job, live id jobs = .ok job ∧ find? id jobs = some job ∧ job.isLive id = true) ∨
      ∃ e, live id jobs = .error e ∧ e.kind = refusalKind (find? id jobs) ∧
        ∀ job ∈ jobs, job.isLive id = false := by
  have hother : ∀ job : Job, job.id ≠ id → job.isLive id = false := fun job hid => by
    unfold Job.isLive
    rw [beq_eq_false_iff_ne.2 hid, Bool.false_and]
  unfold live
  cases hfind : find? id jobs with
  | none =>
    exact .inr ⟨_, rfl, rfl, fun job hjob => hother job (Call.find?_eq_none_iff.1 hfind job hjob)⟩
  | some job =>
    obtain ⟨hmem, hid⟩ := (Call.find?_eq_some_iff hdistinct).1 hfind
    have hlive : job.isLive id = !job.status.isTerminal := by
      unfold Job.isLive
      rw [hid, beq_self_eq_true, Bool.true_and]
    dsimp only
    cases hstatus : job.status.isTerminal with
    | true =>
      rw [if_pos rfl]
      refine .inr ⟨_, rfl, rfl, fun other hmem' => ?_⟩
      by_cases hid' : other.id = id
      · rw [eq_of_id_eq hdistinct hmem' hmem (hid'.trans hid.symm), hlive, hstatus]
        rfl
      · exact hother other hid'
    | false =>
      rw [if_neg nofun]
      exact .inl ⟨job, rfl, rfl, by rw [hlive, hstatus]; rfl⟩

/-! ### Changes of one job -/

/-- **The job that a call takes has turned**, when it takes no other. -/
theorem replace_turn (call : Call) (hdistinct : (jobs.map Job.id).Nodup) {job : Job}
    (hjob : job ∈ jobs) (htakes : call.takes now jobs job = true)
    (honly : ∀ other ∈ jobs, call.takes now jobs other = true → other.id = job.id) :
    replace (call.turn now job) jobs = call.turned now jobs := by
  unfold replace Call.turned
  refine List.map_congr_left fun other hother => ?_
  rw [Call.id_turn]
  by_cases hid : other.id = job.id
  · rw [if_pos hid, eq_of_id_eq hdistinct hother hjob hid, if_pos htakes]
  · rw [if_neg hid, if_neg fun h => hid (honly other hother h)]

/-- **What a change of the job of an id does**: it takes the job, changes it and gives it back, or
it takes none and is refused. -/
inductive Transition (jobs : List Job) (call : Call) (now : Int) (id : JobId) :
    Except JobError Job × MemoryStore → Prop
  | taken {job : Job} (hfind : find? id jobs = some job)
      (htakes : call.takes now jobs job = true) :
      Transition jobs call now id (.ok (call.turn now job), ofJobs (call.effect now jobs))
  | refused {e : JobError} (hnone : ∀ job ∈ jobs, call.takes now jobs job = false)
      (hkind : e.kind = refusalKind (find? id jobs)) :
      Transition jobs call now id (.error e, ofJobs (call.effect now jobs))

section Changes

variable (call : Call) {id : JobId}

theorem transition_of_takes (hdistinct : (jobs.map Job.id).Nodup)
    (heffect : call.effect now jobs = call.turned now jobs)
    (hid : ∀ job ∈ jobs, call.takes now jobs job = true → job.id = id) {job : Job}
    (hfind : find? id jobs = some job) (htakes : call.takes now jobs job = true) :
    Transition jobs call now id (.ok (call.turn now job),
      (ofJobs jobs).withJobs (replace (call.turn now job) jobs)) := by
  obtain ⟨hmem, hjob⟩ := (Call.find?_eq_some_iff hdistinct).1 hfind
  rw [replace_turn call hdistinct hmem htakes fun other hother h => (hid other hother h).trans hjob.symm,
    ← heffect]
  exact .taken hfind htakes

theorem transition_of_refused (heffect : call.effect now jobs = call.turned now jobs)
    {e : JobError} (hnone : ∀ job ∈ jobs, call.takes now jobs job = false)
    (hkind : e.kind = refusalKind (find? id jobs)) :
    Transition jobs call now id (.error e, ofJobs jobs) := by
  have hsame : call.effect now jobs = jobs := by
    rw [heffect]
    unfold Call.turned
    conv_rhs => rw [← List.map_id jobs]
    refine List.map_congr_left fun job hjob => ?_
    rw [hnone job hjob]
    rfl
  have h := Transition.refused hnone hkind
  rwa [hsame] at h

/-- **A report** takes the job that the worker holds, if the job runs. -/
theorem transition_of_held (hdistinct : (jobs.map Job.id).Nodup) (worker : WorkerId)
    (heffect : call.effect now jobs = call.turned now jobs)
    (htakes : ∀ job, call.takes now jobs job = job.isHeldBy id worker) :
    Transition jobs call now id (match held id worker jobs with
      | .error e => (.error e, ofJobs jobs)
      | .ok job => (.ok (call.turn now job),
          (ofJobs jobs).withJobs (replace (call.turn now job) jobs))) := by
  rcases held_cases hdistinct id worker with ⟨job, hheld, hfind, hjob⟩ | ⟨e, hheld, hkind, hnone⟩
  · rw [hheld]
    refine transition_of_takes call hdistinct heffect (fun other _ h => ?_) hfind
      ((htakes job).trans hjob)
    rw [htakes] at h
    exact (Call.isHeldBy_iff.1 h).1
  · rw [hheld]
    exact transition_of_refused call heffect (fun job hjob => (htakes job).trans (hnone job hjob))
      hkind

variable (hdistinct : (jobs.map Job.id).Nodup) (now)
include hdistinct

theorem transition_complete (id : JobId) (worker : WorkerId) (result : Fields) :
    Transition jobs (.complete id worker result) now id
      ((ofJobs jobs).complete id worker result now) :=
  transition_of_held (.complete id worker result) hdistinct worker rfl fun _ => rfl

theorem transition_failPermanently (id : JobId) (worker : WorkerId) (error : String) :
    Transition jobs (.failPermanently id worker error) now id
      ((ofJobs jobs).failPermanently id worker error now) :=
  transition_of_held (.failPermanently id worker error) hdistinct worker rfl fun _ => rfl

theorem transition_cancel (id : JobId) :
    Transition jobs (.cancel id) now id ((ofJobs jobs).cancel id now) := by
  unfold cancel
  rcases live_cases hdistinct id with ⟨job, hlive, hfind, htakes⟩ | ⟨e, hlive, hkind, hnone⟩
  · rw [show live id (ofJobs jobs).jobs = _ from hlive]
    refine transition_of_takes (.cancel id) hdistinct rfl (fun other _ h => ?_) hfind htakes
    have hother : other.isLive id = true := h
    unfold Job.isLive at hother
    rw [Bool.and_eq_true, beq_iff_eq] at hother
    exact hother.1
  · rw [show live id (ofJobs jobs).jobs = _ from hlive]
    exact transition_of_refused (.cancel id) rfl hnone hkind

omit hdistinct in
theorem failed_eq {job : Job} (hnext : job.attempts < 2147483647) {delay : Duration}
    (htime : now + delay.wholeMillis ≤ Timestamp.latest) (error : String) :
    (failed job error delay now).map (Job.release · now) =
      .ok (job.afterFailure (Timestamp.later now delay) error now) := by
  have hattempt : job.attempt = .ok (job.attempts + 1) := if_pos (by
    unfold Job.currentAttempt
    omega)
  have hafter : Timestamp.after now delay = .ok (Timestamp.later now delay) := by
    rw [Timestamp.later_eq_of_le htime]
    exact if_pos htime
  unfold failed Job.afterFailure
  simp only [hattempt, hafter, bind, Except.bind]
  split <;> rfl

theorem transition_fail (hcount : ∀ job ∈ jobs, job.Countable) (id : JobId) (worker : WorkerId)
    (error : String) {delay : Duration} (htime : now + delay.wholeMillis ≤ Timestamp.latest) :
    Transition jobs (.fail id worker error delay) now id
      ((ofJobs jobs).fail id worker error delay now) := by
  have htransition : Transition jobs (.fail id worker error delay) now id _ :=
    transition_of_held (.fail id worker error delay) hdistinct worker rfl fun _ => rfl
  unfold fail
  rcases held_cases hdistinct id worker with ⟨job, hheld, hfind, hjob⟩ | ⟨e, hheld, -, -⟩
  · have hlive : job.status.isTerminal = false := by
      rw [(Call.isHeldBy_iff.1 hjob).2.1]
      rfl
    have hmem := ((Call.find?_eq_some_iff hdistinct).1 hfind).1
    have hfailed := failed_eq now ((hcount job hmem).next hlive) htime error
    rw [hheld] at htransition
    rw [show held id worker (ofJobs jobs).jobs = _ from hheld]
    cases hchange : failed job error delay now with
    | error cause =>
      rw [hchange] at hfailed
      cases hfailed
    | ok changed =>
      rw [hchange] at hfailed
      have hsame : changed.release now =
          (Call.fail id worker error delay).turn now job := Except.ok.inj hfailed
      dsimp only
      rw [hchange]
      dsimp only
      rw [hsame]
      exact htransition
  · rw [hheld] at htransition
    rw [show held id worker (ofJobs jobs).jobs = _ from hheld]
    exact htransition

end Changes

/-! ### Calls -/

theorem put_eq_append {job : Job} : ∀ {jobs : List Job}, (∀ other ∈ jobs, other.id ≠ job.id) →
    put job jobs = jobs ++ [job]
  | [], _ => rfl
  | other :: rest, h => by
    rw [put, if_neg (h other List.mem_cons_self),
      put_eq_append fun third hthird => h third (List.mem_cons_of_mem other hthird)]
    rfl

theorem claimNext_ofJobs (hdistinct : (jobs.map Job.id).Nodup) (queue : QueueName)
    (worker : WorkerId) (now : Int) : (ofJobs jobs).claimNext queue worker now =
      ((first? (claimable queue now jobs)).map fun job => claimed job worker now,
        ofJobs ((Call.claimNext queue worker).effect now jobs)) := by
  unfold claimNext
  rw [show (ofJobs jobs).jobs = jobs from rfl]
  cases hfirst : first? (claimable queue now jobs) with
  | none =>
    rw [Call.effect_claimNext_of_nil (first?_eq_none.1 hfirst)]
    rfl
  | some job =>
    have hfound := isFirst_of_first? hfirst
    have hmem : job ∈ jobs := (mem_claimable.1 hfound.mem).1
    have htakes := Call.takes_of_isFirst hdistinct hfound worker
    have hreplace : replace (claimed job worker now) jobs =
        (Call.claimNext queue worker).turned now jobs :=
      replace_turn (.claimNext queue worker) hdistinct hmem (by rw [htakes]; exact beq_self_eq_true job.id)
        fun other _ h => by
          rw [htakes, beq_iff_eq] at h
          exact h.symm
    dsimp only
    rw [hreplace]
    rfl

theorem recoverStale_ofJobs {threshold : Duration} {cutoff : Int}
    (hcutoff : Timestamp.before now threshold = .ok cutoff) :
    (ofJobs jobs).recoverStale cutoff now =
      (jobs.countP (isStale cutoff), ofJobs ((Call.recoverStale threshold).effect now jobs)) := by
  have heffect : (Call.recoverStale threshold).effect now jobs =
      jobs.map fun job => if isStale cutoff job then requeued now job else job := by
    refine List.map_congr_left fun job _ => ?_
    rw [Call.takes_recoverStale_of_ok hcutoff]
    rfl
  rw [heffect]
  rfl

theorem run_recoverStale (jobs : List Job) (threshold : Duration) (now : Int) :
    (∃ cause, Timestamp.before now threshold = .error cause ∧
      (ofJobs jobs).run (.recoverStale threshold) now =
        (.error (.breakdown cause), ofJobs ((Call.recoverStale threshold).effect now jobs))) ∨
    ∃ cutoff, Timestamp.before now threshold = .ok cutoff ∧
      (ofJobs jobs).run (.recoverStale threshold) now =
        (.ok (jobs.countP (isStale cutoff)),
          ofJobs ((Call.recoverStale threshold).effect now jobs)) := by
  have hprepare : prepare (.recoverStale threshold) now =
      discard (Timestamp.before now threshold) := rfl
  cases hbefore : Timestamp.before now threshold with
  | error cause =>
    have heffect : (Call.recoverStale threshold).effect now jobs = jobs :=
      Call.turned_of_none fun job => Call.takes_recoverStale_of_error hbefore job
    have hcheck : (ofJobs jobs).check (.recoverStale threshold) now =
        .error (.breakdown cause) := by
      unfold check
      rw [hprepare, hbefore]
      rfl
    refine .inl ⟨cause, rfl, ?_⟩
    unfold run
    rw [hcheck, heffect]
  | ok cutoff =>
    have hcutoff : now - threshold.wholeMillis = cutoff := by
      unfold Timestamp.before at hbefore
      split at hbefore
      · exact Except.ok.inj hbefore
      · cases hbefore
    have hcheck : (ofJobs jobs).check (.recoverStale threshold) now = .ok () := by
      unfold check
      rw [hprepare, hbefore]
      rfl
    refine .inr ⟨cutoff, rfl, ?_⟩
    unfold run
    rw [hcheck]
    dsimp only
    rw [hcutoff, recoverStale_ofJobs hbefore]

/-- **A call leaves the store with the jobs of its effect.** -/
theorem run_ofJobs (hdistinct : (jobs.map Job.id).Nodup) (hcount : ∀ job ∈ jobs, job.Countable)
    {op : Operation} (hop : op.Regular (ofJobs jobs)) :
    ((ofJobs jobs).run op.call op.now).2 = ofJobs (op.call.effect op.now jobs) := by
  have hchange {id : JobId} {answer : Except JobError Job × MemoryStore}
      (h : Transition jobs op.call op.now id answer) :
      answer.2 = ofJobs (op.call.effect op.now jobs) := by
    cases h <;> rfl
  obtain ⟨call, now⟩ := op
  cases call with
  | insert job =>
    obtain ⟨-, -, hallowed, -, hnew⟩ := hop.enter job rfl
    have hadmits : Call.admits jobs job = true :=
      Call.admits_iff.2 ⟨hallowed, Call.find?_eq_none_iff.2 hnew⟩
    have heffect : (Call.insert job).effect now jobs = jobs ++ [job] := if_pos hadmits
    have hput : put job jobs = jobs ++ [job] := put_eq_append hnew
    show (ofJobs jobs).withJobs (put job jobs) = ofJobs ((Call.insert job).effect now jobs)
    rw [hput, heffect]
    rfl
  | findById id => exact congrArg ofJobs (List.map_id jobs).symm
  | claimNext queue worker => exact congrArg Prod.snd (claimNext_ofJobs hdistinct queue worker now)
  | complete id worker result => exact hchange (transition_complete now hdistinct id worker result)
  | fail id worker error delay =>
    exact hchange (transition_fail now hdistinct hcount id worker error
      (hop.retry id worker error delay rfl))
  | failPermanently id worker error =>
    exact hchange (transition_failPermanently now hdistinct id worker error)
  | cancel id => exact hchange (transition_cancel now hdistinct id)
  | recoverStale threshold =>
    rcases run_recoverStale jobs threshold now with ⟨_, -, hrun⟩ | ⟨_, -, hrun⟩
    · exact congrArg Prod.snd hrun
    · exact congrArg Prod.snd hrun
  | deleteOlderThan cutoff => rfl
  | queueStats => exact congrArg ofJobs (List.map_id jobs).symm

/-! ### Histories -/

/-- **The store after a history.** -/
def after : List Operation → MemoryStore
  | [] => empty
  | op :: earlier => ((after earlier).run op.call op.now).2

/-- Each operation is regular where it happens. -/
def Regular (history : List Operation) : Prop :=
  ∀ op earlier, op :: earlier <:+ history → op.Regular (after earlier)

theorem Regular.suffix {history earlier : List Operation} (h : Regular history)
    (hsuffix : earlier <:+ history) : Regular earlier :=
  fun op before hop => h op before (hop.trans hsuffix)

theorem Regular.earlier {op : Operation} {earlier : List Operation}
    (h : Regular (op :: earlier)) : Regular earlier := h.suffix (List.suffix_cons op earlier)

theorem Regular.latest {op : Operation} {earlier : List Operation}
    (h : Regular (op :: earlier)) : op.Regular (after earlier) :=
  h op earlier List.suffix_rfl

theorem regular_nil : Regular [] :=
  fun op earlier h => absurd (List.eq_nil_of_suffix_nil h) (List.cons_ne_nil op earlier)

theorem regular_cons {op : Operation} {earlier : List Operation} :
    Regular (op :: earlier) ↔ op.Regular (after earlier) ∧ Regular earlier := by
  refine ⟨fun h => ⟨h.latest, h.earlier⟩, fun h other before hsuffix => ?_⟩
  rcases List.suffix_cons_iff.1 hsuffix with heq | hsuffix
  · obtain ⟨rfl, rfl⟩ := List.cons.inj heq
    exact h.1
  · exact h.2 other before hsuffix

theorem regular_oneJob (payload : Fields) : Regular (oneJob payload) := by
  refine regular_cons.2 ⟨⟨fun job hjob => ?_, fun _ _ _ _ hcall => (nomatch hcall)⟩,
    regular_nil⟩
  rw [← Call.insert.inj hjob]
  exact ⟨show FitsInt32 0 by decide, show FitsInt32 3 by decide, show (1 : Int) ≤ 3 by decide,
    show (0 : Int) < 2147483647 by decide, fun _ hother => absurd hother List.not_mem_nil⟩

theorem regular_oneClaim (payload : Fields) : Regular (oneClaim payload) :=
  regular_cons.2 ⟨⟨fun _ hcall => (nomatch hcall), fun _ _ _ _ hcall => (nomatch hcall)⟩,
    regular_oneJob payload⟩

theorem countable_of_mem_jobsAfter : ∀ {history : List Operation}, Regular history →
    ∀ job ∈ jobsAfter history, job.Countable
  | [], _ => fun _ hjob => absurd hjob List.not_mem_nil
  | op :: earlier, h =>
    Call.forall_mem_effect (distinct_jobsAfter earlier) (countable_of_mem_jobsAfter h.earlier)
      (fun job hjob _ => by
        obtain ⟨hattempts, hmax, -, hnext, -⟩ := h.latest.enter job hjob
        exact ⟨hattempts, hmax, fun _ => hnext⟩)
      fun _ _ hmove hcount => hmove.countable hcount

/-- **The store holds the jobs after a regular history**, and is intact. -/
theorem after_eq : ∀ {history : List Operation}, Regular history →
    after history = ofJobs (jobsAfter history)
  | [], _ => rfl
  | op :: earlier, h => by
    have hlatest := h.latest
    show ((after earlier).run op.call op.now).2 = _
    rw [after_eq h.earlier] at hlatest ⊢
    exact run_ofJobs (distinct_jobsAfter earlier) (countable_of_mem_jobsAfter h.earlier) hlatest

end MemoryStore

end JobQueue

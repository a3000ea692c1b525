import JobQueue.Proofs.Runner.Lifecycle
import JobQueue.Proofs.Stores.Reports

/-! # What loops owe

A loop of the runner that is granted a job owes a report on it. It makes the report when the handler
has ended or its time is over, and nothing in between takes the loop away as long as somebody is in
charge of the loops: no other task ends it, and it ends by itself only between two attempts.

The one exception is a job whose attempts are beyond count: the loop breaks down before the handler
of such a job begins, and makes no report (`World.Granted.broken`).

* `World.Granted`, `World.Reports`: a claim is answered with a job; a report is made.
* `World.Owes`: a report is to come. `World.Owes.occur`: **a debt stays until it is paid.**
* `World.Granted.reported`: **every grant is followed by a report**, if the loop has ended.
* `World.Reports.made`: what a report does to the store. -/

namespace JobQueue

/-- A report on the job: there is no handler for it, or the handler has ended or its time is over. -/
def Worker.Concludes (worker : Worker) (job : Job) (report : Report) : Prop :=
  report = .failPermanently (Worker.noHandler job.jobType) ∨
    ∃ ending, worker.afterHandler job ending = .reporting job report

theorem Worker.exists_afterHandler (worker : Worker) (job : Job) (ending : Option Ending) :
    ∃ report, worker.afterHandler job ending = .reporting job report := by
  unfold afterHandler
  split
  · exact ⟨_, rfl⟩
  · exact ⟨_, rfl⟩

theorem JobContext.exists_ofJob {job : Job} {n : Int} (h : job.attempt = .ok n) (limit : Duration) :
    ∃ context, ofJob job limit = .ok context := by
  unfold ofJob
  rw [h]
  exact ⟨_, rfl⟩

theorem JobContext.ofJob_eq_error {job : Job} {cause : Breakdown} (h : job.attempt = .error cause)
    (limit : Duration) : ofJob job limit = .error cause := by
  unfold ofJob
  rw [h]
  rfl

/-- **The task is a loop in this attempt.** -/
structure Task.Attempts (t : Task) (trial : Trial) : Prop where
  uncancelled : t.cancelled = false
  work : ∃ ticker, t.work = .attempting trial (.loop ticker)

/-- **The task owes a report**: the handler runs, or the report comes next. -/
def Task.Owes (t : Task) (worker : Worker) (job : Job) : Prop :=
  ∃ trial, t.Attempts trial ∧ trial.worker = worker ∧
    (trial.attempt = .handling job ∨
      t.limit = none ∧ ∃ report, trial.attempt = .reporting job report ∧
        worker.Concludes job report)

namespace World

variable {w w₁ : World} {acting id : TaskId} {task t : Task} {worker : Worker} {job : Job}

/-- **A loop is granted a job**: its next move is a claim, which is answered at once with the job. -/
def Granted (w : World) (id : TaskId) (worker : Worker) (job : Job) : Prop :=
  ∃ t trial, w.task? id = some t ∧ t.Attempts trial ∧ t.limit = none ∧ trial.worker = worker ∧
    trial.attempt = .claiming ∧ w.isStalled worker.claim = false ∧
    (w.invoke worker.claim).1 = .ok (some job)

/-- **A loop makes a report** in its next move. -/
def Reports (w : World) (id : TaskId) (worker : Worker) (job : Job) (report : Report) : Prop :=
  ∃ t trial, w.task? id = some t ∧ t.Attempts trial ∧ t.limit = none ∧ trial.worker = worker ∧
    trial.attempt = .reporting job report ∧ worker.Concludes job report

/-- A loop owes a report. -/
def Owes (w : World) (id : TaskId) (worker : Worker) (job : Job) : Prop :=
  ∃ t, w.task? id = some t ∧ t.Owes worker job

/-! ### Tasks by their numbers -/

theorem task?_eq (h : w₁.tasks = w.tasks) (id : TaskId) : w₁.task? id = w.task? id := by
  unfold task?
  rw [h]

theorem Numbered.task? (h : w.Numbered) (ht : t ∈ w.tasks) : w.task? t.id = some t := by
  cases hfind : w.task? t.id with
  | none =>
    have hnone := List.find?_eq_none.1 hfind t ht
    simp at hnone
  | some other =>
    obtain ⟨hother, hid⟩ := mem_of_task? hfind
    rw [h.eq_of_id ht hother hid]

theorem task?_setTask (hmem : task.id ∈ w.tasks.map Task.id) :
    (w.setTask task).task? task.id = some task := by
  have hsame : ((fun t : Task => t.id == task.id) ∘ fun t => if t.id = task.id then task else t) =
      fun t => t.id == task.id := by
    funext t
    dsimp only [Function.comp]
    split
    · next hid => rw [hid]
    · rfl
  obtain ⟨before, hbefore, hid⟩ := List.mem_map.1 hmem
  obtain ⟨found, hfound⟩ : ∃ found, w.tasks.find? (fun t => t.id == task.id) = some found :=
    Option.isSome_iff_exists.1 (List.find?_isSome.2 ⟨before, hbefore, by simpa using hid⟩)
  have hfoundId : found.id = task.id := by simpa using List.find?_some hfound
  show (w.tasks.map _).find? _ = _
  rw [List.find?_map, hsame, hfound, Option.map_some, if_pos hfoundId]

theorem task?_setTask_of_ne (w : World) (hne : id ≠ task.id) :
    (w.setTask task).task? id = w.task? id := by
  show (w.tasks.map _).find? _ = w.tasks.find? _
  induction w.tasks with
  | nil => rfl
  | cons t tasks ih =>
    rw [List.map_cons, List.find?_cons, List.find?_cons, ih]
    by_cases hid : t.id = task.id
    · have hnone : (task.id == id) = false := beq_eq_false_iff_ne.2 hne.symm
      rw [if_pos hid, hid, hnone]
    · rw [if_neg hid]

theorem task?_go (hmem : task.id ∈ w.tasks.map Task.id) (work : Work) :
    (w.go task work).task? task.id =
      some { task with work := work, limit := none, alarm := none } := by
  have hset : ({ task with work := work, limit := none, alarm := none } : Task).id ∈
      w.tasks.map Task.id := hmem
  exact task?_setTask hset

theorem task?_rest (hmem : task.id ∈ w.tasks.map Task.id) (time : Nat) :
    ∃ alarm, (w.rest task time).task? task.id = some { task with alarm := alarm } := by
  obtain ⟨alarm, hframe⟩ := exists_frame_rest w task time
  refine ⟨alarm, (task?_eq hframe.tasks _).trans ?_⟩
  have hset : ({ task with alarm := alarm } : Task).id ∈ w.tasks.map Task.id := hmem
  exact task?_setTask hset

/-! ### Once the runner was started -/

theorem started_occur (hsound : w.Sound) (hstarted : w.started = true) (occurrence : Occurrence) :
    (w.occur occurrence).started = true := by
  obtain ⟨runner, hrunner, hrunning⟩ := (Option.any_eq_true _ _).1 hstarted
  have hobeys := (obeys_occur hsound occurrence).runner
  rw [hrunner, Option.map_some] at hobeys
  unfold started
  rw [hobeys]
  cases w.runnerCall? occurrence with
  | none => exact hrunning
  | some call => exact Runner.started_perform hrunning call

theorem Request.of_started {call? : Option Runner.Call} (h : w.Request task call? w₁)
    (hsound : w.Sound) (hstarted : w.started = true) (htask : task ∈ w.tasks) :
    w₁.inCharge ≤ w.inCharge ∧ (w.drained = true → w₁.drained = true) := by
  have hasked := (h.evolves hsound htask).1
  cases h with
  | addQueue queue _ _ =>
    have hactive : (w.addQueue queue).2.active = w.active := by
      show (w.runner.map fun runner => runner.addQueue queue).any Runner.active = _
      rw [Option.any_map]
      simp only [Runner.active_addQueue]
      rfl
    refine ⟨?_, fun h => h⟩
    unfold inCharge
    rw [hactive]
    exact le_rfl
  | start _ _ =>
    obtain ⟨runner, hrunner, hrunning⟩ := (Option.any_eq_true _ _).1 hstarted
    rw [start_of_started hrunner hrunning]
    exact ⟨le_rfl, fun h => h⟩
  | stop _ _ hrunner hactive =>
    have hpositive : 0 < w.inCharge := inCharge_pos ((active_eq hrunner).trans hactive)
    refine ⟨hasked.charge.trans hpositive, fun hdrained => drained_eq_true_iff.2 fun t ht => ?_⟩
    rw [(handOver_eq w _ _).1] at ht
    rcases mem_setTask ht with rfl | ⟨hbefore, -⟩
    · rfl
    · exact drained_eq_true_iff.1 hdrained t hbefore
  | _ => exact ⟨le_rfl, fun h => h⟩

/-- **Once the runner was started**, nobody is put in charge of the loops who was not, and no loop
begins any more. -/
theorem occur_of_started (hsound : w.Sound) (hstarted : w.started = true) (occurrence : Occurrence) :
    (w.occur occurrence).inCharge ≤ w.inCharge ∧
      (w.drained = true → (w.occur occurrence).drained = true) := by
  have hasked : (w.askedIn occurrence).inCharge ≤ w.inCharge ∧
      (w.drained = true → (w.askedIn occurrence).drained = true) := by
    rcases w.requestIn occurrence with ⟨-, hsame⟩ | ⟨task, htask, -, hrequest⟩
    · rw [hsame]
      exact ⟨le_rfl, fun h => h⟩
    · exact hrequest.of_started hsound hstarted htask
  obtain ⟨acting, -, hevolves⟩ := exists_evolves_occur hsound occurrence
  exact ⟨hevolves.inCharge_le.trans hasked.1, fun hdrained => hevolves.drained (hasked.2 hdrained)⟩

/-! ### The loops of others -/

theorem Request.mem_tasks {call? : Option Runner.Call} (h : w.Request task call? w₁)
    (ht : t ∈ w.tasks) (hne : t.id ≠ task.id) : t ∈ w₁.tasks := by
  cases h with
  | start _ _ =>
    obtain ⟨others, htasks⟩ := tasks_start w
    rw [htasks]
    exact List.mem_append_left others ht
  | stop _ _ _ _ =>
    rw [(handOver_eq w _ _).1]
    exact List.mem_map.2 ⟨t, ht, if_neg hne⟩
  | _ => exact ht

theorem mem_askedIn (ht : t ∈ w.tasks) {occurrence : Occurrence} (hne : occurrence ≠ .serve t.id) :
    t ∈ (w.askedIn occurrence).tasks := by
  rcases w.requestIn occurrence with ⟨-, hsame⟩ | ⟨task, -, rfl, hrequest⟩
  · rwa [hsame]
  · exact hrequest.mem_tasks ht fun hid => hne (congrArg Occurrence.serve hid.symm)

/-- **A loop that does not act stays as it is**, but for the end of its handler. -/
theorem Evolves.attempts (h : Evolves acting w w₁) (hsound : w.Sound) (hcharge : 0 < w₁.inCharge)
    (hne : t.id ≠ acting) (ht : t ∈ w.tasks) {trial : Trial} (hattempts : t.Attempts trial) :
    ∃ t' ending, t' ∈ w₁.tasks ∧ t'.id = t.id ∧ t'.limit = t.limit ∧
      t'.Attempts { trial with ending := ending } := by
  obtain ⟨ticker, hwork⟩ := hattempts.work
  have hloop : t.work.isLoop = true := by
    rw [hwork]
    rfl
  have hcalm := h.stoppers_le hsound hcharge
  obtain ⟨t', ht', hid⟩ := List.mem_map.1 (h.kept hcalm t ht hloop hne)
  rcases h.origin t' ht' with ⟨before, hbefore, hfollows⟩ | hnew
  · rw [hsound.numbered.eq_of_id ht hbefore (hfollows.id.symm.trans hid)] at hfollows
    obtain ⟨hlimit, hbare⟩ := hfollows.bystander hne
    have hloop' : t'.work.isLoop = true := (Work.isLoop_eq hfollows.becomes.loop).trans hloop
    have huncancelled : t'.cancelled = false := Bool.eq_false_iff.2 fun hset => by
      obtain ⟨other, hother, hsame, hcancelled⟩ := h.uncancelled hcalm t' ht' hloop' hset
      rw [hsound.numbered.eq_of_id ht hother (hsame.trans hid), hattempts.uncancelled] at hcancelled
      cases hcancelled
    rw [hwork] at hbare
    cases hwork' : t'.work with
    | attempting trial' sequel =>
      rw [hwork'] at hbare
      obtain ⟨htrial, rfl⟩ := Work.attempting.inj hbare
      have hsame : trial' = { trial with ending := trial'.ending } := by
        cases trial
        cases trial'
        cases htrial
        rfl
      exact ⟨t', trial'.ending, ht', hid, hlimit, huncancelled, ticker, hsame ▸ hwork'⟩
    | _ =>
      rw [hwork'] at hbare
      cases hbare
  · have hlt := hsound.numbered.fresh t.id (List.mem_map_of_mem ht)
    rw [← hid] at hlt
    exact absurd hnew.fresh (not_le.2 hlt)

/-- **The debt of a loop that does not act stays.** -/
theorem Owes.evolves (howes : w.Owes id worker job) (h : Evolves acting w w₁) (hsound : w.Sound)
    (hcharge : 0 < w₁.inCharge) (hne : id ≠ acting) : w₁.Owes id worker job := by
  obtain ⟨t, hfind, trial, hattempts, hworker, hstate⟩ := howes
  obtain ⟨ht, rfl⟩ := mem_of_task? hfind
  obtain ⟨t', ending, ht', hid, hlimit, hattempts'⟩ := h.attempts hsound hcharge hne ht hattempts
  refine ⟨t', hid ▸ h.numbered.task? ht', { trial with ending := ending }, hattempts', hworker, ?_⟩
  rw [hlimit]
  exact hstate

theorem Owes.askedIn (howes : w.Owes id worker job) {occurrence : Occurrence}
    (hasked : (w.askedIn occurrence).Sound) (hne : occurrence ≠ .serve id) :
    (w.askedIn occurrence).Owes id worker job := by
  obtain ⟨t, hfind, howes⟩ := howes
  obtain ⟨ht, rfl⟩ := mem_of_task? hfind
  exact ⟨t, hasked.numbered.task? (mem_askedIn ht hne), howes⟩

theorem exists_evolves_of_ne (hsound : w.Sound) {occurrence : Occurrence}
    (hne : occurrence ≠ .serve id) : ∃ acting, id ≠ acting ∧ (w.askedIn occurrence).Sound ∧
      Evolves acting (w.askedIn occurrence) (w.occur occurrence) := by
  obtain ⟨acting, hother, hacting⟩ : ∃ acting, id ≠ acting ∧
      ∀ served, occurrence = .serve served → served = acting := by
    cases occurrence with
    | serve served =>
      exact ⟨served, fun heq => hne (congrArg Occurrence.serve heq.symm),
        fun _ heq => (Occurrence.serve.inj heq).symm⟩
    | _ => exact ⟨id + 1, (Nat.succ_ne_self id).symm, nofun⟩
  exact ⟨acting, hother, evolves_occur hsound occurrence hacting⟩

/-! ### The loop acts -/

theorem stoppers_go_le (w : World) (task : Task) {work : Work} (h : work.isStopping = false) :
    (w.go task work).stoppers ≤ w.stoppers := by
  have hset : (w.setTask { task with work := work, limit := none, alarm := none }).stoppers ≤
      w.stoppers := stoppers_setTask_le fun _ _ _ hstopping => by
    rw [show Work.isStopping _ = work.isStopping from rfl, h] at hstopping
    cases hstopping
  exact hset

theorem owes_rest (hmem : task.id ∈ w.tasks.map Task.id)
    (howes : task.Owes worker job) (time : Nat) : (w.rest task time).Owes task.id worker job := by
  obtain ⟨trial, hattempts, howes⟩ := howes
  obtain ⟨alarm, hrest⟩ := task?_rest hmem time
  exact ⟨_, hrest, trial, ⟨hattempts.uncancelled, hattempts.work⟩, howes⟩

/-- **When the handler of a loop is ended** the loop is still there, unless nobody is in charge of the
loops any more: it goes along only if the handler was. -/
theorem mem_cancel (hsound : w.Sound) (htask : task ∈ w.tasks) {trial : Trial} {ticker : Ticker}
    (hwork : task.work = .attempting trial (.loop ticker)) {work : Work}
    (hstopping : work.isStopping = false)
    (hevolves : Evolves task.id w ((trial.handler.elim w w.cancel).go task work))
    (hcharge : 0 < ((trial.handler.elim w w.cancel).go task work).inCharge) :
    task.id ∈ (trial.handler.elim w w.cancel).tasks.map Task.id := by
  have hrefl : Evolves (task.id + 1) w w := .refl hsound.numbered
  have hcancel : Evolves (task.id + 1) w (trial.handler.elim w w.cancel) := by
    cases hhandler : trial.handler with
    | none => exact hrefl
    | some handler =>
      obtain ⟨-, hnone⟩ := hsound.handlers task htask handler (by rw [hwork]; exact hhandler)
      exact hrefl.cancel hnone hnone
  have hcalm := (hevolves.stoppers_le hsound hcharge).trans (stoppers_go_le _ task hstopping)
  refine hcancel.kept hcalm task htask ?_ (Nat.succ_ne_self _).symm
  rw [hwork]
  rfl

/-- **A handler runs**: it has ended or its time is over, and the report comes next; or it goes on. -/
theorem owes_stepHandling (hsound : w.Sound) (htask : task ∈ w.tasks) {trial : Trial}
    {ticker : Ticker} (hcancelled : task.cancelled = false)
    (hwork : task.work = .attempting trial (.loop ticker)) (hworker : trial.worker = worker)
    (hattempt : trial.attempt = .handling job)
    (hcharge : 0 < (w.stepHandling task trial job (.loop ticker)).inCharge) :
    (w.stepHandling task trial job (.loop ticker)).Owes task.id worker job := by
  have hevolves := evolves_stepHandling hsound htask hwork job
  have hmem : task.id ∈ w.tasks.map Task.id := List.mem_map_of_mem htask
  have howes : task.Owes worker job :=
    ⟨trial, ⟨hcancelled, ticker, hwork⟩, hworker, .inl hattempt⟩
  have hgo : ∀ left : World, task.id ∈ left.tasks.map Task.id →
      (left.go task (.attempting
        (trial.move (trial.worker.afterHandler job trial.ending)) (.loop ticker))).Owes
          task.id worker job := by
    intro left hleft
    obtain ⟨report, hreport⟩ := trial.worker.exists_afterHandler job trial.ending
    rw [hreport]
    exact ⟨_, task?_go hleft _, trial.move (.reporting job report),
      ⟨hcancelled, ticker, rfl⟩, hworker,
      .inr ⟨rfl, report, rfl, .inr ⟨trial.ending, hworker ▸ hreport⟩⟩⟩
  revert hcharge hevolves
  unfold World.stepHandling
  dsimp only
  split
  · exact fun _ _ => hgo w hmem
  · split
    · intro hcharge hevolves
      exact hgo _ (mem_cancel hsound htask hwork rfl hevolves hcharge)
    · exact fun _ _ => owes_rest hmem howes _
  · exact fun _ _ => ⟨_, task?_setTask hmem, trial, ⟨hcancelled, ticker, hwork⟩,
      hworker, .inl hattempt⟩

theorem occur_attempting {trial : Trial} {ticker : Ticker} (hfind : w.task? id = some t)
    (hcancelled : t.cancelled = false) (hwork : t.work = .attempting trial (.loop ticker)) :
    w.occur (.serve id) = w.stepAttempting t trial (.loop ticker) := by
  rw [occur_serve hfind]
  unfold stepTask
  rw [hcancelled, hwork]
  rfl

/-- **A debt stays until it is paid**, as long as somebody is in charge of the loops. -/
theorem Owes.occur (howes : w.Owes id worker job) (hsound : w.Sound) (occurrence : Occurrence)
    (hcharge : 0 < (w.occur occurrence).inCharge) :
    (w.occur occurrence).Owes id worker job ∨
      occurrence = .serve id ∧ ∃ report, w.Reports id worker job report := by
  by_cases hself : occurrence = .serve id
  · subst hself
    obtain ⟨t, hfind, trial, hattempts, hworker, hhandling | ⟨hlimit, report, hreporting, hends⟩⟩ :=
      howes
    · obtain ⟨ht, rfl⟩ := mem_of_task? hfind
      obtain ⟨ticker, hwork⟩ := hattempts.work
      have hstep : w.occur (.serve t.id) = w.stepHandling t trial job (.loop ticker) := by
        rw [occur_attempting hfind hattempts.uncancelled hwork]
        unfold stepAttempting
        rw [hhandling]
      rw [hstep] at hcharge ⊢
      exact .inl (owes_stepHandling hsound ht hattempts.uncancelled hwork hworker hhandling hcharge)
    · exact .inr ⟨rfl, report, t, trial, hfind, hattempts, hlimit, hworker, hreporting, hends⟩
  · obtain ⟨acting, hne, hasked, hevolves⟩ := exists_evolves_of_ne hsound hself
    exact .inl ((howes.askedIn hasked hself).evolves hevolves hasked hcharge hne)

/-! ### Grants -/

/-- The grant that a loop gets in its next move, if any. -/
def grant? (w : World) (id : TaskId) : Option (Worker × Job) :=
  match w.task? id with
  | some { work := .attempting trial (.loop _), limit := none, cancelled := false, .. } =>
    match trial.attempt with
    | .claiming =>
      if w.isStalled trial.worker.claim then none
      else
        let answer : Except JobError (Option Job) := (w.invoke trial.worker.claim).1
        answer.toOption.join.map (trial.worker, ·)
    | _ => none
  | _ => none

theorem granted_of_grant? (h : w.grant? id = some (worker, job)) : w.Granted id worker job := by
  unfold grant? at h
  split at h
  · next trial ticker alarm hfind =>
    split at h
    · next hclaiming =>
      split at h
      · cases h
      · next hstalled =>
        obtain ⟨granted, hjob, heq⟩ := Option.map_eq_some_iff.1 h
        obtain ⟨rfl, rfl⟩ := Prod.mk.inj heq
        have hanswer : (w.invoke trial.worker.claim).1 = .ok (some granted) := by
          revert hjob
          cases (w.invoke trial.worker.claim).1 with
          | error e => exact nofun
          | ok found => exact fun hjob => congrArg Except.ok hjob
        exact ⟨_, trial, hfind, ⟨rfl, ticker, rfl⟩, rfl, rfl, hclaiming,
          Bool.eq_false_iff.2 hstalled, hanswer⟩
    · cases h
  · cases h

/-- The attempt of the job has a number: there is no handler for it, or its attempts are not beyond
count. -/
def Reportable (w : World) (job : Job) : Prop :=
  w.team.registry.find? job.jobType = none ∨ ∃ n, job.attempt = .ok n

instance : Decidable (w.Reportable job) :=
  decidable_of_iff ((w.team.registry.find? job.jobType).isNone ∨ job.attempt.isOk) <|
    or_congr Option.isNone_iff_eq_none <| by
      cases job.attempt with
      | error cause => exact iff_of_false Bool.false_ne_true nofun
      | ok n => exact iff_of_true rfl ⟨n, rfl⟩

theorem await_of_ok {call : Call} {limit : Duration} {next : call.Outcome → World → World}
    {a : call.Result} (hlimit : task.limit = none) (hstalled : w.isStalled call = false)
    (hanswer : (w.invoke call).1 = .ok a) :
    w.await task call limit next = next (.ok a) ((w.record call).invoke call).2 := by
  have hmade : ((w.record call).invoke call).1 = .ok a := hanswer
  unfold await
  rw [hlimit]
  dsimp only
  rw [if_neg (by rw [show (w.record call).isStalled call = false from hstalled]; exact nofun), hmade]

/-- **What becomes of a grant**: the report comes next, or the handler starts. -/
theorem Granted.cases (h : w.Granted id worker job) (hsound : w.Sound) :
    ∃ (t : Task) (trial : Trial) (ticker : Ticker) (left : World), t.id = id ∧
      t.cancelled = false ∧ trial.worker = worker ∧ id ∈ left.tasks.map Task.id ∧
      ((w.team.registry.find? job.jobType = none ∧ w.occur (.serve id) =
          left.go t (.attempting (trial.move (.reporting job
            (.failPermanently (Worker.noHandler job.jobType)))) (.loop ticker))) ∨
        ∃ code, w.team.registry.find? job.jobType = some code ∧
          w.occur (.serve id) = left.startHandler t trial job code (.loop ticker)) := by
  obtain ⟨t, trial, hfind, hattempts, hlimit, rfl, hclaiming, hstalled, hanswer⟩ := h
  obtain ⟨ht, rfl⟩ := mem_of_task? hfind
  obtain ⟨ticker, hwork⟩ := hattempts.work
  have hparty : trial.party = .runner := by
    have howned := hsound.owned t ht
    rw [hwork] at howned
    exact howned.2 rfl
  have hstep : w.occur (.serve t.id) =
      ((w.record trial.worker.claim).invoke trial.worker.claim).2.claimAnswered t trial
        (.loop ticker) (.ok (some job)) := by
    rw [occur_attempting hfind hattempts.uncancelled hwork]
    unfold stepAttempting
    rw [hclaiming]
    exact await_of_ok hlimit hstalled hanswer
  let left := ((w.record trial.worker.claim).invoke trial.worker.claim).2
  refine ⟨t, trial, ticker, left.track .runner job.id, rfl, hattempts.uncancelled, rfl,
    List.mem_map_of_mem ht, ?_⟩
  have hregistry : (left.site .runner).registry = w.team.registry := rfl
  rw [hstep]
  unfold claimAnswered Worker.afterClaim
  rw [hparty, hregistry]
  cases hfound : w.team.registry.find? job.jobType with
  | none =>
    simp only [hfound, Option.isSome_none]
    exact .inl ⟨trivial, rfl⟩
  | some code =>
    simp only [hfound, Option.isSome_some, if_true]
    exact .inr ⟨code, rfl, rfl⟩

/-- **Who is granted a job owes a report on it**, if its attempt has a number. -/
theorem Granted.owes (h : w.Granted id worker job) (hsound : w.Sound)
    (hreportable : w.Reportable job) : (w.occur (.serve id)).Owes id worker job := by
  obtain ⟨t, trial, ticker, left, rfl, hcancelled, rfl, hmem, ⟨-, hstep⟩ |
    ⟨code, hfound, hstep⟩⟩ := h.cases hsound
  · rw [hstep]
    exact ⟨_, task?_go hmem _, trial.move (.reporting job _), ⟨hcancelled, ticker, rfl⟩,
      rfl, .inr ⟨rfl, _, rfl, .inl rfl⟩⟩
  · obtain ⟨n, hattempt⟩ := hreportable.resolve_left (by rw [hfound]; exact nofun)
    obtain ⟨context, hcontext⟩ := JobContext.exists_ofJob hattempt trial.worker.handlerTimeout
    rw [hstep]
    unfold World.startHandler
    dsimp only
    rw [show JobContext.ofJob job trial.worker.handlerTimeout = _ from hcontext]
    dsimp only
    split
    · -- The handler has no time, so the report comes next.
      obtain ⟨report, hreport⟩ := trial.worker.exists_afterHandler job none
      exact ⟨_, task?_go hmem _, trial.move (.reporting job report),
        ⟨hcancelled, ticker, congrArg (Work.attempting · _) (congrArg trial.move hreport)⟩, rfl,
        .inr ⟨rfl, report, rfl, .inr ⟨none, hreport⟩⟩⟩
    · let running : Trial := { trial.move (.handling job) with handler := some left.nextTask }
      have howes : ∀ limit, Task.Owes
          { t with work := .attempting running (.loop ticker), limit := limit } trial.worker job :=
        fun limit => ⟨running, ⟨hcancelled, ticker, rfl⟩, rfl, .inl rfl⟩
      exact owes_rest (List.map_append ▸ List.mem_append_left _ hmem) (howes _) _

/-- A job whose attempts are beyond count ends the loop that is granted it. -/
theorem Granted.broken (h : w.Granted id worker job) (hsound : w.Sound)
    (hreportable : ¬ w.Reportable job) : (w.occur (.serve id)).task? id = none := by
  obtain ⟨hfound, hcount⟩ := not_or.1 hreportable
  obtain ⟨t, trial, ticker, left, rfl, -, -, -, ⟨hnone, -⟩ | ⟨code, -, hstep⟩⟩ := h.cases hsound
  · exact absurd hnone hfound
  · obtain ⟨cause, hattempt⟩ : ∃ cause, job.attempt = .error cause := by
      cases hattempt : job.attempt with
      | error cause => exact ⟨cause, rfl⟩
      | ok n => exact absurd ⟨n, hattempt⟩ hcount
    have hcontext := JobContext.ofJob_eq_error hattempt trial.worker.handlerTimeout
    rw [hstep]
    unfold World.startHandler
    dsimp only
    rw [show JobContext.ofJob job trial.worker.handlerTimeout = _ from hcontext]
    refine List.find?_eq_none.2 fun other hother hid => ?_
    exact not_mem_breakDown left _ cause (List.mem_map.2 ⟨other, hother, by simpa using hid⟩)

/-! ### Reports -/

/-- **A report was made**, and the system is another: the report is not answered, or its answer tells
whether the worker holds the job. -/
def ReportMade (w w₁ : World) (id : JobId) (worker : WorkerId) (report : Report) : Prop :=
  w₁.calls = report.call id worker :: w.calls ∧
    (w.isStalled (report.call id worker) = true ∨
      w₁.store = (w.store.run (report.call id worker) w.now).2 ∧
        Tells (report.outcome id worker w.now w.store) (w.store.holds id worker))

theorem calls_rest (w : World) (task : Task) (time : Nat) : (w.rest task time).calls = w.calls := by
  unfold rest
  dsimp only
  split <;> rfl

theorem calls_setSite (w : World) (party : Party) (site : Site) :
    (w.setSite party site).calls = w.calls := by
  cases party <;> rfl

theorem calls_removeLoop (w : World) (id : TaskId) : (w.removeLoop id).calls = w.calls := by
  obtain ⟨ready, hostReady, heq⟩ := exists_wakeAll (w.remove id) fun t => t.work.isStopping
  have hcalls := congrArg World.calls heq
  exact hcalls

theorem calls_abandon (w : World) (task : Task) : (w.abandon task).calls = w.calls := by
  have hleft : (if task.work.isLoop then w.removeLoop task.id else w.remove task.id).calls =
      w.calls := by
    split
    · exact calls_removeLoop w task.id
    · rfl
  unfold abandon
  dsimp only
  split
  · split
    · exact (calls_setSite _ _ _).trans hleft
    · exact hleft
  · exact hleft

theorem calls_breakDown (w : World) (task : Task) (hrole : task.work.role? = none)
    (cause : Breakdown) : (w.breakDown task cause).calls = w.calls := by
  unfold breakDown
  rw [hrole]
  exact calls_abandon w task

/-- **A bounded call of a loop is made**, if the loop does not wait for its answer already. -/
theorem made_await {call : Call} {limit : Duration} {next : call.Outcome → World → World}
    (hlimit : task.limit = none) (hrole : task.work.role? = none)
    (hnext : ∀ outcome left, (next outcome left).calls = left.calls ∧
      (next outcome left).store = left.store) :
    (w.await task call limit next).calls = call :: w.calls ∧
      (w.isStalled call = true ∨
        (w.await task call limit next).store = (w.store.run call w.now).2) := by
  unfold await
  rw [hlimit]
  dsimp only
  split
  · next hstalled =>
    refine ⟨?_, .inl hstalled⟩
    split
    · exact (hnext _ _).1
    · exact calls_rest (w.record call) _ _
  · split
    · exact ⟨calls_breakDown _ task hrole _, .inr (store_breakDown _ _ _)⟩
    · exact ⟨(hnext _ _).1, .inr (hnext _ _).2⟩

theorem Reports.made {report : Report} (h : w.Reports id worker job report) :
    w.ReportMade (w.occur (.serve id)) job.id worker.id report := by
  obtain ⟨t, trial, hfind, hattempts, hlimit, rfl, hreporting, -⟩ := h
  obtain ⟨ticker, hwork⟩ := hattempts.work
  let call := report.call job.id trial.worker.id
  let reported : World := w.await t call trial.worker.storeTimeout fun _ left =>
    (left.release trial.party job.id).go t
      (.attempting (trial.move Worker.afterReport) (.loop ticker))
  have hstep : w.occur (.serve id) = reported := by
    rw [occur_attempting hfind hattempts.uncancelled hwork]
    unfold stepAttempting
    rw [hreporting]
  obtain ⟨hcalls, hstore⟩ : reported.calls = call :: w.calls ∧
      (w.isStalled call = true ∨ reported.store = (w.store.run call w.now).2) :=
    made_await hlimit (by rw [hwork]; rfl) fun _ left =>
      ⟨calls_setSite left trial.party _, store_setSite left trial.party _⟩
  rw [hstep]
  exact ⟨hcalls, hstore.imp_right fun hstore => ⟨hstore, report.tells_outcome _ _ _ _⟩⟩

/-! ### Whole runs -/

theorem started_through (hsound : w.Sound) (hstarted : w.started = true) :
    ∀ later : List Occurrence, (w.through later).started = true
  | [] => hstarted
  | occurrence :: later =>
    started_occur (hsound.through later) (started_through hsound hstarted later) occurrence

/-- **After the end of the loops** there is none any more. -/
theorem drained_through (hsound : w.Sound) (hstarted : w.started = true) (hdrained : w.drained = true) :
    ∀ later : List Occurrence, (w.through later).drained = true
  | [] => hdrained
  | occurrence :: later =>
    (occur_of_started (hsound.through later) (started_through hsound hstarted later) occurrence).2
      (drained_through hsound hstarted hdrained later)

/-- **A debt is paid**, or still there, as long as somebody is in charge of the loops. -/
theorem Owes.through (howes : w.Owes id worker job) (hsound : w.Sound) (hstarted : w.started = true) :
    ∀ later : List Occurrence, 0 < (w.through later).inCharge →
      (w.through later).Owes id worker job ∨
        ∃ after before report, later = after ++ .serve id :: before ∧
          (w.through before).Reports id worker job report
  | [], _ => .inl howes
  | occurrence :: later, hcharge => by
    have hnow := hsound.through later
    obtain ⟨hless, -⟩ := occur_of_started hnow (started_through hsound hstarted later) occurrence
    rcases Owes.through howes hsound hstarted later (hcharge.trans_le hless) with
      howed | ⟨after, before, report, rfl, hreports⟩
    · rcases howed.occur hnow occurrence hcharge with hstill | ⟨rfl, report, hreports⟩
      · exact .inl hstill
      · exact .inr ⟨[], later, report, rfl, hreports⟩
    · exact .inr ⟨occurrence :: after, before, report, rfl, hreports⟩

theorem not_drained_of_mem (ht : t ∈ w.tasks) (hloop : t.work.isLoop = true) : w.drained = false := by
  refine Bool.eq_false_iff.2 fun hdrained => ?_
  rw [drained_eq_true_iff.1 hdrained t ht] at hloop
  cases hloop

theorem not_drained_of_attempts (hfind : w.task? id = some t) {trial : Trial}
    (hattempts : t.Attempts trial) : w.drained = false := by
  obtain ⟨ticker, hwork⟩ := hattempts.work
  refine not_drained_of_mem (mem_of_task? hfind).1 ?_
  rw [hwork]
  rfl

/-- **Every grant is followed by a report**, if the loops have ended since and somebody was in charge
of them. -/
theorem Granted.reported (h : w.Granted id worker job) (hsound : w.Sound)
    (hreportable : w.Reportable job) {later : List Occurrence}
    (hcharge : 0 < (w.through (later ++ [.serve id])).inCharge)
    (hdrained : (w.through (later ++ [.serve id])).drained = true) :
    ∃ after before report, later = after ++ .serve id :: before ∧
      (w.through (before ++ [.serve id])).Reports id worker job report := by
  have hstarted : w.started = true := by
    obtain ⟨t, trial, hfind, hattempts, -⟩ := h
    exact hsound.started (.inr (not_drained_of_attempts hfind hattempts))
  have hafter : ∀ later, w.through (later ++ [.serve id]) = (w.occur (.serve id)).through later :=
    through_append w [.serve id]
  rw [hafter] at hcharge hdrained
  rcases (h.owes hsound hreportable).through (hsound.occur _) (started_occur hsound hstarted _) later
    hcharge with ⟨t, hfind, trial, hattempts, -⟩ | ⟨after, before, report, heq, hreports⟩
  · rw [not_drained_of_attempts hfind hattempts] at hdrained
    cases hdrained
  · exact ⟨after, before, report, heq, hafter before ▸ hreports⟩

end World

end JobQueue

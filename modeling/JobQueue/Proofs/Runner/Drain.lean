import JobQueue.Proofs.Runner.Debts

/-! # What a stop waits for

The stop of an active runner tells its loops to end and waits for them. It succeeds when the last loop
has ended. Then no loop ever runs again, no job is in flight, and every job that a loop was granted
was reported, but for those whose attempts are beyond count. A stop whose time is over names the jobs
in flight; it changes nothing in the store either way.

* `World.Stops`: the stop that took the loops; `World.stopAnswer?`: what it is answered.
* `World.Stops.occur`: **a move of a stop.**
* `World.inFlight_of_drained`: without loops no job is in flight.
* `stop_drains`: what a stop that succeeds leaves behind.
* `stop_drops_uncounted`: a job that is dropped without a report. -/

namespace JobQueue

namespace World

variable {w left : World} {task : Task} {role : Role} {next : Answer → Program} {limit : Option Nat}

/-- **A task is in the stop that took the loops**: it waits for them until the limit, or it is about to
stop an active runner. -/
inductive Stops (w : World) (task : Task) (role : Role) (next : Answer → Program) :
    Option Nat → Prop
  | waits (hwork : task.work = .stopping role next) : Stops w task role next task.limit
  | begins (timeout : Duration) (hwork : task.work = .running role (.stop timeout next))
      (hactive : w.active = true) : Stops w task role next (some (w.after timeout))

/-- **The answer of the stop**: the loops have ended, or the time is over; else there is none yet. -/
def stopAnswer? (w : World) (limit : Option Nat) : Option Answer :=
  if w.drained then some .nothing
  else if limit.any (· ≤ w.nanos) then some (.refused (.shutdownTimeout (w.inFlight .runner).ids))
  else none

theorem stopAnswer?_eq_nothing_iff : w.stopAnswer? limit = some .nothing ↔ w.drained = true := by
  unfold stopAnswer?
  split
  · next hdrained => exact iff_of_true rfl hdrained
  · next hloops =>
    refine iff_of_false (fun h => ?_) hloops
    split at h
    · cases h
    · cases h

/-- What the task of a stop does then. -/
def afterStop (w : World) (role : Role) (next : Answer → Program) (limit : Option Nat) : Work :=
  (w.stopAnswer? limit).elim (.stopping role next) fun answer => .running role (next answer)

/-! ### Moves of a stop -/

theorem stepStopping_eq (hmem : task.id ∈ w.tasks.map Task.id)
    (hwork : task.work = .stopping role next) :
    (w.stepStopping task role next).store = w.store ∧
      ((w.stepStopping task role next).task? task.id).map Task.work =
        some (w.afterStop role next task.limit) := by
  have hgo : ∀ work, ((w.go task work).task? task.id).map Task.work = some work := fun work =>
    congrArg (Option.map Task.work) (task?_go hmem work)
  have hrest : ∀ time, ((w.rest task time).task? task.id).map Task.work = some (.stopping role next) :=
    fun time => by
      obtain ⟨alarm, hfound⟩ := task?_rest hmem time
      rw [hfound]
      exact congrArg some hwork
  unfold World.stepStopping afterStop stopAnswer?
  by_cases hdrained : w.drained = true
  · rw [if_pos hdrained, if_pos hdrained]
    exact ⟨rfl, hgo _⟩
  · rw [if_neg hdrained, if_neg hdrained]
    cases task.limit with
    | none =>
      have hset : ({ task with alarm := none } : Task).id ∈ w.tasks.map Task.id := hmem
      refine ⟨rfl, (congrArg (Option.map Task.work) (task?_setTask hset)).trans ?_⟩
      exact congrArg some hwork
    | some time =>
      by_cases htime : time ≤ w.nanos
      · simp only [if_pos htime, Option.any_some, decide_eq_true htime, if_true]
        exact ⟨rfl, hgo _⟩
      · simp only [if_neg htime, Option.any_some, decide_eq_false htime]
        exact ⟨store_rest w task time, hrest time⟩

/-- **A move of a stop** leaves the store alone, and the stop is answered as `stopAnswer?` says. -/
theorem Stops.occur (h : w.Stops task role next limit)
    (hfind : w.task? task.id = some task) (hcancelled : task.cancelled = false) :
    (w.occur (.serve task.id)).store = w.store ∧
      ((w.occur (.serve task.id)).task? task.id).map Task.work =
        some (w.afterStop role next limit) := by
  have hmem := List.mem_map_of_mem (f := Task.id) (mem_of_task? hfind).1
  rw [occur_serve hfind]
  cases h with
  | waits hwork =>
    have hstep : w.stepTask task = w.stepStopping task role next := by
      unfold stepTask
      rw [hcancelled, hwork]
      rfl
    rw [hstep]
    exact stepStopping_eq hmem hwork
  | begins timeout hwork hactive =>
    obtain ⟨runner, hrunner, hrunning⟩ := (Option.any_eq_true _ _).1 hactive
    let team : Site := { w.team with shutdown := w.team.shutdown.signal }
    obtain ⟨ready, hostReady, htold⟩ := exists_wakeAll
      { w with runner := some runner.stop.2, team := team } fun t => t.party == .runner
    have hstep : w.stepTask task = World.stepStopping
        { w with runner := some runner.stop.2, team := team, ready := ready, hostReady := hostReady }
        { task with work := .stopping role next, limit := some (w.after timeout) } role next := by
      rw [stepTask_running hcancelled hwork, ← htold]
      exact stop_of_active hrunner hrunning timeout
    rw [hstep]
    exact stepStopping_eq hmem rfl

theorem exists_stops {id : TaskId}
    (h : (w.task? id).any (fun t => !t.cancelled && t.work.isStopping) = true) :
    ∃ task role next, w.task? id = some task ∧ task.cancelled = false ∧
      w.Stops task role next task.limit := by
  obtain ⟨task, hfind, htask⟩ := (Option.any_eq_true _ _).1 h
  obtain ⟨hcancelled, hstopping⟩ := Bool.and_eq_true_iff.1 htask
  cases hwork : task.work with
  | stopping role next =>
    exact ⟨task, role, next, hfind, (Bool.not_eq_true' _).mp hcancelled, .waits hwork⟩
  | _ =>
    rw [hwork] at hstopping
    cases hstopping

theorem Stops.inCharge (h : w.Stops task role next limit) (hfind : w.task? task.id = some task) :
    0 < w.inCharge := by
  cases h with
  | waits hwork =>
    have hstopping : 0 < w.stoppers :=
      List.countP_pos_iff.2 ⟨task, (mem_of_task? hfind).1, by rw [hwork]; rfl⟩
    exact Nat.add_pos_right _ hstopping
  | begins timeout hwork hactive => exact inCharge_pos hactive

/-! ### Without loops -/

/-- **Without loops no job of the runner is in flight.** -/
theorem inFlight_of_drained (hsound : w.Sound) (hrelated : w.Related InFlight.Covered .runner)
    (hdrained : w.drained = true) : (w.inFlight .runner).ids = [] := by
  have hheld : w.held .runner = [] := List.filterMap_eq_nil_iff.2 fun t ht => by
    have hloop := drained_eq_true_iff.1 hdrained t ht
    have howned := hsound.owned t ht
    cases hwork : t.work with
    | attempting trial sequel =>
      rw [hwork] at hloop howned
      have hparty : trial.party ≠ .runner := fun hrunner => by
        rw [show Work.isLoop _ = sequel.isLoop from rfl, howned.1 hrunner] at hloop
        cases hloop
      exact if_neg hparty
    | _ => rfl
  have hcovered := hrelated.related
  rw [hheld] at hcovered
  exact List.eq_nil_iff_forall_not_mem.2 fun id hid => List.not_mem_nil (hcovered id hid)

end World

/-- **What a stop waits for.** Whatever was asked of a runner and whatever else occurred: the stop that
took its loops changes nothing in the store, and it succeeds just when all loops have ended. When it
does, no loop runs ever after and no job is in flight; and every job that a loop was granted, if its
attempt has a number, was reported on by the same loop in the meantime: the report was not answered,
or failed, or it was accepted and the worker held the job, or rejected and the worker did not.

A loop that is granted a job whose attempts are beyond count ends at once and makes no report. -/
theorem stop_drains (id : WorkerId) (config : RunnerConfig) (store : Backend) (clock : Clock)
    (host : Program) (occurrences : List Occurrence) (task : Task) (role : Role)
    (next : Answer → Program) (limit : Option Nat) :
    let start := World.create store clock config (some (Runner.fresh id config)) host
    let w := start.through occurrences
    let w₁ := w.occur (.serve task.id)
    w.task? task.id = some task → task.cancelled = false → w.Stops task role next limit →
    w₁.store = w.store ∧ (w₁.task? task.id).map Task.work = some (w.afterStop role next limit) ∧
    (w.stopAnswer? limit = some .nothing ↔ w.drained = true) ∧
    (w.drained = true → ∀ later : List Occurrence,
      (∀ t ∈ (w₁.through later).tasks, t.work.isLoop = false) ∧
        ((w₁.through later).inFlight .runner).ids = []) ∧
    ∀ (later before : List Occurrence) (loop : TaskId) (worker : Worker) (job : Job),
      occurrences = later ++ .serve loop :: before →
      (start.through before).Granted loop worker job →
      (¬ (start.through before).Reportable job →
        (start.through (.serve loop :: before)).task? loop = none) ∧
      (w.drained = true → (start.through before).Reportable job →
        ∃ after between report, later = after ++ .serve loop :: between ∧
          let v := start.through (between ++ .serve loop :: before)
          v.Reports loop worker job report ∧
            v.ReportMade (v.occur (.serve loop)) job.id worker.id report) := by
  intro start w w₁ hfind hcancelled hstops
  have hsound : ∀ occurrences, (start.through occurrences).Sound :=
    fun occurrences => (World.sound_create store clock config id host).through occurrences
  have hcovered : start.Related InFlight.Covered .runner :=
    World.related_create InFlight.covered_empty store clock config _ host
  have hcharge : 0 < w.inCharge := hstops.inCharge hfind
  have hstarted : w.started = true := (hsound occurrences).started (.inl hcharge)
  obtain ⟨hstore, hwork⟩ := hstops.occur hfind hcancelled
  refine ⟨hstore, hwork, World.stopAnswer?_eq_nothing_iff, fun hdrained later => ?_, ?_⟩
  · have hafter : (w.through (later ++ [.serve task.id])).drained = true :=
      World.drained_through (hsound occurrences) hstarted hdrained _
    rw [World.through_append] at hafter
    have hall : w₁.through later = start.through (later ++ .serve task.id :: occurrences) :=
      (World.through_append start (.serve task.id :: occurrences) later).symm
    have hrelated : (w₁.through later).Related InFlight.Covered .runner := by
      rw [hall]
      exact World.related_through InFlight.stable_covered hcovered _ fun _ _ _ id _ h =>
        h.related.track id
    exact ⟨World.drained_eq_true_iff.1 hafter,
      World.inFlight_of_drained (hall ▸ hsound _) hrelated hafter⟩
  · rintro later before loop worker job rfl hgranted
    have hsplit : ∀ others, start.through (others ++ .serve loop :: before) =
        (start.through before).through (others ++ [.serve loop]) := fun others => by
      rw [← World.through_append, List.append_assoc]
      rfl
    refine ⟨hgranted.broken (hsound before), fun hdrained hreportable => ?_⟩
    have hcharged : 0 < ((start.through before).through (later ++ [.serve loop])).inCharge := by
      rw [← hsplit]
      exact hcharge
    have hended : ((start.through before).through (later ++ [.serve loop])).drained = true := by
      rw [← hsplit]
      exact hdrained
    obtain ⟨after, between, report, hlater, hreports⟩ :=
      hgranted.reported (hsound before) hreportable hcharged hended
    rw [← hsplit between] at hreports
    exact ⟨after, between, report, hlater, hreports, hreports.made⟩

/-- A host that has one kind of work of one queue done, and stops the runner. -/
def Program.serveAndStop : Program :=
  .register .runner "t" (fun _ _ => .finish (.returned [])) <|
    .perform (.addQueue "q") fun _ => .perform .start fun _ =>
      .stop (.ofSecs 5) fun _ => .stuck

/-- A system with one job, and one worker for it. -/
def World.servingOne (job : Job) : World :=
  let config := { RunnerConfig.standard with workerCount := 1 }
  .create (.memory ⟨[job], true, false⟩) (.manual 0) config (some (Runner.fresh "r" config))
    .serveAndStop

/-- The loop is granted the job, which is done; then the loops end, and the stop succeeds. -/
theorem stop_drains_of_one_job :
    let start := World.servingOne (.create "a" 0 "q" "t" [] 0 3)
    let before := [1, 0, 0, 0].map Occurrence.serve
    let later := [2, 1, 0, 1, 1, 1, 3].map Occurrence.serve
    let w := start.through (later ++ .serve 1 :: before)
    ∃ task role next worker job, w.task? World.hostTask = some task ∧ task.cancelled = false ∧
      w.Stops task role next task.limit ∧ w.stopAnswer? task.limit = some .nothing ∧
      (start.through before).Granted 1 worker job ∧ (start.through before).Reportable job ∧
      ((w.occur (.serve task.id)).inFlight .runner).ids = [] ∧
      ∃ after between report, later = after ++ .serve 1 :: between ∧
        (start.through (between ++ .serve 1 :: before)).Reports 1 worker job report := by
  intro start before later w
  have htask : (w.task? World.hostTask).any
      (fun t => !t.cancelled && t.work.isStopping) = true := by
    decide +kernel
  have hgrant : ((start.through before).grant? 1).any
      (fun grant => (start.through before).Reportable grant.2) = true := by
    decide +kernel
  have hdrained : w.drained = true := by decide +kernel
  obtain ⟨task, role, next, hfind, hcancelled, hstops⟩ := World.exists_stops htask
  have hid : task.id = World.hostTask := (World.mem_of_task? hfind).2
  obtain ⟨⟨worker, job⟩, hgranted, hreportable⟩ := (Option.any_eq_true _ _).1 hgrant
  have hgranted := World.granted_of_grant? hgranted
  have hreportable := of_decide_eq_true hreportable
  obtain ⟨-, -, hanswer, hended, hreports⟩ := stop_drains "r" _ _ _ _ _ task role next task.limit
    (hid ▸ hfind) hcancelled hstops
  obtain ⟨after, between, report, heq, hreports, -⟩ :=
    (hreports later before 1 worker job rfl hgranted).2 hdrained hreportable
  exact ⟨task, role, next, worker, job, hfind, hcancelled, hstops, hanswer.2 hdrained, hgranted,
    hreportable, (hended hdrained []).2, after, between, report, heq, hreports⟩

/-- **A job that is dropped without a report**: its attempts are beyond count. The loop that is
granted it is no more, so the stop succeeds, and the job stays with a worker that is not there. -/
theorem stop_drops_uncounted :
    let job := { Job.create "a" 0 "q" "t" [] 0 2147483647 with attempts := 2147483647 }
    let start := World.servingOne job
    let before := [1, 0, 0, 0].map Occurrence.serve
    let w := start.through ([2, 0].map Occurrence.serve ++ .serve 1 :: before)
    (∃ worker granted, (start.through before).Granted 1 worker granted ∧ granted.id = "a" ∧
      ¬ (start.through before).Reportable granted) ∧
    (∃ task role next, w.task? World.hostTask = some task ∧ task.cancelled = false ∧
      w.Stops task role next task.limit ∧ w.stopAnswer? task.limit = some .nothing) ∧
    w.calls.map Call.method = [.claimNext] ∧ w.store.holds "a" "r:q:0" = true := by
  intro job start before w
  have hgrant : ((start.through before).grant? 1).any
      (fun grant => grant.2.id = "a" ∧ ¬ (start.through before).Reportable grant.2) = true := by
    decide +kernel
  have htask : (w.task? World.hostTask).any
      (fun t => !t.cancelled && t.work.isStopping) = true := by
    decide +kernel
  have hdrained : w.drained = true := by decide +kernel
  obtain ⟨⟨worker, granted⟩, hgranted, hdropped⟩ := (Option.any_eq_true _ _).1 hgrant
  obtain ⟨hid, hdropped⟩ := of_decide_eq_true hdropped
  obtain ⟨task, role, next, hfind, hcancelled, hstops⟩ := World.exists_stops htask
  exact ⟨⟨worker, granted, World.granted_of_grant? hgranted, hid, hdropped⟩,
    ⟨task, role, next, hfind, hcancelled, hstops,
      World.stopAnswer?_eq_nothing_iff.2 hdrained⟩, by decide +kernel, by decide +kernel⟩

end JobQueue

import JobQueue.Proofs.Worker.Holders

/-! # What commands leave as it is

Of the runner a system has its state, its configuration and its shutdown signal, and the tasks that
are its loops. Most of what happens touches none of these (`World.Frame`), nor the jobs in flight
(`World.Quiet`).

* `World.quiet_execute`: **a command is quiet**, except that it declares a queue of the runner or
  starts it. -/

namespace JobQueue.World

variable {w w' w'' : World}

/-- **Tasks and runner are the same.** -/
structure Frame (w w' : World) : Prop where
  tasks : w'.tasks = w.tasks
  next : w'.nextTask = w.nextTask
  config : w'.config = w.config
  runner : w'.runner = w.runner
  signal : w'.team.shutdown = w.team.shutdown

/-- **Tasks, runner and jobs in flight are the same.** -/
structure Quiet (w w' : World) : Prop extends Frame w w' where
  inFlight : ∀ party, w'.inFlight party = w.inFlight party

theorem Frame.refl (w : World) : w.Frame w := ⟨rfl, rfl, rfl, rfl, rfl⟩

theorem Frame.trans (h : w.Frame w') (h' : w'.Frame w'') : w.Frame w'' :=
  ⟨h'.tasks.trans h.tasks, h'.next.trans h.next, h'.config.trans h.config,
    h'.runner.trans h.runner, h'.signal.trans h.signal⟩

namespace Quiet

theorem refl (w : World) : w.Quiet w := ⟨.refl w, fun _ => rfl⟩

theorem trans (h : w.Quiet w') (h' : w'.Quiet w'') : w.Quiet w'' :=
  ⟨h.toFrame.trans h'.toFrame, fun party => (h'.inFlight party).trans (h.inFlight party)⟩

theorem of_eq (htasks : w'.tasks = w.tasks) (hnext : w'.nextTask = w.nextTask)
    (hconfig : w'.config = w.config) (hrunner : w'.runner = w.runner)
    (hdirect : w'.direct = w.direct) (hteam : w'.team = w.team) : w.Quiet w' := by
  refine ⟨⟨htasks, hnext, hconfig, hrunner, congrArg Site.shutdown hteam⟩, fun party => ?_⟩
  cases party with
  | direct => exact congrArg Site.inFlight hdirect
  | runner => exact congrArg Site.inFlight hteam

theorem like (h : w.Quiet w') (party : Party) : w.Like party w' :=
  ⟨h.tasks, h.next, h.inFlight party⟩

end Quiet

/-! ### Places among the ready, and sites -/

theorem quiet_wake (w : World) (id : TaskId) : w.Quiet (w.wake id) := by
  unfold wake
  split <;> exact .of_eq rfl rfl rfl rfl rfl rfl

theorem exists_wakeAll (w : World) (condition : Task → Bool) : ∃ ready hostReady,
    w.wakeAll condition = { w with ready := ready, hostReady := hostReady } := by
  unfold wakeAll
  generalize w.tasks.filter condition = tasks
  induction tasks generalizing w with
  | nil => exact ⟨w.ready, w.hostReady, rfl⟩
  | cons task tasks ih =>
    obtain ⟨ready, hostReady, heq⟩ := ih (w.wake task.id)
    rw [List.foldl_cons, heq]
    unfold wake
    split <;> exact ⟨_, _, rfl⟩

theorem quiet_wakeAll (w : World) (condition : Task → Bool) : w.Quiet (w.wakeAll condition) := by
  obtain ⟨ready, hostReady, heq⟩ := exists_wakeAll w condition
  rw [heq]
  exact .of_eq rfl rfl rfl rfl rfl rfl

theorem frame_setSite (w : World) {party : Party} {site : Site}
    (h : site.shutdown = (w.site party).shutdown) : w.Frame (w.setSite party site) := by
  cases party with
  | direct => exact ⟨rfl, rfl, rfl, rfl, rfl⟩
  | runner => exact ⟨rfl, rfl, rfl, rfl, h⟩

theorem frame_track (w : World) (party : Party) (id : JobId) : w.Frame (w.track party id) :=
  frame_setSite w rfl

theorem frame_release (w : World) (party : Party) (id : JobId) : w.Frame (w.release party id) :=
  frame_setSite w rfl

theorem quiet_register (w : World) (party : Party) (jobType : JobType) (code : HandlerCode) :
    w.Quiet (w.register party jobType code) :=
  ⟨frame_setSite w rfl, fun other => (like_register other w party jobType code).inFlight⟩

theorem quiet_signalDirect (w : World) : w.Quiet (w.signalShutdown .direct) := by
  have hsite : w.Quiet (w.setSite .direct
      { w.site .direct with shutdown := (w.site .direct).shutdown.signal }) :=
    ⟨⟨rfl, rfl, rfl, rfl, rfl⟩, fun party => by cases party <;> rfl⟩
  exact hsite.trans (quiet_wakeAll _ _)

/-! ### Commands -/

/-- The world after a command. -/
def Progress.world : Progress → World
  | .done _ w => w
  | .waits _ _ w => w
  | .upgrades w => w

theorem quiet_attemptCall (w : World) (call : Call) (limit : Option Duration)
    (finish : call.Outcome → World → Answer) : w.Quiet (w.attemptCall call limit finish).world := by
  unfold attemptCall
  dsimp only
  split <;> exact .of_eq rfl rfl rfl rfl rfl rfl

theorem quiet_enqueue (w : World) (request : Request) : w.Quiet (w.enqueue request).world := by
  unfold enqueue
  dsimp only
  split
  · exact .refl w
  · split
    · exact .of_eq rfl rfl rfl rfl rfl rfl
    · split <;> exact .of_eq rfl rfl rfl rfl rfl rfl

theorem quiet_onDatabase {α : Type} (w : World)
    (f : Sql.Store → Except Sql.Fault α × Sql.Store) (finish : α → Answer) :
    w.Quiet (w.onDatabase f finish).world := by
  unfold onDatabase
  split <;> exact .of_eq rfl rfl rfl rfl rfl rfl

theorem quiet_migrate (w : World) : w.Quiet w.migrate.world := by
  unfold World.migrate
  split <;> exact .refl w

theorem quiet_invoke (w : World) (call : Call) : w.Quiet (w.invoke call).2 :=
  .of_eq rfl rfl rfl rfl rfl rfl

theorem quiet_readings : ∀ (ids : List JobId) (w : World), w.Quiet (w.readings ids).2
  | [], w => .refl w
  | id :: ids, w => by
    have hlook : w.Quiet (w.look id).2 := quiet_invoke w _
    unfold readings
    split
    · next hfound => rwa [hfound] at hlook
    · next hfound =>
      rw [hfound] at hlook
      exact hlook.trans (quiet_readings ids _)

theorem quiet_hasStatus (w : World) (jobId : JobId) (status : Status) :
    w.Quiet (w.hasStatus jobId status).2 := by
  have hlook : w.Quiet (w.look jobId).2 := quiet_invoke w _
  unfold hasStatus
  split <;> (next hfound => rwa [hfound] at hlook)

theorem quiet_claimAll (queue : QueueName) :
    ∀ (fuel workers : Nat) (seen : List JobId × Option JobError) (w : World),
      w.Quiet (claimAll queue fuel workers seen w).2
  | 0, _, _, w => .refl w
  | fuel + 1, 0, _, w => .refl w
  | fuel + 1, workers + 1, (ids, e?), w => by
    have hinvoke := quiet_invoke w (.claimNext queue "racer")
    unfold claimAll
    split
    · next hclaimed =>
      rw [hclaimed] at hinvoke
      exact hinvoke.trans (quiet_claimAll queue fuel (workers + 1) _ _)
    · next hclaimed => rwa [hclaimed] at hinvoke
    · next hclaimed =>
      rw [hclaimed] at hinvoke
      exact hinvoke.trans (quiet_claimAll queue fuel workers _ _)

theorem quiet_race (w : World) (queue : QueueName) (workers : Nat) :
    w.Quiet (w.race queue workers).2 := by
  have hclaims := quiet_claimAll queue (w.entered.length + workers + 1) workers ([], none) w
  unfold race
  split <;> (next hclaimed => rwa [hclaimed] at hclaims)

theorem quiet_registerDemo (w : World) : w.Quiet w.registerDemo := by
  unfold registerDemo
  generalize DemoHandlers.all = handlers
  induction handlers generalizing w with
  | nil => exact .refl w
  | cons entry handlers ih => exact (quiet_register w .runner entry.1 entry.2).trans (ih _)

theorem quiet_execute (w : World) {command : Command} (hstart : command ≠ .start)
    (hqueue : ∀ queue, command ≠ .addQueue queue) : w.Quiet (w.execute command).world := by
  unfold execute
  cases command with
  | enqueue request => exact quiet_enqueue w request
  | call call =>
    have henter : ∀ id, w.Quiet (w.enter id) := fun _ => .of_eq rfl rfl rfl rfl rfl rfl
    cases call with
    | insert job => exact (henter job.id).trans (quiet_attemptCall _ _ _ _)
    | _ => exact quiet_attemptCall w _ _ _
  | boundedCall call => exact quiet_attemptCall w call _ _
  | overview => exact quiet_attemptCall w .queueStats _ _
  | jobs => exact quiet_readings _ w
  | migrate => exact quiet_migrate w
  | schemaVersion => exact quiet_onDatabase w _ _
  | schema => exact quiet_onDatabase w _ _
  | reopen => exact quiet_onDatabase w _ _
  | race queue workers => exact quiet_race w queue workers
  | shutdown => exact quiet_signalDirect w
  | registerDemo => exact quiet_registerDemo w
  | start => exact absurd rfl hstart
  | addQueue queue => exact absurd rfl (hqueue queue)
  | _ => exact .of_eq rfl rfl rfl rfl rfl rfl

end JobQueue.World

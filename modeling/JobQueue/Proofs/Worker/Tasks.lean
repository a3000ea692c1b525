import JobQueue.Proofs.Worker.System
import JobQueue.Simulation.Step

/-! # Tasks make attempts

The workers of the simulated system (`World`) are tasks, with limits for their calls and handlers
that are tasks of their own. When the task of a worker makes a step, the store and the attempt
change by moves of `System`: none while the task rests, two when a claim is answered and the handler
has no time. A task that breaks down is no more.

* `World.Stands`: the world has the store of the system, and the task of the worker, if it is still
  there, stands where the system says (`Work.Fits`).
* `World.Awaited`: what becomes of a bounded call.
* `World.Moved`: the worker has made moves. `World.moved_stepTask`: **a step of a worker is made of
  moves.** -/

namespace JobQueue

/-- The work of a task fits the attempt of the worker: it is this attempt, or waits for the tick of
the next one, or has nothing to do with it. -/
def Work.Fits (worker : Worker) (attempt : Attempt) : Work → Prop
  | .polling other _ => other = worker ∧
      (attempt = .claiming ∨ ∃ claimed, attempt = .finished claimed)
  | .attempting trial _ => trial.worker = worker ∧ trial.attempt = attempt
  | _ => True

/-- What the task was told of the end of its handler, if anything. -/
def Work.told? : Work → Option Ending
  | .attempting trial _ => trial.ending
  | _ => none

namespace World

/-! ### What steps leave -/

theorem store_setSite (w : World) (party : Party) (site : Site) :
    (w.setSite party site).store = w.store := by
  cases party <;> rfl

theorem tasks_setSite (w : World) (party : Party) (site : Site) :
    (w.setSite party site).tasks = w.tasks := by
  cases party <;> rfl

theorem store_wake (w : World) (id : TaskId) : (w.wake id).store = w.store := by
  unfold wake
  split <;> rfl

theorem tasks_wake (w : World) (id : TaskId) : (w.wake id).tasks = w.tasks := by
  unfold wake
  split <;> rfl

theorem store_foldl {f : World → Task → World} (h : ∀ w task, (f w task).store = w.store) :
    ∀ (tasks : List Task) (w : World), (tasks.foldl f w).store = w.store
  | [], _ => rfl
  | task :: tasks, w => (store_foldl h tasks (f w task)).trans (h w task)

theorem tasks_foldl_wake : ∀ (tasks : List Task) (w : World),
    (tasks.foldl (fun w t => w.wake t.id) w).tasks = w.tasks
  | [], _ => rfl
  | task :: tasks, w => (tasks_foldl_wake tasks (w.wake task.id)).trans (tasks_wake w task.id)

theorem store_removeLoop (w : World) (id : TaskId) : (w.removeLoop id).store = w.store :=
  store_foldl (fun w task => store_wake w task.id) _ _

theorem tasks_removeLoop (w : World) (id : TaskId) :
    (w.removeLoop id).tasks = (w.remove id).tasks :=
  tasks_foldl_wake _ _

theorem store_abandon (w : World) (task : Task) : (w.abandon task).store = w.store := by
  have hleft : (if task.work.isLoop then w.removeLoop task.id else w.remove task.id).store =
      w.store := by
    split
    · exact store_removeLoop w task.id
    · rfl
  unfold abandon
  dsimp only
  generalize (if task.work.isLoop then w.removeLoop task.id else w.remove task.id) = left at hleft ⊢
  split
  · split
    · exact (store_setSite _ _ _).trans hleft
    · exact hleft
  · exact hleft

theorem tasks_abandon (w : World) (task : Task) :
    (w.abandon task).tasks = (w.remove task.id).tasks := by
  have hleft : (if task.work.isLoop then w.removeLoop task.id else w.remove task.id).tasks =
      (w.remove task.id).tasks := by
    split
    · exact tasks_removeLoop w task.id
    · rfl
  unfold abandon
  dsimp only
  generalize (if task.work.isLoop then w.removeLoop task.id else w.remove task.id) = left at hleft ⊢
  split
  · split
    · exact (tasks_setSite _ _ _).trans hleft
    · exact hleft
  · exact hleft

theorem store_cancelWith {stop : World → Task → World}
    (h : ∀ w task, (stop w task).store = w.store) (w : World) (task : Task) :
    (cancelWith stop w task).store = w.store := by
  unfold cancelWith
  split
  · exact store_wake _ _
  · exact h w task

theorem store_discard (w : World) (task : Task) : (w.discard task).store = w.store := by
  unfold discard
  dsimp only
  split
  · exact (store_foldl (store_cancelWith store_abandon) _ _).trans (store_abandon w task)
  · exact store_abandon w task

theorem store_cancel (w : World) (id : TaskId) : (w.cancel id).store = w.store := by
  unfold cancel
  split
  · exact store_cancelWith store_discard w _
  · rfl

theorem store_rest (w : World) (task : Task) (time : Nat) : (w.rest task time).store = w.store := by
  unfold World.rest
  dsimp only
  split <;> rfl

theorem store_finish (w : World) (task : Task) (role : Role) (ending : Ending) :
    (w.finish task role ending).store = w.store := by
  unfold finish
  cases role with
  | host => rfl
  | handler owner =>
    dsimp only
    split
    · rfl
    · split
      · split
        · exact store_wake _ _
        · rfl
      · rfl

theorem store_breakDown (w : World) (task : Task) (cause : Breakdown) :
    (w.breakDown task cause).store = w.store := by
  unfold breakDown
  dsimp only
  split
  · exact (store_finish _ _ _ _).trans (store_abandon w task)
  · exact store_abandon w task

theorem eq_of_mem_setTask {w : World} {task t : Task} (h : t ∈ (w.setTask task).tasks)
    (hid : t.id = task.id) : t = task := by
  obtain ⟨before, -, rfl⟩ := List.mem_map.1 h
  by_cases hbefore : before.id = task.id
  · exact if_pos hbefore
  · rw [if_neg hbefore] at hid
    exact absurd hid hbefore

theorem ids_setTask (w : World) (task : Task) :
    (w.setTask task).tasks.map Task.id = w.tasks.map Task.id := by
  unfold setTask
  rw [List.map_map]
  refine List.map_congr_left fun t _ => ?_
  show (if t.id = task.id then task else t).id = t.id
  split
  · next h => exact h.symm
  · rfl

theorem not_mem_remove (w : World) (id : TaskId) : id ∉ (w.remove id).tasks.map Task.id := by
  intro h
  obtain ⟨task, htask, rfl⟩ := List.mem_map.1 h
  have hne := (List.mem_filter.1 htask).2
  rw [bne_self_eq_false] at hne
  cases hne

theorem ids_finish {w : World} {task : Task} {role : Role} {ending : Ending} {id : TaskId}
    (h : id ∉ w.tasks.map Task.id) : id ∉ (w.finish task role ending).tasks.map Task.id := by
  have hremove : id ∉ (w.remove task.id).tasks.map Task.id := fun hmem =>
    h ((List.filter_sublist.map Task.id).subset hmem)
  unfold finish
  cases role with
  | host => exact h
  | handler owner =>
    dsimp only
    split
    · exact hremove
    · split
      · split
        · rw [tasks_wake, ids_setTask]
          exact hremove
        · exact hremove
      · exact hremove

theorem not_mem_breakDown (w : World) (task : Task) (cause : Breakdown) :
    task.id ∉ (w.breakDown task cause).tasks.map Task.id := by
  have habandoned : task.id ∉ (w.abandon task).tasks.map Task.id := by
    rw [tasks_abandon]
    exact not_mem_remove w task.id
  unfold breakDown
  dsimp only
  split
  · exact ids_finish habandoned
  · exact habandoned

/-! ### Standing -/

/-- **The world has the store of the system, and the task**, if it is there, has come as far with
the attempt of the worker as the system says. -/
structure Stands (w : World) (id : TaskId) (worker : Worker) (system : System) : Prop where
  store : w.store = .sql system.store
  fits : ∀ task ∈ w.tasks, task.id = id → task.work.Fits worker (system.attempts worker.id)

namespace Stands

variable {w : World} {task : Task} {worker : Worker} {system : System}

theorem setTask (hstore : w.store = .sql system.store)
    (hfits : task.work.Fits worker (system.attempts worker.id)) :
    (w.setTask task).Stands task.id worker system :=
  ⟨hstore, fun t ht hid => by rwa [eq_of_mem_setTask ht hid]⟩

theorem go {work : Work} (hstore : w.store = .sql system.store)
    (hfits : work.Fits worker (system.attempts worker.id)) :
    (w.go task work).Stands task.id worker system := by
  have h : (w.setTask { task with work := work, limit := none, alarm := none }).Stands
      task.id worker system := Stands.setTask hstore hfits
  exact ⟨h.store, h.fits⟩

theorem rest (time : Nat) (hstore : w.store = .sql system.store)
    (hfits : task.work.Fits worker (system.attempts worker.id)) :
    (w.rest task time).Stands task.id worker system := by
  unfold World.rest
  dsimp only
  split
  · exact Stands.setTask hstore hfits
  · exact ⟨hstore, fun t ht hid => by rwa [eq_of_mem_setTask ht hid]⟩

theorem of_not_mem {id : TaskId} (hstore : w.store = .sql system.store)
    (hgone : id ∉ w.tasks.map Task.id) : w.Stands id worker system :=
  ⟨hstore, fun _ ht hid => absurd (hid ▸ List.mem_map_of_mem ht) hgone⟩

theorem breakDown (hstore : w.store = .sql system.store) (cause : Breakdown) :
    (w.breakDown task cause).Stands task.id worker system :=
  .of_not_mem ((store_breakDown w task cause).trans hstore) (not_mem_breakDown w task cause)

end Stands

/-! ### Bounded calls -/

/-- **What becomes of a bounded call**: its limit is reached, the task rests until then, the task
breaks down in it, or it is answered. -/
inductive Awaited (w : World) (task : Task) (call : Call) (next : call.Outcome → World → World) :
    World → Prop
  | late (e : JobError) {left : World} (hstore : left.store = w.store) :
      Awaited w task call next (next (.error e) left)
  | resting {waiting : Task} (time : Nat) {left : World} (hid : waiting.id = task.id)
      (hwork : waiting.work = task.work) (hstore : left.store = w.store) :
      Awaited w task call next (left.rest waiting time)
  | broken (cause : Breakdown) {left : World}
      (hstore : left.store = (w.store.run call w.now).2) :
      Awaited w task call next (left.breakDown task cause)
  | answered {left : World} (hstore : left.store = (w.store.run call w.now).2) :
      Awaited w task call next (next (w.store.run call w.now).1 left)

theorem awaited_await (w : World) (task : Task) (call : Call) (limit : Duration)
    (next : call.Outcome → World → World) :
    Awaited w task call next (w.await task call limit next) := by
  unfold await
  split
  · split
    · exact .late _ rfl
    · exact .resting _ rfl rfl rfl
  · dsimp only
    split
    · split
      · exact .late _ rfl
      · exact .resting _ rfl rfl rfl
    · split
      · exact .broken _ rfl
      · exact .answered rfl

/-! ### Steps of a worker -/

/-- The moves of a worker, the latest first. -/
def movesOf (worker : Worker) (moves : List Worker.Move) (system : System) : System :=
  System.run (moves.map (Event.act worker)) system

theorem movesOf_append (worker : Worker) (later earlier : List Worker.Move) (system : System) :
    movesOf worker (later ++ earlier) system =
      movesOf worker later (movesOf worker earlier system) := by
  unfold movesOf
  rw [List.map_append, System.run_append]

/-- **The worker has made moves**, and the world is as after them. A handler has ended in them as the
task was told, or because its time was over. -/
def Moved (w : World) (id : TaskId) (worker : Worker) (told : Option Ending) (system : System) :
    Prop :=
  ∃ moves, (∀ ending, .handle ending ∈ moves → ending = none ∨ ending = told) ∧
    w.Stands id worker (movesOf worker moves system)

variable {w : World} {id : TaskId} {worker : Worker} {told : Option Ending} {system : System}

theorem Stands.moved (h : w.Stands id worker system) : w.Moved id worker told system :=
  ⟨[], fun _ hmem => absurd hmem List.not_mem_nil, h⟩

theorem Moved.step (made : Worker.Move)
    (hmade : ∀ ending, made = .handle ending → ending = none ∨ ending = told)
    (h : w.Moved id worker told (system.step (.act worker made))) :
    w.Moved id worker told system := by
  obtain ⟨moves, htold, hstands⟩ := h
  refine ⟨moves ++ [made], fun ending hmem => ?_, ?_⟩
  · rcases List.mem_append.1 hmem with hmem | hmem
    · exact htold ending hmem
    · exact hmade ending (List.mem_singleton.1 hmem).symm
  · rw [movesOf_append]
    exact hstands

section Steps

variable {task : Task} {trial : Trial} {sequel : Sequel (Except JobError Bool)}

theorem moved_await {call : Call} {limit : Duration} {next : call.Outcome → World → World}
    (hwork : task.work = .attempting trial sequel) (hstore : w.store = .sql system.store)
    (hattempt : trial.attempt = system.attempts trial.worker.id) (made : Worker.Move)
    (hquiet : ∀ ending, made ≠ .handle ending)
    (hmade : (system.step (.act trial.worker made)).store = (system.store.run call w.now).2)
    (hlate : ∀ e left, left.store = .sql system.store →
      (next (.error e) left).Moved task.id trial.worker told system)
    (hanswered : ∀ left, left.store = .sql (system.store.run call w.now).2 →
      (next (system.store.run call w.now).1 left).Moved task.id trial.worker told system) :
    (w.await task call limit next).Moved task.id trial.worker told system := by
  have hrun : w.store.run call w.now =
      ((system.store.run call w.now).1, .sql (system.store.run call w.now).2) := by
    rw [hstore]
    rfl
  have hawaited := awaited_await w task call limit next
  generalize w.await task call limit next = after at hawaited ⊢
  cases hawaited with
  | late e hleft => exact hlate e _ (hleft.trans hstore)
  | resting time hid hsame hleft =>
    refine Stands.moved (hid ▸ Stands.rest time (hleft.trans hstore) ?_)
    rw [hsame, hwork]
    exact ⟨rfl, hattempt⟩
  | broken cause hleft =>
    rw [hrun, ← hmade] at hleft
    exact Moved.step made (fun ending heq => absurd heq (hquiet ending))
      (Stands.breakDown hleft cause).moved
  | answered hleft =>
    rw [hrun] at hleft ⊢
    exact hanswered _ hleft

theorem moved_startHandler {job : Job} (code : HandlerCode)
    (hstore : w.store = .sql system.store)
    (hattempt : system.attempts trial.worker.id = .handling job) :
    (w.startHandler task trial job code sequel).Moved task.id trial.worker told system := by
  unfold startHandler
  dsimp only
  split
  · exact Stands.moved (Stands.breakDown hstore _)
  · split
    · refine Moved.step (.handle none) (fun _ heq => .inl (Worker.Move.handle.inj heq).symm)
        (Stands.moved ?_)
      rw [System.step_handle hattempt]
      exact Stands.go hstore ⟨rfl, (System.attempts_advance_self _ _ _).symm⟩
    · exact Stands.moved (Stands.rest _ hstore ⟨rfl, hattempt.symm⟩)

theorem moved_claimAnswered {answer : Except JobError (Option Job)}
    (hstore : w.store = .sql system.store)
    (hattempt : system.attempts trial.worker.id = Worker.afterClaim
      (fun jobType => ((w.site trial.party).registry.find? jobType).isSome) answer) :
    (w.claimAnswered task trial sequel answer).Moved task.id trial.worker told system := by
  unfold claimAnswered
  dsimp only
  have htracked : ∀ id, (w.track trial.party id).store = .sql system.store := fun id =>
    (store_setSite w trial.party _).trans hstore
  generalize Worker.afterClaim _ answer = attempt at hattempt ⊢
  cases attempt with
  | handling job =>
    dsimp only [Attempt.job?]
    split
    · exact moved_startHandler _ (htracked job.id) hattempt
    · exact Stands.moved (Stands.go (htracked job.id) ⟨rfl, hattempt.symm⟩)
  | reporting job report => exact Stands.moved (Stands.go (htracked job.id) ⟨rfl, hattempt.symm⟩)
  | claiming => exact Stands.moved (Stands.go hstore ⟨rfl, hattempt.symm⟩)
  | finished claimed => exact Stands.moved (Stands.go hstore ⟨rfl, hattempt.symm⟩)

theorem moved_stepHandling {job : Job} (hwork : task.work = .attempting trial sequel)
    (hstore : w.store = .sql system.store) (hattempt : trial.attempt = .handling job)
    (hsystem : trial.attempt = system.attempts trial.worker.id) :
    (w.stepHandling task trial job sequel).Moved task.id trial.worker trial.ending system := by
  have hhandling : system.attempts trial.worker.id = .handling job := hsystem.symm.trans hattempt
  have hfits : task.work.Fits trial.worker (system.attempts trial.worker.id) := by
    rw [hwork]
    exact ⟨rfl, hsystem⟩
  have hended : ∀ left : World, left.store = w.store →
      (left.go task (.attempting (trial.move (trial.worker.afterHandler job trial.ending))
        sequel)).Moved task.id trial.worker trial.ending system := fun left hleft => by
    refine Moved.step (.handle trial.ending) (fun _ heq => .inr (Worker.Move.handle.inj heq).symm)
      (Stands.moved ?_)
    rw [System.step_handle hhandling]
    exact Stands.go (hleft.trans hstore) ⟨rfl, (System.attempts_advance_self _ _ _).symm⟩
  unfold stepHandling
  dsimp only
  split
  · exact hended w rfl
  · split
    · refine hended _ ?_
      cases trial.handler with
      | none => rfl
      | some handler => exact store_cancel w handler
    · exact Stands.moved (Stands.rest _ hstore hfits)
  · exact Stands.moved (Stands.setTask hstore hfits)

theorem moved_stepAttempting (hwork : task.work = .attempting trial sequel)
    (hstore : w.store = .sql system.store)
    (hsystem : trial.attempt = system.attempts trial.worker.id) :
    (w.stepAttempting task trial sequel).Moved task.id trial.worker trial.ending system := by
  unfold stepAttempting
  dsimp only
  cases hattempt : trial.attempt with
  | claiming =>
    have hclaiming : system.attempts trial.worker.id = .claiming := hsystem.symm.trans hattempt
    have hclaim := fun registered => System.step_claim hclaiming registered w.now
    refine moved_await hwork hstore hsystem (.claim (fun _ => true) w.now) nofun ?_
      (fun e left hleft => ?_) fun left hleft => ?_
    · rw [hclaim]
      rfl
    · refine Moved.step (.loseClaim e) nofun (moved_claimAnswered ?_ ?_)
      · rw [System.step_loseClaim hclaiming]
        exact hleft
      · rw [System.step_loseClaim hclaiming, System.attempts_advance_self]
        rfl
    · refine Moved.step
        (.claim (fun jobType => ((left.site trial.party).registry.find? jobType).isSome) w.now)
        nofun (moved_claimAnswered ?_ ?_)
      · rw [hclaim]
        exact hleft
      · rw [hclaim, System.attempts_advance_self]
        rfl
  | handling job => exact moved_stepHandling hwork hstore hattempt hsystem
  | reporting job report =>
    have hreporting : system.attempts trial.worker.id = .reporting job report :=
      hsystem.symm.trans hattempt
    have hreport := System.step_report hreporting w.now
    have hended : ∀ (left : World) (done : System), left.store = .sql done.store →
        done.attempts trial.worker.id = Worker.afterReport →
        ((left.release trial.party job.id).go task
          (.attempting (trial.move Worker.afterReport) sequel)).Stands task.id trial.worker done :=
      fun left done hleft hdone =>
        Stands.go ((store_setSite left trial.party _).trans hleft) ⟨rfl, hdone.symm⟩
    refine moved_await hwork hstore hsystem (.report w.now) nofun ?_ (fun e left hleft => ?_)
      fun left hleft => ?_
    · rw [hreport]
      rfl
    · refine Moved.step .loseReport nofun (Stands.moved ?_)
      rw [System.step_loseReport hreporting]
      exact hended left _ hleft (System.attempts_advance_self _ _ _)
    · refine Moved.step (.report w.now) nofun (Stands.moved ?_)
      rw [hreport]
      exact hended left _ hleft (System.attempts_advance_self _ _ _)
  | finished claimed =>
    cases sequel with
    | loop ticker =>
      exact Stands.moved (Stands.go hstore ⟨rfl, .inr ⟨claimed, hsystem.symm.trans hattempt⟩⟩)
    | program role next => exact Stands.moved (Stands.go hstore trivial)

theorem moved_stepPolling {ticker : Ticker} (hwork : task.work = .polling worker ticker)
    (hstore : w.store = .sql system.store)
    (hready : system.attempts worker.id = .claiming ∨
      ∃ claimed, system.attempts worker.id = .finished claimed) :
    (w.stepPolling task worker ticker).Moved task.id worker told system := by
  unfold stepPolling
  split
  · refine Stands.moved (.of_not_mem ((store_removeLoop w task.id).trans hstore) ?_)
    rw [tasks_removeLoop]
    exact not_mem_remove w task.id
  · split
    · rcases hready with hclaiming | ⟨claimed, hfinished⟩
      · exact Stands.moved (Stands.go hstore ⟨rfl, hclaiming.symm⟩)
      · refine Moved.step .begin nofun (Stands.moved ?_)
        rw [System.step_begin hfinished]
        exact Stands.go hstore ⟨rfl, (System.attempts_advance_self _ _ _).symm⟩
    · refine Stands.moved (Stands.rest _ hstore ?_)
      rw [hwork]
      exact ⟨rfl, hready⟩

/-- **A step of a worker is made of moves.** -/
theorem moved_stepTask (hfits : task.work.Fits worker (system.attempts worker.id))
    (hworks : (∃ other ticker, task.work = .polling other ticker) ∨
      ∃ trial sequel, task.work = .attempting trial sequel)
    (hstore : w.store = .sql system.store) :
    (w.stepTask task).Moved task.id worker task.work.told? system := by
  unfold stepTask
  split
  · have hwaits : task.work.isStopping = false := by
      rcases hworks with ⟨other, ticker, hwork⟩ | ⟨trial, sequel, hwork⟩ <;> rw [hwork] <;> rfl
    refine Stands.moved (.of_not_mem ((store_discard w task).trans hstore) ?_)
    unfold discard
    rw [hwaits]
    show task.id ∉ (w.abandon task).tasks.map Task.id
    rw [tasks_abandon]
    exact not_mem_remove w task.id
  rcases hworks with ⟨other, ticker, hwork⟩ | ⟨trial, sequel, hwork⟩
  · rw [hwork] at hfits
    obtain ⟨rfl, hready⟩ := hfits
    rw [hwork]
    exact moved_stepPolling hwork hstore hready
  · rw [hwork] at hfits
    obtain ⟨rfl, hattempt⟩ := hfits
    rw [hwork]
    exact moved_stepAttempting hwork hstore hattempt

end Steps

end World

end JobQueue

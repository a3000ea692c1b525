import JobQueue.Proofs.Runner.Debts
import JobQueue.Proofs.Worker.Accounting
import JobQueue.Proofs.Worker.Outcome

/-! # The attempts of a running system

`System` knows of the workers on a store the moves of their attempts, and of everybody else the calls
that they make. In a simulated system (`World`) the workers are the loops of a runner, which are tasks
among others. Here the two are tied to each other for whole runs: whatever occurs, in any order, as
long as everybody but the worker loops leaves the database to its calls, is a list of events. So what
is known after all events is known of the running system.

* `World.Crewed`: each loop has come as far with its attempt as is said of its worker.
  `World.Enacts`: the store, too, is that of the system.
* `World.Orderly`: what occurs, with the calls of others.
* `World.Enacts.serve`: **a move of a loop is made of moves of its worker**; the other loops stay.
  `World.Enacts.others`: what others do leaves all loops.
* `World.exists_events`: **a run is a list of events.**
* `World.ledger_through`: **the attempts of a running system are accounted for.** -/

namespace JobQueue

/-- The store after further calls, the latest first. -/
def Sql.Store.through (store : Sql.Store) : List Operation → Sql.Store
  | [] => store
  | op :: earlier => ((store.through earlier).run op.call op.now).2

namespace System

theorem run_map_other (system : System) : ∀ calls : List Operation,
    run (calls.map .other) system = { system with store := system.store.through calls }
  | [] => rfl
  | op :: earlier => by
    show (run (earlier.map .other) system).step (.other op) = _
    rw [run_map_other system earlier]
    rfl

theorem others_append (later earlier : List Event) :
    others (later ++ earlier) = others later ++ others earlier :=
  List.filterMap_append

theorem others_map_other : ∀ calls : List Operation, others (calls.map .other) = calls
  | [] => rfl
  | op :: calls => congrArg (op :: ·) (others_map_other calls)

theorem others_map_act (worker : Worker) : ∀ moves : List Worker.Move,
    others (moves.map (.act worker)) = []
  | [] => rfl
  | _ :: moves => others_map_act worker moves

variable {P : Fields → Prop} {later earlier : List Event}

theorem Returning.append (hlater : Returning P later) (hearlier : Returning P earlier) :
    Returning P (later ++ earlier) := fun worker result hmem =>
  (List.mem_append.1 hmem).elim (hlater worker result) (hearlier worker result)

theorem returning_map_other (calls : List Operation) : Returning P (calls.map .other) := by
  intro worker result hmem
  obtain ⟨op, -, heq⟩ := List.mem_map.1 hmem
  cases heq

theorem returning_map_act (worker : Worker) {moves : List Worker.Move}
    (h : ∀ result, .handle (some (.returned result)) ∈ moves → P result) :
    Returning P (moves.map (.act worker)) := by
  intro other result hmem
  obtain ⟨move, hmove, heq⟩ := List.mem_map.1 hmem
  obtain rfl := (Event.act.inj heq).2
  exact h result hmove

end System

theorem Work.fits_bare (work : Work) (worker : Worker) (attempt : Attempt) :
    work.bare.Fits worker attempt ↔ work.Fits worker attempt := by
  cases work <;> rfl

theorem Work.works_of_loop? {work : Work} {worker : Worker} (h : work.loop? = some (.worker worker)) :
    (∃ other ticker, work = .polling other ticker) ∨
      ∃ trial sequel, work = .attempting trial sequel := by
  cases work with
  | polling other ticker => exact .inl ⟨other, ticker, rfl⟩
  | attempting trial sequel => exact .inr ⟨trial, sequel, rfl⟩
  | cleaning _ sequel =>
    unfold Work.loop? at h
    dsimp only at h
    split at h <;> cases h
  | _ => cases h

namespace World

/-- **The worker loops have come so far with their attempts**, and work under different ids. None
makes an attempt before the runner is started. -/
structure Crewed (w : World) (attempts : WorkerId → Attempt) : Prop where
  fits : ∀ t ∈ w.tasks, ∀ worker, t.work.loop? = some (.worker worker) →
    t.work.Fits worker (attempts worker.id)
  apart : ∀ t ∈ w.tasks, ∀ t' ∈ w.tasks, ∀ a b, t.work.loop? = some (.worker a) →
    t'.work.loop? = some (.worker b) → a.id = b.id → t.id = t'.id
  unstarted : w.started = false → attempts = fun _ => .claiming

/-- **The world enacts the system.** -/
structure Enacts (w : World) (system : System) : Prop where
  store : w.store = .sql system.store
  crewed : w.Crewed system.attempts

/-- The task of the id is the loop of a worker. -/
def IsWorkerLoop (w : World) (id : TaskId) : Prop :=
  ∃ t worker, w.task? id = some t ∧ t.work.loop? = some (.worker worker)

/-- **What occurs, with the calls of others**, the latest first. A handler of a loop returns no result
but with the property; whatever is no move of a worker loop changes the store by calls only. -/
inductive Orderly (P : Fields → Prop) (w : World) : List Occurrence → List Operation → Prop
  | nil : Orderly P w [] []
  | loop {earlier : List Occurrence} {calls : List Operation} {id : TaskId} {t : Task}
      {worker : Worker} (h : Orderly P w earlier calls) (hfind : (w.through earlier).task? id = some t)
      (hloop : t.work.loop? = some (.worker worker))
      (htold : ∀ result, t.work.told? = some (.returned result) → P result) :
      Orderly P w (.serve id :: earlier) calls
  | others {earlier : List Occurrence} {calls made : List Operation} {occurrence : Occurrence}
      {store : Sql.Store} (h : Orderly P w earlier calls)
      (hother : ∀ id, occurrence = .serve id → ¬ (w.through earlier).IsWorkerLoop id)
      (hbefore : (w.through earlier).store = .sql store)
      (hafter : (w.through (occurrence :: earlier)).store = .sql (store.through made)) :
      Orderly P w (occurrence :: earlier) (made ++ calls)

variable {w w₁ : World} {acting : TaskId} {t : Task} {worker : Worker} {system : System}
  {attempts : WorkerId → Attempt}

/-! ### The runner begins, and ends, its loops -/

theorem Crewed.of_mem (h : w.Crewed attempts)
    (hmem : ∀ t ∈ w₁.tasks, t.work.loop? ≠ none → t ∈ w.tasks)
    (hstarted : w₁.started = false → w.started = false) : w₁.Crewed attempts := by
  have hold : ∀ t ∈ w₁.tasks, ∀ worker, t.work.loop? = some (.worker worker) → t ∈ w.tasks :=
    fun t ht worker hloop => hmem t ht (by rw [hloop]; exact Option.some_ne_none _)
  exact ⟨fun t ht worker hloop => h.fits t (hold t ht worker hloop) worker hloop,
    fun t ht t' ht' a b ha hb => h.apart t (hold t ht a ha) t' (hold t' ht' b hb) a b ha hb,
    fun hnew => h.unstarted (hstarted hnew)⟩

/-- Workers of the two have different ids. -/
def Differ (work work' : Work) : Prop :=
  ∀ a b, work.loop? = some (.worker a) → work'.loop? = some (.worker b) → a.id ≠ b.id

theorem pairwise_beginnings (config : RunnerConfig) (nanos : Nat) (runner : Runner)
    {slots : List Slot} (hslots : slots.Nodup) :
    (beginnings config nanos runner slots).Pairwise Differ := by
  have hid : ∀ {slot : Slot} {worker : Worker},
      (Worker.create slot.queue (runner.workerId slot) config).toOption = some worker →
      worker.id = runner.workerId slot := by
    intro slot worker hcreate
    unfold Worker.create at hcreate
    cases hlimit : config.handlerTimeout with
    | error cause =>
      rw [hlimit] at hcreate
      cases hcreate
    | ok limit =>
      rw [hlimit] at hcreate
      rw [← Option.some.inj hcreate]
  unfold beginnings
  refine List.pairwise_append.2 ⟨List.pairwise_filterMap.2 (hslots.imp ?_),
    List.pairwise_singleton _ _, fun work _ work' hwork' a b _ hb => ?_⟩
  · intro slot slot' hne work hwork work' hwork' a b ha hb hsame
    obtain ⟨c, hc, rfl⟩ := Option.map_eq_some_iff.1 hwork
    obtain ⟨d, hd, rfl⟩ := Option.map_eq_some_iff.1 hwork'
    obtain rfl := Loop.worker.inj (Option.some.inj ha)
    obtain rfl := Loop.worker.inj (Option.some.inj hb)
    exact hne (runner.workerId_injective ((hid hc).symm.trans (hsame.trans (hid hd))))
  · rw [List.mem_singleton.1 hwork'] at hb
    cases hb

theorem polling_of_beginnings {config : RunnerConfig} {nanos : Nat} {runner : Runner}
    {slots : List Slot} {work : Work} (h : work ∈ beginnings config nanos runner slots)
    (hloop : work.loop? = some (.worker worker)) : ∃ ticker, work = .polling worker ticker := by
  unfold beginnings at h
  rcases List.mem_append.1 h with h | h
  · obtain ⟨slot, -, hslot⟩ := List.mem_filterMap.1 h
    obtain ⟨other, -, rfl⟩ := Option.map_eq_some_iff.1 hslot
    rw [Loop.worker.inj (Option.some.inj hloop)]
    exact ⟨_, rfl⟩
  · rw [List.mem_singleton.1 h] at hloop
    cases hloop

/-- **The loops that the runner begins** are a crew, before which nobody has made an attempt. -/
theorem Crewed.spawnLoops (hdrained : w.drained = true) (runner : Runner) {slots : List Slot}
    (hslots : slots.Nodup) :
    (w.spawnLoops runner slots).Crewed fun _ => .claiming := by
  rw [spawnLoops_eq]
  let works := beginnings w.config w.nanos runner slots
  let begin (pair : Work × TaskId) : Task := .create pair.2 .runner pair.1
  have hnew : ∀ t ∈ (w.spawnAll works).tasks, ∀ worker, t.work.loop? = some (.worker worker) →
      t ∈ (works.zipIdx w.nextTask).map begin := by
    intro t ht worker hloop
    rw [tasks_spawnAll] at ht
    refine (List.mem_append.1 ht).resolve_left fun hold => ?_
    have hnone := drained_eq_true_iff.1 hdrained t hold
    rw [← Work.isSome_loop?, hloop] at hnone
    cases hnone
  have hdiffer : ((works.zipIdx w.nextTask).map begin).Pairwise
      fun t t' => Differ t.work t'.work := by
    refine List.pairwise_map.2 ?_
    have hpairs : ((works.zipIdx w.nextTask).map Prod.fst).Pairwise Differ := by
      rw [List.zipIdx_map_fst]
      exact pairwise_beginnings w.config w.nanos runner hslots
    exact List.pairwise_map.1 hpairs
  refine ⟨fun t ht worker hloop => ?_, fun t ht t' ht' a b ha hb hid => ?_, fun _ => rfl⟩
  · obtain ⟨pair, hmem, rfl⟩ := List.mem_map.1 (hnew t ht worker hloop)
    obtain ⟨ticker, hwork⟩ := polling_of_beginnings (List.fst_mem_of_mem_zipIdx hmem) hloop
    show pair.1.Fits worker _
    rw [hwork]
    exact ⟨rfl, .inl rfl⟩
  · by_contra hne
    have : Std.Symm fun t t' : Task => Differ t.work t'.work :=
      ⟨fun t t' h a b ha hb hid => h b a hb ha hid.symm⟩
    exact hdiffer.forall (hnew t ht a ha) (hnew t' ht' b hb)
      (fun heq => hne (congrArg Task.id heq)) a b ha hb hid

/-- **What the runner does** leaves a crew, or begins it. -/
theorem Crewed.askedIn (h : w.Crewed attempts) (hsound : w.Sound) {runner : Runner}
    (hrunner : w.runner = some runner) (hqueues : runner.queues.Nodup) (occurrence : Occurrence) :
    (w.askedIn occurrence).Crewed attempts := by
  rcases w.requestIn occurrence with ⟨-, hsame⟩ | ⟨task, htask, -, hrequest⟩
  · rw [hsame]
    exact h
  generalize w.askedIn occurrence = w₁ at hrequest
  generalize w.runnerCall? occurrence = call? at hrequest
  have hstarted : w.started = runner.started := started_eq hrunner
  cases hrequest with
  | addQueue queue _ _ =>
    refine h.of_mem (fun t ht _ => ht) fun hnew => ?_
    have hsame : (w.addQueue queue).2.started = w.started := by
      show (w.runner.map fun runner => runner.addQueue queue).any Runner.started = _
      rw [Option.any_map]
      simp only [Runner.started_addQueue]
      rfl
    exact hsame ▸ hnew
  | start _ _ =>
    rw [start_eq hrunner]
    rcases runner.start_cases with ⟨-, hstart⟩ | ⟨hnew, -, hstart⟩ | ⟨-, -, -, hstart⟩
    · rw [hstart]
      exact h.of_mem (fun t ht _ => ht) fun hnew => hstarted.trans hnew
    · rw [hstart, h.unstarted (hstarted.trans hnew)]
      have hdrained : w.drained = true := by
        by_contra hnot
        have htrue := hsound.started (.inr (Bool.eq_false_iff.2 hnot))
        rw [hstarted, hnew] at htrue
        cases htrue
      let begun := { runner with started := true, active := true }
      have hdrained' : World.drained { w with runner := some begun } = true := hdrained
      exact Crewed.spawnLoops hdrained' _ (Runner.nodup_loops hqueues)
    · rw [hstart]
      exact h.of_mem (fun t ht _ => ht) nofun
  | stop _ _ hrunner' hactive =>
    obtain rfl := Option.some.inj (hrunner.symm.trans hrunner')
    obtain ⟨htasks, -, -, hafter, -⟩ := handOver_eq w _ runner.stop.2
    refine h.of_mem (fun t ht hloop => ?_) fun hnew => ?_
    · rw [htasks] at ht
      rcases mem_setTask ht with rfl | ⟨hold, -⟩
      · exact absurd rfl hloop
      · exact hold
    · exact hstarted.trans ((started_eq hafter).symm.trans hnew)
  | _ => exact h

theorem Request.loop?_ne {task : Task} {call? : Option Runner.Call} (h : w.Request task call? w₁)
    (hsound : w.Sound) (htask : task ∈ w.tasks)
    (hnone : ∀ worker, task.work.loop? ≠ some (.worker worker)) (ht : t ∈ w₁.tasks)
    (hid : t.id = task.id) (worker : Worker) : t.work.loop? ≠ some (.worker worker) := by
  have hsame : ∀ {left : World}, left.Sound → task ∈ left.tasks → t ∈ left.tasks →
      t.work.loop? ≠ some (.worker worker) := fun hleft hmem ht => by
    rw [hleft.numbered.eq_of_id hmem ht hid]
    exact hnone worker
  have hasked := (h.evolves hsound htask).1
  cases h with
  | start _ _ =>
    obtain ⟨new, hnew⟩ := tasks_start w
    exact hsame hasked (hnew ▸ List.mem_append_left new htask) ht
  | stop _ _ _ _ =>
    rw [(handOver_eq w _ _).1] at ht
    rcases mem_setTask ht with rfl | ⟨-, hne⟩
    · exact nofun
    · exact absurd hid hne
  | _ => exact hsame hsound htask ht

/-! ### What occurs -/

theorem Evolves.loop?_origin (h : Evolves acting w w₁) (ht : t ∈ w₁.tasks)
    (hloop : t.work.loop? = some (.worker worker)) :
    ∃ before ∈ w.tasks, t.id = before.id ∧ before.work.loop? = some (.worker worker) ∧
      (before.id ≠ acting → t.work.bare = before.work.bare) := by
  obtain ⟨before, hbefore, -, hfollows⟩ :=
    h.loop_origin ht (by rw [← Work.isSome_loop?, hloop]; rfl)
  exact ⟨before, hbefore, hfollows.id, hfollows.becomes.loop.symm.trans hloop,
    fun hne => (hfollows.bystander hne).2⟩

theorem Crewed.moved (h : w.Crewed attempts) (hevolves : Evolves acting w w₁)
    {attempts' : WorkerId → Attempt} (hstarted : w.started = false → attempts' = attempts)
    (hfits : ∀ t ∈ w₁.tasks, ∀ worker, t.work.loop? = some (.worker worker) → t.id = acting →
      t.work.Fits worker (attempts' worker.id))
    (hothers : ∀ t ∈ w.tasks, ∀ worker, t.work.loop? = some (.worker worker) → t.id ≠ acting →
      attempts' worker.id = attempts worker.id) : w₁.Crewed attempts' := by
  refine ⟨fun t ht worker hloop => ?_, fun t ht t' ht' a b ha hb hid => ?_, fun hnew => ?_⟩
  · by_cases hacts : t.id = acting
    · exact hfits t ht worker hloop hacts
    · obtain ⟨before, hbefore, hsame, hloop', hbare⟩ := hevolves.loop?_origin ht hloop
      have hne : before.id ≠ acting := hsame ▸ hacts
      rw [← Work.fits_bare, hbare hne, Work.fits_bare, hothers before hbefore worker hloop' hne]
      exact h.fits before hbefore worker hloop'
  · obtain ⟨before, hbefore, hfirst, ha', -⟩ := hevolves.loop?_origin ht ha
    obtain ⟨before', hbefore', hsecond, hb', -⟩ := hevolves.loop?_origin ht' hb
    rw [hfirst, hsecond]
    exact h.apart before hbefore before' hbefore' a b ha' hb' hid
  · have hunstarted : w.started = false :=
      (congrArg (Option.any Runner.started) hevolves.runner).symm.trans hnew
    rw [hstarted hunstarted]
    exact h.unstarted hunstarted

/-- **A move of a loop** is made of moves of its worker, and leaves the other loops where they are. -/
theorem Enacts.serve (h : w.Enacts system) (hsound : w.Sound) (hfind : w.task? t.id = some t)
    (hloop : t.work.loop? = some (.worker worker)) :
    ∃ moves, (∀ ending, .handle ending ∈ moves → ending = none ∨ ending = t.work.told?) ∧
      (w.occur (.serve t.id)).Enacts (movesOf worker moves system) := by
  obtain ⟨ht, -⟩ := mem_of_task? hfind
  have hworks := Work.works_of_loop? hloop
  obtain ⟨moves, htold, hstands⟩ :=
    moved_stepTask (h.crewed.fits t ht worker hloop) hworks h.store
  rw [← occur_serve hfind] at hstands
  have hevolves : Evolves t.id w (w.occur (.serve t.id)) := by
    have hasked : w.askedIn (.serve t.id) = w := by
      refine (askedIn_serve hfind).trans (asked_of_none ?_)
      unfold Task.runnerCall?
      rcases hworks with ⟨_, _, hwork⟩ | ⟨_, _, hwork⟩ <;> rw [hwork] <;> exact ite_self _
    have hevolves := (evolves_occur hsound (.serve t.id) fun _ heq =>
      (Occurrence.serve.inj heq).symm).2
    rwa [hasked] at hevolves
  refine ⟨moves, htold, hstands.store, h.crewed.moved hevolves (fun hnew => ?_)
    (fun t' ht' other hother hid => ?_) fun t' ht' other hother hne => ?_⟩
  · -- The runner was started, or there would be no loop.
    have hundrained : w.drained = false :=
      not_drained_of_mem ht (by rw [← Work.isSome_loop?, hloop]; rfl)
    rw [hsound.started (.inr hundrained)] at hnew
    cases hnew
  · obtain ⟨before, hbefore, hsame, hloop', -⟩ := hevolves.loop?_origin ht' hother
    rw [hsound.numbered.eq_of_id ht hbefore (hsame.symm.trans hid), hloop] at hloop'
    rw [← Loop.worker.inj (Option.some.inj hloop')]
    exact hstands.fits t' ht' hid
  · refine System.attempts_run fun event hevent => ?_
    obtain ⟨move, -, rfl⟩ := List.mem_map.1 hevent
    exact fun hid => hne (h.crewed.apart t' ht' t ht other worker hother hloop hid.symm)

theorem exists_evolves_of_other (hsound : w.Sound) {occurrence : Occurrence}
    (hother : ∀ id, occurrence = .serve id → ¬ w.IsWorkerLoop id) :
    ∃ acting, Evolves acting (w.askedIn occurrence) (w.occur occurrence) ∧
      ∀ t ∈ (w.askedIn occurrence).tasks, t.id = acting → ∀ worker,
        t.work.loop? ≠ some (.worker worker) := by
  -- Nobody acts under the next number.
  have hnobody : ∀ t ∈ w.tasks, t.id = w.nextTask → ∀ worker,
      t.work.loop? ≠ some (.worker worker) := fun t ht hid =>
    absurd (hsound.numbered.fresh t.id (List.mem_map_of_mem ht)) (hid ▸ lt_irrefl _)
  cases occurrence with
  | serve id =>
    refine ⟨id, (evolves_occur hsound (.serve id) fun _ heq =>
      (Occurrence.serve.inj heq).symm).2, fun t ht hid worker => ?_⟩
    cases hfind : w.task? id with
    | none =>
      rw [askedIn_serve_none hfind] at ht
      have hfound := hsound.numbered.task? ht
      rw [hid, hfind] at hfound
      cases hfound
    | some task =>
      obtain ⟨htask, rfl⟩ := mem_of_task? hfind
      rw [askedIn_serve hfind] at ht
      exact (w.request task).loop?_ne hsound htask
        (fun worker hloop => hother task.id rfl ⟨task, worker, hfind, hloop⟩) ht hid worker
  | _ => exact ⟨w.nextTask, (evolves_occur hsound _ fun _ heq => by cases heq).2, hnobody⟩

/-- **What others do** leaves the loops where they are. -/
theorem Enacts.others (h : w.Enacts system) (hsound : w.Sound) {runner : Runner}
    (hrunner : w.runner = some runner) (hqueues : runner.queues.Nodup) {occurrence : Occurrence}
    (hother : ∀ id, occurrence = .serve id → ¬ w.IsWorkerLoop id) {made : List Operation}
    (hstore : (w.occur occurrence).store = .sql (system.store.through made)) :
    (w.occur occurrence).Enacts (System.run (made.map .other) system) := by
  obtain ⟨acting, hevolves, hnone⟩ := exists_evolves_of_other hsound hother
  rw [System.run_map_other]
  refine ⟨hstore, (h.crewed.askedIn hsound hrunner hqueues occurrence).moved hevolves
    (fun _ => rfl) (fun t ht worker hloop hid => ?_) fun _ _ _ _ _ => rfl⟩
  obtain ⟨before, hbefore, hsame, hloop', -⟩ := hevolves.loop?_origin ht hloop
  exact absurd hloop' (hnone before hbefore (hsame.symm.trans hid) worker)

/-! ### Whole runs -/

/-- **A run is a list of events**, of which the others are the calls of others. -/
theorem exists_events {P : Fields → Prop} {inFile : Bool} (hsound : w.Sound) {runner : Runner}
    (hrunner : w.runner = some runner)
    (hqueues : ∀ calls, (runner.after calls).queues.Nodup)
    (hbegun : w.Enacts (System.start inFile)) {occurrences : List Occurrence}
    {calls : List Operation} (h : w.Orderly P occurrences calls) :
    ∃ events, System.others events = calls ∧ System.Returning P events ∧
      (w.through occurrences).Enacts (System.after inFile events) := by
  induction h with
  | nil => exact ⟨[], rfl, fun _ _ hmem => absurd hmem List.not_mem_nil, hbegun⟩
  | @loop earlier calls id t worker _ hfind hloop htold ih =>
    obtain ⟨events, hothers, hreturning, henacts⟩ := ih
    obtain ⟨-, rfl⟩ := mem_of_task? hfind
    obtain ⟨moves, hmoves, hafter⟩ := henacts.serve (hsound.through earlier) hfind hloop
    have hreturned : ∀ result, .handle (some (.returned result)) ∈ moves → P result :=
      fun result hmem => (hmoves _ hmem).elim nofun fun htells => htold result htells.symm
    refine ⟨moves.map (.act worker) ++ events, ?_,
      (System.returning_map_act worker hreturned).append hreturning, ?_⟩
    · rw [System.others_append, System.others_map_act, hothers]
      rfl
    · have hrun : System.after inFile (moves.map (.act worker) ++ events) =
          movesOf worker moves (System.after inFile events) := System.run_append _ _ _
      rw [hrun]
      exact hafter
  | @others earlier calls made occurrence store _ hother hbefore hafter ih =>
    obtain ⟨events, hothers, hreturning, henacts⟩ := ih
    have hstore : store = (System.after inFile events).store :=
      Backend.sql.inj (hbefore.symm.trans henacts.store)
    obtain ⟨hnow, -⟩ := runner_through hsound hrunner earlier
    refine ⟨made.map .other ++ events, ?_,
      (System.returning_map_other made).append hreturning, ?_⟩
    · rw [System.others_append, System.others_map_other, hothers]
    · have hrun : System.after inFile (made.map .other ++ events) =
          System.run (made.map .other) (System.after inFile events) := System.run_append _ _ _
      rw [hrun]
      exact henacts.others (hsound.through earlier) hnow (hqueues _) hother (hstore ▸ hafter)

/-- **The attempts of a running system are accounted for.** A runner is created on a new database, and
its host may ask anything of it. Whatever occurs, in any order, as long as everybody but the worker
loops leaves the database to calls that are not made for workers and use no id twice, and the results
of the handlers are read: it is a list of events, and the store is as after them. Let the reports on an
id be those that the store accepted. The attempts in a row are the failures among the reports, at most
one report is a completion, and all together are no more than the attempts that are allowed. -/
theorem ledger_through (inFile : Bool) (clock : Clock) (config : RunnerConfig) (id : WorkerId)
    (host : Program) {occurrences : List Occurrence} {calls : List Operation}
    (h : (create (.sql (.fresh inFile)) clock config (some (Runner.fresh id config)) host).Orderly
      Fields.Legible occurrences calls)
    (hbuilt : Inserting Job.Built calls) (hquiet : ∀ op ∈ calls, op.call.worker? = none)
    (hids : (Sql.Store.insertedIds calls).Nodup) :
    let w := (create (.sql (.fresh inFile)) clock config (some (Runner.fresh id config))
      host).through occurrences
    ∃ events, System.others events = calls ∧ System.Returning Fields.Legible events ∧
      w.Enacts (System.after inFile events) ∧
      ∀ store, w.store = .sql store → ∀ jobId row, store.row? jobId = some row →
        let reports := Sql.Store.acceptedReports inFile jobId
          (System.operations events (System.start inFile))
        row.attempts = .int (reports.countP Report.isFail) ∧
          reports.countP Report.isComplete ≤ 1 ∧
          ∃ allowed, row.maxAttempts = .int allowed ∧ (reports.length : Int) ≤ allowed := by
  intro w
  have hqueues : ∀ asked, ((Runner.fresh id config).after asked).queues.Nodup := fun asked => by
    rw [(Runner.recorded_after id config asked).queues]
    exact Runner.nodup_declared asked
  have hloops : ∀ t ∈ (create (.sql (.fresh inFile)) clock config (some (Runner.fresh id config))
      host).tasks, t.work.loop? = none := fun t ht => by
    rw [List.mem_singleton.1 ht]
    rfl
  have hbegun : (create (.sql (.fresh inFile)) clock config (some (Runner.fresh id config))
      host).Enacts (System.start inFile) := by
    refine ⟨rfl, fun t ht worker hloop => ?_, fun t ht _ _ worker _ hloop => ?_, fun _ => rfl⟩ <;>
      cases (hloops t ht).symm.trans hloop
  obtain ⟨events, rfl, hreturning, henacts⟩ := exists_events
    (sound_create (.sql (.fresh inFile)) clock config id host) rfl hqueues hbegun h
  refine ⟨events, rfl, hreturning, henacts, fun store hstore jobId row hrow => ?_⟩
  obtain rfl := Backend.sql.inj (henacts.store.symm.trans hstore)
  rw [System.store_run, Sql.Store.row?_after inFile ((System.inserting_operations hbuilt
    (System.start inFile)).mono fun _ hjob => hjob.hasRoom)] at hrow
  obtain ⟨job, hfind, rfl⟩ := Option.map_eq_some_iff.1 hrow
  have hledger := System.ledger_of_events inFile hbuilt hquiet hids hreturning List.suffix_rfl hfind
  exact ⟨congrArg Sql.Value.int hledger.attempts, hledger.completed, job.maxAttempts, rfl,
    hledger.within⟩

end World

end JobQueue

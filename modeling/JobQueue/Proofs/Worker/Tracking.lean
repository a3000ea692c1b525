import JobQueue.Proofs.Worker.Frames

/-! # Workers and the jobs in flight of their party

Each move of a task is made of changes to holders: a claim that is answered with a job puts it into
the set, and the end of the attempt takes it out. So a system keeps what guards keep: a job in the
set is held, and a job that is held is in the set as long as it was not granted to the party
(`World.Grants`) while it was held.

* `World.Related.stepTask`, `World.Related.jump`: **what moves keep.** -/

namespace JobQueue

namespace World

/-- **A move of a task grants the job to the party**: a worker of it claims and gets the job. -/
def Grants (w : World) (taskId : TaskId) (party : Party) (id : JobId) : Prop :=
  ∃ task trial sequel job, w.task? taskId = some task ∧ task.cancelled = false ∧
    task.work = .attempting trial sequel ∧ trial.party = party ∧ trial.attempt = .claiming ∧
    task.limit = none ∧ w.isStalled trial.worker.claim = false ∧
    (w.store.run (.claimNext trial.worker.queue trial.worker.id) w.now).1 = .ok (some job) ∧
    job.id = id

theorem held?_afterHandler {party : Party} (trial : Trial) (job : Job) (ending : Option Ending)
    (sequel : Sequel (Except JobError Bool)) :
    (Work.attempting (trial.move (trial.worker.afterHandler job ending)) sequel).held? party =
      if trial.party = party then some job.id else none := by
  refine Work.held?_of_job sequel ?_
  show (trial.worker.afterHandler job ending).job? = some job
  unfold Worker.afterHandler
  split <;> rfl

theorem answer_of_job? {registered : JobType → Bool} {answer : Except JobError (Option Job)}
    {job : Job} (h : (Worker.afterClaim registered answer).job? = some job) :
    answer = .ok (some job) := by
  match answer with
  | .error _ => cases h
  | .ok none => cases h
  | .ok (some other) =>
    unfold Worker.afterClaim at h
    dsimp only at h
    split at h <;> exact congrArg (Except.ok ∘ some) (Option.some.inj h)

section Steps

variable {P : InFlight → List JobId → Prop} (hP : InFlight.Stable P) {party : Party} {w : World}
  {task : Task} {own : Option JobId}
include hP

/-! ### Bounded calls -/

/-- **A task makes a bounded call**: it rests or breaks down, or goes on with the outcome. -/
theorem Acts.await (h : w.Acts P party task.id own) (hown : task.work.held? party = own)
    {call : Call} {limit : Duration} {next : call.Outcome → World → World}
    (hlate : ∀ e left, left.Acts P party task.id own →
      (next (.error e) left).Related P party)
    (hanswered : ∀ left, task.limit = none → w.isStalled call = false → w.Like party left →
      left.Acts P party task.id own → (next (w.store.run call w.now).1 left).Related P party) :
    (w.await task call limit next).Related P party := by
  have hrecord : (w.record call).Acts P party task.id own := h.like (.of_eq party rfl rfl rfl rfl)
  unfold World.await
  split
  · split
    · exact hlate _ w h
    · exact h.rest hP hown
  · next hlimit =>
    dsimp only
    split
    · split
      · exact hlate _ _ hrecord
      · exact Acts.rest hP hrecord hown
    · next hstalled =>
      have hinvoke : w.Like party ((w.record call).invoke call).2 := .of_eq party rfl rfl rfl rfl
      have hleft := h.like hinvoke
      have hnext := hanswered _ hlimit (Bool.eq_false_iff.2 hstalled) hinvoke hleft
      have houtcome : ((w.record call).invoke call).1 = (w.store.run call w.now).1 := rfl
      rw [← houtcome] at hnext
      generalize ((w.record call).invoke call).1 = outcome at hnext ⊢
      split
      · subst hown
        exact hleft.breakDown hP
      · exact hnext

/-! ### Workers -/

theorem Acts.startHandler {trial : Trial} {job : Job} {code : HandlerCode}
    {sequel : Sequel (Except JobError Bool)}
    (h : w.Acts P party task.id (if trial.party = party then some job.id else none)) :
    (w.startHandler task trial job code sequel).Related P party := by
  have hheld : (Work.attempting (trial.move (.handling job)) sequel).held? party =
      if trial.party = party then some job.id else none := Work.held?_of_job sequel rfl
  unfold World.startHandler
  dsimp only
  split
  · rw [← hheld] at h
    exact Acts.breakDown hP h
  · split
    · exact Acts.go hP h (held?_afterHandler trial job none sequel)
    · exact Acts.rest hP (h.spawn rfl) hheld

/-- **The claim is answered.** A job that comes may be put into the set. -/
theorem Acts.claimAnswered {trial : Trial} {sequel : Sequel (Except JobError Bool)}
    {answer : Except JobError (Option Job)} (h : w.Acts P party task.id none)
    (hgrant : ∀ job, answer = .ok (some job) → trial.party = party →
      P ((w.inFlight party).track job.id) (job.id :: (w.remove task.id).held party)) :
    (w.claimAnswered task trial sequel answer).Related P party := by
  have hjob : ∀ job, (Worker.afterClaim (fun jobType =>
      ((w.site trial.party).registry.find? jobType).isSome) answer).job? = some job →
      (w.track trial.party job.id).Acts P party task.id
        (if trial.party = party then some job.id else none) :=
    fun job hjob => h.track (hgrant job (answer_of_job? hjob))
  unfold World.claimAnswered
  dsimp only
  generalize Worker.afterClaim _ answer = attempt at hjob ⊢
  cases attempt with
  | handling job =>
    dsimp only [Attempt.job?]
    split
    · exact Acts.startHandler hP (hjob job rfl)
    · exact Acts.go hP (hjob job rfl) (Work.held?_of_job sequel rfl)
  | reporting job report => exact Acts.go hP (hjob job rfl) (Work.held?_of_job sequel rfl)
  | claiming => exact Acts.go hP h (Work.held?_of_none sequel rfl)
  | finished claimed => exact Acts.go hP h (Work.held?_of_none sequel rfl)

theorem Related.stepHandling {trial : Trial} {job : Job} {sequel : Sequel (Except JobError Bool)}
    (h : w.Related P party) (htask : task ∈ w.tasks) (hwork : task.work = .attempting trial sequel)
    (hattempt : trial.attempt = .handling job) :
    (w.stepHandling task trial job sequel).Related P party := by
  have hheld : task.work.held? party = if trial.party = party then some job.id else none := by
    rw [hwork]
    exact Work.held?_of_job sequel (by rw [hattempt]; rfl)
  -- The handler may be one that takes the loops with it, and so the task itself.
  have hended : ∀ left : World, left.Related P party → w.Leaves left →
      (left.go task (.attempting (trial.move (trial.worker.afterHandler job trial.ending))
        sequel)).Related P party := fun left hleft hleaves => by
    refine (hleft.setTask fun t ht hid => ?_).like (like_go party left task _)
    obtain ⟨before, hbefore, hsame, hsamework⟩ := hleaves t ht
    rw [← hsamework, h.numbered.eq_of_id htask hbefore (hsame.trans hid), hheld]
    exact (held?_afterHandler trial job trial.ending sequel).symm
  have hacts := h.acts hP htask
  unfold World.stepHandling
  dsimp only
  split
  · exact hended w h (.refl w)
  · split
    · cases trial.handler with
      | none => exact hended w h (.refl w)
      | some handler =>
        obtain ⟨hrelated, hleaves⟩ := h.cancel hP handler
        exact hended _ hrelated hleaves
    · exact hacts.rest hP rfl
  · exact hacts.settle hP rfl

theorem Related.stepAttempting {trial : Trial} {sequel : Sequel (Except JobError Bool)}
    (h : w.Related P party) (htask : task ∈ w.tasks) (hwork : task.work = .attempting trial sequel)
    (hgrant : ∀ job, trial.attempt = .claiming → task.limit = none →
      w.isStalled trial.worker.claim = false →
      (w.store.run (.claimNext trial.worker.queue trial.worker.id) w.now).1 = .ok (some job) →
      trial.party = party → P ((w.inFlight party).track job.id) (job.id :: w.held party)) :
    (w.stepAttempting task trial sequel).Related P party := by
  have hacts := h.acts hP htask
  unfold World.stepAttempting
  dsimp only
  cases hattempt : trial.attempt with
  | claiming =>
    have hheld : task.work.held? party = none := by
      rw [hwork]
      exact Work.held?_of_none sequel (by rw [hattempt]; rfl)
    have hperm : (w.held party).Perm ((task.work.held? party).toList ++
        (w.remove task.id).held party) := perm_held h.numbered.nodup htask
    rw [hheld] at hacts hperm
    -- A claim that is late gives no job, so only one that is answered needs the hypothesis.
    have hlate : ∀ (e : JobError) (left : World), left.Acts P party task.id none →
        (left.claimAnswered task trial sequel (.error e)).Related P party :=
      fun e left hleft => hleft.claimAnswered hP fun _ hanswer => by cases hanswer
    have hanswered : ∀ left : World, task.limit = none → w.isStalled trial.worker.claim = false →
        w.Like party left → left.Acts P party task.id none → (left.claimAnswered task trial sequel
          (w.store.run (.claimNext trial.worker.queue trial.worker.id) w.now).1).Related P party :=
      fun left hlimit hstalled hlike hleft =>
        hleft.claimAnswered hP fun job hanswer hparty => by
          rw [hlike.inFlight, held_remove_eq hlike.tasks]
          exact hP.perm (hgrant job hattempt hlimit hstalled hanswer hparty) (hperm.cons job.id)
    exact hacts.await hP hheld hlate hanswered
  | handling job => exact h.stepHandling hP htask hwork hattempt
  | reporting job report =>
    have hheld : task.work.held? party = if trial.party = party then some job.id else none := by
      rw [hwork]
      exact Work.held?_of_job sequel (by rw [hattempt]; rfl)
    have hended : ∀ left : World, left.Acts P party task.id (task.work.held? party) →
        ((left.release trial.party job.id).go task
          (.attempting (trial.move Worker.afterReport) sequel)).Related P party :=
      fun left hleft => Acts.go hP (Acts.release hP (hheld ▸ hleft)) (Work.held?_of_none sequel rfl)
    exact hacts.await hP rfl (fun _ left hleft => hended left hleft)
      fun left _ _ _ hleft => hended left hleft
  | finished claimed =>
    have hheld : task.work.held? party = none := by
      rw [hwork]
      exact Work.held?_of_none sequel (by rw [hattempt]; rfl)
    rw [hheld] at hacts
    cases sequel with
    | loop ticker => exact hacts.go hP rfl
    | program role next => exact hacts.go hP rfl

/-! ### Loops that wait, and cleanup -/

theorem Related.stepPolling {worker : Worker} {ticker : Ticker} (h : w.Related P party)
    (htask : task ∈ w.tasks) (hwork : task.work = .polling worker ticker) :
    (w.stepPolling task worker ticker).Related P party := by
  have hheld : task.work.held? party = none := by
    rw [hwork]
    rfl
  have hacts := h.acts_of_none hP htask hheld
  unfold World.stepPolling
  split
  · exact h.removeLoop htask hheld
  · split
    · exact hacts.go hP (Work.held?_of_none _ rfl)
    · exact hacts.rest hP hheld

theorem Related.stepIdling {ticker : Ticker} (h : w.Related P party) (htask : task ∈ w.tasks)
    (hwork : task.work = .idling ticker) : (w.stepIdling task ticker).Related P party := by
  have hheld : task.work.held? party = none := by
    rw [hwork]
    rfl
  have hacts := h.acts_of_none hP htask hheld
  unfold World.stepIdling
  split
  · exact h.removeLoop htask hheld
  · split
    · exact hacts.go hP rfl
    · exact hacts.rest hP hheld

theorem Acts.breakDown_none {cause : Breakdown} (h : w.Acts P party task.id none)
    (hheld : task.work.held? party = none) : (w.breakDown task cause).Related P party :=
  Acts.breakDown hP (hheld ▸ h)

theorem Related.stepCleaning {pass : CleanupPass} {sequel : Sequel CleanupReport}
    (h : w.Related P party) (htask : task ∈ w.tasks) (hwork : task.work = .cleaning pass sequel) :
    (w.stepCleaning task pass sequel).Related P party := by
  have hheld : task.work.held? party = none := by
    rw [hwork]
    rfl
  have hacts := h.acts_of_none hP htask hheld
  have hadvance : ∀ (left : World) (made : Except Breakdown CleanupPass),
      left.Acts P party task.id none → (left.advancePass task sequel made).Related P party :=
    fun left made hleft => by
      cases made with
      | ok pass => exact hleft.go hP rfl
      | error cause => exact hleft.breakDown_none hP hheld
  unfold World.stepCleaning
  dsimp only
  split
  · exact hacts.await hP hheld (fun e left hleft => hadvance left _ hleft)
      fun left _ _ _ hleft => hadvance left _ hleft
  · split
    · exact hacts.breakDown_none hP hheld
    · exact hacts.await hP hheld (fun e left hleft => hadvance left _ hleft)
        fun left _ _ _ hleft => hadvance left _ hleft
  · split
    · exact hacts.go hP rfl
    · exact hacts.go hP rfl

end Steps

/-! ### Commands -/

variable {P : InFlight → List JobId → Prop} {w : World} {id : TaskId} {own : Option JobId}

theorem Acts.spawnLoops {party : Party} (h : w.Acts P party id own) (runner : Runner)
    (slots : List Slot) : (w.spawnLoops runner slots).Acts P party id own := by
  unfold World.spawnLoops
  refine Acts.spawn ?_ rfl
  induction slots generalizing w with
  | nil => exact h
  | cons slot slots ih =>
    rw [List.foldl_cons]
    split
    · exact ih (h.spawn rfl)
    · exact ih h

theorem Acts.start {party : Party} (h : w.Acts P party id own) : w.start.2.Acts P party id own := by
  unfold World.start
  split
  · exact h
  · next runner hrunner =>
    dsimp only
    have hstarted : Acts P party id own { w with runner := some (runner.start .current).2 } :=
      h.like (.of_eq party rfl rfl rfl rfl)
    split
    · exact hstarted
    · exact hstarted.spawnLoops _ _

/-- **A command** changes neither what tasks hold nor the set. -/
theorem Acts.execute {party : Party} (h : w.Acts P party id own) (command : Command) :
    (w.execute command).world.Acts P party id own := by
  by_cases hstart : command = .start
  · subst hstart
    exact h.start
  · by_cases hqueue : ∃ queue, command = .addQueue queue
    · obtain ⟨queue, rfl⟩ := hqueue
      exact h.like (.of_eq party rfl rfl rfl rfl)
    · exact h.like ((quiet_execute w hstart fun queue heq => hqueue ⟨queue, heq⟩).like party)

theorem activeJobs_of_overview {w' : World} {stats : RunnerStats}
    (h : w.execute .overview = .done (.overview stats) w') :
    stats.activeJobs = (w.inFlight .runner).ids := by
  unfold execute attemptCall at h
  dsimp only at h
  split at h
  · cases h
  · obtain ⟨hanswer, -⟩ := Progress.done.inj h
    cases hrunner : ((w.record .queueStats).invoke .queueStats).2.runner with
    | none =>
      rw [hrunner] at hanswer
      cases houtcome : ((w.record .queueStats).invoke .queueStats).1 with
      | error e => rw [houtcome] at hanswer; cases hanswer
      | ok queues => rw [houtcome] at hanswer; cases hanswer
    | some runner =>
      rw [hrunner] at hanswer
      cases houtcome : ((w.record .queueStats).invoke .queueStats).1 with
      | error e => rw [houtcome] at hanswer; cases hanswer
      | ok queues =>
        rw [houtcome] at hanswer
        cases hanswer
        rfl

/-! ### Programs -/

section Programs

variable (hP : InFlight.Stable P) {party : Party} {task : Task} {role : Role}
include hP

theorem Acts.stepPause {time : Duration} {next : Program} (h : w.Acts P party task.id none)
    (hheld : task.work.held? party = none) :
    (w.stepPause task role time next).Related P party := by
  unfold World.stepPause
  split
  · split
    · exact h.go hP rfl
    · exact h.rest hP hheld
  · dsimp only
    split
    · exact h.go hP rfl
    · exact Acts.rest hP h hheld

theorem Acts.stepCommand {command : Command} {next : Answer → Program}
    (h : w.Acts P party task.id none) (hheld : task.work.held? party = none) :
    (w.stepCommand task role command next).Related P party := by
  have hexecute := h.execute command
  unfold World.stepCommand
  generalize w.execute command = progress at hexecute ⊢
  split
  · split
    · exact hexecute.breakDown_none hP hheld
    · exact hexecute.go hP rfl
  · exact hexecute.go hP rfl
  · exact hexecute.settle hP rfl
  · exact hexecute.go hP rfl

theorem Acts.stepUpgrade {upgrade : Sql.Upgrade} {next : Answer → Program}
    (h : w.Acts P party task.id none) :
    (w.stepUpgrade task role upgrade next).Related P party := by
  unfold World.stepUpgrade
  split
  · exact h.go hP rfl
  · next store _ =>
    have hstore : Acts P party task.id none
        { w with store := .sql { store with connection := (upgrade.step store.connection).2 } } :=
      h.like (.of_eq party rfl rfl rfl rfl)
    dsimp only
    split
    · exact hstore.go hP rfl
    · exact hstore.yield hP rfl

theorem Acts.stepAwaitStatus {jobId : JobId} {status : Status} {limit : Duration}
    {next : Bool → Program} (h : w.Acts P party task.id none)
    (hheld : task.work.held? party = none) :
    (w.stepAwaitStatus task role jobId status limit next).Related P party := by
  have hlook := h.like ((quiet_hasStatus w jobId status).like party)
  unfold World.stepAwaitStatus
  dsimp only
  generalize w.hasStatus jobId status = found at hlook ⊢
  split
  · exact hlook.breakDown_none hP hheld
  · exact hlook.go hP rfl
  · split
    · exact hlook.go hP rfl
    · exact Acts.rest hP hlook hheld

theorem Acts.stepStopping {next : Answer → Program} (h : w.Acts P party task.id none)
    (hheld : task.work.held? party = none) :
    (w.stepStopping task role next).Related P party := by
  unfold World.stepStopping
  split
  · exact h.go hP rfl
  · split
    · split
      · exact h.go hP rfl
      · exact h.rest hP hheld
    · exact h.settle hP hheld

theorem Acts.stop {timeout : Duration} {next : Answer → Program}
    (h : w.Acts P party task.id none) : (w.stop task role timeout next).Related P party := by
  unfold World.stop
  split
  · exact h.go hP rfl
  · next runner hrunner =>
    have hstopped : Acts P party task.id none { w with runner := some runner.stop.2 } :=
      h.like (.of_eq party rfl rfl rfl rfl)
    dsimp only
    split
    · exact Acts.stepStopping hP (hstopped.like (like_signalShutdown party _ _)) rfl
    · exact hstopped.go hP rfl

theorem Related.stepProgram {program : Program} (h : w.Related P party) (htask : task ∈ w.tasks)
    (hwork : task.work = .running role program) :
    (w.stepProgram task role program).Related P party := by
  have hheld : task.work.held? party = none := by
    rw [hwork]
    rfl
  have hacts := h.acts_of_none hP htask hheld
  unfold World.stepProgram
  dsimp only
  cases program with
  | finish ending =>
    refine h.finish (fun t ht hid => ?_) role ending
    rw [h.numbered.eq_of_id htask ht hid]
    exact hheld
  | perform command next => exact hacts.stepCommand hP hheld
  | register other jobType code next =>
    exact (hacts.like (like_register party w other jobType code)).go hP rfl
  | checkShutdown next => exact hacts.go hP rfl
  | pause time next => exact hacts.stepPause hP hheld
  | awaitShutdown next =>
    dsimp only
    split
    · exact hacts.go hP rfl
    · exact hacts.settle hP hheld
  | pauseUnlessShutdown time onTime onShutdown =>
    dsimp only
    split
    · exact hacts.go hP rfl
    · exact hacts.stepPause hP hheld
  | awaitStatus jobId status limit next => exact hacts.stepAwaitStatus hP hheld
  | attempt queue worker next =>
    dsimp only
    split
    · exact hacts.breakDown_none hP hheld
    · exact hacts.go hP (Work.held?_of_none _ rfl)
  | cleanup next => exact hacts.go hP rfl
  | upgrade upgrade next => exact hacts.stepUpgrade hP
  | stop timeout next => exact hacts.stop hP
  | log entry next =>
    have hlogged : Acts P party task.id none { w with log := entry :: w.log } :=
      hacts.like (.of_eq party rfl rfl rfl rfl)
    exact hlogged.go hP rfl
  | stuck => exact hacts.settle hP hheld

/-! ### The system -/

/-- **A move of a task**, if a job that it grants may be put into the set. -/
theorem Related.stepTask (h : w.Related P party) {taskId : TaskId}
    (hfind : w.task? taskId = some task)
    (hgrant : ∀ id, w.Grants taskId party id →
      P ((w.inFlight party).track id) (id :: w.held party)) :
    (w.stepTask task).Related P party := by
  have htask : task ∈ w.tasks := List.mem_of_find?_eq_some hfind
  unfold World.stepTask
  split
  · exact (h.discard hP htask).1
  · next hcancelled =>
    split
    · next hwork => exact h.stepPolling hP htask hwork
    · next trial sequel hwork =>
      exact h.stepAttempting hP htask hwork fun job hattempt hlimit hstalled hanswer hparty =>
        hgrant job.id ⟨task, trial, sequel, job, hfind, Bool.eq_false_iff.2 hcancelled, hwork,
          hparty, hattempt, hlimit, hstalled, hanswer, rfl⟩
    · next hwork => exact h.stepIdling hP htask hwork
    · next hwork => exact h.stepCleaning hP htask hwork
    · next hwork => exact h.stepProgram hP htask hwork
    · next role next hwork =>
      have hheld : task.work.held? party = none := by
        rw [hwork]
        rfl
      exact Acts.stepStopping hP (h.acts_of_none hP htask hheld) hheld

omit hP in
theorem Related.jump (h : w.Related P party) (time : Nat) : (w.jump time).Related P party := by
  have hsame : ∀ t : Task, ∀ due : Bool,
      (if due then { t with alarm := none } else t).id = t.id ∧
        (if due then { t with alarm := none } else t).work = t.work := by
    intro t due
    cases due <;> exact ⟨rfl, rfl⟩
  refine ⟨?_, h.numbered.of_ids ?_ rfl⟩
  · have hheld : (w.jump time).held party = w.held party := by
      show (w.tasks.map _).filterMap _ = w.tasks.filterMap _
      rw [List.filterMap_map]
      exact List.filterMap_congr fun t _ => congrArg (Work.held? party) (hsame t _).2
    rw [hheld]
    exact h.related
  · show (w.tasks.map _).map Task.id = _
    rw [List.map_map]
    exact List.map_congr_left fun t _ => (hsame t _).1

omit hP in
theorem related_create (h : P .empty []) (store : Backend) (clock : Clock) (config : RunnerConfig)
    (runner : Option Runner) (host : Program) :
    (create store clock config runner host).Related P party := by
  refine ⟨by cases party <;> exact h, List.nodup_singleton _, fun id hid => ?_⟩
  rw [List.mem_singleton.1 hid]
  exact Nat.zero_lt_one

end Programs

end World

end JobQueue

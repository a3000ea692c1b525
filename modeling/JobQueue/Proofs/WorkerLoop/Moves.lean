import JobQueue.Proofs.Runner.Bounded
import JobQueue.Proofs.WorkerLoop.Runs

/-! # The moves of a loop

A loop of the runner is a task. What it does in one move is some steps of a run of a worker loop: it
takes a tick and looks at the signal, or it makes its call and goes on with the answer, or it waits. Here
this is said of every move, with the calls that the loop makes in it and the job that it is granted.

* `WorkerLoop.Stands`, `WorkerLoop.At`: where a loop stands in a system.
* `WorkerLoop.Past.Moves`: a move is steps of a run.
* `WorkerLoop.moves_stepPolling`, `WorkerLoop.moves_await`, `WorkerLoop.moves_stepHandling`: waiting for a
  tick, for an answer, for a handler.
* `WorkerLoop.moves_serve`: **every move of a loop.** -/

namespace JobQueue.WorkerLoop

open World

/-- Where a loop stands in an attempt, whether it waits for an answer or not. -/
def Point.of : Attempt → Bool → Point
  | .claiming, true => .claiming
  | .reporting job _, true => .reporting job
  | attempt, _ => .attempting attempt

/-- **The task is the loop of the worker, and stands there.** -/
inductive Stands (worker : Worker) (t : Task) : Point → Prop
  | waiting {ticker : Ticker} (hwork : t.work = .polling worker ticker) : Stands worker t .waiting
  | attempting {trial : Trial} {ticker : Ticker} {point : Point}
      (hwork : t.work = .attempting trial (.loop ticker)) (hworker : trial.worker = worker)
      (hpoint : point = .of trial.attempt t.limit.isSome) : Stands worker t point

/-- **The loop stands there**: its task does; or the task is gone, which it may be only when the run is
over or nobody is in charge of the loops. -/
structure At (w : World) (id : TaskId) (worker : Worker) (point : Point) : Prop where
  stands : ∀ t, w.task? id = some t → Stands worker t point
  gone : w.task? id = none → 0 < w.inCharge → point.isOver = true

/-- **What was before a move of a loop**: its worker and its run so far, and all calls. -/
structure Past where
  worker : Worker
  initial : Shutdown
  events : List Event
  calls : List Call

namespace Past

/-- **The loop makes these steps more**, and with them these are all calls, these the jobs that it was
granted in the move, and so many the ticks that it took. -/
structure Makes (past : Past) (all : List Call) (granted : List Job) (ticks : Nat)
    (more : List Event) (point : Point) : Prop where
  run : Run past.worker past.initial (more ++ past.events) point
  inside : ∀ event ∈ more, event.isOutside = false
  calls : all = callsIn past.worker more ++ past.calls
  grants : grantsIn more = granted
  ticks : ticksIn more = ticks

/-- **A loop has moved**: it has made some steps more and stands there. -/
def Moves (past : Past) (granted : List Job) (ticks : Nat) (w : World) (id : TaskId) : Prop :=
  ∃ more point, past.Makes w.calls granted ticks more point ∧ At w id past.worker point

variable {past : Past} {all : List Call} {granted : List Job} {ticks : Nat} {more : List Event}
  {point next : Point} {event : Event}

theorem Makes.step (h : past.Makes all granted ticks more point)
    (hstep : Step past.worker (signalAfter past.initial (more ++ past.events)) point event next)
    (hinside : event.isOutside = false) :
    past.Makes ((event.call? past.worker).toList ++ all) (event.granted?.toList ++ granted)
      (ticks + event.isTick.toNat) (event :: more) next where
  run := h.run.step hstep
  inside := List.forall_mem_cons.2 ⟨hinside, h.inside⟩
  calls := by
    rw [h.calls, ← List.append_assoc]
    exact congrArg (· ++ past.calls) (filterMap_cons_toList _ event more).symm
  grants := by
    rw [← h.grants]
    exact filterMap_cons_toList _ event more
  ticks := by
    rw [← h.ticks]
    unfold ticksIn
    rw [List.countP_cons]
    cases event.isTick <;> rfl

end Past

variable {w left : World} {id : TaskId} {task t : Task} {worker : Worker} {past : Past}
  {granted : List Job} {more : List Event} {point : Point}

/-! ### Where a loop stands after a move -/

theorem task?_eq_none (h : id ∉ w.tasks.map Task.id) : w.task? id = none := by
  refine Option.eq_none_iff_forall_not_mem.2 fun t ht => h ?_
  obtain ⟨hmem, rfl⟩ := mem_of_task? ht
  exact List.mem_map_of_mem hmem

theorem at_set (htasks : w.tasks = (left.setTask task).tasks) (hid : task.id = id)
    (hkept : 0 < w.inCharge → id ∈ left.tasks.map Task.id) (hstands : Stands worker task point) :
    At w id worker point := by
  subst hid
  refine ⟨fun t ht => ?_, fun hnone hcharge => ?_⟩
  · obtain ⟨hmem, hid⟩ := mem_of_task? ht
    rw [htasks] at hmem
    rw [eq_of_mem_setTask hmem hid]
    exact hstands
  · rw [task?_eq htasks, task?_setTask (hkept hcharge)] at hnone
    cases hnone

theorem at_go {work : Work}
    (hkept : 0 < (left.go task work).inCharge → task.id ∈ left.tasks.map Task.id)
    (hstands : Stands worker { task with work := work, limit := none, alarm := none } point) :
    At (left.go task work) task.id worker point := by
  have hset : (left.go task work).tasks =
      (left.setTask { task with work := work, limit := none, alarm := none }).tasks := rfl
  exact at_set hset rfl hkept hstands

theorem at_rest {time : Nat} (hmem : task.id ∈ left.tasks.map Task.id)
    (hstands : ∀ alarm, Stands worker { task with alarm := alarm } point) :
    At (left.rest task time) task.id worker point := by
  obtain ⟨alarm, hframe⟩ := exists_frame_rest left task time
  exact at_set hframe.tasks rfl (fun _ => hmem) (hstands alarm)

theorem at_gone (hgone : id ∉ w.tasks.map Task.id) (hover : point.isOver = true) :
    At w id worker point := by
  refine ⟨fun t ht => ?_, fun _ _ => hover⟩
  rw [task?_eq_none hgone] at ht
  cases ht

/-! ### Whoever is ended makes no call -/

theorem calls_cancelWith {stop : World → Task → World}
    (h : ∀ w task, (stop w task).calls = w.calls) (w : World) (task : Task) :
    (cancelWith stop w task).calls = w.calls := by
  unfold cancelWith
  split
  · unfold wake
    split <;> rfl
  · exact h w task

theorem calls_discard (w : World) (task : Task) : (w.discard task).calls = w.calls := by
  unfold World.discard
  dsimp only
  split
  · refine List.foldlRecOn (motive := fun left : World => left.calls = w.calls) _ _ (calls_abandon w task)
      fun left hleft t _ => ?_
    exact (calls_cancelWith calls_abandon left t).trans hleft
  · exact calls_abandon w task

theorem calls_cancel (w : World) (id : TaskId) : (w.cancel id).calls = w.calls := by
  unfold World.cancel
  split
  · exact calls_cancelWith calls_discard w _
  · rfl

/-! ### Waiting for a tick -/

/-- A loop that waits takes a tick in its next move: it is due, and the wait for the signal has not come
to an end. -/
def isTicked (w : World) (party : Party) (ticker : Ticker) : Bool :=
  !(w.site party).shutdown.endsWait && ticker.isDue w.nanos

/-- **A loop that waits** finds the signal, or takes a tick and looks at the signal, or goes on
waiting. -/
theorem moves_stepPolling {ticker : Ticker} (hmem : task.id ∈ w.tasks.map Task.id)
    (hwork : task.work = .polling past.worker ticker)
    (hsignal : (w.site task.party).shutdown = signalAfter past.initial past.events)
    (h : past.Makes w.calls [] 0 [] .waiting) :
    past.Moves [] (isTicked w task.party ticker).toNat (w.stepPolling task past.worker ticker)
      task.id := by
  unfold stepPolling isTicked
  rw [hsignal]
  split
  · next hends =>
    have hgone : task.id ∉ (w.removeLoop task.id).tasks.map Task.id := by
      rw [tasks_removeLoop]
      exact not_mem_remove w task.id
    have hleave := h.step (.leave hends) rfl
    rw [← calls_removeLoop w task.id] at hleave
    rw [hends]
    exact ⟨_, _, hleave, at_gone hgone rfl⟩
  · next hwaits =>
    have hwaits := Bool.eq_false_iff.2 hwaits
    rw [hwaits]
    split
    · next hdue =>
      have hnone : (signalAfter past.initial past.events).signalled = false := by
        unfold Shutdown.endsWait at hwaits
        exact (Bool.or_eq_false_iff.1 hwaits).1
      have hlook := (h.step .tick rfl).step .look rfl
      rw [show (signalAfter past.initial ([.tick] ++ past.events)).signalled = false from hnone]
        at hlook
      rw [hdue]
      exact ⟨_, _, hlook, at_go (fun _ => hmem) (.attempting rfl rfl rfl)⟩
    · next hearly =>
      rw [← calls_rest w task ticker.due] at h
      rw [Bool.eq_false_iff.2 hearly]
      exact ⟨_, _, h, at_rest hmem fun _ => .waiting hwork⟩

/-! ### Attempts -/

theorem of_false (attempt : Attempt) : Point.of attempt false = .attempting attempt := by
  cases attempt <;> rfl

section Attempting

variable {trial : Trial} {ticker : Ticker} {job : Job}

theorem at_move {attempt : Attempt} (hworker : trial.worker = worker)
    (hkept : 0 < (left.go task (.attempting (trial.move attempt) (.loop ticker))).inCharge →
      task.id ∈ left.tasks.map Task.id) :
    At (left.go task (.attempting (trial.move attempt) (.loop ticker))) task.id worker
      (.attempting attempt) :=
  at_go hkept (.attempting rfl hworker (of_false attempt).symm)

/-- **A granted job with a handler**: the handler starts, or has no time; or the attempt has no number,
and the loop breaks down. -/
theorem moves_startHandler (hworker : trial.worker = past.worker) {registered : JobType → Bool}
    (hregistered : registered job.jobType = true) (code : HandlerCode)
    (hmem : task.id ∈ left.tasks.map Task.id) (h : past.Makes left.calls [] 0 more .claiming) :
    past.Moves [job] 0 (left.startHandler task trial job code (.loop ticker)) task.id := by
  let granted : Event := .claimed registered (.ok (some job))
  have hclaimed := h.step (.claimed registered (.ok (some job))) rfl
  have hbreaks : granted.breaks = !job.attempt.isOk := by
    show (registered job.jobType && !job.attempt.isOk) = _
    rw [hregistered, Bool.true_and]
  have hhandling : Worker.afterClaim registered (.ok (some job)) = .handling job :=
    if_pos hregistered
  rw [hbreaks, hhandling] at hclaimed
  let begun : Task := { task with work := .attempting (trial.move (.handling job)) (.loop ticker) }
  cases hattempt : job.attempt with
  | error cause =>
    have hcontext := JobContext.ofJob_eq_error hattempt trial.worker.handlerTimeout
    have hstep : left.startHandler task trial job code (.loop ticker) =
        left.breakDown begun cause := by
      unfold World.startHandler
      dsimp only
      rw [show JobContext.ofJob job trial.worker.handlerTimeout = _ from hcontext]
    rw [hattempt, ← calls_breakDown left begun rfl cause] at hclaimed
    rw [hstep]
    exact ⟨_, _, hclaimed, at_gone (not_mem_breakDown left begun cause) rfl⟩
  | ok n =>
    obtain ⟨context, hcontext⟩ := JobContext.exists_ofJob hattempt trial.worker.handlerTimeout
    rw [hattempt] at hclaimed
    unfold World.startHandler
    dsimp only
    rw [show JobContext.ofJob job trial.worker.handlerTimeout = _ from hcontext]
    dsimp only
    split
    · -- The handler has no time, so its end comes at once.
      have hhandled := hclaimed.step (.handled none) rfl
      rw [← hworker] at hhandled
      exact ⟨_, _, hhandled, at_move hworker fun _ => hmem⟩
    · have hspawned : task.id ∈ (left.spawn trial.party
          (.running (.handler task.id) (code context job.payload))).tasks.map Task.id :=
        List.map_append ▸ List.mem_append_left _ hmem
      refine ⟨granted :: more, .attempting (.handling job), ?_,
        at_rest hspawned fun alarm => .attempting rfl hworker rfl⟩
      rw [calls_rest]
      exact hclaimed

theorem moves_claimAnswered (hworker : trial.worker = past.worker)
    (hmem : task.id ∈ left.tasks.map Task.id) (h : past.Makes left.calls [] 0 more .claiming)
    {answer : Except JobError (Option Job)} (hanswer : ∀ cause, answer ≠ .error (.breakdown cause)) :
    past.Moves answer.toOption.join.toList 0 (left.claimAnswered task trial (.loop ticker) answer)
      task.id := by
  let registered : JobType → Bool := fun jobType =>
    ((left.site trial.party).registry.find? jobType).isSome
  have hclaimed := h.step (.claimed registered answer) rfl
  match answer with
  | .error e =>
    have hwhole : (Event.claimed registered (.error e)).breaks = false := by
      cases e with
      | breakdown cause => exact absurd rfl (hanswer cause)
      | _ => rfl
    rw [hwhole] at hclaimed
    exact ⟨_, _, hclaimed, at_move hworker fun _ => hmem⟩
  | .ok none => exact ⟨_, _, hclaimed, at_move hworker fun _ => hmem⟩
  | .ok (some job) =>
    have htracked : task.id ∈ (left.track trial.party job.id).tasks.map Task.id := by
      unfold track
      rw [tasks_setSite]
      exact hmem
    have hcalls : (left.track trial.party job.id).calls = left.calls := calls_setSite left _ _
    unfold claimAnswered Worker.afterClaim
    cases hfound : (left.site trial.party).registry.find? job.jobType with
    | none =>
      have hunknown : registered job.jobType = false := by
        show Option.isSome _ = false
        rw [hfound]
        rfl
      have hwhole : (Event.claimed registered (.ok (some job))).breaks = false := by
        show (registered job.jobType && _) = false
        rw [hunknown]
        rfl
      have hgiven : Worker.afterClaim registered (.ok (some job)) =
          .reporting job (.failPermanently (Worker.noHandler job.jobType)) :=
        if_neg (Bool.eq_false_iff.1 hunknown)
      rw [hwhole, hgiven, ← hcalls] at hclaimed
      simp only [hfound, Option.isSome_none]
      exact ⟨_, _, hclaimed, at_move hworker fun _ => htracked⟩
    | some code =>
      have hregistered : registered job.jobType = true := by
        show Option.isSome _ = true
        rw [hfound]
        rfl
      rw [← hcalls] at h
      simp only [hfound, Option.isSome_some, if_true]
      exact moves_startHandler hworker hregistered code htracked h

/-- **A handler runs**: it has ended or its time is over, and the report comes next; or it goes on. -/
theorem moves_stepHandling (hsound : w.Sound) (htask : task ∈ w.tasks)
    (hwork : task.work = .attempting trial (.loop ticker)) (hworker : trial.worker = past.worker)
    (hattempt : trial.attempt = .handling job)
    (h : past.Makes w.calls [] 0 [] (.attempting (.handling job))) :
    past.Moves [] 0 (w.stepHandling task trial job (.loop ticker)) task.id := by
  have hmem : task.id ∈ w.tasks.map Task.id := List.mem_map_of_mem htask
  have hhandled := h.step (.handled trial.ending) rfl
  rw [← hworker] at hhandled
  have hevolves := evolves_stepHandling hsound htask hwork job
  revert hevolves
  unfold World.stepHandling
  dsimp only
  split
  · exact fun _ => ⟨_, _, hhandled, at_move hworker fun _ => hmem⟩
  · split
    · intro hevolves
      have hcalls : (trial.handler.elim w w.cancel).calls = w.calls := by
        cases trial.handler with
        | none => rfl
        | some handler => exact calls_cancel w handler
      rw [← hcalls] at hhandled
      exact ⟨_, _, hhandled, at_move hworker (mem_cancel hsound htask hwork rfl hevolves)⟩
    · intro _
      rw [← calls_rest w task] at h
      exact ⟨_, _, h, at_rest hmem fun _ => .attempting hwork hworker (by rw [hattempt]; rfl)⟩
  · intro _
    have hset : (w.settle task).tasks = (w.setTask { task with alarm := none }).tasks := rfl
    exact ⟨_, _, h, at_set hset rfl (fun _ => hmem)
      (.attempting hwork hworker (by rw [hattempt]; rfl))⟩

/-- What a call is answered with at once, if the task makes it in its next move. -/
def atOnce (w : World) (task : Task) (call : Call) : Option call.Outcome :=
  if task.limit.isSome || w.isStalled call then none else some (w.store.run call w.now).1

section AtOnce

variable {call : Call}

theorem atOnce_of_waiting {time : Nat} (hlimit : task.limit = some time) :
    atOnce w task call = none := by
  unfold atOnce
  rw [hlimit]
  rfl

theorem atOnce_of_stalled (hstalled : w.isStalled call = true) : atOnce w task call = none := by
  unfold atOnce
  rw [hstalled, Bool.or_true]
  rfl

theorem atOnce_of_made (hlimit : task.limit = none) (hmade : w.isStalled call = false) :
    atOnce w task call = some (w.store.run call w.now).1 := by
  unfold atOnce
  rw [hlimit, hmade]
  rfl

end AtOnce

/-- **A call of an attempt**: it is made, if it was not before; the loop waits for the answer, or the
attempt goes on with it, or the loop breaks down. -/
theorem moves_await (call : Call) (made : Event) (granted : call.Outcome → List Job)
    {limit : Duration} {next : call.Outcome → World → World} (hnone : ∀ e, granted (.error e) = [])
    (hmem : task.id ∈ w.tasks.map Task.id) (hwork : task.work = .attempting trial (.loop ticker))
    (hworker : trial.worker = past.worker)
    (h : past.Makes w.calls [] 0 [] (.of trial.attempt task.limit.isSome))
    (hmade : ∀ shutdown,
      Step past.worker shutdown (.of trial.attempt false) made (.of trial.attempt true))
    (hcall : made.call? past.worker = some call) (hinside : made.isOutside = false)
    (hgrant : made.granted? = none) (htick : made.isTick = false) {now : List Job}
    (hnow : (atOnce w task call).elim [] granted = now)
    (hnext : ∀ {more : List Event} {outcome : call.Outcome} {left : World},
      task.id ∈ left.tasks.map Task.id → (∀ cause, outcome ≠ .error (.breakdown cause)) →
      past.Makes left.calls [] 0 more (.of trial.attempt true) →
      past.Moves (granted outcome) 0 (next outcome left) task.id)
    (hbroken : ∀ {more : List Event} {left : World} (cause : Breakdown),
      past.Makes left.calls [] 0 more (.of trial.attempt true) →
      past.Moves [] 0 (left.breakDown task cause) task.id) :
    past.Moves now 0 (w.await task call limit next) task.id := by
  subst hnow
  have htimeout : ∀ cause, (.error (call.timeout limit) : call.Outcome) ≠ .error (.breakdown cause) :=
    fun _ => nofun
  have hsent : task.limit = none →
      past.Makes (call :: w.calls) [] 0 [made] (.of trial.attempt true) := fun hlimit => by
    rw [hlimit] at h
    have hstep := h.step (hmade _) hinside
    rw [hcall, hgrant, htick] at hstep
    exact hstep
  have hlate : atOnce w task call = none →
      (atOnce w task call).elim [] granted = granted (.error (call.timeout limit)) := fun hlate => by
    rw [hlate, hnone]
    rfl
  have hbounded := bounded_await w task call limit next
  generalize w.await task call limit next = after at hbounded
  cases hbounded with
  | @late time hlimit _ =>
    rw [hlate (atOnce_of_waiting hlimit)]
    rw [hlimit] at h
    exact hnext hmem htimeout h
  | @waiting time hlimit _ =>
    rw [atOnce_of_waiting hlimit]
    rw [← calls_rest w task time] at h
    exact ⟨_, _, h, at_rest hmem fun _ => .attempting hwork hworker rfl⟩
  | timeless hlimit hnever =>
    rw [hlate (atOnce_of_stalled hnever)]
    exact hnext hmem htimeout (hsent hlimit)
  | stalled hlimit hnever =>
    rw [atOnce_of_stalled hnever]
    let waiting : Task := { task with limit := some (w.after limit) }
    have hwaits : At ((w.record call).rest waiting (w.after limit)) waiting.id past.worker
        (.of trial.attempt true) :=
      at_rest hmem fun _ => .attempting hwork hworker rfl
    refine ⟨[made], _, ?_, hwaits⟩
    rw [calls_rest]
    exact hsent hlimit
  | @broken hlimit hmade cause hbreakdown =>
    rw [atOnce_of_made hlimit hmade, hbreakdown, Option.elim_some, hnone]
    exact hbroken cause (hsent hlimit)
  | answered hlimit hmade hwhole =>
    rw [atOnce_of_made hlimit hmade]
    exact hnext hmem hwhole (hsent hlimit)

/-- The jobs that an attempt is granted in the next move of its task. -/
def grantedNow (w : World) (task : Task) (trial : Trial) : List Job :=
  match trial.attempt with
  | .claiming =>
    (atOnce w task trial.worker.claim).elim [] fun answer : Except JobError (Option Job) =>
      answer.toOption.join.toList
  | _ => []

theorem moves_stepAttempting (hsound : w.Sound) (htask : task ∈ w.tasks)
    (hwork : task.work = .attempting trial (.loop ticker)) (hworker : trial.worker = past.worker)
    (h : past.Makes w.calls [] 0 [] (.of trial.attempt task.limit.isSome)) :
    past.Moves (grantedNow w task trial) 0 (w.stepAttempting task trial (.loop ticker)) task.id := by
  have hmem : task.id ∈ w.tasks.map Task.id := List.mem_map_of_mem htask
  have hrole : task.work.role? = none := by
    rw [hwork]
    rfl
  unfold stepAttempting grantedNow
  dsimp only
  cases hattempt : trial.attempt with
  | claiming =>
    dsimp only
    refine moves_await trial.worker.claim .claim (fun answer : Except JobError (Option Job) =>
      answer.toOption.join.toList) (fun _ => rfl) hmem hwork hworker h ?_ ?_ rfl rfl rfl rfl ?_ ?_
    · rw [hattempt]
      exact fun _ => .claim
    · rw [hworker]
      rfl
    · intro more outcome left hleft hwhole hclaiming
      rw [hattempt] at hclaiming
      exact moves_claimAnswered hworker hleft hclaiming hwhole
    · intro more left cause hclaiming
      rw [hattempt] at hclaiming
      have hbroken := hclaiming.step (.claimed (fun _ => false) (.error (.breakdown cause))) rfl
      rw [← calls_breakDown left task hrole cause] at hbroken
      exact ⟨_, _, hbroken, at_gone (not_mem_breakDown left task cause) rfl⟩
  | handling job =>
    rw [hattempt] at h
    exact moves_stepHandling hsound htask hwork hworker hattempt h
  | reporting job report =>
    dsimp only
    let call := report.call job.id trial.worker.id
    have hnone : (atOnce w task call).elim [] (fun _ => ([] : List Job)) = [] := by
      cases atOnce w task call <;> rfl
    refine moves_await call (.report job report) (fun _ => []) (fun _ => rfl) hmem hwork hworker h
      ?_ ?_ rfl rfl rfl hnone ?_ ?_
    · rw [hattempt]
      exact fun _ => .report
    · show _ = some (report.call job.id trial.worker.id)
      rw [hworker]
      rfl
    · intro more outcome left hleft hwhole hreporting
      rw [hattempt] at hreporting
      let released := left.release trial.party job.id
      have hreleased : task.id ∈ released.tasks.map Task.id := by
        show _ ∈ (left.setSite _ _).tasks.map _
        rw [tasks_setSite]
        exact hleft
      have hcalls : released.calls = left.calls := calls_setSite left _ _
      rw [← hcalls] at hreporting
      cases outcome with
      | error e =>
        have hkept : (Event.reported job (some e)).breaks = false := by
          cases e with
          | breakdown cause => exact absurd rfl (hwhole cause)
          | _ => rfl
        have hreported := hreporting.step (.reported (some e)) rfl
        rw [hkept] at hreported
        exact ⟨_, _, hreported, at_move hworker fun _ => hreleased⟩
      | ok result =>
        have hreported := hreporting.step (.reported none) rfl
        exact ⟨_, _, hreported, at_move hworker fun _ => hreleased⟩
    · intro more left cause hreporting
      rw [hattempt] at hreporting
      have hbroken := hreporting.step (.reported (some (.breakdown cause))) rfl
      rw [← calls_breakDown left task hrole cause] at hbroken
      exact ⟨_, _, hbroken, at_gone (not_mem_breakDown left task cause) rfl⟩
  | finished claimed =>
    rw [hattempt] at h
    have hagain := h.step .again rfl
    exact ⟨_, _, hagain, at_go (fun _ => hmem) (hworker ▸ .waiting rfl)⟩

/-! ### Every move -/

/-- The loop takes a tick in its next move. -/
def takesTick (w : World) (id : TaskId) : Bool :=
  match w.task? id with
  | some { party := party, work := .polling _ ticker, cancelled := false, .. } =>
    isTicked w party ticker
  | _ => false

theorem takesTick_eq_false (h : ∀ t, w.task? id = some t → t.cancelled = false →
    ∀ worker ticker, t.work ≠ .polling worker ticker) : takesTick w id = false := by
  unfold takesTick
  split
  · next worker ticker _ _ hfind => exact absurd rfl (h _ hfind rfl worker ticker)
  · rfl

theorem takesTick_of_polling {ticker : Ticker} (hfind : w.task? id = some task)
    (hcancelled : task.cancelled = false) (hwork : task.work = .polling worker ticker) :
    takesTick w id = isTicked w task.party ticker := by
  obtain ⟨taskId, party, work, limit, alarm, cancelled⟩ := task
  obtain rfl : cancelled = false := hcancelled
  obtain rfl : work = .polling worker ticker := hwork
  unfold takesTick
  rw [hfind]

theorem grant?_eq_none (h : ∀ t, w.task? id = some t → t.cancelled = false →
    ∀ trial ticker, t.work ≠ .attempting trial (.loop ticker)) : w.grant? id = none := by
  unfold grant?
  split
  · next trial ticker _ hfind => exact absurd rfl (h _ hfind rfl trial ticker)
  · rfl

theorem grantedNow_eq (hfind : w.task? id = some task) (hcancelled : task.cancelled = false)
    (hwork : task.work = .attempting trial (.loop ticker)) :
    ((w.grant? id).map Prod.snd).toList = grantedNow w task trial := by
  obtain ⟨taskId, party, work, limit, alarm, cancelled⟩ := task
  obtain rfl : cancelled = false := hcancelled
  obtain rfl : work = .attempting trial (.loop ticker) := hwork
  unfold grant? grantedNow atOnce
  rw [hfind]
  cases limit with
  | some time => cases trial.attempt <;> rfl
  | none =>
    dsimp only
    cases trial.attempt with
    | claiming =>
      dsimp only
      split
      · next hstalled => rw [hstalled]; rfl
      · next hmade =>
        rw [Bool.eq_false_iff.2 hmade, Option.map_map]
        exact congrArg Option.toList Option.map_id'
    | _ => rfl

end Attempting

theorem moves_serve (hsound : w.Sound) (hfind : w.task? id = some task)
    (hcancelled : task.cancelled = false) {initial : Shutdown} {events : List Event}
    (hsignal : w.team.shutdown = signalAfter initial events) (hstands : Stands worker task point)
    (hrun : Run worker initial events point) :
    (Past.mk worker initial events w.calls).Moves ((w.grant? id).map Prod.snd).toList
      (takesTick w id).toNat (w.occur (.serve id)) id := by
  have h : (Past.mk worker initial events w.calls).Makes w.calls [] 0 [] point :=
    ⟨hrun, fun _ hmem => absurd hmem List.not_mem_nil, rfl, rfl, rfl⟩
  obtain ⟨htask, rfl⟩ := mem_of_task? hfind
  have hmem : task.id ∈ w.tasks.map Task.id := List.mem_map_of_mem htask
  cases hstands with
  | @waiting ticker hwork =>
    have hstep : w.occur (.serve task.id) = w.stepPolling task worker ticker := by
      rw [occur_serve hfind]
      unfold stepTask
      rw [hcancelled, hwork]
      rfl
    have hsite : (w.site task.party).shutdown = signalAfter initial events := by
      rw [hsound.party task htask (by rw [hwork]; rfl)]
      exact hsignal
    have hnone : w.grant? task.id = none := grant?_eq_none fun t ht _ trial ticker hattempting => by
      rw [Option.some.inj (ht.symm.trans hfind), hwork] at hattempting
      cases hattempting
    rw [hstep, hnone, takesTick_of_polling hfind hcancelled hwork]
    exact moves_stepPolling hmem hwork hsite h
  | @attempting trial ticker _ hwork hworker hpoint =>
    subst hpoint
    have hnone : takesTick w task.id = false := takesTick_eq_false fun t ht _ _ _ hpolling => by
      rw [Option.some.inj (ht.symm.trans hfind), hwork] at hpolling
      cases hpolling
    rw [grantedNow_eq hfind hcancelled hwork, occur_attempting hfind hcancelled hwork, hnone]
    exact moves_stepAttempting hsound htask hwork hworker h

theorem Stands.isLoop (h : Stands worker t point) : t.work.isLoop = true := by
  cases h with
  | waiting hwork => rw [hwork]; rfl
  | attempting hwork _ _ => rw [hwork]; rfl

theorem not_mem_discard (w : World) (hloop : task.work.isLoop = true) :
    task.id ∉ (w.discard task).tasks.map Task.id := by
  have hstop : task.work.isStopping = false := by
    cases hwork : task.work with
    | stopping role next =>
      rw [hwork] at hloop
      cases hloop
    | _ => rfl
  unfold World.discard
  dsimp only
  rw [if_neg (Bool.eq_false_iff.1 hstop), tasks_abandon]
  exact not_mem_remove w task.id

theorem Stands.runnerCall? (h : Stands worker t point) : t.runnerCall? = none := by
  unfold Task.runnerCall?
  cases h with
  | waiting hwork => rw [hwork]; exact ite_self _
  | attempting hwork _ _ => rw [hwork]; exact ite_self _

/-- Where a task stands does not depend on what has come of its handler. -/
theorem Stands.of_bare {t' : Task} (h : Stands worker t point) (hlimit : t'.limit = t.limit)
    (hbare : t'.work.bare = t.work.bare) : Stands worker t' point := by
  cases h with
  | @waiting ticker hwork =>
    rw [hwork] at hbare
    cases hwork' : t'.work with
    | polling worker' ticker' =>
      rw [hwork'] at hbare
      exact .waiting (hwork'.trans hbare)
    | _ =>
      rw [hwork'] at hbare
      cases hbare
  | @attempting trial ticker _ hwork hworker hpoint =>
    rw [hwork] at hbare
    cases hwork' : t'.work with
    | attempting trial' sequel =>
      rw [hwork'] at hbare
      obtain ⟨htrial, rfl⟩ := Work.attempting.inj hbare
      obtain ⟨hsame, -, hattempt, -⟩ := Trial.mk.inj htrial
      refine .attempting hwork' (hsame.trans hworker) ?_
      rw [hpoint, hattempt, hlimit]
    | _ =>
      rw [hwork'] at hbare
      cases hbare

end JobQueue.WorkerLoop

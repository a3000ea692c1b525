import JobQueue.Proofs.Runner.Requests

/-! # The life of a runner

The tasks of a system ask its runner for this and that, at any time. The runner is what its calls make
of it, whatever else occurs; its loops begin with the start that counts, all of them then and none at
any other time, and they are told to end by the first stop after it.

* `World.runnerCalls`: what was asked of the runner.
* `World.runner_through`: **the runner is what its calls make of it.**
* `World.loopsBegun`, `Runner.crew`: the loops that began; all loops of a runner.
* `World.loopsBegun_eq`: **the loops that began are all of them, or none.**
* `runner_lifecycle`: the life of a runner. -/

namespace JobQueue

namespace Runner

/-! ### Stops that count -/

/-- **The runner was stopped after its start.** -/
def Stopped (calls : List Call) : Prop :=
  ∃ later before, calls = later ++ .stop :: before ∧ Serving before

theorem not_stopped_nil : ¬ Stopped [] := by
  rintro ⟨later, before, heq, -⟩
  cases later <;> cases heq

theorem stopped_cons {call : Call} {calls : List Call} :
    Stopped (call :: calls) ↔ (call = .stop ∧ Serving calls) ∨ Stopped calls := by
  constructor
  · rintro ⟨later, before, heq, hserving⟩
    cases later with
    | nil =>
      obtain ⟨rfl, rfl⟩ := List.cons.inj heq
      exact .inl ⟨rfl, hserving⟩
    | cons first later =>
      obtain ⟨rfl, rfl⟩ := List.cons.inj heq
      exact .inr ⟨later, before, rfl, hserving⟩
  · rintro (⟨rfl, hserving⟩ | ⟨later, before, rfl, hserving⟩)
    · exact ⟨[], calls, rfl, hserving⟩
    · exact ⟨call :: later, before, rfl, hserving⟩

/-! ### The crew -/

/-- The worker of a place, whose handlers have this time. -/
def worker (runner : Runner) (limit : Duration) (slot : Slot) : Worker :=
  ⟨slot.queue, runner.workerId slot, ⟨runner.config.baseRetryDelay⟩, limit,
    runner.config.storeTimeout⟩

/-- **All loops of a runner**: the worker of each place, and one for cleanup. -/
def crew (runner : Runner) (limit : Duration) : List Loop :=
  runner.loops.map (fun slot => .worker (runner.worker limit slot)) ++ [.cleanup]

/-- All loops of a runner, if its handlers have any time or it has no workers. -/
def IsCrew (runner : Runner) (loops : List Loop) : Prop :=
  ∃ limit, (runner.loops = [] ∨ runner.config.handlerTimeout? = some limit) ∧
    loops = runner.crew limit

theorem IsCrew.eq_crew {runner : Runner} {loops : List Loop} (h : runner.IsCrew loops)
    {limit : Duration} (hlimit : runner.config.handlerTimeout? = some limit) :
    loops = runner.crew limit := by
  obtain ⟨limit', hnone | hsome, rfl⟩ := h
  · unfold crew
    rw [hnone]
    rfl
  · rw [hlimit] at hsome
    rw [Option.some.inj hsome]

end Runner

namespace World

variable {w w₁ : World} {task : Task}

/-! ### The calls of the runner -/

/-- What is asked of the runner. -/
def runnerCall? (w : World) : Occurrence → Option Runner.Call
  | .serve id => (w.task? id).bind Task.runnerCall?
  | _ => none

theorem requestIn (w : World) (occurrence : Occurrence) :
    (w.runnerCall? occurrence = none ∧ w.askedIn occurrence = w) ∨
      ∃ task ∈ w.tasks, occurrence = .serve task.id ∧
        w.Request task (w.runnerCall? occurrence) (w.askedIn occurrence) := by
  cases occurrence with
  | serve id =>
    have hcall : w.runnerCall? (.serve id) = (w.task? id).bind Task.runnerCall? := rfl
    rw [hcall]
    cases hfind : w.task? id with
    | none => exact .inl ⟨rfl, askedIn_serve_none hfind⟩
    | some task =>
      obtain ⟨hmem, rfl⟩ := mem_of_task? hfind
      rw [askedIn_serve hfind]
      exact .inr ⟨task, hmem, rfl, w.request task⟩
  | _ => exact .inl ⟨rfl, rfl⟩

/-- **What was asked of the runner**, the latest first. -/
def runnerCalls (w : World) : List Occurrence → List Runner.Call
  | [] => []
  | occurrence :: earlier =>
    ((w.through earlier).runnerCall? occurrence).toList ++ w.runnerCalls earlier

/-- **The runner does what is asked of it**, and its loops are told to end when it was active. -/
structure Obeys (w w₁ : World) (call? : Option Runner.Call) : Prop where
  runner : w₁.runner = w.runner.map fun runner =>
    call?.elim runner fun call => (runner.perform call).2
  signal : w₁.team.shutdown =
    if call? = some .stop ∧ w.active = true then w.team.shutdown.signal else w.team.shutdown
  config : w₁.config = w.config

theorem Obeys.none (w : World) : w.Obeys w none :=
  ⟨Option.map_id'.symm, by simp, rfl⟩

theorem Request.obeys {call? : Option Runner.Call} (h : w.Request task call? w₁) :
    w.Obeys w₁ call? := by
  cases h with
  | nothing _ => exact .none w
  | addQueue queue _ _ => exact ⟨rfl, by simp [World.addQueue], rfl⟩
  | start _ _ =>
    obtain ⟨hrunner, hteam, hconfig⟩ := runner_start w
    refine ⟨?_, by rw [hteam]; simp, hconfig⟩
    rw [hrunner]
    exact congrArg (w.runner.map ·) (funext fun runner => (runner.perform_start .current).symm)
  | idle _ _ hinactive =>
    refine ⟨?_, by simp [hinactive], rfl⟩
    cases hrunner : w.runner with
    | none => rfl
    | some runner =>
      show some runner = some (runner.perform .stop).2
      rw [Runner.perform_stop, Runner.stop_of_inactive ((active_eq hrunner).symm.trans hinactive)]
  | @stop role timeout next runner _ _ hrunner hactive =>
    obtain ⟨-, -, hconfig, hstopped, hsignal⟩ := handOver_eq w
      { task with work := .stopping role next, limit := some (w.after timeout) } runner.stop.2
    refine ⟨?_, ?_, hconfig⟩
    · rw [hstopped, hrunner]
      exact congrArg some runner.perform_stop.symm
    · rw [hsignal, if_pos ⟨rfl, (active_eq hrunner).trans hactive⟩]

theorem obeys_occur (hsound : w.Sound) (occurrence : Occurrence) :
    w.Obeys (w.occur occurrence) (w.runnerCall? occurrence) := by
  have hobeys : w.Obeys (w.askedIn occurrence) (w.runnerCall? occurrence) := by
    rcases w.requestIn occurrence with ⟨hcall, hsame⟩ | ⟨task, -, -, hrequest⟩
    · rw [hcall, hsame]
      exact .none w
    · exact hrequest.obeys
  obtain ⟨acting, -, hevolves⟩ := exists_evolves_occur hsound occurrence
  exact ⟨hevolves.runner.trans hobeys.runner, hevolves.signal.trans hobeys.signal,
    hevolves.config.trans hobeys.config⟩

/-- **The runner is what its calls make of it.** -/
theorem runner_through (hsound : w.Sound) {runner : Runner} (hrunner : w.runner = some runner) :
    ∀ occurrences : List Occurrence,
      (w.through occurrences).runner = some (runner.after (w.runnerCalls occurrences)) ∧
        (w.through occurrences).config = w.config
  | [] => ⟨hrunner, rfl⟩
  | occurrence :: earlier => by
    obtain ⟨hbefore, hconfig⟩ := runner_through hsound hrunner earlier
    have hobeys := obeys_occur (hsound.through earlier) occurrence
    refine ⟨hobeys.runner.trans ?_, hobeys.config.trans hconfig⟩
    rw [hbefore]
    show some _ = some (runner.after (Option.toList _ ++ _))
    cases (w.through earlier).runnerCall? occurrence <;> rfl

/-! ### The loops that begin -/

/-- The loops whose tasks have this number or a later one. -/
def loopsFrom (first : TaskId) (w : World) : List Loop :=
  (w.tasks.filter fun t => first ≤ t.id).filterMap fun t => t.work.loop?

/-- **The loops that began**, the latest first. -/
def loopsBegun (w : World) : List Occurrence → List Loop
  | [] => []
  | occurrence :: earlier =>
    loopsFrom (w.through earlier).nextTask (w.through (occurrence :: earlier)) ++
      w.loopsBegun earlier

theorem loopsFrom_nextTask (h : w.Numbered) : loopsFrom w.nextTask w = [] := by
  have hnone : (w.tasks.filter fun t => w.nextTask ≤ t.id) = [] :=
    List.filter_eq_nil_iff.2 fun t ht => by
      simpa using h.fresh t.id (List.mem_map_of_mem ht)
  unfold loopsFrom
  rw [hnone]
  rfl

theorem loopsFrom_evolves {acting : TaskId} (hnumbered : w.Numbered) (h : Evolves acting w w₁) :
    loopsFrom w.nextTask w₁ = [] := by
  refine List.filterMap_eq_nil_iff.2 fun t ht => ?_
  obtain ⟨hmem, hnew⟩ := List.mem_filter.1 ht
  rcases h.origin t hmem with ⟨before, hbefore, hfollows⟩ | hnewcomer
  · have hlt := hnumbered.fresh before.id (List.mem_map_of_mem hbefore)
    rw [← hfollows.id] at hlt
    exact absurd (of_decide_eq_true hnew) (not_le.2 hlt)
  · exact hnewcomer.loop

theorem loopsFrom_go (h : w.Numbered) (htask : task ∈ w.tasks) {work : Work}
    (hloop : work.loop? = task.work.loop?) (first : TaskId) :
    loopsFrom first (w.go task work) = loopsFrom first w := by
  let set (t : Task) : Task :=
    if t.id = task.id then { task with work := work, limit := none, alarm := none } else t
  have hset : ∀ t ∈ w.tasks, (set t).id = t.id ∧ (set t).work.loop? = t.work.loop? := by
    intro t ht
    dsimp only [set]
    split
    · next hid =>
      rw [h.eq_of_id htask ht hid]
      exact ⟨rfl, hloop⟩
    · exact ⟨rfl, rfl⟩
  show ((w.tasks.map set).filter _).filterMap _ = (w.tasks.filter _).filterMap _
  rw [List.filter_map, List.filterMap_map]
  have hfilter : w.tasks.filter ((fun t => decide (first ≤ t.id)) ∘ set) =
      w.tasks.filter fun t => decide (first ≤ t.id) := List.filter_congr fun t ht => by
    show decide (first ≤ (set t).id) = _
    rw [(hset t ht).1]
  rw [hfilter]
  exact List.filterMap_congr fun t ht => (hset t (List.mem_of_mem_filter ht)).2

theorem loopsFrom_zipIdx {first : TaskId} : ∀ (works : List Work) (next : TaskId), first ≤ next →
    (((works.zipIdx next).map fun (work, id) => Task.create id .runner work).filter
      fun t => first ≤ t.id).filterMap (fun t => t.work.loop?) = works.filterMap Work.loop?
  | [], _, _ => rfl
  | work :: works, next, hnext => by
    rw [List.zipIdx_cons, List.map_cons, List.filter_cons_of_pos (by exact decide_eq_true hnext),
      List.filterMap_cons, List.filterMap_cons,
      loopsFrom_zipIdx works (next + 1) (hnext.trans (Nat.le_succ next))]
    rfl

theorem loopsFrom_spawnAll (h : w.Numbered) (works : List Work) :
    loopsFrom w.nextTask (w.spawnAll works) = works.filterMap Work.loop? := by
  have hold := loopsFrom_nextTask h
  unfold loopsFrom at hold ⊢
  rw [tasks_spawnAll, List.filter_append, List.filterMap_append, hold, List.nil_append]
  exact loopsFrom_zipIdx works w.nextTask le_rfl

/-- **A start that succeeds begins all loops.** -/
theorem isCrew_start (h : w.Numbered) {runner : Runner} (hrunner : w.runner = some runner)
    (hconfig : w.config = runner.config)
    (hlimit : runner.loops = [] ∨ runner.config.handlerTimeout? ≠ none)
    (hstart : runner.start .current =
      (.ok runner.loops, { runner with started := true, active := true })) :
    runner.IsCrew (loopsFrom w.nextTask w.start.2) := by
  let begun := { runner with started := true, active := true }
  have hloops : loopsFrom w.nextTask w.start.2 =
      (beginnings w.config w.nanos begun runner.loops).filterMap Work.loop? := by
    have hnumbered : Numbered { w with runner := some begun } := ⟨h.nodup, h.fresh⟩
    rw [start_eq hrunner, hstart]
    dsimp only
    rw [spawnLoops_eq]
    exact loopsFrom_spawnAll hnumbered _
  rw [hloops]
  unfold beginnings
  rw [List.filterMap_append, List.filterMap_filterMap]
  by_cases hnone : runner.loops = []
  · refine ⟨.longest, .inl hnone, ?_⟩
    unfold Runner.crew
    rw [hnone]
    rfl
  · obtain ⟨limit, hsome⟩ := Option.ne_none_iff_exists'.1 (hlimit.resolve_left hnone)
    refine ⟨limit, .inr hsome, ?_⟩
    unfold Runner.crew
    congr 1
    rw [← List.filterMap_eq_map]
    refine List.filterMap_congr fun slot _ => ?_
    have hcreate : Worker.create slot.queue (begun.workerId slot) w.config =
        .ok (runner.worker limit slot) := by
      unfold Worker.create RunnerConfig.handlerTimeout
      rw [hconfig, hsome]
      rfl
    rw [hcreate]
    rfl

/-- A start that begins its loops. -/
def StartsNow (w : World) (occurrence : Occurrence) (runner : Runner) : Prop :=
  w.runnerCall? occurrence = some (.start .current) ∧ runner.started = false ∧
    (runner.loops = [] ∨ runner.config.handlerTimeout? ≠ none)

theorem Request.nextTask {call? : Option Runner.Call} (h : w.Request task call? w₁)
    {runner : Runner} (hrunner : w.runner = some runner)
    (hnow : ¬ (call? = some (.start .current) ∧ runner.started = false ∧
      (runner.loops = [] ∨ runner.config.handlerTimeout? ≠ none))) : w₁.nextTask = w.nextTask := by
  cases h with
  | start _ _ =>
    rw [start_eq hrunner]
    rcases runner.start_cases with ⟨-, hstart⟩ | ⟨hnew, hlimit, -⟩ | ⟨-, -, -, hstart⟩
    · rw [hstart]
    · exact absurd ⟨rfl, hnew, hlimit⟩ hnow
    · rw [hstart]
  | stop _ _ _ _ => exact (handOver_eq w _ _).2.1
  | _ => rfl

theorem loopsFrom_occur (hsound : w.Sound) {runner : Runner} (hrunner : w.runner = some runner)
    (hconfig : w.config = runner.config) (occurrence : Occurrence) :
    (w.StartsNow occurrence runner →
      runner.IsCrew (loopsFrom w.nextTask (w.occur occurrence))) ∧
    (¬ w.StartsNow occurrence runner → loopsFrom w.nextTask (w.occur occurrence) = []) := by
  constructor
  · rintro ⟨hcall, hnew, hlimit⟩
    cases occurrence with
    | serve id =>
      obtain ⟨task, hfind, htask⟩ := Option.bind_eq_some_iff.1 hcall
      obtain ⟨hmem, rfl⟩ := mem_of_task? hfind
      obtain ⟨hcancelled, hwork⟩ := Task.runnerCall?_eq_some_iff.1 htask
      rcases Work.calls_of_runnerCall? hwork with ⟨_, _, _, _, hother⟩ |
        ⟨role, next, hprogram, -⟩ | ⟨_, _, _, _, hother⟩
      · cases hother
      · rcases runner.start_cases with ⟨hold, -⟩ | ⟨-, -, hstart⟩ | ⟨-, hloops, hnone, -⟩
        · rw [hnew] at hold
          cases hold
        · obtain ⟨others, htasks⟩ := tasks_start w
          have hanswer : w.start.1 = .nothing := by
            rw [start_eq hrunner, hstart]
          rw [occur_serve hfind, stepTask_start hcancelled hprogram, hanswer]
          show runner.IsCrew (loopsFrom w.nextTask (w.start.2.go task _))
          rw [loopsFrom_go hsound.start.numbered (htasks ▸ List.mem_append_left others hmem)
            (by rw [hprogram]; rfl)]
          exact isCrew_start hsound.numbered hrunner hconfig hlimit hstart
        · exact absurd hnone (hlimit.resolve_left hloops)
      · cases hother
    | _ => cases hcall
  · intro hnow
    have hnext : (w.askedIn occurrence).nextTask = w.nextTask := by
      rcases w.requestIn occurrence with ⟨-, hsame⟩ | ⟨task, -, -, hrequest⟩
      · rw [hsame]
      · exact hrequest.nextTask hrunner hnow
    obtain ⟨acting, hasked, hevolves⟩ := exists_evolves_occur hsound occurrence
    rw [← hnext]
    exact loopsFrom_evolves hasked.numbered hevolves

theorem crew_congr {runner runner' : Runner} (hid : runner'.id = runner.id)
    (hconfig : runner'.config = runner.config) (hqueues : runner'.queues = runner.queues) :
    runner'.IsCrew = runner.IsCrew ∧ runner'.loops = runner.loops := by
  cases runner
  cases runner'
  cases hid
  cases hconfig
  cases hqueues
  exact ⟨rfl, rfl⟩

/-- **The loops that began are all of them, or none**: none before the start, and none when handlers
have no time. -/
theorem loopsBegun_eq (hsound : w.Sound) {id : WorkerId}
    (hrunner : w.runner = some (Runner.fresh id w.config)) : ∀ occurrences : List Occurrence,
    let calls := w.runnerCalls occurrences
    let runner := (Runner.fresh id w.config).after calls
    (.start .current ∉ calls → w.loopsBegun occurrences = []) ∧
      (.start .current ∈ calls → runner.IsCrew (w.loopsBegun occurrences) ∨
        runner.loops ≠ [] ∧ w.config.handlerTimeout? = none ∧ w.loopsBegun occurrences = [])
  | [] => ⟨fun _ => rfl, nofun⟩
  | occurrence :: earlier => by
    let before := (Runner.fresh id w.config).after (w.runnerCalls earlier)
    obtain ⟨hnever, hever⟩ := loopsBegun_eq hsound hrunner earlier
    obtain ⟨hbefore, hconfig⟩ := runner_through hsound hrunner earlier
    have hearlier := Runner.recorded_after id w.config (w.runnerCalls earlier)
    have hlater := Runner.recorded_after id w.config (w.runnerCalls (occurrence :: earlier))
    obtain ⟨hbegins, hstays⟩ := loopsFrom_occur (hsound.through earlier) hbefore
      (hconfig.trans hearlier.sameConfig.symm) occurrence
    intro calls runner
    have hcalls : calls = ((w.through earlier).runnerCall? occurrence).toList ++
        w.runnerCalls earlier := rfl
    have hbegun : w.loopsBegun (occurrence :: earlier) =
        loopsFrom (w.through earlier).nextTask ((w.through earlier).occur occurrence) ++
          w.loopsBegun earlier := rfl
    by_cases hstarted : .start .current ∈ w.runnerCalls earlier
    · -- After the start no loop begins, and the runner has the same queues.
      have hmem : .start .current ∈ calls := hcalls ▸ List.mem_append_right _ hstarted
      have hqueues : Runner.declared calls = Runner.declared (w.runnerCalls earlier) := by
        rw [hcalls]
        cases (w.through earlier).runnerCall? occurrence with
        | none => rfl
        | some call => exact Runner.declared_of_started call hstarted
      obtain ⟨hsame, hloops⟩ := crew_congr (hlater.sameId.trans hearlier.sameId.symm)
        (hlater.sameConfig.trans hearlier.sameConfig.symm)
        (hlater.queues.trans (hqueues.trans hearlier.queues.symm))
      have hnone := hstays fun hnow => by
        have hfalse := hnow.2.1
        rw [hearlier.started.2 hstarted] at hfalse
        cases hfalse
      refine ⟨fun hnot => absurd hmem hnot, fun _ => ?_⟩
      rw [hbegun, hnone, List.nil_append]
      show runner.IsCrew _ ∨ runner.loops ≠ [] ∧ _
      rw [hsame, hloops]
      exact hever hstarted
    · rw [hbegun, hnever hstarted, List.append_nil]
      by_cases hcall : (w.through earlier).runnerCall? occurrence = some (.start .current)
      · have hstart : calls = .start .current :: w.runnerCalls earlier := by
          rw [hcalls, hcall]
          rfl
        obtain ⟨hsame, hloops⟩ := crew_congr (hlater.sameId.trans hearlier.sameId.symm)
          (hlater.sameConfig.trans hearlier.sameConfig.symm) (hlater.queues.trans
            ((congrArg Runner.declared hstart).trans
              ((Runner.declared_of_no_queue rfl).trans hearlier.queues.symm)))
        have hnew := Bool.eq_false_iff.2 (mt hearlier.started.1 hstarted)
        refine ⟨fun hnot => absurd (hstart ▸ List.mem_cons_self) hnot, fun _ => ?_⟩
        show runner.IsCrew _ ∨ runner.loops ≠ [] ∧ _
        rw [hsame, hloops]
        by_cases hnow : (w.through earlier).StartsNow occurrence before
        · exact .inl (hbegins hnow)
        · obtain ⟨hplaces, hnone⟩ := not_or.1 fun hlimit => hnow ⟨hcall, hnew, hlimit⟩
          rw [not_not, hearlier.sameConfig] at hnone
          exact .inr ⟨hplaces, hnone, hstays hnow⟩
      · have hnot : .start .current ∉ calls := by
          rw [hcalls, List.mem_append, Option.mem_toList]
          exact not_or.2 ⟨hcall, hstarted⟩
        exact ⟨fun _ => hstays fun hnow => hcall hnow.1, fun hmem => absurd hmem hnot⟩

/-! ### The loops are told to end -/

/-- **The loops were told to end when the runner was stopped after its start.** -/
theorem shutdown_through (hsound : w.Sound) {id : WorkerId}
    (hrunner : w.runner = some (Runner.fresh id w.config)) (hfresh : w.team.shutdown = .fresh)
    (hdefined : w.config.handlerTimeout? ≠ none) : ∀ occurrences : List Occurrence,
    (w.through occurrences).team.shutdown.senderAlive = true ∧
      ((w.through occurrences).team.shutdown.signalled = true ↔
        Runner.Stopped (w.runnerCalls occurrences))
  | [] => by
    rw [show w.through [] = w from rfl, hfresh]
    exact ⟨rfl, iff_of_false Bool.false_ne_true Runner.not_stopped_nil⟩
  | occurrence :: earlier => by
    obtain ⟨halive, hsignalled⟩ := shutdown_through hsound hrunner hfresh hdefined earlier
    have hrecorded := Runner.recorded_after id w.config (w.runnerCalls earlier)
    have hobeys := obeys_occur (hsound.through earlier) occurrence
    have hactive : (w.through earlier).active = true ↔ Runner.Serving (w.runnerCalls earlier) := by
      rw [active_eq (runner_through hsound hrunner earlier).1]
      exact ⟨hrecorded.active, hrecorded.serving hdefined⟩
    show ((w.through earlier).occur occurrence).team.shutdown.senderAlive = true ∧
      (((w.through earlier).occur occurrence).team.shutdown.signalled = true ↔
        Runner.Stopped (Option.toList _ ++ _))
    rw [hobeys.signal]
    cases (w.through earlier).runnerCall? occurrence with
    | none =>
      rw [if_neg (by simp)]
      exact ⟨halive, hsignalled⟩
    | some call =>
      show _ ∧ (_ ↔ Runner.Stopped (call :: w.runnerCalls earlier))
      rw [Runner.stopped_cons, ← hactive, ← hsignalled]
      split
      · next hstop =>
        refine ⟨halive, iff_of_true ?_ (.inl (hstop.imp_left Option.some.inj))⟩
        show (_ || _) = true
        rw [halive, Bool.or_true]
      · next hstop =>
        exact ⟨halive, (or_iff_right fun hnow => hstop (hnow.imp_left (congrArg some))).symm⟩

end World

/-- **The life of a runner** whose handlers have a time. Whatever is asked of it, in whichever order:
its queues are those that were declared before the first start in a host that can run loops, in
order, each once, and stay after it; that start begins the loops, every later one is refused, and so
is every start in another host; the first stop after it tells the loops to end, and no other stop
does anything. There is a loop for each queue and number, and no two have one worker id.

In a system where any tasks ask this of it, while anything else occurs, the loops that ever begin are
these and one for cleanup, each once; and a call that is refused, or a stop with nothing to do, leaves
everything but the task that made it alone. -/
theorem runner_lifecycle (id : WorkerId) (config : RunnerConfig) (limit : Duration)
    (hlimit : config.handlerTimeout? = some limit) :
    (∀ calls : List Runner.Call,
      let runner := (Runner.fresh id config).after calls
      (runner.queues = Runner.declared calls ∧ runner.queues.Nodup) ∧
      (.start .current ∉ calls → runner.perform (.start .current) =
        (.begun runner.loops, { runner with started := true, active := true })) ∧
      (.start .current ∈ calls →
        runner.perform (.start .current) = (.refused .alreadyStarted, runner) ∧
          ∀ call, (runner.perform call).2.queues = runner.queues) ∧
      (∀ reason, runner.perform (.start (.missing reason)) =
        (.refused (.internal ("start requires a Tokio runtime: " ++ reason)), runner)) ∧
      (Runner.Serving calls → runner.perform .stop = (.signalled, { runner with active := false })) ∧
      (¬ Runner.Serving calls → runner.perform .stop = (.returned, runner)) ∧
      (runner.loops.Nodup ∧ runner.loops.length = runner.queues.length * config.workerCount ∧
        ∀ slot, slot ∈ runner.loops ↔
          slot.queue ∈ runner.queues ∧ slot.number < config.workerCount) ∧
      Function.Injective runner.workerId) ∧
    ∀ (store : Backend) (clock : Clock) (host : Program) (occurrences : List Occurrence),
      let start := World.create store clock config (some (Runner.fresh id config)) host
      let calls := start.runnerCalls occurrences
      let runner := (Runner.fresh id config).after calls
      let w := start.through occurrences
      w.runner = some runner ∧
      (.start .current ∉ calls → start.loopsBegun occurrences = []) ∧
      (.start .current ∈ calls → start.loopsBegun occurrences =
        runner.loops.map (fun slot => .worker (runner.worker limit slot)) ++ [.cleanup]) ∧
      (w.team.shutdown.signalled = true ↔ Runner.Stopped calls) ∧
      ∀ task ∈ w.tasks, task.cancelled = false → ∀ role next,
        (task.work = .running role (.perform .start next) → .start .current ∈ calls →
          w.stepTask task = w.go task (.running role (next (.refused .alreadyStarted)))) ∧
        ∀ timeout, task.work = .running role (.stop timeout next) → ¬ Runner.Serving calls →
          w.stepTask task = w.go task (.running role (next .nothing)) := by
  have hdefined : config.handlerTimeout? ≠ none := by
    rw [hlimit]
    exact Option.some_ne_none limit
  refine ⟨?_, fun store clock host occurrences => ?_⟩
  · intro calls runner
    have hrecorded : Runner.Recorded id config calls runner := Runner.recorded_after id config calls
    have hnodup : runner.queues.Nodup := hrecorded.queues ▸ Runner.nodup_declared calls
    rw [← hrecorded.sameConfig]
    exact ⟨⟨hrecorded.queues, hnodup⟩, hrecorded.first_start hdefined,
      fun hstarted => ⟨hrecorded.later_start hstarted,
        Runner.queues_of_started id config hstarted⟩,
      runner.perform_start_missing, hrecorded.stop_serving hdefined, hrecorded.stop_idle,
      ⟨Runner.nodup_loops hnodup, Runner.length_loops, fun _ => Runner.mem_loops⟩,
      runner.workerId_injective⟩
  · intro start calls runner w
    have hsound : start.Sound := World.sound_create store clock config id host
    have hrecorded : Runner.Recorded id config calls runner := Runner.recorded_after id config calls
    obtain ⟨hrunner, hconfig⟩ := World.runner_through hsound rfl occurrences
    obtain ⟨hnever, hever⟩ := World.loopsBegun_eq hsound rfl occurrences
    refine ⟨hrunner, hnever, fun hstarted => ?_,
      (World.shutdown_through hsound rfl rfl hdefined occurrences).2, ?_⟩
    · rcases hever hstarted with hcrew | ⟨-, hnone, -⟩
      · exact hcrew.eq_crew ((congrArg RunnerConfig.handlerTimeout? hrecorded.sameConfig).trans hlimit)
      · exact absurd hnone hdefined
    · intro task htask hcancelled role next
      refine ⟨fun hwork hstarted => ?_, fun timeout hwork hidle => ?_⟩
      · rw [World.stepTask_start hcancelled hwork,
          World.start_of_started hrunner (hrecorded.started.2 hstarted)]
        rfl
      · have hinactive : w.active = false := by
          rw [World.active_eq hrunner]
          exact Bool.eq_false_iff.2 (mt hrecorded.active hidle)
        rw [World.stepTask_running hcancelled hwork]
        exact World.stop_of_inactive hinactive timeout

/-- A host that declares two queues, starts the runner, stops it without waiting and starts it once
more. -/
def Program.restart : Program :=
  .perform (.addQueue "a") fun _ => .perform (.addQueue "a:1") fun _ => .perform .start fun _ =>
    .stop .zero fun _ => .perform .start fun _ => .stuck

/-- The five loops begin once, and those of number one of the first queue and of the second have
different ids, though one queue is called as the other's worker. -/
theorem runner_lifecycle_of_restart :
    let config := RunnerConfig.standard
    let start := World.create (.memory .empty) (.manual 0) config (some (Runner.fresh "r" config))
      .restart
    let occurrences := List.replicate 5 (Occurrence.serve World.hostTask)
    let runner := (Runner.fresh "r" config).after (start.runnerCalls occurrences)
    config.handlerTimeout? = some (.ofSecs 240) ∧
      start.runnerCalls occurrences =
        [.start .current, .stop, .start .current, .addQueue "a:1", .addQueue "a"] ∧
      runner.queues = ["a", "a:1"] ∧
      runner.perform (.start .current) = (.refused .alreadyStarted, runner) ∧
      Function.Injective runner.workerId ∧
      (start.loopsBegun occurrences).length = 5 ∧
      (start.through occurrences).team.shutdown.signalled = true := by
  intro config start occurrences runner
  have hlimit : config.handlerTimeout? = some (.ofSecs 240) := by decide +kernel
  have hcalls : start.runnerCalls occurrences =
      [.start .current, .stop, .start .current, .addQueue "a:1", .addQueue "a"] := by
    decide +kernel
  obtain ⟨hrunner, hsystem⟩ := runner_lifecycle "r" config (.ofSecs 240) hlimit
  obtain ⟨⟨hqueues, -⟩, -, hagain, -, -, -, -, hids⟩ := hrunner (start.runnerCalls occurrences)
  have hsystem := hsystem (.memory .empty) (.manual 0) .restart occurrences
  rw [show World.create _ _ config _ _ = start from rfl] at hsystem
  obtain ⟨-, -, hbegun, hsignal, -⟩ := hsystem
  have hstarted : .start .current ∈ start.runnerCalls occurrences := hcalls ▸ List.mem_cons_self
  have hdeclared : Runner.declared (start.runnerCalls occurrences) = ["a", "a:1"] := by
    rw [hcalls]
    decide
  refine ⟨hlimit, hcalls, hqueues.trans hdeclared, (hagain hstarted).1, hids, ?_, hsignal.2 ?_⟩
  · rw [hbegun hstarted, List.length_append, List.length_map, Runner.length_loops, hqueues]
    decide +kernel
  · exact ⟨[.start .current], _, hcalls, [], _, rfl, by decide, by decide⟩

end JobQueue

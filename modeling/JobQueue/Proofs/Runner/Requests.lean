import JobQueue.Proofs.Runner.Soundness

/-! # Moves that call the runner

A task that calls the runner first has it do what is asked, then goes on. A start that succeeds begins
the loops; a stop of a runner that is active tells them to end and puts the task in charge of them.

* `World.asked`: the system when the runner has done what a task asked for.
* `World.Request`, `World.request`: what a task may ask for.
* `World.Request.evolves`: **every move of a task is this, and then one that leaves the runner alone.**
* `World.evolves_occur`: so is all that occurs.
* `World.Sound.through`: **the invariant holds after all that occurs.** -/

namespace JobQueue.World

variable {w w₁ : World} {acting : TaskId} {task t : Task}

/-! ### Requests -/

/-- **The system when the runner has done what the task asked for.** A task that stops an active
runner waits for its loops. -/
def asked (w : World) (task : Task) : World :=
  if task.cancelled then w
  else match task.work, w.runner with
    | .running _ (.perform (.addQueue queue) _), _ => (w.addQueue queue).2
    | .running _ (.perform .start _), _ => w.start.2
    | .running role (.stop timeout next), some runner =>
      if runner.active then
        w.handOver { task with work := .stopping role next, limit := some (w.after timeout) }
          runner.stop.2
      else w
    | _, _ => w

section Asked

variable {role : Role} {next : Answer → Program}

theorem asked_of_none (h : task.runnerCall? = none) : w.asked task = w := by
  unfold Task.runnerCall? Work.runnerCall? at h
  unfold asked
  split
  · rfl
  · next hcancelled =>
    rw [if_neg hcancelled] at h
    split
    · next hwork => rw [hwork] at h; cases h
    · next hwork => rw [hwork] at h; cases h
    · next hwork _ => rw [hwork] at h; cases h
    · rfl

theorem asked_addQueue {queue : QueueName} (hcancelled : task.cancelled = false)
    (hwork : task.work = .running role (.perform (.addQueue queue) next)) :
    w.asked task = (w.addQueue queue).2 := by
  unfold asked
  rw [hcancelled, hwork]
  rfl

theorem asked_start (hcancelled : task.cancelled = false)
    (hwork : task.work = .running role (.perform .start next)) : w.asked task = w.start.2 := by
  unfold asked
  rw [hcancelled, hwork]
  rfl

theorem start_eq {runner : Runner} (hrunner : w.runner = some runner) :
    w.start = match runner.start .current with
      | (.error e, runner) => (.refused e, { w with runner := some runner })
      | (.ok slots, runner) =>
        (.nothing, ({ w with runner := some runner } : World).spawnLoops runner slots) := by
  unfold World.start
  rw [hrunner]
  dsimp only
  rcases runner.start .current with ⟨_ | _, _⟩ <;> rfl

theorem start_of_started {runner : Runner} (hrunner : w.runner = some runner)
    (hstarted : runner.started = true) : w.start = (.refused .alreadyStarted, w) := by
  have hsame : ({ w with runner := some runner } : World) = w := by rw [← hrunner]
  rw [start_eq hrunner, Runner.start_of_started hstarted]
  exact congrArg (Prod.mk _) hsame

theorem Sound.start (hsound : w.Sound) : w.start.2.Sound := by
  cases hrunner : w.runner with
  | none =>
    unfold World.start
    rw [hrunner]
    exact hsound
  | some runner =>
    have hactive : w.active = runner.active := active_eq hrunner
    have hstarted : w.started = runner.started := started_eq hrunner
    rw [start_eq hrunner]
    rcases runner.start_cases with ⟨-, hstart⟩ | ⟨hnew, -, hstart⟩ | ⟨-, -, -, hstart⟩
    · rw [hstart]
      exact hsound.setRunner hactive.trans fun h => hstarted.symm.trans h
    · rw [hstart]
      exact (hsound.begin (hstarted.trans hnew) rfl).spawnLoops rfl _ _
    · rw [hstart]
      exact hsound.setRunner hactive.trans fun _ => rfl

theorem runner_start (w : World) :
    w.start.2.runner = w.runner.map (fun runner => (runner.start .current).2) ∧
      w.start.2.team = w.team ∧ w.start.2.config = w.config := by
  cases hrunner : w.runner with
  | none =>
    unfold World.start
    rw [hrunner]
    exact ⟨hrunner, rfl, rfl⟩
  | some runner =>
    rw [start_eq hrunner, Option.map_some]
    generalize runner.start .current = made
    rcases made with ⟨_ | slots, begun⟩
    · exact ⟨rfl, rfl, rfl⟩
    · dsimp only
      rw [spawnLoops_eq]
      exact runner_spawnAll _ _

theorem tasks_start (w : World) : ∃ new, w.start.2.tasks = w.tasks ++ new := by
  cases hrunner : w.runner with
  | none =>
    refine ⟨[], ?_⟩
    unfold World.start
    rw [hrunner, List.append_nil]
  | some runner =>
    rw [start_eq hrunner]
    split
    · exact ⟨[], (List.append_nil _).symm⟩
    · rw [spawnLoops_eq]
      exact ⟨_, tasks_spawnAll _ _⟩

theorem evolves_after {program : Program} (hsound : w.Sound) (hmem : task ∈ w.tasks)
    (hwork : task.work = .running role program) (answer : Answer) :
    Evolves task.id w (match answer.breakdown? with
      | some cause => w.breakDown task cause
      | none => w.go task (.running role (next answer))) := by
  have hrefl : Evolves task.id w w := .refl hsound.numbered
  split
  · exact hrefl.breakDown rfl _
  · exact hrefl.go hmem rfl rfl rfl (becomes_running hwork _) rfl

theorem stepTask_start (hcancelled : task.cancelled = false)
    (hwork : task.work = .running role (.perform .start next)) :
    w.stepTask task = match w.start.1.breakdown? with
      | some cause => w.start.2.breakDown task cause
      | none => w.start.2.go task (.running role (next w.start.1)) := by
  rw [stepTask_running hcancelled hwork]
  rfl

theorem stop_of_active {runner : Runner} (hrunner : w.runner = some runner)
    (hactive : runner.active = true) (timeout : Duration) :
    w.stop task role timeout next =
      (({ w with runner := some runner.stop.2 } : World).signalShutdown .runner).stepStopping
        { task with work := .stopping role next, limit := some (w.after timeout) } role next := by
  unfold World.stop
  rw [hrunner]
  show (if runner.active = true then _ else _) = _
  rw [if_pos hactive]
  rfl

theorem frame_stop {runner : Runner} {program : Program} (hnumbered : w.Numbered)
    (htask : task ∈ w.tasks) (hwork : task.work = .running role program)
    (hrunner : w.runner = some runner) (hactive : runner.active = true) (timeout : Duration) :
    let waiting : Task :=
      { task with work := .stopping role next, limit := some (w.after timeout) }
    ((w.handOver waiting runner.stop.2).stepStopping waiting role next).Frame
      (w.stop task role timeout next) := by
  intro waiting
  have hsignal : ∀ t ∈ (({ w with runner := some runner.stop.2 } : World).signalShutdown
      .runner).tasks, t.id = waiting.id → t.work.isLoop = waiting.work.isLoop := by
    intro t ht hid
    rw [(like_signalShutdown .runner _ .runner).tasks] at ht
    rw [hnumbered.eq_of_id htask ht hid, hwork]
    rfl
  rw [stop_of_active hrunner hactive]
  exact frame_stepStopping_setTask _ hsignal

theorem stop_of_inactive (hactive : w.active = false) (timeout : Duration) :
    w.stop task role timeout next = w.go task (.running role (next .nothing)) := by
  unfold World.stop
  split
  · rfl
  · next runner hrunner =>
    have hinactive : runner.active = false := (active_eq hrunner).symm.trans hactive
    have hsame : ({ w with runner := some runner } : World) = w := by rw [← hrunner]
    rw [Runner.stop_of_inactive hinactive]
    dsimp only
    rw [hsame, if_neg Bool.false_ne_true]

theorem asked_stop_of_inactive {timeout : Duration}
    (hwork : task.work = .running role (.stop timeout next)) (hactive : w.active = false) :
    w.asked task = w := by
  unfold asked
  split
  · rfl
  · rw [hwork]
    cases hrunner : w.runner with
    | none => rfl
    | some runner =>
      have hinactive : runner.active = false := (active_eq hrunner).symm.trans hactive
      show (if runner.active = true then _ else w) = w
      rw [if_neg (by simp [hinactive])]

theorem asked_stop_of_active {timeout : Duration} {runner : Runner}
    (hcancelled : task.cancelled = false) (hwork : task.work = .running role (.stop timeout next))
    (hrunner : w.runner = some runner) (hactive : runner.active = true) :
    w.asked task =
      w.handOver { task with work := .stopping role next, limit := some (w.after timeout) }
        runner.stop.2 := by
  unfold asked
  rw [hcancelled, hwork, hrunner]
  show (if runner.active = true then _ else w) = _
  rw [if_pos hactive]

theorem Sound.addQueue (hsound : w.Sound) (queue : QueueName) : (w.addQueue queue).2.Sound := by
  refine hsound.setRunner (fun h => ?_) fun h => ?_
  · simp only [Option.any_map, Runner.active_addQueue] at h
    exact h
  · simp only [Option.any_map, Runner.started_addQueue]
    exact h

theorem evolves_stop (hsound : w.Sound) (htask : task ∈ w.tasks) {program : Program}
    (hwork : task.work = .running role program) {runner : Runner} (hrunner : w.runner = some runner)
    (hactive : runner.active = true) (timeout : Duration) :
    let waiting : Task :=
      { task with work := .stopping role next, limit := some (w.after timeout) }
    (w.handOver waiting runner.stop.2).Sound ∧
      Evolves task.id (w.handOver waiting runner.stop.2) (w.stop task role timeout next) := by
  intro waiting
  have hrunning : w.active = true := (active_eq hrunner).trans hactive
  have hstarted : runner.started = true :=
    (started_eq hrunner).symm.trans (hsound.started (.inl (inCharge_pos hrunning)))
  have hasked : (w.handOver waiting runner.stop.2).Sound :=
    hsound.handOver hrunning rfl rfl hstarted
  have hmem : waiting ∈ (w.handOver waiting runner.stop.2).tasks := by
    rw [(handOver_eq w waiting runner.stop.2).1]
    exact List.mem_map.2 ⟨task, htask, if_pos rfl⟩
  have hwaits : Evolves waiting.id (w.handOver waiting runner.stop.2)
      ((w.handOver waiting runner.stop.2).stepStopping waiting role next) :=
    evolves_stepStopping hasked hmem rfl
  exact ⟨hasked, hwaits.frame (frame_stop hsound.numbered htask hwork hrunner hactive timeout)⟩

/-- **What a task asks of the runner**, and the system when the runner has done it. -/
inductive Request (w : World) (task : Task) : Option Runner.Call → World → Prop
  | nothing (hcall : task.runnerCall? = none) : Request w task none w
  | addQueue {role : Role} (queue : QueueName) {next : Answer → Program}
      (hcancelled : task.cancelled = false)
      (hwork : task.work = .running role (.perform (.addQueue queue) next)) :
      Request w task (some (.addQueue queue)) (w.addQueue queue).2
  | start {role : Role} {next : Answer → Program} (hcancelled : task.cancelled = false)
      (hwork : task.work = .running role (.perform .start next)) :
      Request w task (some (.start .current)) w.start.2
  /-- There are no loops to end. -/
  | idle {role : Role} {timeout : Duration} {next : Answer → Program}
      (hcancelled : task.cancelled = false) (hwork : task.work = .running role (.stop timeout next))
      (hinactive : w.active = false) : Request w task (some .stop) w
  | stop {role : Role} {timeout : Duration} {next : Answer → Program} {runner : Runner}
      (hcancelled : task.cancelled = false) (hwork : task.work = .running role (.stop timeout next))
      (hrunner : w.runner = some runner) (hactive : runner.active = true) :
      Request w task (some .stop)
        (w.handOver { task with work := .stopping role next, limit := some (w.after timeout) }
          runner.stop.2)

theorem request (w : World) (task : Task) : w.Request task task.runnerCall? (w.asked task) := by
  cases hcall : task.runnerCall? with
  | none =>
    rw [asked_of_none hcall]
    exact .nothing hcall
  | some call =>
    obtain ⟨hcancelled, hwork⟩ := Task.runnerCall?_eq_some_iff.1 hcall
    rcases Work.calls_of_runnerCall? hwork with ⟨role, queue, next, hprogram, rfl⟩ |
      ⟨role, next, hprogram, rfl⟩ | ⟨role, timeout, next, hprogram, rfl⟩
    · rw [asked_addQueue hcancelled hprogram]
      exact .addQueue queue hcancelled hprogram
    · rw [asked_start hcancelled hprogram]
      exact .start hcancelled hprogram
    · cases hactive : w.active with
      | false =>
        rw [asked_stop_of_inactive hprogram hactive]
        exact .idle hcancelled hprogram hactive
      | true =>
        obtain ⟨runner, hrunner, hrunning⟩ := (Option.any_eq_true _ _).1 hactive
        rw [asked_stop_of_active hcancelled hprogram hrunner hrunning]
        exact .stop hcancelled hprogram hrunner hrunning

/-- **A move of a task**: the runner does what is asked of it, and the rest leaves it alone. -/
theorem Request.evolves {call? : Option Runner.Call} (h : w.Request task call? w₁)
    (hsound : w.Sound) (htask : task ∈ w.tasks) :
    w₁.Sound ∧ Evolves task.id w₁ (w.stepTask task) := by
  cases h with
  | nothing hcall => exact ⟨hsound, evolves_stepTask hsound htask hcall⟩
  | addQueue queue hcancelled hwork =>
    have hasked := hsound.addQueue queue
    rw [stepTask_running hcancelled hwork]
    exact ⟨hasked, evolves_after hasked htask hwork (w.addQueue queue).1⟩
  | start hcancelled hwork =>
    obtain ⟨new, hnew⟩ := tasks_start w
    have hmem : task ∈ w.start.2.tasks := hnew ▸ List.mem_append_left new htask
    rw [stepTask_start hcancelled hwork]
    exact ⟨hsound.start, evolves_after hsound.start hmem hwork w.start.1⟩
  | @idle role timeout next hcancelled hwork hinactive =>
    have hstop : w.stepTask task = w.stop task role timeout next := stepTask_running hcancelled hwork
    rw [hstop, stop_of_inactive hinactive]
    exact ⟨hsound, (Evolves.refl hsound.numbered).go htask rfl rfl rfl (becomes_running hwork _) rfl⟩
  | @stop role timeout next runner hcancelled hwork hrunner hactive =>
    rw [stepTask_running hcancelled hwork]
    exact evolves_stop hsound htask hwork hrunner hactive timeout

end Asked

/-! ### What occurs -/

/-- **The system when the runner has done what is asked of it**, if anything is. -/
def askedIn (w : World) : Occurrence → World
  | .serve id =>
    match w.task? id with
    | some task => w.asked task
    | none => w
  | _ => w

theorem askedIn_serve {id : TaskId} (h : w.task? id = some task) :
    w.askedIn (.serve id) = w.asked task := by
  show (match w.task? id with
    | some task => w.asked task
    | none => w) = _
  rw [h]

theorem askedIn_serve_none {id : TaskId} (h : w.task? id = none) : w.askedIn (.serve id) = w := by
  show (match w.task? id with
    | some task => w.asked task
    | none => w) = _
  rw [h]

theorem evolves_jump (h : w.Numbered) (acting : TaskId) (time : Nat) :
    Evolves acting w (w.jump time) := by
  have hmem : ∀ t' ∈ (w.jump time).tasks, ∃ t ∈ w.tasks, t'.id = t.id ∧ t'.party = t.party ∧
      t'.work = t.work ∧ t'.limit = t.limit ∧ t'.cancelled = t.cancelled := by
    intro t' ht'
    obtain ⟨t, ht, rfl⟩ := List.mem_map.1 ht'
    refine ⟨t, ht, ?_⟩
    split <;> exact ⟨rfl, rfl, rfl, rfl, rfl⟩
  have hids : (w.jump time).tasks.map Task.id = w.tasks.map Task.id := by
    show (w.tasks.map _).map Task.id = _
    rw [List.map_map]
    refine List.map_congr_left fun t _ => ?_
    dsimp only [Function.comp]
    split <;> rfl
  have hstoppers : (w.jump time).stoppers = w.stoppers := by
    show (w.tasks.map _).countP _ = _
    rw [List.countP_map]
    refine List.countP_congr fun t _ => ?_
    dsimp only [Function.comp]
    split <;> exact Iff.rfl
  refine ⟨rfl, rfl, rfl, le_rfl, h.of_ids hids rfl, hstoppers.le, fun t' ht' => ?_,
    fun _ t ht _ _ => ?_, fun _ t' ht' _ hcancelled => ?_⟩
  · obtain ⟨t, ht, hid, hparty, hwork, hlimit, -⟩ := hmem t' ht'
    exact .inl ⟨t, ht, hid, hparty, hwork ▸ .refl _, fun _ => ⟨hlimit, congrArg Work.bare hwork⟩⟩
  · rw [hids]
    exact List.mem_map_of_mem ht
  · obtain ⟨t, ht, hid, -, -, -, hsame⟩ := hmem t' ht'
    exact ⟨t, ht, hid.symm, hsame ▸ hcancelled⟩

/-- **All that occurs**: the runner does what is asked of it, and the rest leaves it alone. -/
theorem evolves_occur (hsound : w.Sound) (occurrence : Occurrence)
    (hacting : ∀ id, occurrence = .serve id → id = acting) :
    (w.askedIn occurrence).Sound ∧ Evolves acting (w.askedIn occurrence) (w.occur occurrence) := by
  have hrefl : Evolves acting w w := .refl hsound.numbered
  cases occurrence with
  | serve id =>
    obtain rfl := hacting id rfl
    cases hfind : w.task? id with
    | none =>
      rw [askedIn_serve_none hfind, occur_serve_none hfind]
      exact ⟨hsound, hrefl⟩
    | some task =>
      obtain ⟨htask, rfl⟩ := mem_of_task? hfind
      rw [askedIn_serve hfind, occur_serve hfind]
      exact (w.request task).evolves hsound htask
  | pass time => exact ⟨hsound, evolves_jump hsound.numbered acting time⟩
  | meanwhile store clock stalled => exact ⟨hsound, hrefl.frame ⟨rfl, rfl, rfl, rfl, rfl⟩⟩
  | order ready hostReady => exact ⟨hsound, hrefl.frame ⟨rfl, rfl, rfl, rfl, rfl⟩⟩

theorem exists_evolves_occur (hsound : w.Sound) (occurrence : Occurrence) :
    ∃ acting, (w.askedIn occurrence).Sound ∧
      Evolves acting (w.askedIn occurrence) (w.occur occurrence) := by
  cases occurrence with
  | serve id => exact ⟨id, evolves_occur hsound _ fun _ h => (Occurrence.serve.inj h).symm⟩
  | _ => exact ⟨hostTask, evolves_occur hsound _ nofun⟩

theorem Sound.occur (hsound : w.Sound) (occurrence : Occurrence) : (w.occur occurrence).Sound := by
  obtain ⟨_, hasked, hevolves⟩ := exists_evolves_occur hsound occurrence
  exact hasked.evolves hevolves

/-- **The invariant holds after all that occurs.** -/
theorem Sound.through (hsound : w.Sound) : ∀ occurrences : List Occurrence,
    (w.through occurrences).Sound
  | [] => hsound
  | occurrence :: earlier => (hsound.through earlier).occur occurrence

theorem sound_create (store : Backend) (clock : Clock) (config : RunnerConfig) (id : WorkerId)
    (host : Program) :
    (create store clock config (some (Runner.fresh id config)) host).Sound := by
  have hnone : ∀ t ∈ (create store clock config (some (Runner.fresh id config)) host).tasks,
      t = .create hostTask .direct (.running .host host) := fun t ht => List.mem_singleton.1 ht
  have hcovered : Related InFlight.Covered .runner
      (create store clock config (some (Runner.fresh id config)) host) :=
    related_create InFlight.covered_empty store clock config _ host
  refine ⟨hcovered.numbered, fun t ht hloop => ?_, fun t ht => ?_, fun t ht id hid => ?_,
    Nat.zero_le 1, fun hneeded => ?_, fun hcharge => absurd hcharge (lt_irrefl 0)⟩
  · rw [hnone t ht] at hloop
    cases hloop
  · rw [hnone t ht]
    trivial
  · rw [hnone t ht] at hid
    cases hid
  · rcases hneeded with hcharge | hloops
    · exact absurd hcharge (lt_irrefl 0)
    · cases hloops

end JobQueue.World

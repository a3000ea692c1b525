import JobQueue.Proofs.Runner.Lifecycle

/-! # What a start does that cannot succeed

A runner counts as started before its workers are built. They are built from a configuration that was
checked for zeros only, so that a stale threshold of a quarter of the longest duration passes the
check and has no handler time. Then the start breaks down in the middle.

* `World.StartsWhole`: all loops begin, or nothing happens.
* `World.startsWhole_iff`: **when a start is all or nothing.**
* `start_all_or_nothing`: the starts of a runner that was accepted, whatever happened before.
* `start_of_longest`: a start that is neither. -/

namespace JobQueue

namespace World

variable {w : World} {runner : Runner} {task : Task}

/-- **A start is all or nothing**: it succeeds and all loops begin, or it is refused, without a
breakdown, and everything stays. -/
def StartsWhole (w : World) (runner : Runner) : Prop :=
  (w.start.1 = .nothing ∧
    w.start.2.runner = some { runner with started := true, active := true } ∧
    runner.IsCrew (loopsFrom w.nextTask w.start.2)) ∨
  ∃ e : JobError, e.breakdown? = none ∧ w.start = (.refused e, w)

theorem start_of_no_time (hrunner : w.runner = some runner) (hnew : runner.started = false)
    (hloops : runner.loops ≠ []) (hnone : runner.config.handlerTimeout? = none) :
    w.start = (.refused (.breakdown .multiple),
      { w with runner := some { runner with started := true } }) := by
  have hstart : runner.start .current =
      (.error (.breakdown .multiple), { runner with started := true }) := by
    unfold Runner.start
    simp [hnew, hloops, hnone]
  rw [start_eq hrunner, hstart]

/-- **When a start is all or nothing**: when it comes too late, when there are no workers, or when
there is a time for their handlers. -/
theorem startsWhole_iff (hnumbered : w.Numbered) (hrunner : w.runner = some runner)
    (hconfig : w.config = runner.config) : w.StartsWhole runner ↔
      runner.started = true ∨ runner.loops = [] ∨ runner.config.handlerTimeout? ≠ none := by
  rcases runner.start_cases with ⟨hstarted, -⟩ | ⟨hnew, hlimit, hstart⟩ |
    ⟨hnew, hloops, hnone, -⟩
  · exact iff_of_true (.inr ⟨.alreadyStarted, rfl, start_of_started hrunner hstarted⟩) (.inl hstarted)
  · refine iff_of_true (.inl ⟨?_, ?_, isCrew_start hnumbered hrunner hconfig hlimit hstart⟩)
      (.inr hlimit)
    · rw [start_eq hrunner, hstart]
    · rw [(runner_start w).1, hrunner, Option.map_some, hstart]
  · refine iff_of_false ?_ (by simp [hnew, hloops, hnone])
    unfold StartsWhole
    rw [start_of_no_time hrunner hnew hloops hnone]
    rintro (⟨hanswer, -⟩ | ⟨e, hcalm, heq⟩)
    · cases hanswer
    · obtain rfl := Answer.refused.inj (Prod.mk.inj heq).1
      cases hcalm

theorem stepTask_of_whole (hwhole : w.StartsWhole runner) {role : Role} {next : Answer → Program}
    (hcancelled : task.cancelled = false) (hwork : task.work = .running role (.perform .start next)) :
    w.stepTask task = w.start.2.go task (.running role (next w.start.1)) := by
  have hcalm : w.start.1.breakdown? = none := by
    rcases hwhole with ⟨hanswer, -⟩ | ⟨e, hcalm, heq⟩
    · rw [hanswer]
      rfl
    · rw [heq]
      exact hcalm
  rw [stepTask_start hcancelled hwork, hcalm]

end World

theorem Runner.loops_eq_nil_iff {runner : Runner} (h : runner.config.workerCount ≠ 0) :
    runner.loops = [] ↔ runner.queues = [] := by
  rw [← List.length_eq_zero_iff, length_loops, Nat.mul_eq_zero, List.length_eq_zero_iff]
  exact or_iff_left h

/-- **The starts of a runner whose configuration was accepted.** Whatever was asked of it and whatever
else occurred, a start is all or nothing just when it comes too late, there is no queue, or four times
the stale threshold is a duration, as the time of a handler then is. Otherwise it breaks down with the
task that made it, and all that changes is that the runner counts as started. So the loops of a runner
that counts as started began, but for this case. -/
theorem start_all_or_nothing {id : WorkerId} {config : RunnerConfig} {new : Runner}
    (haccepted : Runner.create id config = .ok new) (store : Backend) (clock : Clock)
    (host : Program) (occurrences : List Occurrence) :
    let fits := 4 * config.staleThreshold.nanos < durationBound
    let start := World.create store clock config (some new) host
    let w := start.through occurrences
    ((∃ limit, config.handlerTimeout? = some limit) ↔ fits) ∧
    ∃ runner, w.runner = some runner ∧
      (w.StartsWhole runner ↔ runner.started = true ∨ runner.queues = [] ∨ fits) ∧
      (¬ w.StartsWhole runner → w.start = (.refused (.breakdown .multiple),
        { w with runner := some { runner with started := true } })) ∧
      (∀ task ∈ w.tasks, task.cancelled = false → ∀ role next,
        task.work = .running role (.perform .start next) →
        (w.StartsWhole runner →
          w.stepTask task = w.start.2.go task (.running role (next w.start.1))) ∧
        (¬ w.StartsWhole runner → w.stepTask task = w.start.2.breakDown task .multiple)) ∧
      (runner.started = false → start.loopsBegun occurrences = []) ∧
      (runner.started = true → runner.IsCrew (start.loopsBegun occurrences) ∨
        runner.queues ≠ [] ∧ ¬ fits ∧ start.loopsBegun occurrences = []) := by
  intro fits start w
  obtain ⟨hcheck, rfl⟩ := Runner.create_eq_ok_iff.1 haccepted
  obtain ⟨hworkers, -, -⟩ := RunnerConfig.check_eq_ok_iff.1 hcheck
  have hfits : config.handlerTimeout? ≠ none ↔ fits :=
    (not_congr RunnerConfig.handlerTimeout?_eq_none_iff).trans not_le
  have hsound : start.Sound := World.sound_create store clock config id host
  let runner := (Runner.fresh id config).after (start.runnerCalls occurrences)
  have hrecorded : Runner.Recorded id config (start.runnerCalls occurrences) runner :=
    Runner.recorded_after id config _
  obtain ⟨hrunner, hconfig⟩ : w.runner = some runner ∧ w.config = config :=
    World.runner_through hsound rfl occurrences
  obtain ⟨hnever, hever⟩ := World.loopsBegun_eq hsound rfl occurrences
  have hloops : runner.loops = [] ↔ runner.queues = [] :=
    Runner.loops_eq_nil_iff (by rw [hrecorded.sameConfig]; exact hworkers)
  have hwhole : w.StartsWhole runner ↔ runner.started = true ∨ runner.queues = [] ∨ fits := by
    rw [World.startsWhole_iff (hsound.through occurrences).numbered hrunner
      (hconfig.trans hrecorded.sameConfig.symm), hloops, hrecorded.sameConfig, hfits]
  have hbroken : ¬ w.StartsWhole runner → w.start = (.refused (.breakdown .multiple),
      { w with runner := some { runner with started := true } }) := fun hnot => by
    rw [hwhole, not_or, not_or, ← hloops, ← hfits, not_not, Bool.not_eq_true] at hnot
    obtain ⟨hnew, hplaces, hnone⟩ := hnot
    exact World.start_of_no_time hrunner hnew hplaces
      ((congrArg RunnerConfig.handlerTimeout? hrecorded.sameConfig).trans hnone)
  refine ⟨Option.ne_none_iff_exists'.symm.trans hfits, runner, hrunner, hwhole, hbroken,
    fun task _ hcancelled role next hwork => ⟨fun h => World.stepTask_of_whole h hcancelled hwork,
      fun hnot => ?_⟩, fun hnew => hnever ?_, fun hstarted => ?_⟩
  · rw [World.stepTask_start hcancelled hwork, hbroken hnot]
    rfl
  · rw [← hrecorded.started, hnew]
    exact Bool.false_ne_true
  · rcases hever (hrecorded.started.1 hstarted) with hcrew | ⟨hplaces, hnone, hnothing⟩
    · exact .inl hcrew
    · exact .inr ⟨mt hloops.2 hplaces, fun h => hfits.2 h hnone, hnothing⟩

/-- A host that declares a queue and starts the runner. -/
def Program.serveOne : Program :=
  .perform (.addQueue "q") fun _ => .perform .start fun _ => .stuck

/-- With the usual configuration all loops begin. -/
theorem start_all_or_nothing_of_standard :
    let new := Runner.fresh "r" .standard
    let start := World.create (.memory .empty) (.manual 0) .standard (some new) .serveOne
    let w := start.through [.serve World.hostTask]
    Runner.create "r" .standard = .ok new ∧
      4 * RunnerConfig.standard.staleThreshold.nanos < durationBound ∧
      ∃ runner, w.runner = some runner ∧ runner.started = false ∧ w.StartsWhole runner ∧
        (World.loopsFrom w.nextTask w.start.2).length = 3 := by
  intro new start w
  have haccepted : Runner.create "r" .standard = .ok new := by decide +kernel
  have hfits : 4 * RunnerConfig.standard.staleThreshold.nanos < durationBound := by decide +kernel
  have hnew : w.runner.any Runner.started = false := by decide +kernel
  obtain ⟨-, runner, hrunner, hwhole, -⟩ := start_all_or_nothing haccepted (.memory .empty)
    (.manual 0) .serveOne [.serve World.hostTask]
  rw [show World.create _ _ RunnerConfig.standard _ _ = start from rfl] at hrunner hwhole
  have hstarted : runner.started = false := (World.started_eq hrunner).symm.trans hnew
  refine ⟨haccepted, hfits, runner, hrunner, hstarted, hwhole.2 (.inr (.inr hfits)), ?_⟩
  decide +kernel

/-- **A start that is neither all nor nothing**: the longest stale threshold is accepted. The start
breaks down, and the runner counts as started for ever, though it has no loop. -/
theorem start_of_longest :
    let config := { RunnerConfig.standard with staleThreshold := .longest }
    let new := Runner.fresh "r" config
    let start := World.create (.memory .empty) (.manual 0) config (some new) .serveOne
    let w := start.through [.serve World.hostTask]
    Runner.create "r" config = .ok new ∧ config.handlerTimeout? = none ∧
      (∀ runner, w.runner = some runner → runner.started = false ∧ ¬ w.StartsWhole runner) ∧
      w.start.2.started = true ∧
      start.loopsBegun [.serve World.hostTask, .serve World.hostTask] = [] := by
  intro config new start w
  have hnone : config.handlerTimeout? = none := by decide +kernel
  have hsound : start.Sound := World.sound_create (.memory .empty) (.manual 0) config "r" .serveOne
  have hopen : (w.runner.any fun runner => w.config = runner.config ∧ runner.started = false ∧
      runner.loops ≠ [] ∧ runner.config.handlerTimeout? = none) = true := by
    decide +kernel
  refine ⟨by decide +kernel, hnone, fun runner hrunner => ?_, by decide +kernel, by decide +kernel⟩
  rw [hrunner] at hopen
  obtain ⟨hconfig, hnew, hloops, hnever⟩ := of_decide_eq_true hopen
  refine ⟨hnew, ?_⟩
  rw [World.startsWhole_iff (hsound.through _).numbered hrunner hconfig]
  simp [hnew, hloops, hnever]

end JobQueue

import Mathlib.Tactic
import JobQueue.Runner

/-! # Configurations that runners accept

A configuration is accepted when nothing in it is zero (`RunnerConfig.check_eq_ok_iff`). This says
nothing about how long its durations are: the time of a handler is computed from four times the
stale threshold, which need not be a duration.

* `RunnerConfig.handlerTimeout?_eq_some_iff`: which time a handler has, and when there is one.
* `Runner.create_eq_ok_iff`: an accepted configuration gives a runner that was not started. -/

namespace JobQueue

theorem ConfigDuration.mem_all (setting : ConfigDuration) : setting ∈ ConfigDuration.all := by
  cases setting <;> decide

namespace RunnerConfig

variable {config : RunnerConfig} {limit : Duration}

theorem check_eq_ok_iff : config.check = .ok () ↔
    config.workerCount ≠ 0 ∧ 1 ≤ config.defaultMaxAttempts ∧
      ∀ setting : ConfigDuration, (setting.value config).isZero = false := by
  unfold check
  constructor
  · intro h
    split at h
    · cases h
    next hworkers =>
    split at h
    · cases h
    next hattempts =>
    split at h
    · cases h
    next hnone =>
    refine ⟨hworkers, by omega, fun setting => ?_⟩
    simpa using List.find?_eq_none.1 hnone setting setting.mem_all
  · rintro ⟨hworkers, hattempts, hpositive⟩
    have hnone : ConfigDuration.all.find? (fun setting => (setting.value config).isZero) = none :=
      List.find?_eq_none.2 fun setting _ => by simp [hpositive setting]
    rw [if_neg hworkers, if_neg (by omega), hnone]

/-- **The time of a handler** is four fifths of the stale threshold, if four times the threshold is a
duration. -/
theorem handlerTimeout?_eq_some_iff : config.handlerTimeout? = some limit ↔
    4 * config.staleThreshold.nanos < durationBound ∧
      limit.nanos = 4 * config.staleThreshold.nanos / 5 := by
  unfold handlerTimeout? Duration.scale? Duration.ofNanos?
  rw [Nat.mul_comm 4]
  split
  · next hfits =>
    rw [Option.map_some, Option.some_inj]
    constructor
    · rintro rfl
      exact ⟨hfits, rfl⟩
    · rintro ⟨-, hlimit⟩
      cases limit
      cases hlimit
      rfl
  · next hfits => simp [hfits]

theorem handlerTimeout?_eq_none_iff : config.handlerTimeout? = none ↔
    durationBound ≤ 4 * config.staleThreshold.nanos := by
  unfold handlerTimeout? Duration.scale? Duration.ofNanos?
  rw [Option.map_eq_none_iff, Nat.mul_comm 4]
  split
  · next hfits => simp [hfits]
  · next hfits => simpa using hfits

end RunnerConfig

namespace Runner

/-- A runner before anything is asked of it. -/
def fresh (id : WorkerId) (config : RunnerConfig) : Runner := ⟨id, config, [], false, false⟩

theorem create_eq_ok_iff {id : WorkerId} {config : RunnerConfig} {runner : Runner} :
    create id config = .ok runner ↔ config.check = .ok () ∧ runner = fresh id config := by
  unfold create
  cases config.check with
  | error fault => simp
  | ok => simp [fresh, eq_comm]

end Runner

end JobQueue

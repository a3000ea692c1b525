import JobQueue.Proofs.Cleanup.Passes
import JobQueue.Proofs.Runner.Config
import JobQueue.Proofs.Sql.Lifecycle

/-! # Cleanup passes go by exact ages

A cleanup pass compares the times in the rows with a cutoff: the present less the stale threshold or
the retention, which is rounded down to milliseconds and stops at the largest integer. Durations are
exact to the nanosecond, so it is not plain that the comparison is one of ages. It is, for times from
the epoch on.

* `Timestamp.lt_cutoff_iff`: **a time is before the cutoff exactly when its age is more than the
  duration**, to the nanosecond.
* `Row.abandoned`, `Row.outlived`: which rows a pass puts back and removes, by their ages.
* `CleanupReport.TellsAges`: what a report says of the rows by their ages.
* `World.Serves`: nothing is in the way of the calls. `World.Serves.passes`: **a pass is made at once.**
* `World.cleanup_by_age`: **what a whole pass does.** -/

namespace JobQueue

/-! ### Ages -/

/-- **Rounding and saturation do not show**: between points in time from the epoch on, a time is
before the cutoff of a duration exactly when its age is more than the duration. -/
theorem Timestamp.lt_cutoff_iff {now since : Int} (hnow : now ≤ latest) (hsince : 0 ≤ since)
    (d : Duration) :
    since < now - d.wholeMillis ↔ (d.nanos : Int) < (now - since) * 1000000 := by
  refine ⟨fun h => ?_, lt_cutoff⟩
  unfold Duration.wholeMillis latest at *
  omega

theorem RunnerConfig.handlerTimeout_le {config : RunnerConfig} {limit : Duration}
    (h : config.handlerTimeout? = some limit) : limit.nanos ≤ config.staleThreshold.nanos := by
  obtain ⟨-, hlimit⟩ := handlerTimeout?_eq_some_iff.1 h
  omega

namespace Sql

namespace Value

/-- The value is a time whose age is more than the duration, to the nanosecond. -/
def isOlder (now : Int) (age : Duration) : Value → Bool
  | .int time => (age.nanos : Int) < (now - time) * 1000000
  | _ => false

/-- The value is a time from the epoch on, if it is there. -/
def IsTime : Value → Prop
  | .null => True
  | .int time => 0 ≤ time
  | _ => False

theorem isBelow_cutoff {value : Value} (h : value.IsTime) {now : Int}
    (hnow : now ≤ Timestamp.latest) (d : Duration) :
    value.isBelow (.int (now - d.wholeMillis)) = value.isOlder now d := by
  cases value with
  | null => rfl
  | int time =>
    rw [isBelow_int]
    exact decide_eq_decide.2 (Timestamp.lt_cutoff_iff hnow h d)
  | real | text => cases h

end Value

namespace Row

/-- The times in the row by which a pass judges are times. -/
structure Timed (row : Row) : Prop where
  claimedAt : row.claimedAt.IsTime
  updatedAt : row.updatedAt.IsTime

/-- **The row runs, under a claim that is older** than the threshold. -/
def abandoned (now : Int) (threshold : Duration) (row : Row) : Bool :=
  row.status == Status.running.name && row.claimedAt.isOlder now threshold

/-- **The row has ended, and that is longer ago** than the retention. -/
def outlived (now : Int) (retention : Duration) (row : Row) : Bool :=
  row.hasEnded && row.updatedAt.isOlder now retention

/-- The row after a recovery: what is abandoned waits again. -/
def recovered (now : Int) (threshold : Duration) (row : Row) : Row :=
  if row.abandoned now threshold then row.settle .pending now else row

variable {row : Row} {now : Int}

theorem isStale_cutoff (h : row.Timed) (hnow : now ≤ Timestamp.latest) (threshold : Duration) :
    row.isStale (now - threshold.wholeMillis) = row.abandoned now threshold := by
  unfold isStale abandoned
  rw [Value.isBelow_cutoff h.claimedAt hnow]

theorem isExpired_cutoff (h : row.Timed) (hnow : now ≤ Timestamp.latest) (retention : Duration) :
    row.isExpired (now - retention.wholeMillis) = row.outlived now retention := by
  unfold isExpired outlived hasEnded
  rw [Value.isBelow_cutoff h.updatedAt hnow]

/-- **A claim whose worker still has time is not abandoned.** -/
theorem abandoned_of_le {config : RunnerConfig} {limit : Duration} {since : Int}
    (hlimit : config.handlerTimeout? = some limit) (hsince : row.claimedAt = .int since)
    (hage : (now - since) * 1000000 ≤ limit.nanos) :
    row.abandoned now config.staleThreshold = false := by
  have hle := RunnerConfig.handlerTimeout_le hlimit
  have hyoung : row.claimedAt.isOlder now config.staleThreshold = false := by
    rw [hsince]
    exact decide_eq_false (by omega)
  unfold abandoned
  rw [hyoung, Bool.and_false]

end Row

end Sql

/-! ### Reports -/

namespace CleanupReport

/-- The rows after a pass, by their ages. -/
def rowsByAge (config : RunnerConfig) (now later : Int) (report : CleanupReport)
    (rows : List Sql.Row) : List Sql.Row :=
  let left := if report.deleted.isSome
    then rows.filter fun row => !row.outlived later config.retention else rows
  if report.recovered.isSome then left.map (Sql.Row.recovered now config.staleThreshold) else left

/-- **The report tells the ages**: the recovery, if it succeeded, put back the rows that run under a
claim older than the stale threshold, the removal those that have ended longer ago than the retention;
each has counted its rows, and all others stay. -/
structure TellsAges (config : RunnerConfig) (now later : Int) (report : CleanupReport)
    (before after : List Sql.Row) : Prop where
  recovered : ∀ n, report.recovered = some n →
    n = before.countP (Sql.Row.abandoned now config.staleThreshold)
  deleted : ∀ n, report.deleted = some n →
    n = before.countP (Sql.Row.outlived later config.retention)
  rows : after = report.rowsByAge config now later before

variable {config : RunnerConfig} {now later : Int} {report : CleanupReport}
  {before after : List Sql.Row}

theorem Tells.ages (h : report.Tells config now later before after)
    (htimed : ∀ row ∈ before, row.Timed) (hnow : now ≤ Timestamp.latest)
    (hlater : later ≤ Timestamp.latest) : report.TellsAges config now later before after := by
  have hstale : ∀ row ∈ before, row.isStale (config.staleBefore now) =
      row.abandoned now config.staleThreshold := fun row hrow =>
    Sql.Row.isStale_cutoff (htimed row hrow) hnow config.staleThreshold
  have hexpired : ∀ row ∈ before, row.isExpired (config.expiredBefore later) =
      row.outlived later config.retention := fun row hrow =>
    Sql.Row.isExpired_cutoff (htimed row hrow) hlater config.retention
  have hput : ∀ row ∈ before, row.putBack (config.staleBefore now) now =
      row.recovered now config.staleThreshold := fun row hrow => by
    unfold Sql.Row.putBack Sql.Row.recovered
    rw [hstale row hrow]
  have hfilter : (before.filter fun row => !row.isExpired (config.expiredBefore later)) =
      before.filter fun row => !row.outlived later config.retention :=
    List.filter_congr fun row hrow => congrArg not (hexpired row hrow)
  refine ⟨fun n hn => ?_, fun n hn => ?_, h.rows.trans ?_⟩
  · rw [h.recovered n hn]
    exact List.countP_congr fun row hrow => by rw [hstale row hrow]
  · rw [h.deleted n hn]
    exact List.countP_congr fun row hrow => by rw [hexpired row hrow]
  · unfold rowsAfter rowsByAge
    dsimp only
    -- The removal does not see whether rows were put back, so it may be taken first.
    by_cases hrecovered : report.recovered.isSome = true
    · simp only [if_pos hrecovered]
      split
      · rw [Sql.Row.filter_map_putBack, hfilter]
        exact List.map_congr_left fun row hrow => hput row (List.mem_of_mem_filter hrow)
      · exact List.map_congr_left hput
    · simp only [if_neg hrecovered]
      split
      · exact hfilter
      · rfl

/-- **What a pass reports of which both calls succeeded.** -/
theorem TellsAges.eq_counts (h : report.TellsAges config now later before after)
    (hrecovered : report.recovered.isSome = true) (hdeleted : report.deleted.isSome = true) :
    report = ⟨some (before.countP (Sql.Row.abandoned now config.staleThreshold)),
      some (before.countP (Sql.Row.outlived later config.retention))⟩ := by
  obtain ⟨recovered, deleted⟩ := report
  obtain ⟨n, rfl⟩ := Option.isSome_iff_exists.1 hrecovered
  obtain ⟨m, rfl⟩ := Option.isSome_iff_exists.1 hdeleted
  rw [h.recovered n rfl, h.deleted m rfl]

/-- **A row that runs under a claim whose worker still has time stays.** -/
theorem TellsAges.mem_of_le (h : report.TellsAges config now later before after) {limit : Duration}
    (hlimit : config.handlerTimeout? = some limit) {row : Sql.Row} (hrow : row ∈ before)
    (hruns : row.status = Status.running.name) {since : Int} (hsince : row.claimedAt = .int since)
    (hage : (now - since) * 1000000 ≤ limit.nanos) : row ∈ after := by
  have hkept : row.recovered now config.staleThreshold = row := by
    unfold Sql.Row.recovered
    rw [Sql.Row.abandoned_of_le hlimit hsince hage]
    rfl
  have hended : row.outlived later config.retention = false := by
    unfold Sql.Row.outlived Sql.Row.hasEnded
    rw [hruns]
    rfl
  have hleft : row ∈ if report.deleted.isSome
      then before.filter fun row => !row.outlived later config.retention else before := by
    split
    · exact List.mem_filter.2 ⟨hrow, by rw [hended]; rfl⟩
    · exact hrow
  rw [h.rows]
  unfold rowsByAge
  dsimp only
  split
  · exact List.mem_map.2 ⟨row, hleft, hkept⟩
  · exact hleft

end CleanupReport

/-! ### A store that takes the calls -/

namespace Backend

/-- **The store takes the calls of a pass.** -/
def Serves : Backend → Prop
  | .memory store => store.available = true ∧ store.broken = false
  | .sql store => store.Ready

variable {store : Backend} {now : Int}

theorem Serves.intact (h : store.Serves) : store.Intact := by
  cases store with
  | memory store => exact h.2
  | sql store => trivial

end Backend

theorem MemoryStore.check_of_serves {store : MemoryStore} (h : (Backend.memory store).Serves)
    {call : Call} {now : Int} (hprepare : prepare call now = .ok ()) :
    store.check call now = .ok () := by
  unfold check reachable MemoryStore.intact
  rw [hprepare, h.1, h.2]
  rfl

namespace Backend

variable {store : Backend} {now : Int}

theorem Serves.recover (h : store.Serves) (hnow : 0 ≤ now) (threshold : Duration) :
    ∃ n : Nat, (store.run (.recoverStale threshold) now).1 = .ok n ∧
      (store.run (.recoverStale threshold) now).2.Serves := by
  cases store with
  | memory store =>
    have hprepare : MemoryStore.prepare (.recoverStale threshold) now = .ok () := by
      show discard (Timestamp.before now threshold) = _
      rw [Timestamp.before_of_nonneg hnow threshold]
      rfl
    rw [run_memory]
    unfold MemoryStore.run
    rw [MemoryStore.check_of_serves h hprepare]
    exact ⟨_, rfl, h⟩
  | sql store =>
    obtain ⟨after, hupdate, hready, -⟩ := Sql.Store.Ready.update h [.claimedBy]
      (Sql.Row.isStale (now - threshold.wholeMillis)) (Sql.Row.settle .pending now)
    have hrun : store.run (.recoverStale threshold) now = store.recoverStale threshold now := rfl
    rw [run_sql, hrun]
    unfold Sql.Store.recoverStale
    rw [Timestamp.before_of_nonneg hnow]
    dsimp only
    rw [hupdate]
    exact ⟨_, rfl, hready⟩

theorem Serves.prune (h : store.Serves) (cutoff now : Int) :
    ∃ n : Nat, (store.run (.deleteOlderThan cutoff) now).1 = .ok n ∧
      (store.run (.deleteOlderThan cutoff) now).2.Serves := by
  cases store with
  | memory store =>
    rw [run_memory]
    unfold MemoryStore.run
    rw [MemoryStore.check_of_serves h rfl]
    exact ⟨_, rfl, h⟩
  | sql store =>
    obtain ⟨c, hdelete, hready, -⟩ := Sql.Store.Ready.delete h [] (Sql.Row.isExpired cutoff)
    have hrun : store.run (.deleteOlderThan cutoff) now = store.deleteOlderThan cutoff := rfl
    rw [run_sql, hrun]
    unfold Sql.Store.deleteOlderThan
    rw [hdelete]
    exact ⟨_, rfl, hready⟩

end Backend

namespace World

/-- **Nothing is in the way of the calls of a pass.** -/
structure Serves (w : World) : Prop where
  store : w.store.Serves
  recovery : Method.recoverStale ∉ w.stalled
  removal : Method.deleteOlderThan ∉ w.stalled

variable {w : World} {id : TaskId} {pass : CleanupPass} {now later : Int}

theorem not_stalled {call : Call} (h : call.method ∉ w.stalled) : w.isStalled call = false :=
  Bool.eq_false_iff.2 (mt List.contains_iff_mem.1 h)

theorem Serves.call (h : w.Serves) (hleft : pass.callsLeft ≠ 0) (hepoch : 0 ≤ w.now) :
    let call := pass.call w.config w.now
    w.isStalled call = false ∧ (w.store.run call w.now).2.Serves ∧
      ∃ (answer : call.Result) (n : Nat), (w.store.run call w.now).1 = .ok answer ∧
        countOf call (.ok answer) = .ok n := by
  cases pass with
  | recovering =>
    obtain ⟨n, hrun, hafter⟩ := h.store.recover hepoch w.config.staleThreshold
    exact ⟨not_stalled h.recovery, hafter, n, n, hrun, rfl⟩
  | pruning recovered =>
    obtain ⟨n, hrun, hafter⟩ := h.store.prune (w.config.expiredBefore w.now) w.now
    exact ⟨not_stalled h.removal, hafter, n, n, hrun, rfl⟩
  | finished => exact absurd rfl hleft

/-- **A call of a pass is counted** when nothing is in its way. -/
theorem Serves.tally (h : w.Serves) (hleft : pass.callsLeft ≠ 0) (hepoch : 0 ≤ w.now) :
    (w.tally (pass.call w.config w.now)).isSome = true := by
  obtain ⟨hmade, -, answer, n, hanswer, hcount⟩ := h.call hleft hepoch
  unfold World.tally
  rw [hmade, hanswer, hcount]
  rfl

/-- **A move of the task** makes the call at once. -/
theorem Serves.serve (h : w.Serves) (hmakes : w.Makes id pass)
    (hfresh : (w.task? id).bind Task.limit = none) (hleft : pass.callsLeft ≠ 0)
    (hepoch : 0 ≤ w.now) :
    let after := w.occur (.serve id)
    after.Serves ∧ after.now = w.now ∧ (after.task? id).bind Task.limit = none ∧
      ∃ n : Nat, after.Makes id (pass.next (some n)) := by
  obtain ⟨hmade, hafter, answer, n, hanswer, hcount⟩ := h.call hleft hepoch
  obtain ⟨task, sequel, hfind, hcancelled, hwork⟩ := hmakes
  obtain ⟨hmem, rfl⟩ := mem_of_task? hfind
  rw [hfind] at hfresh
  have hoccur : w.occur (.serve task.id) =
      (w.called (pass.call w.config w.now)).go task (.cleaning (pass.next (some n)) sequel) := by
    rw [occur_cleaning hfind hcancelled hwork, stepCleaning_eq task sequel hleft hepoch,
      await_of_ok hfresh hmade hanswer, hcount]
    rfl
  have hgo := task?_go (w := w.called (pass.call w.config w.now)) (List.mem_map_of_mem hmem)
    (.cleaning (pass.next (some n)) sequel)
  dsimp only
  rw [hoccur]
  refine ⟨⟨hafter, h.recovery, h.removal⟩, rfl, ?_, n, _, sequel, hgo, hcancelled, rfl⟩
  rw [hgo]
  rfl

/-- **A pass is made at once** when nothing is in the way of its calls. -/
theorem Serves.passes (h : w.Serves) (hmakes : w.Makes id .recovering)
    (hfresh : (w.task? id).bind Task.limit = none) (hepoch : 0 ≤ w.now) :
    ∃ recovered deleted : Nat, w.Passes id w.now w.now [.serve id, .serve id]
      ⟨some recovered, some deleted⟩ := by
  obtain ⟨hserves, hnow, hfresh', recovered, hhalf⟩ := h.serve hmakes hfresh (by decide) hepoch
  have hleft : ((CleanupPass.recovering).next (some recovered)).callsLeft ≠ 0 := Nat.one_ne_zero
  have hepoch' : 0 ≤ (w.occur (.serve id)).now := hnow ▸ hepoch
  obtain ⟨-, -, -, deleted, hends⟩ := hserves.serve hhalf hfresh' hleft hepoch'
  exact ⟨recovered, deleted, hmakes, h.store.intact,
    ⟨⟨trivial, .serve hmakes (by decide) hepoch fun _ => rfl⟩,
      .serve hhalf hleft hepoch' fun _ => hnow⟩, hends⟩

theorem Serves.isSome_of_counts (h : w.Serves) {counted : Option Nat}
    (hcounts : w.Counts id pass now counted) (hleft : pass.callsLeft ≠ 0) (hepoch : 0 ≤ now) :
    counted.isSome = true := by
  obtain rfl := hcounts.now
  rw [← hcounts.tally]
  exact h.tally hleft hepoch

/-- **A pass counts both calls** when nothing was in their way at any moment of it. -/
theorem Passes.counted {occurrences : List Occurrence} {report : CleanupReport}
    (h : w.Passes id now later occurrences report)
    (hfresh : (w.task? id).bind Task.limit = none) (hnow : 0 ≤ now) (hlater : 0 ≤ later)
    (hserves : ∀ before, before <:+ occurrences → (w.through before).Serves) :
    report.recovered.isSome = true ∧ report.deleted.isSome = true := by
  obtain ⟨⟨after, before, rfl, ⟨again, first, rfl, hrecovery⟩, hremoval⟩, -⟩ := h.tells.2 hfresh
  have hbefore := (List.suffix_cons (.serve id) (again ++ .serve id :: first)).trans
    (List.suffix_append after _)
  have hfirst := ((List.suffix_cons (.serve id) first).trans (List.suffix_append again _)).trans
    hbefore
  exact ⟨(hserves _ hfirst).isSome_of_counts hrecovery (by decide) hnow,
    (hserves _ hbefore).isSome_of_counts hremoval Nat.one_ne_zero hlater⟩

/-- **What a cleanup pass does**, of a task of any system that begins on a store of either kind whose
rows have times from the epoch on, when its calls read the clock from the epoch on:

* No cutoff is out of range.
* If nothing is in the way of its calls, the pass is made at once and both calls succeed; if something
  is in the way at some moment, the pass still comes to its end. A pass that was never hindered has
  counted both calls.
* In every pass that nobody disturbs, a call that succeeded went by the exact ages, to the nanosecond:
  the recovery put back the rows that run under a claim older than the stale threshold, the removal
  took those that have ended longer ago than the retention. Each has counted them; all others stay.
* While the time that a handler has is not over since its claim, a row that runs stays. -/
theorem cleanup_by_age (hmakes : w.Makes id .recovering) (hintact : w.store.Intact)
    (hfresh : (w.task? id).bind Task.limit = none) (htimed : ∀ row ∈ w.store.rows, row.Timed) :
    (∀ time, 0 ≤ time →
      Timestamp.before time w.config.staleThreshold = .ok (w.config.staleBefore time) ∧
      CleanupPass.pruneCall w.config time =
        .ok (.deleteOlderThan (w.config.expiredBefore time))) ∧
    (0 ≤ w.now → w.now ≤ Timestamp.latest → w.Serves →
      w.Passes id w.now w.now [.serve id, .serve id]
        ⟨some (w.store.rows.countP (Sql.Row.abandoned w.now w.config.staleThreshold)),
          some (w.store.rows.countP (Sql.Row.outlived w.now w.config.retention))⟩) ∧
    (0 ≤ w.now → ∃ (later : Int) (occurrences : List Occurrence) (report : CleanupReport),
      w.Passes id w.now later occurrences report) ∧
    ∀ (now later : Int) (occurrences : List Occurrence) (report : CleanupReport),
      w.Passes id now later occurrences report → 0 ≤ now → now ≤ Timestamp.latest → 0 ≤ later →
      later ≤ Timestamp.latest →
      report.TellsAges w.config now later w.store.rows (w.through occurrences).store.rows ∧
      ((∀ before, before <:+ occurrences → (w.through before).Serves) →
        report = ⟨some (w.store.rows.countP (Sql.Row.abandoned now w.config.staleThreshold)),
          some (w.store.rows.countP (Sql.Row.outlived later w.config.retention))⟩) ∧
      ∀ limit, w.config.handlerTimeout? = some limit → ∀ row ∈ w.store.rows,
        row.status = Status.running.name → ∀ since, row.claimedAt = .int since →
        (now - since) * 1000000 ≤ limit.nanos → row ∈ (w.through occurrences).store.rows := by
  refine ⟨fun time hepoch => ⟨Timestamp.before_of_nonneg hepoch _, pruneCall_of_nonneg hepoch _⟩,
    fun hepoch hlatest hserves => ?_, fun hepoch => ?_,
    fun now later occurrences report hpass hnow hlatest hlater hlatest' => ?_⟩
  · obtain ⟨recovered, deleted, hpass⟩ := hserves.passes hmakes hfresh hepoch
    have hages := hpass.tells.1.ages htimed hlatest hlatest
    rw [← hages.eq_counts rfl rfl]
    exact hpass
  · obtain ⟨later, occurrences, report, -, hpass⟩ := exists_passes hmakes hintact hepoch
    exact ⟨later, occurrences, report, hpass⟩
  · have hages := hpass.tells.1.ages htimed hlatest hlatest'
    refine ⟨hages, fun hserves => ?_, fun limit hlimit row hrow hruns since hsince hage =>
      hages.mem_of_le hlimit hrow hruns hsince hage⟩
    obtain ⟨hrecovered, hdeleted⟩ := hpass.counted hfresh hnow hlater hserves
    exact hages.eq_counts hrecovered hdeleted

/-- **At the threshold to the millisecond**: a claim made at 5 ms stays in a pass 300 seconds later,
and is put back in a pass one millisecond after that. -/
theorem cleanup_by_age_at_threshold :
    let begun (now : Int) := (World.create (.sql (.after true (oneClaim []))) (.manual now) .standard
      none (Program.cleanup fun _ => .cleanup fun _ => .stuck)).occur (.serve hostTask)
    let pass := [Occurrence.serve hostTask, .serve hostTask]
    (∀ now ∈ [300005, 300006], (begun now).Makes hostTask .recovering ∧ (begun now).store.Intact ∧
      ((begun now).task? hostTask).bind Task.limit = none ∧
      (∀ row ∈ (begun now).store.rows, row.Timed) ∧ (begun now).Serves) ∧
      (begun 300005).Passes hostTask 300005 300005 pass ⟨some 0, some 0⟩ ∧
      ((begun 300005).through pass).store.rows.map Sql.Row.status = ["running"] ∧
      (begun 300006).Passes hostTask 300006 300006 pass ⟨some 1, some 0⟩ ∧
      ((begun 300006).through pass).store.rows.map Sql.Row.status = ["pending"] := by
  intro begun pass
  have hready : (Sql.Store.after true (oneClaim [])).Ready :=
    (Sql.Store.holds_after true _
      ((built_oneClaim []).mono fun _ hjob => hjob.hasRoom)).ready
  have hstore : ∀ now, (begun now).store = .sql (.after true (oneClaim [])) :=
    fun _ => rfl
  have hserves : ∀ now, (begun now).Serves := fun now => ⟨hready, nofun, nofun⟩
  have htimed : ∀ now, ∀ row ∈ (begun now).store.rows, row.Timed := fun now row hrow => by
    rw [hstore] at hrow
    obtain rfl := List.mem_singleton.1 hrow
    exact ⟨show (0 : Int) ≤ 5 by decide, show (0 : Int) ≤ 5 by decide⟩
  have hbegins : ∀ now ∈ [300005, 300006], (begun now).Makes hostTask .recovering ∧
      ((begun now).task? hostTask).bind Task.limit = none ∧ (begun now).now = now := by
    decide +kernel
  have hpass : ∀ now ∈ [300005, 300006], ∀ n : Nat,
      (begun now).store.rows.countP (Sql.Row.abandoned now RunnerConfig.standard.staleThreshold) = n →
      (begun now).store.rows.countP (Sql.Row.outlived now RunnerConfig.standard.retention) = 0 →
      (begun now).Passes hostTask now now pass ⟨some n, some 0⟩ := by
    rintro now hnow n hstale hexpired
    obtain ⟨hmakes, hfresh, htime⟩ := hbegins now hnow
    obtain ⟨hepoch, hlatest⟩ := (by decide : ∀ now ∈ [300005, 300006],
      0 ≤ now ∧ now ≤ Timestamp.latest) now hnow
    have hmade := (cleanup_by_age hmakes trivial hfresh (htimed now)).2.1 (htime ▸ hepoch)
      (htime ▸ hlatest) (hserves now)
    rw [htime] at hmade
    rw [← hstale, ← hexpired]
    exact hmade
  exact ⟨fun now hnow => ⟨(hbegins now hnow).1, trivial, (hbegins now hnow).2.1, htimed now,
      hserves now⟩,
    hpass 300005 (by decide) 0 (by decide +kernel) (by decide +kernel), by decide +kernel,
    hpass 300006 (by decide) 1 (by decide +kernel) (by decide +kernel), by decide +kernel⟩

end World

end JobQueue

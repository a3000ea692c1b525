import JobQueue.Proofs.Cleanup.Moves

/-! # Whole cleanup passes

From the moves of a pass follows what a whole pass does, in any run in which nobody else changes the
rows: what it reports is true, it makes both calls, one after the other and each once, and reports what
each counted when it was made, whatever became of the other.

* `World.Undisturbed`: nobody disturbs the pass. `World.Passes`: a whole pass.
* `World.Recovers`, `World.Prunes`: **the calls that were made**, and what they counted.
* `World.Stage`: the calls so far. `World.Passing.occur`: **what one move preserves**;
  `World.Passing.through`: what a run preserves.
* `World.exists_passes`: **a pass comes to its end.**
* `World.cleanup_pass`: **what a pass reports and does**, the opposite order, and a second pass. -/

namespace JobQueue

namespace World

/-- **Nobody disturbs the pass** in a run. -/
def Undisturbed (w : World) (id : TaskId) (now later : Int) : List Occurrence → Prop
  | [] => True
  | occurrence :: earlier =>
    w.Undisturbed id now later earlier ∧ (w.through earlier).Spares id now later occurrence

/-- **A whole pass**: it begins on a store that can be reached, nobody disturbs it, and in the end it
has the report. -/
structure Passes (w : World) (id : TaskId) (now later : Int) (occurrences : List Occurrence)
    (report : CleanupReport) : Prop where
  begins : w.Makes id .recovering
  intact : w.store.Intact
  undisturbed : w.Undisturbed id now later occurrences
  ends : (w.through occurrences).Makes id (.finished report)

/-- **The task makes a call of the pass** in its next move: the pass is at this point, no call is
waiting, the clock tells the time, and the call counts so much. -/
structure Counts (w : World) (id : TaskId) (pass : CleanupPass) (time : Int)
    (counted : Option Nat) : Prop where
  makes : w.Makes id pass
  fresh : (w.task? id).bind Task.limit = none
  now : w.now = time
  tally : w.tally (pass.call w.config time) = counted

/-- The recovery was made in the run, and counted so much. -/
def Recovers (w : World) (id : TaskId) (now : Int) (occurrences : List Occurrence)
    (recovered : Option Nat) : Prop :=
  ∃ after before, occurrences = after ++ .serve id :: before ∧
    (w.through before).Counts id .recovering now recovered

/-- **The removal was made in the run**, after the recovery and whatever that had counted; the report
tells what both of them counted when they were made. -/
def Prunes (w : World) (id : TaskId) (now later : Int) (occurrences : List Occurrence)
    (report : CleanupReport) : Prop :=
  ∃ after before, occurrences = after ++ .serve id :: before ∧
    w.Recovers id now before report.recovered ∧
    (w.through before).Counts id (.pruning report.recovered) later report.deleted

/-- **How far the pass has come** in a run, with the calls that were made. A call that is waiting counts
nothing. -/
inductive Stage (w : World) (id : TaskId) (now later : Int) (occurrences : List Occurrence) :
    CleanupPass → Option Nat → Prop
  | begun (hcalls : (w.through occurrences).calls = w.calls) :
      Stage w id now later occurrences .recovering none
  | recovering {time : Nat} (hmade : w.Recovers id now occurrences none)
      (hcalls : (w.through occurrences).calls = CleanupPass.recoverCall w.config :: w.calls) :
      Stage w id now later occurrences .recovering (some time)
  | recovered {counted : Option Nat} (hmade : w.Recovers id now occurrences counted)
      (hcalls : (w.through occurrences).calls = CleanupPass.recoverCall w.config :: w.calls) :
      Stage w id now later occurrences (.pruning counted) none
  | pruning {counted : Option Nat} {time : Nat}
      (hmade : w.Prunes id now later occurrences ⟨counted, none⟩)
      (hcalls : (w.through occurrences).calls = .deleteOlderThan (w.config.expiredBefore later) ::
        CleanupPass.recoverCall w.config :: w.calls) :
      Stage w id now later occurrences (.pruning counted) (some time)
  | ended {report : CleanupReport} {limit : Option Nat}
      (hmade : w.Prunes id now later occurrences report)
      (hcalls : (w.through occurrences).calls = .deleteOlderThan (w.config.expiredBefore later) ::
        CleanupPass.recoverCall w.config :: w.calls) :
      Stage w id now later occurrences (.finished report) limit

variable {w left : World} {id : TaskId} {task : Task} {config : RunnerConfig} {now later : Int}
  {rows : List Sql.Row} {pass : CleanupPass} {limit : Option Nat}

/-! ### One move -/

theorem Passing.makes (h : w.Passing config now later rows id pass limit) : w.Makes id pass := by
  obtain ⟨task, sequel, hfind, hcancelled, hwork, -⟩ := h.task
  exact ⟨task, sequel, hfind, hcancelled, hwork⟩

theorem Passing.limit_eq (h : w.Passing config now later rows id pass limit) :
    (w.task? id).bind Task.limit = limit := by
  obtain ⟨task, sequel, hfind, -, -, hlimit⟩ := h.task
  rw [hfind]
  exact hlimit

theorem Makes.eq {other : CleanupPass} (h : w.Makes id pass) (hother : w.Makes id other) :
    pass = other := by
  obtain ⟨task, sequel, hfind, -, hwork⟩ := h
  obtain ⟨task', sequel', hfind', -, hwork'⟩ := hother
  obtain rfl := Option.some.inj (hfind.symm.trans hfind')
  exact (Work.cleaning.inj (hwork.symm.trans hwork')).1

theorem Makes.passing (h : w.Makes id .recovering) (hintact : w.store.Intact) (now later : Int) :
    ∃ limit, w.Passing w.config now later w.store.rows id .recovering limit := by
  obtain ⟨task, sequel, hfind, hcancelled, hwork⟩ := h
  exact ⟨task.limit, ⟨task, sequel, hfind, hcancelled, hwork, rfl⟩, rfl, hintact,
    CleanupReport.tells_nothing _⟩

theorem Passing.jump (h : w.Passing config now later rows id pass limit) (time : Nat) :
    (w.jump time).Passing config now later rows id pass limit := by
  obtain ⟨task, sequel, hfind, hcancelled, hwork, hlimit⟩ := h.task
  obtain ⟨alarm, hjump⟩ := task?_jump hfind time
  exact ⟨⟨_, sequel, hjump, hcancelled, hwork, hlimit⟩, h.settings, h.intact, h.tells⟩

theorem Recovers.cons {occurrences : List Occurrence} {recovered : Option Nat}
    (h : w.Recovers id now occurrences recovered) (occurrence : Occurrence) :
    w.Recovers id now (occurrence :: occurrences) recovered := by
  obtain ⟨after, before, rfl, hcounts⟩ := h
  exact ⟨occurrence :: after, before, rfl, hcounts⟩

theorem Prunes.cons {occurrences : List Occurrence} {report : CleanupReport}
    (h : w.Prunes id now later occurrences report) (occurrence : Occurrence) :
    w.Prunes id now later (occurrence :: occurrences) report := by
  obtain ⟨after, before, rfl, hrecovers, hcounts⟩ := h
  exact ⟨occurrence :: after, before, rfl, hrecovers, hcounts⟩

theorem Stage.cons {occurrences : List Occurrence}
    (h : w.Stage id now later occurrences pass limit) {occurrence : Occurrence}
    (hcalls : ((w.through occurrences).occur occurrence).calls = (w.through occurrences).calls) :
    w.Stage id now later (occurrence :: occurrences) pass limit := by
  have hnone : (w.through (occurrence :: occurrences)).calls = (w.through occurrences).calls :=
    hcalls
  cases h with
  | begun hcalls => exact .begun (hnone.trans hcalls)
  | recovering hmade hcalls => exact .recovering (hmade.cons _) (hnone.trans hcalls)
  | recovered hmade hcalls => exact .recovered (hmade.cons _) (hnone.trans hcalls)
  | pruning hmade hcalls => exact .pruning (hmade.cons _) (hnone.trans hcalls)
  | ended hmade hcalls => exact .ended (hmade.cons _) (hnone.trans hcalls)

/-- **A move of the task**: a call is made or is waiting, and the pass has come to its next point or has
to wait for the call. -/
theorem Passing.serve_stage {occurrences : List Occurrence}
    (h : (w.through occurrences).Passing w.config now later rows id pass limit)
    (hleft : pass.callsLeft ≠ 0) (hepoch : 0 ≤ (w.through occurrences).now)
    (htime : limit = none → (w.through occurrences).now = pass.time now later) :
    ∃ next limit', (w.through (.serve id :: occurrences)).Passing w.config now later rows id next
        limit' ∧
      (w.Stage id now later occurrences pass limit →
        w.Stage id now later (.serve id :: occurrences) next limit') := by
  obtain ⟨-, hcalls, hmove⟩ := h.serve hleft hepoch htime
  have hcounts : limit = none → (w.through occurrences).Counts id pass (pass.time now later)
      ((w.through occurrences).tally (pass.call w.config (w.through occurrences).now)) := by
    rintro rfl
    exact ⟨h.makes, h.limit_eq, htime rfl, by rw [h.settings, htime rfl]⟩
  rcases hmove with hgo | ⟨time, -, htally, hrest⟩
  · refine ⟨_, none, hgo, fun hstage => ?_⟩
    cases hstage with
    | begun hbefore =>
      exact .recovered ⟨[], occurrences, rfl, hcounts rfl⟩
        (hcalls.trans (congrArg (CleanupPass.recoverCall w.config :: ·) hbefore))
    | recovering hmade hbefore => exact .recovered (hmade.cons _) (hcalls.trans hbefore)
    | recovered hmade hbefore =>
      obtain rfl : (w.through occurrences).now = later := htime rfl
      exact .ended ⟨[], occurrences, rfl, hmade, hcounts rfl⟩
        (hcalls.trans (congrArg (Call.deleteOlderThan _ :: ·) hbefore))
    | pruning hmade hbefore => exact .ended (hmade.cons _) (hcalls.trans hbefore)
    | ended => exact absurd rfl hleft
  · -- The call that was made is not answered, so it counts nothing.
    refine ⟨pass, some time, hrest, fun hstage => ?_⟩
    cases hstage with
    | begun hbefore =>
      exact .recovering ⟨[], occurrences, rfl, htally rfl ▸ hcounts rfl⟩
        (hcalls.trans (congrArg (CleanupPass.recoverCall w.config :: ·) hbefore))
    | recovering hmade hbefore => exact .recovering (hmade.cons _) (hcalls.trans hbefore)
    | recovered hmade hbefore =>
      obtain rfl : (w.through occurrences).now = later := htime rfl
      exact .pruning ⟨[], occurrences, rfl, hmade, htally rfl ▸ hcounts rfl⟩
        (hcalls.trans (congrArg (Call.deleteOlderThan _ :: ·) hbefore))
    | pruning hmade hbefore => exact .pruning (hmade.cons _) (hcalls.trans hbefore)
    | ended => exact absurd rfl hleft

/-- **What one move preserves** of a pass that nobody disturbs. -/
theorem Passing.occur {occurrences : List Occurrence}
    (h : (w.through occurrences).Passing w.config now later rows id pass limit)
    {occurrence : Occurrence} (hspares : (w.through occurrences).Spares id now later occurrence) :
    ∃ next limit', (w.through (occurrence :: occurrences)).Passing w.config now later rows id next
        limit' ∧
      (w.Stage id now later occurrences pass limit →
        w.Stage id now later (occurrence :: occurrences) next limit') := by
  cases hspares with
  | serve hmakes hleft hepoch htime =>
    obtain rfl := h.makes.eq hmakes
    rw [h.limit_eq] at htime
    exact h.serve_stage hleft hepoch htime
  | pass time => exact ⟨pass, limit, h.jump time, fun hstage => hstage.cons rfl⟩
  | meanwhile clock stalled hintact hrows =>
    exact ⟨pass, limit, ⟨h.task, h.settings, hintact, hrows ▸ h.tells⟩,
      fun hstage => hstage.cons rfl⟩
  | order ready hostReady =>
    exact ⟨pass, limit, ⟨h.task, h.settings, h.intact, h.tells⟩, fun hstage => hstage.cons rfl⟩

/-- **What a run preserves.** -/
theorem Passing.through (h : w.Passing w.config now later rows id pass limit)
    (hstage : limit = none → w.Stage id now later [] pass limit) :
    ∀ occurrences : List Occurrence, w.Undisturbed id now later occurrences →
      ∃ next limit', (w.through occurrences).Passing w.config now later rows id next limit' ∧
        (limit = none → w.Stage id now later occurrences next limit')
  | [], _ => ⟨pass, limit, h, hstage⟩
  | occurrence :: earlier, hundisturbed => by
    obtain ⟨_, _, hearlier, hbefore⟩ := h.through hstage earlier hundisturbed.1
    obtain ⟨next, limit', hnext, hafter⟩ := hearlier.occur hundisturbed.2
    exact ⟨next, limit', hnext, fun hlimit => hafter (hbefore hlimit)⟩

theorem undisturbed_append {earlier : List Occurrence} (h : w.Undisturbed id now later earlier) :
    ∀ {more : List Occurrence}, (w.through earlier).Undisturbed id now later more →
      w.Undisturbed id now later (more ++ earlier)
  | [], _ => h
  | occurrence :: more, hmore => by
    have happend : w.through (more ++ earlier) = (w.through earlier).through more :=
      through_append w earlier more
    exact ⟨undisturbed_append h hmore.1, happend ▸ hmore.2⟩

/-! ### The end of a pass -/

theorem Passing.at_later (h : w.Passing config now later rows id pass limit)
    (hleft : pass.callsLeft ≠ 0) (other : Int) :
    w.Passing config now other rows id pass limit := by
  refine ⟨h.task, h.settings, h.intact, ?_⟩
  cases pass with
  | recovering => exact ⟨nofun, nofun, h.tells.rows⟩
  | pruning recovered => exact ⟨h.tells.recovered, nofun, h.tells.rows⟩
  | finished report => exact absurd rfl hleft

/-- **The pass comes to its next point**, at the latest when the time of the call is over. -/
theorem Passing.advance (h : w.Passing config now later rows id pass limit)
    (hleft : pass.callsLeft ≠ 0) (hepoch : 0 ≤ w.now) (htime : w.now = pass.time now later) :
    ∃ (occurrences : List Occurrence) (next : CleanupPass),
      (∀ occurrence ∈ occurrences, occurrence = .serve id ∨ ∃ time, occurrence = .pass time) ∧
      (∀ now later, w.now = pass.time now later → w.Undisturbed id now later occurrences) ∧
      next.callsLeft + 1 = pass.callsLeft ∧ 0 ≤ (w.through occurrences).now ∧
      (w.through occurrences).Passing config now later rows id next none := by
  have hserve : ∀ now later, w.now = pass.time now later →
      w.Undisturbed id now later [.serve id] := fun _ _ htime =>
    ⟨trivial, .serve h.makes hleft hepoch fun _ => htime⟩
  obtain ⟨hsame, -, hgo | ⟨time, -, -, hrest⟩⟩ := h.serve hleft hepoch fun _ => htime
  · refine ⟨[.serve id], _, by simp, hserve, CleanupPass.callsLeft_next hleft _, ?_, hgo⟩
    show 0 ≤ (w.occur (.serve id)).now
    rw [hsame]
    exact hepoch
  · -- The call is not answered: when the time is over it is given up.
    let waited := (w.occur (.serve id)).jump (ceilMillis time)
    have hwaited : waited.Passing config now later rows id pass (some time) := hrest.jump _
    have hover : time ≤ waited.nanos := le_nanos_jump _ time
    have hlate : 0 ≤ waited.now := now_jump_nonneg (hsame ▸ hepoch) _
    obtain ⟨hsame', -, hgo | ⟨time', hagain, -, -⟩⟩ := hwaited.serve hleft hlate nofun
    · refine ⟨[.serve id, .pass (ceilMillis time), .serve id], _, by simp,
        fun now later htime => ⟨⟨hserve now later htime, .pass _⟩,
          .serve hwaited.makes hleft hlate fun hnone => ?_⟩, CleanupPass.callsLeft_next hleft _, ?_,
        hgo⟩
      · rw [show (w.through [.pass (ceilMillis time), .serve id]).task? id = waited.task? id from rfl,
          hwaited.limit_eq] at hnone
        cases hnone
      · show 0 ≤ (waited.occur (.serve id)).now
        rw [hsame']
        exact hlate
    · obtain ⟨rfl, hless⟩ := hagain time rfl
      exact absurd hover (not_le.2 hless)

/-- **A pass comes to its end**, whatever is in the way of its calls. -/
theorem exists_passes (hbegins : w.Makes id .recovering) (hintact : w.store.Intact)
    (hepoch : 0 ≤ w.now) :
    ∃ (later : Int) (occurrences : List Occurrence) (report : CleanupReport),
      (∀ occurrence ∈ occurrences, occurrence = .serve id ∨ ∃ time, occurrence = .pass time) ∧
      w.Passes id w.now later occurrences report := by
  obtain ⟨limit, hpassing⟩ := hbegins.passing hintact w.now 0
  obtain ⟨first, next, hfirst, hcalm, hnext, hlate, hnow⟩ :=
    hpassing.advance (by decide) hepoch rfl
  have hleft : next.callsLeft = 1 := Nat.succ.inj hnext
  let later := (w.through first).now
  have hlater : (w.through first).now = next.time w.now later := by
    cases next with
    | recovering => cases hleft
    | _ => rfl
  obtain ⟨second, last, hsecond, hcalm', hlast, -, hend⟩ :=
    (hnow.at_later (by omega) later).advance (by omega) hlate hlater
  cases last with
  | finished report =>
    refine ⟨later, second ++ first, report, fun occurrence hmem => ?_, hbegins, hintact,
      undisturbed_append (hcalm w.now later rfl) (hcalm' w.now later hlater), ?_⟩
    · exact (List.mem_append.1 hmem).elim (hsecond occurrence) (hfirst occurrence)
    · rw [through_append]
      exact hend.makes
  | recovering =>
    rw [hleft] at hlast
    cases hlast
  | pruning =>
    rw [hleft] at hlast
    cases hlast

theorem Passing.stage_begun (h : w.Passing config now later rows id .recovering limit) :
    limit = none → w.Stage id now later [] .recovering limit := by
  rintro rfl
  exact .begun rfl

/-- **What a whole pass reports is true**, and it made both calls. -/
theorem Passes.tells {occurrences : List Occurrence} {report : CleanupReport}
    (h : w.Passes id now later occurrences report) :
    report.Tells w.config now later w.store.rows (w.through occurrences).store.rows ∧
      ((w.task? id).bind Task.limit = none → w.Prunes id now later occurrences report ∧
        (w.through occurrences).calls = .deleteOlderThan (w.config.expiredBefore later) ::
          CleanupPass.recoverCall w.config :: w.calls) := by
  obtain ⟨limit, hpassing⟩ := h.begins.passing h.intact now later
  obtain ⟨pass, limit', hends, hstage⟩ :=
    hpassing.through hpassing.stage_begun occurrences h.undisturbed
  obtain rfl := hends.makes.eq h.ends
  refine ⟨hends.tells, fun hfresh => ?_⟩
  cases hstage (hpassing.limit_eq.symm.trans hfresh) with
  | ended hmade hcalls => exact ⟨hmade, hcalls⟩

/-- **A cleanup pass** of a task of any system, on a store of either kind that can be reached, with any
content, while nobody else changes the rows. Each of its calls may have its effect, be refused, or get
no answer.

* The pass comes to its end, and on the way the report so far is always true: a call that succeeded
  has counted the rows that it was to change as they were before the pass, and they are changed; all
  other rows are as they were. A row in question is one whatever has become of the other call.
* A pass that has just begun makes both calls and no other, the removal whatever has become of the
  recovery, and reports what each of them counts at its moment: all that it is to count, unless it is
  stalled or refused.
* In a second pass at the same times, of any task on the rows that the first one left, a call that
  succeeded in the first changes nothing, and if it succeeds again it reports nothing.
* If the two calls are made in the opposite order, the report of those that succeed is true in the same
  way: the counts and the effects are the same. -/
theorem cleanup_pass (hbegins : w.Makes id .recovering) (hintact : w.store.Intact) :
    (0 ≤ w.now → ∃ (later : Int) (occurrences : List Occurrence) (report : CleanupReport),
      (∀ occurrence ∈ occurrences, occurrence = .serve id ∨ ∃ time, occurrence = .pass time) ∧
      w.Passes id w.now later occurrences report) ∧
    (∀ (now later : Int) (occurrences : List Occurrence), w.Undisturbed id now later occurrences →
      ∃ pass, (w.through occurrences).Makes id pass ∧
        pass.soFar.Tells w.config now later w.store.rows (w.through occurrences).store.rows) ∧
    (∀ (now later : Int) (occurrences : List Occurrence) (report : CleanupReport),
      w.Passes id now later occurrences report → (w.task? id).bind Task.limit = none →
      w.Prunes id now later occurrences report ∧
        (w.through occurrences).calls = .deleteOlderThan (w.config.expiredBefore later) ::
          CleanupPass.recoverCall w.config :: w.calls) ∧
    (∀ (now later : Int) (occurrences : List Occurrence) (report : CleanupReport),
      w.Passes id now later occurrences report →
      ∀ (again : World) (other : TaskId) (repeated : List Occurrence) (second : CleanupReport),
        again.config = w.config → again.store.rows = (w.through occurrences).store.rows →
        again.Passes other now later repeated second →
        (report.recovered.isSome = true → ∀ n, second.recovered = some n → n = 0) ∧
        (report.deleted.isSome = true → ∀ n, second.deleted = some n → n = 0) ∧
        (again.through repeated).store.rows =
          (report.since second).rowsAfter w.config now later again.store.rows) ∧
    ∀ (now later : Int) (first second : Backend), 0 ≤ now → first.Intact → second.Intact →
      first.rows = w.store.rows →
      let removal := first.run (.deleteOlderThan (w.config.expiredBefore later)) later
      let recovery := second.run (CleanupPass.recoverCall w.config) now
      second.rows = removal.2.rows →
      CleanupReport.Tells w.config now later ⟨recovery.1.toOption, removal.1.toOption⟩
        w.store.rows recovery.2.rows := by
  refine ⟨exists_passes hbegins hintact, fun now later occurrences hcalm => ?_,
    fun now later occurrences report hpass hfresh => hpass.tells.2 hfresh,
    fun now later occurrences report hpass again other repeated second hconfig hrows hagain => ?_,
    fun now later first second hnow hfirst hsecond hrows => ?_⟩
  · obtain ⟨limit, hpassing⟩ := hbegins.passing hintact now later
    obtain ⟨pass, limit', hends, -⟩ := hpassing.through hpassing.stage_begun occurrences hcalm
    exact ⟨pass, hends.makes, hends.tells⟩
  · have htells := hagain.tells.1
    rw [hconfig, hrows] at htells
    rw [hrows]
    exact hpass.tells.1.again htells
  · rw [← hrows]
    exact CleanupReport.tells_backwards hfirst hsecond hnow

/-- A pass in which both calls are answered at once puts the only job back: its claim, made at 5 ms, is
300 seconds and a millisecond old. A second pass finds nothing. -/
theorem cleanup_pass_of_stale_claim :
    let host := Program.cleanup fun _ => .cleanup fun _ => .stuck
    let begun := (World.create (.sql (.after true (oneClaim []))) (.manual 300006) .standard none
      host).occur (.serve hostTask)
    let pass := [Occurrence.serve hostTask, .serve hostTask]
    let ended := begun.through pass
    begun.Makes hostTask .recovering ∧ begun.store.Intact ∧
      (begun.task? hostTask).bind Task.limit = none ∧
      begun.Passes hostTask 300006 300006 pass ⟨some 1, some 0⟩ ∧
      CleanupReport.Tells .standard 300006 300006 ⟨some 1, some 0⟩ begun.store.rows
        ended.store.rows ∧
      begun.Prunes hostTask 300006 300006 pass ⟨some 1, some 0⟩ ∧
      ended.store.rows.map Sql.Row.status = ["pending"] ∧
      (ended.through [.serve hostTask, .serve hostTask, .serve hostTask, .serve hostTask]).Makes
        hostTask (.finished ⟨some 0, some 0⟩) := by
  intro host begun pass ended
  have hbegins : begun.Makes hostTask .recovering := by decide +kernel
  have hhalf : (begun.through [.serve hostTask]).Makes hostTask (.pruning (some 1)) := by
    decide +kernel
  have hends : ended.Makes hostTask (.finished ⟨some 1, some 0⟩) := by decide +kernel
  have hnow : begun.now = 300006 := by decide +kernel
  have hlater : (begun.through [.serve hostTask]).now = 300006 := by decide +kernel
  have hcalm : begun.Undisturbed hostTask 300006 300006 pass :=
    ⟨⟨trivial, .serve hbegins (by decide) (hnow ▸ by decide) fun _ => hnow⟩,
      .serve hhalf (by decide) (hlater ▸ by decide) fun _ => hlater⟩
  have hfresh : (begun.task? hostTask).bind Task.limit = none := by decide +kernel
  have hpass : begun.Passes hostTask 300006 300006 pass ⟨some 1, some 0⟩ :=
    ⟨hbegins, trivial, hcalm, hends⟩
  obtain ⟨-, hruns, hmade, -⟩ := cleanup_pass hbegins trivial
  obtain ⟨reached, hmakes, htells⟩ := hruns 300006 300006 _ hcalm
  obtain rfl := hmakes.eq hends
  exact ⟨hbegins, trivial, hfresh, hpass, htells, (hmade 300006 300006 _ _ hpass hfresh).1,
    by decide +kernel, by decide +kernel⟩

end World

end JobQueue

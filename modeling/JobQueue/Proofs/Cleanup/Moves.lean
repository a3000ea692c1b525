import JobQueue.Proofs.Cleanup.Calls
import JobQueue.Proofs.Runner.Bounded

/-! # Moves of a cleanup pass in a running system

A task makes a pass in several moves: two calls are made, each of them may be stalled and given up,
and between the moves time passes and the obstacles of the store may be others. As long as nobody else
changes the rows, the rows and the report so far are those of the calls that succeeded.

* `World.Makes`: a task makes a pass. `World.Spares`: it does not disturb the pass.
* `World.tally`: what a call counts that is made now.
* `World.Passing`: the invariant. `World.Passing.serve`: **what a move of the task does**: it makes the
  call that comes next, unless one is waiting, and the pass goes on with what the call counted. -/

namespace JobQueue

namespace CleanupPass

/-- What a pass has to report so far. -/
def soFar : CleanupPass → CleanupReport
  | .recovering => ⟨none, none⟩
  | .pruning recovered => ⟨recovered, none⟩
  | .finished report => report

/-- How many calls are left to make. -/
def callsLeft : CleanupPass → Nat
  | .recovering => 2
  | .pruning _ => 1
  | .finished _ => 0

/-- The time of the call that comes next, of those of the two calls. -/
def time (now later : Int) : CleanupPass → Int
  | .recovering => now
  | _ => later

/-- The call that comes next, at its time. -/
def call (config : RunnerConfig) (now : Int) : CleanupPass → Call
  | .recovering => recoverCall config
  | _ => .deleteOlderThan (config.expiredBefore now)

/-- Where the pass stands when its call has counted so much. -/
def next (counted : Option Nat) : CleanupPass → CleanupPass
  | .recovering => .pruning counted
  | .pruning recovered => .finished ⟨recovered, counted⟩
  | .finished report => .finished report

theorem callsLeft_next {pass : CleanupPass} (h : pass.callsLeft ≠ 0) (counted : Option Nat) :
    (pass.next counted).callsLeft + 1 = pass.callsLeft := by
  cases pass with
  | finished => exact absurd rfl h
  | _ => rfl

theorem counted_eq {answer : Except JobError Nat}
    (h : ∀ cause, answer ≠ .error (.breakdown cause)) : counted answer = .ok answer.toOption := by
  cases answer with
  | ok n => rfl
  | error e =>
    cases e with
    | breakdown cause => exact absurd rfl (h cause)
    | _ => rfl

end CleanupPass

namespace World

/-- **A task makes a pass** that has come so far. -/
def Makes (w : World) (id : TaskId) (pass : CleanupPass) : Prop :=
  ∃ task sequel, w.task? id = some task ∧ task.cancelled = false ∧ task.work = .cleaning pass sequel

/-- The pass that a task makes. -/
def pass? (w : World) (id : TaskId) : Option CleanupPass :=
  match w.task? id with
  | some { work := .cleaning pass _, cancelled := false, .. } => some pass
  | _ => none

theorem pass?_eq_some_iff {w : World} {id : TaskId} {pass : CleanupPass} :
    w.pass? id = some pass ↔ w.Makes id pass := by
  refine ⟨fun h => ?_, fun ⟨task, sequel, hfind, hcancelled, hwork⟩ => ?_⟩
  · unfold pass? at h
    split at h
    · next hfind => exact ⟨_, _, hfind, rfl, by rw [← Option.some.inj h]⟩
    · cases h
  · obtain ⟨taskId, party, work, limit, alarm, cancelled⟩ := task
    obtain rfl : cancelled = false := hcancelled
    obtain rfl : work = .cleaning pass sequel := hwork
    unfold pass?
    rw [hfind]

instance (w : World) (id : TaskId) (pass : CleanupPass) : Decidable (w.Makes id pass) :=
  decidable_of_iff _ pass?_eq_some_iff

/-- **What a call of a pass counts** that is made now: nothing, if it is stalled or refused. -/
def tally (w : World) (call : Call) : Option Nat :=
  if w.isStalled call then none else (countOf call (w.store.run call w.now).1).toOption

/-- **It leaves a pass alone** whose calls are made at these times: the task of the pass makes a move
while calls are left, and the clock tells no time before the epoch; time passes; the obstacles of the
store are others, but not its rows. -/
inductive Spares (id : TaskId) (now later : Int) (w : World) : Occurrence → Prop
  | serve {pass : CleanupPass} (hmakes : w.Makes id pass) (hleft : pass.callsLeft ≠ 0)
      (hepoch : 0 ≤ w.now)
      (htime : (w.task? id).bind Task.limit = none → w.now = pass.time now later) :
      Spares id now later w (.serve id)
  | pass (time : Nat) : Spares id now later w (.pass time)
  | meanwhile {store : Backend} (clock : Clock) (stalled : List Method) (hintact : store.Intact)
      (hrows : store.rows = w.store.rows) :
      Spares id now later w (.meanwhile store clock stalled)
  | order (ready : List TaskId) (hostReady : Bool) : Spares id now later w (.order ready hostReady)

/-- **The invariant of a pass** that began on these rows, of a task with that limit. -/
structure Passing (config : RunnerConfig) (now later : Int) (rows : List Sql.Row) (w : World)
    (id : TaskId) (pass : CleanupPass) (limit : Option Nat) : Prop where
  task : ∃ task sequel, w.task? id = some task ∧ task.cancelled = false ∧
    task.work = .cleaning pass sequel ∧ task.limit = limit
  settings : w.config = config
  intact : w.store.Intact
  tells : pass.soFar.Tells config now later rows w.store.rows

variable {w left : World} {id : TaskId} {task : Task} {config : RunnerConfig} {now later : Int}
  {rows : List Sql.Row} {pass : CleanupPass} {sequel : Sequel CleanupReport} {limit : Option Nat}

theorem occur_cleaning (hfind : w.task? id = some task) (hcancelled : task.cancelled = false)
    (hwork : task.work = .cleaning pass sequel) :
    w.occur (.serve id) = w.stepCleaning task pass sequel := by
  rw [occur_serve hfind]
  unfold stepTask
  rw [hcancelled, hwork]
  rfl

theorem passing_go (hmem : task.id ∈ left.tasks.map Task.id) (hcancelled : task.cancelled = false)
    (hintact : left.store.Intact)
    (htells : pass.soFar.Tells left.config now later rows left.store.rows) :
    (left.go task (.cleaning pass sequel)).Passing left.config now later rows task.id pass none :=
  ⟨⟨_, sequel, task?_go hmem _, hcancelled, rfl, rfl⟩, rfl, hintact, htells⟩

theorem passing_rest (hmem : task.id ∈ left.tasks.map Task.id) (hcancelled : task.cancelled = false)
    (hwork : task.work = .cleaning pass sequel) (hintact : left.store.Intact)
    (htells : pass.soFar.Tells left.config now later rows left.store.rows) (time : Nat) :
    (left.rest task time).Passing left.config now later rows task.id pass task.limit := by
  obtain ⟨alarm, hrest⟩ := task?_rest hmem time
  obtain ⟨_, hset⟩ := exists_frame_rest left task time
  refine ⟨⟨_, sequel, hrest, hcancelled, hwork, rfl⟩, hset.config, ?_, ?_⟩
  · rw [store_rest]
    exact hintact
  · rw [store_rest]
    exact htells

theorem now_rest (w : World) (task : Task) (time : Nat) : (w.rest task time).now = w.now := by
  unfold rest
  dsimp only
  split <;> rfl

theorem passing_called {call : Call} {count : Nat} {changed : List Sql.Row}
    (sequel : Sequel CleanupReport) (hmem : task.id ∈ w.tasks.map Task.id) (hcancelled : task.cancelled = false)
    (hmade : w.isStalled call = false)
    (htells : pass.soFar.Tells w.config now later rows w.store.rows)
    (hcounted : w.store.Counted count changed (countOf call (w.store.run call w.now).1)
      (w.store.run call w.now).2)
    (hnext : ∀ after : Backend, after.rows = changed →
      (pass.next (some count)).soFar.Tells w.config now later rows after.rows)
    (hnone : (pass.next none).soFar = pass.soFar) :
    CleanupPass.counted (countOf call (w.store.run call w.now).1) = .ok (w.tally call) ∧
      ((w.called call).go task (.cleaning (pass.next (w.tally call)) sequel)).Passing w.config now
        later rows task.id (pass.next (w.tally call)) none := by
  obtain ⟨hleft, counted, heq, hrows⟩ := hcounted.counted
  have htally : w.tally call = counted := by
    have hoption := CleanupPass.counted_eq hcounted.ne_breakdown
    unfold tally
    rw [hmade]
    exact Except.ok.inj (hoption.symm.trans heq)
  have htells' : (pass.next counted).soFar.Tells w.config now later rows
      (w.store.run call w.now).2.rows := by
    rcases hrows with ⟨rfl, hchanged⟩ | ⟨rfl, hkept⟩
    · exact hnext _ hchanged
    · rw [hnone, hkept]
      exact htells
  have hgo : ((w.called call).go task (.cleaning (pass.next counted) sequel)).Passing
      (w.called call).config now later rows task.id (pass.next counted) none :=
    passing_go hmem hcancelled hleft htells'
  rw [htally]
  exact ⟨heq, hgo⟩

/-- **A call of a pass**: it is made, unless it is waiting. The pass comes to its next point with what
the call counted, if it counted; or the call is not answered, and the task waits until its limit. -/
theorem passing_await (call : Call) (timeout : Duration)
    (hcountOf : ∀ e, countOf call (.error e) = .error e) {count : Nat} {changed : List Sql.Row}
    (hmem : task.id ∈ w.tasks.map Task.id) (hcancelled : task.cancelled = false)
    (hwork : task.work = .cleaning pass sequel) (hintact : w.store.Intact)
    (htells : pass.soFar.Tells w.config now later rows w.store.rows)
    (hcall : task.limit = none → w.store.Counted count changed
      (countOf call (w.store.run call w.now).1) (w.store.run call w.now).2)
    (hnext : task.limit = none → ∀ after : Backend, after.rows = changed →
      (pass.next (some count)).soFar.Tells w.config now later rows after.rows)
    (hnone : (pass.next none).soFar = pass.soFar) :
    let after := w.await task call timeout fun outcome left =>
      left.advancePass task sequel ((CleanupPass.counted (countOf call outcome)).map (pass.next ·))
    after.now = w.now ∧
      after.calls = (if task.limit.isNone then call :: w.calls else w.calls) ∧
      (after.Passing w.config now later rows task.id
          (pass.next (if task.limit.isNone then w.tally call else none)) none ∨
        ∃ time, (∀ limit, task.limit = some limit → limit = time ∧ w.nanos < time) ∧
          (task.limit = none → w.tally call = none) ∧
          after.Passing w.config now later rows task.id pass (some time)) := by
  intro after
  have hbounded : Bounded w task call timeout (fun outcome left =>
      left.advancePass task sequel ((CleanupPass.counted (countOf call outcome)).map (pass.next ·)))
        after :=
    bounded_await w task call timeout _
  clear_value after
  have hlost : ∀ left : World, w.Frame left → left.store = w.store →
      (left.advancePass task sequel ((CleanupPass.counted (countOf call
        (.error (call.timeout timeout)))).map (pass.next ·))).Passing w.config now later rows task.id
          (pass.next none) none := by
    intro left hframe hstore
    rw [hcountOf, ← hframe.config]
    refine passing_go (hframe.tasks ▸ hmem) hcancelled (hstore ▸ hintact) ?_
    rw [hnone, hframe.config, hstore]
    exact htells
  have htally : w.isStalled call = true → w.tally call = none := fun hstalled => if_pos hstalled
  cases hbounded with
  | late hlimit _ =>
    rw [hlimit]
    refine ⟨?_, ?_, .inl (hlost w (.refl w) rfl)⟩ <;> rw [hcountOf] <;> rfl
  | @waiting time hlimit hleft =>
    rw [hlimit]
    refine ⟨now_rest w task time, calls_rest w task time, .inr ⟨time, fun limit hlimit' => ?_,
      nofun, ?_⟩⟩
    · exact ⟨(Option.some.inj hlimit').symm, hleft⟩
    · rw [← hlimit]
      exact passing_rest hmem hcancelled hwork hintact htells time
  | timeless hlimit hstalled =>
    rw [hlimit]
    have hpassing := hlost (w.record call) ⟨rfl, rfl, rfl, rfl, rfl⟩ rfl
    refine ⟨?_, ?_, .inl ?_⟩
    · rw [hcountOf]
      rfl
    · rw [hcountOf]
      rfl
    · rw [show (if (none : Option Nat).isNone then w.tally call else none) = none from
        htally hstalled]
      exact hpassing
  | stalled hlimit hstalled =>
    rw [hlimit]
    refine ⟨now_rest _ _ _, calls_rest (w.record call) _ _, .inr ⟨w.after timeout, nofun,
      fun _ => htally hstalled, ?_⟩⟩
    let waiting : Task := { task with limit := some (w.after timeout) }
    have hwaiting : waiting.id ∈ (w.record call).tasks.map Task.id := hmem
    exact passing_rest hwaiting hcancelled hwork hintact htells _
  | broken hlimit _ hbreakdown =>
    have hcounted := hcall hlimit
    rw [hbreakdown, hcountOf] at hcounted
    exact absurd rfl (hcounted.ne_breakdown _)
  | answered hlimit hmade _ =>
    obtain ⟨heq, hgo⟩ :=
      passing_called sequel hmem hcancelled hmade htells (hcall hlimit) (hnext hlimit) hnone
    rw [hlimit, heq]
    exact ⟨rfl, rfl, .inl hgo⟩

/-! ### One move -/

theorem pruneCall_of_nonneg (hepoch : 0 ≤ now) (config : RunnerConfig) :
    CleanupPass.pruneCall config now = .ok (.deleteOlderThan (config.expiredBefore now)) := by
  unfold CleanupPass.pruneCall
  rw [Timestamp.before_of_nonneg hepoch]
  rfl

theorem countOf_error (pass : CleanupPass) (config : RunnerConfig) (now : Int) (e : JobError) :
    countOf (pass.call config now) (.error e) = .error e := by
  cases pass <;> rfl

/-- **The move of a task in a pass with calls left**: the call that comes next. -/
theorem stepCleaning_eq (task : Task) (sequel : Sequel CleanupReport) (hleft : pass.callsLeft ≠ 0)
    (hepoch : 0 ≤ w.now) :
    w.stepCleaning task pass sequel =
      w.await task (pass.call w.config w.now) w.config.storeTimeout fun outcome left =>
        left.advancePass task sequel ((CleanupPass.counted (countOf (pass.call w.config w.now)
          outcome)).map (pass.next ·)) := by
  unfold stepCleaning
  cases pass with
  | recovering =>
    refine congrArg (w.await task (CleanupPass.recoverCall w.config) w.config.storeTimeout) ?_
    funext outcome left
    cases outcome <;> rfl
  | pruning recovered =>
    rw [pruneCall_of_nonneg hepoch]
    rfl
  | finished report => exact absurd rfl hleft

/-- **A move of the task** makes the call that comes next, unless one is waiting. The pass comes to its
next point with what was counted, or the task waits for an answer until the limit. -/
theorem Passing.serve (h : w.Passing config now later rows id pass limit)
    (hleft : pass.callsLeft ≠ 0) (hepoch : 0 ≤ w.now)
    (htime : limit = none → w.now = pass.time now later) :
    let after := w.occur (.serve id)
    let call := pass.call config w.now
    after.now = w.now ∧ after.calls = (if limit.isNone then call :: w.calls else w.calls) ∧
      (after.Passing config now later rows id
          (pass.next (if limit.isNone then w.tally call else none)) none ∨
        ∃ time, (∀ time', limit = some time' → time' = time ∧ w.nanos < time) ∧
          (limit = none → w.tally call = none) ∧
          after.Passing config now later rows id pass (some time)) := by
  obtain ⟨task, sequel, hfind, hcancelled, hwork, rfl⟩ := h.task
  obtain ⟨ht, rfl⟩ := mem_of_task? hfind
  have hmem : task.id ∈ w.tasks.map Task.id := List.mem_map_of_mem ht
  obtain rfl := h.settings
  dsimp only
  rw [occur_cleaning hfind hcancelled hwork, stepCleaning_eq task sequel hleft hepoch]
  cases pass with
  | recovering =>
    have hcounted : task.limit = none → w.store.Counted
        (w.store.rows.countP (Sql.Row.isStale (w.config.staleBefore now)))
        (w.store.rows.map (Sql.Row.putBack (w.config.staleBefore now) now))
        (countOf (CleanupPass.recoverCall w.config)
          (w.store.run (CleanupPass.recoverCall w.config) w.now).1)
        (w.store.run (CleanupPass.recoverCall w.config) w.now).2 := fun hlimit => by
      obtain rfl : w.now = now := htime hlimit
      have hcount : countOf (CleanupPass.recoverCall w.config) = id :=
        funext fun outcome => by cases outcome <;> rfl
      rw [hcount]
      exact Backend.counted_recover h.intact hepoch w.config.staleThreshold rfl
    have hnext : task.limit = none → ∀ after : Backend,
        after.rows = w.store.rows.map (Sql.Row.putBack (w.config.staleBefore now) now) →
        (CleanupPass.recovering.next (some (w.store.rows.countP
          (Sql.Row.isStale (w.config.staleBefore now))))).soFar.Tells w.config now later rows
            after.rows := fun _ after hafter => h.tells.recovery (.inl ⟨rfl, hafter⟩)
    exact passing_await _ w.config.storeTimeout (countOf_error _ _ _) hmem hcancelled hwork h.intact
      h.tells hcounted hnext rfl
  | pruning recovered =>
    let call := Call.deleteOlderThan (w.config.expiredBefore w.now)
    have hcounted : task.limit = none → w.store.Counted
        (w.store.rows.countP (Sql.Row.isExpired (w.config.expiredBefore later)))
        (w.store.rows.filter fun row => !row.isExpired (w.config.expiredBefore later))
        (countOf call (w.store.run call w.now).1) (w.store.run call w.now).2 := fun hlimit => by
      obtain rfl : w.now = later := htime hlimit
      have hcount : countOf call = id := funext fun outcome => by cases outcome <;> rfl
      rw [hcount]
      exact Backend.counted_prune h.intact _ _
    have hnext : task.limit = none → ∀ after : Backend,
        after.rows = w.store.rows.filter (fun row => !row.isExpired (w.config.expiredBefore later)) →
        ((CleanupPass.pruning recovered).next (some (w.store.rows.countP
          (Sql.Row.isExpired (w.config.expiredBefore later))))).soFar.Tells w.config now later rows
            after.rows := fun _ after hafter => h.tells.removal (.inl ⟨rfl, hafter⟩)
    exact passing_await _ w.config.storeTimeout (countOf_error _ _ _) hmem hcancelled hwork h.intact
      h.tells hcounted hnext rfl
  | finished report => exact absurd rfl hleft

end World

end JobQueue

import JobQueue.Proofs.Runner.Moves

/-! # The invariant of a system with a runner

What a task does by itself keeps the invariant, and so does what the runner does for a task: a runner
that begins spawns its loops, and one that is stopped tells them to end and puts the task that stops it
in charge of them.

* `World.Sound.evolves`: **a move that leaves the runner alone keeps the invariant.**
* `World.spawnAll`, `World.Sound.spawnLoops`: the loops begin.
* `World.handOver`, `World.Sound.handOver`: the loops are to end. -/

namespace JobQueue.World

variable {w w₁ : World} {acting : TaskId} {task t : Task}

/-! ### Moves keep the invariant -/

theorem Evolves.stoppers_le (h : Evolves acting w w₁) (hsound : w.Sound) (hcharge : 0 < w₁.inCharge) :
    w.stoppers ≤ w₁.stoppers := by
  have hone := hsound.charge
  have hactive : w₁.active = w.active := congrArg (Option.any Runner.active) h.runner
  unfold inCharge at hone hcharge
  rw [hactive] at hcharge
  have hless := h.stoppers
  omega

theorem Evolves.inCharge_le (h : Evolves acting w w₁) : w₁.inCharge ≤ w.inCharge := by
  have hactive : w₁.active = w.active := congrArg (Option.any Runner.active) h.runner
  unfold inCharge
  rw [hactive]
  exact Nat.add_le_add_left h.stoppers _

theorem Evolves.loop_origin (h : Evolves acting w w₁) (ht : t ∈ w₁.tasks)
    (hloop : t.work.isLoop = true) : ∃ before ∈ w.tasks, before.work.isLoop = true ∧
      Follows acting w.nextTask w₁.nextTask before t := by
  rcases h.origin t ht with ⟨before, hbefore, hfollows⟩ | hnew
  · exact ⟨before, hbefore, (Work.isLoop_eq hfollows.becomes.loop).symm.trans hloop, hfollows⟩
  · rw [← Work.isSome_loop?, hnew.loop] at hloop
    cases hloop

theorem Evolves.drained (h : Evolves acting w w₁) (hdrained : w.drained = true) :
    w₁.drained = true := by
  refine drained_eq_true_iff.2 fun t ht => Bool.eq_false_iff.2 fun hloop => ?_
  obtain ⟨before, hbefore, hisloop, -⟩ := h.loop_origin ht hloop
  rw [drained_eq_true_iff.1 hdrained before hbefore] at hisloop
  cases hisloop

/-- **A move that leaves the runner alone keeps the invariant.** -/
theorem Sound.evolves (hsound : w.Sound) (h : Evolves acting w w₁) : w₁.Sound where
  numbered := h.numbered
  party t ht hloop := by
    obtain ⟨before, hbefore, hisloop, hfollows⟩ := h.loop_origin ht hloop
    exact hfollows.party.trans (hsound.party before hbefore hisloop)
  owned t ht := by
    rcases h.origin t ht with ⟨before, hbefore, hfollows⟩ | hnew
    · exact hfollows.becomes.owned (hsound.owned before hbefore)
    · exact hnew.owned
  handlers t ht id hid := by
    -- Whoever has the number of a handler is no loop: it follows one that is none, or is new.
    have hnone : ∀ other ∈ w₁.tasks, (∀ before ∈ w.tasks, before.id = other.id →
        before.work.isLoop = false) → other.work.isLoop = false := fun other hother hbefore =>
      Bool.eq_false_iff.2 fun hloop => by
        obtain ⟨before, hmem, hisloop, hfollows⟩ := h.loop_origin hother hloop
        rw [hbefore before hmem hfollows.id.symm] at hisloop
        cases hisloop
    rcases h.origin t ht with ⟨before, hbefore, hfollows⟩ | hnew
    · rcases hfollows.becomes.handler id hid with hold | ⟨hfirst, hlast⟩
      · obtain ⟨hlt, hloops⟩ := hsound.handlers before hbefore id hold
        refine ⟨hlt.trans_le h.next, fun other hother heq => hnone other hother ?_⟩
        exact fun earlier hearlier hsame => hloops earlier hearlier (hsame.trans heq)
      · refine ⟨hlast, fun other hother heq => hnone other hother fun earlier hearlier hsame => ?_⟩
        have hlt := hsound.numbered.fresh earlier.id (List.mem_map_of_mem hearlier)
        rw [hsame, heq] at hlt
        exact absurd hfirst (not_le.2 hlt)
    · rw [hnew.handler] at hid
      cases hid
  charge := h.inCharge_le.trans hsound.charge
  started hneeded := by
    have hstarted : w₁.started = w.started := congrArg (Option.any Runner.started) h.runner
    rw [hstarted]
    refine hsound.started (hneeded.imp (fun hcharge => hcharge.trans_le h.inCharge_le) fun hloops => ?_)
    exact Bool.eq_false_iff.2 fun hdrained => by
      rw [h.drained hdrained] at hloops
      cases hloops
  uncancelled hcharge t ht hloop := Bool.eq_false_iff.2 fun hcancelled => by
    obtain ⟨other, hother, hid, hset⟩ :=
      h.uncancelled (h.stoppers_le hsound hcharge) t ht hloop hcancelled
    obtain ⟨before, hbefore, hisloop, hfollows⟩ := h.loop_origin ht hloop
    rw [hsound.numbered.eq_of_id hbefore hother (hid.trans hfollows.id),
      hsound.uncancelled (hcharge.trans_le h.inCharge_le) before hbefore hisloop] at hset
    cases hset

/-! ### What the runner does -/

theorem Sound.setRunner (hsound : w.Sound) {runner : Option Runner}
    (hactive : runner.any Runner.active = true → w.active = true)
    (hstarted : w.started = true → runner.any Runner.started = true) :
    Sound { w with runner := runner } := by
  have hless : inCharge { w with runner := runner } ≤ w.inCharge := by
    refine Nat.add_le_add_right ?_ _
    show (runner.any Runner.active).toNat ≤ w.active.toNat
    cases hvalue : runner.any Runner.active with
    | false => exact Nat.zero_le _
    | true => rw [hactive hvalue]
  exact ⟨⟨hsound.numbered.nodup, hsound.numbered.fresh⟩, hsound.party, hsound.owned,
    hsound.handlers, hless.trans hsound.charge,
    fun hneeded => hstarted (hsound.started (hneeded.imp_left fun hcharge => hcharge.trans_le hless)),
    fun hcharge => hsound.uncancelled (hcharge.trans_le hless)⟩

theorem Sound.begin (hsound : w.Sound) (hnew : w.started = false) {runner : Runner}
    (hstarted : runner.started = true) : Sound { w with runner := some runner } := by
  have hnever : ¬ (0 < w.inCharge ∨ w.drained = false) := fun hneeded => by
    rw [hsound.started hneeded] at hnew
    cases hnew
  rw [not_or] at hnever
  obtain ⟨hnobody, hdrained⟩ := hnever
  have hnone := drained_eq_true_iff.1 (by simpa using hdrained)
  have hstoppers : w.stoppers = 0 := by
    unfold inCharge at hnobody
    omega
  have hcharge : inCharge { w with runner := some runner } ≤ 1 := by
    show runner.active.toNat + w.stoppers ≤ 1
    rw [hstoppers]
    exact Bool.toNat_le runner.active
  refine ⟨⟨hsound.numbered.nodup, hsound.numbered.fresh⟩, hsound.party, hsound.owned,
    hsound.handlers, hcharge, fun _ => hstarted, fun _ t ht hloop => ?_⟩
  rw [hnone t ht] at hloop
  cases hloop

theorem Sound.spawn (hsound : w.Sound) (hactive : w.active = true) {work : Work}
    (hloop : work.isLoop = true) (howned : work.Owned) (hhandler : work.handler? = none) :
    (w.spawn .runner work).Sound := by
  have hstop : work.isStopping = false := by
    cases work with
    | stopping role next => cases hloop
    | _ => rfl
  have hcharge : (w.spawn .runner work).inCharge = w.inCharge := by
    show w.active.toNat + (w.tasks ++ [_]).countP _ = w.active.toNat + w.tasks.countP _
    rw [List.countP_append, List.countP_singleton]
    show _ + (_ + if work.isStopping = true then 1 else 0) = _
    rw [hstop]
    rfl
  have hpositive : 0 < w.inCharge := inCharge_pos hactive
  have hmem : ∀ t ∈ (w.spawn .runner work).tasks,
      t ∈ w.tasks ∨ t = .create w.nextTask .runner work := fun t ht =>
    (List.mem_append.1 ht).imp_right List.mem_singleton.1
  refine ⟨hsound.numbered.spawn _ _, fun t ht => ?_, fun t ht => ?_, fun t ht id hid => ?_,
    hcharge.le.trans hsound.charge, fun _ => hsound.started (.inl hpositive), fun _ t ht => ?_⟩
  · rcases hmem t ht with hbefore | rfl
    · exact hsound.party t hbefore
    · exact fun _ => rfl
  · rcases hmem t ht with hbefore | rfl
    · exact hsound.owned t hbefore
    · exact howned
  · rcases hmem t ht with hbefore | rfl
    · obtain ⟨hlt, hnone⟩ := hsound.handlers t hbefore id hid
      refine ⟨hlt.trans (Nat.lt_succ_self _), fun other hother hsame => ?_⟩
      rcases hmem other hother with hold | rfl
      · exact hnone other hold hsame
      · exact absurd hsame hlt.ne'
    · have hnone : work.handler? = some id := hid
      rw [hhandler] at hnone
      cases hnone
  · rcases hmem t ht with hbefore | rfl
    · exact hsound.uncancelled hpositive t hbefore
    · exact fun _ => rfl

/-! ### The loops begin -/

/-- Loops of the runner begin, one after another. -/
def spawnAll (w : World) (works : List Work) : World :=
  works.foldl (fun w work => w.spawn .runner work) w

theorem tasks_spawnAll : ∀ (works : List Work) (w : World), (w.spawnAll works).tasks =
    w.tasks ++ (works.zipIdx w.nextTask).map fun (work, id) => .create id .runner work
  | [], w => (List.append_nil _).symm
  | work :: works, w => by
    show ((w.spawn .runner work).spawnAll works).tasks = _
    rw [tasks_spawnAll works, List.zipIdx_cons, List.map_cons]
    exact List.append_assoc w.tasks [_] _

theorem runner_spawnAll : ∀ (works : List Work) (w : World),
    (w.spawnAll works).runner = w.runner ∧ (w.spawnAll works).team = w.team ∧
      (w.spawnAll works).config = w.config
  | [], _ => ⟨rfl, rfl, rfl⟩
  | work :: works, w => runner_spawnAll works (w.spawn .runner work)

theorem Sound.spawnAll : ∀ (works : List Work) {w : World}, w.Sound → w.active = true →
    (∀ work ∈ works, work.isLoop = true ∧ work.Owned ∧ work.handler? = none) →
    (w.spawnAll works).Sound
  | [], _, hsound, _, _ => hsound
  | work :: works, w, hsound, hactive, hworks => by
    obtain ⟨hloop, howned, hhandler⟩ := hworks work List.mem_cons_self
    have hothers := Sound.spawnAll works (hsound.spawn hactive hloop howned hhandler) hactive
      fun other hother => hworks other (List.mem_cons_of_mem work hother)
    exact hothers

/-- What the loops of a runner do when they begin. -/
def beginnings (config : RunnerConfig) (nanos : Nat) (runner : Runner) (slots : List Slot) :
    List Work :=
  slots.filterMap (fun slot => (Worker.create slot.queue (runner.workerId slot) config).toOption.map
    fun worker => .polling worker (.start config.pollInterval nanos)) ++
      [.idling (.start config.cleanupInterval nanos)]

theorem spawnLoops_eq (w : World) (runner : Runner) (slots : List Slot) :
    w.spawnLoops runner slots = w.spawnAll (beginnings w.config w.nanos runner slots) := by
  unfold spawnLoops beginnings
  induction slots generalizing w with
  | nil => rfl
  | cons slot slots ih =>
    rw [List.foldl_cons, List.filterMap_cons]
    cases Worker.create slot.queue (runner.workerId slot) w.config with
    | error cause => exact ih w
    | ok worker => exact ih _

theorem Sound.spawnLoops (hsound : w.Sound) (hactive : w.active = true) (runner : Runner)
    (slots : List Slot) : (w.spawnLoops runner slots).Sound := by
  rw [spawnLoops_eq]
  refine hsound.spawnAll _ hactive fun work hwork => ?_
  rcases List.mem_append.1 hwork with hworker | hcleanup
  · obtain ⟨slot, -, hsome⟩ := List.mem_filterMap.1 hworker
    obtain ⟨worker, -, rfl⟩ := Option.map_eq_some_iff.1 hsome
    exact ⟨rfl, trivial, rfl⟩
  · rw [List.mem_singleton.1 hcleanup]
    exact ⟨rfl, trivial, rfl⟩

/-! ### The loops are to end -/

/-- The runner tells its loops to end, and the task, as it is given, waits for this. -/
def handOver (w : World) (task : Task) (runner : Runner) : World :=
  (({ w with runner := some runner } : World).signalShutdown .runner).setTask task

section HandOver

variable {runner : Runner} {role : Role} {next : Answer → Program}

theorem handOver_eq (w : World) (task : Task) (runner : Runner) :
    (w.handOver task runner).tasks = (w.setTask task).tasks ∧
      (w.handOver task runner).nextTask = w.nextTask ∧
      (w.handOver task runner).config = w.config ∧
      (w.handOver task runner).runner = some runner ∧
      (w.handOver task runner).team.shutdown = w.team.shutdown.signal := by
  have hsignal : Frame _ (({ w with runner := some runner } : World).signalShutdown .runner) :=
    (quiet_wakeAll _ _).toFrame
  refine ⟨?_, hsignal.next, hsignal.config, hsignal.runner, hsignal.signal⟩
  show List.map _ _ = List.map _ _
  rw [hsignal.tasks]
  rfl

theorem mem_setTask (ht : t ∈ (w.setTask task).tasks) :
    t = task ∨ t ∈ w.tasks ∧ t.id ≠ task.id := by
  obtain ⟨before, hbefore, rfl⟩ := List.mem_map.1 ht
  by_cases hid : before.id = task.id
  · exact .inl (if_pos hid)
  · rw [if_neg hid]
    exact .inr ⟨hbefore, hid⟩

/-- **The task that stopped the runner is in charge of the loops.** -/
theorem Sound.handOver (hsound : w.Sound) (hactive : w.active = true)
    (hwork : t.work = .stopping role next) (hinactive : runner.active = false)
    (hstarted : runner.started = true) : (w.handOver t runner).Sound := by
  obtain ⟨htasks, hnext, -, hrunner, -⟩ := handOver_eq w t runner
  have hmem : ∀ t' ∈ (w.handOver t runner).tasks,
      t' = t ∨ t' ∈ w.tasks ∧ t'.id ≠ t.id := fun t' ht' => mem_setTask (htasks ▸ ht')
  have hloop : t.work.isLoop = false := by
    rw [hwork]
    rfl
  have hstopping : w.stoppers = 0 := by
    have hone := hsound.charge
    unfold inCharge at hone
    rw [hactive] at hone
    exact Nat.eq_zero_of_le_zero (Nat.le_of_add_le_add_left hone)
  have hpositive : 0 < w.inCharge := inCharge_pos hactive
  have hnumbered : (w.setTask t).Numbered := hsound.numbered.setTask t
  have hcharge : (w.handOver t runner).inCharge ≤ 1 := by
    -- Whoever waits for the loops now is the task that was set.
    have hfalse : (w.handOver t runner).active = false := by
      show (w.handOver t runner).runner.any Runner.active = false
      rw [hrunner]
      exact hinactive
    unfold inCharge
    rw [hfalse, stoppers_eq htasks]
    show 0 + _ ≤ 1
    rw [Nat.zero_add]
    refine le_trans ?_ (List.nodup_iff_count_le_one.1 hnumbered.nodup t.id)
    rw [List.count, List.countP_map]
    refine List.countP_mono_left fun t' ht' hwaits => ?_
    rcases mem_setTask ht' with rfl | ⟨hbefore, -⟩
    · exact beq_self_eq_true t'.id
    · exact absurd hwaits (List.countP_eq_zero.1 hstopping t' hbefore)
  refine ⟨hnumbered.of_ids (by rw [htasks]) hnext, fun t' ht' hisloop => ?_, fun t' ht' => ?_,
    fun t' ht' handler hhandler => ?_, hcharge, fun _ => ?_, fun _ t' ht' hisloop => ?_⟩
  · rcases hmem t' ht' with rfl | ⟨hbefore, -⟩
    · rw [hloop] at hisloop
      cases hisloop
    · exact hsound.party t' hbefore hisloop
  · rcases hmem t' ht' with rfl | ⟨hbefore, -⟩
    · rw [hwork]
      trivial
    · exact hsound.owned t' hbefore
  · rcases hmem t' ht' with rfl | ⟨hbefore, -⟩
    · rw [hwork] at hhandler
      cases hhandler
    · obtain ⟨hlt, hloops⟩ := hsound.handlers t' hbefore handler hhandler
      refine ⟨hnext ▸ hlt, fun other hother hsame => ?_⟩
      rcases hmem other hother with rfl | ⟨hold, -⟩
      · exact hloop
      · exact hloops other hold hsame
  · show (w.handOver t runner).runner.any Runner.started = true
    rw [hrunner]
    exact hstarted
  · rcases hmem t' ht' with rfl | ⟨hbefore, -⟩
    · rw [hloop] at hisloop
      cases hisloop
    · exact hsound.uncancelled hpositive t' hbefore hisloop

theorem frame_setTask_setTask (w : World) (hid : t.id = task.id) :
    ((w.setTask task).setTask t).Frame (w.setTask t) := by
  refine ⟨?_, rfl, rfl, rfl, rfl⟩
  show w.tasks.map _ = (w.tasks.map _).map _
  rw [List.map_map]
  refine List.map_congr_left fun before _ => ?_
  dsimp only [Function.comp]
  by_cases hsame : before.id = task.id
  · simp [hsame, hid]
  · simp [hsame, hid]

theorem frame_stepStopping_setTask (w : World)
    (hloop : ∀ t ∈ w.tasks, t.id = task.id → t.work.isLoop = task.work.isLoop) :
    ((w.setTask task).stepStopping task role next).Frame (w.stepStopping task role next) := by
  have hgo : ∀ work, ((w.setTask task).go task work).Frame (w.go task work) := fun work => by
    refine ⟨(frame_setTask_setTask w ?_).tasks, rfl, rfl, rfl, rfl⟩
    rfl
  have hrest : ∀ time, ((w.setTask task).rest task time).Frame (w.rest task time) := fun time => by
    unfold rest
    dsimp only
    split
    · exact frame_setTask_setTask w rfl
    · refine ⟨(frame_setTask_setTask w ?_).tasks, rfl, rfl, rfl, rfl⟩
      rfl
  have hdrained : (w.setTask task).drained = w.drained := by
    rw [Bool.eq_iff_iff, drained_eq_true_iff, drained_eq_true_iff]
    constructor
    · intro hnone t ht
      by_cases hid : t.id = task.id
      · rw [hloop t ht hid]
        exact hnone task (List.mem_map.2 ⟨t, ht, if_pos hid⟩)
      · exact hnone t (List.mem_map.2 ⟨t, ht, if_neg hid⟩)
    · intro hnone t ht
      obtain ⟨before, hbefore, rfl⟩ := List.mem_map.1 ht
      split
      · next hid =>
        rw [← hloop before hbefore hid]
        exact hnone before hbefore
      · exact hnone before hbefore
  have hnanos : (w.setTask task).nanos = w.nanos := rfl
  unfold stepStopping
  rw [hdrained, hnanos]
  split
  · exact hgo _
  · cases task.limit with
    | none => exact frame_setTask_setTask w rfl
    | some time =>
      by_cases htime : time ≤ w.nanos
      · simp only [if_pos htime]
        exact hgo _
      · simp only [if_neg htime]
        exact hrest time

end HandOver

end JobQueue.World

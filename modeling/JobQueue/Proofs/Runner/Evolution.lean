import JobQueue.Proofs.Runner.Occurrences

/-! # What a move of a task leaves of the others

A loop of the runner ends by itself, between two attempts or passes, or it breaks down. No other task
ends it, but with one exception: a task that waits for the loops to end takes them with it when it is
dropped. Whoever is to end the loops is *in charge* of them: the runner from its start to its stop,
then the task that made the stop. So as long as somebody is in charge, the loops go on.

* `World.Sound`: the invariant of a system with a runner.
* `World.Evolves`: what a move of a task leaves of the others, of the runner and of its loops.
* `World.Evolves.setTask`, `World.Evolves.remove`, `World.Evolves.spawn`: what moves are made of.
* `World.Evolves.discard`, `World.Evolves.breakDown`: ends in the middle. -/

namespace JobQueue

/-- **A loop of the runner.** -/
inductive Loop where
  | worker (worker : Worker)
  | cleanup
deriving DecidableEq, Repr

namespace Work

/-- The loop that does the work. -/
def loop? : Work → Option Loop
  | .polling worker _ => some (.worker worker)
  | .attempting trial sequel => if sequel.isLoop then some (.worker trial.worker) else none
  | .idling _ => some .cleanup
  | .cleaning _ sequel => if sequel.isLoop then some .cleanup else none
  | _ => none

/-- The task of the handler that the work waits for. -/
def handler? : Work → Option TaskId
  | .attempting trial _ => trial.handler
  | _ => none

/-- An attempt is one of the runner just when a loop makes it. -/
def Owned : Work → Prop
  | .attempting trial sequel => trial.party = .runner ↔ sequel.isLoop = true
  | _ => True

/-- The work, without what its handler has come to. -/
def bare : Work → Work
  | .attempting trial sequel => .attempting { trial with ending := none } sequel
  | work => work

theorem isSome_loop? (work : Work) : work.loop?.isSome = work.isLoop := by
  cases work with
  | attempting trial sequel => cases sequel <;> rfl
  | cleaning pass sequel => cases sequel <;> rfl
  | _ => rfl

variable {work work' work'' : Work}

theorem isLoop_eq (h : work'.loop? = work.loop?) : work'.isLoop = work.isLoop := by
  rw [← isSome_loop?, ← isSome_loop?, h]

theorem loop?_bare (work : Work) : work.bare.loop? = work.loop? := by cases work <;> rfl

theorem handler?_bare (work : Work) : work.bare.handler? = work.handler? := by cases work <;> rfl

theorem isStopping_bare (work : Work) : work.bare.isStopping = work.isStopping := by
  cases work <;> rfl

theorem owned_bare (work : Work) : work.bare.Owned ↔ work.Owned := by cases work <;> rfl

/-- **One work becomes another**: it is done by the same loop, if any, and waits for the same
handler, if any, or for one whose number is new. -/
structure Becomes (first last : TaskId) (work work' : Work) : Prop where
  loop : work'.loop? = work.loop?
  owned : work.Owned → work'.Owned
  handler : ∀ id, work'.handler? = some id → work.handler? = some id ∨ first ≤ id ∧ id < last

variable {first last : TaskId}

theorem Becomes.of_bare (h : work'.bare = work.bare) : Becomes first last work work' := by
  refine ⟨?_, fun howned => ?_, fun id hid => .inl ?_⟩
  · rw [← loop?_bare, h, loop?_bare]
  · rwa [← owned_bare, h, owned_bare]
  · rwa [← handler?_bare, ← h, handler?_bare]

theorem Becomes.refl (work : Work) : Becomes first last work work := .of_bare rfl

theorem Becomes.of_none (hloop : work'.loop? = work.loop?) (howned : work.Owned → work'.Owned)
    (hhandler : work'.handler? = none) : Becomes first last work work' :=
  ⟨hloop, howned, fun id hid => by rw [hhandler] at hid; cases hid⟩

theorem Becomes.trans_bare (h : Becomes first last work work') (hbare : work''.bare = work'.bare) :
    Becomes first last work work'' := by
  have h' : Becomes first last work' work'' := .of_bare hbare
  refine ⟨h'.loop.trans h.loop, fun howned => h'.owned (h.owned howned), fun id hid => ?_⟩
  rw [← handler?_bare, hbare, handler?_bare] at hid
  exact h.handler id hid

theorem Becomes.mono {last' : TaskId} (h : Becomes first last work work') (hlast : last ≤ last') :
    Becomes first last' work work' :=
  ⟨h.loop, h.owned, fun id hid =>
    (h.handler id hid).imp_right fun hnew => ⟨hnew.1, hnew.2.trans_le hlast⟩⟩

end Work

namespace World

/-! ### Who is in charge of the loops -/

/-- The loops of the runner were started and not yet told to end. -/
def active (w : World) : Bool := w.runner.any Runner.active

def started (w : World) : Bool := w.runner.any Runner.started

/-- How many tasks wait for the loops to end. -/
def stoppers (w : World) : Nat := w.tasks.countP fun t => t.work.isStopping

/-- **How many are in charge of the loops.** -/
def inCharge (w : World) : Nat := w.active.toNat + w.stoppers

theorem active_eq {w : World} {runner : Runner} (h : w.runner = some runner) :
    w.active = runner.active :=
  congrArg (Option.any Runner.active) h

theorem started_eq {w : World} {runner : Runner} (h : w.runner = some runner) :
    w.started = runner.started :=
  congrArg (Option.any Runner.started) h

theorem inCharge_pos {w : World} (h : w.active = true) : 0 < w.inCharge := by
  unfold inCharge
  rw [h]
  exact Nat.lt_add_right _ Nat.one_pos

/-- **The invariant of a system with a runner.** -/
structure Sound (w : World) : Prop where
  numbered : w.Numbered
  /-- Loops work for the runner, and nobody else does. -/
  party : ∀ t ∈ w.tasks, t.work.isLoop = true → t.party = .runner
  owned : ∀ t ∈ w.tasks, t.work.Owned
  /-- No handler is a loop. -/
  handlers : ∀ t ∈ w.tasks, ∀ id, t.work.handler? = some id →
    id < w.nextTask ∧ ∀ other ∈ w.tasks, other.id = id → other.work.isLoop = false
  charge : w.inCharge ≤ 1
  /-- Who is in charge was put there by the start, and loops were begun by it. -/
  started : 0 < w.inCharge ∨ w.drained = false → w.started = true
  uncancelled : 0 < w.inCharge → ∀ t ∈ w.tasks, t.work.isLoop = true → t.cancelled = false

theorem drained_eq_true_iff {w : World} :
    w.drained = true ↔ ∀ t ∈ w.tasks, t.work.isLoop = false := by
  simp [drained]

/-! ### Moves -/

variable {w w₁ w₂ : World} {acting first last : TaskId} {task t t' : Task}

/-- **One task follows another**: it has its number and its party and does work that its work may
become; if it is not the one that acts, nothing happened to it but the end of its handler. -/
structure Follows (acting first last : TaskId) (t t' : Task) : Prop where
  id : t'.id = t.id
  party : t'.party = t.party
  becomes : t.work.Becomes first last t'.work
  bystander : t.id ≠ acting → t'.limit = t.limit ∧ t'.work.bare = t.work.bare

/-- **A task is new**, and no loop. -/
structure Newcomer (w : World) (t : Task) : Prop where
  fresh : w.nextTask ≤ t.id
  loop : t.work.loop? = none
  owned : t.work.Owned
  handler : t.work.handler? = none

/-- **What the move of a task leaves of a system.** No loop is new. As long as those in charge stay,
the loops of the others stay, and none is cancelled. -/
structure Evolves (acting : TaskId) (w w₁ : World) : Prop where
  config : w₁.config = w.config
  runner : w₁.runner = w.runner
  signal : w₁.team.shutdown = w.team.shutdown
  next : w.nextTask ≤ w₁.nextTask
  numbered : w₁.Numbered
  stoppers : w₁.stoppers ≤ w.stoppers
  origin : ∀ t' ∈ w₁.tasks, (∃ t ∈ w.tasks, Follows acting w.nextTask w₁.nextTask t t') ∨
    w.Newcomer t'
  kept : w.stoppers ≤ w₁.stoppers → ∀ t ∈ w.tasks, t.work.isLoop = true → t.id ≠ acting →
    t.id ∈ w₁.tasks.map Task.id
  uncancelled : w.stoppers ≤ w₁.stoppers → ∀ t' ∈ w₁.tasks, t'.work.isLoop = true →
    t'.cancelled = true → ∃ t ∈ w.tasks, t.id = t'.id ∧ t.cancelled = true

theorem Follows.mono {last' : TaskId} (h : Follows acting first last t t') (hlast : last ≤ last') :
    Follows acting first last' t t' :=
  ⟨h.id, h.party, h.becomes.mono hlast, h.bystander⟩

theorem Follows.mark {t'' : Task} (h : Follows acting first last t t') (hid : t''.id = t'.id)
    (hparty : t''.party = t'.party) (hlimit : t''.limit = t'.limit)
    (hbare : t''.work.bare = t'.work.bare) : Follows acting first last t t'' :=
  ⟨hid.trans h.id, hparty.trans h.party, h.becomes.trans_bare hbare, fun hne =>
    ⟨hlimit.trans (h.bystander hne).1, hbare.trans (h.bystander hne).2⟩⟩

theorem Newcomer.mark (h : w.Newcomer t) (hid : t'.id = t.id) (hbare : t'.work.bare = t.work.bare) :
    w.Newcomer t' := by
  have hbecomes : t.work.Becomes 0 0 t'.work := .of_bare hbare
  refine ⟨hid ▸ h.fresh, hbecomes.loop.trans h.loop, hbecomes.owned h.owned, ?_⟩
  rw [← Work.handler?_bare, hbare, Work.handler?_bare]
  exact h.handler

theorem exists_frame_rest (w : World) (task : Task) (time : Nat) :
    ∃ alarm, (w.setTask { task with alarm := alarm }).Frame (w.rest task time) := by
  unfold rest
  dsimp only
  split
  · exact ⟨task.alarm, .refl _⟩
  · exact ⟨_, rfl, rfl, rfl, rfl, rfl⟩

theorem stoppers_setTask_le (hstop : ∀ t ∈ w.tasks, t.id = task.id →
    task.work.isStopping = true → t.work.isStopping = true) :
    (w.setTask task).stoppers ≤ w.stoppers := by
  show (w.tasks.map _).countP _ ≤ w.tasks.countP _
  rw [List.countP_map]
  refine List.countP_mono_left fun t ht hstopping => ?_
  dsimp only [Function.comp] at hstopping
  split at hstopping
  · next hid => exact hstop t ht hid hstopping
  · exact hstopping

theorem stoppers_remove_le (w : World) (id : TaskId) : (w.remove id).stoppers ≤ w.stoppers :=
  List.filter_sublist.countP_le

theorem stoppers_eq (h : w₁.tasks = w.tasks) : w₁.stoppers = w.stoppers := by
  unfold stoppers
  rw [h]

theorem stoppers_abandon_le (w : World) (task : Task) : (w.abandon task).stoppers ≤ w.stoppers :=
  (stoppers_eq (tasks_abandon w task)).trans_le (stoppers_remove_le w task.id)

theorem stoppers_abandon_lt (htask : task ∈ w.tasks) (hstop : task.work.isStopping = true) :
    (w.abandon task).stoppers < w.stoppers := by
  rw [stoppers_eq (tasks_abandon w task)]
  show (w.tasks.filter _).countP _ < w.tasks.countP _
  rw [List.countP_eq_length_filter, List.countP_eq_length_filter, List.filter_comm]
  exact List.length_filter_lt_length_iff_exists.2
    ⟨task, List.mem_filter.2 ⟨htask, hstop⟩, by simp⟩

theorem stoppers_cancelWith_le (h : w.Numbered) (htask : task ∈ w.tasks) :
    (cancelWith abandon w task).stoppers ≤ w.stoppers := by
  unfold cancelWith
  split
  · refine (stoppers_eq (tasks_wake _ _)).trans_le (stoppers_setTask_le fun t ht hid => ?_)
    rw [h.eq_of_id htask ht hid]
    exact id
  · exact stoppers_abandon_le w task

namespace Evolves

theorem refl (h : w.Numbered) : Evolves acting w w :=
  ⟨rfl, rfl, rfl, le_rfl, h, le_rfl,
    fun t ht => .inl ⟨t, ht, rfl, rfl, .refl _, fun _ => ⟨rfl, rfl⟩⟩,
    fun _ _ ht _ _ => List.mem_map_of_mem ht, fun _ t ht _ hcancelled => ⟨t, ht, rfl, hcancelled⟩⟩

theorem frame (h : Evolves acting w w₁) (hframe : w₁.Frame w₂) : Evolves acting w w₂ := by
  have hstoppers := stoppers_eq hframe.tasks
  have hnext := hframe.next
  refine ⟨hframe.config.trans h.config, hframe.runner.trans h.runner,
    hframe.signal.trans h.signal, hnext ▸ h.next,
    h.numbered.of_ids (by rw [hframe.tasks]) hnext, hstoppers ▸ h.stoppers, ?_, ?_, ?_⟩
  · rw [hframe.tasks]
    exact fun t' ht' => (h.origin t' ht').imp_left fun ⟨t, ht, hfollows⟩ =>
      ⟨t, ht, hfollows.mono hnext.ge⟩
  · rw [hframe.tasks, hstoppers]
    exact h.kept
  · rw [hframe.tasks, hstoppers]
    exact h.uncancelled

theorem setTask (h : Evolves acting w w₁)
    (horigin : (∃ t ∈ w.tasks, Follows acting w.nextTask w₁.nextTask t task) ∨ w.Newcomer task)
    (hstop : ∀ t ∈ w₁.tasks, t.id = task.id → task.work.isStopping = true →
      t.work.isStopping = true)
    (hcancelled : w.stoppers ≤ w₁.stoppers → task.work.isLoop = true → task.cancelled = true →
      ∃ t ∈ w.tasks, t.id = task.id ∧ t.cancelled = true) :
    Evolves acting w (w₁.setTask task) := by
  have hstoppers := stoppers_setTask_le hstop
  have hmem : ∀ t' ∈ (w₁.setTask task).tasks, t' = task ∨ t' ∈ w₁.tasks := fun t' ht' => by
    obtain ⟨before, hbefore, rfl⟩ := List.mem_map.1 ht'
    split
    · exact .inl rfl
    · exact .inr hbefore
  refine ⟨h.config, h.runner, h.signal, h.next, h.numbered.setTask task,
    hstoppers.trans h.stoppers, fun t' ht' => ?_, fun hcalm => ?_, fun hcalm t' ht' => ?_⟩
  · show (∃ t ∈ w.tasks, Follows acting w.nextTask w₁.nextTask t t') ∨ _
    rcases hmem t' ht' with rfl | hbefore
    · exact horigin
    · exact h.origin t' hbefore
  · rw [ids_setTask]
    exact h.kept (hcalm.trans hstoppers)
  · rcases hmem t' ht' with rfl | hbefore
    · exact hcancelled (hcalm.trans hstoppers)
    · exact h.uncancelled (hcalm.trans hstoppers) t' hbefore

theorem remove {id : TaskId} (h : Evolves acting w w₁)
    (hid : id = acting ∨ (∀ t ∈ w.tasks, t.id = id → t.work.isLoop = false) ∨
      w₁.stoppers < w.stoppers) : Evolves acting w (w₁.remove id) := by
  have hstoppers := stoppers_remove_le w₁ id
  have hsub : ∀ t' ∈ (w₁.remove id).tasks, t' ∈ w₁.tasks := fun t' ht' => List.mem_of_mem_filter ht'
  refine ⟨h.config, h.runner, h.signal, h.next, h.numbered.remove id,
    hstoppers.trans h.stoppers, fun t' ht' => h.origin t' (hsub t' ht'),
    fun hcalm t ht hloop hne => ?_, fun hcalm t' ht' =>
      h.uncancelled (hcalm.trans hstoppers) t' (hsub t' ht')⟩
  obtain ⟨t', ht', hsame⟩ := List.mem_map.1 (h.kept (hcalm.trans hstoppers) t ht hloop hne)
  refine List.mem_map.2 ⟨t', List.mem_filter.2 ⟨ht', bne_iff_ne.2 fun hgone => ?_⟩, hsame⟩
  rcases hid with rfl | hnone | hfewer
  · exact hne (hsame.symm.trans hgone)
  · have hfalse := hnone t ht (hsame.symm.trans hgone)
    rw [hloop] at hfalse
    cases hfalse
  · exact absurd (hcalm.trans hstoppers) (not_le.2 hfewer)

theorem spawn (h : Evolves acting w w₁) (party : Party) (role : Role) (program : Program) :
    Evolves acting w (w₁.spawn party (.running role program)) := by
  have hstoppers : (w₁.spawn party (.running role program)).stoppers = w₁.stoppers := by
    show (w₁.tasks ++ [_]).countP _ = w₁.tasks.countP _
    rw [List.countP_append]
    rfl
  have hmem : ∀ t' ∈ (w₁.spawn party (.running role program)).tasks,
      t' ∈ w₁.tasks ∨ t' = .create w₁.nextTask party (.running role program) := fun t' ht' =>
    (List.mem_append.1 ht').imp_right List.mem_singleton.1
  refine ⟨h.config, h.runner, h.signal, h.next.trans (Nat.le_succ _), h.numbered.spawn party _,
    hstoppers.le.trans h.stoppers, fun t' ht' => ?_, fun hcalm t ht hloop hne => ?_,
    fun hcalm t' ht' hloop => ?_⟩
  · rcases hmem t' ht' with hbefore | rfl
    · exact (h.origin t' hbefore).imp_left fun ⟨t, ht, hfollows⟩ =>
        ⟨t, ht, hfollows.mono (Nat.le_succ _)⟩
    · exact .inr ⟨h.next, rfl, trivial, rfl⟩
  · show t.id ∈ (w₁.tasks ++ [_]).map Task.id
    rw [List.map_append]
    exact List.mem_append_left _ (h.kept (hstoppers ▸ hcalm) t ht hloop hne)
  · rcases hmem t' ht' with hbefore | rfl
    · exact h.uncancelled (hstoppers ▸ hcalm) t' hbefore hloop
    · cases hloop

theorem mark (h : Evolves acting w w₁) (ht : t ∈ w₁.tasks) (hid : t'.id = t.id)
    (hparty : t'.party = t.party) (hlimit : t'.limit = t.limit)
    (hbare : t'.work.bare = t.work.bare)
    (hcancelled : t'.cancelled = t.cancelled ∨ t.work.isLoop = false ∨
      w₁.stoppers < w.stoppers) : Evolves acting w (w₁.setTask t') := by
  have hbecomes : t.work.Becomes 0 0 t'.work := .of_bare hbare
  have hloop : t'.work.isLoop = t.work.isLoop := Work.isLoop_eq hbecomes.loop
  refine h.setTask ?_ (fun other hother hsame hstopping => ?_) fun hcalm hisloop hset => ?_
  · exact (h.origin t ht).imp (fun ⟨t₀, ht₀, hfollows⟩ =>
      ⟨t₀, ht₀, hfollows.mark hid hparty hlimit hbare⟩) fun hnew => hnew.mark hid hbare
  · rw [h.numbered.eq_of_id ht hother (hsame.trans hid)]
    rwa [← Work.isStopping_bare, hbare, Work.isStopping_bare] at hstopping
  · rw [hloop] at hisloop
    rcases hcancelled with hsame | hnone | hfewer
    · rw [hid]
      exact h.uncancelled hcalm t ht hisloop (hsame ▸ hset)
    · rw [hnone] at hisloop
      cases hisloop
    · exact absurd hcalm (not_le.2 hfewer)

/-! ### The task that acts goes on -/

theorem act (h : Evolves task.id w w₁) (htask : task ∈ w.tasks) (hid : t'.id = task.id)
    (hparty : t'.party = task.party) (hcancelled : t'.cancelled = task.cancelled)
    (hbecomes : task.work.Becomes w.nextTask w₁.nextTask t'.work)
    (hstop : t'.work.isStopping = false) : Evolves task.id w (w₁.setTask t') := by
  refine h.setTask (.inl ⟨task, htask, hid, hparty, hbecomes, fun hne => absurd rfl hne⟩)
    (fun t _ _ hstopping => ?_) fun _ _ hset => ⟨task, htask, hid.symm, hcancelled ▸ hset⟩
  rw [hstop] at hstopping
  cases hstopping

theorem go (h : Evolves task.id w w₁) (htask : task ∈ w.tasks) {work : Work}
    (hid : t'.id = task.id) (hparty : t'.party = task.party)
    (hcancelled : t'.cancelled = task.cancelled)
    (hbecomes : task.work.Becomes w.nextTask w₁.nextTask work)
    (hstop : work.isStopping = false) : Evolves task.id w (w₁.go t' work) := by
  have hset : Evolves task.id w (w₁.setTask { t' with work := work, limit := none, alarm := none }) :=
    h.act htask hid hparty hcancelled hbecomes hstop
  exact hset.frame ⟨rfl, rfl, rfl, rfl, rfl⟩

theorem yield (h : Evolves task.id w w₁) (htask : task ∈ w.tasks) {work : Work}
    (hid : t'.id = task.id) (hparty : t'.party = task.party)
    (hcancelled : t'.cancelled = task.cancelled)
    (hbecomes : task.work.Becomes w.nextTask w₁.nextTask work)
    (hstop : work.isStopping = false) : Evolves task.id w (w₁.yield t' work) := by
  have hset : Evolves task.id w (w₁.setTask { t' with work := work, limit := none, alarm := none }) :=
    h.act htask hid hparty hcancelled hbecomes hstop
  exact hset.frame (quiet_wake _ t'.id).toFrame

theorem rest (h : Evolves task.id w w₁) (htask : task ∈ w.tasks) {time : Nat}
    (hid : t'.id = task.id) (hparty : t'.party = task.party)
    (hcancelled : t'.cancelled = task.cancelled)
    (hbecomes : task.work.Becomes w.nextTask w₁.nextTask t'.work)
    (hstop : t'.work.isStopping = false) : Evolves task.id w (w₁.rest t' time) := by
  obtain ⟨alarm, hframe⟩ := exists_frame_rest w₁ t' time
  have hset : Evolves task.id w (w₁.setTask { t' with alarm := alarm }) :=
    h.act htask hid hparty hcancelled hbecomes hstop
  exact hset.frame hframe

/-! ### Ends -/

theorem abandon (h : Evolves acting w w₁)
    (hid : task.id = acting ∨ (∀ t ∈ w.tasks, t.id = task.id → t.work.isLoop = false) ∨
      w₁.stoppers < w.stoppers) : Evolves acting w (w₁.abandon task) := by
  have hremove := h.remove hid
  have hleft : Evolves acting w
      (if task.work.isLoop then w₁.removeLoop task.id else w₁.remove task.id) := by
    split
    · exact hremove.frame (quiet_wakeAll _ _).toFrame
    · exact hremove
  unfold World.abandon
  dsimp only
  generalize (if task.work.isLoop then w₁.removeLoop task.id else w₁.remove task.id) = left at hleft ⊢
  split
  · split
    · exact hleft.frame (frame_release left _ _)
    · exact hleft
  · exact hleft

theorem finish (h : Evolves acting w w₁)
    (hid : task.id = acting ∨ ∀ t ∈ w.tasks, t.id = task.id → t.work.isLoop = false)
    (role : Role) (ending : Ending) : Evolves acting w (w₁.finish task role ending) := by
  unfold World.finish
  cases role with
  | host => exact h.frame ⟨rfl, rfl, rfl, rfl, rfl⟩
  | handler owner =>
    have hremove : Evolves acting w (w₁.remove task.id) := h.remove (hid.imp_right .inl)
    dsimp only
    split
    · exact hremove
    · next t hfind =>
      have ht : t ∈ (w₁.remove task.id).tasks := List.mem_of_find?_eq_some hfind
      split
      · next trial sequel hwork =>
        split
        · have hmark : Evolves acting w ((w₁.remove task.id).setTask
              { t with work := .attempting { trial with ending := some ending } sequel }) :=
            hremove.mark ht rfl rfl rfl (by rw [hwork]; rfl) (.inl rfl)
          exact hmark.frame (quiet_wake _ owner).toFrame
        · exact hremove
      · exact hremove

theorem breakDown (h : Evolves acting w w₁) (hid : task.id = acting) (cause : Breakdown) :
    Evolves acting w (w₁.breakDown task cause) := by
  have habandon := h.abandon (.inl hid)
  unfold World.breakDown
  dsimp only
  split
  · exact habandon.finish (.inl hid) _ _
  · exact habandon

theorem cancelWith {stop : World → Task → World} (h : Evolves acting w w₁) (htask : task ∈ w₁.tasks)
    (hid : task.work.isLoop = false ∨ w₁.stoppers < w.stoppers)
    (hstop : Evolves acting w (stop w₁ task)) : Evolves acting w (World.cancelWith stop w₁ task) := by
  unfold World.cancelWith
  split
  · have hmark : Evolves acting w (w₁.setTask { task with cancelled := true, alarm := none }) :=
      h.mark htask rfl rfl rfl rfl (.inr hid)
    exact hmark.frame (quiet_wake _ task.id).toFrame
  · exact hstop

theorem foldl_cancelWith : ∀ {tasks : List Task} {w₁ : World}, Evolves acting w w₁ →
    (tasks.map Task.id).Nodup → (∀ t ∈ tasks, t ∈ w₁.tasks) → w₁.stoppers < w.stoppers →
    Evolves acting w (tasks.foldl (World.cancelWith World.abandon) w₁)
  | [], _, h, _, _, _ => h
  | task :: tasks, w₁, h, hids, hmem, hfewer => by
    obtain ⟨hnew, hrest⟩ := List.nodup_cons.1 hids
    have htask : task ∈ w₁.tasks := hmem task List.mem_cons_self
    have hleft : ∀ t ∈ tasks, t ∈ (World.cancelWith World.abandon w₁ task).tasks := fun t ht =>
      mem_cancelWith (hmem t (List.mem_cons_of_mem task ht)) fun heq =>
        hnew (heq ▸ List.mem_map_of_mem ht)
    have hnext := h.cancelWith htask (.inr hfewer) (h.abandon (.inr (.inr hfewer)))
    have hothers := foldl_cancelWith hnext hrest hleft
      ((stoppers_cancelWith_le h.numbered htask).trans_lt hfewer)
    exact hothers

theorem discard (h : Evolves acting w w₁) (htask : task ∈ w₁.tasks)
    (hid : task.id = acting ∨ (∀ t ∈ w.tasks, t.id = task.id → t.work.isLoop = false)) :
    Evolves acting w (w₁.discard task) := by
  have habandon : Evolves acting w (w₁.abandon task) := h.abandon (hid.imp_right .inl)
  unfold World.discard
  dsimp only
  split
  · next hstop =>
    exact habandon.foldl_cancelWith
      (habandon.numbered.nodup.sublist (List.filter_sublist.map Task.id))
      (fun t ht => List.mem_of_mem_filter ht)
      ((stoppers_abandon_lt htask hstop).trans_le h.stoppers)
  · exact habandon

theorem cancel {id : TaskId} (h : Evolves acting w w₁)
    (hid : ∀ t ∈ w.tasks, t.id = id → t.work.isLoop = false)
    (hleft : ∀ t ∈ w₁.tasks, t.id = id → t.work.isLoop = false) :
    Evolves acting w (w₁.cancel id) := by
  unfold World.cancel
  split
  · next task hfind =>
    obtain ⟨htask, rfl⟩ := mem_of_task? hfind
    exact h.cancelWith htask (.inl (hleft task htask rfl)) (h.discard htask (.inr hid))
  · exact h

end Evolves

end World

end JobQueue

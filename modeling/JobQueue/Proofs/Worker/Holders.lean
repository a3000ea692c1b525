import JobQueue.Proofs.Worker.Guards
import JobQueue.Proofs.Worker.Tasks

/-! # Tasks as holders of jobs in flight

A worker puts the job that it is granted into the set of its party and takes it out at the end of
its attempt, however it ends: its report is over, it breaks down, or it is dropped. So the tasks of
a party are holders like guards (`World.held`), and what a step does to a task it does to a holder.
The set and the holders are in a relation (`World.Related`); while a task acts, what it holds is
counted apart from the others (`World.Acts`).

* `World.held`: the jobs that the tasks of a party hold.
* `World.Like`: a change that touches neither tasks nor the set.
* `World.Acts.set`, `World.Acts.track`, `World.Acts.release`: a task goes on, gets a job, gives it
  up.
* `World.Acts.abandon`, `World.Acts.breakDown`, `World.Related.discard`: **ends in the middle.** -/

namespace JobQueue

/-- **The job that the work holds for the party**, from the answer to the claim to the end of the
report. -/
def Work.held? (party : Party) : Work → Option JobId
  | .attempting trial _ => if trial.party = party then trial.attempt.job?.map Job.id else none
  | _ => none

theorem Work.held?_of_job {party : Party} {trial : Trial} {job : Job}
    (sequel : Sequel (Except JobError Bool)) (h : trial.attempt.job? = some job) :
    (Work.attempting trial sequel).held? party =
      if trial.party = party then some job.id else none := by
  show (if trial.party = party then trial.attempt.job?.map Job.id else none) = _
  rw [h]
  rfl

theorem Work.held?_of_none {party : Party} {trial : Trial}
    (sequel : Sequel (Except JobError Bool)) (h : trial.attempt.job? = none) :
    (Work.attempting trial sequel).held? party = none := by
  show (if trial.party = party then trial.attempt.job?.map Job.id else none) = _
  rw [h]
  exact ite_self none

theorem InFlight.Stable.release_toList {P : InFlight → List JobId → Prop} (hP : Stable P)
    {jobs : InFlight} {own : Option JobId} {held : List JobId} (h : P jobs (own.toList ++ held)) :
    P (own.elim jobs jobs.release) held := by
  cases own with
  | none => exact h
  | some id => exact hP.release h

namespace World

/-- The jobs in flight of the party. -/
def inFlight (w : World) (party : Party) : InFlight := (w.site party).inFlight

/-- **The jobs that the tasks of the party hold.** -/
def held (w : World) (party : Party) : List JobId :=
  w.tasks.filterMap fun task => task.work.held? party

variable {party : Party} {w w' : World}

/-! ### Changes that touch no holder -/

/-- Tasks, their numbers and the set of the party are the same. -/
structure Like (party : Party) (w w' : World) : Prop where
  tasks : w'.tasks = w.tasks
  next : w'.nextTask = w.nextTask
  inFlight : w'.inFlight party = w.inFlight party

theorem Like.refl (party : Party) (w : World) : w.Like party w := ⟨rfl, rfl, rfl⟩

theorem Like.trans {w'' : World} (h : w.Like party w') (h' : w'.Like party w'') :
    w.Like party w'' :=
  ⟨h'.tasks.trans h.tasks, h'.next.trans h.next, h'.inFlight.trans h.inFlight⟩

theorem Like.of_eq (party : Party) (htasks : w'.tasks = w.tasks) (hnext : w'.nextTask = w.nextTask)
    (hdirect : w'.direct = w.direct) (hteam : w'.team = w.team) : w.Like party w' := by
  refine ⟨htasks, hnext, ?_⟩
  cases party with
  | direct => exact congrArg Site.inFlight hdirect
  | runner => exact congrArg Site.inFlight hteam

theorem like_go (party : Party) (w : World) (task : Task) (work : Work) :
    (w.setTask { task with work := work, limit := none, alarm := none }).Like party
      (w.go task work) :=
  .of_eq party rfl rfl rfl rfl

theorem like_wake (party : Party) (w : World) (id : TaskId) : w.Like party (w.wake id) := by
  unfold wake
  split <;> exact .of_eq party rfl rfl rfl rfl

theorem like_foldl_wake (party : Party) : ∀ (tasks : List Task) (w : World),
    w.Like party (tasks.foldl (fun w t => w.wake t.id) w)
  | [], w => .refl party w
  | task :: tasks, w => (like_wake party w task.id).trans (like_foldl_wake party tasks _)

theorem like_wakeAll (party : Party) (w : World) (condition : Task → Bool) :
    w.Like party (w.wakeAll condition) :=
  like_foldl_wake party _ w

theorem nextTask_setSite (w : World) (other : Party) (site : Site) :
    (w.setSite other site).nextTask = w.nextTask := by
  cases other <;> rfl

theorem like_setSite (party : Party) (w : World) {other : Party} {site : Site}
    (h : site.inFlight = w.inFlight other) : w.Like party (w.setSite other site) := by
  refine ⟨tasks_setSite w other site, nextTask_setSite w other site, ?_⟩
  cases party <;> cases other <;> first | rfl | exact h

theorem like_register (party : Party) (w : World) (other : Party) (jobType : JobType)
    (code : HandlerCode) : w.Like party (w.register other jobType code) :=
  like_setSite party w rfl

theorem like_signalShutdown (party : Party) (w : World) (other : Party) :
    w.Like party (w.signalShutdown other) := by
  have hsite : w.Like party (w.setSite other
      { w.site other with shutdown := (w.site other).shutdown.signal }) :=
    like_setSite party w rfl
  exact hsite.trans (like_wakeAll party _ _)

theorem inFlight_release (w : World) (other : Party) (id : JobId) :
    (w.release other id).inFlight party =
      if other = party then (w.inFlight party).release id else w.inFlight party := by
  cases party <;> cases other <;> rfl

theorem inFlight_track (w : World) (other : Party) (id : JobId) :
    (w.track other id).inFlight party =
      if other = party then (w.inFlight party).track id else w.inFlight party := by
  cases party <;> cases other <;> rfl

/-! ### Numbers of tasks -/

/-- **Tasks are told apart by their numbers**, and the next number is new. -/
structure Numbered (w : World) : Prop where
  nodup : (w.tasks.map Task.id).Nodup
  fresh : ∀ id ∈ w.tasks.map Task.id, id < w.nextTask

namespace Numbered

theorem of_sublist (h : w.Numbered) (hids : (w'.tasks.map Task.id).Sublist (w.tasks.map Task.id))
    (hnext : w'.nextTask = w.nextTask) : w'.Numbered := by
  refine ⟨h.nodup.sublist hids, fun id hid => ?_⟩
  rw [hnext]
  exact h.fresh id (hids.subset hid)

theorem of_ids (h : w.Numbered) (hids : w'.tasks.map Task.id = w.tasks.map Task.id)
    (hnext : w'.nextTask = w.nextTask) : w'.Numbered :=
  h.of_sublist (hids ▸ List.Sublist.refl _) hnext

theorem like (h : w.Numbered) (hlike : w.Like party w') : w'.Numbered :=
  h.of_ids (by rw [hlike.tasks]) hlike.next

theorem remove (h : w.Numbered) (id : TaskId) : (w.remove id).Numbered :=
  h.of_sublist (List.filter_sublist.map _) rfl

theorem setTask (h : w.Numbered) (task : Task) : (w.setTask task).Numbered :=
  h.of_ids (ids_setTask w task) rfl

theorem spawn (h : w.Numbered) (other : Party) (work : Work) : (w.spawn other work).Numbered := by
  have hids : (w.spawn other work).tasks.map Task.id = w.tasks.map Task.id ++ [w.nextTask] :=
    List.map_append
  constructor
  · rw [hids]
    refine List.nodup_append.2 ⟨h.nodup, List.nodup_singleton _, fun a ha b hb hab => ?_⟩
    have hlt := h.fresh a ha
    rw [hab, List.mem_singleton.1 hb] at hlt
    exact lt_irrefl _ hlt
  · rw [hids]
    intro id hid
    rcases List.mem_append.1 hid with hid | hid
    · exact (h.fresh id hid).trans (Nat.lt_succ_self _)
    · rw [List.mem_singleton.1 hid]
      exact Nat.lt_succ_self _

theorem eq_of_id (h : w.Numbered) {task other : Task} (htask : task ∈ w.tasks)
    (hother : other ∈ w.tasks) (hid : other.id = task.id) : other = task :=
  List.inj_on_of_nodup_map h.nodup hother htask hid

end Numbered

/-! ### The relation of set and holders -/

/-- **The set of the party and the jobs that its tasks hold are in the relation.** -/
structure Related (P : InFlight → List JobId → Prop) (party : Party) (w : World) : Prop where
  related : P (w.inFlight party) (w.held party)
  numbered : w.Numbered

/-- **One task acts**: the set is in the relation with the jobs that the others hold and the one
that this task holds, whatever is written of it. -/
structure Acts (P : InFlight → List JobId → Prop) (party : Party) (id : TaskId)
    (own : Option JobId) (w : World) : Prop where
  related : P (w.inFlight party) (own.toList ++ (w.remove id).held party)
  numbered : w.Numbered
  present : id ∈ w.tasks.map Task.id

theorem perm_held {task : Task} : ∀ {tasks : List Task}, (tasks.map Task.id).Nodup → task ∈ tasks →
    (tasks.filterMap fun t => t.work.held? party).Perm ((task.work.held? party).toList ++
      (tasks.filter fun t => t.id != task.id).filterMap fun t => t.work.held? party)
  | [], _, h => absurd h List.not_mem_nil
  | first :: rest, hids, h => by
    obtain ⟨hnew, hrest⟩ := List.nodup_cons.1 hids
    have hcons : ∀ tasks : List Task, (first :: tasks).filterMap (fun t => t.work.held? party) =
        (first.work.held? party).toList ++ tasks.filterMap fun t => t.work.held? party := by
      intro tasks
      rw [List.filterMap_cons]
      cases first.work.held? party <;> rfl
    rw [hcons]
    rcases List.mem_cons.1 h with rfl | hmem
    · have hothers : (task :: rest).filter (fun t => t.id != task.id) = rest := by
        rw [List.filter_cons_of_neg (by simp)]
        refine List.filter_eq_self.2 fun other hother => bne_iff_ne.2 fun heq => hnew ?_
        exact List.mem_map.2 ⟨other, hother, heq⟩
      rw [hothers]
    · have hne : first.id ≠ task.id := fun heq => hnew (heq ▸ List.mem_map_of_mem hmem)
      rw [List.filter_cons_of_pos (by simpa using hne), hcons]
      refine ((perm_held hrest hmem).append_left _).trans ?_
      rw [← List.append_assoc, ← List.append_assoc]
      exact List.perm_append_comm.append_right _

theorem held_eq (htasks : w'.tasks = w.tasks) : w'.held party = w.held party := by
  unfold held
  rw [htasks]

theorem held_remove_eq (htasks : w'.tasks = w.tasks) (id : TaskId) :
    (w'.remove id).held party = (w.remove id).held party :=
  held_eq (congrArg (List.filter _) htasks)

variable {P : InFlight → List JobId → Prop} {task : Task} {id : TaskId} {own : Option JobId}

theorem Related.like (h : w.Related P party) (hlike : w.Like party w') : w'.Related P party := by
  refine ⟨?_, h.numbered.like hlike⟩
  rw [hlike.inFlight, held_eq hlike.tasks]
  exact h.related

theorem Acts.like (h : w.Acts P party id own) (hlike : w.Like party w') :
    w'.Acts P party id own := by
  refine ⟨?_, h.numbered.like hlike, hlike.tasks ▸ h.present⟩
  rw [hlike.inFlight, held_remove_eq hlike.tasks]
  exact h.related

theorem held_setTask (h : w.Numbered) (hpresent : task.id ∈ w.tasks.map Task.id) :
    ((w.setTask task).held party).Perm
      ((task.work.held? party).toList ++ (w.remove task.id).held party) := by
  have hmem : task ∈ (w.setTask task).tasks := by
    obtain ⟨before, hbefore, hid⟩ := List.mem_map.1 hpresent
    exact List.mem_map.2 ⟨before, hbefore, if_pos hid⟩
  have hothers : ((w.setTask task).tasks.filter fun t => t.id != task.id) =
      (w.remove task.id).tasks := by
    show (w.tasks.map _).filter _ = w.tasks.filter _
    induction w.tasks with
    | nil => rfl
    | cons first rest ih =>
      by_cases hid : first.id = task.id
      · rw [List.map_cons, if_pos hid, List.filter_cons_of_neg (by simp),
          List.filter_cons_of_neg (by simpa using hid), ih]
      · rw [List.map_cons, if_neg hid, List.filter_cons_of_pos (by simpa using hid),
          List.filter_cons_of_pos (by simpa using hid), ih]
  have hperm : ((w.setTask task).held party).Perm ((task.work.held? party).toList ++
      ((w.setTask task).tasks.filter fun t => t.id != task.id).filterMap fun t =>
        t.work.held? party) := perm_held (h.setTask task).nodup hmem
  rw [hothers] at hperm
  exact hperm

section Stable

variable (hP : InFlight.Stable P)
include hP

theorem Related.acts (h : w.Related P party) (htask : task ∈ w.tasks) :
    w.Acts P party task.id (task.work.held? party) :=
  ⟨hP.perm h.related (perm_held h.numbered.nodup htask), h.numbered, List.mem_map_of_mem htask⟩

theorem Related.acts_of_none (h : w.Related P party) (htask : task ∈ w.tasks)
    (hheld : task.work.held? party = none) : w.Acts P party task.id none :=
  hheld ▸ h.acts hP htask

/-- **A task goes on** and holds what it held when it acted. -/
theorem Acts.set (h : w.Acts P party task.id own) (hown : task.work.held? party = own) :
    (w.setTask task).Related P party := by
  subst hown
  exact ⟨hP.perm h.related (held_setTask h.numbered h.present).symm, h.numbered.setTask task⟩

theorem Acts.go (h : w.Acts P party task.id own) {work : Work} (hown : work.held? party = own) :
    (w.go task work).Related P party := by
  refine Related.like ?_ (like_go party w task work)
  exact Acts.set hP h hown

theorem Acts.yield (h : w.Acts P party task.id own) {work : Work}
    (hown : work.held? party = own) : (w.yield task work).Related P party := by
  refine Related.like ?_ (like_wake party _ task.id)
  exact Acts.set hP h hown

theorem Acts.settle (h : w.Acts P party task.id own) (hown : task.work.held? party = own) :
    (w.settle task).Related P party := by
  show (w.setTask { task with alarm := none }).Related P party
  exact Acts.set hP h hown

theorem Acts.rest {time : Nat} (h : w.Acts P party task.id own)
    (hown : task.work.held? party = own) : (w.rest task time).Related P party := by
  have hset : ∀ alarm, (w.setTask { task with alarm := alarm }).Related P party :=
    fun alarm => Acts.set hP h hown
  unfold World.rest
  dsimp only
  split
  · exact hset task.alarm
  · exact (hset _).like (.of_eq party rfl rfl rfl rfl)

/-- **A task gives its job up**, if the job is of the party. -/
theorem Acts.release {other : Party} {jobId : JobId}
    (h : w.Acts P party id (if other = party then some jobId else none)) :
    (w.release other jobId).Acts P party id none := by
  have htasks : (w.release other jobId).tasks = w.tasks := tasks_setSite _ _ _
  refine ⟨?_, h.numbered.of_ids (by rw [htasks]) (nextTask_setSite w other _),
    htasks ▸ h.present⟩
  have hrelated := hP.release_toList h.related
  rw [inFlight_release, held_remove_eq htasks]
  split
  · next hparty => rwa [if_pos hparty] at hrelated
  · next hparty => rwa [if_neg hparty] at hrelated

omit hP in
/-- **A task gets a job**, if the job may be put into the set of the party. -/
theorem Acts.track {other : Party} {jobId : JobId} (h : w.Acts P party id none)
    (hgrant : other = party →
      P ((w.inFlight party).track jobId) (jobId :: (w.remove id).held party)) :
    (w.track other jobId).Acts P party id (if other = party then some jobId else none) := by
  have htasks : (w.track other jobId).tasks = w.tasks := tasks_setSite _ _ _
  refine ⟨?_, h.numbered.of_ids (by rw [htasks]) (nextTask_setSite w other _),
    htasks ▸ h.present⟩
  rw [inFlight_track, held_remove_eq htasks]
  split
  · next hparty => exact hgrant hparty
  · exact h.related

end Stable

/-! ### Tasks that come and go -/

theorem Related.setTask (h : w.Related P party)
    (hsame : ∀ t ∈ w.tasks, t.id = task.id → t.work.held? party = task.work.held? party) :
    (w.setTask task).Related P party := by
  have hheld : (w.setTask task).held party = w.held party := by
    show (w.tasks.map _).filterMap _ = w.tasks.filterMap _
    rw [List.filterMap_map]
    refine List.filterMap_congr fun t ht => ?_
    show (if t.id = task.id then task else t).work.held? party = t.work.held? party
    split
    · next hid => exact (hsame t ht hid).symm
    · rfl
  refine ⟨?_, h.numbered.setTask task⟩
  rw [hheld]
  exact h.related

theorem Related.remove (h : w.Related P party)
    (hnone : ∀ t ∈ w.tasks, t.id = id → t.work.held? party = none) :
    (w.remove id).Related P party := by
  have hheld : (w.remove id).held party = w.held party := by
    show (w.tasks.filter _).filterMap _ = w.tasks.filterMap _
    rw [List.filterMap_filter]
    refine List.filterMap_congr fun t ht => ?_
    split
    · rfl
    · next hid => exact (hnone t ht (by simpa using hid)).symm
  refine ⟨?_, h.numbered.remove id⟩
  rw [hheld]
  exact h.related

theorem Related.removeLoop (h : w.Related P party) (htask : task ∈ w.tasks)
    (hheld : task.work.held? party = none) : (w.removeLoop task.id).Related P party := by
  have hremove : (w.remove task.id).Related P party := h.remove fun t ht hid => by
    rw [h.numbered.eq_of_id htask ht hid]
    exact hheld
  exact hremove.like (like_wakeAll party _ _)

theorem Acts.spawn {other : Party} {work : Work} (h : w.Acts P party id own)
    (hnone : work.held? party = none) : (w.spawn other work).Acts P party id own := by
  have hne : w.nextTask ≠ id := (h.numbered.fresh id h.present).ne'
  have hheld : ((w.spawn other work).remove id).held party = (w.remove id).held party := by
    show ((w.tasks ++ [_]).filter _).filterMap _ = (w.tasks.filter _).filterMap _
    have hkept : [Task.create w.nextTask other work].filter (fun t => t.id != id) =
        [Task.create w.nextTask other work] := by
      simp [Task.create, hne]
    have hnew : [Task.create w.nextTask other work].filterMap (fun t => t.work.held? party) = [] :=
      List.filterMap_cons_none hnone
    rw [List.filter_append, List.filterMap_append, hkept, hnew, List.append_nil]
  refine ⟨?_, h.numbered.spawn other work, ?_⟩
  · rw [hheld]
    exact h.related
  · show id ∈ (w.tasks ++ [_]).map Task.id
    rw [List.map_append]
    exact List.mem_append_left _ h.present

/-! ### Ends in the middle -/

theorem inFlight_abandon (w : World) (task : Task) : (w.abandon task).inFlight party =
    (task.work.held? party).elim (w.inFlight party) (w.inFlight party).release := by
  have hleft : (if task.work.isLoop then w.removeLoop task.id
      else w.remove task.id).inFlight party = w.inFlight party := by
    split
    · exact (like_wakeAll party (w.remove task.id) _).inFlight
    · rfl
  unfold abandon
  dsimp only
  generalize (if task.work.isLoop then w.removeLoop task.id else w.remove task.id) = left at hleft ⊢
  cases task.work with
  | attempting trial sequel =>
    dsimp only
    cases hjob : trial.attempt.job? with
    | none =>
      rw [Work.held?_of_none sequel hjob]
      exact hleft
    | some job =>
      rw [Work.held?_of_job sequel hjob]
      dsimp only
      rw [inFlight_release, hleft]
      split <;> rfl
  | _ => exact hleft

theorem nextTask_abandon (w : World) (task : Task) : (w.abandon task).nextTask = w.nextTask := by
  have hleft : (if task.work.isLoop then w.removeLoop task.id else w.remove task.id).nextTask =
      w.nextTask := by
    split
    · exact (like_wakeAll .direct (w.remove task.id) _).next
    · rfl
  unfold abandon
  dsimp only
  generalize (if task.work.isLoop then w.removeLoop task.id else w.remove task.id) = left at hleft ⊢
  cases task.work with
  | attempting trial sequel =>
    dsimp only
    cases trial.attempt.job? with
    | none => exact hleft
    | some job => exact (nextTask_setSite left trial.party _).trans hleft
  | _ => exact hleft

theorem Acts.abandon (hP : InFlight.Stable P)
    (h : w.Acts P party task.id (task.work.held? party)) : (w.abandon task).Related P party := by
  have htasks := tasks_abandon w task
  refine ⟨?_, (h.numbered.remove task.id).of_ids (by rw [htasks]) (nextTask_abandon w task)⟩
  rw [inFlight_abandon, held_eq htasks]
  exact hP.release_toList h.related

theorem Related.finish (h : w.Related P party)
    (hnone : ∀ t ∈ w.tasks, t.id = task.id → t.work.held? party = none) (role : Role)
    (ending : Ending) : (w.finish task role ending).Related P party := by
  unfold World.finish
  cases role with
  | host => exact h.like (.of_eq party rfl rfl rfl rfl)
  | handler owner =>
    have hremove : (w.remove task.id).Related P party := h.remove hnone
    dsimp only
    split
    · exact hremove
    · next t hfind =>
      have hmem : t ∈ (w.remove task.id).tasks := List.mem_of_find?_eq_some hfind
      split
      · next trial sequel hwork =>
        split
        · refine (hremove.setTask fun other hother hid => ?_).like (like_wake party _ owner)
          rw [hremove.numbered.eq_of_id hmem hother hid, hwork]
          rfl
        · exact hremove
      · exact hremove

theorem Acts.breakDown (hP : InFlight.Stable P)
    {cause : Breakdown} (h : w.Acts P party task.id (task.work.held? party)) :
    (w.breakDown task cause).Related P party := by
  have habandon := Acts.abandon hP h
  have hgone : task.id ∉ (w.abandon task).tasks.map Task.id := by
    rw [tasks_abandon]
    exact not_mem_remove w task.id
  unfold World.breakDown
  dsimp only
  split
  · exact habandon.finish (fun t ht hid => absurd (hid ▸ List.mem_map_of_mem ht) hgone) _ _
  · exact habandon

/-! ### Ends by other tasks -/

/-- The tasks that are left were there, with the same work. -/
def Leaves (w w' : World) : Prop :=
  ∀ t ∈ w'.tasks, ∃ before ∈ w.tasks, before.id = t.id ∧ before.work = t.work

theorem Leaves.refl (w : World) : w.Leaves w := fun t ht => ⟨t, ht, rfl, rfl⟩

theorem Leaves.trans {w'' : World} (h : w.Leaves w') (h' : w'.Leaves w'') : w.Leaves w'' := by
  intro t ht
  obtain ⟨between, hbetween, hid, hwork⟩ := h' t ht
  obtain ⟨before, hbefore, hid', hwork'⟩ := h between hbetween
  exact ⟨before, hbefore, hid'.trans hid, hwork'.trans hwork⟩

theorem leaves_abandon (w : World) (task : Task) : w.Leaves (w.abandon task) := by
  intro t ht
  rw [tasks_abandon] at ht
  exact ⟨t, List.mem_of_mem_filter ht, rfl, rfl⟩

theorem Related.cancelWith {stop : World → Task → World} (h : w.Related P party)
    (htask : task ∈ w.tasks) (hstop : (stop w task).Related P party) :
    (cancelWith stop w task).Related P party := by
  unfold World.cancelWith
  split
  · refine (h.setTask fun t ht hid => ?_).like (like_wake party _ task.id)
    rw [h.numbered.eq_of_id htask ht hid]
  · exact hstop

theorem leaves_cancelWith {stop : World → Task → World} (htask : task ∈ w.tasks)
    (hstop : w.Leaves (stop w task)) : w.Leaves (cancelWith stop w task) := by
  unfold cancelWith
  split
  · intro t ht
    rw [tasks_wake] at ht
    obtain ⟨before, hbefore, rfl⟩ := List.mem_map.1 ht
    dsimp only
    split
    · exact ⟨task, htask, rfl, rfl⟩
    · exact ⟨before, hbefore, rfl, rfl⟩
  · exact hstop

theorem mem_cancelWith {other : Task} (hother : other ∈ w.tasks) (hid : other.id ≠ task.id) :
    other ∈ (cancelWith abandon w task).tasks := by
  unfold cancelWith
  split
  · rw [tasks_wake]
    exact List.mem_map.2 ⟨other, hother, if_neg hid⟩
  · rw [tasks_abandon]
    exact List.mem_filter.2 ⟨hother, bne_iff_ne.2 hid⟩

section Stable

variable (hP : InFlight.Stable P)
include hP

theorem Related.abandon (h : w.Related P party) (htask : task ∈ w.tasks) :
    (w.abandon task).Related P party :=
  (h.acts hP htask).abandon hP

theorem Related.foldl_abandon : ∀ {tasks : List Task} {w : World}, w.Related P party →
    (tasks.map Task.id).Nodup → (∀ t ∈ tasks, t ∈ w.tasks) →
    (tasks.foldl (World.cancelWith World.abandon) w).Related P party ∧
      w.Leaves (tasks.foldl (World.cancelWith World.abandon) w)
  | [], w, h, _, _ => ⟨h, .refl w⟩
  | task :: tasks, w, h, hids, hmem => by
    obtain ⟨hnew, hrest⟩ := List.nodup_cons.1 hids
    have htask : task ∈ w.tasks := hmem task List.mem_cons_self
    -- The others have other numbers, so they are still there, and as they were.
    have hleft : ∀ t ∈ tasks, t ∈ (World.cancelWith World.abandon w task).tasks := fun t ht =>
      mem_cancelWith (hmem t (List.mem_cons_of_mem task ht)) fun heq =>
        hnew (heq ▸ List.mem_map_of_mem ht)
    obtain ⟨hrelated, hleaves⟩ :=
      Related.foldl_abandon (h.cancelWith htask (h.abandon hP htask)) hrest hleft
    exact ⟨hrelated, (leaves_cancelWith htask (leaves_abandon w task)).trans hleaves⟩

/-- **A task is dropped**, and with one that waits for the loops these. -/
theorem Related.discard (h : w.Related P party) (htask : task ∈ w.tasks) :
    (w.discard task).Related P party ∧ w.Leaves (w.discard task) := by
  have habandon := h.abandon hP htask
  unfold World.discard
  dsimp only
  split
  · obtain ⟨hrelated, hleaves⟩ := habandon.foldl_abandon hP
      (habandon.numbered.nodup.sublist (List.filter_sublist.map Task.id))
      fun t ht => List.mem_of_mem_filter ht
    exact ⟨hrelated, (leaves_abandon w task).trans hleaves⟩
  · exact ⟨habandon, leaves_abandon w task⟩

theorem Related.cancel (h : w.Related P party) (id : TaskId) :
    (w.cancel id).Related P party ∧ w.Leaves (w.cancel id) := by
  unfold World.cancel
  split
  · next task hfind =>
    have htask : task ∈ w.tasks := List.mem_of_find?_eq_some hfind
    obtain ⟨hrelated, hleaves⟩ := h.discard hP htask
    exact ⟨h.cancelWith htask hrelated, leaves_cancelWith htask hleaves⟩
  · exact ⟨h, .refl w⟩

end Stable

end World

end JobQueue

import JobQueue.Proofs.Runner.Calls
import JobQueue.Proofs.Runner.Evolution

/-! # Moves that leave the runner alone

A task calls the runner when its program declares a queue, starts the runner or stops it. Every other
move leaves the runner as it is and its loops, but for the one that moves, alone.

* `Task.runnerCall?`: what a task is about to ask of the runner.
* `World.evolves_stepTask`: **every other move evolves the system.** -/

namespace JobQueue

/-- What the work is about to ask of the runner. -/
def Work.runnerCall? : Work → Option Runner.Call
  | .running _ (.perform (.addQueue queue) _) => some (.addQueue queue)
  | .running _ (.perform .start _) => some (.start .current)
  | .running _ (.stop _ _) => some .stop
  | _ => none

theorem Work.calls_of_runnerCall? {work : Work} {call : Runner.Call}
    (h : work.runnerCall? = some call) :
    (∃ role queue next, work = .running role (.perform (.addQueue queue) next) ∧
        call = .addQueue queue) ∨
      (∃ role next, work = .running role (.perform .start next) ∧ call = .start .current) ∨
      ∃ role timeout next, work = .running role (.stop timeout next) ∧ call = .stop := by
  unfold runnerCall? at h
  split at h
  · exact .inl ⟨_, _, _, rfl, (Option.some.inj h).symm⟩
  · exact .inr (.inl ⟨_, _, rfl, (Option.some.inj h).symm⟩)
  · exact .inr (.inr ⟨_, _, _, rfl, (Option.some.inj h).symm⟩)
  · cases h

/-- **What the next move of the task asks of the runner.** -/
def Task.runnerCall? (task : Task) : Option Runner.Call :=
  if task.cancelled then none else task.work.runnerCall?

theorem Task.runnerCall?_eq_some_iff {task : Task} {call : Runner.Call} :
    task.runnerCall? = some call ↔ task.cancelled = false ∧ task.work.runnerCall? = some call := by
  unfold Task.runnerCall?
  cases task.cancelled <;> simp

namespace World

variable {w w₁ : World} {first last : TaskId} {task : Task}

/-! ### Bounded calls -/

theorem Evolves.await (h : Evolves task.id w w₁) (htask : task ∈ w.tasks)
    (hstop : task.work.isStopping = false) {call : Call} {limit : Duration}
    {next : call.Outcome → World → World}
    (hnext : ∀ outcome left, Evolves task.id w left → Evolves task.id w (next outcome left)) :
    Evolves task.id w (w₁.await task call limit next) := by
  have hrecord : Evolves task.id w (w₁.record call) := h.frame ⟨rfl, rfl, rfl, rfl, rfl⟩
  have hinvoke := hrecord.frame (quiet_invoke (w₁.record call) call).toFrame
  unfold World.await
  split
  · split
    · exact hnext _ _ h
    · exact h.rest htask rfl rfl rfl (.refl _) hstop
  · dsimp only
    split
    · split
      · exact hnext _ _ hrecord
      · exact hrecord.rest htask rfl rfl rfl (.refl _) hstop
    · generalize ((w₁.record call).invoke call).1 = outcome
      split
      · exact hinvoke.breakDown rfl _
      · exact hnext _ _ hinvoke

/-! ### Workers -/

section Workers

variable {trial : Trial} {sequel : Sequel (Except JobError Bool)}

theorem becomes_move (attempt : Attempt) : (Work.attempting trial sequel).Becomes first last
    (.attempting (trial.move attempt) sequel) :=
  .of_none rfl id rfl

theorem Evolves.startHandler (h : Evolves task.id w w₁) (htask : task ∈ w.tasks)
    (hwork : task.work = .attempting trial sequel) (job : Job) (code : HandlerCode) :
    Evolves task.id w (w₁.startHandler task trial job code sequel) := by
  unfold World.startHandler
  dsimp only
  split
  · refine h.breakDown ?_ _
    rfl
  · split
    · exact h.go htask rfl rfl rfl (hwork ▸ becomes_move _) rfl
    · refine (h.spawn _ _ _).rest htask rfl rfl rfl ⟨?_, fun howned => ?_, fun id hid => .inr ?_⟩ rfl
      · rw [hwork]
        rfl
      · rw [hwork] at howned
        exact howned
      · obtain rfl := Option.some.inj hid
        exact ⟨h.next, Nat.lt_succ_self _⟩

theorem Evolves.claimAnswered (h : Evolves task.id w w₁) (htask : task ∈ w.tasks)
    (hwork : task.work = .attempting trial sequel) (answer : Except JobError (Option Job)) :
    Evolves task.id w (w₁.claimAnswered task trial sequel answer) := by
  have htracked : ∀ id, Evolves task.id w (w₁.track trial.party id) := fun id =>
    h.frame (frame_track w₁ trial.party id)
  have hgo : ∀ {left : World} (attempt : Attempt), Evolves task.id w left →
      Evolves task.id w (left.go task (.attempting (trial.move attempt) sequel)) :=
    fun attempt hleft => hleft.go htask rfl rfl rfl (hwork ▸ becomes_move _) rfl
  unfold World.claimAnswered
  dsimp only
  generalize Worker.afterClaim _ answer = attempt
  cases attempt with
  | handling job =>
    dsimp only [Attempt.job?]
    split
    · exact (htracked job.id).startHandler htask hwork job _
    · exact hgo _ (htracked job.id)
  | reporting job report => exact hgo _ (htracked job.id)
  | claiming => exact hgo _ h
  | finished claimed => exact hgo _ h

variable (hsound : w.Sound) (htask : task ∈ w.tasks)
include hsound htask

theorem evolves_stepHandling (hwork : task.work = .attempting trial sequel) (job : Job) :
    Evolves task.id w (w.stepHandling task trial job sequel) := by
  have hrefl : Evolves task.id w w := .refl hsound.numbered
  have hstop : task.work.isStopping = false := by
    rw [hwork]
    rfl
  have hgo : ∀ {left : World} (attempt : Attempt), Evolves task.id w left →
      Evolves task.id w (left.go task (.attempting (trial.move attempt) sequel)) :=
    fun attempt hleft => hleft.go htask rfl rfl rfl (hwork ▸ becomes_move _) rfl
  unfold World.stepHandling
  dsimp only
  split
  · exact hgo _ hrefl
  · split
    · refine hgo _ ?_
      cases hhandler : trial.handler with
      | none => exact hrefl
      | some handler =>
        obtain ⟨-, hnone⟩ := hsound.handlers task htask handler (by rw [hwork]; exact hhandler)
        exact hrefl.cancel hnone hnone
    · exact hrefl.rest htask rfl rfl rfl (.refl _) hstop
  · exact hrefl.act htask rfl rfl rfl (.refl _) hstop

theorem evolves_stepAttempting (hwork : task.work = .attempting trial sequel) :
    Evolves task.id w (w.stepAttempting task trial sequel) := by
  have hrefl : Evolves task.id w w := .refl hsound.numbered
  have hstop : task.work.isStopping = false := by
    rw [hwork]
    rfl
  unfold World.stepAttempting
  dsimp only
  cases trial.attempt with
  | claiming =>
    exact hrefl.await htask hstop fun outcome left hleft =>
      hleft.claimAnswered htask hwork outcome
  | handling job => exact evolves_stepHandling hsound htask hwork job
  | reporting job report =>
    exact hrefl.await htask hstop fun _ left hleft =>
      (hleft.frame (frame_release left _ _)).go htask rfl rfl rfl (hwork ▸ becomes_move _) rfl
  | finished claimed =>
    cases sequel with
    | loop ticker => exact hrefl.go htask rfl rfl rfl (hwork ▸ .of_none rfl (fun _ => trivial) rfl) rfl
    | program role next =>
      exact hrefl.go htask rfl rfl rfl (hwork ▸ .of_none rfl (fun _ => trivial) rfl) rfl

/-! ### Loops that wait, and cleanup -/

omit htask in
theorem evolves_removeLoop : Evolves task.id w (w.removeLoop task.id) :=
  ((Evolves.refl hsound.numbered).remove (.inl rfl)).frame (quiet_wakeAll _ _).toFrame

theorem evolves_stepPolling {worker : Worker} {ticker : Ticker}
    (hwork : task.work = .polling worker ticker) :
    Evolves task.id w (w.stepPolling task worker ticker) := by
  have hrefl : Evolves task.id w w := .refl hsound.numbered
  have hparty : task.party = .runner := hsound.party task htask (by rw [hwork]; rfl)
  unfold World.stepPolling
  split
  · exact evolves_removeLoop hsound
  · split
    · refine hrefl.go htask rfl rfl rfl (.of_none ?_ (fun _ => ?_) rfl) rfl
      · rw [hwork]
        rfl
      · exact iff_of_true hparty rfl
    · exact hrefl.rest htask rfl rfl rfl (.refl _) (by rw [hwork]; rfl)

theorem evolves_stepIdling {ticker : Ticker} (hwork : task.work = .idling ticker) :
    Evolves task.id w (w.stepIdling task ticker) := by
  have hrefl : Evolves task.id w w := .refl hsound.numbered
  unfold World.stepIdling
  split
  · exact evolves_removeLoop hsound
  · split
    · exact hrefl.go htask rfl rfl rfl (hwork ▸ .of_none rfl (fun _ => trivial) rfl) rfl
    · exact hrefl.rest htask rfl rfl rfl (.refl _) (by rw [hwork]; rfl)

theorem evolves_stepCleaning {pass : CleanupPass} {sequel : Sequel CleanupReport}
    (hwork : task.work = .cleaning pass sequel) :
    Evolves task.id w (w.stepCleaning task pass sequel) := by
  have hrefl : Evolves task.id w w := .refl hsound.numbered
  have hstop : task.work.isStopping = false := by
    rw [hwork]
    rfl
  have hadvance : ∀ (left : World) (made : Except Breakdown CleanupPass),
      Evolves task.id w left → Evolves task.id w (left.advancePass task sequel made) :=
    fun left made hleft => by
      cases made with
      | ok pass => exact hleft.go htask rfl rfl rfl (hwork ▸ .of_none rfl id rfl) rfl
      | error cause => exact hleft.breakDown rfl cause
  unfold World.stepCleaning
  dsimp only
  split
  · exact hrefl.await htask hstop fun outcome left hleft => hadvance left _ hleft
  · split
    · exact hrefl.breakDown rfl _
    · exact hrefl.await htask hstop fun outcome left hleft => hadvance left _ hleft
  · cases sequel with
    | loop ticker => exact hrefl.go htask rfl rfl rfl (hwork ▸ .of_none rfl (fun _ => trivial) rfl) rfl
    | program role next =>
      exact hrefl.go htask rfl rfl rfl (hwork ▸ .of_none rfl (fun _ => trivial) rfl) rfl

end Workers

/-! ### Programs -/

section Programs

variable {role : Role} {program : Program}

theorem becomes_running (hwork : task.work = .running role program) (next : Program) :
    task.work.Becomes first last (.running role next) :=
  hwork ▸ .of_none rfl (fun _ => trivial) rfl

variable (hsound : w.Sound) (htask : task ∈ w.tasks) (hwork : task.work = .running role program)
include hsound htask hwork

theorem evolves_stepPause (time : Duration) (next : Program) :
    Evolves task.id w (w.stepPause task role time next) := by
  have hrefl : Evolves task.id w w := .refl hsound.numbered
  have hstop : task.work.isStopping = false := by
    rw [hwork]
    rfl
  have hgo := hrefl.go htask rfl rfl rfl (becomes_running hwork next) rfl
  unfold World.stepPause
  split
  · split
    · exact hgo
    · exact hrefl.rest htask rfl rfl rfl (.refl _) hstop
  · dsimp only
    split
    · exact hgo
    · exact hrefl.rest htask rfl rfl rfl (.refl _) hstop

theorem evolves_stepAwaitStatus (id : JobId) (status : Status) (limit : Duration)
    (next : Bool → Program) :
    Evolves task.id w (w.stepAwaitStatus task role id status limit next) := by
  have hlook : Evolves task.id w (w.hasStatus id status).2 :=
    (Evolves.refl hsound.numbered).frame (quiet_hasStatus w id status).toFrame
  have hstop : task.work.isStopping = false := by
    rw [hwork]
    rfl
  unfold World.stepAwaitStatus
  dsimp only
  generalize w.hasStatus id status = found at hlook ⊢
  split
  · exact hlook.breakDown rfl _
  · exact hlook.go htask rfl rfl rfl (becomes_running hwork _) rfl
  · split
    · exact hlook.go htask rfl rfl rfl (becomes_running hwork _) rfl
    · exact hlook.rest htask rfl rfl rfl (.refl _) hstop

theorem evolves_stepCommand {command : Command} (next : Answer → Program)
    (hstart : command ≠ .start) (hqueue : ∀ queue, command ≠ .addQueue queue) :
    Evolves task.id w (w.stepCommand task role command next) := by
  have hexecute : Evolves task.id w (w.execute command).world :=
    (Evolves.refl hsound.numbered).frame (quiet_execute w hstart hqueue).toFrame
  unfold World.stepCommand
  generalize w.execute command = progress at hexecute ⊢
  split
  · split
    · exact hexecute.breakDown rfl _
    · exact hexecute.go htask rfl rfl rfl (becomes_running hwork _) rfl
  · exact hexecute.go htask rfl rfl rfl (becomes_running hwork _) rfl
  · exact hexecute.act htask rfl rfl rfl (becomes_running hwork _) rfl
  · exact hexecute.go htask rfl rfl rfl (becomes_running hwork _) rfl

theorem evolves_stepUpgrade (upgrade : Sql.Upgrade) (next : Answer → Program) :
    Evolves task.id w (w.stepUpgrade task role upgrade next) := by
  have hrefl : Evolves task.id w w := .refl hsound.numbered
  unfold World.stepUpgrade
  split
  · exact hrefl.go htask rfl rfl rfl (becomes_running hwork _) rfl
  · next store _ =>
    have hstore : Evolves task.id w
        { w with store := .sql { store with connection := (upgrade.step store.connection).2 } } :=
      hrefl.frame ⟨rfl, rfl, rfl, rfl, rfl⟩
    dsimp only
    split
    · exact hstore.go htask rfl rfl rfl (becomes_running hwork _) rfl
    · exact hstore.yield htask rfl rfl rfl (becomes_running hwork _) rfl

end Programs

theorem evolves_stepStopping {role : Role} {next : Answer → Program} (hsound : w.Sound)
    (htask : task ∈ w.tasks) (hwork : task.work = .stopping role next) :
    Evolves task.id w (w.stepStopping task role next) := by
  have hrefl : Evolves task.id w w := .refl hsound.numbered
  have hgo : ∀ answer, Evolves task.id w (w.go task (.running role (next answer))) := fun answer =>
    hrefl.go htask rfl rfl rfl (hwork ▸ .of_none rfl (fun _ => trivial) rfl) rfl
  have hwait : ∀ alarm, Evolves task.id w (w.setTask { task with alarm := alarm }) := fun alarm => by
    refine hrefl.setTask (.inl ⟨task, htask, rfl, rfl, .refl _, fun hne => absurd rfl hne⟩)
      (fun t ht hid hstop => ?_) fun _ _ hset => ⟨task, htask, rfl, hset⟩
    rw [hsound.numbered.eq_of_id htask ht hid]
    exact hstop
  unfold World.stepStopping
  split
  · exact hgo _
  · split
    · next time _ =>
      split
      · exact hgo _
      · obtain ⟨alarm, hframe⟩ := exists_frame_rest w task time
        exact (hwait alarm).frame hframe
    · exact hwait none

/-! ### Moves -/

theorem stepTask_running {role : Role} {program : Program} (hcancelled : task.cancelled = false)
    (hwork : task.work = .running role program) :
    w.stepTask task = w.stepProgram task role program := by
  unfold stepTask
  rw [hcancelled, hwork]
  rfl

section Moves

variable (hsound : w.Sound) (htask : task ∈ w.tasks)
include hsound htask

theorem evolves_stepProgram {role : Role} {program : Program}
    (hwork : task.work = .running role program) (hcall : task.work.runnerCall? = none) :
    Evolves task.id w (w.stepProgram task role program) := by
  have hrefl : Evolves task.id w w := .refl hsound.numbered
  have hgo : ∀ next, Evolves task.id w (w.go task (.running role next)) := fun next =>
    hrefl.go htask rfl rfl rfl (becomes_running hwork next) rfl
  have hsettle : Evolves task.id w (w.settle task) :=
    hrefl.act htask rfl rfl rfl (.refl _) (by rw [hwork]; rfl)
  rw [hwork] at hcall
  unfold World.stepProgram
  dsimp only
  cases program with
  | finish ending => exact hrefl.finish (.inl rfl) role ending
  | perform command next =>
    refine evolves_stepCommand hsound htask hwork next ?_ fun queue => ?_
    · rintro rfl
      cases hcall
    · rintro rfl
      cases hcall
  | register party jobType code next =>
    exact (hrefl.frame (quiet_register w party jobType code).toFrame).go htask rfl rfl rfl
      (becomes_running hwork next) rfl
  | checkShutdown next => exact hgo _
  | pause time next => exact evolves_stepPause hsound htask hwork time next
  | awaitShutdown next =>
    dsimp only
    split
    · exact hgo next
    · exact hsettle
  | pauseUnlessShutdown time onTime onShutdown =>
    dsimp only
    split
    · exact hgo onShutdown
    · exact evolves_stepPause hsound htask hwork time onTime
  | awaitStatus id status limit next =>
    exact evolves_stepAwaitStatus hsound htask hwork id status limit next
  | attempt queue worker next =>
    dsimp only
    split
    · exact hrefl.breakDown rfl _
    · refine hrefl.go htask rfl rfl rfl (hwork ▸ .of_none rfl (fun _ => ?_) rfl) rfl
      exact iff_of_false nofun nofun
  | cleanup next =>
    exact hrefl.go htask rfl rfl rfl (hwork ▸ .of_none rfl (fun _ => trivial) rfl) rfl
  | upgrade upgrade next => exact evolves_stepUpgrade hsound htask hwork upgrade next
  | stop timeout next => cases hcall
  | log entry next =>
    have hlogged : Evolves task.id w { w with log := entry :: w.log } :=
      hrefl.frame ⟨rfl, rfl, rfl, rfl, rfl⟩
    exact hlogged.go htask rfl rfl rfl (becomes_running hwork next) rfl
  | stuck => exact hsettle

/-- **A move that does not call the runner.** -/
theorem evolves_stepTask (hcall : task.runnerCall? = none) :
    Evolves task.id w (w.stepTask task) := by
  unfold Task.runnerCall? at hcall
  unfold World.stepTask
  split
  · exact (Evolves.refl hsound.numbered).discard htask (.inl rfl)
  · next hcancelled =>
    rw [if_neg hcancelled] at hcall
    split
    · next hwork => exact evolves_stepPolling hsound htask hwork
    · next hwork => exact evolves_stepAttempting hsound htask hwork
    · next hwork => exact evolves_stepIdling hsound htask hwork
    · next hwork => exact evolves_stepCleaning hsound htask hwork
    · next hwork => exact evolves_stepProgram hsound htask hwork hcall
    · next hwork => exact evolves_stepStopping hsound htask hwork

end Moves

end World

end JobQueue

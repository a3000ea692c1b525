import JobQueue.Proofs.Runner.Debts

/-! # Calls with a limit

Workers and cleanup passes wait for the store only so long. Here is everything that may become of a
call of theirs, in a single statement; whoever makes such calls needs only say what each case means.

* `World.Bounded`: the cases. `World.bounded_await`: **there are no others.**
* `World.task?_jump`: a task when time has passed. -/

namespace JobQueue.World

variable {w : World} {task t : Task} {call : Call} {limit : Duration}
  {next : call.Outcome → World → World}

/-- The world after a call: it is recorded, and the store has made it. -/
def called (w : World) (call : Call) : World :=
  { w.record call with store := (w.store.run call w.now).2 }

/-- **What becomes of a call with a limit.** -/
inductive Bounded (w : World) (task : Task) (call : Call) (limit : Duration)
    (next : call.Outcome → World → World) : World → Prop
  /-- It was made before, and its time is over. -/
  | late {time : Nat} (hlimit : task.limit = some time) (hover : time ≤ w.nanos) :
      Bounded w task call limit next (next (.error (call.timeout limit)) w)
  /-- It was made before, and there is time left. -/
  | waiting {time : Nat} (hlimit : task.limit = some time) (hleft : w.nanos < time) :
      Bounded w task call limit next (w.rest task time)
  /-- It is made without an answer, and has no time. -/
  | timeless (hlimit : task.limit = none) (hstalled : w.isStalled call = true) :
      Bounded w task call limit next (next (.error (call.timeout limit)) (w.record call))
  /-- It is made without an answer, and has time. -/
  | stalled (hlimit : task.limit = none) (hstalled : w.isStalled call = true) :
      Bounded w task call limit next
        ((w.record call).rest { task with limit := some (w.after limit) } (w.after limit))
  /-- It breaks down. -/
  | broken (hlimit : task.limit = none) (hmade : w.isStalled call = false) {cause : Breakdown}
      (hanswer : (w.store.run call w.now).1 = .error (.breakdown cause)) :
      Bounded w task call limit next ((w.called call).breakDown task cause)
  /-- It is answered. -/
  | answered (hlimit : task.limit = none) (hmade : w.isStalled call = false)
      (hanswer : ∀ cause, (w.store.run call w.now).1 ≠ .error (.breakdown cause)) :
      Bounded w task call limit next (next (w.store.run call w.now).1 (w.called call))

theorem bounded_await (w : World) (task : Task) (call : Call) (limit : Duration)
    (next : call.Outcome → World → World) :
    Bounded w task call limit next (w.await task call limit next) := by
  unfold await
  split
  · next time hlimit =>
    split
    · next hover => exact .late hlimit hover
    · next hleft => exact .waiting hlimit (not_le.1 hleft)
  · next hlimit =>
    dsimp only
    split
    · next hstalled =>
      split
      · exact .timeless hlimit hstalled
      · exact .stalled hlimit hstalled
    · next hmade =>
      have hmade : w.isStalled call = false := Bool.eq_false_iff.2 hmade
      split
      · next cause heq => exact .broken hlimit hmade heq
      · next hanswer => exact .answered hlimit hmade hanswer

/-! ### Time passes -/

theorem task?_jump {id : TaskId} (h : w.task? id = some t) (time : Nat) :
    ∃ alarm, (w.jump time).task? id = some { t with alarm := alarm } := by
  let pass (t : Task) : Task :=
    if t.alarm.any fun a => a.1 ≤ time then { t with alarm := none } else t
  have hpass : ∀ t, ∃ alarm, pass t = { t with alarm := alarm } := fun t => by
    unfold pass
    split
    · exact ⟨none, rfl⟩
    · exact ⟨t.alarm, rfl⟩
  have hsame : (fun t : Task => t.id == id) ∘ pass = fun t => t.id == id := by
    funext t
    obtain ⟨alarm, heq⟩ := hpass t
    rw [Function.comp_apply, heq]
  obtain ⟨alarm, heq⟩ := hpass t
  refine ⟨alarm, ?_⟩
  show (w.tasks.map pass).find? _ = _
  rw [List.find?_map, hsame, show w.tasks.find? _ = _ from h, Option.map_some, heq]

theorem le_nanos_jump (w : World) (time : Nat) : time ≤ (w.jump (ceilMillis time)).nanos := by
  show time ≤ max w.elapsed (ceilMillis time) * nanosPerMilli
  unfold ceilMillis nanosPerMilli
  omega

theorem now_jump_nonneg (h : 0 ≤ w.now) (time : Nat) : 0 ≤ (w.jump time).now := by
  show 0 ≤ w.clock.now (max w.elapsed time)
  unfold World.now Clock.now at h
  unfold Clock.now
  cases hclock : w.clock with
  | manual now =>
    rw [hclock] at h
    exact h
  | running start =>
    rw [hclock] at h
    dsimp only at h ⊢
    omega

end JobQueue.World

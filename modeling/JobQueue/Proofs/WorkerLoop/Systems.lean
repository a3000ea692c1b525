import JobQueue.Proofs.Runner.Drain
import JobQueue.Proofs.WorkerLoop.Moves

/-! # The worker loops of a system

The loops of a runner are tasks among others, which a system serves in an order of its own. Whatever
the order, and whatever else occurs, what a loop does is a run of a worker loop (`WorkerLoop.Run`), with
the ticks that it takes, the calls that it makes and the jobs that it is granted. A loop is gone when its
run is over, or when it was dropped from outside, for which nobody may be in charge of the loops any
more.

* `WorkerLoop.Deeds`, `World.deedsOf`: ticks, calls and grants.
* `World.Loops`: the invariant. `World.Loops.occur`: **what one occurrence preserves**;
  `World.Loops.through`: what a run preserves.
* `worker_loop_safety`: **the loops of a runner are safe.**
* `worker_loop_breaks`: the loop that is granted a job beyond count. -/

namespace JobQueue.WorkerLoop

/-- **What a loop does**, as far as others see it: the calls that it makes and the jobs that it is
granted, the latest first, and the number of ticks that it takes. -/
structure Deeds where
  calls : List Call
  granted : List Job
  ticks : Nat

namespace Deeds

def none : Deeds := ⟨[], [], 0⟩

/-- These after those. -/
def after (later earlier : Deeds) : Deeds :=
  ⟨later.calls ++ earlier.calls, later.granted ++ earlier.granted, later.ticks + earlier.ticks⟩

/-- What a loop does in a run. -/
def of (worker : Worker) (events : List Event) : Deeds :=
  ⟨callsIn worker events, grantsIn events, ticksIn events⟩

theorem of_append (worker : Worker) (later earlier : List Event) :
    of worker (later ++ earlier) = (of worker later).after (of worker earlier) := by
  unfold of callsIn grantsIn ticksIn after
  rw [List.filterMap_append, List.filterMap_append, List.countP_append]

end Deeds

end JobQueue.WorkerLoop

namespace JobQueue.World

open WorkerLoop

variable {w w₁ : World} {acting id : TaskId} {task : Task} {worker : Worker} {initial : Shutdown}
  {events : List WorkerLoop.Event} {point : Point}

/-- **A loop that does not act stays where it is**, unless it is dropped. -/
theorem Evolves.at (h : Evolves acting w w₁) (hsound : w.Sound) (hknown : id < w.nextTask)
    (hne : id ≠ acting) (hplace : At w id worker point) : At w₁ id worker point := by
  refine ⟨fun t' hfind' => ?_, fun hnone hcharge => ?_⟩
  · obtain ⟨ht', rfl⟩ := mem_of_task? hfind'
    rcases h.origin t' ht' with ⟨t, ht, hfollows⟩ | hnew
    · obtain ⟨hlimit, hbare⟩ := hfollows.bystander fun hacts => hne (hfollows.id.trans hacts)
      have hfind : w.task? t'.id = some t := hfollows.id ▸ hsound.numbered.task? ht
      exact (hplace.stands t hfind).of_bare hlimit hbare
    · exact absurd hnew.fresh (not_le.2 hknown)
  · cases hfind : w.task? id with
    | none => exact hplace.gone hfind (hcharge.trans_le h.inCharge_le)
    | some t =>
      obtain ⟨ht, rfl⟩ := mem_of_task? hfind
      have hkept := h.kept (h.stoppers_le hsound hcharge) t ht (hplace.stands t hfind).isLoop hne
      obtain ⟨t', ht', hid⟩ := List.mem_map.1 hkept
      rw [← hid, h.numbered.task? ht'] at hnone
      cases hnone

/-! ### What occurs -/

/-- **What the loop has done is a run**, and the system is as after it. -/
structure Loops (w : World) (id : TaskId) (worker : Worker) (initial : Shutdown)
    (events : List WorkerLoop.Event) (point : Point) : Prop where
  run : Run worker initial events point
  signal : w.team.shutdown = signalAfter initial events
  known : id < w.nextTask
  place : At w id worker point

/-- **What a loop does in what occurs**, which is something in its own moves only. -/
def deedsBy (w : World) (id : TaskId) : Occurrence → Deeds
  | .serve served =>
    if served = id then
      let calls := (w.occur (.serve id)).calls
      ⟨calls.take (calls.length - w.calls.length), ((w.grant? id).map Prod.snd).toList,
        (takesTick w id).toNat⟩
    else .none
  | _ => .none

theorem deedsBy_of_ne {occurrence : Occurrence} (h : occurrence ≠ .serve id) :
    w.deedsBy id occurrence = .none := by
  cases occurrence with
  | serve served => exact if_neg fun heq => h (congrArg Occurrence.serve heq)
  | _ => rfl

theorem deedsBy_serve {calls : List Call} (h : (w.occur (.serve id)).calls = calls ++ w.calls) :
    w.deedsBy id (.serve id) =
      ⟨calls, ((w.grant? id).map Prod.snd).toList, (takesTick w id).toNat⟩ := by
  have hnew : (w.occur (.serve id)).calls.take
      ((w.occur (.serve id)).calls.length - w.calls.length) = calls := by
    rw [h, List.length_append, Nat.add_sub_cancel, List.take_left]
  refine (if_pos rfl).trans ?_
  rw [hnew]

theorem deedsBy_of_cancelled (h : ∀ t, w.task? id = some t → t.cancelled = true)
    (hcalls : (w.occur (.serve id)).calls = w.calls) : w.deedsBy id (.serve id) = .none := by
  have hgrant : w.grant? id = none := grant?_eq_none fun t ht hkept => by
    rw [h t ht] at hkept
    cases hkept
  have htick : takesTick w id = false := takesTick_eq_false fun t ht hkept => by
    rw [h t ht] at hkept
    cases hkept
  have hnothing : (w.occur (.serve id)).calls = [] ++ w.calls := hcalls
  rw [deedsBy_serve hnothing, hgrant, htick]
  rfl

theorem Loops.evolves (h : w.Loops id worker initial events point) (hevolves : Evolves acting w w₁)
    (hsound : w.Sound) (hne : id ≠ acting) : w₁.Loops id worker initial events point :=
  ⟨h.run, hevolves.signal.trans h.signal, h.known.trans_le hevolves.next,
    hevolves.at hsound h.known hne h.place⟩

/-- **What the runner does** leaves a loop where it is; it may give the signal. -/
theorem Loops.askedIn (h : w.Loops id worker initial events point) (hsound : w.Sound)
    (hstarted : w.started = true) {occurrence : Occurrence} (hne : occurrence ≠ .serve id) :
    ∃ more, Deeds.of worker more = .none ∧
      (w.askedIn occurrence).Loops id worker initial (more ++ events) point := by
  rcases w.requestIn occurrence with ⟨-, hsame⟩ | ⟨task, htask, rfl, hrequest⟩
  · rw [hsame]
    exact ⟨[], rfl, h⟩
  · have hother : id ≠ task.id := fun hid => hne (congrArg Occurrence.serve hid.symm)
    generalize w.askedIn (.serve task.id) = w₁ at hrequest
    generalize w.runnerCall? (.serve task.id) = call? at hrequest
    obtain ⟨hcharge, -⟩ := hrequest.of_started hsound hstarted htask
    have hplace : w₁.task? id = w.task? id → At w₁ id worker point := fun hsame =>
      ⟨fun t ht => h.place.stands t (hsame ▸ ht), fun hnone hpositive =>
        h.place.gone (hsame ▸ hnone) (hpositive.trans_le hcharge)⟩
    cases hrequest with
    | addQueue queue _ _ => exact ⟨[], rfl, h.run, h.signal, h.known, hplace rfl⟩
    | start _ _ =>
      obtain ⟨runner, hrunner, hrunning⟩ := (Option.any_eq_true _ _).1 hstarted
      rw [start_of_started hrunner hrunning]
      exact ⟨[], rfl, h⟩
    | @stop role timeout next runner _ _ _ _ =>
      let waiting : Task :=
        { task with work := .stopping role next, limit := some (w.after timeout) }
      obtain ⟨htasks, hnext, -, -, hsignal⟩ := handOver_eq w waiting runner.stop.2
      have hsame : (w.handOver waiting runner.stop.2).task? id = w.task? id :=
        (task?_eq htasks id).trans (task?_setTask_of_ne w hother)
      refine ⟨[.signal], rfl, h.run.step (.outside rfl), ?_, hnext ▸ h.known, hplace hsame⟩
      rw [hsignal, h.signal]
      rfl
    | _ => exact ⟨[], rfl, h⟩

theorem Loops.serve (h : w.Loops id worker initial events point) (hsound : w.Sound) :
    ∃ more next, Deeds.of worker more = w.deedsBy id (.serve id) ∧
      (w.occur (.serve id)).Loops id worker initial (more ++ events) next := by
  cases hfind : w.task? id with
  | none =>
    have hsame := occur_serve_none hfind
    have hnothing : w.deedsBy id (.serve id) = .none := by
      refine deedsBy_of_cancelled (fun t ht => ?_) (congrArg World.calls hsame)
      rw [hfind] at ht
      cases ht
    rw [hsame, hnothing]
    exact ⟨[], point, rfl, h⟩
  | some task =>
    obtain ⟨htask, rfl⟩ := mem_of_task? hfind
    have hstands := h.place.stands task hfind
    have hevolves : Evolves task.id w (w.occur (.serve task.id)) := by
      have hasked : w.askedIn (.serve task.id) = w :=
        (askedIn_serve hfind).trans (asked_of_none hstands.runnerCall?)
      have hevolves := (evolves_occur hsound (.serve task.id) fun _ heq =>
        (Occurrence.serve.inj heq).symm).2
      rwa [hasked] at hevolves
    have hsignal := hevolves.signal.trans h.signal
    have hknown := h.known.trans_le hevolves.next
    cases hcancelled : task.cancelled with
    | false =>
      obtain ⟨more, next, hmakes, hplace⟩ :=
        moves_serve hsound hfind hcancelled h.signal hstands h.run
      have hdeeds : Deeds.of worker more = w.deedsBy task.id (.serve task.id) := by
        rw [deedsBy_serve hmakes.calls, ← hmakes.grants, ← hmakes.ticks]
        rfl
      refine ⟨more, next, hdeeds, hmakes.run, ?_, hknown, hplace⟩
      exact hsignal.trans (signalAfter_append hmakes.inside events).symm
    | true =>
      -- The loop was dropped, so nobody is in charge of the loops.
      have hnobody : ¬ 0 < (w.occur (.serve task.id)).inCharge := fun hcharge => by
        have hkept := hsound.uncancelled (hcharge.trans_le hevolves.inCharge_le) task htask
          hstands.isLoop
        rw [hcancelled] at hkept
        cases hkept
      have hdiscard : w.occur (.serve task.id) = w.discard task := by
        rw [occur_serve hfind]
        exact if_pos hcancelled
      have hgone : (w.occur (.serve task.id)).task? task.id = none := by
        rw [hdiscard]
        exact task?_eq_none (not_mem_discard w hstands.isLoop)
      have hnothing : w.deedsBy task.id (.serve task.id) = .none := by
        refine deedsBy_of_cancelled (fun t ht => ?_) ?_
        · rw [Option.some.inj (ht.symm.trans hfind)]
          exact hcancelled
        · rw [hdiscard]
          exact calls_discard w task
      rw [hnothing]
      refine ⟨[], point, rfl, h.run, hsignal, hknown, fun t ht => ?_, fun _ hcharge => ?_⟩
      · rw [hgone] at ht
        cases ht
      · exact absurd hcharge hnobody

/-- **What occurs keeps it**, with what the loop does in it. -/
theorem Loops.occur (h : w.Loops id worker initial events point) (hsound : w.Sound)
    (hstarted : w.started = true) (occurrence : Occurrence) :
    ∃ more next, Deeds.of worker more = w.deedsBy id occurrence ∧
      (w.occur occurrence).Loops id worker initial (more ++ events) next := by
  by_cases hself : occurrence = .serve id
  · subst hself
    exact h.serve hsound
  · obtain ⟨acting, hne, hasked, hevolves⟩ := exists_evolves_of_ne hsound hself
    obtain ⟨more, hnothing, hloops⟩ := h.askedIn hsound hstarted hself
    rw [deedsBy_of_ne hself]
    exact ⟨more, point, hnothing, hloops.evolves hevolves hasked hne⟩

/-! ### Whole runs -/

/-- **What a loop does** in all that occurs. -/
def deedsOf (w : World) (id : TaskId) : List Occurrence → Deeds
  | [] => .none
  | occurrence :: earlier =>
    ((w.through earlier).deedsBy id occurrence).after (w.deedsOf id earlier)

/-- **What occurs is a run of the loop.** -/
theorem Loops.through (h : w.Loops id worker initial events point) (hsound : w.Sound)
    (hstarted : w.started = true) : ∀ occurrences : List Occurrence,
      ∃ more next, Deeds.of worker more = w.deedsOf id occurrences ∧
        (w.through occurrences).Loops id worker initial (more ++ events) next
  | [] => ⟨[], point, rfl, h⟩
  | occurrence :: earlier => by
    obtain ⟨before, next, hbefore, hearlier⟩ := h.through hsound hstarted earlier
    obtain ⟨more, last, hmore, hnow⟩ :=
      hearlier.occur (hsound.through earlier) (started_through hsound hstarted earlier) occurrence
    refine ⟨more ++ before, last, ?_, List.append_assoc more before events ▸ hnow⟩
    rw [Deeds.of_append, hmore, hbefore]
    rfl

theorem loops_of_polling (hsound : w.Sound) (hfind : w.task? id = some task) {ticker : Ticker}
    (hwork : task.work = .polling worker ticker) :
    w.Loops id worker w.team.shutdown [] .waiting := by
  obtain ⟨htask, rfl⟩ := mem_of_task? hfind
  refine ⟨.start, rfl, hsound.numbered.fresh task.id (List.mem_map_of_mem htask),
    fun t ht => ?_, fun hnone => ?_⟩
  · obtain rfl := Option.some.inj (hfind.symm.trans ht)
    exact .waiting hwork
  · rw [hfind] at hnone
    cases hnone

end JobQueue.World

namespace JobQueue

open WorkerLoop

/-- **The loops of a runner are safe.** A loop takes ticks and looks at the signal in any order with
what others do; its claims and its reports are answered in any way, also with errors of any kind, and
its handlers end in any way or not in time.

* Between two claims there is a tick, and before every claim a look at the signal that found none; after
  a look that finds it there is no claim any more. The loop ends by itself only after the signal was
  given or its sender has gone, and all jobs that it was granted are reported then, with an answer.
* The one exception is a breakdown: in a call of the store, or in an attempt that has no number. It ends
  the loop without a signal, in the second case with a job that is not reported.
* Whatever occurs in a system with a runner, each of its loops makes such a run, with the same ticks,
  calls and grants. -/
theorem worker_loop_safety (id : WorkerId) (config : RunnerConfig) (store : Backend) (clock : Clock)
    (host : Program) :
    (∀ (worker : Worker) (initial : Shutdown) (events : List WorkerLoop.Event) (point : Point),
      Run worker initial events point → Safe worker initial events point) ∧
    ∀ (earlier later : List Occurrence) (loop : TaskId) (task : Task) (worker : Worker)
      (ticker : Ticker),
      let start := World.create store clock config (some (Runner.fresh id config)) host
      let w := start.through earlier
      w.task? loop = some task → task.work = .polling worker ticker →
      ∃ events point, (w.through later).Loops loop worker w.team.shutdown events point ∧
        Deeds.of worker events = w.deedsOf loop later := by
  refine ⟨fun worker initial events point h => h.safe, ?_⟩
  intro earlier later loop task worker ticker start w hfind hwork
  have hsound : w.Sound := (World.sound_create store clock config id host).through earlier
  have hloop : task.work.isLoop = true := by
    rw [hwork]
    rfl
  have hstarted : w.started = true :=
    hsound.started (.inr (World.not_drained_of_mem (World.mem_of_task? hfind).1 hloop))
  obtain ⟨events, point, hdeeds, hloops⟩ :=
    (World.loops_of_polling hsound hfind hwork).through hsound hstarted later
  rw [List.append_nil] at hloops
  exact ⟨events, point, hloops, hdeeds⟩

/-- The worker of a loop that waits for a tick. -/
def World.polling? (w : World) (id : TaskId) : Option Worker :=
  match w.task? id with
  | some { work := .polling worker _, .. } => some worker
  | _ => none

theorem World.exists_polling {w : World} {id : TaskId} {worker : Worker}
    (h : w.polling? id = some worker) :
    ∃ task ticker, w.task? id = some task ∧ task.work = .polling worker ticker := by
  unfold polling? at h
  split at h
  · next hfind => exact ⟨_, _, hfind, by rw [← Option.some.inj h]⟩
  · cases h

/-- The loop takes a tick and is granted a job, which is done; then the signal is given, and the loop
ends. -/
theorem worker_loop_safety_of_one_job :
    let w := (World.servingOne (.create "a" 0 "q" "t" [] 0 3)).through
      ([0, 0, 0].map Occurrence.serve)
    let later := [1, 0, 1, 1, 1, 3, 1, 1].map Occurrence.serve
    ∃ task worker ticker events point, w.task? 1 = some task ∧
      task.work = .polling worker ticker ∧ (w.through later).Loops 1 worker .fresh events point ∧
      Safe worker .fresh events point ∧ point.isOver = true ∧
      (callsIn worker events).map Call.method = [.complete, .claimNext] ∧
      (grantsIn events).map Job.id = ["a"] ∧ ticksIn events = 1 := by
  intro w later
  have hpolling : (w.polling? 1).isSome = true := by decide +kernel
  obtain ⟨worker, hpolling⟩ := Option.isSome_iff_exists.1 hpolling
  obtain ⟨task, ticker, hfind, hwork⟩ := World.exists_polling hpolling
  obtain ⟨hsafe, hloops⟩ := worker_loop_safety "r" _ _ _ _
  obtain ⟨events, point, hloop, hdeeds⟩ : ∃ events point,
      (w.through later).Loops 1 worker w.team.shutdown events point ∧
        Deeds.of worker events = w.deedsOf 1 later :=
    hloops _ later 1 task worker ticker hfind hwork
  have hfresh : w.team.shutdown = .fresh := by decide +kernel
  have hgone : ((w.through later).task? 1).isNone = true := by decide +kernel
  have hcharge : 0 < (w.through later).inCharge := by decide +kernel
  have hover := hloop.place.gone (Option.isNone_iff_eq_none.1 hgone) hcharge
  have hmade : (w.deedsOf 1 later).calls.map Call.method = [.complete, .claimNext] := by
    decide +kernel
  have hgranted : (w.deedsOf 1 later).granted.map Job.id = ["a"] := by decide +kernel
  have hticks : (w.deedsOf 1 later).ticks = 1 := by decide +kernel
  rw [hfresh] at hloop
  rw [← hdeeds] at hmade hgranted hticks
  exact ⟨task, worker, ticker, events, point, hfind, hwork, hloop, hsafe _ _ _ _ hloop.run, hover,
    hmade, hgranted, hticks⟩

/-- **A loop that breaks down**: the job that it is granted has attempts beyond count. No signal was
given, somebody is in charge of the loops, and the job is not reported. -/
theorem worker_loop_breaks :
    let job := { Job.create "a" 0 "q" "t" [] 0 2147483647 with attempts := 2147483647 }
    let w := (World.servingOne job).through ([0, 0, 0].map Occurrence.serve)
    let later := [1, 1].map Occurrence.serve
    ∃ worker granted, w.polling? 1 = some worker ∧
      Run worker .fresh [.claimed (fun _ => true) (.ok (some granted)), .claim, .look, .tick]
        (.broken (some granted)) ∧
      (w.deedsOf 1 later).granted = [granted] ∧ granted.id = "a" ∧
      (w.through later).task? 1 = none ∧ 0 < (w.through later).inCharge ∧
      (w.through later).team.shutdown = .fresh ∧
      (w.through later).calls.map Call.method = [.claimNext] := by
  intro job w later
  have hpolling : (w.polling? 1).isSome = true := by decide +kernel
  obtain ⟨worker, hpolling⟩ := Option.isSome_iff_exists.1 hpolling
  have hgrants : (w.deedsOf 1 later).granted.map (fun job => (job.id, job.attempt.isOk)) =
      [("a", false)] := by
    decide +kernel
  obtain ⟨granted, hgranted, hsame⟩ := List.map_eq_singleton_iff.1 hgrants
  obtain ⟨hid, hcount⟩ := Prod.mk.inj hsame
  have hgone : ((w.through later).task? 1).isNone = true := by decide +kernel
  have hclaiming : Run worker .fresh [.claim, .look, .tick] .claiming :=
    ((Run.start.step .tick).step .look).step .claim
  have hbroken := hclaiming.step (.claimed (fun _ => true) (.ok (some granted)))
  have hbreaks : (Event.claimed (fun _ => true) (.ok (some granted))).breaks = true := by
    show (true && !granted.attempt.isOk) = true
    rw [hcount]
    rfl
  rw [if_pos hbreaks] at hbroken
  exact ⟨worker, granted, hpolling, hbroken, hgranted, hid, Option.isNone_iff_eq_none.1 hgone,
    by decide +kernel, by decide +kernel, by decide +kernel⟩

end JobQueue

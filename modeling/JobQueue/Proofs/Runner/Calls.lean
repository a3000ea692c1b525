import Mathlib.Data.List.Nodup
import Mathlib.Data.List.TakeWhile
import JobQueue.Proofs.Runner.Config

/-! # Runners over their calls

A runner is asked to declare queues, to start and to stop, in any order. What becomes of it can be
read off the calls: the first start in a host that can run loops is the one that counts, the queues
are those declared before it, and the first stop after it is the one that tells the loops to end.

Lists of calls have the latest first.

* `Runner.perform`, `Runner.after`: what comes of a call; the runner after calls.
* `Runner.declared`, `Runner.Serving`: queues and loops, said on the calls. `recorded_after`: **the
  runner is as its calls say.**
* `Runner.mem_loops`, `Runner.nodup_loops`, `Runner.length_loops`: the places of the loops.
* `Runner.workerId_injective`: **no two places have one worker id**, whatever the queues are
  called. -/

namespace JobQueue.Runner

/-- **What is asked of a runner.** A start says whether loops can be run where it is called. -/
inductive Call where
  | addQueue (queue : QueueName)
  | start (runtime : Runtime)
  | stop
deriving DecidableEq, Repr

/-- **What comes of a call.** -/
inductive Outcome where
  /-- The call returns, and nothing else happens. -/
  | returned
  /-- Loops begin at these places, and one for cleanup. -/
  | begun (loops : List Slot)
  /-- The loops are told to end. -/
  | signalled
  | refused (e : JobError)

/-- What comes of the call, and the runner after it. -/
def perform (runner : Runner) : Call → Outcome × Runner
  | .addQueue queue => (.returned, runner.addQueue queue)
  | .start runtime =>
    match runner.start runtime with
    | (.ok loops, runner) => (.begun loops, runner)
    | (.error e, runner) => (.refused e, runner)
  | .stop =>
    match runner.stop with
    | (true, runner) => (.signalled, runner)
    | (false, runner) => (.returned, runner)

/-- **The runner after the calls**, the latest first. -/
def after (runner : Runner) : List Call → Runner
  | [] => runner
  | call :: earlier => ((runner.after earlier).perform call).2

theorem perform_start (runner : Runner) (runtime : Runtime) :
    (runner.perform (.start runtime)).2 = (runner.start runtime).2 := by
  show (match runner.start runtime with
    | (.ok loops, runner) => (Outcome.begun loops, runner)
    | (.error e, runner) => (.refused e, runner)).2 = _
  rcases runner.start runtime with ⟨_ | _, _⟩ <;> rfl

theorem perform_stop (runner : Runner) : (runner.perform .stop).2 = runner.stop.2 := by
  show (match runner.stop with
    | (true, runner) => (Outcome.signalled, runner)
    | (false, runner) => (.returned, runner)).2 = _
  rcases runner.stop with ⟨_ | _, _⟩ <;> rfl

/-- **The three ways of a start** in a host that can run loops. -/
theorem start_cases (runner : Runner) :
    (runner.started = true ∧ runner.start .current = (.error .alreadyStarted, runner)) ∨
    (runner.started = false ∧ (runner.loops = [] ∨ runner.config.handlerTimeout? ≠ none) ∧
      runner.start .current = (.ok runner.loops, { runner with started := true, active := true })) ∨
    (runner.started = false ∧ runner.loops ≠ [] ∧ runner.config.handlerTimeout? = none ∧
      runner.start .current = (.error (.breakdown .multiple), { runner with started := true })) := by
  cases hstarted : runner.started with
  | true => exact .inl ⟨rfl, start_of_started hstarted⟩
  | false =>
    right
    unfold start
    by_cases hbroken : runner.loops ≠ [] ∧ runner.config.handlerTimeout? = none
    · exact .inr ⟨rfl, hbroken.1, hbroken.2, by simp [hstarted, hbroken]⟩
    · refine .inl ⟨rfl, ?_, by simp [hstarted, hbroken]⟩
      by_cases hloops : runner.loops = []
      · exact .inl hloops
      · exact .inr fun hnone => hbroken ⟨hloops, hnone⟩

theorem active_addQueue (runner : Runner) (queue : QueueName) :
    (runner.addQueue queue).active = runner.active := by
  unfold addQueue
  split <;> rfl

theorem started_addQueue (runner : Runner) (queue : QueueName) :
    (runner.addQueue queue).started = runner.started := by
  unfold addQueue
  split <;> rfl

theorem started_perform {runner : Runner} (h : runner.started = true) (call : Call) :
    (runner.perform call).2.started = true := by
  cases call with
  | addQueue queue => exact (started_addQueue runner queue).trans h
  | start runtime =>
    rw [perform_start]
    cases runtime with
    | current => rwa [start_of_started h]
    | missing reason => exact h
  | stop => rwa [perform_stop]

theorem stop_of_inactive {runner : Runner} (h : runner.active = false) :
    runner.stop = (false, runner) := by
  show (runner.active, { runner with active := false }) = _
  rw [h, ← h]

/-! ### What calls tell -/

/-- The queue that the call declares. -/
def Call.queue? : Call → Option QueueName
  | .addQueue queue => some queue
  | _ => none

/-- The calls before the first start in a host that can run loops, the earliest first. -/
def beforeStart (calls : List Call) : List Call :=
  calls.reverse.takeWhile (· ≠ .start .current)

/-- **The queues declared before the first start**, in order of their first declarations. -/
def declared (calls : List Call) : List QueueName :=
  ((beforeStart calls).filterMap Call.queue?).eraseDups

/-- **The runner was started and not stopped since.** -/
def Serving (calls : List Call) : Prop :=
  ∃ later before, calls = later ++ .start .current :: before ∧ .start .current ∉ before ∧ .stop ∉ later

section Calls

variable {calls : List Call} {call : Call}

theorem beforeStart_of_started (call : Call) (h : .start .current ∈ calls) :
    beforeStart (call :: calls) = beforeStart calls := by
  unfold beforeStart
  rw [List.reverse_cons, List.takeWhile_append, if_neg]
  intro hlength
  have hall := List.takeWhile_eq_self_iff.1 ((List.takeWhile_prefix _).eq_of_length hlength)
  simpa using hall _ (List.mem_reverse.2 h)

theorem beforeStart_eq_reverse (h : .start .current ∉ calls) : beforeStart calls = calls.reverse := by
  refine List.takeWhile_eq_self_iff.2 fun c hc => ?_
  rw [decide_eq_true_iff]
  rintro rfl
  exact h (List.mem_reverse.1 hc)

theorem queues_beforeStart (h : .start .current ∉ calls) :
    (beforeStart (call :: calls)).filterMap Call.queue? =
      (beforeStart calls).filterMap Call.queue? ++ call.queue?.toList := by
  rw [beforeStart_eq_reverse h]
  by_cases hstart : call = .start .current
  · subst hstart
    have hself : calls.reverse.takeWhile (· ≠ .start .current) = calls.reverse :=
      beforeStart_eq_reverse h
    unfold beforeStart
    rw [List.reverse_cons, List.takeWhile_append, hself, if_pos rfl]
    simp [Call.queue?]
  · rw [beforeStart_eq_reverse (List.not_mem_cons_of_ne_of_not_mem (Ne.symm hstart) h),
      List.reverse_cons, List.filterMap_append]
    cases hcall : call.queue? <;> simp [hcall]

theorem declared_of_started (call : Call) (h : .start .current ∈ calls) :
    declared (call :: calls) = declared calls := by
  unfold declared
  rw [beforeStart_of_started call h]

theorem declared_of_no_queue (hcall : call.queue? = none) :
    declared (call :: calls) = declared calls := by
  by_cases h : .start .current ∈ calls
  · exact declared_of_started call h
  · unfold declared
    rw [queues_beforeStart h, hcall, Option.toList_none, List.append_nil]

theorem declared_addQueue (h : .start .current ∉ calls) (queue : QueueName) :
    declared (.addQueue queue :: calls) =
      if queue ∈ declared calls then declared calls else declared calls ++ [queue] := by
  have happend : declared (.addQueue queue :: calls) = declared calls ++
      ([queue].removeAll ((beforeStart calls).filterMap Call.queue?)).eraseDups := by
    unfold declared
    rw [queues_beforeStart h, List.eraseDups_append]
    rfl
  have hmem : queue ∈ declared calls ↔ queue ∈ (beforeStart calls).filterMap Call.queue? :=
    List.mem_eraseDups
  rw [happend]
  unfold List.removeAll
  generalize (beforeStart calls).filterMap Call.queue? = queues at hmem ⊢
  split
  · next hdeclared => simp [hmem.1 hdeclared]
  · next hdeclared => simp [mt hmem.2 hdeclared, List.eraseDups_cons]

theorem nodup_eraseDups {α : Type} [BEq α] [LawfulBEq α] (as : List α) : as.eraseDups.Nodup := by
  induction as using List.reverseRecOn with
  | nil => exact List.nodup_nil
  | append_singleton as a ih =>
    rw [List.eraseDups_append]
    unfold List.removeAll
    by_cases ha : a ∈ as
    · simpa [ha] using ih
    · have hne : ∀ b ∈ as, b ≠ a := fun b hb hab => ha (hab ▸ hb)
      simpa [ha, List.nodup_append, List.eraseDups_cons] using ⟨ih, hne⟩

theorem nodup_declared (calls : List Call) : (declared calls).Nodup := nodup_eraseDups _

theorem not_serving_nil : ¬ Serving [] := by
  rintro ⟨later, before, heq, -, -⟩
  cases later <;> cases heq

theorem serving_cons : Serving (call :: calls) ↔
    (call = .start .current ∧ .start .current ∉ calls) ∨ (call ≠ .stop ∧ Serving calls) := by
  constructor
  · rintro ⟨later, before, heq, hbefore, hlater⟩
    cases later with
    | nil =>
      obtain ⟨rfl, rfl⟩ := List.cons.inj heq
      exact .inl ⟨rfl, hbefore⟩
    | cons first later =>
      obtain ⟨rfl, rfl⟩ := List.cons.inj heq
      rw [List.mem_cons, not_or] at hlater
      exact .inr ⟨Ne.symm hlater.1, later, before, rfl, hbefore, hlater.2⟩
  · rintro (⟨rfl, hcalls⟩ | ⟨hcall, later, before, rfl, hbefore, hlater⟩)
    · exact ⟨[], calls, rfl, hcalls, List.not_mem_nil⟩
    · exact ⟨call :: later, before, rfl, hbefore,
        List.not_mem_cons_of_ne_of_not_mem (Ne.symm hcall) hlater⟩

end Calls

/-! ### The runner after calls -/

/-- **The runner is as the calls say.** When handlers have no time, a start breaks down and the loops
do not begin; then the runner counts as started and is never active. -/
structure Recorded (id : WorkerId) (config : RunnerConfig) (calls : List Call) (runner : Runner) :
    Prop where
  sameId : runner.id = id
  sameConfig : runner.config = config
  started : runner.started = true ↔ .start .current ∈ calls
  queues : runner.queues = declared calls
  active : runner.active = true → Serving calls
  serving : config.handlerTimeout? ≠ none → Serving calls → runner.active = true

namespace Recorded

variable {id : WorkerId} {config : RunnerConfig} {calls : List Call} {runner : Runner}

theorem same (h : Recorded id config calls runner) {call : Call}
    (hstarted : .start .current ∈ call :: calls ↔ .start .current ∈ calls)
    (hqueues : declared (call :: calls) = declared calls)
    (hserving : Serving (call :: calls) ↔ Serving calls) :
    Recorded id config (call :: calls) runner :=
  ⟨h.sameId, h.sameConfig, h.started.trans hstarted.symm, h.queues.trans hqueues.symm,
    fun hactive => hserving.2 (h.active hactive),
    fun hdefined hnow => h.serving hdefined (hserving.1 hnow)⟩

theorem addQueue (h : Recorded id config calls runner) (queue : QueueName) :
    Recorded id config (.addQueue queue :: calls) (runner.addQueue queue) := by
  have hserving : Serving (.addQueue queue :: calls) ↔ Serving calls := by
    simp [serving_cons]
  have hstart : .start .current ∈ Call.addQueue queue :: calls ↔ .start .current ∈ calls := by
    simp
  by_cases hstarted : .start .current ∈ calls
  · rw [addQueue_of_started queue (h.started.2 hstarted)]
    exact h.same hstart (declared_of_started _ hstarted) hserving
  · have hfalse : runner.started = false := Bool.eq_false_iff.2 (mt h.started.1 hstarted)
    have hqueues := declared_addQueue hstarted queue
    unfold Runner.addQueue
    rw [hfalse, h.queues]
    by_cases hmem : queue ∈ declared calls
    · rw [if_pos (.inr hmem)]
      rw [if_pos hmem] at hqueues
      exact h.same hstart hqueues hserving
    · rw [if_neg (by simpa using hmem)]
      rw [if_neg hmem] at hqueues
      exact ⟨h.sameId, h.sameConfig, by simpa using hstarted, hqueues.symm,
        fun hactive => hserving.2 (h.active hactive),
        fun hdefined hnow => h.serving hdefined (hserving.1 hnow)⟩

theorem start (h : Recorded id config calls runner) :
    Recorded id config (.start .current :: calls) (runner.start .current).2 := by
  have hqueues : declared (.start .current :: calls) = declared calls := declared_of_no_queue rfl
  have hserving : runner.started = false → Serving (.start .current :: calls) := fun hfalse =>
    serving_cons.2 (.inl ⟨rfl, fun hmem => by rw [h.started.2 hmem] at hfalse; cases hfalse⟩)
  rcases start_cases runner with ⟨hstarted, hstart⟩ | ⟨hnew, -, hstart⟩ | ⟨hnew, -, hnone, hstart⟩
  · rw [hstart]
    have hmem := h.started.1 hstarted
    exact h.same (by simp [hmem]) hqueues (by simp [serving_cons, hmem])
  · rw [hstart]
    exact ⟨h.sameId, h.sameConfig, by simp, h.queues.trans hqueues.symm, fun _ => hserving hnew,
      fun _ _ => rfl⟩
  · rw [hstart]
    exact ⟨h.sameId, h.sameConfig, by simp, h.queues.trans hqueues.symm, fun _ => hserving hnew,
      fun hdefined => absurd (h.sameConfig ▸ hnone) hdefined⟩

theorem stop (h : Recorded id config calls runner) :
    Recorded id config (.stop :: calls) runner.stop.2 := by
  have hserving : ¬ Serving (.stop :: calls) := by simp [serving_cons]
  exact ⟨h.sameId, h.sameConfig, by simp [Runner.stop, h.started],
    h.queues.trans (declared_of_no_queue rfl).symm, nofun, fun _ hnow => absurd hnow hserving⟩

theorem perform (h : Recorded id config calls runner) (call : Call) :
    Recorded id config (call :: calls) (runner.perform call).2 := by
  cases call with
  | addQueue queue => exact h.addQueue queue
  | start runtime =>
    rw [perform_start]
    cases runtime with
    | current => exact h.start
    | missing reason => exact h.same (by simp) (declared_of_no_queue rfl) (by simp [serving_cons])
  | stop =>
    rw [perform_stop]
    exact h.stop

end Recorded

/-- **The runner is as its calls say.** -/
theorem recorded_after (id : WorkerId) (config : RunnerConfig) : ∀ calls : List Call,
    Recorded id config calls ((fresh id config).after calls)
  | [] => ⟨rfl, rfl, by simp [fresh, after], rfl, nofun, fun _ hnow => absurd hnow not_serving_nil⟩
  | call :: earlier => (recorded_after id config earlier).perform call

section Outcomes

variable {id : WorkerId} {config : RunnerConfig} {calls : List Call} {runner : Runner}

theorem Recorded.first_start (h : Recorded id config calls runner)
    (hdefined : config.handlerTimeout? ≠ none) (hnew : .start .current ∉ calls) :
    runner.perform (.start .current) =
      (.begun runner.loops, { runner with started := true, active := true }) := by
  have hfalse : runner.started = false := Bool.eq_false_iff.2 (mt h.started.1 hnew)
  rcases runner.start_cases with ⟨hstarted, -⟩ | ⟨-, -, hstart⟩ | ⟨-, -, hnone, -⟩
  · rw [hfalse] at hstarted
    cases hstarted
  · simp only [Runner.perform, hstart]
  · rw [h.sameConfig] at hnone
    exact absurd hnone hdefined

theorem Recorded.later_start (h : Recorded id config calls runner) (hstarted : .start .current ∈ calls) :
    runner.perform (.start .current) = (.refused .alreadyStarted, runner) := by
  simp only [Runner.perform, start_of_started (h.started.2 hstarted)]

theorem perform_start_missing (runner : Runner) (reason : String) :
    runner.perform (.start (.missing reason)) =
      (.refused (.internal ("start requires a Tokio runtime: " ++ reason)), runner) := rfl

theorem Recorded.stop_serving (h : Recorded id config calls runner)
    (hdefined : config.handlerTimeout? ≠ none) (hserving : Serving calls) :
    runner.perform .stop = (.signalled, { runner with active := false }) := by
  simp only [Runner.perform, Runner.stop, h.serving hdefined hserving]

theorem Recorded.stop_idle (h : Recorded id config calls runner) (hidle : ¬ Serving calls) :
    runner.perform .stop = (.returned, runner) := by
  have hinactive : runner.active = false := Bool.eq_false_iff.2 (mt h.active hidle)
  simp only [Runner.perform, stop_of_inactive hinactive]

theorem queues_of_started (id : WorkerId) (config : RunnerConfig) (hstarted : .start .current ∈ calls)
    (call : Call) : (((fresh id config).after calls).perform call).2.queues =
      ((fresh id config).after calls).queues := by
  have hlater := recorded_after id config (call :: calls)
  rw [(recorded_after id config calls).queues, ← declared_of_started call hstarted]
  exact hlater.queues

end Outcomes

/-! ### The places of the loops -/

section Loops

variable {runner : Runner} {slot : Slot}

theorem mem_loops :
    slot ∈ runner.loops ↔ slot.queue ∈ runner.queues ∧ slot.number < runner.config.workerCount := by
  unfold loops
  rw [List.mem_flatMap]
  constructor
  · rintro ⟨queue, hqueue, hslot⟩
    obtain ⟨number, hnumber, rfl⟩ := List.mem_map.1 hslot
    exact ⟨hqueue, List.mem_range.1 hnumber⟩
  · rintro ⟨hqueue, hnumber⟩
    exact ⟨slot.queue, hqueue, List.mem_map.2 ⟨slot.number, List.mem_range.2 hnumber, rfl⟩⟩

theorem length_loops : runner.loops.length = runner.queues.length * runner.config.workerCount := by
  simp [loops, List.length_flatMap]

theorem nodup_loops (h : runner.queues.Nodup) : runner.loops.Nodup := by
  refine List.nodup_flatMap.2 ⟨fun queue _ => ?_, h.imp fun hne slot hslot hother => ?_⟩
  · exact List.nodup_range.map fun a b hab => (Slot.mk.inj hab).2
  · obtain ⟨_, -, rfl⟩ := List.mem_map.1 hslot
    obtain ⟨_, -, heq⟩ := List.mem_map.1 hother
    exact hne (Slot.mk.inj heq).1.symm

/-- A list is split in one way at the last place of a mark. -/
theorem append_cons_inj_of_last {α : Type} {mark : α} {before before' last last' : List α}
    (h : mark ∉ last) (h' : mark ∉ last')
    (heq : before ++ mark :: last = before' ++ mark :: last') :
    before = before' ∧ last = last' := by
  rcases List.append_eq_append_iff.1 heq with ⟨_ | ⟨_, between⟩, hbefore, hlast⟩ |
    ⟨_ | ⟨_, between⟩, hbefore, hlast⟩
  · exact ⟨by simpa using hbefore.symm, (List.cons.inj hlast).2⟩
  · exact absurd ((List.cons.inj hlast).2 ▸ List.mem_append_right _ List.mem_cons_self) h
  · exact ⟨by simpa using hbefore, (List.cons.inj hlast).2.symm⟩
  · exact absurd ((List.cons.inj hlast).2 ▸ List.mem_append_right _ List.mem_cons_self) h'

/-- **No two places have one worker id.** The number is what stands after the last colon. -/
theorem workerId_injective (runner : Runner) : Function.Injective runner.workerId := by
  have hcolon : ∀ n, ':' ∉ Decimal.digits n := fun n hmem =>
    absurd (Decimal.isDigit_of_mem_digits hmem) (by decide)
  have htext : ∀ slot, (runner.workerId slot).toList =
      (runner.id.toList ++ ':' :: slot.queue.toList) ++ ':' :: Decimal.digits slot.number := by
    intro slot
    simp [workerId]
  rintro ⟨queue, number⟩ ⟨queue', number'⟩ heq
  have hlists := congrArg String.toList heq
  rw [htext, htext] at hlists
  obtain ⟨hbefore, hdigits⟩ := append_cons_inj_of_last (hcolon number) (hcolon number') hlists
  have hqueue : queue = queue' :=
    String.toList_inj.1 (List.cons.inj (List.append_cancel_left hbefore)).2
  have hnumber : number = number' := by
    rw [← Decimal.value_digits number, hdigits, Decimal.value_digits]
  rw [hqueue, hnumber]

end Loops

end JobQueue.Runner

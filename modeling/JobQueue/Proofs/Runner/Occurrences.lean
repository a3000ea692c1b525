import JobQueue.Proofs.Worker.Tracking

/-! # A system in any order of events

A system serves its ready tasks in an order of its own (`World.step`). What is proved of its runner
does not depend on this order: here any task may be served at any time, time may pass at any time,
and whoever else works on the store may do with it what they want.

* `World.occur`, `World.through`: the world after what occurs.
* `World.exists_through_run`: **the steps of a system are such occurrences.**
* `World.related_through`: **what they keep of the jobs in flight**, if every job that is granted may
  be put into the set.
* `in_flight_lists_held`: **what the set of the jobs in flight tells**, of guards and of workers. -/

namespace JobQueue

/-- **What occurs in a system.** -/
inductive Occurrence where
  /-- A task makes one move, if it is there. -/
  | serve (id : TaskId)
  /-- Time passes. -/
  | pass (time : Nat)
  /-- Others change the store and the clock, or calls are not answered any more, or again. -/
  | meanwhile (store : Backend) (clock : Clock) (stalled : List Method)
  /-- The order of those that are ready is changed. -/
  | order (ready : List TaskId) (hostReady : Bool)

namespace World

/-- **It occurs.** -/
def occur (w : World) : Occurrence → World
  | .serve id =>
    match w.task? id with
    | some task => w.stepTask task
    | none => w
  | .pass time => w.jump time
  | .meanwhile store clock stalled =>
    { w with store := store, clock := clock, stalled := stalled }
  | .order ready hostReady => { w with ready := ready, hostReady := hostReady }

/-- **The world after these occurrences**, the latest first. -/
def through (w : World) : List Occurrence → World
  | [] => w
  | occurrence :: earlier => (w.through earlier).occur occurrence

variable {w w' : World}

theorem occur_serve {task : Task} {id : TaskId} (h : w.task? id = some task) :
    w.occur (.serve id) = w.stepTask task := by
  show (match w.task? id with
    | some task => w.stepTask task
    | none => w) = _
  rw [h]

theorem occur_serve_none {id : TaskId} (h : w.task? id = none) : w.occur (.serve id) = w := by
  show (match w.task? id with
    | some task => w.stepTask task
    | none => w) = _
  rw [h]

theorem mem_of_task? {task : Task} {id : TaskId} (h : w.task? id = some task) :
    task ∈ w.tasks ∧ task.id = id :=
  ⟨List.mem_of_find?_eq_some h, by simpa using List.find?_some h⟩

theorem through_append (w : World) (earlier : List Occurrence) : ∀ later : List Occurrence,
    w.through (later ++ earlier) = (w.through earlier).through later
  | [] => rfl
  | occurrence :: later => congrArg (occur · occurrence) (through_append w earlier later)

/-! ### The steps of a system -/

theorem exists_through_step (h : w.step = some w') : ∃ occurrences, w.through occurrences = w' := by
  unfold step at h
  split at h
  · next id rest hready =>
    dsimp only at h
    split at h
    · next task hfind =>
      obtain rfl := Option.some.inj h
      have htask : (w.occur (.order rest w.hostReady)).task? id = some task := hfind
      exact ⟨[.serve id, .order rest w.hostReady], occur_serve htask⟩
    · obtain rfl := Option.some.inj h
      exact ⟨[.order rest w.hostReady], rfl⟩
  · split at h
    · obtain rfl := Option.some.inj h
      exact ⟨[.order [hostTask] false], rfl⟩
    · obtain ⟨time, -, rfl⟩ := Option.map_eq_some_iff.1 h
      exact ⟨[.pass time], rfl⟩

/-- **The steps of a system are occurrences.** -/
theorem exists_through_run : ∀ (n : Nat) (w : World),
    ∃ occurrences, w.through occurrences = run n w
  | 0, _ => ⟨[], rfl⟩
  | n + 1, w => by
    unfold run
    split
    · exact ⟨[], rfl⟩
    · split
      · next w' hstep =>
        obtain ⟨first, rfl⟩ := exists_through_step hstep
        obtain ⟨others, hothers⟩ := exists_through_run n (w.through first)
        exact ⟨others ++ first, (through_append w first others).trans hothers⟩
      · exact ⟨[], rfl⟩

/-! ### Jobs in flight -/

section Stable

variable {P : InFlight → List JobId → Prop} (hP : InFlight.Stable P) {party : Party}
include hP

/-- **What occurs keeps the relation of the jobs in flight and those who hold them**, if a job that is
granted may be put into the set. -/
theorem Related.occur (h : w.Related P party) (occurrence : Occurrence)
    (hgrant : ∀ taskId id, occurrence = .serve taskId → w.Grants taskId party id →
      P ((w.inFlight party).track id) (id :: w.held party)) :
    (w.occur occurrence).Related P party := by
  cases occurrence with
  | serve taskId =>
    cases hfind : w.task? taskId with
    | none =>
      rw [occur_serve_none hfind]
      exact h
    | some task =>
      rw [occur_serve hfind]
      exact h.stepTask hP hfind fun id => hgrant taskId id rfl
  | pass time => exact h.jump time
  | meanwhile store clock stalled => exact h.like (.of_eq party rfl rfl rfl rfl)
  | order ready hostReady => exact h.like (.of_eq party rfl rfl rfl rfl)

/-- **What a run keeps**, if every job that is granted in it may be put into the set. -/
theorem related_through (h : w.Related P party) : ∀ occurrences : List Occurrence,
    (∀ taskId earlier, .serve taskId :: earlier <:+ occurrences → ∀ id,
      (w.through earlier).Grants taskId party id → (w.through earlier).Related P party →
      P (((w.through earlier).inFlight party).track id) (id :: (w.through earlier).held party)) →
    (w.through occurrences).Related P party
  | [], _ => h
  | occurrence :: earlier, hgrant => by
    have hbefore := related_through h earlier fun taskId before hsuffix =>
      hgrant taskId before (hsuffix.trans (List.suffix_cons occurrence earlier))
    refine hbefore.occur hP occurrence fun taskId id heq hgrants => ?_
    exact hgrant taskId earlier (heq ▸ List.suffix_refl _) id hgrants hbefore

end Stable

end World

/-- **What the set of the jobs in flight tells.** After any tracks and drops of guards it names, in
order, the jobs with a guard of which no guard was dropped since they were last tracked; while no
job gets a second guard, just those with a guard. In a system, in whatever order its tasks are served
and whatever happens to its store, it names jobs that workers of the party hold, and all of these but
what was granted to the party while the party held it. The overview of the runner, and the refusal of a
stop whose time is over, give the jobs that it names. -/
theorem in_flight_lists_held (steps : List Guards.Step) (store : Backend) (clock : Clock)
    (config : RunnerConfig) (runner : Option Runner) (host : Program)
    (occurrences : List Occurrence) :
    let guards := Guards.after steps
    let start := World.create store clock config runner host
    let w := start.through occurrences
    (guards.jobs.ids.Pairwise (· < ·) ∧
      (∀ id, id ∈ guards.jobs.ids ↔ id ∈ guards.held ∧ ¬ Guards.Dropped id steps) ∧
      ((∀ id, Guards.Single id steps) → guards.jobs.ids.Perm guards.held)) ∧
    (∀ party, ∀ id ∈ (w.inFlight party).ids, id ∈ w.held party) ∧
    (∀ party id, (∀ taskId earlier, .serve taskId :: earlier <:+ occurrences →
        (start.through earlier).Grants taskId party id →
        id ∉ (start.through earlier).held party) →
      (id ∈ (w.inFlight party).ids ↔ id ∈ w.held party)) ∧
    (∀ stats after, w.execute .overview = .done (.overview stats) after →
      stats.activeJobs = (w.inFlight .runner).ids) ∧
    ∀ task role next time, w.drained = false → task.limit = some time → time ≤ w.nanos →
      w.stepStopping task role next = w.go task (.running role
        (next (.refused (.shutdownTimeout (w.inFlight .runner).ids)))) := by
  intro guards start w
  have hordered : guards.jobs.ids.Pairwise (· < ·) := Guards.ordered_after steps
  refine ⟨⟨hordered, Guards.mem_after_iff_held steps, fun hsingle =>
    InFlight.perm_of_exactAt (fun id => Guards.exactAt_after id steps (hsingle id)) hordered⟩,
    fun party => ?_, fun party id hgrant => ?_,
    fun stats after hexecute => World.activeJobs_of_overview hexecute, ?_⟩
  · have hcovered : w.Related InFlight.Covered party :=
      World.related_through InFlight.stable_covered
        (World.related_create InFlight.covered_empty store clock config runner host) occurrences
        fun _ _ _ id _ h => h.related.track id
    exact hcovered.related
  · have hexact : w.Related (InFlight.ExactAt id) party :=
      World.related_through (InFlight.stable_exactAt id)
        (World.related_create (InFlight.exactAt_empty id) store clock config runner host) occurrences
        fun taskId earlier hsuffix other hgrants h => h.related.track fun heq =>
          hgrant taskId earlier hsuffix (heq ▸ hgrants)
    exact hexact.related.listed
  · intro task role next time hdrained hlimit htime
    unfold World.stepStopping
    rw [hdrained, hlimit]
    dsimp only
    rw [if_pos htime]
    rfl

/-- A runner with two worker loops for one queue, and a handler that takes long. While it runs the
clock is advanced and stale jobs are taken back, so that the other loop gets the job, too. -/
def World.handedOver : World :=
  let config := { RunnerConfig.standard with pollInterval := .ofMillis 50 }
  let job := Request.toJob (.create "q" "t" []) "a" 0 3
  .create (.memory ⟨[job], true, false⟩) (.manual 0) config
    (some ⟨"r", config, ["q"], false, false⟩) <|
    .register .runner "t" (fun _ _ => .pause (.ofMillis 100) (.finish (.returned []))) <|
    .perform .start fun _ => .pause (.ofMillis 10) <|
    .perform (.advanceClock (.ofSecs 600)) fun _ =>
    .perform (.call (.recoverStale (.ofSecs 300))) fun _ => .stuck

/-- Until it is taken back the job has one holder, and the set and all reports name it. -/
theorem in_flight_lists_one_holder :
    let steps : List Guards.Step := [.drop "2", .track "2" "b", .track "1" "a"]
    let occurrences := [1, 1, 0, 0].map Occurrence.serve
    let w := World.handedOver.through occurrences
    let stopping : Task := { Task.create 0 .direct (.stopping .host fun _ => .stuck) with
      limit := some 0 }
    ((∀ id, Guards.Single id steps) ∧ (Guards.after steps).jobs.ids.Perm ["a"]) ∧
      (∀ id, (∀ taskId earlier, .serve taskId :: earlier <:+ occurrences →
          (World.handedOver.through earlier).Grants taskId .runner id →
          id ∉ (World.handedOver.through earlier).held .runner) ∧
        (id ∈ (w.inFlight .runner).ids ↔ id ∈ ["a"])) ∧
      (∃ stats after, w.execute .overview = .done (.overview stats) after ∧
        stats.activeJobs = ["a"]) ∧
      w.drained = false ∧ stopping.limit = some 0 ∧ 0 ≤ w.nanos ∧
      ∀ next, w.stepStopping stopping .host next = w.go stopping (.running .host
        (next (.refused (.shutdownTimeout ["a"])))) := by
  intro steps occurrences w stopping
  have hsingle : ∀ id, Guards.Single id steps := by
    intro id step earlier hsuffix htracked
    rcases List.suffix_cons_iff.1 hsuffix with heq | hsuffix
    · cases heq
      cases htracked
    rcases List.suffix_cons_iff.1 hsuffix with heq | hsuffix
    · cases heq
      cases htracked
      decide
    rcases List.suffix_cons_iff.1 hsuffix with heq | hsuffix
    · cases heq
      exact List.not_mem_nil
    · cases List.suffix_nil.1 hsuffix
  have hguarded : (Guards.after steps).held = ["a"] := by decide +kernel
  obtain ⟨store, clock, config, runner, host, hstart⟩ : ∃ store clock config runner host,
      World.handedOver = World.create store clock config runner host := ⟨_, _, _, _, _, rfl⟩
  have hrun := in_flight_lists_held steps store clock config runner host occurrences
  rw [← hstart] at hrun
  obtain ⟨⟨-, -, hguards⟩, -, hexact, hoverview, hstop⟩ := hrun
  have hnone : ∀ k < 4, (World.handedOver.through (occurrences.drop (k + 1))).held .runner = [] := by
    decide +kernel
  have hgrant : ∀ id taskId earlier, .serve taskId :: earlier <:+ occurrences →
      (World.handedOver.through earlier).Grants taskId .runner id →
      id ∉ (World.handedOver.through earlier).held .runner := by
    rintro id taskId earlier ⟨later, heq⟩ -
    have hless : later.length < 4 := by
      have hlength := congrArg List.length heq
      rw [List.length_append, List.length_cons] at hlength
      have hfour : occurrences.length = 4 := rfl
      omega
    have hdrop : earlier = occurrences.drop (later.length + 1) := by
      rw [← heq, List.drop_append]
      simp
    rw [hdrop, hnone _ hless]
    exact List.not_mem_nil
  have hheld : w.held .runner = ["a"] := by decide +kernel
  have hlisted : (w.inFlight .runner).ids = ["a"] := by decide +kernel
  have hdrained : w.drained = false := by decide +kernel
  have hshown : ∃ stats after, w.execute .overview = .done (.overview stats) after := by
    have hanswered : (match w.execute .overview with
        | .done (.overview _) _ => true
        | _ => false) = true := by
      decide +kernel
    split at hanswered
    · next stats after hexecute => exact ⟨stats, after, hexecute⟩
    · cases hanswered
  obtain ⟨stats, after, hexecute⟩ := hshown
  refine ⟨⟨hsingle, ?_⟩, fun id => ⟨hgrant id, ?_⟩, ⟨stats, after, hexecute, ?_⟩, hdrained, rfl, ?_,
    fun next => ?_⟩
  · exact hguarded ▸ hguards hsingle
  · exact hheld ▸ hexact .runner id (hgrant id)
  · exact (hoverview stats after hexecute).trans hlisted
  · exact Nat.zero_le w.nanos
  · exact hlisted ▸ hstop stopping .host next 0 hdrained rfl (Nat.zero_le w.nanos)

/-- A job of two guards is out of the set when one of them is dropped. A job that another loop gets
while the first still has it is out when the first is done, though the other goes on. -/
theorem in_flight_misses_second_holder :
    let guards := Guards.after [.drop "1", .track "2" "a", .track "1" "a"]
    let before := World.run 27 .handedOver
    let after := World.run 30 .handedOver
    guards.jobs.ids = [] ∧ guards.held = ["a"] ∧
      (before.inFlight .runner).ids = ["a"] ∧ before.held .runner = ["a", "a"] ∧
      (after.inFlight .runner).ids = [] ∧ after.held .runner = ["a"] := by
  decide +kernel

end JobQueue

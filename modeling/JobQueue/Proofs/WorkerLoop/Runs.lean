import JobQueue.Proofs.Runner.Debts

/-! # Runs of a worker loop

A loop waits for a tick or for the shutdown signal, whichever it finds first. After a tick it looks at
the signal and, if there is none, makes an attempt. The signal may be given, and its sender may go, at
any moment, also between two steps of an attempt; and a loop that finds both a tick and the signal may
take either. Here a loop makes its steps in any of these orders, with any answers of the store and any
ends of handlers. What an attempt does in a step is what `Worker.afterClaim`, `Worker.afterHandler`
and `Worker.afterReport` say.

* `WorkerLoop.Step`, `WorkerLoop.Run`: the steps and runs of a loop.
* `Run.ticked`, `Run.cleared`: **every claim has a tick and a look at the signal of its own.**
* `Run.endsWait`: a loop ends only when it is told to. `Run.isBroken`: what breaks it down.
* `Run.balanced`: **grants, reports and their answers** are the same jobs, in the same order.
* `Run.of_over`: the loop is over. `exists_step`: else it can go on.
* `Safe`, `Run.safe`: **all that every run keeps to.** -/

namespace JobQueue.WorkerLoop

/-- **Where a loop stands.** -/
inductive Point where
  /-- It waits for a tick or the signal. -/
  | waiting
  /-- It has taken a tick, and looks at the signal next. -/
  | ticked
  /-- It makes an attempt; a call that comes next in it is still to be made. -/
  | attempting (attempt : Attempt)
  /-- The claim is made and not answered yet. -/
  | claiming
  /-- The report is made and not answered yet. -/
  | reporting (job : Job)
  | ended
  /-- It broke down, with the job that it still had to report. -/
  | broken (owed : Option Job)

/-- **What happens in a loop and around it.** -/
inductive Event where
  /-- The signal is given. -/
  | signal
  /-- The sender of the signal goes. -/
  | dropSender
  | tick
  /-- The loop finds the signal while it waits. -/
  | leave
  /-- The loop looks at the signal after a tick. -/
  | look
  | claim
  /-- The claim is answered; `registered` says for which work there is a handler then. -/
  | claimed (registered : JobType → Bool) (answer : Except JobError (Option Job))
  /-- The handler has ended, or its time is over. -/
  | handled (ending : Option Ending)
  | report (job : Job) (report : Report)
  /-- The report is answered: it is accepted, or fails. -/
  | reported (job : Job) (failure : Option JobError)
  /-- The loop goes back to wait. -/
  | again

namespace Event

/-- Others do it. -/
def isOutside : Event → Bool
  | .signal => true
  | .dropSender => true
  | _ => false

/-- **The loop breaks down in it**: a call of the store does, or the attempt of a job that there is a
handler for has no number. -/
def breaks : Event → Bool
  | .claimed _ (.error (.breakdown _)) => true
  | .claimed registered (.ok (some job)) => registered job.jobType && !job.attempt.isOk
  | .reported _ (some (.breakdown _)) => true
  | _ => false

def isTick : Event → Bool
  | .tick => true
  | _ => false

/-- The job that the claim is answered with. -/
def granted? : Event → Option Job
  | .claimed _ (.ok job) => job
  | _ => none

/-- The job that is reported. -/
def reported? : Event → Option Job
  | .report job _ => some job
  | _ => none

/-- The job whose report is answered. -/
def answered? : Event → Option Job
  | .reported job _ => some job
  | _ => none

/-- The call of the store that the loop makes. -/
def call? (worker : Worker) : Event → Option Call
  | .claim => some worker.claim
  | .report job made => some (made.call job.id worker.id)
  | _ => none

end Event

namespace Point

/-- The loop makes no step any more. -/
def isOver : Point → Bool
  | .ended => true
  | .broken _ => true
  | _ => false

def isBroken : Point → Bool
  | .broken _ => true
  | _ => false

/-- The job that was granted and is not reported yet. -/
def owed : Point → List Job
  | .attempting attempt => attempt.job?.toList
  | .broken owed => owed.toList
  | _ => []

/-- The job whose report is not answered yet. -/
def pending : Point → List Job
  | .reporting job => [job]
  | _ => []

end Point

/-- **The signal after these events**, the latest first. -/
def signalAfter (initial : Shutdown) : List Event → Shutdown
  | [] => initial
  | .signal :: earlier => (signalAfter initial earlier).signal
  | .dropSender :: earlier => (signalAfter initial earlier).dropSender
  | _ :: earlier => signalAfter initial earlier

/-- The calls that a loop makes, the latest first. -/
def callsIn (worker : Worker) (events : List Event) : List Call :=
  events.filterMap (Event.call? worker)

/-- How many ticks it takes. -/
def ticksIn (events : List Event) : Nat := events.countP Event.isTick

/-- The jobs that it is granted. -/
def grantsIn (events : List Event) : List Job := events.filterMap Event.granted?

/-- The jobs that it reports. -/
def reportsIn (events : List Event) : List Job := events.filterMap Event.reported?

/-- The jobs whose reports are answered. -/
def answersIn (events : List Event) : List Job := events.filterMap Event.answered?

/-- **A step** of a loop, with the signal as it is then. -/
inductive Step (worker : Worker) (shutdown : Shutdown) : Point → Event → Point → Prop
  | outside {point : Point} {event : Event} (h : event.isOutside = true) :
      Step worker shutdown point event point
  | tick : Step worker shutdown .waiting .tick .ticked
  | leave (h : shutdown.endsWait = true) : Step worker shutdown .waiting .leave .ended
  | look : Step worker shutdown .ticked .look
      (if shutdown.signalled then .ended else .attempting .claiming)
  | claim : Step worker shutdown (.attempting .claiming) .claim .claiming
  | claimed (registered : JobType → Bool) (answer : Except JobError (Option Job)) :
      Step worker shutdown .claiming (.claimed registered answer)
        (if (Event.claimed registered answer).breaks
          then .broken (Event.claimed registered answer).granted?
          else .attempting (Worker.afterClaim registered answer))
  | handled {job : Job} (ending : Option Ending) :
      Step worker shutdown (.attempting (.handling job)) (.handled ending)
        (.attempting (worker.afterHandler job ending))
  | report {job : Job} {report : Report} :
      Step worker shutdown (.attempting (.reporting job report)) (.report job report)
        (.reporting job)
  | reported {job : Job} (failure : Option JobError) :
      Step worker shutdown (.reporting job) (.reported job failure)
        (if (Event.reported job failure).breaks then .broken none
          else .attempting Worker.afterReport)
  | again {claimed : Except JobError Bool} :
      Step worker shutdown (.attempting (.finished claimed)) .again .waiting

/-- **A run** of a loop that began with the signal as it was: what happened, the latest first, and
where the loop stands then. -/
inductive Run (worker : Worker) (initial : Shutdown) : List Event → Point → Prop
  | start : Run worker initial [] .waiting
  | step {events : List Event} {point next : Point} {event : Event}
      (hrun : Run worker initial events point)
      (hstep : Step worker (signalAfter initial events) point event next) :
      Run worker initial (event :: events) next

variable {worker : Worker} {initial : Shutdown} {events : List Event} {point next : Point}
  {event : Event} {shutdown : Shutdown}

/-! ### Attempts -/

theorem job?_afterClaim (registered : JobType → Bool) (answer : Except JobError (Option Job)) :
    (Worker.afterClaim registered answer).job? = (Event.claimed registered answer).granted? := by
  match answer with
  | .error e => rfl
  | .ok none => rfl
  | .ok (some job) =>
    unfold Worker.afterClaim
    dsimp only
    split
    · rfl
    · rfl

theorem job?_afterHandler (worker : Worker) (job : Job) (ending : Option Ending) :
    (worker.afterHandler job ending).job? = some job := by
  obtain ⟨report, hreport⟩ := worker.exists_afterHandler job ending
  rw [hreport]
  rfl

theorem afterClaim_ne_claiming (registered : JobType → Bool)
    (answer : Except JobError (Option Job)) : Worker.afterClaim registered answer ≠ .claiming := by
  match answer with
  | .error e => exact nofun
  | .ok none => exact nofun
  | .ok (some job) =>
    unfold Worker.afterClaim
    dsimp only
    split
    · exact nofun
    · exact nofun

/-! ### The signal -/

theorem signalAfter_cons (h : event.isOutside = false) (earlier : List Event) :
    signalAfter initial (event :: earlier) = signalAfter initial earlier := by
  cases event with
  | signal => cases h
  | dropSender => cases h
  | _ => rfl

theorem signalAfter_append {more : List Event} (h : ∀ event ∈ more, event.isOutside = false)
    (earlier : List Event) : signalAfter initial (more ++ earlier) = signalAfter initial earlier := by
  induction more with
  | nil => rfl
  | cons event more ih =>
    obtain ⟨hevent, hmore⟩ := List.forall_mem_cons.1 h
    exact (signalAfter_cons hevent _).trans (ih hmore)

theorem signal_mem {later : List Event} : ∀ {earlier : List Event},
    (signalAfter initial (later ++ earlier)).signalled = true →
      (signalAfter initial earlier).signalled = false → .signal ∈ later := by
  intro earlier hafter hbefore
  induction later with
  | nil =>
    rw [List.nil_append, hbefore] at hafter
    cases hafter
  | cons event later ih =>
    cases event with
    | signal => exact List.mem_cons_self
    | dropSender => exact List.mem_cons_of_mem _ (ih hafter)
    | _ => exact List.mem_cons_of_mem _ (ih hafter)

theorem mem_of_endsWait (h : (signalAfter initial events).endsWait = true) :
    initial.endsWait = true ∨ .signal ∈ events ∨ .dropSender ∈ events := by
  induction events with
  | nil => exact .inl h
  | cons event earlier ih =>
    cases event with
    | signal => exact .inr (.inl List.mem_cons_self)
    | dropSender => exact .inr (.inr List.mem_cons_self)
    | _ =>
      exact (ih h).imp_right (Or.imp (List.mem_cons_of_mem _) (List.mem_cons_of_mem _))

theorem endsWait_signal (shutdown : Shutdown) : shutdown.signal.endsWait = true := by
  obtain ⟨signalled, alive⟩ := shutdown
  cases signalled <;> cases alive <;> rfl

theorem endsWait_cons (h : (signalAfter initial events).endsWait = true) (event : Event) :
    (signalAfter initial (event :: events)).endsWait = true := by
  cases event with
  | signal => exact endsWait_signal _
  | dropSender => exact Bool.or_true _
  | _ => exact h

/-! ### The end -/

/-- **A loop that is over makes no step.** -/
theorem Step.of_over (h : Step worker shutdown point event next) (hover : point.isOver = true) :
    next = point ∧ event.isOutside = true := by
  cases h with
  | outside h => exact ⟨rfl, h⟩
  | _ => cases hover

theorem Run.of_over (hover : ∀ point, Run worker initial events point → point.isOver = true) :
    ∀ {later : List Event} {last : Point}, Run worker initial (later ++ events) last →
      Run worker initial events last ∧ ∀ event ∈ later, event.isOutside = true := by
  intro later
  induction later with
  | nil => exact fun h => ⟨h, fun _ hmem => absurd hmem List.not_mem_nil⟩
  | cons event later ih =>
    intro last h
    cases h with
    | step hrun hstep =>
      obtain ⟨hearlier, houtside⟩ := ih hrun
      obtain ⟨rfl, hout⟩ := hstep.of_over (hover _ hearlier)
      exact ⟨hearlier, List.forall_mem_cons.2 ⟨hout, houtside⟩⟩

theorem Step.endsWait (h : Step worker shutdown point event .ended) :
    point = .ended ∨ event.isOutside = false ∧ shutdown.endsWait = true := by
  generalize hended : Point.ended = next at h
  cases h with
  | outside _ => exact .inl rfl
  | leave hends => exact .inr ⟨rfl, hends⟩
  | look =>
    cases hsignalled : shutdown.signalled with
    | true => exact .inr ⟨rfl, by unfold Shutdown.endsWait; rw [hsignalled]; rfl⟩
    | false =>
      rw [hsignalled] at hended
      cases hended
  | claimed =>
    split at hended <;> cases hended
  | reported =>
    split at hended <;> cases hended
  | _ => cases hended

/-- **A loop ends only when its wait for the signal does.** -/
theorem Run.endsWait (h : Run worker initial events .ended) :
    (signalAfter initial events).endsWait = true := by
  generalize hended : Point.ended = point at h
  induction h with
  | start => cases hended
  | @step events point next event hrun hstep ih =>
    subst hended
    rcases hstep.endsWait with rfl | ⟨hinside, hends⟩
    · exact endsWait_cons (ih rfl) event
    · rw [signalAfter_cons hinside]
      exact hends

theorem Step.isBroken (h : Step worker shutdown point event next) :
    next.isBroken = (event.breaks || point.isBroken) := by
  cases h with
  | outside houtside =>
    cases event with
    | signal => rfl
    | dropSender => rfl
    | _ => cases houtside
  | look =>
    split
    · rfl
    · rfl
  | claimed =>
    split
    · next hbreaks => rw [hbreaks]; rfl
    · next hwhole => rw [Bool.eq_false_iff.2 hwhole]; rfl
  | reported =>
    split
    · next hbreaks => rw [hbreaks]; rfl
    · next hwhole => rw [Bool.eq_false_iff.2 hwhole]; rfl
  | _ => rfl

/-- **What breaks a loop down.** -/
theorem Run.isBroken (h : Run worker initial events point) :
    point.isBroken = events.any Event.breaks := by
  induction h with
  | start => rfl
  | step hrun hstep ih => rw [hstep.isBroken, ih, List.any_cons]

/-- **A loop that is not over can go on**, whatever its calls are answered and whatever comes of its
handlers. -/
theorem exists_step (shutdown : Shutdown) (hopen : point.isOver = false) :
    ∃ event next, event.isOutside = false ∧ Step worker shutdown point event next := by
  cases point with
  | waiting => exact ⟨.tick, _, rfl, .tick⟩
  | ticked => exact ⟨.look, _, rfl, .look⟩
  | attempting attempt =>
    cases attempt with
    | claiming => exact ⟨.claim, _, rfl, .claim⟩
    | handling job => exact ⟨.handled none, _, rfl, .handled _⟩
    | reporting job report => exact ⟨.report job report, _, rfl, .report⟩
    | finished claimed => exact ⟨.again, _, rfl, .again⟩
  | claiming => exact ⟨.claimed (fun _ => false) (.ok none), _, rfl, .claimed _ _⟩
  | reporting job => exact ⟨.reported job none, _, rfl, .reported _⟩
  | ended => cases hopen
  | broken => cases hopen

/-! ### Ticks and claims -/

/-- A tick was taken, and since then only others did something. -/
def Ticked (worker : Worker) (initial : Shutdown) (events : List Event) : Prop :=
  ∃ since before, events = since ++ .tick :: before ∧ (∀ event ∈ since, event.isOutside = true) ∧
    Run worker initial before .waiting

/-- **The loop has looked at the signal** since its last tick and found none; since then only others
did something. If the signal is given now, it was given since then. -/
def Cleared (worker : Worker) (initial : Shutdown) (events : List Event) : Prop :=
  ∃ since looked, events = since ++ .look :: looked ∧ (∀ event ∈ since, event.isOutside = true) ∧
    Ticked worker initial looked ∧ (signalAfter initial looked).signalled = false ∧
    ((signalAfter initial events).signalled = true → .signal ∈ since)

theorem Ticked.outside (h : Ticked worker initial events) (hevent : event.isOutside = true) :
    Ticked worker initial (event :: events) := by
  obtain ⟨since, before, rfl, hsince, hrun⟩ := h
  exact ⟨event :: since, before, rfl, List.forall_mem_cons.2 ⟨hevent, hsince⟩, hrun⟩

theorem Cleared.outside (h : Cleared worker initial events) (hevent : event.isOutside = true) :
    Cleared worker initial (event :: events) := by
  obtain ⟨since, looked, rfl, hsince, hticked, hnone, -⟩ := h
  refine ⟨event :: since, looked, rfl, List.forall_mem_cons.2 ⟨hevent, hsince⟩, hticked, hnone,
    fun hgiven => ?_⟩
  have hmem : Event.signal ∈ (event :: since) ++ [.look] := by
    refine signal_mem ?_ hnone
    rw [List.append_assoc]
    exact hgiven
  simpa using hmem

theorem Step.ticked (h : Step worker shutdown point event .ticked) :
    point = .ticked ∧ event.isOutside = true ∨ point = .waiting ∧ event = .tick := by
  generalize hticked : Point.ticked = next at h
  cases h with
  | outside houtside => exact .inl ⟨rfl, houtside⟩
  | tick => exact .inr ⟨rfl, rfl⟩
  | look =>
    split at hticked <;> cases hticked
  | claimed =>
    split at hticked <;> cases hticked
  | reported =>
    split at hticked <;> cases hticked
  | _ => cases hticked

theorem Step.cleared (h : Step worker shutdown point event (.attempting .claiming)) :
    point = .attempting .claiming ∧ event.isOutside = true ∨
      point = .ticked ∧ event = .look ∧ shutdown.signalled = false := by
  generalize hclaiming : Point.attempting .claiming = next at h
  cases h with
  | outside houtside => exact .inl ⟨rfl, houtside⟩
  | look =>
    split at hclaiming
    · cases hclaiming
    · next hnone => exact .inr ⟨rfl, rfl, Bool.eq_false_iff.2 hnone⟩
  | claimed registered answer =>
    split at hclaiming
    · cases hclaiming
    · exact absurd (Point.attempting.inj hclaiming).symm (afterClaim_ne_claiming registered answer)
  | @handled job ending =>
    obtain ⟨report, hreport⟩ := worker.exists_afterHandler job ending
    rw [hreport] at hclaiming
    cases hclaiming
  | reported =>
    split at hclaiming <;> cases hclaiming
  | _ => cases hclaiming

/-- **A loop that looks at the signal next has taken a tick.** -/
theorem Run.ticked (h : Run worker initial events .ticked) : Ticked worker initial events := by
  generalize hticked : Point.ticked = point at h
  induction h with
  | start => cases hticked
  | @step events point next event hrun hstep ih =>
    subst hticked
    rcases hstep.ticked with ⟨rfl, houtside⟩ | ⟨rfl, rfl⟩
    · exact (ih rfl).outside houtside
    · exact ⟨[], events, rfl, fun _ hmem => absurd hmem List.not_mem_nil, hrun⟩

/-- **A loop that makes its claim next has looked at the signal.** -/
theorem Run.cleared (h : Run worker initial events (.attempting .claiming)) :
    Cleared worker initial events := by
  generalize hclaiming : Point.attempting .claiming = point at h
  induction h with
  | start => cases hclaiming
  | @step events point next event hrun hstep ih =>
    subst hclaiming
    rcases hstep.cleared with ⟨rfl, houtside⟩ | ⟨rfl, rfl, hnone⟩
    · exact (ih rfl).outside houtside
    · refine ⟨[], events, rfl, fun _ hmem => absurd hmem List.not_mem_nil, hrun.ticked, hnone,
        fun hgiven => ?_⟩
      rw [show (signalAfter initial (.look :: events)).signalled = _ from hnone] at hgiven
      cases hgiven

theorem Run.before {earlier : List Event} : ∀ {later : List Event} {last : Point},
    Run worker initial (later ++ event :: earlier) last → ∃ point next,
      Run worker initial earlier point ∧
        Step worker (signalAfter initial earlier) point event next ∧
        Run worker initial (event :: earlier) next := by
  intro later
  induction later with
  | nil =>
    intro last h
    cases h with
    | step hrun hstep => exact ⟨_, _, hrun, hstep, .step hrun hstep⟩
  | cons _ later ih =>
    intro last h
    cases h with
    | step hrun _ => exact ih hrun

/-- **Every claim has a look at the signal of its own, and a tick.** -/
theorem Run.cleared_of_claim {later earlier : List Event}
    (h : Run worker initial (later ++ .claim :: earlier) point) : Cleared worker initial earlier := by
  obtain ⟨before, next, hrun, hstep, -⟩ := h.before
  cases hstep with
  | outside houtside => cases houtside
  | claim => exact hrun.cleared

theorem Cleared.tick_mem {between earlier : List Event}
    (h : Cleared worker initial (between ++ .claim :: earlier)) : .tick ∈ between := by
  obtain ⟨since, looked, hevents, hsince, ⟨since', before, rfl, hsince', -⟩, -, -⟩ := h
  have hclaim : Event.claim ∉ since ++ .look :: since' := by
    intro hmem
    rcases List.mem_append.1 hmem with hmem | hmem
    · cases hsince _ hmem
    · rcases List.mem_cons.1 hmem with heq | hmem
      · cases heq
      · cases hsince' _ hmem
  have hsplit : between ++ .claim :: earlier = (since ++ .look :: since') ++ .tick :: before := by
    rw [hevents, List.append_assoc]
    rfl
  rcases List.append_eq_append_iff.1 hsplit with ⟨rest, hrest, heq⟩ | ⟨rest, rfl, heq⟩
  · cases rest with
    | nil => cases heq
    | cons event rest =>
      obtain rfl := (List.cons.inj heq).1
      exact absurd (hrest ▸ List.mem_append_right between List.mem_cons_self) hclaim
  · cases rest with
    | nil => cases heq
    | cons event rest =>
      obtain rfl := (List.cons.inj heq).1
      exact List.mem_append_right _ List.mem_cons_self

/-- **A look that finds the signal is the end.** -/
theorem Run.of_look {later earlier : List Event}
    (h : Run worker initial (later ++ .look :: earlier) point)
    (hgiven : (signalAfter initial earlier).signalled = true) :
    point = .ended ∧ ∀ event ∈ later, event.isOutside = true := by
  have hends : ∀ point, Run worker initial (.look :: earlier) point → point = .ended := by
    intro point hrun
    cases hrun with
    | step _ hstep =>
      cases hstep with
      | outside houtside => cases houtside
      | look => exact if_pos hgiven
  have hover : ∀ point, Run worker initial (.look :: earlier) point → point.isOver = true :=
    fun point hrun => by rw [hends point hrun]; rfl
  obtain ⟨hlast, houtside⟩ := Run.of_over hover h
  exact ⟨hends _ hlast, houtside⟩

/-! ### Grants and reports -/

/-- **What a step does to the accounts.** -/
theorem Step.balanced (h : Step worker shutdown point event next) :
    event.granted?.toList ++ point.owed = next.owed ++ event.reported?.toList ∧
      event.reported?.toList ++ point.pending = next.pending ++ event.answered?.toList := by
  cases h with
  | outside houtside =>
    cases event with
    | signal => exact ⟨(List.append_nil _).symm, (List.append_nil _).symm⟩
    | dropSender => exact ⟨(List.append_nil _).symm, (List.append_nil _).symm⟩
    | _ => cases houtside
  | look =>
    split
    · exact ⟨rfl, rfl⟩
    · exact ⟨rfl, rfl⟩
  | claimed registered answer =>
    split
    · exact ⟨rfl, rfl⟩
    · refine ⟨?_, rfl⟩
      show _ = (Worker.afterClaim registered answer).job?.toList ++ []
      rw [job?_afterClaim]
      rfl
  | @handled job ending =>
    refine ⟨?_, rfl⟩
    show [job] = (worker.afterHandler job ending).job?.toList ++ []
    rw [job?_afterHandler]
    rfl
  | reported =>
    split
    · exact ⟨rfl, rfl⟩
    · exact ⟨rfl, rfl⟩
  | _ => exact ⟨rfl, rfl⟩

theorem filterMap_cons_toList {α β : Type} (f : α → Option β) (a : α) (l : List α) :
    (a :: l).filterMap f = (f a).toList ++ l.filterMap f := by
  rw [List.filterMap_cons]
  cases f a <;> rfl

/-- **The accounts balance**: the jobs that were granted are those reported, in the same order, but
for one that is owed; and those reported are those whose report is answered, but for one that is
pending. -/
theorem Run.balanced (h : Run worker initial events point) :
    grantsIn events = point.owed ++ reportsIn events ∧
      reportsIn events = point.pending ++ answersIn events := by
  induction h with
  | start => exact ⟨rfl, rfl⟩
  | @step events point next event hrun hstep ih =>
    obtain ⟨hgrants, hreports⟩ := ih
    obtain ⟨howed, hpending⟩ := hstep.balanced
    simp only [grantsIn, reportsIn, answersIn] at hgrants hreports
    simp only [grantsIn, reportsIn, answersIn, filterMap_cons_toList]
    constructor
    · calc event.granted?.toList ++ events.filterMap Event.granted?
          = (event.granted?.toList ++ point.owed) ++ events.filterMap Event.reported? := by
            rw [hgrants, List.append_assoc]
        _ = next.owed ++ (event.reported?.toList ++ events.filterMap Event.reported?) := by
            rw [howed, List.append_assoc]
    · calc event.reported?.toList ++ events.filterMap Event.reported?
          = (event.reported?.toList ++ point.pending) ++ events.filterMap Event.answered? := by
            rw [hreports, List.append_assoc]
        _ = next.pending ++ (event.answered?.toList ++ events.filterMap Event.answered?) := by
            rw [hpending, List.append_assoc]

theorem Step.uncounted {job : Job} (h : Step worker shutdown point event (.broken (some job))) :
    point = .broken (some job) ∨ job.attempt.isOk = false := by
  generalize hbroken : Point.broken (some job) = next at h
  cases h with
  | outside _ => exact .inl rfl
  | look =>
    split at hbroken <;> cases hbroken
  | claimed registered answer =>
    split at hbroken
    · next hbreaks =>
      match answer with
      | .ok (some granted) =>
        obtain rfl := Option.some.inj (Point.broken.inj hbroken)
        exact .inr ((Bool.not_eq_true' _).mp (Bool.and_eq_true_iff.1 hbreaks).2)
      | .ok none => cases hbreaks
      | .error e => cases hbroken
    · cases hbroken
  | reported =>
    split at hbroken <;> cases hbroken
  | _ => cases hbroken

/-- **Who breaks down with a job that is owed** was granted a job whose attempts are beyond count. -/
theorem Run.uncounted {job : Job} (h : Run worker initial events (.broken (some job))) :
    job.attempt.isOk = false := by
  generalize hbroken : Point.broken (some job) = point at h
  induction h with
  | start => cases hbroken
  | step hrun hstep ih =>
    subst hbroken
    exact hstep.uncounted.elim (fun hsame => ih hsame.symm) id

/-! ### All together -/

/-- **What a run of a loop keeps to.** -/
structure Safe (worker : Worker) (initial : Shutdown) (events : List Event) (point : Point) : Prop where
  /-- Every claim has a tick and a look at the signal of its own; if the signal was given when the claim
  was made, it was given since the look. -/
  cleared : ∀ later earlier, events = later ++ .claim :: earlier → Cleared worker initial earlier
  /-- A tick leads to one claim at most. -/
  ticked : ∀ later between earlier, events = later ++ .claim :: (between ++ .claim :: earlier) →
    .tick ∈ between
  /-- The loop ends only after the signal was given or its sender has gone. -/
  told : point = .ended → initial.endsWait = true ∨ .signal ∈ events ∨ .dropSender ∈ events
  /-- A look that finds the signal is the end. -/
  looked : ∀ later earlier, events = later ++ .look :: earlier →
    (signalAfter initial earlier).signalled = true →
      point = .ended ∧ ∀ event ∈ later, event.isOutside = true
  /-- The jobs that were granted are those reported, but for one that is owed. -/
  granted : grantsIn events = point.owed ++ reportsIn events
  /-- The jobs reported are those whose report is answered, but for one that is pending. -/
  reported : reportsIn events = point.pending ++ answersIn events
  /-- Only a breakdown ends the loop otherwise. -/
  broken : point.isBroken = events.any Event.breaks
  /-- A loop that breaks down owes no job but one whose attempts are beyond count. -/
  uncounted : ∀ job, point = .broken (some job) → job.attempt.isOk = false
  /-- A loop that is not over can go on. -/
  lively : point.isOver = false → ∀ shutdown, ∃ event next, event.isOutside = false ∧
    Step worker shutdown point event next

/-- **Every run is safe.** -/
theorem Run.safe (h : Run worker initial events point) : Safe worker initial events point where
  cleared := by
    rintro later earlier rfl
    exact h.cleared_of_claim
  ticked := by
    rintro later between earlier rfl
    exact h.cleared_of_claim.tick_mem
  told := by
    rintro rfl
    exact mem_of_endsWait h.endsWait
  looked := by
    rintro later earlier rfl hgiven
    exact h.of_look hgiven
  granted := h.balanced.1
  reported := h.balanced.2
  broken := h.isBroken
  uncounted := by
    rintro job rfl
    exact h.uncounted
  lively hopen shutdown := exists_step shutdown hopen

end JobQueue.WorkerLoop

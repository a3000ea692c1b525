import JobQueue.Proofs.Cleanup.Calls
import JobQueue.Proofs.Sql.Groups

/-! # Rows that change their state

A call that neither adds nor removes rows leaves each row as it was, or moves it to another state of
its queue. This is so in a store of either kind, with any rows, whatever is in the way of the call
and whether or not the rows can be read afterwards.

* `Shift`: a unit that goes from one state to another. `Shifts`: rows before and after, with the
  shifts. `Shifts.countP_isIn`: the numbers of rows after the shifts.
* `Backend.shifts_of_run`: **what a call makes of the rows.** -/

namespace JobQueue

/-- **A unit that goes from one state to another** in the counts of a queue. -/
structure Shift where
  queue : QueueName
  source : Status
  target : Status
deriving DecidableEq, Repr

namespace Shift

/-- The shift takes from the count of the queue and the state. -/
def leaves (queue : QueueName) (status : Status) (shift : Shift) : Bool :=
  shift.queue == queue && shift.source == status

/-- The shift adds to the count of the queue and the state. -/
def reaches (queue : QueueName) (status : Status) (shift : Shift) : Bool :=
  shift.queue == queue && shift.target == status

end Shift

/-- **The row has moved** to another state of its queue. -/
structure Sql.Row.Turned (row row' : Sql.Row) (shift : Shift) : Prop where
  queue : row.queue = shift.queue
  sameQueue : row'.queue = shift.queue
  source : row.status = shift.source.name
  target : row'.status = shift.target.name
  moved : shift.source ≠ shift.target

/-- **Rows before and after**: each is as it was or has moved, which are the shifts. -/
inductive Shifts : List Sql.Row → List Sql.Row → List Shift → Prop
  | nil : Shifts [] [] []
  | kept {rows rows' : List Sql.Row} {shifts : List Shift} (row : Sql.Row)
      (h : Shifts rows rows' shifts) : Shifts (row :: rows) (row :: rows') shifts
  | turned {row row' : Sql.Row} {shift : Shift} {rows rows' : List Sql.Row}
      {shifts : List Shift} (hrow : row.Turned row' shift) (h : Shifts rows rows' shifts) :
      Shifts (row :: rows) (row' :: rows') (shift :: shifts)

/-- The number of rows that are not as they were. -/
def changedRows (rows rows' : List Sql.Row) : Nat := (rows.zip rows').countP fun p => p.1 != p.2

namespace Sql.Row.Turned

variable {row row' : Row} {shift : Shift}

theorem ne (h : row.Turned row' shift) : row ≠ row' := by
  rintro rfl
  exact h.moved (Status.name_injective (h.source.symm.trans h.target))

theorem ofJob {job job' : Job} (hqueue : job'.queue = job.queue)
    (hstatus : job'.status ≠ job.status) :
    (Row.ofJob job).Turned (Row.ofJob job') ⟨job.queue, job.status, job'.status⟩ :=
  ⟨rfl, hqueue, rfl, rfl, fun heq => hstatus heq.symm⟩

theorem isIn_source (h : row.Turned row' shift) (queue : QueueName) (status : Status) :
    row.isIn queue status = shift.leaves queue status := by
  unfold Row.isIn Shift.leaves
  rw [h.queue, h.source, Bool.eq_iff_iff, Bool.and_eq_true, Bool.and_eq_true, beq_iff_eq,
    beq_iff_eq, beq_iff_eq]
  exact and_congr_right fun _ => ⟨Status.name_injective, fun heq => congrArg Status.name heq⟩

theorem isIn_target (h : row.Turned row' shift) (queue : QueueName) (status : Status) :
    row'.isIn queue status = shift.reaches queue status := by
  unfold Row.isIn Shift.reaches
  rw [h.sameQueue, h.target, Bool.eq_iff_iff, Bool.and_eq_true, Bool.and_eq_true, beq_iff_eq,
    beq_iff_eq, beq_iff_eq]
  exact and_congr_right fun _ => ⟨Status.name_injective, fun heq => congrArg Status.name heq⟩

end Sql.Row.Turned

namespace Shifts

variable {rows rows' : List Sql.Row} {shifts : List Shift}

theorem refl : ∀ rows : List Sql.Row, Shifts rows rows []
  | [] => .nil
  | row :: rows => .kept row (refl rows)

theorem exists_of_map {ι : Type} (before after : ι → Sql.Row) : ∀ items : List ι,
    (∀ i ∈ items, after i = before i ∨ ∃ shift, (before i).Turned (after i) shift) →
    ∃ shifts, Shifts (items.map before) (items.map after) shifts
  | [], _ => ⟨[], .nil⟩
  | i :: items, h => by
    obtain ⟨hfirst, hrest⟩ := List.forall_mem_cons.1 h
    obtain ⟨shifts, hshifts⟩ := exists_of_map before after items hrest
    rw [List.map_cons, List.map_cons]
    rcases hfirst with hsame | ⟨shift, hturned⟩
    · rw [hsame]
      exact ⟨shifts, .kept _ hshifts⟩
    · exact ⟨shift :: shifts, .turned hturned hshifts⟩

/-- **There is a shift for each row that is not as it was.** -/
theorem length_eq (h : Shifts rows rows' shifts) : shifts.length = changedRows rows rows' := by
  unfold changedRows
  induction h with
  | nil => rfl
  | kept row h ih =>
    rw [List.zip_cons_cons, List.countP_cons_of_neg (by simp)]
    exact ih
  | turned hrow h ih =>
    rw [List.zip_cons_cons, List.countP_cons_of_pos (by simpa using hrow.ne), List.length_cons, ih]

theorem source_ne_target (h : Shifts rows rows' shifts) :
    ∀ shift ∈ shifts, shift.source ≠ shift.target := by
  induction h with
  | nil => exact fun _ hmem => absurd hmem List.not_mem_nil
  | kept row h ih => exact ih
  | turned hrow h ih => exact List.forall_mem_cons.2 ⟨hrow.moved, ih⟩

theorem known (h : Shifts rows rows' shifts) (hknown : ∀ row ∈ rows, row.Known) :
    ∀ row ∈ rows', row.Known := by
  induction h with
  | nil => exact hknown
  | kept row h ih =>
    obtain ⟨hfirst, hrest⟩ := List.forall_mem_cons.1 hknown
    exact List.forall_mem_cons.2 ⟨hfirst, ih hrest⟩
  | @turned _ _ shift _ _ _ hrow h ih =>
    exact List.forall_mem_cons.2
      ⟨⟨shift.target, hrow.target⟩, ih fun row hmem => hknown row (List.mem_cons_of_mem _ hmem)⟩

/-- **The numbers of rows after the shifts**: each takes one from a count and adds one to another
count. -/
theorem countP_isIn (h : Shifts rows rows' shifts) (queue : QueueName) (status : Status) :
    rows'.countP (Sql.Row.isIn queue status) + shifts.countP (Shift.leaves queue status) =
      rows.countP (Sql.Row.isIn queue status) + shifts.countP (Shift.reaches queue status) := by
  induction h with
  | nil => rfl
  | kept row h ih =>
    rw [List.countP_cons, List.countP_cons]
    omega
  | turned hrow h ih =>
    rw [List.countP_cons, List.countP_cons, List.countP_cons, List.countP_cons,
      hrow.isIn_source, hrow.isIn_target]
    omega

end Shifts

/-! ### In memory -/

namespace MemoryStore

variable {jobs : List Job}

theorem shifts_replace (hdistinct : (jobs.map Job.id).Nodup) {old new : Job} (hold : old ∈ jobs)
    (hid : new.id = old.id) (hqueue : new.queue = old.queue) (hstatus : new.status ≠ old.status) :
    ∃ shifts, Shifts (jobs.map Sql.Row.ofJob) ((replace new jobs).map Sql.Row.ofJob) shifts := by
  unfold replace
  rw [List.map_map]
  refine Shifts.exists_of_map _ _ jobs fun job hjob => ?_
  show Sql.Row.ofJob (if job.id = new.id then new else job) = _ ∨ _
  by_cases hsame : job.id = new.id
  · obtain rfl : job = old := eq_of_id_eq hdistinct hjob hold (hsame.trans hid)
    rw [Function.comp_apply, if_pos hsame]
    exact .inr ⟨_, .ofJob hqueue hstatus⟩
  · rw [if_neg hsame]
    exact .inl rfl

theorem failed_cases {job changed : Job} {error : String} {delay : Duration} {now : Int}
    (h : failed job error delay now = .ok changed) : changed.id = job.id ∧
      changed.queue = job.queue ∧ changed.status ≠ .running := by
  obtain ⟨attempts, -, h⟩ := bind_eq_ok h
  split at h
  · obtain ⟨time, -, h⟩ := bind_eq_ok h
    obtain rfl := Except.ok.inj h
    exact ⟨rfl, rfl, nofun⟩
  · obtain rfl := Except.ok.inj h
    exact ⟨rfl, rfl, nofun⟩

section Calls

variable {store : MemoryStore} (hdistinct : (store.jobs.map Job.id).Nodup)
include hdistinct

/-- **A report** moves the job that the worker holds, if it is in another state then. -/
theorem shifts_withHeld (id : JobId) (worker : WorkerId) (now : Int) {change : Job → Job}
    (hchange : ∀ job, (change job).id = job.id ∧ (change job).queue = job.queue ∧
      (change job).status ≠ .running) :
    ∃ shifts, Shifts (store.jobs.map Sql.Row.ofJob)
      ((store.withHeld id worker now change).2.jobs.map Sql.Row.ofJob) shifts := by
  unfold withHeld
  rcases held_cases hdistinct id worker with ⟨job, hheld, hfind, hjob⟩ | ⟨e, hheld, -, -⟩
  · obtain ⟨hid, hqueue, hstatus⟩ := hchange job
    have hrunning := (Call.isHeldBy_iff.1 hjob).2.1
    rw [hheld]
    refine shifts_replace hdistinct ((Call.find?_eq_some_iff hdistinct).1 hfind).1 hid hqueue ?_
    rw [hrunning]
    exact hstatus
  · rw [hheld]
    exact ⟨[], .refl _⟩

theorem shifts_fail (id : JobId) (worker : WorkerId) (error : String) (delay : Duration)
    (now : Int) : ∃ shifts, Shifts (store.jobs.map Sql.Row.ofJob)
      ((store.fail id worker error delay now).2.jobs.map Sql.Row.ofJob) shifts := by
  unfold fail
  rcases held_cases hdistinct id worker with ⟨job, hheld, hfind, hjob⟩ | ⟨e, hheld, -, -⟩
  · rw [hheld]
    dsimp only
    cases hfailed : failed job error delay now with
    | error cause => exact ⟨[], .refl _⟩
    | ok changed =>
      obtain ⟨hid, hqueue, hstatus⟩ := failed_cases hfailed
      refine shifts_replace hdistinct ((Call.find?_eq_some_iff hdistinct).1 hfind).1 hid hqueue ?_
      rw [(Call.isHeldBy_iff.1 hjob).2.1]
      exact hstatus
  · rw [hheld]
    exact ⟨[], .refl _⟩

theorem shifts_cancel (id : JobId) (now : Int) : ∃ shifts, Shifts (store.jobs.map Sql.Row.ofJob)
    ((store.cancel id now).2.jobs.map Sql.Row.ofJob) shifts := by
  unfold cancel
  rcases live_cases hdistinct id with ⟨job, hlive, hfind, hjob⟩ | ⟨e, hlive, -, -⟩
  · rw [hlive]
    refine shifts_replace hdistinct ((Call.find?_eq_some_iff hdistinct).1 hfind).1 rfl rfl ?_
    intro heq
    unfold Job.isLive at hjob
    rw [← heq] at hjob
    cases (Bool.and_eq_true_iff.1 hjob).2
  · rw [hlive]
    exact ⟨[], .refl _⟩

theorem shifts_claimNext (queue : QueueName) (worker : WorkerId) (now : Int) :
    ∃ shifts, Shifts (store.jobs.map Sql.Row.ofJob)
      ((store.claimNext queue worker now).2.jobs.map Sql.Row.ofJob) shifts := by
  unfold claimNext
  split
  · exact ⟨[], .refl _⟩
  · next job hfirst =>
    obtain ⟨hmem, -, hpending, -⟩ := mem_claimable.1 (isFirst_of_first? hfirst).mem
    refine shifts_replace hdistinct hmem rfl rfl ?_
    rw [hpending]
    exact nofun

omit hdistinct in
theorem shifts_recoverStale (cutoff now : Int) : ∃ shifts,
    Shifts (store.jobs.map Sql.Row.ofJob)
      ((store.recoverStale cutoff now).2.jobs.map Sql.Row.ofJob) shifts := by
  show ∃ shifts, Shifts _ ((store.jobs.map _).map Sql.Row.ofJob) shifts
  rw [List.map_map]
  refine Shifts.exists_of_map _ _ store.jobs fun job _ => ?_
  rw [Function.comp_apply]
  split
  · next hstale =>
    refine .inr ⟨_, .ofJob rfl ?_⟩
    unfold isStale at hstale
    rw [beq_iff_eq.1 (Bool.and_eq_true_iff.1 hstale).1]
    exact nofun
  · exact .inl rfl

/-- **What a call makes of the jobs** that neither adds nor removes any. -/
theorem shifts_of_run {call : Call} (hinsert : ∀ job, call ≠ .insert job)
    (hdelete : ∀ cutoff, call ≠ .deleteOlderThan cutoff) (now : Int) :
    ∃ shifts, Shifts (store.jobs.map Sql.Row.ofJob)
      ((store.run call now).2.jobs.map Sql.Row.ofJob) shifts := by
  unfold MemoryStore.run
  split
  · exact ⟨[], .refl _⟩
  · cases call with
    | insert job => exact absurd rfl (hinsert job)
    | findById id => exact ⟨[], .refl _⟩
    | claimNext queue worker => exact shifts_claimNext hdistinct queue worker now
    | complete id worker result =>
      exact shifts_withHeld hdistinct id worker now fun _ => ⟨rfl, rfl, nofun⟩
    | fail id worker error delay => exact shifts_fail hdistinct id worker error delay now
    | failPermanently id worker error =>
      exact shifts_withHeld hdistinct id worker now fun _ => ⟨rfl, rfl, nofun⟩
    | cancel id => exact shifts_cancel hdistinct id now
    | recoverStale threshold => exact shifts_recoverStale _ now
    | deleteOlderThan cutoff => exact absurd rfl (hdelete cutoff)
    | queueStats => exact ⟨[], .refl _⟩

end Calls

end MemoryStore

/-! ### In a database -/

namespace Sql

namespace Row

variable {row : Row}

theorem turned_claim (worker : WorkerId) (now : Int) (h : row.status = Status.pending.name) :
    row.Turned (row.claim worker now) ⟨row.queue, .pending, .running⟩ :=
  ⟨rfl, rfl, h, rfl, nofun⟩

theorem turned_settle {source target : Status} (now : Int) (h : row.status = source.name)
    (hne : source ≠ target) : row.Turned (row.settle target now) ⟨row.queue, source, target⟩ :=
  ⟨rfl, rfl, h, rfl, hne⟩

theorem turned_failAttempt (retryAt : Int) (error : String) (now : Int)
    (h : row.status = Status.running.name) :
    ∃ shift, row.Turned (row.failAttempt retryAt error now) shift := by
  cases hagain : row.attempts.succ.isBelow row.maxAttempts with
  | true =>
    refine ⟨⟨row.queue, .running, .pending⟩, rfl, rfl, h, ?_, nofun⟩
    show (if row.attempts.succ.isBelow row.maxAttempts then _ else _) = _
    rw [hagain]
    rfl
  | false =>
    refine ⟨⟨row.queue, .running, .failed⟩, rfl, rfl, h, ?_, nofun⟩
    show (if row.attempts.succ.isBelow row.maxAttempts then _ else _) = _
    rw [hagain]
    rfl

theorem status_of_isHeldBy {id worker : String} (h : row.isHeldBy id worker = true) :
    row.status = Status.running.name := by
  unfold isHeldBy at h
  simp only [Bool.and_eq_true, beq_iff_eq] at h
  exact h.1.2

theorem turned_cancel {id : String} (now : Int) (h : row.isLive id = true) :
    ∃ shift, row.Turned (row.settle .cancelled now) shift := by
  unfold isLive at h
  simp only [Bool.and_eq_true, Bool.or_eq_true, beq_iff_eq] at h
  rcases h.2 with hpending | hrunning
  · exact ⟨_, turned_settle now hpending nofun⟩
  · exact ⟨_, turned_settle now hrunning nofun⟩

end Row

namespace Store

variable (store : Store)

/-- **An update changes the rows that meet its condition, or is refused.** -/
theorem update_cases (columns : List Column) (condition : Row → Bool) (change : Row → Row) :
    (∃ fault, store.update columns condition change = .error fault) ∨
      ∃ rows after, store.update columns condition change = .ok (rows, after) ∧
        after.rows = store.rows.map fun row => if condition row then change row else row := by
  unfold update
  rcases store.modify_cases columns (fun table => table.update condition change)
    (fun table => table.updatePages movedColumns condition change) with
    ⟨fault, hmodify⟩ | ⟨table, after, hmodify, hbefore, hafter⟩
  · exact .inl ⟨fault, by rw [hmodify]; rfl⟩
  · refine .inr ⟨_, { store with connection := after }, by rw [hmodify]; rfl, ?_⟩
    rw [hafter, hbefore]
    rfl

variable {store} {condition : Row → Bool} {change : Row → Row}
  (hturned : ∀ row, condition row = true → ∃ shift, row.Turned (change row) shift)
include hturned

theorem shifts_map (rows : List Row) : ∃ shifts,
    Shifts rows (rows.map fun row => if condition row then change row else row) shifts := by
  have hmoved : ∀ row ∈ rows, (if condition row then change row else row) = row ∨
      ∃ shift, row.Turned (if condition row then change row else row) shift := by
    intro row _
    split
    · next h => exact .inr (hturned row h)
    · exact .inl rfl
  obtain ⟨shifts, hshifts⟩ := Shifts.exists_of_map id _ rows hmoved
  rw [List.map_id] at hshifts
  exact ⟨shifts, hshifts⟩

/-- **A report or a cancellation** moves the rows that meet its condition, or none. -/
theorem shifts_transition (id : JobId) (action : Action) :
    ∃ shifts, Shifts store.rows (store.transition id action condition change).2.rows shifts := by
  unfold transition
  rcases (store.prepare action.method action.columns).update_cases action.columns condition
    change with ⟨fault, hupdate⟩ | ⟨rows, after, hupdate, hafter⟩
  · dsimp only
    rw [hupdate]
    exact ⟨[], by simpa using Shifts.refl store.rows⟩
  · rw [rows_prepare] at hafter
    dsimp only
    rw [hupdate]
    cases rows with
    | nil =>
      show ∃ shifts, Shifts store.rows after.rows shifts
      rw [hafter]
      exact shifts_map hturned store.rows
    | cons row rows =>
      show ∃ shifts, Shifts store.rows after.rows shifts
      rw [hafter]
      exact shifts_map hturned store.rows

omit hturned in
theorem shifts_claimNext (queue : QueueName) (worker : WorkerId) (now : Int) :
    ∃ shifts, Shifts store.rows (store.claimNext queue worker now).2.rows shifts := by
  unfold claimNext
  dsimp only
  rcases (store.prepare .claimNext [.claimedBy, .createdAt]).update_cases [.claimedBy, .createdAt]
    (fun row => (store.firstDue? queue now).any (fun due => due.id == row.id) &&
      row.status == Status.pending.name) (Row.claim worker now) with
    ⟨fault, hupdate⟩ | ⟨rows, after, hupdate, hafter⟩
  · rw [hupdate]
    exact ⟨[], by simpa using Shifts.refl store.rows⟩
  · rw [rows_prepare] at hafter
    rw [hupdate]
    show ∃ shifts, Shifts store.rows after.rows shifts
    rw [hafter]
    refine shifts_map (fun row hrow => ?_) store.rows
    rw [Bool.and_eq_true, beq_iff_eq] at hrow
    exact ⟨_, Row.turned_claim worker now hrow.2⟩

omit hturned in
theorem shifts_recoverStale (threshold : Duration) (now : Int) :
    ∃ shifts, Shifts store.rows (store.recoverStale threshold now).2.rows shifts := by
  unfold recoverStale
  cases Timestamp.before now threshold with
  | error cause => exact ⟨[], .refl _⟩
  | ok cutoff =>
    dsimp only
    rcases store.update_cases [.claimedBy] (Row.isStale cutoff) (Row.settle .pending now) with
      ⟨fault, hupdate⟩ | ⟨rows, after, hupdate, hafter⟩
    · rw [hupdate]
      exact ⟨[], .refl _⟩
    · rw [hupdate]
      show ∃ shifts, Shifts store.rows after.rows shifts
      rw [hafter]
      refine shifts_map (fun row hrow => ?_) store.rows
      unfold Row.isStale at hrow
      rw [Bool.and_eq_true, beq_iff_eq] at hrow
      exact ⟨_, Row.turned_settle now hrow.1 nofun⟩

omit hturned in
/-- **What a call makes of the rows** that neither adds nor removes any. -/
theorem shifts_of_run {call : Call} (hinsert : ∀ job, call ≠ .insert job)
    (hdelete : ∀ cutoff, call ≠ .deleteOlderThan cutoff) (now : Int) :
    ∃ shifts, Shifts store.rows (store.run call now).2.rows shifts := by
  cases call with
  | insert job => exact absurd rfl (hinsert job)
  | findById id =>
    refine ⟨[], ?_⟩
    show Shifts store.rows (store.findById id).2.rows []
    unfold findById
    dsimp only
    split <;> simpa using Shifts.refl store.rows
  | claimNext queue worker => exact shifts_claimNext queue worker now
  | complete id worker result =>
    refine shifts_transition (fun row hrow => ?_) id .complete
    have hstatus := Row.status_of_isHeldBy hrow
    exact ⟨⟨row.queue, .running, .completed⟩, rfl, rfl, hstatus, rfl, nofun⟩
  | fail id worker error delay =>
    exact shifts_transition (fun row hrow =>
      Row.turned_failAttempt _ error now (Row.status_of_isHeldBy hrow)) id .fail
  | failPermanently id worker error =>
    refine shifts_transition (fun row hrow => ?_) id .failPermanently
    have hstatus := Row.status_of_isHeldBy hrow
    exact ⟨⟨row.queue, .running, .failed⟩, rfl, rfl, hstatus, rfl, nofun⟩
  | cancel id => exact shifts_transition (fun row hrow => Row.turned_cancel now hrow) id .cancel
  | recoverStale threshold => exact shifts_recoverStale threshold now
  | deleteOlderThan cutoff => exact absurd rfl (hdelete cutoff)
  | queueStats => exact ⟨[], .refl _⟩

end Store

end Sql

/-- **What a call makes of the rows** of a store of either kind, when it neither adds nor removes
any. -/
theorem Backend.shifts_of_run {store : Backend} (hdistinct : (store.rows.map Sql.Row.id).Nodup)
    {call : Call} (hinsert : ∀ job, call ≠ .insert job)
    (hdelete : ∀ cutoff, call ≠ .deleteOlderThan cutoff) (now : Int) :
    ∃ shifts, Shifts store.rows (store.run call now).2.rows shifts := by
  cases store with
  | memory store =>
    have hids : (store.jobs.map Job.id).Nodup := by
      have hrows : ((store.jobs.map Sql.Row.ofJob).map Sql.Row.id).Nodup := hdistinct
      rwa [List.map_map] at hrows
    exact MemoryStore.shifts_of_run hids hinsert hdelete now
  | sql store => exact Sql.Store.shifts_of_run hinsert hdelete now

end JobQueue

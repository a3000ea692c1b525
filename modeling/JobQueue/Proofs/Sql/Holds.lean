import JobQueue.Proofs.Sql.Ready

/-! # A store of jobs

A store *holds* jobs (`Store.Holds`) when it is ready, its rows are those of the jobs, ids are
different, and the counters of jobs that have not ended have room. A new store holds nothing, and a
call of a store that holds jobs leaves it with those that `Call.effect` says (`Holds.run`). The
answers are said for each call:

* `Holds.insert`: a job is refused and nothing changes, or it enters.
* `Holds.transition`: the change of one job, by `Transition`: the job that the call takes is given
  back, or the call is refused and nothing changes.
* `Holds.claimNext`: the first due job, by `Claim`. `firstDue?_ofJob`: it is the first in the order
  of claims.
* `Holds.recoverStale`, `Holds.deleteOlderThan`, `Holds.findById`. -/

namespace JobQueue

open MemoryStore

/-- The counters fit 32 bits; the attempts, as long as the job has not ended. -/
structure Job.HasRoom (job : Job) : Prop where
  attempts : job.status.isTerminal = false → job.attempts ≤ 2147483647
  maxAttempts : job.maxAttempts ≤ 2147483647

theorem Job.Move.hasRoom {now : Int} {call : Call} {job job' : Job}
    (h : Job.Move now call job job') (hroom : job.HasRoom) : job'.HasRoom := by
  have hattempts := hroom.attempts h.live
  refine ⟨fun hlive => ?_, by rw [h.same.maxAttempts]; exact hroom.maxAttempts⟩
  cases h with
  | retry _ _ _ hleft =>
    show job.attempts + 1 ≤ 2147483647
    have hmax := hroom.maxAttempts
    omega
  | exhaust => cases hlive
  | _ => exact hattempts

namespace Sql.Store

/-- **The store holds the jobs.** -/
structure Holds (store : Store) (jobs : List Job) : Prop where
  ready : store.Ready
  rows : store.rows = jobs.map Row.ofJob
  distinct : (jobs.map Job.id).Nodup
  room : ∀ job ∈ jobs, job.HasRoom

theorem holds_fresh (inFile : Bool) : (fresh inFile).Holds [] :=
  ⟨ready_fresh inFile, rows_fresh inFile, List.nodup_nil, fun _ h => absurd h List.not_mem_nil⟩

variable {store after : Store} {jobs : List Job}

theorem Holds.row? (h : store.Holds jobs) (id : JobId) :
    store.row? id = (find? id jobs).map Row.ofJob := by
  unfold Store.row? find?
  rw [h.rows, List.find?_map]
  rfl

theorem Holds.mem_rows (h : store.Holds jobs) {job : Job} (hjob : job ∈ jobs) :
    Row.ofJob job ∈ store.rows := by
  rw [h.rows]
  exact List.mem_map_of_mem hjob

theorem Holds.nodup_ids (h : store.Holds jobs) : (store.rows.map Row.id).Nodup := by
  rw [h.rows, List.map_map]
  exact h.distinct

theorem Holds.of_rows (h : store.Holds jobs) (hready : after.Ready)
    (hrows : after.rows = store.rows) : after.Holds jobs :=
  ⟨hready, hrows.trans h.rows, h.distinct, h.room⟩

theorem Holds.prepare (h : store.Holds jobs) (method : Method) (columns : List Column) :
    (store.prepare method columns).Holds jobs :=
  h.of_rows (h.ready.prepare method columns) (rows_prepare store method columns)

theorem Holds.next (h : store.Holds jobs) {call : Call} (now : Int)
    (hcall : ∀ job, call = .insert job → job.HasRoom) (hready : after.Ready)
    (hrows : after.rows = (call.effect now jobs).map Row.ofJob) :
    after.Holds (call.effect now jobs) :=
  ⟨hready, hrows, Call.distinct_effect call now h.distinct,
    Call.forall_mem_effect h.distinct h.room (fun job hjob _ => hcall job hjob)
      fun _ _ hmove hroom => hmove.hasRoom hroom⟩

/-! ### Entering -/

/-- **A job is refused, or it enters.** -/
theorem Holds.insert (h : store.Holds jobs) (now : Int) {job : Job} (hroom : job.HasRoom) :
    (Call.admits jobs job = false ∧ ∃ e, store.insert job = (.error e, store)) ∨
      Call.admits jobs job = true ∧ ∃ after, store.insert job = (.ok (), after) ∧
        after.Holds ((Call.insert job).effect now jobs) := by
  by_cases hadmits : Call.admits jobs job = true
  · obtain ⟨hallowed, hnew⟩ := Call.admits_iff.1 hadmits
    have hrow : store.row? job.id = none := by
      rw [h.row?, hnew]
      rfl
    obtain ⟨after, hinsert, hready, hrows⟩ := h.ready.insert_new hallowed hrow
    have heffect : (Call.insert job).effect now jobs = jobs ++ [job] := if_pos hadmits
    refine .inr ⟨hadmits, after, hinsert, h.next now (fun other hother => ?_) hready ?_⟩
    · rw [← Call.insert.inj hother]
      exact hroom
    · rw [hrows, h.rows, heffect, List.map_append]
      rfl
  · refine .inl ⟨by simpa using hadmits, ?_⟩
    by_cases hallowed : 1 ≤ job.maxAttempts
    · have hrow : store.row? job.id ≠ none := by
        rw [h.row?]
        intro hnone
        exact hadmits (Call.admits_iff.2 ⟨hallowed, Option.map_eq_none_iff.1 hnone⟩)
      exact ⟨_, h.ready.insert_taken hallowed hrow⟩
    · exact ⟨_, h.ready.insert_disallowed (by omega)⟩

/-! ### The change of one job -/

theorem map_turned {call : Call} {now : Int} {condition : Row → Bool} {change : Row → Row}
    (hrows : store.rows = jobs.map Row.ofJob)
    (hcondition : ∀ job ∈ jobs, condition (.ofJob job) = call.takes now jobs job)
    (hchange : ∀ job ∈ jobs, call.takes now jobs job = true →
      change (.ofJob job) = .ofJob (call.turn now job)) :
    (store.rows.map fun row => if condition row then change row else row) =
      (call.turned now jobs).map Row.ofJob := by
  unfold Call.turned
  rw [hrows, List.map_map, List.map_map]
  refine List.map_congr_left fun job hjob => ?_
  show (if condition (.ofJob job) then change (.ofJob job) else .ofJob job) =
    Row.ofJob (if call.takes now jobs job then call.turn now job else job)
  rw [hcondition job hjob]
  by_cases htakes : call.takes now jobs job = true
  · rw [if_pos htakes, if_pos htakes, hchange job hjob htakes]
  · rw [if_neg htakes, if_neg htakes]

/-- **What a change of the job of an id does**: it takes the job, changes it and gives it back, or
it takes none, and is refused for what is there under the id. -/
inductive Transition (store : Store) (jobs : List Job) (call : Call) (now : Int) (id : JobId)
    (action : Action) : Except JobError Job × Store → Prop
  | taken {job : Job} {after : Store} (hfind : find? id jobs = some job)
      (htakes : call.takes now jobs job = true) (hholds : after.Holds (call.effect now jobs)) :
      Transition store jobs call now id action ((Row.ofJob (call.turn now job)).reading, after)
  | refused {after : Store} (hnone : ∀ job ∈ jobs, call.takes now jobs job = false)
      (hholds : after.Holds (call.effect now jobs))
      (hconnection : after.connection = store.connection) :
      Transition store jobs call now id action
        (.error (refusal id action ((find? id jobs).map Row.ofJob)), after)

theorem Holds.transition (h : store.Holds jobs) {call : Call} {now : Int} {id : JobId}
    (action : Action) {condition : Row → Bool} {change : Row → Row}
    (heffect : call.effect now jobs = call.turned now jobs)
    (hid : ∀ job ∈ jobs, call.takes now jobs job = true → job.id = id)
    (hcondition : ∀ job ∈ jobs, condition (.ofJob job) = call.takes now jobs job)
    (hchange : ∀ job ∈ jobs, call.takes now jobs job = true →
      change (.ofJob job) = .ofJob (call.turn now job))
    (hcall : ∀ job, call = .insert job → job.HasRoom) :
    Transition store jobs call now id action (store.transition id action condition change) := by
  obtain ⟨after, hanswer, hready, hrows, hsame⟩ :=
    h.ready.transition id action condition change
  rw [map_turned h.rows hcondition hchange, ← heffect] at hrows
  have hholds := h.next now hcall hready hrows
  rw [hanswer]
  cases hfilter : store.rows.filter condition with
  | nil =>
    rw [h.row?]
    refine .refused (fun job hjob => ?_) hholds (hsame hfilter)
    rw [← hcondition job hjob]
    simpa using List.filter_eq_nil_iff.1 hfilter _ (h.mem_rows hjob)
  | cons row rest =>
    have hrow : row ∈ store.rows.filter condition := by
      rw [hfilter]
      exact List.mem_cons_self
    obtain ⟨hmem, hmet⟩ := List.mem_filter.1 hrow
    rw [h.rows] at hmem
    obtain ⟨job, hjob, rfl⟩ := List.mem_map.1 hmem
    have htakes : call.takes now jobs job = true := (hcondition job hjob).symm.trans hmet
    show Transition store jobs call now id action ((change (Row.ofJob job)).reading, after)
    rw [hchange job hjob htakes]
    exact .taken ((Call.find?_eq_some_iff h.distinct).2 ⟨hjob, hid job hjob htakes⟩) htakes hholds

theorem Holds.complete (h : store.Holds jobs) (id : JobId) (worker : WorkerId) (result : Fields)
    (now : Int) : Transition store jobs (.complete id worker result) now id .complete
      (store.complete id worker result now) :=
  h.transition .complete rfl (fun _ _ htakes => (Call.isHeldBy_iff.1 htakes).1)
    (fun job _ => Row.isHeldBy_ofJob job id worker) (fun _ _ _ => rfl) fun _ h => nomatch h

theorem Holds.fail (h : store.Holds jobs) (id : JobId) (worker : WorkerId) (error : String)
    (delay : Duration) (now : Int) :
    Transition store jobs (.fail id worker error delay) now id .fail
      (store.fail id worker error delay now) := by
  refine h.transition .fail rfl (fun _ _ htakes => (Call.isHeldBy_iff.1 htakes).1)
    (fun job _ => Row.isHeldBy_ofJob job id worker) (fun job hjob htakes => ?_)
    fun _ h => nomatch h
  have hlive : job.status.isTerminal = false := by
    rw [(Call.isHeldBy_iff.1 htakes).2.1]
    rfl
  exact Row.failAttempt_ofJob ((h.room job hjob).attempts hlive) _ error now

theorem Holds.failPermanently (h : store.Holds jobs) (id : JobId) (worker : WorkerId)
    (error : String) (now : Int) :
    Transition store jobs (.failPermanently id worker error) now id .failPermanently
      (store.failPermanently id worker error now) :=
  h.transition .failPermanently rfl (fun _ _ htakes => (Call.isHeldBy_iff.1 htakes).1)
    (fun job _ => Row.isHeldBy_ofJob job id worker) (fun _ _ _ => rfl) fun _ h => nomatch h

theorem Holds.cancel (h : store.Holds jobs) (id : JobId) (now : Int) :
    Transition store jobs (.cancel id) now id .cancel (store.cancel id now) := by
  refine h.transition .cancel rfl (fun job _ htakes => ?_)
    (fun job _ => Row.isLive_ofJob job id) (fun _ _ _ => rfl) fun _ h => nomatch h
  have hlive : job.isLive id = true := htakes
  unfold Job.isLive at hlive
  rw [Bool.and_eq_true, beq_iff_eq] at hlive
  exact hlive.1

/-! ### The first due job -/

theorem foldl_ofJob (jobs : List Job) (best : Job) : ∃ first, IsFirst (best :: jobs) first ∧
    (jobs.map Row.ofJob).foldl (fun best row => match best with
      | none => some row
      | some other => if row.orderLt other then some row else some other) (some (.ofJob best)) =
        some (.ofJob first) := by
  induction jobs generalizing best with
  | nil =>
    exact ⟨best, ⟨List.mem_cons_self, fun _ hother => by rw [List.mem_singleton.1 hother]⟩, rfl⟩
  | cons job rest ih =>
    rw [List.map_cons, List.foldl_cons]
    dsimp only
    rw [Row.orderLt_ofJob]
    by_cases hprec : precedes job best = true
    · rw [if_pos hprec]
      obtain ⟨first, ⟨hmem, hleast⟩, hfold⟩ := ih job
      refine ⟨first, ⟨List.mem_cons_of_mem best hmem, fun other hother => ?_⟩, hfold⟩
      rcases List.mem_cons.1 hother with rfl | hother
      · exact (hleast job List.mem_cons_self).trans (precedes_iff.1 hprec).le
      · exact hleast other hother
    · rw [if_neg hprec]
      rw [precedes_iff, not_lt] at hprec
      obtain ⟨first, ⟨hmem, hleast⟩, hfold⟩ := ih best
      refine ⟨first, ⟨?_, fun other hother => ?_⟩, hfold⟩
      · rcases List.mem_cons.1 hmem with rfl | hmem
        · exact List.mem_cons_self
        · exact List.mem_cons_of_mem best (List.mem_cons_of_mem job hmem)
      · rcases List.mem_cons.1 hother with rfl | hother
        · exact hleast other List.mem_cons_self
        · rcases List.mem_cons.1 hother with rfl | hother
          · exact (hleast best List.mem_cons_self).trans hprec
          · exact hleast other (List.mem_cons_of_mem best hother)

/-- **The first due row is that of the first due job.** -/
theorem firstDue?_ofJob (h : store.Holds jobs) (queue : QueueName) (now : Int) :
    store.firstDue? queue now = (first? (claimable queue now jobs)).map Row.ofJob := by
  obtain ⟨table, hjobs, -⟩ := h.ready.table
  have hrows : table.rows = jobs.map Row.ofJob := by
    rw [← h.rows]
    unfold rows
    rw [hjobs]
    rfl
  have hdue : table.rows.filter (Row.isDue queue now) =
      (claimable queue now jobs).map Row.ofJob := by
    rw [hrows, List.filter_map]
    unfold claimable
    congr 1
    refine List.filter_congr fun job _ => ?_
    exact Row.isDue_ofJob job queue now
  have hdistinct := distinct_claimable queue now h.distinct
  unfold Store.firstDue? Table.firstDue?
  rw [hjobs, Option.bind_some, hdue]
  generalize claimable queue now jobs = due at hdistinct ⊢
  cases due with
  | nil => rfl
  | cons job rest =>
    obtain ⟨first, hfirst, hfold⟩ := foldl_ofJob rest job
    rw [(first?_eq_some hdistinct).2 hfirst, Option.map_some, ← hfold]
    rfl

theorem isNext_ofJob (h : store.Holds jobs) (queue : QueueName) (worker : WorkerId) (now : Int)
    {job : Job} (hjob : job ∈ jobs) : store.isNext queue now (.ofJob job) =
      (Call.claimNext queue worker).takes now jobs job := by
  unfold isNext
  rw [firstDue?_ofJob h, Option.any_map]
  show ((Call.claimNext queue worker).takes now jobs job && job.status.name == _) = _
  rw [Status.name_beq]
  by_cases htakes : (Call.claimNext queue worker).takes now jobs job = true
  · have hstatus : job.status = .pending := by
      cases Call.move_of_takes h.distinct hjob htakes with
      | claim _ hstatus _ => exact hstatus
    rw [htakes, hstatus]
    rfl
  · rw [Bool.not_eq_true] at htakes
    rw [htakes, Bool.false_and]

theorem claimable_eq_nil (h : store.Holds jobs) {queue : QueueName} {now : Int}
    (hfilter : store.rows.filter (store.isNext queue now) = []) : claimable queue now jobs = [] := by
  cases hfirst : first? (claimable queue now jobs) with
  | none => exact first?_eq_none.1 hfirst
  | some first =>
    have hmem : first ∈ jobs := (mem_claimable.1 (isFirst_of_first? hfirst).mem).1
    have hnext := List.filter_eq_nil_iff.1 hfilter _ (h.mem_rows hmem)
    rw [isNext_ofJob h queue "" now hmem, Call.takes_claimNext h.distinct hmem] at hnext
    exact absurd hfirst hnext

/-- **What a claim does**: nothing, when no job is due, else it takes the first due job and gives
it back. -/
inductive Claim (store : Store) (jobs : List Job) (queue : QueueName) (worker : WorkerId)
    (now : Int) : Except JobError (Option Job) × Store → Prop
  | nothing {after : Store} (hnone : claimable queue now jobs = [])
      (hholds : after.Holds jobs) (hconnection : after.connection = store.connection) :
      Claim store jobs queue worker now (.ok none, after)
  | taken {job : Job} {after : Store} (hfirst : IsFirst (claimable queue now jobs) job)
      (hholds : after.Holds ((Call.claimNext queue worker).effect now jobs)) :
      Claim store jobs queue worker now
        ((Row.ofJob (claimed job worker now)).reading.map some, after)

/-- **The first due job goes to the worker.** -/
theorem Holds.claimNext (h : store.Holds jobs) (queue : QueueName) (worker : WorkerId)
    (now : Int) :
    Claim store jobs queue worker now (store.claimNext queue worker now) := by
  have hcondition : ∀ job ∈ jobs, store.isNext queue now (.ofJob job) =
      (Call.claimNext queue worker).takes now jobs job :=
    fun _ hjob => isNext_ofJob h queue worker now hjob
  obtain ⟨after, hanswer, hready, hrows, hsame⟩ := h.ready.claimNext queue worker now
  have hturned := map_turned h.rows hcondition fun job _ _ => Row.claim_ofJob job worker now
  have hholds : after.Holds ((Call.claimNext queue worker).effect now jobs) :=
    h.next now (fun _ hcall => nomatch hcall) hready (hrows.trans hturned)
  rw [hanswer]
  cases hfilter : store.rows.filter (store.isNext queue now) with
  | nil =>
    have hconnection := hsame hfilter
    have hunchanged : after.rows = store.rows := by
      unfold Store.rows
      rw [hconnection]
    exact .nothing (claimable_eq_nil h hfilter) (h.of_rows hready hunchanged) hconnection
  | cons row rest =>
    have hrow : row ∈ store.rows.filter (store.isNext queue now) := by
      rw [hfilter]
      exact List.mem_cons_self
    obtain ⟨hmem, hmet⟩ := List.mem_filter.1 hrow
    rw [h.rows] at hmem
    obtain ⟨job, hjob, rfl⟩ := List.mem_map.1 hmem
    rw [hcondition job hjob, Call.takes_claimNext h.distinct hjob] at hmet
    exact .taken (isFirst_of_first? hmet) hholds

/-! ### Recovery, removal and look-up -/

theorem Holds.recoverStale (h : store.Holds jobs) (threshold : Duration) (now : Int) :
    (∃ cause, Timestamp.before now threshold = .error cause ∧
      store.recoverStale threshold now = (.error (.breakdown cause), store) ∧
      (Call.recoverStale threshold).effect now jobs = jobs) ∨
    ∃ cutoff after, Timestamp.before now threshold = .ok cutoff ∧
      store.recoverStale threshold now = (.ok (jobs.countP (isStale cutoff)), after) ∧
      after.Holds ((Call.recoverStale threshold).effect now jobs) := by
  cases hcutoff : Timestamp.before now threshold with
  | error cause =>
    refine .inl ⟨cause, rfl, ?_, Call.turned_of_none fun job => ?_⟩
    · unfold Store.recoverStale
      rw [hcutoff]
    · exact Call.takes_recoverStale_of_error hcutoff job
  | ok cutoff =>
    obtain ⟨after, hupdate, hready, hrows⟩ :=
      h.ready.update [.claimedBy] (Row.isStale cutoff) (Row.settle .pending now)
    have hcondition : ∀ job ∈ jobs, (Row.ofJob job).isStale cutoff =
        (Call.recoverStale threshold).takes now jobs job := fun job _ => by
      rw [Row.isStale_ofJob, Call.takes_recoverStale_of_ok hcutoff]
    have hchange : ∀ job ∈ jobs, (Call.recoverStale threshold).takes now jobs job = true →
        Row.settle .pending now (.ofJob job) =
          .ofJob ((Call.recoverStale threshold).turn now job) :=
      fun job _ _ => Row.settle_ofJob job .pending now
    have hturned := map_turned h.rows hcondition hchange
    refine .inr ⟨cutoff, after, rfl, ?_,
      h.next now (fun _ hcall => nomatch hcall) hready (hrows.trans hturned)⟩
    have hcount : (store.rows.filter (Row.isStale cutoff)).length =
        jobs.countP (isStale cutoff) := by
      rw [← List.countP_eq_length_filter, h.rows, List.countP_map]
      exact List.countP_congr fun job _ => by rw [Function.comp_apply, Row.isStale_ofJob]
    unfold Store.recoverStale
    rw [hcutoff]
    dsimp only
    rw [hupdate]
    dsimp only
    rw [List.length_map, hcount]

theorem Holds.deleteOlderThan (h : store.Holds jobs) (cutoff now : Int) :
    ∃ after, store.deleteOlderThan cutoff = (.ok (jobs.countP (isExpired cutoff)), after) ∧
      after.Holds ((Call.deleteOlderThan cutoff).effect now jobs) := by
  obtain ⟨c, hdelete, hready, hrows⟩ := h.ready.delete [] (Row.isExpired cutoff)
  have hexpired : Row.isExpired cutoff ∘ Row.ofJob = isExpired cutoff :=
    funext fun job => Row.isExpired_ofJob job cutoff
  refine ⟨_, ?_, h.next now (fun _ hcall => nomatch hcall) hready ?_⟩
  · unfold Store.deleteOlderThan
    rw [hdelete, h.rows, List.countP_map, hexpired]
  · rw [hrows, h.rows, List.filter_map]
    congr 2
    funext job
    exact congrArg not (Row.isExpired_ofJob job cutoff)

theorem Holds.findById (h : store.Holds jobs) (id : JobId) :
    ∃ after, store.findById id = ((match find? id jobs with
        | some job => (Row.ofJob job).reading.map some
        | none => .ok none), after) ∧ after.Holds jobs ∧ after.connection = store.connection := by
  have hprepared := h.prepare .findById []
  obtain ⟨table, hquery, hrows⟩ := hprepared.ready.query [] fun table => table.find? id
  have hfind : table.find? id = (find? id jobs).map Row.ofJob := by
    rw [← hprepared.row?]
    unfold Table.find? Store.row?
    rw [hrows]
  refine ⟨_, ?_, hprepared, connection_prepare store .findById []⟩
  unfold Store.findById
  dsimp only
  rw [hquery, hfind]
  dsimp only
  rw [hprepared.ready.read?]
  cases find? id jobs <;> rfl

/-! ### All calls -/

theorem Transition.holds {call : Call} {now : Int} {id : JobId} {action : Action}
    {answer : Except JobError Job × Store} (h : Transition store jobs call now id action answer) :
    answer.2.Holds (call.effect now jobs) := by
  cases h with
  | taken _ _ hholds => exact hholds
  | refused _ hholds _ => exact hholds

theorem Claim.holds {queue : QueueName} {worker : WorkerId} {now : Int}
    {answer : Except JobError (Option Job) × Store}
    (h : Claim store jobs queue worker now answer) :
    answer.2.Holds ((Call.claimNext queue worker).effect now jobs) := by
  cases h with
  | nothing hnone hholds _ =>
    rw [Call.effect_claimNext_of_nil hnone]
    exact hholds
  | taken _ hholds => exact hholds

/-- **A call leaves the store with the jobs of its effect.** -/
theorem Holds.run (h : store.Holds jobs) (call : Call) (now : Int)
    (hcall : ∀ job, call = .insert job → job.HasRoom) :
    (store.run call now).2.Holds (call.effect now jobs) := by
  cases call with
  | insert job =>
    rcases h.insert now (hcall job rfl) with ⟨hadmits, e, hinsert⟩ | ⟨-, after, hinsert, hholds⟩
    · have heffect : (Call.insert job).effect now jobs = jobs := if_neg (by simp [hadmits])
      show (store.insert job).2.Holds _
      rw [hinsert, heffect]
      exact h
    · show (store.insert job).2.Holds _
      rw [hinsert]
      exact hholds
  | findById id =>
    obtain ⟨after, hfind, hholds, -⟩ := h.findById id
    have heffect : (Call.findById id).effect now jobs = jobs := List.map_id jobs
    show (store.findById id).2.Holds _
    rw [hfind, heffect]
    exact hholds
  | claimNext queue worker => exact (h.claimNext queue worker now).holds
  | complete id worker result => exact (h.complete id worker result now).holds
  | fail id worker error delay => exact (h.fail id worker error delay now).holds
  | failPermanently id worker error => exact (h.failPermanently id worker error now).holds
  | cancel id => exact (h.cancel id now).holds
  | recoverStale threshold =>
    rcases h.recoverStale threshold now with
      ⟨cause, -, hrecover, heffect⟩ | ⟨cutoff, after, -, hrecover, hholds⟩
    · show (store.recoverStale threshold now).2.Holds _
      rw [hrecover, heffect]
      exact h
    · show (store.recoverStale threshold now).2.Holds _
      rw [hrecover]
      exact hholds
  | deleteOlderThan cutoff =>
    obtain ⟨after, hdelete, hholds⟩ := h.deleteOlderThan cutoff now
    show (store.deleteOlderThan cutoff).2.Holds _
    rw [hdelete]
    exact hholds
  | queueStats =>
    have heffect : Call.queueStats.effect now jobs = jobs := List.map_id jobs
    rw [heffect]
    exact h

end Sql.Store

end JobQueue

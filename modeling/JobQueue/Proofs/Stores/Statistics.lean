import JobQueue.Proofs.Stores.Shifts
import JobQueue.Proofs.Text.Bytes

/-! # The statistics of a store

The statistics of a store of either kind are an exact census of its rows: an entry for each queue
that has rows, in increasing order of the bytes of its name, with the numbers of its rows in each
state. In memory the jobs are counted one by one, in a database the groups of rows by queue and
state are; both come to the same, in whatever order.

What a call does to the rows is therefore seen in the counts. Shifts of rows are shifts of units, a
row more is a unit more, and rows that are removed are missing in the grand total.

* `ExactCensus`: what the statistics say. `Backend.exactCensus_of_run`: they say it.
* `QueueStats.countIn`, `QueueStats.grandTotal`: a count, and all counts together.
* `statistics_exact`: **the statistics, and what calls do to them.** -/

namespace JobQueue

/-! ### Counts -/

namespace QueueStats

/-- The count of a queue and a state; nothing for a queue that has no entry. -/
def countIn (queue : QueueName) (status : Status) (counts : List QueueStats) : Int :=
  Keyed.total QueueStats.queue (fun stats : QueueStats => stats.count status) queue counts

/-- All counts together. -/
def grandTotal (counts : List QueueStats) : Int := (counts.map total).sum

theorem total_eq_sum (stats : QueueStats) : stats.total = (Status.all.map stats.count).sum := by
  unfold total Status.all
  simp only [List.map_cons, List.map_nil, List.sum_cons, List.sum_nil, count]
  omega

end QueueStats

namespace Sql.RowCensus

variable {rows : List Row} {counts : List QueueStats}

/-- **The counts are the numbers of rows**, also of queues without an entry. -/
theorem countIn_eq (h : RowCensus rows counts) (queue : QueueName) (status : Status) :
    QueueStats.countIn queue status counts = rows.countP (Row.isIn queue status) := by
  unfold QueueStats.countIn
  by_cases hlisted : queue ∈ counts.map QueueStats.queue
  · obtain ⟨stats, hstats, rfl⟩ := List.mem_map.1 hlisted
    rw [Keyed.total_of_mem h.ordered hstats]
    exact h.counted stats hstats status
  · have hnone : ∀ stats ∈ counts, stats.queue ≠ queue := by
      rintro stats hstats rfl
      exact hlisted (List.mem_map_of_mem hstats)
    rw [Keyed.total_eq_zero hnone, eq_comm, Int.natCast_eq_zero, List.countP_eq_zero]
    intro row hrow hin
    unfold Row.isIn at hin
    rw [Bool.and_eq_true, beq_iff_eq] at hin
    exact hlisted ((h.listed queue).2 ⟨row, hrow, hin.1⟩)

theorem sum_isIn {row : Row} (hknown : row.Known) (queue : QueueName) :
    (Status.all.map fun status => (if row.isIn queue status then (1 : Int) else 0)).sum =
      if row.queue = queue then 1 else 0 := by
  obtain ⟨state, hstate⟩ := hknown
  unfold Row.isIn
  rw [hstate]
  by_cases hqueue : row.queue = queue
  · rw [if_pos hqueue, hqueue]
    cases state <;> simp [Status.all, Status.name]
  · simp [hqueue, Status.all]

/-- **Each row is counted once**, if all are in known states and their queues have entries. -/
theorem sum_numbers (hordered : Keyed.Ordered QueueStats.queue counts) : ∀ rows : List Row,
    (∀ row ∈ rows, row.Known ∧ row.queue ∈ counts.map QueueStats.queue) →
    (counts.map fun stats => (Status.all.map fun status =>
      (rows.countP (Row.isIn stats.queue status) : Int)).sum).sum = rows.length
  | [], _ => by simp
  | row :: rows, h => by
    obtain ⟨⟨hknown, hqueue⟩, hrest⟩ := List.forall_mem_cons.1 h
    obtain ⟨stats, hstats, hsame⟩ := List.mem_map.1 hqueue
    have hone : (counts.map fun stats =>
        if row.queue = stats.queue then (1 : Int) else 0).sum = 1 := by
      have htotal : Keyed.total QueueStats.queue (fun _ => 1) stats.queue counts = 1 :=
        Keyed.total_of_mem hordered hstats
      unfold Keyed.total at htotal
      rw [hsame] at htotal
      simpa only [eq_comm] using htotal
    simp only [List.countP_cons, Nat.cast_add, Nat.cast_ite, Nat.cast_one, Nat.cast_zero,
      List.sum_map_add, sum_isIn hknown, hone, sum_numbers hordered rows hrest, List.length_cons]

/-- **The grand total is the number of rows.** -/
theorem grandTotal_eq (h : RowCensus rows counts) (hknown : ∀ row ∈ rows, row.Known) :
    QueueStats.grandTotal counts = rows.length := by
  rw [← sum_numbers h.ordered rows fun row hrow =>
    ⟨hknown row hrow, (h.listed row.queue).2 ⟨row, hrow, rfl⟩⟩]
  unfold QueueStats.grandTotal
  congr 1
  refine List.map_congr_left fun stats hstats => ?_
  rw [QueueStats.total_eq_sum]
  congr 1
  exact List.map_congr_left fun status _ => h.counted stats hstats status

theorem perm {rows' : List Row} (h : RowCensus rows counts) (hrows : rows.Perm rows') :
    RowCensus rows' counts := by
  refine ⟨h.ordered, fun queue => ?_, fun stats hstats status => ?_⟩
  · rw [h.listed]
    simp only [hrows.mem_iff]
  · rw [h.counted stats hstats, hrows.countP_eq]

end Sql.RowCensus

/-! ### The statistics of a store -/

/-- **The counts are an exact census of the rows**: the queues that have rows, in increasing order
of bytes, each with the numbers of its rows in each state, all rows together. -/
structure ExactCensus (rows : List Sql.Row) (counts : List QueueStats) : Prop where
  ordered : counts.Pairwise fun a b => Text.bytes a.queue < Text.bytes b.queue
  listed : ∀ queue, queue ∈ counts.map QueueStats.queue ↔ ∃ row ∈ rows, row.queue = queue
  counted : ∀ stats ∈ counts, ∀ status,
    stats.count status = rows.countP (Sql.Row.isIn stats.queue status)
  total : QueueStats.grandTotal counts = rows.length

theorem Sql.RowCensus.exact {rows : List Sql.Row} {counts : List QueueStats}
    (h : RowCensus rows counts) (hknown : ∀ row ∈ rows, row.Known) : ExactCensus rows counts :=
  ⟨h.ordered.imp Text.lt_iff_bytes_lt.1, h.listed, h.counted, h.grandTotal_eq hknown⟩

namespace Backend

/-- **The rows can be read**: nothing is in the way of a call that only reads. -/
def Readable : Backend → Prop
  | .memory store => store.available = true ∧ store.broken = false
  | .sql store => store.connection.access.closed = false ∧
      store.connection.database.jobs.isSome = true

variable {store : Backend} {counts : List QueueStats} {now : Int}

theorem intact_of_readable (h : store.Readable) : store.Intact := by
  cases store with
  | memory store => exact h.2
  | sql store => trivial

/-- **The statistics of rows that can be read** are their census. -/
theorem exists_rowCensus (hreadable : store.Readable) (hknown : ∀ row ∈ store.rows, row.Known)
    (now : Int) : ∃ counts, store.run .queueStats now = (.ok counts, store) ∧
      Sql.RowCensus store.rows counts := by
  cases store with
  | memory store =>
    obtain ⟨havailable, hintact⟩ := hreadable
    have hcheck : store.check .queueStats now = .ok () := by
      unfold MemoryStore.check MemoryStore.reachable MemoryStore.intact
      rw [havailable, hintact]
      rfl
    refine ⟨MemoryStore.stats store.jobs, ?_,
      Sql.rowCensus_ofJob_iff.2 (MemoryStore.isCensus_stats store.jobs)⟩
    rw [run_memory]
    unfold MemoryStore.run
    rw [hcheck]
  | sql store =>
    obtain ⟨hopen, hjobs⟩ := hreadable
    obtain ⟨table, htable⟩ := Option.isSome_iff_exists.1 hjobs
    have hrows : (Backend.sql store).rows = table.rows := by
      show store.connection.database.jobs.elim [] Sql.Table.rows = table.rows
      rw [htable]
      rfl
    have hquery : store.connection.query [] Sql.Table.groups = .ok table.groups := by
      unfold Sql.Connection.query Sql.Connection.table Sql.Connection.opened
      rw [hopen, htable]
      rfl
    rw [hrows] at hknown ⊢
    obtain ⟨counts, hfold, hcensus⟩ :=
      Sql.Store.exists_rowCensus (List.Perm.refl table.groups) hknown
    refine ⟨counts, ?_, hcensus⟩
    have hstats : store.queueStats = .ok counts := by
      unfold Sql.Store.queueStats
      rw [hquery]
      exact hfold
    rw [run_sql]
    exact congrArg (·, Backend.sql store) hstats

theorem readable_of_run (h : (store.run .queueStats now).1 = .ok counts) : store.Readable := by
  cases store with
  | memory store =>
    obtain ⟨jobs, available, broken⟩ := store
    cases available with
    | false => cases h
    | true =>
      cases broken with
      | false => exact ⟨rfl, rfl⟩
      | true => cases h
  | sql store =>
    have hstats : store.queueStats = .ok counts := h
    obtain ⟨groups, hgroups, -⟩ := bind_eq_ok hstats
    cases hquery : store.connection.query [] Sql.Table.groups with
    | error fault =>
      rw [hquery] at hgroups
      cases hgroups
    | ok found =>
      obtain ⟨table, htable, -⟩ := bind_eq_ok hquery
      obtain ⟨⟨⟩, hopen, htable⟩ := bind_eq_ok htable
      constructor
      · unfold Sql.Connection.opened at hopen
        split at hopen
        · cases hopen
        · next hclosed => exact Bool.eq_false_iff.2 hclosed
      · split at htable
        · next hjobs => rw [hjobs]; rfl
        · cases htable

/-- **Statistics that are answered are the census of the rows.** -/
theorem rowCensus_of_run (hknown : ∀ row ∈ store.rows, row.Known)
    (h : (store.run .queueStats now).1 = .ok counts) : Sql.RowCensus store.rows counts := by
  obtain ⟨found, hrun, hcensus⟩ := exists_rowCensus (readable_of_run h) hknown now
  rw [hrun] at h
  rwa [← Except.ok.inj h]

end Backend

/-! ### What calls do to them -/

/-- The unit of a row in the counts. -/
def Sql.Row.unit (queue : QueueName) (status : Status) (row : Row) : Int :=
  if row.isIn queue status then 1 else 0

/-- **Units have shifted**: each is missing in one count and comes to another one of its queue. -/
structure Shift.Applied (shifts : List Shift) (counts counts' : List QueueStats) : Prop where
  moved : ∀ shift ∈ shifts, shift.source ≠ shift.target
  balanced : ∀ queue status,
    QueueStats.countIn queue status counts' + shifts.countP (Shift.leaves queue status) =
      QueueStats.countIn queue status counts + shifts.countP (Shift.reaches queue status)

/-- **What a call does to the counts**, by its answer. A job that is inserted adds its unit if its
id is new; else it takes the place of a row, whose unit goes. A removal takes as many units as it
says from the grand total. Every other call shifts a unit for each row that it changes. -/
def Call.Accounts (before after : List Sql.Row) (counts counts' : List QueueStats) :
    (call : Call) → call.Outcome → Prop
  | .insert job, .ok _ =>
    ((∀ row ∈ before, row.id ≠ job.id) → ∀ queue status,
      QueueStats.countIn queue status counts' =
        QueueStats.countIn queue status counts + (Sql.Row.ofJob job).unit queue status) ∧
    ∀ old ∈ before, old.id = job.id → ∀ queue status,
      QueueStats.countIn queue status counts' + old.unit queue status =
        QueueStats.countIn queue status counts + (Sql.Row.ofJob job).unit queue status
  | .insert _, .error _ => counts' = counts
  | .deleteOlderThan _, .ok n =>
    let removed : Nat := n
    QueueStats.grandTotal counts' + removed = QueueStats.grandTotal counts
  | .deleteOlderThan _, .error _ => counts' = counts
  | _, _ => ∃ shifts : List Shift, shifts.length = changedRows before after ∧
      Shift.Applied shifts counts counts'

theorem Call.accounts_iff {before after : List Sql.Row} {counts counts' : List QueueStats}
    {call : Call} (hinsert : ∀ job, call ≠ .insert job)
    (hdelete : ∀ cutoff, call ≠ .deleteOlderThan cutoff) (answer : call.Outcome) :
    call.Accounts before after counts counts' answer ↔ ∃ shifts : List Shift,
      shifts.length = changedRows before after ∧ Shift.Applied shifts counts counts' := by
  cases call with
  | insert job => exact absurd rfl (hinsert job)
  | deleteOlderThan cutoff => exact absurd rfl (hdelete cutoff)
  | _ => exact Iff.rfl

namespace Sql.RowCensus

variable {rows rows' : List Row} {counts counts' : List QueueStats}

theorem applied (h : RowCensus rows counts) (h' : RowCensus rows' counts') {shifts : List Shift}
    (hshifts : Shifts rows rows' shifts) : Shift.Applied shifts counts counts' := by
  refine ⟨hshifts.source_ne_target, fun queue status => ?_⟩
  rw [h.countIn_eq, h'.countIn_eq]
  exact_mod_cast hshifts.countP_isIn queue status

theorem countIn_concat {row : Row} (h : RowCensus rows counts)
    (h' : RowCensus (rows ++ [row]) counts') (queue : QueueName) (status : Status) :
    QueueStats.countIn queue status counts' =
      QueueStats.countIn queue status counts + row.unit queue status := by
  rw [h.countIn_eq, h'.countIn_eq, List.countP_append, List.countP_singleton]
  unfold Row.unit
  push_cast
  rfl

theorem countIn_replaced {before later : List Row} {old new : Row}
    (h : RowCensus (before ++ old :: later) counts)
    (h' : RowCensus (before ++ new :: later) counts') (queue : QueueName) (status : Status) :
    QueueStats.countIn queue status counts' + old.unit queue status =
      QueueStats.countIn queue status counts + new.unit queue status := by
  rw [h.countIn_eq, h'.countIn_eq, List.countP_append, List.countP_append, List.countP_cons,
    List.countP_cons]
  unfold Row.unit
  push_cast
  omega

theorem grandTotal_filter {gone : Row → Bool} (h : RowCensus rows counts)
    (h' : RowCensus (rows.filter fun row => !gone row) counts')
    (hknown : ∀ row ∈ rows, row.Known) :
    QueueStats.grandTotal counts' + rows.countP gone = QueueStats.grandTotal counts := by
  have hsplit : rows.length = rows.countP gone + (rows.filter fun row => !gone row).length := by
    rw [← List.countP_eq_length_filter, List.length_eq_countP_add_countP gone]
    simp
  have hleft := h'.grandTotal_eq fun row hrow => hknown row (List.mem_filter.1 hrow).1
  rw [h.grandTotal_eq hknown, hleft, hsplit]
  push_cast
  omega

end Sql.RowCensus

namespace Backend

variable {store : Backend} {counts counts' : List QueueStats}

theorem accounts_insert {after : Backend} {job : Job}
    (hdistinct : (store.rows.map Sql.Row.id).Nodup) (hknown : ∀ row ∈ store.rows, row.Known)
    (hcensus : Sql.RowCensus store.rows counts) (henters : Enters job store after) :
    (∀ row ∈ after.rows, row.Known) ∧ ∀ counts', Sql.RowCensus after.rows counts' →
      (Call.insert job).Accounts store.rows after.rows counts counts' (.ok ()) := by
  cases henters with
  | added hnew hrows =>
    rw [hrows]
    refine ⟨fun row hrow => ?_, fun counts' hcensus' =>
      ⟨fun _ => hcensus.countIn_concat hcensus', fun old hold hid => absurd hid (hnew old hold)⟩⟩
    rcases List.mem_append.1 hrow with hrow | hrow
    · exact hknown row hrow
    · rw [List.mem_singleton.1 hrow]
      exact Sql.Row.known_ofJob job
  | @replaced store after before later old hid hjobs hafter =>
    have hbefore : (Backend.memory store).rows =
        before.map Sql.Row.ofJob ++ Sql.Row.ofJob old :: later.map Sql.Row.ofJob := by
      show store.jobs.map Sql.Row.ofJob = _
      rw [hjobs, List.map_append, List.map_cons]
    have hrows : (Backend.memory after).rows =
        before.map Sql.Row.ofJob ++ Sql.Row.ofJob job :: later.map Sql.Row.ofJob := by
      show after.jobs.map Sql.Row.ofJob = _
      rw [hafter, List.map_append, List.map_cons]
    have hmem : Sql.Row.ofJob old ∈ (Backend.memory store).rows := by
      rw [hbefore]
      exact List.mem_append_right _ List.mem_cons_self
    refine ⟨fun row hrow => ?_, fun counts' hcensus' =>
      ⟨fun hnew => absurd hid (hnew _ hmem), fun row hrow hsame => ?_⟩⟩
    · obtain ⟨other, -, rfl⟩ := List.mem_map.1 hrow
      exact Sql.Row.known_ofJob other
    · obtain rfl : row = Sql.Row.ofJob old :=
        List.inj_on_of_nodup_map hdistinct hrow hmem (hsame.trans hid.symm)
      rw [hbefore] at hcensus
      rw [hrows] at hcensus'
      exact hcensus.countIn_replaced hcensus'

/-- **A call keeps rows in known states, and does to the counts what its answer says.** -/
theorem accounts_run (hintact : store.Intact) (hdistinct : (store.rows.map Sql.Row.id).Nodup)
    (hknown : ∀ row ∈ store.rows, row.Known) (hcensus : Sql.RowCensus store.rows counts)
    (call : Call) (time : Int) :
    (∀ row ∈ (store.run call time).2.rows, row.Known) ∧
      ∀ counts', Sql.RowCensus (store.run call time).2.rows counts' →
        call.Accounts store.rows (store.run call time).2.rows counts counts'
          (store.run call time).1 := by
  have hshifts : (∀ job, call ≠ .insert job) → (∀ cutoff, call ≠ .deleteOlderThan cutoff) →
      (∀ row ∈ (store.run call time).2.rows, row.Known) ∧
        ∀ counts', Sql.RowCensus (store.run call time).2.rows counts' →
          call.Accounts store.rows (store.run call time).2.rows counts counts'
            (store.run call time).1 := by
    intro hinsert hdelete
    obtain ⟨shifts, hshifts⟩ := shifts_of_run hdistinct hinsert hdelete time
    exact ⟨hshifts.known hknown, fun counts' hcensus' => (Call.accounts_iff hinsert hdelete _).2
      ⟨shifts, hshifts.length_eq, hcensus.applied hcensus' hshifts⟩⟩
  cases call with
  | insert job =>
    rcases store.insert_cases job time with ⟨e, hrun, -⟩ | ⟨after, hrun, henters⟩
    · rw [hrun]
      exact ⟨hknown, fun counts' hcensus' => hcensus'.unique hcensus⟩
    · rw [hrun]
      exact accounts_insert hdistinct hknown hcensus henters
  | deleteOlderThan cutoff =>
    have hcounted := counted_prune hintact cutoff time
    generalize store.run (.deleteOlderThan cutoff) time = answer at hcounted ⊢
    obtain ⟨outcome, after⟩ := answer
    cases hcounted with
    | made _ hrows =>
      dsimp only
      rw [hrows]
      exact ⟨fun row hrow => hknown row (List.mem_filter.1 hrow).1,
        fun counts' hcensus' => hcensus.grandTotal_filter hcensus' hknown⟩
    | refused _ _ hrows =>
      dsimp only
      rw [hrows]
      exact ⟨hknown, fun counts' hcensus' => hcensus'.unique hcensus⟩
  | _ => exact hshifts (fun _ => nofun) fun _ => nofun

end Backend

/-- **The statistics of a store** of either kind, with any rows under different ids and in known
states, as both kinds have them, when the rows can be read:

* The call gives an exact census of the rows and changes nothing. Counting jobs with these rows one
  by one, in any order, or folding the groups of a table with these rows, its rows and its groups in
  any order, comes to the same.
* After any call, and whatever comes of it, the statistics are an exact census again, and the call
  has done to the counts what its answer says (`Call.Accounts`). -/
theorem statistics_exact {store : Backend} (hreadable : store.Readable)
    (hdistinct : (store.rows.map Sql.Row.id).Nodup) (hknown : ∀ row ∈ store.rows, row.Known)
    (now : Int) : ∃ counts, store.run .queueStats now = (.ok counts, store) ∧
      ExactCensus store.rows counts ∧
      (∀ jobs : List Job, (jobs.map Sql.Row.ofJob).Perm store.rows →
        MemoryStore.stats jobs = counts) ∧
      (∀ (table : Sql.Table) (groups : List Sql.Table.Group), table.rows.Perm store.rows →
        groups.Perm table.groups → groups.foldlM Sql.Store.addGroup [] = .ok counts) ∧
      ∀ (call : Call) (time later : Int) (counts' : List QueueStats),
        let answer := store.run call time
        (answer.2.run .queueStats later).1 = .ok counts' →
          ExactCensus answer.2.rows counts' ∧
            call.Accounts store.rows answer.2.rows counts counts' answer.1 := by
  obtain ⟨counts, hrun, hcensus⟩ := Backend.exists_rowCensus hreadable hknown now
  refine ⟨counts, hrun, hcensus.exact hknown, fun jobs hjobs => ?_,
    fun table groups hrows hgroups => ?_, fun call time later counts' => ?_⟩
  · have hjobs' := Sql.rowCensus_ofJob_iff.2 (MemoryStore.isCensus_stats jobs)
    exact (hjobs'.perm hjobs).unique hcensus
  · obtain ⟨found, hfold, hfound⟩ := Sql.Store.exists_rowCensus hgroups
      fun row hrow => hknown row (hrows.mem_iff.1 hrow)
    rw [hfold, (hfound.perm hrows).unique hcensus]
  · intro answer hanswer
    obtain ⟨hafter, haccounts⟩ :=
      Backend.accounts_run (Backend.intact_of_readable hreadable) hdistinct hknown hcensus call time
    have hcensus' := Backend.rowCensus_of_run hafter hanswer
    exact ⟨hcensus'.exact hafter, haccounts counts' hcensus'⟩

/-- A claim in one of two queues moves one unit, from the jobs that wait to those that run. -/
theorem statistics_exact_of_claim :
    let jobs := [Job.create "a" 0 "q" "t" [] 0 3, Job.create "b" 0 "p" "t" [] 0 3]
    let store := Backend.memory (MemoryStore.ofJobs jobs)
    let after := (store.run (.claimNext "q" "w") 0).2
    ∃ counts counts', store.run .queueStats 0 = (.ok counts, store) ∧
      counts.map QueueStats.queue = ["p", "q"] ∧ QueueStats.grandTotal counts = 2 ∧
      (after.run .queueStats 0).1 = .ok counts' ∧ ExactCensus after.rows counts' ∧
      ∃ shift, Shift.Applied [shift] counts counts' := by
  intro jobs store after
  have hreadable : store.Readable := ⟨rfl, rfl⟩
  have hdistinct : (store.rows.map Sql.Row.id).Nodup := by decide +kernel
  have hknown : ∀ row ∈ store.rows, row.Known :=
    List.forall_mem_map.2 fun job _ => Sql.Row.known_ofJob job
  obtain ⟨counts, hrun, hexact, hjobs, -, hcalls⟩ :=
    statistics_exact hreadable hdistinct hknown 0
  obtain ⟨hexact', shifts, hlength, happlied⟩ := hcalls (.claimNext "q" "w") 0 0 _ rfl
  have hone : changedRows store.rows after.rows = 1 := by decide +kernel
  obtain ⟨shift, rfl⟩ := List.length_eq_one_iff.1 (hlength.trans hone)
  refine ⟨counts, _, hrun, ?_, hexact.total, rfl, hexact', shift, happlied⟩
  rw [← hjobs jobs (List.Perm.refl _)]
  decide +kernel

/-- **A job that is inserted under the id of another one adds no unit**: the store in memory has one
job before and after, and the count of the old one is gone. -/
theorem insert_adds_no_unit :
    let old := (Job.create "a" 0 "q" "t" [] 0 3).completed [] 1
    let new := Job.create "a" 5 "q" "t" [] 5 3
    let store := Backend.memory (MemoryStore.ofJobs [old])
    let answer := store.run (.insert new) 5
    answer.1 = .ok () ∧
      (store.run .queueStats 5).1 = .ok [⟨"q", 0, 0, 1, 0, 0⟩] ∧
      (answer.2.run .queueStats 5).1 = .ok [⟨"q", 1, 0, 0, 0, 0⟩] := by
  intro old new store answer
  have hbefore : MemoryStore.stats [old] = [⟨"q", 0, 0, 1, 0, 0⟩] := by decide +kernel
  have hafter : MemoryStore.stats [new] = [⟨"q", 1, 0, 0, 0, 0⟩] := by decide +kernel
  exact ⟨rfl, congrArg Except.ok hbefore, congrArg Except.ok hafter⟩

end JobQueue

import JobQueue.Proofs.Jobs.Census
import JobQueue.Proofs.Sql.Holds

/-! # Statistics by groups

A store counts its rows by queue and state: the groups come in increasing order of their keys, the
queue before the name of the state. They are then folded into the counts of the queues. The fold
fails at a group of an unknown state; else each step is an update (`addGroup_eq`), so that the
totals of the queues are those of the groups (`exists_counts`), in whatever order these come.

* `RowCensus`: what the counts tell of the rows. `exists_rowCensus`: **the groups of a table are
  folded into the census of its rows.**
* `Holds.queueStats`: **the statistics are the census of the jobs**, and never fail. -/

namespace JobQueue

open MemoryStore

namespace Sql

namespace Table

/-- A group of rows, by its key and with their number. -/
abbrev Group := GroupKey × Nat

/-- What groups are in order by. -/
def groupKey (group : Group) : String ×ₗ String := toLex group.1

theorem lt_iff (a b : GroupKey) : GroupKey.lt a b = true ↔ toLex a < toLex b := by
  rw [Prod.Lex.toLex_lt_toLex]
  simp only [GroupKey.lt, Bool.or_eq_true, Bool.and_eq_true, decide_eq_true_eq, beq_iff_eq]

/-- One row more. -/
def increment (group : Group) : Group := (group.1, group.2 + 1)

theorem count_eq (key : GroupKey) : ∀ groups : List Group, count key groups =
    Keyed.update groupKey (toLex key) (key, 0) increment groups
  | [] => rfl
  | (k, n) :: rest => by
    unfold count Keyed.update
    rw [count_eq key rest]
    simp only [lt_iff]
    rfl

theorem keeps_increment (key : GroupKey) :
    Keyed.Keeps groupKey (toLex key) (key, 0) increment :=
  ⟨rfl, fun _ hkey => hkey⟩

theorem adds_increment (key : GroupKey) :
    Keyed.Adds (fun group : Group => (group.2 : Int)) (key, 0) increment 1 :=
  ⟨rfl, fun group => Nat.cast_succ group.2⟩

section Groups

variable (table : Table)

theorem groups_eq : table.groups = table.rows.foldl (fun groups row =>
    Keyed.update groupKey (toLex (row.queue, row.status)) ((row.queue, row.status), 0) increment
      groups) [] := by
  unfold groups
  simp only [count_eq]

theorem mem_keys_groups (key : GroupKey) :
    toLex key ∈ table.groups.map groupKey ↔ ∃ row ∈ table.rows, (row.queue, row.status) = key := by
  rw [groups_eq, Keyed.mem_keys_foldl fun row : Row => keeps_increment (row.queue, row.status)]
  simp

theorem total_groups (key : GroupKey) :
    Keyed.total groupKey (fun group => (group.2 : Int)) (toLex key) table.groups =
      table.rows.countP fun row => (row.queue, row.status) == key := by
  rw [groups_eq, Keyed.total_foldl (fun row : Row => keeps_increment (row.queue, row.status))
    (fun row : Row => adds_increment (row.queue, row.status)), Keyed.total_nil, Int.zero_add,
    ← Keyed.sum_ite_eq_countP]
  simp only [toLex_inj, beq_iff_eq]

end Groups

end Table

namespace Store

/-! ### From groups to queues -/

/-- **A group goes to its queue.** -/
theorem addGroup_eq (counts : List QueueStats) (queue : QueueName) (status : Status) (n : Nat) :
    addGroup counts ((queue, status.name), n) = .ok (QueueStats.tally queue status n counts) := by
  unfold addGroup
  simp only [Status.ofName_name]
  rfl

/-- The counts of queues are those of the groups. -/
structure Sums (groups : List Table.Group) (queues counts : List QueueStats) : Prop where
  ordered : Keyed.Ordered QueueStats.queue counts
  listed : ∀ queue, queue ∈ counts.map QueueStats.queue ↔
    queue ∈ queues.map QueueStats.queue ∨ ∃ group ∈ groups, group.1.1 = queue
  total : ∀ queue status,
    Keyed.total QueueStats.queue (fun stats : QueueStats => stats.count status) queue counts =
      Keyed.total QueueStats.queue (fun stats : QueueStats => stats.count status) queue queues +
        Keyed.total Table.groupKey (fun group => (group.2 : Int)) (toLex (queue, status.name)) groups

/-- **Groups of known states are folded into the counts of the queues.** -/
theorem exists_counts : ∀ (groups : List Table.Group) (queues : List QueueStats),
    (∀ group ∈ groups, ∃ status : Status, group.1.2 = status.name) →
    Keyed.Ordered QueueStats.queue queues →
    ∃ counts, groups.foldlM addGroup queues = .ok counts ∧ Sums groups queues counts
  | [], queues, _, hqueues => ⟨queues, rfl, hqueues, by simp, by simp⟩
  | ((queue, name), n) :: groups, queues, hknown, hqueues => by
    obtain ⟨status, hname⟩ := hknown _ List.mem_cons_self
    obtain rfl : name = status.name := hname
    have hkeeps := QueueStats.keeps_record queue status n
    have hstep := addGroup_eq queues queue status n
    rw [QueueStats.tally_eq] at hstep
    obtain ⟨counts, hfold, hsums⟩ := exists_counts groups _
      (fun group hgroup => hknown group (List.mem_cons_of_mem _ hgroup))
      (Keyed.ordered_update hkeeps hqueues)
    refine ⟨counts, ?_, hsums.ordered, fun other => ?_, fun other state => ?_⟩
    · rw [List.foldlM_cons, hstep]
      exact hfold
    · rw [hsums.listed, Keyed.mem_keys_update hkeeps, List.exists_mem_cons_iff]
      tauto
    · rw [hsums.total, Keyed.total_update hkeeps (QueueStats.adds_record queue status state n),
        Keyed.total_cons]
      have hkey : Table.groupKey ((queue, status.name), n) = toLex (other, state.name) ↔
          queue = other ∧ status = state := by
        unfold Table.groupKey
        rw [toLex_inj, Prod.mk.injEq]
        exact and_congr_right fun _ => ⟨Status.name_injective, fun h => congrArg Status.name h⟩
      simp only [hkey]
      by_cases hqueue : queue = other <;> by_cases hstatus : status = state <;>
        simp only [hqueue, hstatus, and_self, and_false, false_and, if_true, if_false] <;> omega

end Store

/-! ### The census of the rows -/

/-- The row is of the queue and in the state. -/
def Row.isIn (queue : QueueName) (status : Status) (row : Row) : Bool :=
  row.queue == queue && row.status == status.name

/-- The row is in one of the known states. -/
def Row.Known (row : Row) : Prop := ∃ status : Status, row.status = status.name

/-- **The counts tell the numbers of the rows**, of the queues that have rows. -/
def RowCensus (rows : List Row) (counts : List QueueStats) : Prop :=
  QueueStats.Tells (fun queue => ∃ row ∈ rows, row.queue = queue)
    (fun queue status => rows.countP (Row.isIn queue status)) counts

namespace Store

/-- **The groups of a table, in whatever order, are folded into the census of its rows.** -/
theorem exists_rowCensus {table : Table} {groups : List Table.Group}
    (hgroups : groups.Perm table.groups) (hknown : ∀ row ∈ table.rows, row.Known) :
    ∃ counts, groups.foldlM addGroup [] = .ok counts ∧ RowCensus table.rows counts := by
  have hgroup : ∀ group ∈ groups, ∃ row ∈ table.rows, (row.queue, row.status) = group.1 :=
    fun group hmem => (table.mem_keys_groups group.1).1
      (List.mem_map_of_mem (f := Table.groupKey) (hgroups.mem_iff.1 hmem))
  obtain ⟨counts, hfold, hsums⟩ := exists_counts groups [] (fun group hmem => by
    obtain ⟨row, hrow, hkey⟩ := hgroup group hmem
    rw [← hkey]
    exact hknown row hrow) List.Pairwise.nil
  refine ⟨counts, hfold, .of_totals hsums.ordered (fun queue => ?_) fun queue status => ?_⟩
  · rw [hsums.listed]
    constructor
    · rintro (hnone | ⟨group, hmem, rfl⟩)
      · exact absurd hnone List.not_mem_nil
      · obtain ⟨row, hrow, hkey⟩ := hgroup group hmem
        exact ⟨row, hrow, congrArg Prod.fst hkey⟩
    · rintro ⟨row, hrow, rfl⟩
      obtain ⟨group, hmem, hsame⟩ :=
        List.mem_map.1 ((table.mem_keys_groups (row.queue, row.status)).2 ⟨row, hrow, rfl⟩)
      exact .inr ⟨group, hgroups.mem_iff.2 hmem, congrArg Prod.fst (toLex_inj.1 hsame)⟩
  · have htotal : Keyed.total Table.groupKey (fun group => (group.2 : Int))
        (toLex (queue, status.name)) groups = Keyed.total Table.groupKey
          (fun group => (group.2 : Int)) (toLex (queue, status.name)) table.groups :=
      (hgroups.map _).sum_eq
    rw [hsums.total, Keyed.total_nil, Int.zero_add, htotal, table.total_groups]
    rfl

end Store

theorem Row.known_ofJob (job : Job) : (Row.ofJob job).Known := ⟨job.status, rfl⟩

theorem rowCensus_ofJob_iff {jobs : List Job} {counts : List QueueStats} :
    RowCensus (jobs.map Row.ofJob) counts ↔ IsCensus jobs counts := by
  have hlisted : ∀ queue, (∃ row ∈ jobs.map Row.ofJob, row.queue = queue) ↔
      queue ∈ jobs.map Job.queue := fun queue => by
    simp [Row.ofJob]
  have hnumber : ∀ queue status, (jobs.map Row.ofJob).countP (Row.isIn queue status) =
      jobs.countP (Job.isIn queue status) := fun queue status => by
    rw [List.countP_map]
    refine List.countP_congr fun job _ => ?_
    rw [Function.comp_apply, Row.isIn, Job.isIn, Bool.and_eq_true, Bool.and_eq_true, beq_iff_eq,
      beq_iff_eq, beq_iff_eq, beq_iff_eq]
    exact and_congr_right fun _ => ⟨Status.name_injective, fun h => congrArg Status.name h⟩
  rw [IsCensus.iff_tells]
  unfold RowCensus
  simp only [hlisted, hnumber]

/-- **The statistics of a store of jobs are their census.** -/
theorem Store.Holds.queueStats {store : Store} {jobs : List Job} (h : store.Holds jobs) :
    ∃ counts, store.queueStats = .ok counts ∧ IsCensus jobs counts := by
  obtain ⟨table, hquery, hrows⟩ := h.ready.query [] Table.groups
  rw [h.rows] at hrows
  obtain ⟨counts, hfold, hcensus⟩ := exists_rowCensus (List.Perm.refl table.groups)
    (by rw [hrows]; exact List.forall_mem_map.2 fun job _ => Row.known_ofJob job)
  rw [hrows, rowCensus_ofJob_iff] at hcensus
  refine ⟨counts, ?_, hcensus⟩
  unfold Store.queueStats
  rw [hquery]
  exact hfold

end Sql

end JobQueue

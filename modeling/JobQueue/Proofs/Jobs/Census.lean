import JobQueue.Proofs.Keyed
import JobQueue.Store.Memory
import Mathlib.Data.Prod.Lex
import Mathlib.Data.String.Basic

/-! # Statistics are a census

Counts are kept in increasing order of their queues (`Proofs.Keyed`). Whatever order the jobs come
in, the statistics that they are counted into are a *census* (`IsCensus`): they are in increasing
order of the queues, list just the queues of the jobs, and their counts are the numbers of jobs of
the queue in each state. Counts that tell the same numbers are the same (`QueueStats.Tells.unique`),
so jobs have one census (`IsCensus.unique`).

* `isCensus_stats`: **the statistics of the store in memory are the census.** -/

namespace JobQueue

/-! ### The census -/

theorem QueueStats.count_record (stats : QueueStats) (s t : Status) (n : Int) :
    (stats.record s n).count t = stats.count t + if s = t then n else 0 := by
  by_cases h : s = t
  · rw [if_pos h, h, count_record_self]
  · rw [if_neg h, count_record_of_ne stats n fun hts => h hts.symm, Int.add_zero]

theorem QueueStats.eq_of_counts {a b : QueueStats} (hqueue : a.queue = b.queue)
    (hcounts : ∀ status, a.count status = b.count status) : a = b := by
  obtain ⟨queue, pending, running, completed, failed, cancelled⟩ := a
  obtain ⟨queue', pending', running', completed', failed', cancelled'⟩ := b
  obtain rfl : queue = queue' := hqueue
  obtain rfl : pending = pending' := hcounts .pending
  obtain rfl : running = running' := hcounts .running
  obtain rfl : completed = completed' := hcounts .completed
  obtain rfl : failed = failed' := hcounts .failed
  obtain rfl : cancelled = cancelled' := hcounts .cancelled
  rfl

/-- **The counts tell these numbers**, queue by queue in order, of the queues that are listed. -/
structure QueueStats.Tells (listed : QueueName → Prop) (number : QueueName → Status → Nat)
    (counts : List QueueStats) : Prop where
  ordered : Keyed.Ordered QueueStats.queue counts
  listed : ∀ queue, queue ∈ counts.map QueueStats.queue ↔ listed queue
  counted : ∀ stats ∈ counts, ∀ status, stats.count status = number stats.queue status

namespace QueueStats.Tells

variable {listed : QueueName → Prop} {number : QueueName → Status → Nat}
  {counts counts' : List QueueStats}

theorem subset (h : Tells listed number counts) (h' : Tells listed number counts') :
    counts ⊆ counts' := by
  intro stats hstats
  have hqueue := (h.listed stats.queue).1 (List.mem_map_of_mem hstats)
  obtain ⟨other, hother, hsame⟩ := List.mem_map.1 ((h'.listed stats.queue).2 hqueue)
  have heq : stats = other := QueueStats.eq_of_counts hsame.symm fun status => by
    rw [h.counted stats hstats, h'.counted other hother, hsame]
  rw [heq]
  exact hother

/-- **Counts that tell the same are the same.** -/
theorem unique (h : Tells listed number counts) (h' : Tells listed number counts') :
    counts = counts' :=
  h.ordered.eq_of_mem_iff h'.ordered fun _ => ⟨fun hs => h.subset h' hs, fun hs => h'.subset h hs⟩

theorem of_totals (hordered : Keyed.Ordered QueueStats.queue counts)
    (hlisted : ∀ queue, queue ∈ counts.map QueueStats.queue ↔ listed queue)
    (htotals : ∀ queue status,
      Keyed.total QueueStats.queue (fun stats : QueueStats => stats.count status) queue counts =
        number queue status) : Tells listed number counts :=
  ⟨hordered, hlisted, fun stats hstats status => by
    rw [← htotals, Keyed.total_of_mem hordered hstats]⟩

end QueueStats.Tells

/-- The job is of the queue and in the state. -/
def Job.isIn (queue : QueueName) (status : Status) (job : Job) : Bool :=
  job.queue == queue && job.status == status

/-- **The counts are the census of the jobs.** -/
structure IsCensus (jobs : List Job) (counts : List QueueStats) : Prop where
  ordered : counts.Pairwise fun a b => a.queue < b.queue
  listed : ∀ queue, queue ∈ counts.map QueueStats.queue ↔ queue ∈ jobs.map Job.queue
  counted : ∀ stats ∈ counts, ∀ status,
    stats.count status = jobs.countP (Job.isIn stats.queue status)

namespace IsCensus

variable {jobs : List Job} {counts counts' : List QueueStats}

theorem iff_tells : IsCensus jobs counts ↔
    QueueStats.Tells (fun queue => queue ∈ jobs.map Job.queue)
      (fun queue status => jobs.countP (Job.isIn queue status)) counts :=
  ⟨fun h => ⟨h.ordered, h.listed, h.counted⟩, fun h => ⟨h.ordered, h.listed, h.counted⟩⟩

/-- **Jobs have one census.** -/
theorem unique (h : IsCensus jobs counts) (h' : IsCensus jobs counts') : counts = counts' :=
  (iff_tells.1 h).unique (iff_tells.1 h')

end IsCensus

/-! ### Counting jobs -/

namespace QueueStats

theorem keeps_record (queue : QueueName) (status : Status) (n : Int) :
    Keyed.Keeps QueueStats.queue queue (QueueStats.empty queue) fun stats =>
      stats.record status n :=
  ⟨queue_record _ _ _, fun stats hqueue => (queue_record stats status n).trans hqueue⟩

theorem adds_record (queue : QueueName) (status other : Status) (n : Int) :
    Keyed.Adds (fun stats : QueueStats => stats.count other) (QueueStats.empty queue)
      (fun stats => stats.record status n) (if status = other then n else 0) := by
  refine ⟨?_, fun stats => count_record stats status other n⟩
  have hempty : (QueueStats.empty queue).count other = 0 := by cases other <;> rfl
  rw [count_record, hempty, Int.zero_add]

theorem tally_eq (queue : QueueName) (status : Status) (n : Int) : ∀ counts : List QueueStats,
    tally queue status n counts = Keyed.update QueueStats.queue queue (QueueStats.empty queue)
      (fun stats => stats.record status n) counts
  | [] => rfl
  | stats :: rest => by
    unfold tally Keyed.update
    rw [tally_eq queue status n rest]

end QueueStats

namespace MemoryStore

/-- **The statistics are the census of the jobs.** -/
theorem isCensus_stats (jobs : List Job) : IsCensus jobs (stats jobs) := by
  have hkeeps (job : Job) := QueueStats.keeps_record job.queue job.status 1
  have hadds (status : Status) (job : Job) := QueueStats.adds_record job.queue job.status status 1
  unfold stats
  simp only [QueueStats.tally_eq]
  refine IsCensus.iff_tells.2 (.of_totals (Keyed.ordered_foldl hkeeps jobs List.Pairwise.nil)
    (fun queue => ?_) fun queue status => ?_)
  · rw [Keyed.mem_keys_foldl hkeeps]
    simp
  · rw [Keyed.total_foldl hkeeps (hadds status), ← Keyed.sum_ite_eq_countP, Keyed.total_nil,
      Int.zero_add]
    congr 1
    refine List.map_congr_left fun job _ => ?_
    unfold Job.isIn
    by_cases hqueue : job.queue = queue <;> by_cases hstatus : job.status = status <;>
      simp [hqueue, hstatus]

end MemoryStore

end JobQueue

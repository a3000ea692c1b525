import JobQueue.Breakdown
import JobQueue.Job.Status

/-! # Queue statistics

How many jobs of a queue are in each state.

* `count_record_self`, `count_record_of_ne`: recording adds to one count and keeps the others.
* `total_record`: and adds as much to the total.
* `recordChecked`, `totalChecked`: the same with integers of 64 bits.
* `tally`: jobs are counted for their queue. -/

namespace JobQueue

/-- **The counts of a queue** by state. -/
structure QueueStats where
  queue : String
  pending : Int
  running : Int
  completed : Int
  failed : Int
  cancelled : Int
deriving DecidableEq, Repr

namespace QueueStats

/-- A queue without jobs. -/
def empty (queue : String) : QueueStats := ⟨queue, 0, 0, 0, 0, 0⟩

/-- `n` more jobs in a state. -/
def record (stats : QueueStats) (status : Status) (n : Int) : QueueStats :=
  match status with
  | .pending => { stats with pending := stats.pending + n }
  | .running => { stats with running := stats.running + n }
  | .completed => { stats with completed := stats.completed + n }
  | .failed => { stats with failed := stats.failed + n }
  | .cancelled => { stats with cancelled := stats.cancelled + n }

/-- The jobs in a state. -/
def count (stats : QueueStats) : Status → Int
  | .pending => stats.pending
  | .running => stats.running
  | .completed => stats.completed
  | .failed => stats.failed
  | .cancelled => stats.cancelled

/-- All jobs of the queue. -/
def total (stats : QueueStats) : Int :=
  stats.pending + stats.running + stats.completed + stats.failed + stats.cancelled

/-- `n` more jobs in a state, if their count has 64 bits. -/
def recordChecked (stats : QueueStats) (status : Status) (n : Int) :
    Except Breakdown QueueStats := do
  discard (Breakdown.sum64 (stats.count status) n)
  return stats.record status n

/-- All jobs of the queue, if no sum on the way leaves 64 bits. -/
def totalChecked (stats : QueueStats) : Except Breakdown Int := do
  let n ← Breakdown.sum64 stats.pending stats.running
  let n ← Breakdown.sum64 n stats.completed
  let n ← Breakdown.sum64 n stats.failed
  Breakdown.sum64 n stats.cancelled

/-- `n` more jobs of a queue in a state; the counts are in increasing order of queue names. -/
def tally (queue : String) (status : Status) (n : Int) : List QueueStats → List QueueStats
  | [] => [(empty queue).record status n]
  | stats :: rest =>
    if queue < stats.queue then (empty queue).record status n :: stats :: rest
    else if queue = stats.queue then stats.record status n :: rest
    else stats :: tally queue status n rest

@[simp] theorem queue_record (stats : QueueStats) (s : Status) (n : Int) :
    (stats.record s n).queue = stats.queue := by
  cases s <;> rfl

@[simp] theorem count_record_self (stats : QueueStats) (s : Status) (n : Int) :
    (stats.record s n).count s = stats.count s + n := by
  cases s <;> rfl

theorem count_record_of_ne (stats : QueueStats) {s t : Status} (n : Int) (h : t ≠ s) :
    (stats.record s n).count t = stats.count t := by
  cases s <;> cases t <;> first | exact absurd rfl h | rfl

@[simp] theorem total_record (stats : QueueStats) (s : Status) (n : Int) :
    (stats.record s n).total = stats.total + n := by
  cases s <;> simp only [record, total] <;> omega

end QueueStats

end JobQueue

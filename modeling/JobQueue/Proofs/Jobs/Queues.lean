import JobQueue.Proofs.Jobs.Census
import JobQueue.Proofs.Jobs.Effect

/-! # The jobs of one queue

A call is about a queue (`Call.queue?`): that into which it inserts, from which it claims, or of the
job that it names. Recovery, removal and statistics are about none, and neither is a call for a job
that nobody knows. A call about one queue leaves the jobs of the others, and what it does to the
jobs of its own does not depend on the others; what a call about no queue does to the jobs of a
queue does not depend on the others either. So the effect of a call on the jobs of a queue is its
effect on just these jobs, or nothing (`Call.ofQueue_effect`).

* `Knows`: the list tells the queue of each of the jobs.
* `Call.queue_of_takes`: a call takes jobs of its queue only.
* `Call.ofQueue_effect`: **the effect on the jobs of one queue.**
* `IsCensus.ofQueue`: the census of the jobs of one queue. -/

namespace JobQueue

open MemoryStore

/-- The jobs of the queue. -/
def ofQueue (queue : QueueName) (jobs : List Job) : List Job :=
  jobs.filter fun job => job.queue == queue

/-- The known jobs tell the queues of the jobs. -/
def Knows (known jobs : List Job) : Prop :=
  ∀ job ∈ jobs, (find? job.id known).map Job.queue = some job.queue

theorem mem_ofQueue {queue : QueueName} {jobs : List Job} {job : Job} :
    job ∈ ofQueue queue jobs ↔ job ∈ jobs ∧ job.queue = queue := by
  unfold ofQueue
  rw [List.mem_filter, beq_iff_eq]

theorem claimable_ofQueue (queue : QueueName) (now : Int) (jobs : List Job) :
    claimable queue now (ofQueue queue jobs) = claimable queue now jobs := by
  unfold claimable ofQueue
  rw [List.filter_filter]
  refine List.filter_congr fun job _ => ?_
  cases job.queue == queue <;> simp

namespace Call

/-- The id that the call names. -/
def id? : Call → Option JobId
  | .insert job => some job.id
  | .findById id | .complete id _ _ | .fail id _ _ _ | .failPermanently id _ _ | .cancel id =>
    some id
  | .claimNext _ _ | .recoverStale _ | .deleteOlderThan _ | .queueStats => none

/-- **The queue that the call is about**, if there is one: that of the known job of the id, for a
call that names an id. -/
def queue? (known : List Job) : Call → Option QueueName
  | .insert job => some job.queue
  | .claimNext queue _ => some queue
  | .findById id | .complete id _ _ | .fail id _ _ _ | .failPermanently id _ _ | .cancel id =>
    (find? id known).map Job.queue
  | .recoverStale _ | .deleteOlderThan _ | .queueStats => none

/-- The call is about all queues. -/
def isGlobal : Call → Bool
  | .recoverStale _ | .deleteOlderThan _ | .queueStats => true
  | _ => false

/-- **The call is not about another queue.** -/
def concerns (known : List Job) (queue : QueueName) (call : Call) : Bool :=
  (call.queue? known).all (· == queue)

variable {call : Call} {now : Int} {known jobs : List Job} {queue : QueueName}

theorem concerns_iff :
    call.concerns known queue = true ↔ ∀ other, call.queue? known = some other → other = queue := by
  unfold concerns
  rw [Option.all_eq_true]
  simp only [beq_iff_eq]

theorem queue_turn (call : Call) (now : Int) (job : Job) :
    (call.turn now job).queue = job.queue := by
  cases call with
  | fail id worker error delay =>
    show (job.afterFailure (Timestamp.later now delay) error now).queue = job.queue
    unfold Job.afterFailure
    split <;> rfl
  | _ => rfl

/-- **A call takes jobs of its queue only.** -/
theorem queue_of_takes (hdistinct : (jobs.map Job.id).Nodup) (hknows : Knows known jobs)
    {job : Job} (hjob : job ∈ jobs) (htakes : call.takes now jobs job = true)
    (hqueue : call.queue? known = some queue) : job.queue = queue := by
  have hmove := move_of_takes hdistinct hjob htakes
  have hnamed : ∀ {id}, job.id = id → (find? id known).map Job.queue = some queue →
      job.queue = queue := by
    rintro id rfl hfind
    exact Option.some.inj ((hknows job hjob).symm.trans hfind)
  generalize call.turn now job = next at hmove
  cases hmove with
  | claim hsame => exact hsame.trans (Option.some.inj hqueue)
  | complete hid => exact hnamed hid hqueue
  | retry hid => exact hnamed hid hqueue
  | exhaust hid => exact hnamed hid hqueue
  | giveUp hid => exact hnamed hid hqueue
  | cancel hid => exact hnamed hid hqueue
  | recover => cases hqueue

theorem takes_ofQueue (hcall : call.concerns known queue = true) (job : Job) :
    call.takes now (ofQueue queue jobs) job = call.takes now jobs job := by
  cases call with
  | claimNext other worker =>
    obtain rfl := concerns_iff.1 hcall other rfl
    show (first? (claimable other now (ofQueue other jobs))).any _ = _
    rw [claimable_ofQueue]
    rfl
  | _ => rfl

theorem ofQueue_turned (hdistinct : (jobs.map Job.id).Nodup) (hknows : Knows known jobs) :
    ofQueue queue (call.turned now jobs) =
      if call.concerns known queue then call.turned now (ofQueue queue jobs)
      else ofQueue queue jobs := by
  have hfilter : ofQueue queue (call.turned now jobs) = (ofQueue queue jobs).map fun job =>
      if call.takes now jobs job then call.turn now job else job := by
    unfold ofQueue turned
    rw [List.filter_map]
    congr 2
    funext job
    show ((if call.takes now jobs job then call.turn now job else job).queue == queue) = _
    split
    · rw [queue_turn]
    · rfl
  rw [hfilter]
  split
  · next hcall =>
    refine List.map_congr_left fun job _ => ?_
    rw [takes_ofQueue hcall]
  · next hnot =>
    refine (List.map_congr_left fun job hjob => if_neg fun htakes => hnot ?_).trans (List.map_id _)
    obtain ⟨hmem, hqueue⟩ := mem_ofQueue.1 hjob
    refine concerns_iff.2 fun other hother => ?_
    rw [← queue_of_takes hdistinct hknows hmem htakes hother, hqueue]

/-- **The effect of a call on the jobs of one queue** is its effect on them alone, or nothing if it
is about another queue. Jobs enter with new ids. -/
theorem ofQueue_effect (hdistinct : (jobs.map Job.id).Nodup) (hknows : Knows known jobs)
    (hnew : ∀ job, call = .insert job → find? job.id jobs = none) :
    ofQueue queue (call.effect now jobs) =
      if call.concerns known queue then call.effect now (ofQueue queue jobs)
      else ofQueue queue jobs := by
  cases call with
  | insert job =>
    have hjob := hnew job rfl
    have hadmits : admits (ofQueue queue jobs) job = admits jobs job := by
      rw [Bool.eq_iff_iff, admits_iff, admits_iff, hjob]
      unfold ofQueue
      rw [find?_filter hdistinct, hjob]
      rfl
    show ofQueue queue (if admits jobs job then jobs ++ [job] else jobs) =
      if (job.queue == queue) = true then
        (if admits (ofQueue queue jobs) job then ofQueue queue jobs ++ [job]
          else ofQueue queue jobs)
      else ofQueue queue jobs
    rw [hadmits]
    unfold ofQueue
    by_cases hqueue : (job.queue == queue) = true
    · by_cases hadmitted : admits jobs job = true <;> simp [hqueue, hadmitted]
    · by_cases hadmitted : admits jobs job = true <;> simp [hqueue, hadmitted]
  | deleteOlderThan cutoff =>
    show (List.filter _ (List.filter _ jobs)) = List.filter _ (List.filter _ jobs)
    rw [List.filter_filter, List.filter_filter]
    exact List.filter_congr fun job _ => Bool.and_comm _ _
  | _ => exact ofQueue_turned hdistinct hknows

end Call

/-! ### Statistics -/

/-- **The census of the jobs of one queue** is the entry of the queue. -/
theorem IsCensus.ofQueue {jobs : List Job} {counts : List QueueStats} (h : IsCensus jobs counts)
    (queue : QueueName) :
    IsCensus (ofQueue queue jobs) (counts.filter fun stats => stats.queue == queue) := by
  refine ⟨h.ordered.filter _, fun other => ?_, fun stats hstats status => ?_⟩
  · have hlisted := h.listed other
    simp only [List.mem_map, List.mem_filter, beq_iff_eq, mem_ofQueue] at hlisted ⊢
    constructor
    · rintro ⟨stats, ⟨hmem, rfl⟩, rfl⟩
      obtain ⟨job, hjob, hqueue⟩ := hlisted.1 ⟨stats, hmem, rfl⟩
      exact ⟨job, ⟨hjob, hqueue⟩, hqueue⟩
    · rintro ⟨job, ⟨hmem, rfl⟩, rfl⟩
      obtain ⟨stats, hstats, hqueue⟩ := hlisted.2 ⟨job, hmem, rfl⟩
      exact ⟨stats, ⟨hstats, hqueue⟩, hqueue⟩
  · obtain ⟨hmem, hqueue⟩ := List.mem_filter.1 hstats
    rw [h.counted stats hmem]
    unfold JobQueue.ofQueue
    rw [List.countP_filter]
    congr 1
    refine List.countP_congr fun job _ => ?_
    rw [beq_iff_eq] at hqueue
    unfold Job.isIn
    rw [hqueue]
    cases job.queue == queue <;> simp

end JobQueue

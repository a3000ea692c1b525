import JobQueue.Proofs.Jobs.Queues
import JobQueue.Proofs.Sql.Ledger
import JobQueue.Proofs.Stores.Agreement

/-! # Queues do not disturb each other

A call is answered by what is there under its id, or by the due jobs of its queue, and by nothing
else (`Holds.answer_congr`). So as much of a history as is about one queue, or about none, can be
run alone (`restrict`): while no id is used twice, it leaves just the rows of the queue that the
whole history leaves, and its calls are answered as they were. Two operations about different queues
can therefore change places.

* `KnownBy`: the known jobs tell what each id of the history stands for.
* `jobsAfter_restrict`: the jobs of a queue after the history are those after its restriction.
* `run_restrict`: the answers in both.
* `Apart.run_eq`, `Apart.perm_rows`: two operations about different queues in either order.
* `queues_isolated`: **queues are isolated.** -/

namespace JobQueue

open MemoryStore

/-! ### What answers depend on -/

namespace Sql.Store

variable {store store' : Store} {jobs jobs' : List Job}

theorem Transition.congr {call : Call} {now : Int} {id : JobId} {action : Action}
    {answer answer' : Except JobError Job × Store} (hdistinct : (jobs.map Job.id).Nodup)
    (hdistinct' : (jobs'.map Job.id).Nodup) (h : Transition store jobs call now id action answer)
    (h' : Transition store' jobs' call now id action answer')
    (hfind : find? id jobs = find? id jobs')
    (htakes : ∀ job, call.takes now jobs job = call.takes now jobs' job) :
    answer.1 = answer'.1 := by
  have hmem : ∀ {jobs : List Job} {job : Job}, (jobs.map Job.id).Nodup →
      find? id jobs = some job → job ∈ jobs := fun hdistinct hjob =>
    ((Call.find?_eq_some_iff hdistinct).1 hjob).1
  cases h with
  | @taken job _ hjob hjobTakes =>
    rw [hfind] at hjob
    cases h' with
    | taken hjob' => rw [Option.some.inj (hjob.symm.trans hjob')]
    | refused hnone =>
      rw [htakes, hnone job (hmem hdistinct' hjob)] at hjobTakes
      cases hjobTakes
  | refused hnone =>
    cases h' with
    | @taken job _ hjob hjobTakes =>
      rw [← hfind] at hjob
      rw [← htakes, hnone job (hmem hdistinct hjob)] at hjobTakes
      cases hjobTakes
    | refused => rw [hfind]

theorem Holds.insert_congr (h : store.Holds jobs) (h' : store'.Holds jobs') {job : Job}
    (hfind : find? job.id jobs = find? job.id jobs') :
    (store.insert job).1 = (store'.insert job).1 := by
  by_cases hallowed : 1 ≤ job.maxAttempts
  · cases hrow : find? job.id jobs with
    | none =>
      obtain ⟨_, hinsert, -⟩ := h.ready.insert_new hallowed (by rw [h.row?, hrow]; rfl)
      obtain ⟨_, hinsert', -⟩ := h'.ready.insert_new hallowed (by rw [h'.row?, ← hfind, hrow]; rfl)
      rw [hinsert, hinsert']
    | some other =>
      rw [h.ready.insert_taken hallowed (by rw [h.row?, hrow]; exact nofun),
        h'.ready.insert_taken hallowed (by rw [h'.row?, ← hfind, hrow]; exact nofun)]
  · rw [h.ready.insert_disallowed (by omega), h'.ready.insert_disallowed (by omega)]

/-- **A call is answered by what is there under its id**, a claim by the due jobs of its queue. -/
theorem Holds.answer_congr (h : store.Holds jobs) (h' : store'.Holds jobs') {call : Call}
    {now : Int} (hcall : call.isGlobal = false)
    (hfind : ∀ id, call.id? = some id → find? id jobs = find? id jobs')
    (hdue : ∀ queue worker, call = .claimNext queue worker →
      claimable queue now jobs = claimable queue now jobs') :
    (store.run call now).1 = (store'.run call now).1 := by
  cases call with
  | insert job => exact h.insert_congr h' (hfind job.id rfl)
  | findById id =>
    show (store.findById id).1 = (store'.findById id).1
    rw [findById_eq h, findById_eq h', hfind id rfl]
  | claimNext queue worker =>
    show (store.claimNext queue worker now).1 = (store'.claimNext queue worker now).1
    rw [claimNext_eq h, claimNext_eq h', hdue queue worker rfl]
  | complete id worker result =>
    exact (h.complete id worker result now).congr h.distinct h'.distinct
      (h'.complete id worker result now) (hfind id rfl) fun _ => rfl
  | fail id worker error delay =>
    exact (h.fail id worker error delay now).congr h.distinct h'.distinct
      (h'.fail id worker error delay now) (hfind id rfl) fun _ => rfl
  | failPermanently id worker error =>
    exact (h.failPermanently id worker error now).congr h.distinct h'.distinct
      (h'.failPermanently id worker error now) (hfind id rfl) fun _ => rfl
  | cancel id =>
    exact (h.cancel id now).congr h.distinct h'.distinct (h'.cancel id now) (hfind id rfl)
      fun _ => rfl
  | recoverStale | deleteOlderThan | queueStats => cases hcall

end Sql.Store

/-! ### The part of a history that is about one queue -/

/-- **The operations that are not about another queue.** -/
def restrict (known : List Job) (queue : QueueName) (history : List Operation) : List Operation :=
  history.filter fun op => op.call.concerns known queue

/-- **The known jobs are those of the history**, whose ids are used once. -/
structure KnownBy (known : List Job) (history : List Operation) : Prop where
  known : ∀ job ∈ insertedJobs history, find? job.id known = some job
  ids : (Sql.Store.insertedIds history).Nodup

namespace KnownBy

variable {known : List Job} {history : List Operation}

theorem insertedJobs (hids : (Sql.Store.insertedIds history).Nodup) :
    KnownBy (insertedJobs history) history := by
  refine ⟨fun job hjob => (Call.find?_eq_some_iff ?_).2 ⟨hjob, rfl⟩, hids⟩
  rw [map_id_insertedJobs]
  exact hids

theorem suffix (h : KnownBy known history) {earlier : List Operation}
    (hsuffix : earlier <:+ history) : KnownBy known earlier :=
  ⟨fun job hjob => h.known job (insertedJobs_suffix hsuffix hjob),
    h.ids.sublist (hsuffix.sublist.filterMap _)⟩

theorem earlier {op : Operation} {earlier : List Operation} (h : KnownBy known (op :: earlier)) :
    KnownBy known earlier :=
  h.suffix (List.suffix_cons op earlier)

theorem swap {first second : Operation} {earlier : List Operation}
    (h : KnownBy known (second :: first :: earlier)) :
    KnownBy known (first :: second :: earlier) := by
  have hperm := List.Perm.swap second first earlier
  refine ⟨fun job hjob => h.known job ?_, ((hperm.filterMap _).nodup_iff).2 h.ids⟩
  obtain ⟨op, hop, hcall⟩ := mem_insertedJobs.1 hjob
  exact mem_insertedJobs.2 ⟨op, hperm.mem_iff.1 hop, hcall⟩

theorem knows (h : KnownBy known history) : Knows known (jobsAfter history) := by
  intro job hjob
  obtain ⟨origin, horigin, hsame⟩ := exists_origin hjob
  rw [hsame.id, h.known origin horigin, Option.map_some, hsame.queue]

theorem find?_eq_none {op : Operation} (h : KnownBy known (op :: history)) {job : Job}
    (hcall : op.call = .insert job) : find? job.id (jobsAfter history) = none := by
  have hnew : job.id ∉ Sql.Store.insertedIds history := by
    obtain ⟨call, now⟩ := op
    obtain rfl : call = .insert job := hcall
    exact (List.nodup_cons.1 h.ids).1
  refine Call.find?_eq_none_iff.2 fun other hother hid => hnew ?_
  rw [← hid]
  exact Sql.Store.id_mem_insertedIds history other hother

end KnownBy

/-- **The jobs of a queue after a history are those after its restriction.** -/
theorem jobsAfter_restrict {known : List Job} (queue : QueueName) :
    ∀ history : List Operation, KnownBy known history →
      jobsAfter (restrict known queue history) = ofQueue queue (jobsAfter history)
  | [], _ => rfl
  | op :: earlier, h => by
    have ih := jobsAfter_restrict queue earlier h.earlier
    show _ = ofQueue queue (op.call.effect op.now (jobsAfter earlier))
    rw [Call.ofQueue_effect (distinct_jobsAfter earlier) h.earlier.knows fun job hcall =>
      h.find?_eq_none hcall, ← ih]
    unfold restrict
    rw [List.filter_cons]
    split <;> rfl

theorem inserting_restrict {P : Job → Prop} {history : List Operation} (h : Inserting P history)
    (known : List Job) (queue : QueueName) : Inserting P (restrict known queue history) :=
  fun op hop => h op (List.mem_of_mem_filter hop)

namespace Sql.Store

variable {inFile : Bool} {known : List Job} {queue : QueueName}

theorem find?_ofQueue {op : Operation} {history : List Operation}
    (h : KnownBy known (op :: history)) (hqueue : op.call.concerns known queue = true) {id : JobId}
    (hid : op.call.id? = some id) :
    find? id (ofQueue queue (jobsAfter history)) = find? id (jobsAfter history) := by
  unfold ofQueue
  rw [Call.find?_filter (distinct_jobsAfter history)]
  cases hfind : find? id (jobsAfter history) with
  | none => rfl
  | some job =>
    obtain ⟨hmem, rfl⟩ := (Call.find?_eq_some_iff (distinct_jobsAfter history)).1 hfind
    have hknown := h.earlier.knows job hmem
    have hjob : job.queue = queue := by
      rw [Call.concerns_iff] at hqueue
      generalize hcall : op.call = call at hqueue hid
      cases call with
      | insert other =>
        rw [← Option.some.inj hid, h.find?_eq_none hcall] at hfind
        cases hfind
      | findById | complete | fail | failPermanently | cancel =>
        cases hid
        exact hqueue job.queue hknown
      | _ => cases hid
    rw [Option.filter_some, if_pos (by rw [hjob]; exact beq_self_eq_true queue)]

/-- **A call is answered alike** after the history and after its restriction, unless it is about
another queue or about all. -/
theorem run_restrict {op : Operation} {history : List Operation}
    (hjobs : Inserting Job.HasRoom history) (h : KnownBy known (op :: history))
    (hqueue : op.call.concerns known queue = true) (hglobal : op.call.isGlobal = false) :
    ((after inFile (restrict known queue history)).run op.call op.now).1 =
      ((after inFile history).run op.call op.now).1 := by
  have halone := holds_after inFile _ (inserting_restrict hjobs known queue)
  rw [jobsAfter_restrict queue history h.earlier] at halone
  refine halone.answer_congr (holds_after inFile history hjobs) hglobal
    (fun id hid => find?_ofQueue h hqueue hid) fun other worker hcall => ?_
  obtain rfl : other = queue := Call.concerns_iff.1 hqueue other (by rw [hcall]; rfl)
  exact claimable_ofQueue other op.now _

theorem Holds.rows_ofQueue {store : Store} {jobs : List Job} (h : store.Holds jobs)
    (queue : QueueName) :
    (store.rows.filter fun row => row.queue == queue) = (ofQueue queue jobs).map Row.ofJob := by
  rw [h.rows, List.filter_map]
  rfl

theorem perm_of_queues {rows rows' : List Row}
    (h : ∀ queue, (rows.filter fun row => row.queue == queue) =
      rows'.filter fun row => row.queue == queue) : rows.Perm rows' := by
  refine List.perm_iff_count.2 fun row => ?_
  have hcount : ∀ rows : List Row,
      (rows.filter fun other => other.queue == row.queue).count row = rows.count row :=
    fun rows => List.count_filter (beq_self_eq_true row.queue)
  rw [← hcount rows, ← hcount rows', h]

/-- **The operations are about different queues.** -/
def Apart (known : List Job) (first second : Operation) : Prop :=
  ∃ a b, first.call.queue? known = some a ∧ second.call.queue? known = some b ∧ a ≠ b

theorem Apart.symm {first second : Operation} (h : Apart known first second) :
    Apart known second first := by
  obtain ⟨a, b, hfirst, hsecond, hne⟩ := h
  exact ⟨b, a, hsecond, hfirst, hne.symm⟩

theorem Apart.exists_queue {first second : Operation} (h : Apart known first second) :
    ∃ queue, first.call.concerns known queue = true ∧ first.call.isGlobal = false := by
  obtain ⟨queue, -, hqueue, -⟩ := h
  refine ⟨queue, Call.concerns_iff.2 fun other hother => ?_, ?_⟩
  · exact Option.some.inj (hother.symm.trans hqueue)
  · generalize first.call = call at hqueue ⊢
    cases call with
    | recoverStale | deleteOlderThan | queueStats => cases hqueue
    | _ => rfl

theorem Apart.not_both {first second : Operation} (h : Apart known first second)
    (hfirst : first.call.concerns known queue = true) :
    second.call.concerns known queue = false := by
  obtain ⟨a, b, ha, hb, hne⟩ := h
  rw [Call.concerns_iff] at hfirst
  rw [Bool.eq_false_iff, ne_eq, Call.concerns_iff]
  exact fun hsecond => hne ((hfirst a ha).trans (hsecond b hb).symm)

theorem Apart.restrict_swap {first second : Operation} (h : Apart known first second)
    (earlier : List Operation) (queue : QueueName) :
    restrict known queue (second :: first :: earlier) =
      restrict known queue (first :: second :: earlier) := by
  unfold restrict
  by_cases hfirst : first.call.concerns known queue = true
  · simp [hfirst, h.not_both hfirst]
  · simp [List.filter_cons, hfirst]

/-- **The rows after two operations about different queues** do not depend on which came first. -/
theorem Apart.perm_rows {first second : Operation} {earlier : List Operation}
    (h : Apart known first second) (hjobs : Inserting Job.HasRoom (second :: first :: earlier))
    (hknown : KnownBy known (second :: first :: earlier)) :
    (after inFile (first :: second :: earlier)).rows.Perm
      (after inFile (second :: first :: earlier)).rows := by
  have hswap : Inserting Job.HasRoom (first :: second :: earlier) := fun op hop =>
    hjobs op ((List.Perm.swap second first earlier).mem_iff.1 hop)
  refine perm_of_queues fun queue => ?_
  rw [(holds_after inFile _ hswap).rows_ofQueue, (holds_after inFile _ hjobs).rows_ofQueue,
    ← jobsAfter_restrict queue _ hknown.swap, ← jobsAfter_restrict queue _ hknown,
    h.restrict_swap]

theorem Apart.run_eq {op other : Operation} {earlier : List Operation}
    (h : Apart known op other) (hjobs : Inserting Job.HasRoom (other :: earlier))
    (hknown : KnownBy known (op :: other :: earlier)) :
    ((after inFile (other :: earlier)).run op.call op.now).1 =
      ((after inFile earlier).run op.call op.now).1 := by
  obtain ⟨queue, hconcerns, hglobal⟩ := h.exists_queue
  have hrestrict : restrict known queue (other :: earlier) = restrict known queue earlier := by
    unfold restrict
    rw [List.filter_cons, h.not_both hconcerns]
    rfl
  rw [← run_restrict hjobs hknown hconcerns hglobal, hrestrict,
    run_restrict hjobs.earlier hknown.swap.earlier hconcerns hglobal]

/-- **Queues are isolated**, in every history in which no id is used twice. The operations of a
queue alone are those of the history without the insertions into other queues, the claims from them,
and the reports on jobs of them, their cancellations and look-ups, each at its time.

* At every point the rows after the operations of a queue alone are the rows of the queue after all,
  and the statistics are the entry of the queue.
* A call that remains is answered as in the whole history, unless it is about all queues.
* Two successive operations about different queues commute: each is answered as without the other,
  and the rows after both are the same in either order. -/
theorem queues_isolated (inFile : Bool) (history : List Operation)
    (hjobs : Inserting Job.InRange history) (hids : (insertedIds history).Nodup) :
    let known := insertedJobs history
    (∀ queue earlier, earlier <:+ history →
      let alone := after inFile (restrict known queue earlier)
      alone.rows = (after inFile earlier).rows.filter (fun row => row.queue == queue) ∧
        ∃ counts, (after inFile earlier).queueStats = .ok counts ∧
          alone.queueStats = .ok (counts.filter fun stats => stats.queue == queue)) ∧
    (∀ queue op earlier, op :: earlier <:+ history → op.call.concerns known queue = true →
      op.call.isGlobal = false →
      ((after inFile (restrict known queue earlier)).run op.call op.now).1 =
        ((after inFile earlier).run op.call op.now).1) ∧
    ∀ first second earlier, second :: first :: earlier <:+ history → Apart known first second →
      ((after inFile (second :: earlier)).run first.call first.now).1 =
          ((after inFile earlier).run first.call first.now).1 ∧
        ((after inFile (first :: earlier)).run second.call second.now).1 =
          ((after inFile earlier).run second.call second.now).1 ∧
        (after inFile (first :: second :: earlier)).rows.Perm
          (after inFile (second :: first :: earlier)).rows := by
  intro known
  have hknown : KnownBy known history := .insertedJobs hids
  have hroom : Inserting Job.HasRoom history := hjobs.mono fun _ hjob => hjob.hasRoom
  refine ⟨fun queue earlier hsuffix => ?_, fun queue op earlier hsuffix hqueue hglobal => ?_,
    fun first second earlier hsuffix hapart => ?_⟩
  · have hholds := holds_after inFile earlier (hroom.suffix hsuffix)
    have halone :=
      holds_after inFile _ (inserting_restrict (hroom.suffix hsuffix) known queue)
    rw [jobsAfter_restrict queue earlier (hknown.suffix hsuffix)] at halone
    obtain ⟨counts, hcounts, hcensus⟩ := hholds.queueStats
    obtain ⟨counts', hcounts', hcensus'⟩ := halone.queueStats
    refine ⟨halone.rows.trans (hholds.rows_ofQueue queue).symm, counts, hcounts, ?_⟩
    rw [hcounts', hcensus'.unique (hcensus.ofQueue queue)]
  · have hearlier := (List.suffix_cons op earlier).trans hsuffix
    exact run_restrict (hroom.suffix hearlier) (hknown.suffix hsuffix) hqueue hglobal
  · have hboth := hknown.suffix hsuffix
    have hinserting := hroom.suffix hsuffix
    have hswapped : Inserting Job.HasRoom (second :: earlier) := inserting_cons.2
      ⟨fun _ hcall => hinserting.latest hcall, hinserting.earlier.earlier⟩
    exact ⟨hapart.run_eq hswapped hboth.swap, hapart.symm.run_eq hinserting.earlier hboth,
      hapart.perm_rows hinserting hboth⟩

/-- Jobs enter two queues at one time, and a worker claims from the first. -/
theorem queues_isolated_of_two :
    let job (queue : QueueName) (id : JobId) := Request.toJob (.create queue "t" []) id 0 3
    let claim : Operation := ⟨.claimNext "q" "w", 5⟩
    let entered : List Operation := [⟨.insert (job "p" "b"), 0⟩, ⟨.insert (job "q" "a"), 0⟩]
    let history := claim :: entered
    Inserting Job.InRange history ∧ (insertedIds history).Nodup ∧
      restrict (insertedJobs history) "q" history = [claim, ⟨.insert (job "q" "a"), 0⟩] ∧
      (after true [claim, ⟨.insert (job "q" "a"), 0⟩]).rows =
        (after true history).rows.filter (fun row => row.queue == "q") ∧
      ((after true [⟨.insert (job "q" "a"), 0⟩]).claimNext "q" "w" 5).1 =
        ((after true entered).claimNext "q" "w" 5).1 ∧
      (after true [⟨.insert (job "q" "a"), 0⟩, ⟨.insert (job "p" "b"), 0⟩]).rows.Perm
        (after true entered).rows := by
  intro job claim entered history
  have htime : Timestamp.InRange 0 := by decide
  have hrange : ∀ queue id, (job queue id).InRange := fun queue id =>
    ⟨show FitsInt32 0 by decide, show FitsInt32 3 by decide, htime, fun _ h => (nomatch h), htime,
      htime⟩
  have hjobs : Inserting Job.InRange history := by
    intro op hop other hcall
    simp only [history, entered, List.mem_cons, List.not_mem_nil, or_false] at hop
    rcases hop with rfl | rfl | rfl
    · cases hcall
    · exact Call.insert.inj hcall ▸ hrange "p" "b"
    · exact Call.insert.inj hcall ▸ hrange "q" "a"
  have hids : (insertedIds history).Nodup := by decide
  obtain ⟨hrows, hanswers, hswap⟩ := queues_isolated true history hjobs hids
  refine ⟨hjobs, hids, rfl, (hrows "q" history List.suffix_rfl).1,
    hanswers "q" claim entered List.suffix_rfl rfl rfl, ?_⟩
  exact (hswap ⟨.insert (job "q" "a"), 0⟩ ⟨.insert (job "p" "b"), 0⟩ []
    (List.suffix_cons claim entered) ⟨"q", "p", rfl, rfl, by decide⟩).2.2

end Sql.Store

end JobQueue

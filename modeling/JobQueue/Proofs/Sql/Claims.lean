import JobQueue.Proofs.Sql.Fencing
import Mathlib.Data.List.Nodup

/-! # Claims are exclusive and in order

A claim gives the worker the due job of the queue that has the least key (`IsNext`) and changes the
row of this job only; when no job is due nothing changes. So workers that claim one after the other
at one time are given the due jobs in their order, each once, and then nothing (`claims_eq`), in
whatever order the workers come.

Over a history, a job that was claimed is not pending until an operation has put it back
(`PutsBack`), that is, until a failed attempt that was not the last or a recovery
(`putsBack_or_not_pending`); so between two claims of a job there is such an operation. Ids are not
to be used twice: a pruned id could else return with another job.

* `claimNext_answer`: the answer to one claim, and the rows after it.
* `claims_exclusive`: **all of this after every history.** -/

namespace JobQueue

open MemoryStore

/-- The job waits in the queue and its time has come. -/
def Job.IsDue (queue : QueueName) (now : Int) (job : Job) : Prop :=
  job.queue = queue ∧ job.status = .pending ∧ job.scheduledAt ≤ now

/-- **The next job of the queue**: it is due, and all other due jobs come later. -/
structure IsNext (jobs : List Job) (queue : QueueName) (now : Int) (job : Job) : Prop where
  mem : job ∈ jobs
  due : job.IsDue queue now
  first : ∀ other ∈ jobs, other.IsDue queue now → other.id ≠ job.id → job.key < other.key

theorem key_lt_of_le {a b : Job} (hle : a.key ≤ b.key) (hid : a.id ≠ b.id) : a.key < b.key :=
  lt_of_le_of_ne hle fun hkey => hid (Job.id_eq_of_key_eq hkey)

theorem isNext_of_isFirst {jobs : List Job} {queue : QueueName} {now : Int} {job : Job}
    (h : IsFirst (claimable queue now jobs) job) : IsNext jobs queue now job := by
  obtain ⟨hmem, hdue⟩ := mem_claimable.1 h.mem
  refine ⟨hmem, hdue, fun other hother hotherDue hid => ?_⟩
  exact key_lt_of_le (h.least other (mem_claimable.2 ⟨hother, hotherDue⟩)) hid.symm

theorem exists_ordered {jobs : List Job} (hdistinct : (jobs.map Job.id).Nodup) :
    ∃ ordered : List Job, (∀ job, job ∈ ordered ↔ job ∈ jobs) ∧
      ordered.Pairwise fun a b => a.key < b.key := by
  let le : Job → Job → Bool := fun a b => decide (a.key ≤ b.key)
  have hperm : (jobs.mergeSort le).Perm jobs := List.mergeSort_perm jobs le
  have hordered : (jobs.mergeSort le).Pairwise fun a b => le a b = true :=
    List.pairwise_mergeSort
      (fun a b c hab hbc =>
        decide_eq_true ((of_decide_eq_true hab).trans (of_decide_eq_true hbc)))
      (fun a b => by
        rw [Bool.or_eq_true, decide_eq_true_eq, decide_eq_true_eq]
        exact le_total a.key b.key) jobs
  have hids : (jobs.mergeSort le).Pairwise fun a b => a.id ≠ b.id :=
    List.pairwise_map.1 ((hperm.map Job.id).nodup_iff.2 hdistinct)
  refine ⟨jobs.mergeSort le, fun job => hperm.mem_iff, ?_⟩
  exact (hordered.and hids).imp fun h => key_lt_of_le (of_decide_eq_true h.1) h.2

namespace Sql.Store

variable {store : Store} {jobs : List Job} {queue : QueueName} {now : Int}

/-! ### One claim -/

/-- What a worker is answered that claims the job. -/
def handover (job : Job) (worker : WorkerId) (now : Int) : Except JobError (Option Job) :=
  (Row.ofJob (claimed job worker now)).reading.map some

theorem handover_ne_none (job : Job) (worker : WorkerId) (now : Int) :
    handover job worker now ≠ .ok none := by
  unfold handover
  cases (Row.ofJob (claimed job worker now)).reading <;> exact nofun

/-- **When a due job can be handed over.** -/
theorem handover_of_consistent {job : Job} (h : job.Consistent) (hdue : job.IsDue queue now)
    (worker : WorkerId) :
    ((handover job worker now).isOk = true ↔ job.payload.Legible) ∧
      (handover job worker now = .ok (some (claimed job worker now)) ↔ job.payload.ReadsBack) := by
  obtain ⟨hqueue, hstatus, htime⟩ := hdue
  have hmove : job.Move now (.claimNext queue worker) (claimed job worker now) :=
    .claim hqueue hstatus htime
  have hclaimed := hmove.consistent h
  have hok : (Row.ofJob (claimed job worker now)).reading.isOk = true ↔ job.payload.Legible :=
    hclaimed.isOk_reading.trans (hclaimed.legible_iff nofun)
  have hself : (Row.ofJob (claimed job worker now)).reading = .ok (claimed job worker now) ↔
      job.payload.ReadsBack := hclaimed.reading.trans (hclaimed.readsBack_iff nofun)
  unfold handover
  rw [← hok, ← hself]
  cases (Row.ofJob (claimed job worker now)).reading with
  | error cause => exact ⟨Iff.rfl, iff_of_false nofun nofun⟩
  | ok job' =>
    refine ⟨Iff.rfl, ⟨fun h => ?_, fun h => congrArg (Except.map some) h⟩⟩
    rw [Option.some.inj (Except.ok.inj h)]

theorem reading_claimed {job read : Job} (hjob : job.Consistent)
    (hread : (Row.ofJob job).reading = .ok read) (worker : WorkerId) (now : Int) :
    (Row.ofJob (claimed job worker now)).reading = .ok (claimed read worker now) := by
  have hattempts := hjob.fitsInt32_attempts
  have hmax := hjob.fitsInt32_maxAttempts
  obtain ⟨payload, result, hpayload, hresult, rfl⟩ :=
    (Row.reading_eq_ok_iff hattempts hmax).1 hread
  have hclaimed : (Row.ofJob (claimed job worker now)).reading =
      .ok (claimed { job with payload := payload, result := result } worker now) ↔ _ :=
    Row.reading_eq_ok_iff hattempts hmax
  exact hclaimed.2 ⟨payload, result, hpayload, hresult, rfl⟩

/-- **Every worker that claims the job is given it** as its row is read, and as it is if there are no
floating-point numbers in its payload. -/
def HandedOver (job : Job) (now : Int) : Prop :=
  ∃ read, (Row.ofJob job).reading = .ok read ∧ (job.payload.Moderate → read = job) ∧
    ∀ worker, handover job worker now = .ok (some (claimed read worker now))

theorem handedOver_of_trusted {job : Job} (h : job.Consistent)
    (hlive : job.status.isTerminal = false) (htrusted : job.payload.Trusted)
    (hshallow : job.payload.Shallow) (now : Int) : HandedOver job now := by
  have hstatus : job.status ≠ .completed := fun hcompleted => by
    rw [hcompleted] at hlive
    cases hlive
  obtain ⟨read, hread, hsame⟩ := h.exists_reading_of_trusted hstatus htrusted hshallow
  refine ⟨read, hread, hsame, fun worker => ?_⟩
  unfold handover
  rw [reading_claimed h hread]
  rfl

/-- **The answer to a claim**, and the rows after it. -/
theorem claimNext_answer (h : store.Holds jobs) (queue : QueueName) (worker : WorkerId)
    (now : Int) :
    let answer := store.claimNext queue worker now
    (answer.1 = .ok none ↔ ∀ job ∈ jobs, ¬ job.IsDue queue now) ∧
      (answer.1 = .ok none → answer.2.connection = store.connection) ∧
      (answer.1 ≠ .ok none → ∃ job, IsNext jobs queue now job ∧
        answer.1 = handover job worker now ∧ answer.2.rows = jobs.map fun other =>
          Row.ofJob (if other.id = job.id then claimed other worker now else other)) := by
  intro answer
  have hclaim : Claim store jobs queue worker now answer := h.claimNext queue worker now
  generalize answer = answer at hclaim ⊢
  cases hclaim with
  | nothing hnone _ hconnection =>
    refine ⟨iff_of_true rfl fun job hjob hdue => ?_, fun _ => hconnection,
      fun hne => absurd rfl hne⟩
    have hmem := mem_claimable.2 ⟨hjob, hdue⟩
    rw [hnone] at hmem
    exact absurd hmem List.not_mem_nil
  | @taken job _ hfirst hholds =>
    have hanswer := handover_ne_none job worker now
    have hnext := isNext_of_isFirst hfirst
    refine ⟨iff_of_false hanswer fun hnone => hnone job hnext.mem hnext.due,
      fun hnone => absurd hnone hanswer, fun _ => ⟨job, hnext, rfl, ?_⟩⟩
    rw [hholds.rows, Call.effect_claimNext h.distinct hfirst, List.map_map]
    rfl

/-! ### Many claims at one time -/

/-- The answers to the workers that claim one after the other at one time. -/
def claims (queue : QueueName) (now : Int) :
    List WorkerId → Store → List (Except JobError (Option Job))
  | [], _ => []
  | worker :: rest, store =>
    let answer := store.claimNext queue worker now
    answer.1 :: claims queue now rest answer.2

theorem mem_claimable_effect {job : Job} (hdistinct : (jobs.map Job.id).Nodup)
    (hfirst : IsFirst (claimable queue now jobs) job) (worker : WorkerId) (other : Job) :
    other ∈ claimable queue now ((Call.claimNext queue worker).effect now jobs) ↔
      other ∈ claimable queue now jobs ∧ other.id ≠ job.id := by
  have hmem : other ∈ (Call.claimNext queue worker).effect now jobs ↔
      find? other.id ((Call.claimNext queue worker).effect now jobs) = some other := by
    rw [Call.find?_eq_some_iff (Call.distinct_effect _ now hdistinct)]
    exact (and_iff_left rfl).symm
  rw [mem_claimable, mem_claimable, hmem, Call.find?_claimNext hdistinct hfirst]
  by_cases hid : job.id = other.id
  · rw [if_pos hid]
    refine iff_of_false ?_ fun hother => hother.2 hid.symm
    rintro ⟨hclaimed, -, hstatus, -⟩
    rw [← Option.some.inj hclaimed] at hstatus
    cases hstatus
  · rw [if_neg hid, Call.find?_eq_some_iff hdistinct]
    exact ⟨fun h => ⟨⟨h.1.1, h.2⟩, fun h => hid h.symm⟩, fun h => ⟨⟨h.1.1, rfl⟩, h.1.2⟩⟩

section Ordered

variable {due : List Job} {first : Job}

theorem eq_of_isFirst {job : Job}
    (hdue : ∀ other, other ∈ first :: due ↔ other ∈ claimable queue now jobs)
    (hbefore : ∀ other ∈ due, first.key < other.key)
    (hfirst : IsFirst (claimable queue now jobs) job) : first = job := by
  rcases List.mem_cons.1 ((hdue job).2 hfirst.mem) with hjob | hjob
  · exact hjob.symm
  · have hle := hfirst.least first ((hdue first).1 List.mem_cons_self)
    exact absurd hle (hbefore job hjob).not_ge

theorem mem_claimable_tail (hdistinct : (jobs.map Job.id).Nodup)
    (hdue : ∀ other, other ∈ first :: due ↔ other ∈ claimable queue now jobs)
    (hbefore : ∀ other ∈ due, first.key < other.key)
    (hfirst : IsFirst (claimable queue now jobs) first) (worker : WorkerId) (other : Job) :
    other ∈ due ↔
      other ∈ claimable queue now ((Call.claimNext queue worker).effect now jobs) := by
  rw [mem_claimable_effect hdistinct hfirst, ← hdue, List.mem_cons]
  refine ⟨fun hother => ⟨.inr hother, fun hid => ?_⟩, ?_⟩
  · -- A job with the id of the one in front is this one, and would come before itself.
    have hotherDue := (hdue other).1 (List.mem_cons_of_mem first hother)
    have hsame := eq_of_id_eq (distinct_claimable queue now hdistinct) hotherDue hfirst.mem hid
    rw [hsame] at hother
    exact lt_irrefl _ (hbefore first hother)
  · rintro ⟨rfl | hother, hid⟩
    · exact absurd rfl hid
    · exact hother

end Ordered

/-- **Workers are given the due jobs in their order, each once, and then nothing.** The induction
is on the workers: the first of them is given the first due job, and the others find the rest. -/
theorem claims_eq : ∀ (workers : List WorkerId) {store : Store} {jobs due : List Job},
    store.Holds jobs → (∀ job, job ∈ due ↔ job ∈ claimable queue now jobs) →
      due.Pairwise (fun a b => a.key < b.key) →
      claims queue now workers store =
        List.zipWith (fun job worker => handover job worker now) due workers ++
          List.replicate (workers.length - due.length) (.ok none)
  | [], _, _, due, _, _, _ => by
    rw [List.zipWith_nil_right, List.length_nil, Nat.zero_sub]
    rfl
  | worker :: rest, store, jobs, due, h, hdue, hordered => by
    have hclaim := h.claimNext queue worker now
    show (store.claimNext queue worker now).1 ::
      claims queue now rest (store.claimNext queue worker now).2 = _
    generalize store.claimNext queue worker now = answer at hclaim ⊢
    cases hclaim with
    | nothing hnone hholds _ =>
      obtain rfl : due = [] := by
        refine List.eq_nil_iff_forall_not_mem.2 fun job hjob => ?_
        rw [hdue, hnone] at hjob
        exact List.not_mem_nil hjob
      rw [claims_eq rest hholds hdue hordered]
      rfl
    | @taken job _ hfirst hholds =>
      cases due with
      | nil => exact absurd ((hdue job).2 hfirst.mem) List.not_mem_nil
      | cons first others =>
        obtain ⟨hbefore, hothers⟩ := List.pairwise_cons.1 hordered
        obtain rfl : first = job := eq_of_isFirst hdue hbefore hfirst
        have hrest := mem_claimable_tail h.distinct hdue hbefore hfirst worker
        rw [claims_eq rest hholds hrest hothers, List.zipWith_cons_cons, List.length_cons,
          List.length_cons, Nat.add_sub_add_right]
        rfl

/-! ### Claims of one job -/

/-- The ids of the jobs that the operations insert. -/
def insertedIds (history : List Operation) : List JobId :=
  history.filterMap fun op => match op.call with
    | .insert job => some job.id
    | _ => none

/-- The operation is a claim that changes the row of the id. -/
def Takes (inFile : Bool) (id : JobId) (op : Operation) (earlier : List Operation) : Prop :=
  (∃ queue worker, op.call = .claimNext queue worker) ∧
    (after inFile (op :: earlier)).row? id ≠ (after inFile earlier).row? id

/-- **The operation puts the job of the id back**: it ran and is pending again, by the report of a
failure or a recovery. -/
structure PutsBack (inFile : Bool) (id : JobId) (op : Operation) (earlier : List Operation) :
    Prop where
  call : (∃ worker error delay, op.call = .fail id worker error delay) ∨
    ∃ threshold, op.call = .recoverStale threshold
  before : ∃ row, (after inFile earlier).row? id = some row ∧ row.status = Status.running.name
  after : ∃ row, (after inFile (op :: earlier)).row? id = some row ∧
    row.status = Status.pending.name

variable {inFile : Bool} {id : JobId}

theorem insertedIds_insert (job : Job) (now : Int) (earlier : List Operation) :
    insertedIds (⟨.insert job, now⟩ :: earlier) = job.id :: insertedIds earlier := rfl

theorem mem_insertedIds {history : List Operation} {op : Operation} {job : Job}
    (hop : op ∈ history) (hcall : op.call = .insert job) : job.id ∈ insertedIds history :=
  List.mem_filterMap.2 ⟨op, hop, by rw [hcall]⟩

theorem id_mem_insertedIds (history : List Operation) :
    ∀ job ∈ jobsAfter history, job.id ∈ insertedIds history :=
  forall_mem_jobsAfter (Q := fun job => job.id ∈ insertedIds history)
    (fun _ hmem _ => hmem) (fun _ _ _ _ hmove hmem => by rw [hmove.same.id]; exact hmem) history
    fun _ hop _ hcall => mem_insertedIds hop hcall

theorem find?_of_takes {op : Operation} {earlier : List Operation}
    (h : Inserting Job.HasRoom (op :: earlier)) (htakes : Takes inFile id op earlier) :
    (∃ job, find? id (jobsAfter earlier) = some job ∧ job.status = .pending) ∧
      ∃ job, find? id (jobsAfter (op :: earlier)) = some job ∧ job.status = .running := by
  obtain ⟨⟨queue, worker, hcall⟩, hrow⟩ := htakes
  rcases change_of_operation inFile h id with ⟨hsame, -⟩ | ⟨-, hchange⟩
  · exact absurd hsame hrow
  · rw [hcall] at hchange
    generalize find? id (jobsAfter earlier) = before at hchange ⊢
    generalize find? id (jobsAfter (op :: earlier)) = next at hchange ⊢
    cases hchange with
    | move hmove =>
      cases hmove with
      | claim _ hstatus _ => exact ⟨⟨_, rfl, hstatus⟩, _, rfl, rfl⟩

theorem putsBack_of_pending {op : Operation} {earlier : List Operation}
    (h : Inserting Job.HasRoom (op :: earlier))
    (hbefore : ∀ job, find? id (jobsAfter earlier) = some job → job.status ≠ .pending) {job : Job}
    (hjob : find? id (jobsAfter (op :: earlier)) = some job) (hstatus : job.status = .pending) :
    PutsBack inFile id op earlier ∨ op.call = .insert job := by
  rcases change_of_operation inFile h id with ⟨-, hsame⟩ | ⟨-, hchange⟩
  · exact absurd hstatus (hbefore job (hsame.symm.trans hjob))
  · have hnext : ∃ row, (after inFile (op :: earlier)).row? id = some row ∧
        row.status = Status.pending.name := by
      refine ⟨Row.ofJob job, ?_, congrArg Status.name hstatus⟩
      rw [row?_after inFile h, hjob]
      rfl
    have hran : ∀ old : Job, find? id (jobsAfter earlier) = some old → old.status = .running →
        ∃ row, (after inFile earlier).row? id = some row ∧ row.status = Status.running.name := by
      intro old hold hrunning
      refine ⟨Row.ofJob old, ?_, congrArg Status.name hrunning⟩
      rw [row?_after inFile h.earlier, hold]
      rfl
    rw [hjob] at hchange
    generalize hold : find? id (jobsAfter earlier) = before at hchange
    generalize hcall : op.call = call at hchange ⊢
    cases hchange with
    | enter => exact .inr rfl
    | @move _ old _ hmove =>
      cases hmove with
      | retry hid hrunning _ _ =>
        have holdId : old.id = id :=
          ((Call.find?_eq_some_iff (distinct_jobsAfter earlier)).1 hold).2
        rw [← hid, holdId] at hcall
        exact .inl ⟨.inl ⟨_, _, _, hcall⟩, hran old hold hrunning, hnext⟩
      | recover _ hrunning _ _ =>
        exact .inl ⟨.inr ⟨_, hcall⟩, hran old hold hrunning, hnext⟩
      | _ => cases hstatus

/-- **A claimed job is put back before it is pending again.** The induction is on the operations
after the claim. -/
theorem putsBack_or_not_pending {first : Operation} {earlier : List Operation}
    (htakes : Takes inFile id first earlier) : ∀ middle : List Operation,
      Inserting Job.HasRoom (middle ++ first :: earlier) →
      (insertedIds (middle ++ first :: earlier)).Nodup →
      (∃ later op before, middle = later ++ op :: before ∧
        PutsBack inFile id op (before ++ first :: earlier)) ∨
      ∀ job, find? id (jobsAfter (middle ++ first :: earlier)) = some job → job.status ≠ .pending
  | [], h, _ => by
    obtain ⟨-, job, hfind, hstatus⟩ := find?_of_takes h htakes
    refine .inr fun job' hfind' => ?_
    obtain rfl := Option.some.inj (hfind.symm.trans hfind')
    rw [hstatus]
    exact nofun
  | op :: middle, h, hids => by
    have hidsEarlier : (insertedIds (middle ++ first :: earlier)).Nodup :=
      hids.sublist ((List.sublist_cons_self op _).filterMap _)
    rcases putsBack_or_not_pending htakes middle h.earlier hidsEarlier with
      ⟨later, op', before, rfl, hback⟩ | hbefore
    · exact .inl ⟨op :: later, op', before, rfl, hback⟩
    · by_cases hback : PutsBack inFile id op (middle ++ first :: earlier)
      · exact .inl ⟨[], op, middle, rfl, hback⟩
      · refine .inr fun job hjob hstatus => ?_
        -- Only a new job could be pending, but its id was used before.
        have hcall : op.call = .insert job :=
          (putsBack_of_pending h hbefore hjob hstatus).resolve_left hback
        have hid : job.id = id := ((Call.find?_eq_some_iff (distinct_jobsAfter _)).1 hjob).2
        obtain ⟨⟨old, hold, -⟩, -⟩ :=
          find?_of_takes (h.earlier.suffix (List.suffix_append middle _)) htakes
        obtain ⟨hmem, holdId⟩ := (Call.find?_eq_some_iff (distinct_jobsAfter earlier)).1 hold
        have hused : job.id ∈ insertedIds (middle ++ first :: earlier) := by
          rw [hid, ← holdId]
          have hsub : earlier.Sublist (middle ++ first :: earlier) :=
            (List.sublist_cons_self first earlier).trans (List.sublist_append_right middle _)
          exact (hsub.filterMap _).subset (id_mem_insertedIds earlier old hmem)
        obtain ⟨call, now⟩ := op
        obtain rfl : call = .insert job := hcall
        rw [List.cons_append, insertedIds_insert] at hids
        exact (List.nodup_cons.1 hids).1 hused

/-- **Between two claims of a job it is put back.** -/
theorem exists_putsBack {first second : Operation} {middle earlier : List Operation}
    (h : Inserting Job.HasRoom (second :: (middle ++ first :: earlier)))
    (hids : (insertedIds (second :: (middle ++ first :: earlier))).Nodup)
    (hfirst : Takes inFile id first earlier)
    (hsecond : Takes inFile id second (middle ++ first :: earlier)) :
    ∃ later op before, middle = later ++ op :: before ∧
      PutsBack inFile id op (before ++ first :: earlier) := by
  have hidsEarlier := hids.sublist ((List.sublist_cons_self second _).filterMap _)
  rcases putsBack_or_not_pending hfirst middle h.earlier hidsEarlier with hback | hnot
  · exact hback
  · obtain ⟨⟨job, hfind, hstatus⟩, -⟩ := find?_of_takes h hsecond
    exact absurd hstatus (hnot job hfind)

/-- **A claim that gives a job takes it.** -/
theorem takes_of_givenTo {worker : WorkerId} {op : Operation} {earlier : List Operation}
    (hbuilt : Inserting Job.Built (op :: earlier))
    (hgiven : GivenTo worker id op (after inFile earlier)) : Takes inFile id op earlier := by
  obtain ⟨call, now⟩ := op
  obtain ⟨queue, job, hcall, hanswer, hid⟩ := hgiven
  obtain rfl : call = .claimNext queue worker := hcall
  refine ⟨⟨queue, worker, rfl⟩, ?_⟩
  have h := holds_after inFile earlier (hbuilt.earlier.mono fun _ hjob => hjob.hasRoom)
  have hclaim := h.claimNext queue worker now
  show ((after inFile earlier).claimNext queue worker now).2.row? id ≠ _
  dsimp only at hanswer
  generalize (after inFile earlier).claimNext queue worker now = answer at hanswer hclaim ⊢
  cases hclaim with
  | nothing => cases hanswer
  | @taken first _ hfirst hholds =>
    obtain ⟨hmem, -⟩ := mem_claimable.1 hfirst.mem
    have hmove := Call.move_of_isFirst hfirst worker
    have hclaimed := hmove.consistent (consistent_of_mem_jobsAfter hbuilt.earlier first hmem)
    cases hread : (Row.ofJob (claimed first worker now)).reading with
    | error cause =>
      rw [hread] at hanswer
      cases hanswer
    | ok job' =>
      rw [hread] at hanswer
      obtain rfl : job' = job := Option.some.inj (Except.ok.inj hanswer)
      have hfirstId : first.id = id := (hclaimed.id_of_reading hread).symm.trans hid
      rw [hholds.row?, h.row?, Call.find?_claimNext h.distinct hfirst, if_pos hfirstId,
        (Call.find?_eq_some_iff h.distinct).2 ⟨hmem, hfirstId⟩]
      exact map_ofJob_ne_of_change (.move hmove)

/-- **A claim that takes a job gives it**, when the payloads are read. -/
theorem exists_givenTo {op : Operation} {earlier : List Operation}
    (hbuilt : Inserting Job.Built (op :: earlier))
    (hlegible : Inserting (fun job => job.payload.Legible) (op :: earlier))
    (htakes : Takes inFile id op earlier) :
    ∃ worker, GivenTo worker id op (after inFile earlier) := by
  obtain ⟨call, now⟩ := op
  obtain ⟨⟨queue, worker, rfl⟩, hrow⟩ := htakes
  have h := holds_after inFile earlier (hbuilt.earlier.mono fun _ hjob => hjob.hasRoom)
  obtain ⟨job, hanswer, hid⟩ := givenTo_of_row?_ne h (consistent_of_mem_jobsAfter hbuilt.earlier)
    (payload_of_mem_jobsAfter hlegible.earlier) hrow
  exact ⟨worker, queue, job, rfl, hanswer, hid⟩

theorem lastChange_unique {worker worker' : WorkerId} {history : List Operation}
    (h : LastChange inFile id (ClaimedBy worker) history)
    (h' : LastChange inFile id (ClaimedBy worker') history) : worker = worker' := by
  induction h with
  | latest hrow hclaim =>
    obtain ⟨queue, hcall⟩ := hclaim
    obtain ⟨queue', hcall'⟩ := (lastChange_of_ne hrow).1 h'
    exact (Call.claimNext.inj (hcall.symm.trans hcall')).2
  | earlier hrow _ ih => exact ih ((lastChange_of_eq hrow).1 h')

/-- **Claims after a history** of any calls, when jobs enter as they are built for requests and no
id is used twice. The rows are those of some jobs with different ids, and for every queue and time:

* a claim is answered with nothing just if no job is due, and then nothing changes; else the next
  job is handed over, its row is claimed, and no other row changes;
* the job that is handed over is the claimed one just if its payload is read back from its text, as
  every plain object is;
* workers that claim one after the other are handed the due jobs in their order, each once, and
  then nothing;
* a claim that gives a job takes it, between two claims that take it the job is put back, and one
  worker at most holds it.

When the reader does its part for the objects that come with the calls, and payloads are not too
deep for it, every worker is given the job that is handed over, and a claim that takes a job gives
it. -/
theorem claims_exclusive (inFile : Bool) (history : List Operation)
    (hbuilt : Inserting Job.Built history) (hids : (insertedIds history).Nodup)
    (queue : QueueName) (now : Int) :
    let store := after inFile history
    ∃ jobs, store.rows = jobs.map Row.ofJob ∧ (jobs.map Job.id).Nodup ∧
      (∀ worker, let answer := store.claimNext queue worker now
        (answer.1 = .ok none ↔ ∀ job ∈ jobs, ¬ job.IsDue queue now) ∧
        (answer.1 = .ok none → answer.2.connection = store.connection) ∧
        (answer.1 ≠ .ok none → ∃ job, IsNext jobs queue now job ∧
          answer.1 = handover job worker now ∧ answer.2.rows = jobs.map fun other =>
            Row.ofJob (if other.id = job.id then claimed other worker now else other))) ∧
      (∀ job ∈ jobs, job.IsDue queue now → ∀ worker,
        ((handover job worker now).isOk = true ↔ job.payload.Legible) ∧
        (handover job worker now = .ok (some (claimed job worker now)) ↔
          job.payload.ReadsBack) ∧
        (job.payload.Plain → handover job worker now = .ok (some (claimed job worker now)))) ∧
      (∃ due : List Job, (∀ job, job ∈ due ↔ job ∈ jobs ∧ job.IsDue queue now) ∧
        due.Pairwise (fun a b => a.key < b.key) ∧
        ∀ workers, claims queue now workers store =
          List.zipWith (fun job worker => handover job worker now) due workers ++
            List.replicate (workers.length - due.length) (.ok none)) ∧
      (∀ op earlier id worker, op :: earlier <:+ history →
        GivenTo worker id op (after inFile earlier) → Takes inFile id op earlier) ∧
      (∀ second middle first earlier id, second :: (middle ++ first :: earlier) <:+ history →
        Takes inFile id first earlier → Takes inFile id second (middle ++ first :: earlier) →
        ∃ later op before, middle = later ++ op :: before ∧
          PutsBack inFile id op (before ++ first :: earlier)) ∧
      (∀ id worker worker', LastChange inFile id (ClaimedBy worker) history →
        LastChange inFile id (ClaimedBy worker') history → worker = worker') ∧
      ((∀ op ∈ history, op.call.Trusted) → Inserting (fun job => job.payload.Shallow) history →
        (∀ job ∈ jobs, job.IsDue queue now → HandedOver job now) ∧
        ∀ op earlier id, op :: earlier <:+ history → Takes inFile id op earlier →
          ∃ worker, GivenTo worker id op (after inFile earlier)) := by
  intro store
  have hroom : Inserting Job.HasRoom history := hbuilt.mono fun _ hjob => hjob.hasRoom
  have h : store.Holds (jobsAfter history) := holds_after inFile history hroom
  have hconsistent := consistent_of_mem_jobsAfter hbuilt
  refine ⟨jobsAfter history, h.rows, h.distinct, fun worker => claimNext_answer h queue worker now,
    fun job hjob hdue worker => ?_, ?_,
    fun op earlier id worker hsuffix hgiven => takes_of_givenTo (hbuilt.suffix hsuffix) hgiven,
    fun second middle first earlier id hsuffix hfirst hsecond => ?_,
    fun id worker worker' hworker hworker' => lastChange_unique hworker hworker',
    fun htrusted hshallow => ⟨fun job hjob hdue => ?_, fun op earlier id hsuffix htakes => ?_⟩⟩
  · obtain ⟨hok, hself⟩ := handover_of_consistent (hconsistent job hjob) hdue worker
    exact ⟨hok, hself, fun hplain => hself.2 hplain.readsBack⟩
  · obtain ⟨due, hdue, hordered⟩ := exists_ordered (distinct_claimable queue now h.distinct)
    exact ⟨due, fun job => (hdue job).trans mem_claimable, hordered,
      fun workers => claims_eq workers h hdue hordered⟩
  · have hidsHere := hids.sublist (hsuffix.sublist.filterMap _)
    exact exists_putsBack (hroom.suffix hsuffix) hidsHere hfirst hsecond
  · have hpayload := payload_of_mem_jobsAfter (inserting_trusted htrusted) job hjob
    exact handedOver_of_trusted (hconsistent job hjob) (by rw [hdue.2.1]; rfl) hpayload
      (payload_of_mem_jobsAfter hshallow job hjob) now
  · have hlegible := inserting_legible htrusted hshallow
    exact exists_givenTo (hbuilt.suffix hsuffix) (hlegible.suffix hsuffix) htakes

/-- A failed attempt puts the job back before another worker claims it, and the other worker is given
the job. -/
theorem claims_exclusive_of_failure :
    let failure : Operation := ⟨.fail "a" "w" "late" ⟨0, by decide⟩, 7⟩
    let history := ⟨.claimNext "q" "v", 9⟩ :: failure :: oneClaim []
    Inserting Job.Built history ∧ (insertedIds history).Nodup ∧
      (∀ op ∈ history, op.call.Trusted) ∧ Inserting (fun job => job.payload.Shallow) history ∧
      Takes true "a" ⟨.claimNext "q" "v", 9⟩ (failure :: oneClaim []) ∧
      (∃ worker, GivenTo worker "a" ⟨.claimNext "q" "v", 9⟩
        (after true (failure :: oneClaim []))) ∧
      PutsBack true "a" failure (oneClaim []) := by
  intro failure history
  have hbuilt : Inserting Job.Built history := inserting_cons.2 ⟨fun _ hjob => (nomatch hjob),
    inserting_cons.2 ⟨fun _ hjob => (nomatch hjob), built_oneClaim []⟩⟩
  have hids : (insertedIds history).Nodup := by decide
  have hpayload : Fields.Plain [] := ⟨by decide, by decide, by decide, by decide⟩
  have htrusted : ∀ op ∈ history, op.call.Trusted := by
    intro op hop
    rcases List.mem_cons.1 hop with rfl | hop
    · exact fun _ hbrings => (nomatch hbrings)
    rcases List.mem_cons.1 hop with rfl | hop
    · exact fun _ hbrings => (nomatch hbrings)
    · exact brings_oneClaim hpayload.trusted op hop
  have hshallow : Inserting (fun job => job.payload.Shallow) history :=
    inserting_cons.2 ⟨fun _ hjob => (nomatch hjob), inserting_cons.2
      ⟨fun _ hjob => (nomatch hjob), inserting_oneClaim hpayload.shallow⟩⟩
  have hfirst : Takes true "a" ⟨.claimNext "q" "w", 5⟩ (oneJob []) :=
    ⟨⟨"q", "w", rfl⟩, by decide +kernel⟩
  have hsecond : Takes true "a" ⟨.claimNext "q" "v", 9⟩ (failure :: oneClaim []) :=
    ⟨⟨"q", "v", rfl⟩, by decide +kernel⟩
  obtain ⟨_, -, -, -, -, -, -, hbetween, -, htrust⟩ :=
    claims_exclusive true history hbuilt hids "q" 9
  obtain ⟨-, hgives⟩ := htrust htrusted hshallow
  obtain ⟨later, op, before, hmiddle, hback⟩ := hbetween ⟨.claimNext "q" "v", 9⟩ [failure]
    ⟨.claimNext "q" "w", 5⟩ (oneJob []) "a" (List.suffix_refl history) hfirst hsecond
  refine ⟨hbuilt, hids, htrusted, hshallow, hsecond,
    hgives _ _ _ (List.suffix_refl history) hsecond, ?_⟩
  -- There is one operation between the claims.
  cases later with
  | nil =>
    obtain ⟨rfl, rfl⟩ := List.cons.inj hmiddle
    exact hback
  | cons _ later =>
    have hrest : [] = later ++ op :: before := (List.cons.inj hmiddle).2
    exact absurd hrest.symm (List.append_ne_nil_of_right_ne_nil later (List.cons_ne_nil op before))

end Sql.Store

end JobQueue

import JobQueue.Proofs.Sql.History

/-! # Rows over time

A row enters the table once and then only moves forward: what it stands for never changes and its
attempts are not counted back (`Row.Kept`); once it has ended it stays as it is, until a removal
with a later cutoff finds it; and nothing else removes a row. This holds of every operation of every
history, whatever jobs are inserted.

* `Next`: what an operation may do to the row of an id; `next_of_operation`: it does no more.
* `ended_after`, `kept_after`: the same over many operations.
* `row?_ne_none_iff_survives`: the ids are those inserted and not removed since (`Survives`).
* `rows_over_time`: **all of this in every history.** -/

namespace JobQueue.Sql

open MemoryStore

namespace Row

/-- The row has come to an end. -/
def hasEnded (row : Row) : Bool :=
  row.status == Status.completed.name || row.status == Status.failed.name ||
    row.status == Status.cancelled.name

/-- **The row stands for the same job**, with no fewer attempts. -/
structure Kept (row row' : Row) : Prop where
  id : row'.id = row.id
  queue : row'.queue = row.queue
  jobType : row'.jobType = row.jobType
  payload : row'.payload = row.payload
  maxAttempts : row'.maxAttempts = row.maxAttempts
  createdAt : row'.createdAt = row.createdAt
  attempts : ∃ m n, row.attempts = .int m ∧ row'.attempts = .int n ∧ m ≤ n

theorem Kept.trans {a b c : Row} (hab : a.Kept b) (hbc : b.Kept c) : a.Kept c := by
  obtain ⟨m, n, hm, hn, hmn⟩ := hab.attempts
  obtain ⟨n', k, hn', hk, hnk⟩ := hbc.attempts
  obtain rfl := Value.int.inj (hn.symm.trans hn')
  exact ⟨hbc.id.trans hab.id, hbc.queue.trans hab.queue, hbc.jobType.trans hab.jobType,
    hbc.payload.trans hab.payload, hbc.maxAttempts.trans hab.maxAttempts,
    hbc.createdAt.trans hab.createdAt, m, k, hm, hk, hmn.trans hnk⟩

theorem kept_ofJob {job job' : Job} (hsame : job.Same job')
    (hattempts : job.attempts ≤ job'.attempts) : (ofJob job).Kept (ofJob job') := by
  obtain ⟨hid, hqueue, htype, hpayload, hmax, hcreated⟩ := hsame
  refine ⟨hid, hqueue, htype, ?_, ?_, ?_, job.attempts, job'.attempts, rfl, rfl, hattempts⟩
  · show (Json.obj job'.payload).text = (Json.obj job.payload).text
    rw [hpayload]
  · show Value.int job'.maxAttempts = .int job.maxAttempts
    rw [hmax]
  · show Value.int job'.createdAt = .int job.createdAt
    rw [hcreated]

theorem hasEnded_ofJob (job : Job) : (ofJob job).hasEnded = job.status.isTerminal := by
  show (job.status.name == _ || job.status.name == _ || job.status.name == _) = _
  rw [Status.name_beq, Status.name_beq, Status.name_beq]
  cases job.status <;> rfl

end Row

namespace Store

/-! ### One operation -/

/-- **What a call may do to the row of an id.** -/
inductive Next (call : Call) : Option Row → Option Row → Prop
  | same (row : Option Row) : Next call row row
  | enter {job : Job} (hcall : call = .insert job) : Next call none (some (.ofJob job))
  | move {row row' : Row} (hlive : row.hasEnded = false) (hkept : row.Kept row') :
      Next call (some row) (some row')
  | remove {row : Row} {cutoff : Int} (hcall : call = .deleteOlderThan cutoff)
      (hended : row.hasEnded = true) (hold : row.updatedAt.isBelow (.int cutoff) = true) :
      Next call (some row) none

theorem next_of_change {now : Int} {call : Call} {before after : Option Job}
    (h : Call.Change now call before after) :
    Next call (before.map Row.ofJob) (after.map Row.ofJob) := by
  cases h with
  | enter => exact .enter rfl
  | @move _ job job' hmove =>
    refine .move ?_ (Row.kept_ofJob hmove.same hmove.attempts_le)
    rw [Row.hasEnded_ofJob]
    exact hmove.live
  | @prune job cutoff hended hold =>
    refine .remove rfl ?_ ?_
    · rw [Row.hasEnded_ofJob]
      exact hended
    · show (Value.int job.updatedAt).isBelow (.int cutoff) = true
      rw [Value.isBelow_int]
      exact decide_eq_true hold

/-- **An operation does no more than it may.** -/
theorem next_of_operation (inFile : Bool) {op : Operation} {earlier : List Operation}
    (h : Inserting Job.HasRoom (op :: earlier)) (id : JobId) :
    Next op.call ((after inFile earlier).row? id) ((after inFile (op :: earlier)).row? id) := by
  rcases change_of_operation inFile h id with ⟨hrow, -⟩ | ⟨-, hchange⟩
  · rw [hrow]
    exact .same _
  · rw [row?_after inFile h, row?_after inFile h.earlier]
    exact next_of_change hchange

variable {inFile : Bool}

theorem kept_refl {history : List Operation} (h : Inserting Job.HasRoom history) {id : JobId}
    {row : Row} (hrow : (after inFile history).row? id = some row) : row.Kept row := by
  rw [row?_after inFile h] at hrow
  obtain ⟨job, -, rfl⟩ := Option.map_eq_some_iff.1 hrow
  exact Row.kept_ofJob (.refl job) le_rfl

theorem kept_of_operation {op : Operation} {earlier : List Operation}
    (h : Inserting Job.HasRoom (op :: earlier)) {id : JobId} {row row' : Row}
    (hrow : (after inFile earlier).row? id = some row)
    (hrow' : (after inFile (op :: earlier)).row? id = some row') : row.Kept row' := by
  have hnext := next_of_operation inFile h id
  rw [hrow, hrow'] at hnext
  cases hnext with
  | same => exact kept_refl h hrow'
  | move _ hkept => exact hkept

theorem row?_deleteOlderThan {cutoff now : Int} {earlier : List Operation}
    (h : Inserting Job.HasRoom earlier) (id : JobId) :
    (after inFile (⟨.deleteOlderThan cutoff, now⟩ :: earlier)).row? id =
      ((after inFile earlier).row? id).filter fun row => !row.isExpired cutoff := by
  have hlater : Inserting Job.HasRoom (⟨.deleteOlderThan cutoff, now⟩ :: earlier) :=
    inserting_cons.2 ⟨fun _ hjob => (nomatch hjob), h⟩
  rw [row?_after inFile hlater, row?_after inFile h]
  show (find? id ((jobsAfter earlier).filter fun job => !isExpired cutoff job)).map Row.ofJob = _
  rw [Call.find?_filter (distinct_jobsAfter earlier)]
  cases find? id (jobsAfter earlier) with
  | none => rfl
  | some job =>
    rw [Option.map_some, Option.filter_some, Option.filter_some, Row.isExpired_ofJob]
    split <;> rfl

/-! ### Many operations -/

/-- **An ended row stays as it is** while no removal has a later cutoff. -/
theorem ended_after {earlier : List Operation} {id : JobId} {row : Row}
    (hrow : (after inFile earlier).row? id = some row) (hended : row.hasEnded = true) :
    ∀ later : List Operation, Inserting Job.HasRoom (later ++ earlier) →
      (∀ op ∈ later, ∀ cutoff, op.call = .deleteOlderThan cutoff →
        row.updatedAt.isBelow (.int cutoff) = false) →
      (after inFile (later ++ earlier)).row? id = some row
  | [], _, _ => hrow
  | op :: later, h, hkept => by
    rw [List.cons_append] at h ⊢
    have hbefore := ended_after hrow hended later h.earlier
      fun op' hop' => hkept op' (List.mem_cons_of_mem op hop')
    have hnext := next_of_operation inFile h id
    rw [hbefore] at hnext
    generalize (after inFile (op :: (later ++ earlier))).row? id = found at hnext ⊢
    cases hnext with
    | same => rfl
    | move hlive _ =>
      rw [hended] at hlive
      cases hlive
    | @remove _ cutoff hcall _ hold =>
      rw [hkept op List.mem_cons_self cutoff hcall] at hold
      cases hold

/-- **A row stands for the same job** as long as it is there. -/
theorem kept_after {earlier : List Operation} {id : JobId} {row : Row}
    (hrow : (after inFile earlier).row? id = some row) :
    ∀ (later : List Operation) (row' : Row), Inserting Job.HasRoom (later ++ earlier) →
      (∀ middle, middle <:+ later → (after inFile (middle ++ earlier)).row? id ≠ none) →
      (after inFile (later ++ earlier)).row? id = some row' → row.Kept row'
  | [], row', h, _, hrow' => by
    obtain rfl := Option.some.inj (hrow.symm.trans hrow')
    exact kept_refl h hrow
  | op :: later, row', h, hthere, hrow' => by
    obtain ⟨between, hbetween⟩ :=
      Option.ne_none_iff_exists'.1 (hthere later (List.suffix_cons op later))
    have hkept := kept_after hrow later between h.earlier
      (fun middle hmiddle => hthere middle (hmiddle.trans (List.suffix_cons op later))) hbetween
    exact hkept.trans (kept_of_operation h hbetween hrow')

/-! ### Which ids are there -/

/-- The operation removes the row of the id. -/
def Removes (inFile : Bool) (id : JobId) (op : Operation) (earlier : List Operation) : Prop :=
  ∃ cutoff row, op.call = .deleteOlderThan cutoff ∧
    (after inFile earlier).row? id = some row ∧ row.isExpired cutoff = true

/-- **The id was inserted and not removed since.** -/
inductive Survives (inFile : Bool) (id : JobId) : List Operation → Prop
  | entered {op : Operation} {earlier : List Operation} {job : Job} (hcall : op.call = .insert job)
      (hid : job.id = id) (hok : ((after inFile earlier).insert job).1 = .ok ()) :
      Survives inFile id (op :: earlier)
  | kept {op : Operation} {earlier : List Operation} (hearlier : Survives inFile id earlier)
      (hkept : ¬ Removes inFile id op earlier) : Survives inFile id (op :: earlier)

theorem mem_ids_iff (store : Store) (id : JobId) :
    id ∈ store.rows.map Row.id ↔ store.row? id ≠ none := by
  unfold row?
  rw [Ne, List.find?_eq_none, List.mem_map]
  simp only [beq_iff_eq, not_forall, not_not, exists_prop]

theorem insert_ok_of_row?_ne {job : Job} {now : Int} {earlier : List Operation}
    (h : Inserting Job.HasRoom (⟨.insert job, now⟩ :: earlier)) {id : JobId}
    (hrow : (after inFile (⟨.insert job, now⟩ :: earlier)).row? id ≠
      (after inFile earlier).row? id) :
    ((after inFile earlier).insert job).1 = .ok () ∧ job.id = id := by
  rcases (holds_after inFile earlier h.earlier).insert now (h.latest rfl) with
    ⟨-, e, hinsert⟩ | ⟨hadmits, next, hinsert, hholds⟩
  · refine absurd ?_ hrow
    show ((after inFile earlier).insert job).2.row? id = _
    rw [hinsert]
  · refine ⟨by rw [hinsert], ?_⟩
    by_contra hid
    refine hrow ?_
    rw [row?_after inFile h, row?_after inFile h.earlier]
    show (find? id (if Call.admits (jobsAfter earlier) job then jobsAfter earlier ++ [job]
      else jobsAfter earlier)).map Row.ofJob = _
    rw [if_pos hadmits, Call.find?_insert hadmits, if_neg hid]

theorem row?_ne_none_of_insert_ok {job : Job} {now : Int} {earlier : List Operation}
    (h : Inserting Job.HasRoom (⟨.insert job, now⟩ :: earlier))
    (hok : ((after inFile earlier).insert job).1 = .ok ()) :
    (after inFile (⟨.insert job, now⟩ :: earlier)).row? job.id ≠ none := by
  rcases (holds_after inFile earlier h.earlier).insert now (h.latest rfl) with
    ⟨-, e, hinsert⟩ | ⟨hadmits, -⟩
  · rw [hinsert] at hok
    cases hok
  · rw [row?_after inFile h]
    show (find? job.id (if Call.admits (jobsAfter earlier) job then jobsAfter earlier ++ [job]
      else jobsAfter earlier)).map Row.ofJob ≠ none
    rw [if_pos hadmits, Call.find?_insert hadmits, if_pos rfl]
    exact nofun

/-- **An id that is there is not inserted again**, and nothing changes. -/
theorem insert_of_taken {job : Job} (hjob : job.HasRoom) {history : List Operation}
    (h : Inserting Job.HasRoom history) (htaken : (after inFile history).row? job.id ≠ none) :
    ∃ e, (after inFile history).insert job = (.error e, after inFile history) := by
  rcases (holds_after inFile history h).insert 0 hjob with ⟨-, hrefused⟩ | ⟨hadmits, -⟩
  · exact hrefused
  · rw [row?_after inFile h, (Call.admits_iff.1 hadmits).2] at htaken
    exact absurd rfl htaken

theorem survives_of_row?_ne {op : Operation} {earlier : List Operation}
    (h : Inserting Job.HasRoom (op :: earlier)) {id : JobId}
    (hbefore : (after inFile earlier).row? id ≠ none → Survives inFile id earlier)
    (hrow : (after inFile (op :: earlier)).row? id ≠ none) : Survives inFile id (op :: earlier) := by
  obtain ⟨call, now⟩ := op
  by_cases hremoves : Removes inFile id ⟨call, now⟩ earlier
  · obtain ⟨cutoff, row, hcall, hthere, hexpired⟩ := hremoves
    obtain rfl : call = .deleteOlderThan cutoff := hcall
    rw [row?_deleteOlderThan h.earlier, hthere, Option.filter_some, hexpired] at hrow
    exact absurd rfl hrow
  · by_cases hthere : (after inFile earlier).row? id = none
    · -- Where there was no row only an insertion makes one.
      have hchanged : (after inFile (⟨call, now⟩ :: earlier)).row? id ≠
          (after inFile earlier).row? id := by
        rw [hthere]
        exact hrow
      have hnext := next_of_operation inFile h id
      obtain ⟨row, hafter⟩ := Option.ne_none_iff_exists'.1 hrow
      rw [hthere, hafter] at hnext
      cases hnext with
      | enter hcall =>
        obtain rfl : call = .insert _ := hcall
        obtain ⟨hok, hid⟩ := insert_ok_of_row?_ne h hchanged
        exact .entered rfl hid hok
    · exact .kept (hbefore hthere) hremoves

theorem row?_ne_none_of_kept {op : Operation} {earlier : List Operation}
    (h : Inserting Job.HasRoom (op :: earlier)) {id : JobId}
    (hthere : (after inFile earlier).row? id ≠ none) (hkept : ¬ Removes inFile id op earlier) :
    (after inFile (op :: earlier)).row? id ≠ none := by
  intro hnone
  have hnext := next_of_operation inFile h id
  obtain ⟨row, hbefore⟩ := Option.ne_none_iff_exists'.1 hthere
  rw [hbefore, hnone] at hnext
  cases hnext with
  | @remove _ cutoff hcall hended hold =>
    refine hkept ⟨cutoff, row, hcall, hbefore, ?_⟩
    show (row.hasEnded && row.updatedAt.isBelow (.int cutoff)) = true
    rw [hended, hold]
    rfl

/-- **The ids in the table are those that survive.** The induction is on the history: an operation
that leaves a row leaves its id, and one that makes or takes away a row is an insertion or a
removal. -/
theorem row?_ne_none_iff_survives (id : JobId) : ∀ history : List Operation,
    Inserting Job.HasRoom history →
      ((after inFile history).row? id ≠ none ↔ Survives inFile id history)
  | [], _ => by
    refine iff_of_false (fun hrow => hrow ?_) (fun h => nomatch h)
    unfold row?
    rw [show (after inFile []).rows = [] from rows_fresh inFile]
    rfl
  | ⟨call, now⟩ :: earlier, h => by
    have ih := row?_ne_none_iff_survives id earlier h.earlier
    refine ⟨survives_of_row?_ne h ih.1, ?_⟩
    rintro (⟨hcall, rfl, hok⟩ | ⟨hearlier, hkept⟩)
    · obtain rfl : call = .insert _ := hcall
      exact row?_ne_none_of_insert_ok h hok
    · exact row?_ne_none_of_kept h (ih.2 hearlier) hkept

/-- **Rows over time**: in every history, whatever jobs are inserted, at every operation and for
every id:

* an ended row stays as it is, or it is removed for a cutoff after its last change, and over many
  operations it stays as long as there was no such removal;
* a row that has not ended is not removed;
* a row stands for the same job, with no fewer attempts, for one operation and as long as it is
  there;
* an id that is there is not inserted again, and nothing changes;
* the ids in the table are different, and are those inserted with success and not removed since. -/
theorem rows_over_time (inFile : Bool) (history : List Operation)
    (hjobs : Inserting Job.InRange history) (id : JobId) :
    (∀ op earlier, op :: earlier <:+ history →
      let before := after inFile earlier
      let next := after inFile (op :: earlier)
      (∀ row, before.row? id = some row → row.hasEnded = true → next.row? id = some row ∨
        next.row? id = none ∧ ∃ cutoff, op.call = .deleteOlderThan cutoff ∧
          row.updatedAt.isBelow (.int cutoff) = true) ∧
      (∀ row, before.row? id = some row → row.hasEnded = false → next.row? id ≠ none) ∧
      (∀ row row', before.row? id = some row → next.row? id = some row' → row.Kept row') ∧
      (∀ job, op.call = .insert job → before.row? job.id ≠ none →
        ∃ e, before.insert job = (.error e, before))) ∧
    (∀ later earlier, later ++ earlier = history → ∀ row,
      (after inFile earlier).row? id = some row →
      (row.hasEnded = true → (∀ op ∈ later, ∀ cutoff, op.call = .deleteOlderThan cutoff →
          row.updatedAt.isBelow (.int cutoff) = false) →
        (after inFile history).row? id = some row) ∧
      ((∀ middle, middle <:+ later → (after inFile (middle ++ earlier)).row? id ≠ none) →
        ∀ row', (after inFile history).row? id = some row' → row.Kept row')) ∧
    ((after inFile history).rows.map Row.id).Nodup ∧
    (id ∈ (after inFile history).rows.map Row.id ↔ Survives inFile id history) := by
  have h : Inserting Job.HasRoom history := hjobs.mono fun _ hjob => hjob.hasRoom
  refine ⟨fun op earlier hsuffix => ?_, ?_, (holds_after inFile history h).nodup_ids, ?_⟩
  · have hhere : Inserting Job.HasRoom (op :: earlier) := h.suffix hsuffix
    have hnext := next_of_operation inFile hhere id
    refine ⟨fun row hrow hended => ?_, fun row hrow hlive hnone => ?_,
      fun row row' hrow hrow' => kept_of_operation hhere hrow hrow', fun job hcall htaken =>
        insert_of_taken (hhere.latest hcall) hhere.earlier htaken⟩
    · rw [hrow] at hnext
      generalize (after inFile (op :: earlier)).row? id = found at hnext ⊢
      cases hnext with
      | same => exact .inl rfl
      | move hlive _ =>
        rw [hended] at hlive
        cases hlive
      | @remove _ cutoff hcall _ hold => exact .inr ⟨rfl, cutoff, hcall, hold⟩
    · rw [hrow, hnone] at hnext
      cases hnext with
      | remove _ hended _ =>
        rw [hlive] at hended
        cases hended
  · rintro later earlier rfl row hrow
    exact ⟨fun hended hkept => ended_after hrow hended later h hkept,
      fun hthere row' hrow' => kept_after hrow later row' h hthere hrow'⟩
  · rw [mem_ids_iff]
    exact row?_ne_none_iff_survives id history h

/-- A completed job is removed, and does not survive. -/
theorem rows_over_time_of_removal :
    let history := ⟨.deleteOlderThan 10, 20⟩ :: ⟨.complete "a" "w" [], 9⟩ :: oneClaim []
    Inserting Job.InRange history ∧ Survives true "a" (oneClaim []) ∧
      ¬ Survives true "a" history := by
  intro history
  have hclaim : Inserting Job.InRange (oneClaim []) :=
    inserting_oneClaim ⟨by decide, by decide, by decide, fun _ hjob => (nomatch hjob), by decide,
      by decide⟩
  have hjobs : Inserting Job.InRange history :=
    inserting_cons.2 ⟨fun _ hjob => (nomatch hjob),
      inserting_cons.2 ⟨fun _ hjob => (nomatch hjob), hclaim⟩⟩
  obtain ⟨-, -, -, hthere⟩ := rows_over_time true (oneClaim []) hclaim "a"
  obtain ⟨-, -, -, hgone⟩ := rows_over_time true history hjobs "a"
  refine ⟨hjobs, hthere.1 (by decide +kernel), fun hsurvives => ?_⟩
  have hmissing : "a" ∉ (after true history).rows.map Row.id := by decide +kernel
  exact hmissing (hgone.2 hsurvives)

end Store

end JobQueue.Sql

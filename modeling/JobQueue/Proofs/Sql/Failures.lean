import JobQueue.Proofs.Memory.History

/-! # Failed calls

A call that moves one job is one statement, and it has taken effect before the row that it gives
back is read. So an error says one of two things (`MovesOne`): there was no job to move, and the
database is as it was; or the job has moved, but its row is no job that can be read, because the
text of its payload or of its result nests too deep or a counter has left 32 bits.

* `Holds.movesOne`: which of the two a call does.
* `Job.Safe`: whatever becomes of the job can be read, if the results reported for it can
  (`Job.Move.isOk_reading`).
* `failed_call`: **a failed call leaves the database as it was, or one row that cannot be read**;
  the latter never when the jobs that entered were safe. -/

namespace JobQueue

open MemoryStore

/-! ### Calls that move one job -/

namespace Call

/-- The call moves one job, and answers with it. -/
def movesOne : Call → Bool
  | .claimNext _ _ | .complete _ _ _ | .fail _ _ _ _ | .failPermanently _ _ _ | .cancel _ => true
  | _ => false

variable {call : Call} {now : Int} {jobs : List Job}

theorem effect_of_movesOne (hcall : call.movesOne = true) :
    call.effect now jobs = call.turned now jobs := by
  cases call with
  | claimNext | complete | fail | failPermanently | cancel => rfl
  | _ => cases hcall

theorem eq_of_takes (hcall : call.movesOne = true) (hdistinct : (jobs.map Job.id).Nodup)
    {a b : Job} (ha : a ∈ jobs) (hb : b ∈ jobs) (htakesA : call.takes now jobs a = true)
    (htakesB : call.takes now jobs b = true) : a = b := by
  have hheld : ∀ {id worker}, a.isHeldBy id worker = true → b.isHeldBy id worker = true →
      a.id = b.id := fun hA hB => (isHeldBy_iff.1 hA).1.trans (isHeldBy_iff.1 hB).1.symm
  cases call with
  | claimNext queue worker =>
    rw [takes_claimNext hdistinct ha] at htakesA
    rw [takes_claimNext hdistinct hb] at htakesB
    exact Option.some.inj (htakesA.symm.trans htakesB)
  | complete => exact eq_of_id_eq hdistinct ha hb (hheld htakesA htakesB)
  | fail => exact eq_of_id_eq hdistinct ha hb (hheld htakesA htakesB)
  | failPermanently => exact eq_of_id_eq hdistinct ha hb (hheld htakesA htakesB)
  | cancel id =>
    have hid : ∀ job : Job, job.isLive id = true → job.id = id := fun job hlive => by
      unfold Job.isLive at hlive
      rw [Bool.and_eq_true, beq_iff_eq] at hlive
      exact hlive.1
    exact eq_of_id_eq hdistinct ha hb ((hid a htakesA).trans (hid b htakesB).symm)
  | _ => cases hcall

theorem find?_of_takes_ne (hcall : call.movesOne = true) (hdistinct : (jobs.map Job.id).Nodup)
    {job : Job} (hjob : job ∈ jobs) (htakes : call.takes now jobs job = true) {id : JobId}
    (hid : id ≠ job.id) : find? id (call.effect now jobs) = find? id jobs := by
  rw [effect_of_movesOne hcall, find?_turned]
  cases hfind : find? id jobs with
  | none => rfl
  | some other =>
    obtain ⟨hother, hsame⟩ := (find?_eq_some_iff hdistinct).1 hfind
    have hnot : call.takes now jobs other ≠ true := fun htakesOther => by
      rw [eq_of_takes hcall hdistinct hjob hother htakes htakesOther] at hid
      exact hid hsame.symm
    rw [Option.map_some, if_neg hnot]

theorem find?_of_takes (hcall : call.movesOne = true) (hdistinct : (jobs.map Job.id).Nodup)
    {job : Job} (hjob : job ∈ jobs) (htakes : call.takes now jobs job = true) :
    find? job.id (call.effect now jobs) = some (call.turn now job) := by
  rw [effect_of_movesOne hcall, find?_turned, (find?_eq_some_iff hdistinct).2 ⟨hjob, rfl⟩,
    Option.map_some, if_pos htakes]

/-- The result that the call reports, if it reports one, is read as an object. -/
def LegibleResult (call : Call) : Prop :=
  ∀ id worker result, call = .complete id worker result → result.Legible

end Call

/-! ### Jobs that stay readable -/

/-- **The job can be read whatever becomes of it**: there is room to count one more attempt, and its
texts are read as objects; its result, unless it has ended. -/
structure Job.Safe (job : Job) : Prop where
  countable : job.Countable
  payload : job.payload.Legible
  result : job.status.isTerminal = false → ∀ result, job.result = some result → result.Legible

namespace Job.Move

variable {now : Int} {call : Call} {job job' : Job}

theorem safe (h : job.Move now call job') (hjob : job.Safe) : job'.Safe := by
  refine ⟨h.countable hjob.countable, h.same.payload ▸ hjob.payload, fun hlive => ?_⟩
  have hresult := hjob.result h.live
  -- Only a completed job has got another result.
  cases h with
  | complete => cases hlive
  | _ => exact hresult

/-- **The row of a job that has moved can be read.** -/
theorem isOk_reading (h : job.Move now call job') (hjob : job.Safe)
    (hcall : call.LegibleResult) : (Sql.Row.ofJob job').reading.isOk = true := by
  have hcountable := h.countable hjob.countable
  refine (Sql.Row.isOk_reading_ofJob hcountable.attempts hcountable.maxAttempts).2
    ⟨h.same.payload ▸ hjob.payload, ?_⟩
  have hresult := hjob.result h.live
  cases h with
  | complete =>
    intro result hsome
    exact hcall _ _ result (by rw [Option.some.inj hsome])
  | _ => exact hresult

end Job.Move

theorem safe_of_mem_jobsAfter {history : List Operation} (h : Inserting Job.Safe history) :
    ∀ job ∈ jobsAfter history, job.Safe :=
  forall_mem_jobsAfter (fun _ hsafe _ => hsafe) (fun _ _ _ _ hmove hsafe => hmove.safe hsafe)
    history h

/-! ### What an error says -/

namespace Sql.Store

/-- **What a call that moves one job does**: a job moves, and an error is what its row is read as;
or there is none to move, the database stays, and an error is the refusal. -/
inductive MovesOne {α : Type} (store : Store) (jobs : List Job) (call : Call) (now : Int)
    (answer : Except JobError α × Store) : Prop
  | moved {job : Job} (hjob : job ∈ jobs) (htakes : call.takes now jobs job = true)
      (hholds : answer.2.Holds (call.effect now jobs))
      (herror : ∀ e, answer.1 = .error e → (Row.ofJob (call.turn now job)).reading = .error e)
  | stayed (hconnection : answer.2.connection = store.connection)
      (hrefused : ∀ e, answer.1 = .error e → ∃ id action, e = refusal id action (store.row? id))

variable {store : Store} {jobs : List Job}

theorem Transition.movesOne {call : Call} {now : Int} {id : JobId} {action : Action}
    {answer : Except JobError Job × Store} (hholds : store.Holds jobs)
    (h : Transition store jobs call now id action answer) :
    MovesOne store jobs call now answer := by
  cases h with
  | taken hfind htakes hnext =>
    have hjob := ((Call.find?_eq_some_iff hholds.distinct).1 hfind).1
    exact .moved hjob htakes hnext fun _ herror => herror
  | refused _ _ hconnection =>
    refine .stayed hconnection fun e herror => ⟨id, action, ?_⟩
    rw [hholds.row?]
    exact (Except.error.inj herror).symm

theorem Claim.movesOne {queue : QueueName} {worker : WorkerId} {now : Int}
    {answer : Except JobError (Option Job) × Store} (hholds : store.Holds jobs)
    (h : Claim store jobs queue worker now answer) :
    MovesOne store jobs (.claimNext queue worker) now answer := by
  cases h with
  | nothing _ _ hconnection => exact .stayed hconnection fun _ herror => nomatch herror
  | @taken job _ hfirst hnext =>
    have hjob := (mem_claimable.1 hfirst.mem).1
    have htakes : (Call.claimNext queue worker).takes now jobs job = true :=
      (Call.takes_claimNext hholds.distinct hjob).2
        ((first?_eq_some (distinct_claimable queue now hholds.distinct)).2 hfirst)
    refine .moved hjob htakes hnext fun e herror => ?_
    show (Row.ofJob (claimed job worker now)).reading = .error e
    cases hreading : (Row.ofJob (claimed job worker now)).reading with
    | ok read =>
      rw [hreading] at herror
      cases herror
    | error cause =>
      rw [hreading] at herror
      rw [Except.error.inj herror]

/-- **A call that moves one job moves it, or leaves the database as it was.** -/
theorem Holds.movesOne (h : store.Holds jobs) {call : Call} (hcall : call.movesOne = true)
    (now : Int) : MovesOne store jobs call now (store.run call now) := by
  cases call with
  | claimNext queue worker => exact (h.claimNext queue worker now).movesOne h
  | complete id worker result => exact (h.complete id worker result now).movesOne h
  | fail id worker error delay => exact (h.fail id worker error delay now).movesOne h
  | failPermanently id worker error =>
    exact (h.failPermanently id worker error now).movesOne h
  | cancel id => exact (h.cancel id now).movesOne h
  | _ => cases hcall

/-- **A row has been written that cannot be read**, in the place of one in another state, and all
else is as before. -/
structure Miswritten (store next : Store) (e : JobError) (row row' : Row) : Prop where
  before : store.row? row.id = some row
  after : next.row? row.id = some row'
  status : row'.status ≠ row.status
  reading : row'.reading = .error e
  others : ∀ id, id ≠ row.id → next.row? id = store.row? id

namespace Miswritten

variable {next : Store} {e : JobError} {row row' : Row}

theorem connection_ne (h : Miswritten store next e row row') :
    next.connection ≠ store.connection := by
  intro hconnection
  have hrow : next.row? row.id = store.row? row.id := by
    unfold Store.row? Store.rows
    rw [hconnection]
  rw [h.before, h.after] at hrow
  exact h.status (congrArg Row.status (Option.some.inj hrow))

theorem mem_rows (h : Miswritten store next e row row') : row' ∈ next.rows :=
  List.mem_of_find?_eq_some h.after

theorem not_mem_rows (h : Miswritten store next e row row') (hholds : store.Holds jobs) :
    row' ∉ store.rows := by
  intro hmem
  have hid : row'.id = row.id := by simpa using List.find?_some h.after
  have hrow : row ∈ store.rows := List.mem_of_find?_eq_some h.before
  have hsame := List.inj_on_of_nodup_map hholds.nodup_ids hmem hrow hid
  exact h.status (congrArg Row.status hsame)

theorem isOk_reading (h : Miswritten store next e row row') : row'.reading.isOk = false := by
  rw [h.reading]
  rfl

end Miswritten

theorem Holds.miswritten (h : store.Holds jobs) {call : Call} {now : Int}
    (hcall : call.movesOne = true) {job : Job} (hjob : job ∈ jobs)
    (htakes : call.takes now jobs job = true) {next : Store}
    (hnext : next.Holds (call.effect now jobs)) {e : JobError}
    (herror : (Row.ofJob (call.turn now job)).reading = .error e) :
    Miswritten store next e (.ofJob job) (.ofJob (call.turn now job)) := by
  have hmove := Call.move_of_takes h.distinct hjob htakes
  refine ⟨?_, ?_, fun hstatus => hmove.status_ne (Status.name_injective hstatus), herror, ?_⟩
  · show store.row? job.id = _
    rw [h.row?, (Call.find?_eq_some_iff h.distinct).2 ⟨hjob, rfl⟩]
    rfl
  · show next.row? job.id = _
    rw [hnext.row?, Call.find?_of_takes hcall h.distinct hjob htakes]
    rfl
  · intro id hid
    rw [hnext.row?, h.row?, Call.find?_of_takes_ne hcall h.distinct hjob htakes hid]

/-- **A failed call leaves the database as it was, or one row that cannot be read.** For every call
that moves one job, after any history of jobs in range:

* If the answer is an error, the database is as before and the call was refused, or just one row
  has changed: into one that cannot be read as a job, which is the error.
* So it is as before exactly when each row of the table is as before or can be read.
* It is as before whenever the jobs that entered are safe and the result that the call reports is
  read as an object. -/
theorem failed_call (inFile : Bool) (history : List Operation)
    (hjobs : Inserting Job.InRange history) (call : Call) (hcall : call.movesOne = true) (now : Int)
    (e : JobError) (herror : ((after inFile history).run call now).1 = .error e) :
    let store := after inFile history
    let next := (store.run call now).2
    ((next.connection = store.connection ∧ ∃ id action, e = refusal id action (store.row? id)) ∨
        ∃ row row', Miswritten store next e row row') ∧
      (next.connection = store.connection ↔
        ∀ row ∈ next.rows, row ∈ store.rows ∨ row.reading.isOk = true) ∧
      (Inserting Job.Safe history → call.LegibleResult → next.connection = store.connection) := by
  intro store next
  have h : store.Holds (jobsAfter history) :=
    holds_after inFile history (hjobs.mono fun _ hjob => hjob.hasRoom)
  have hnext : next.Holds (call.effect now (jobsAfter history)) :=
    h.run call now fun job hinsert => by rw [hinsert] at hcall; cases hcall
  cases h.movesOne hcall now with
  | stayed hconnection hrefused =>
    have hrows : next.rows = store.rows := by
      unfold Store.rows
      rw [hconnection]
    exact ⟨.inl ⟨hconnection, hrefused e herror⟩,
      iff_of_true hconnection fun row hrow => .inl (hrows ▸ hrow), fun _ _ => hconnection⟩
  | @moved job hjob htakes _ hreading =>
    have hmiswritten := h.miswritten hcall hjob htakes hnext (hreading e herror)
    refine ⟨.inr ⟨_, _, hmiswritten⟩, iff_of_false hmiswritten.connection_ne fun hrows => ?_,
      fun hsafe hresult => ?_⟩
    · rcases hrows _ hmiswritten.mem_rows with hbefore | hread
      · exact hmiswritten.not_mem_rows h hbefore
      · rw [hmiswritten.isOk_reading] at hread
        cases hread
    · have hmove := Call.move_of_takes h.distinct hjob htakes
      have hread := hmove.isOk_reading (safe_of_mem_jobsAfter hsafe job hjob) hresult
      rw [hmiswritten.isOk_reading] at hread
      cases hread

/-- A worker that does not hold the job cannot complete it, and nothing changes. -/
theorem failed_call_of_stranger :
    let store := after true (oneClaim [])
    let call := Call.complete "a" "v" []
    let e := refusal "a" .complete (store.row? "a")
    Inserting Job.InRange (oneClaim []) ∧ Inserting Job.Safe (oneClaim []) ∧
      call.LegibleResult ∧ (store.run call 9).1 = .error e ∧
      (store.run call 9).2.connection = store.connection := by
  intro store call e
  have hempty : Fields.Plain [] := ⟨by decide, by decide, by decide, by decide⟩
  have hjobs : Inserting Job.InRange (oneClaim []) := inserting_oneClaim
    ⟨by decide, by decide, by decide, fun _ h => (nomatch h), by decide, by decide⟩
  have hsafe : Inserting Job.Safe (oneClaim []) := inserting_oneClaim
    ⟨⟨by decide, by decide, fun _ => by decide⟩, hempty.legible, fun _ _ h => (nomatch h)⟩
  have hcall : call.LegibleResult := fun id worker result h => by
    obtain ⟨-, -, rfl⟩ := Call.complete.inj h
    exact hempty.legible
  have herror : (store.run call 9).1 = .error e := rfl
  obtain ⟨-, -, hsame⟩ := failed_call true (oneClaim []) hjobs call rfl 9 e herror
  exact ⟨hjobs, hsafe, hcall, herror, hsame hsafe hcall⟩

/-- A result that nests one level too deep is stored, and the job is completed, but its worker is
answered that the job cannot be read. -/
theorem failed_call_of_deep_result :
    let result : Fields := [("root", Nat.repeat (fun inner => Json.arr [inner]) 127 .null)]
    let store := after true (oneClaim [])
    let answer := store.run (.complete "a" "w" result) 9
    Inserting Job.InRange (oneClaim []) ∧ (Json.obj result).floatFree = true ∧
      (Json.obj result).depth = 128 ∧ answer.1.isOk = false ∧
      (store.row? "a").map Row.status = some "running" ∧
      (answer.2.row? "a").map Row.status = some "completed" := by
  intro result store answer
  have hjobs : Inserting Job.InRange (oneClaim []) := inserting_oneClaim
    ⟨by decide, by decide, by decide, fun _ h => (nomatch h), by decide, by decide⟩
  exact ⟨hjobs, by decide +kernel, by decide +kernel, by decide +kernel, by decide +kernel,
    by decide +kernel⟩

end Sql.Store

end JobQueue

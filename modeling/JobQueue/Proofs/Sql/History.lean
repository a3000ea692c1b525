import JobQueue.Enqueue
import JobQueue.Proofs.Sql.Holds

/-! # Histories of a store

A history is a list of operations, each a call at a time, the latest first; it is run on a new store
with the schema (`Store.after`). Calls may come from anywhere and in any order. The jobs that the
store then holds (`jobsAfter`) are found by the effects of the calls alone.

* `holds_after`: the store holds these jobs, if the jobs that entered have room.
* `forall_mem_jobsAfter`: **what new jobs have and moves keep, all jobs have.**
* `change_of_operation`: what an operation does to the row of an id.
* `Job.Built`: the job was built for a request; `built_of_prepare`: so are those enqueued.
* `Request.shallow_of_check`: the payloads of accepted requests are not too deep for the reader. -/

namespace JobQueue

open MemoryStore

/-- **An operation**: a call at a time. -/
structure Operation where
  call : Call
  now : Int

/-- The jobs after a history. -/
def jobsAfter : List Operation → List Job
  | [] => []
  | op :: earlier => op.call.effect op.now (jobsAfter earlier)

/-- The jobs that the operations insert have the property. -/
def Inserting (P : Job → Prop) (history : List Operation) : Prop :=
  ∀ op ∈ history, ∀ job, op.call = .insert job → P job

theorem Inserting.earlier {P : Job → Prop} {op : Operation} {history : List Operation}
    (h : Inserting P (op :: history)) : Inserting P history :=
  fun op' hop' => h op' (List.mem_cons_of_mem op hop')

theorem Inserting.latest {P : Job → Prop} {op : Operation} {history : List Operation}
    (h : Inserting P (op :: history)) {job : Job} (hjob : op.call = .insert job) : P job :=
  h op List.mem_cons_self job hjob

theorem inserting_nil (P : Job → Prop) : Inserting P [] :=
  fun _ hop => absurd hop List.not_mem_nil

theorem inserting_cons {P : Job → Prop} {op : Operation} {history : List Operation} :
    Inserting P (op :: history) ↔ (∀ job, op.call = .insert job → P job) ∧ Inserting P history := by
  refine ⟨fun h => ⟨fun _ hjob => h.latest hjob, h.earlier⟩, fun h op' hop' => ?_⟩
  rcases List.mem_cons.1 hop' with rfl | hop'
  · exact h.1
  · exact h.2 op' hop'

theorem Inserting.suffix {P : Job → Prop} {earlier history : List Operation}
    (h : Inserting P history) (hsuffix : earlier <:+ history) : Inserting P earlier :=
  fun op hop => h op (hsuffix.subset hop)

theorem Inserting.mono {P Q : Job → Prop} {history : List Operation} (h : Inserting P history)
    (hPQ : ∀ job, P job → Q job) : Inserting Q history :=
  fun op hop job hjob => hPQ job (h op hop job hjob)

theorem inserting_trusted {history : List Operation} (h : ∀ op ∈ history, op.call.Trusted) :
    Inserting (fun job => job.payload.Trusted) history :=
  fun op hop job hcall => h op hop job.payload (hcall ▸ .payload job)

theorem inserting_legible {history : List Operation} (h : ∀ op ∈ history, op.call.Trusted)
    (hshallow : Inserting (fun job => job.payload.Shallow) history) :
    Inserting (fun job => job.payload.Legible) history := fun op hop job hcall =>
  (inserting_trusted h op hop job hcall).legible (hshallow op hop job hcall)

theorem distinct_jobsAfter : ∀ history : List Operation,
    ((jobsAfter history).map Job.id).Nodup
  | [] => List.nodup_nil
  | op :: earlier => Call.distinct_effect op.call op.now (distinct_jobsAfter earlier)

/-- **What new jobs have and moves keep, all jobs have.** -/
theorem forall_mem_jobsAfter {P Q : Job → Prop}
    (henter : ∀ job, Q job → 1 ≤ job.maxAttempts → P job)
    (hmove : ∀ now call job job', Job.Move now call job job' → P job → P job') :
    ∀ history : List Operation, Inserting Q history → ∀ job ∈ jobsAfter history, P job
  | [], _ => fun _ hjob => absurd hjob List.not_mem_nil
  | op :: earlier, h =>
    Call.forall_mem_effect (distinct_jobsAfter earlier)
      (forall_mem_jobsAfter henter hmove earlier h.earlier)
      (fun job hjob hallowed => henter job (h.latest hjob) hallowed)
      fun job job' => hmove op.now op.call job job'

/-! ### Jobs for requests -/

/-- **The job was built for a request**, and its limit of attempts fits 32 bits. -/
structure Job.Built (job : Job) : Prop where
  request : ∃ (request : Request) (now default : Int), job = request.toJob job.id now default
  maxAttempts : FitsInt32 job.maxAttempts

theorem Request.built_of_prepare {request : Request} {now default : Int} {ids ids' : IdSource}
    {job : Job} (h : request.prepare now default ids = .ok (job, ids'))
    (hdefault : FitsInt32 default) (hrequest : ∀ n, request.maxAttempts = some n → FitsInt32 n) :
    job.Built := by
  unfold Request.prepare at h
  cases hcheck : request.check with
  | error fault =>
    rw [hcheck] at h
    cases h
  | ok _ =>
    rw [hcheck] at h
    obtain ⟨rfl, -⟩ := Prod.mk.inj (Except.ok.inj h)
    refine ⟨⟨request, now, default, rfl⟩, ?_⟩
    show FitsInt32 (request.maxAttempts.getD default)
    cases hmax : request.maxAttempts with
    | none => exact hdefault
    | some n => exact hrequest n hmax

theorem Request.checks {request : Request} (h : request.check = .ok ()) :
    Request.checkAttempts request.maxAttempts = .ok () ∧ request.checkPayload = .ok () := by
  unfold Request.check at h
  simp only [bind, Except.bind] at h
  split at h
  · cases h
  · split at h
    · cases h
    · split at h
      · cases h
      · next hattempts => exact ⟨hattempts, h⟩

theorem Request.shallow_of_check {request : Request} (h : request.check = .ok ()) :
    request.payload.Shallow := by
  have hpayload := (Request.checks h).2
  unfold Request.checkPayload at hpayload
  split at hpayload
  · cases hpayload
  · next hlevels => exact (Nat.not_lt.1 hlevels).trans (by decide)

namespace Job.Built

variable {job : Job}

theorem status (h : job.Built) : job.status = .pending := by
  obtain ⟨⟨request, now, default, hjob⟩, -⟩ := h
  rw [hjob]
  rfl

theorem attempts (h : job.Built) : job.attempts = 0 := by
  obtain ⟨⟨request, now, default, hjob⟩, -⟩ := h
  rw [hjob]
  rfl

theorem claimedBy (h : job.Built) : job.claimedBy = none := by
  obtain ⟨⟨request, now, default, hjob⟩, -⟩ := h
  rw [hjob]
  rfl

theorem claimedAt (h : job.Built) : job.claimedAt = none := by
  obtain ⟨⟨request, now, default, hjob⟩, -⟩ := h
  rw [hjob]
  rfl

theorem result (h : job.Built) : job.result = none := by
  obtain ⟨⟨request, now, default, hjob⟩, -⟩ := h
  rw [hjob]
  rfl

theorem hasRoom (h : job.Built) : job.HasRoom := by
  refine ⟨fun _ => ?_, h.maxAttempts.2⟩
  rw [h.attempts]
  decide

end Job.Built

/-- A job is enqueued. -/
def oneJob (payload : Fields) : List Operation :=
  [⟨.insert (Request.toJob (.create "q" "t" payload) "a" 0 3), 0⟩]

/-- A job is enqueued and a worker claims it. -/
def oneClaim (payload : Fields) : List Operation := ⟨.claimNext "q" "w", 5⟩ :: oneJob payload

theorem inserting_oneJob {P : Job → Prop} {payload : Fields}
    (h : P (Request.toJob (.create "q" "t" payload) "a" 0 3)) : Inserting P (oneJob payload) := by
  refine inserting_cons.2 ⟨fun job hjob => ?_, inserting_nil P⟩
  rw [← Call.insert.inj hjob]
  exact h

theorem inserting_oneClaim {P : Job → Prop} {payload : Fields}
    (h : P (Request.toJob (.create "q" "t" payload) "a" 0 3)) : Inserting P (oneClaim payload) :=
  inserting_cons.2 ⟨fun _ hjob => (nomatch hjob), inserting_oneJob h⟩

theorem built_oneJob (payload : Fields) : Inserting Job.Built (oneJob payload) :=
  inserting_oneJob ⟨⟨.create "q" "t" payload, 0, 3, rfl⟩, show FitsInt32 3 by decide⟩

theorem built_oneClaim (payload : Fields) : Inserting Job.Built (oneClaim payload) :=
  inserting_cons.2 ⟨fun _ hjob => (nomatch hjob), built_oneJob payload⟩

theorem brings_oneJob {P : Fields → Prop} {payload : Fields} (h : P payload) :
    ∀ op ∈ oneJob payload, ∀ fields, op.call.Brings fields → P fields := by
  intro op hop fields hbrings
  obtain rfl := List.mem_singleton.1 hop
  cases hbrings with
  | payload => exact h
  | result hsome => cases hsome

theorem brings_oneClaim {P : Fields → Prop} {payload : Fields} (h : P payload) :
    ∀ op ∈ oneClaim payload, ∀ fields, op.call.Brings fields → P fields := by
  intro op hop fields hbrings
  rcases List.mem_cons.1 hop with rfl | hop
  · cases hbrings
  · exact brings_oneJob h op hop fields hbrings

theorem Job.InRange.hasRoom {job : Job} (h : job.InRange) : job.HasRoom :=
  ⟨fun _ => h.attempts.2, h.maxAttempts.2⟩

/-! ### Stores -/

namespace Sql.Store

/-- **The store after a history**, kept in a file or not. -/
def after (inFile : Bool) : List Operation → Store
  | [] => fresh inFile
  | op :: earlier => ((after inFile earlier).run op.call op.now).2

/-- **The store holds the jobs after the history.** -/
theorem holds_after (inFile : Bool) : ∀ history : List Operation,
    Inserting Job.HasRoom history → (after inFile history).Holds (jobsAfter history)
  | [], _ => holds_fresh inFile
  | op :: earlier, h =>
    (holds_after inFile earlier h.earlier).run op.call op.now fun _ hjob => h.latest hjob

theorem row?_after (inFile : Bool) {history : List Operation}
    (h : Inserting Job.HasRoom history) (id : JobId) :
    (after inFile history).row? id = (find? id (jobsAfter history)).map Row.ofJob :=
  (holds_after inFile history h).row? id

theorem map_ofJob_ne_of_change {now : Int} {call : Call} {before after : Option Job}
    (h : Call.Change now call before after) : after.map Row.ofJob ≠ before.map Row.ofJob := by
  cases h with
  | enter => exact nofun
  | move hmove =>
    intro heq
    have hstatus := congrArg Row.status (Option.some.inj heq)
    exact hmove.status_ne (Status.name_injective hstatus)
  | prune => exact nofun

/-- **An operation leaves the row of an id as it is, or changes the job.** -/
theorem change_of_operation (inFile : Bool) {op : Operation} {earlier : List Operation}
    (h : Inserting Job.HasRoom (op :: earlier)) (id : JobId) :
    ((after inFile (op :: earlier)).row? id = (after inFile earlier).row? id ∧
        find? id (jobsAfter (op :: earlier)) = find? id (jobsAfter earlier)) ∨
      (after inFile (op :: earlier)).row? id ≠ (after inFile earlier).row? id ∧
        Call.Change op.now op.call (find? id (jobsAfter earlier))
          (find? id (jobsAfter (op :: earlier))) := by
  rw [row?_after inFile h, row?_after inFile h.earlier]
  rcases Call.change_of_effect op.call op.now (distinct_jobsAfter earlier) id with hsame | hchange
  · exact .inl ⟨congrArg (Option.map Row.ofJob) hsame, hsame⟩
  · exact .inr ⟨map_ofJob_ne_of_change hchange, hchange⟩

end Sql.Store

end JobQueue

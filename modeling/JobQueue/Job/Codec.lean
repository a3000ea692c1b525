import JobQueue.Job.Basic
import JobQueue.Json.Embedding

/-! # Jobs as JSON

A job is written as an object with all its fields by name, missing values as `null`. It is read
from such an object, where other members are ignored and absent optional ones count as `null`, or
from the list of its fields in order, which has to be complete. Integers are read only within
their range and never from a floating-point number; a state is its name, or an object with that
one name and `null`.

The readers of single values serve all readers of records. -/

namespace JobQueue

/-! ### Readers of single values -/

namespace Json

def asString? : Json → Option String
  | .str s => some s
  | _ => none

def asFields? : Json → Option Fields
  | .obj fields => some fields
  | _ => none

/-- The members of an object, with the documents embedded in it. -/
def asDocument? (v : Json) : Option Fields := v.asFields?.bind Fields.resolved?

/-- An integer between two bounds. -/
def asIntIn? (low high : Int) : Json → Option Int
  | .int n => if low ≤ n ∧ n ≤ high then some n else none
  | _ => none

def asInt32? : Json → Option Int := asIntIn? (-2147483648) 2147483647

def asInt64? : Json → Option Int := asIntIn? Timestamp.earliest Timestamp.latest

/-- A natural number up to a bound. -/
def asNat? (high : Nat) (v : Json) : Option Nat := (asIntIn? 0 high v).map Int.toNat

/-- `null` for none, else a value. -/
def asOptional? {α : Type} (read : Json → Option α) : Json → Option (Option α)
  | .null => some none
  | v => (read v).map some

end Json

/-- A member that has to be there. -/
def Fields.required? {α : Type} (fields : Fields) (name : String) (read : Json → Option α) :
    Option α :=
  (fields.get? name).bind read

/-- A member that may be absent or `null`. -/
def Fields.optional? {α : Type} (fields : Fields) (name : String) (read : Json → Option α) :
    Option (Option α) :=
  match fields.get? name with
  | none => some none
  | some v => Json.asOptional? read v

/-! ### States -/

/-- A state from its name, or from an object with its name and `null`. -/
def Status.ofJson? : Json → Option Status
  | .str s => Status.ofName? s
  | .obj [(s, .null)] => Status.ofName? s
  | _ => none

def Status.toJson (s : Status) : Json := .str s.name

@[simp] theorem Status.ofJson?_toJson (s : Status) : Status.ofJson? s.toJson = some s := by
  simp [Status.ofJson?, Status.toJson]

/-! ### Jobs -/

namespace Job

/-- The fields in their order. -/
def fieldNames : List String :=
  ["id", "queue", "job_type", "payload", "status", "attempts", "max_attempts", "scheduled_at",
    "claimed_by", "claimed_at", "result", "last_error", "created_at", "updated_at"]

/-- **A job as an object.** -/
def toJson (job : Job) : Json :=
  Json.ofFields [
    ("id", .str job.id),
    ("queue", .str job.queue),
    ("job_type", .str job.jobType),
    ("payload", .obj job.payload),
    ("status", job.status.toJson),
    ("attempts", .int job.attempts),
    ("max_attempts", .int job.maxAttempts),
    ("scheduled_at", .int job.scheduledAt),
    ("claimed_by", Json.ofOption Json.str job.claimedBy),
    ("claimed_at", Json.ofOption Json.int job.claimedAt),
    ("result", Json.ofOption Json.obj job.result),
    ("last_error", Json.ofOption Json.str job.lastError),
    ("created_at", .int job.createdAt),
    ("updated_at", .int job.updatedAt)]

/-- A job from the members of an object. -/
def ofFields? (fields : Fields) : Option Job := do
  let id ← fields.required? "id" Json.asString?
  let queue ← fields.required? "queue" Json.asString?
  let jobType ← fields.required? "job_type" Json.asString?
  let payload ← fields.required? "payload" Json.asDocument?
  let status ← fields.required? "status" Status.ofJson?
  let attempts ← fields.required? "attempts" Json.asInt32?
  let maxAttempts ← fields.required? "max_attempts" Json.asInt32?
  let scheduledAt ← fields.required? "scheduled_at" Json.asInt64?
  let claimedBy ← fields.optional? "claimed_by" Json.asString?
  let claimedAt ← fields.optional? "claimed_at" Json.asInt64?
  let result ← fields.optional? "result" Json.asDocument?
  let lastError ← fields.optional? "last_error" Json.asString?
  let createdAt ← fields.required? "created_at" Json.asInt64?
  let updatedAt ← fields.required? "updated_at" Json.asInt64?
  return { id, queue, jobType, payload, status, attempts, maxAttempts, scheduledAt, claimedBy,
           claimedAt, result, lastError, createdAt, updatedAt }

/-- **A job from a value.** A list is read as the object with its items as the fields. -/
def ofJson? : Json → Option Job
  | .obj fields => ofFields? fields
  | .arr items =>
    if items.length = fieldNames.length then ofFields? (Fields.ofList (fieldNames.zip items))
    else none
  | _ => none

end Job

end JobQueue

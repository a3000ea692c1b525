import JobQueue.Job.Codec
import JobQueue.Request.Basic

/-! # Requests as JSON

A request is written as an object with all its fields. It is read from an object, where the payload
and the attempts may be left out, or from a list of the fields in order, which may end before the
attempts.

A schedule is the word `immediate`, or an object with one member: `delayed` with a duration, or `at`
with a time. A duration is an object of seconds and nanoseconds, or the list of the two; nanoseconds
beyond a second carry over. -/

namespace JobQueue

/-! ### Durations -/

/-- A duration as seconds and nanoseconds. -/
def Duration.toJson (d : Duration) : Json :=
  Json.ofFields [("secs", .int d.secs), ("nanos", .int d.subsecNanos)]

/-- Seconds and nanoseconds, the latter of 32 bits. -/
def Duration.ofParts (secs nanos : Json) : Option Duration := do
  let s ← secs.asNat? 18446744073709551615
  let n ← nanos.asNat? 4294967295
  Duration.ofParts? s n

/-- A duration from the object with exactly its two parts, or from their list. -/
def Duration.ofJson? : Json → Option Duration
  | .obj fields =>
    if fields.all fun m => m.1 == "secs" || m.1 == "nanos" then do
      let secs ← Fields.get? "secs" fields
      let nanos ← Fields.get? "nanos" fields
      Duration.ofParts secs nanos
    else none
  | .arr [secs, nanos] => Duration.ofParts secs nanos
  | _ => none

/-! ### Schedules -/

def Schedule.toJson : Schedule → Json
  | .immediate => .str "immediate"
  | .delayed delay => Json.ofFields [("delayed", delay.toJson)]
  | .at time => Json.ofFields [("at", .int time)]

def Schedule.ofJson? : Json → Option Schedule
  | .str s => if s = "immediate" then some .immediate else none
  | .obj [(name, v)] =>
    if name = "immediate" then
      match v with
      | .null => some .immediate
      | _ => none
    else if name = "delayed" then (Duration.ofJson? v).map .delayed
    else if name = "at" then v.asInt64?.map .at
    else none
  | _ => none

/-! ### Requests -/

namespace Request

/-- The fields in their order. -/
def fieldNames : List String := ["queue", "job_type", "payload", "schedule", "max_attempts"]

/-- **A request as an object.** -/
def toJson (request : Request) : Json :=
  Json.ofFields [
    ("queue", .str request.queue),
    ("job_type", .str request.jobType),
    ("payload", .obj request.payload),
    ("schedule", request.schedule.toJson),
    ("max_attempts", Json.ofOption Json.int request.maxAttempts)]

/-- The payload, empty when it is left out. -/
def payload? (fields : Fields) : Option Fields :=
  match Fields.get? "payload" fields with
  | none => some []
  | some v => v.asDocument?

/-- A request from the members of an object. -/
def ofFields? (fields : Fields) : Option Request := do
  let queue ← fields.required? "queue" Json.asString?
  let jobType ← fields.required? "job_type" Json.asString?
  let payload ← payload? fields
  let schedule ← fields.required? "schedule" Schedule.ofJson?
  let maxAttempts ← fields.optional? "max_attempts" Json.asInt32?
  return { queue, jobType, payload, schedule, maxAttempts }

/-- **A request from a value.** A list is read as the object with its items as the first fields. -/
def ofJson? : Json → Option Request
  | .obj fields => ofFields? fields
  | .arr items =>
    if items.length ≤ fieldNames.length then ofFields? (Fields.ofList (fieldNames.zip items))
    else none
  | _ => none

end Request

end JobQueue

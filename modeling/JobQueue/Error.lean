import JobQueue.Breakdown

/-! # Errors

What an operation of the queue can answer instead of a result. Each error has a kind, which callers
branch on, and a message. A breakdown is kept among the errors, but it is no answer: whoever meets
it stops.

* `JobError.kind`, `JobError.message`.
* `JobError.isTransient`: the store may recover by itself, so a worker goes on polling. -/

namespace JobQueue

/-- The name of a job. -/
abbrev JobId := String

/-- A value that is no value of the domain. -/
inductive DomainError where
  | unknownStatus (text : String)
  | invalid (text : String)
deriving DecidableEq, Repr

def DomainError.message : DomainError → String
  | .unknownStatus text => "Unknown job status: " ++ text
  | .invalid text => "Validation error: " ++ text

/-- An error of the JSON library. -/
inductive JsonError where
  /-- It was made of a text. -/
  | custom (text : String)
  /-- The document is not of the form that is read. -/
  | unread (document : String)
deriving DecidableEq, Repr

/-- The message, by how the library words what is wrong with a document. -/
def JsonError.message (wording : String → String) : JsonError → String
  | .custom text => text
  | .unread document => wording document

/-- The kinds of errors. -/
inductive ErrorKind where
  | domain | validation | database | serialization | config | notFound | invalidState
  | alreadyStarted | timeout | shutdownTimeout | internal | breakdown
deriving DecidableEq, Repr

/-- **An error of the queue.** -/
inductive JobError where
  /-- A stored value is outside the domain. -/
  | domain (cause : DomainError)
  /-- A request is refused before the store sees it. -/
  | validation (text : String)
  /-- The store failed. -/
  | database (text : String)
  /-- A payload or a result cannot be read as an object. -/
  | serialization (cause : JsonError)
  /-- A configuration is refused. -/
  | config (text : String)
  /-- No job has this id. -/
  | notFound (text : String)
  /-- The job's state does not allow the change. -/
  | invalidState (text : String)
  /-- The runner was started before. -/
  | alreadyStarted
  /-- A call did not answer in time. -/
  | timeout (text : String)
  /-- Jobs were still worked on when the time for shutting down was over. -/
  | shutdownTimeout (activeJobs : List JobId)
  /-- The host is not able to do what it is asked. -/
  | internal (text : String)
  /-- The operation stopped in the middle. -/
  | breakdown (cause : Breakdown)
deriving DecidableEq, Repr

namespace JobError

def kind : JobError → ErrorKind
  | .domain _ => .domain
  | .validation _ => .validation
  | .database _ => .database
  | .serialization _ => .serialization
  | .config _ => .config
  | .notFound _ => .notFound
  | .invalidState _ => .invalidState
  | .alreadyStarted => .alreadyStarted
  | .timeout _ => .timeout
  | .shutdownTimeout _ => .shutdownTimeout
  | .internal _ => .internal
  | .breakdown _ => .breakdown

/-- **The message**, by how the JSON library words its own part. -/
def message (wording : String → String) : JobError → String
  | .domain cause => "Domain error: " ++ cause.message
  | .validation text => "Validation error: " ++ text
  | .database text => "Database error: " ++ text
  | .serialization cause => "Serialization error: " ++ cause.message wording
  | .config text => "Configuration error: " ++ text
  | .notFound text => "Not found: " ++ text
  | .invalidState text => "Invalid state: " ++ text
  | .alreadyStarted => "Runner already started"
  | .timeout text => "Operation timed out: " ++ text
  | .shutdownTimeout ids =>
    "Shutdown deadline exceeded with " ++ String.ofList (Decimal.digits ids.length) ++
      " job(s) still in flight"
  | .internal text => "Internal error: " ++ text
  | .breakdown cause => cause.message

/-- The store failed or was late; a later call may succeed. -/
def isTransient : JobError → Bool
  | .database _ | .timeout _ => true
  | _ => false

/-- The error for an id that the store does not hold. -/
def jobNotFound (id : JobId) : JobError := .notFound ("Job " ++ id ++ " not found")

/-- The breakdown, if the operation ended in one. -/
def breakdown? : JobError → Option Breakdown
  | .breakdown cause => some cause
  | _ => none

end JobError

end JobQueue

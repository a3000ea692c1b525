import JobQueue.Job.Basic

/-! # Requests for work

A request names a queue, a kind of work and its payload, says when the job is due, and may set how
often the work is attempted.

* `Request.check`: the first rule that a request breaks, in the order of `RequestFault`. -/

namespace JobQueue

/-- **When a job is due.** -/
inductive Schedule where
  | immediate
  | delayed (delay : Duration)
  | at (time : Int)
deriving DecidableEq, Repr

/-- The time at which a job is due that is requested at `now`. -/
def Schedule.dueTime (now : Int) : Schedule → Int
  | .immediate => now
  | .delayed delay => Timestamp.later now delay
  | .at time => time

/-- **A request for a job.** -/
structure Request where
  queue : QueueName
  jobType : JobType
  payload : Fields
  schedule : Schedule
  maxAttempts : Option Int
deriving Repr

/-- The names in a request. -/
inductive NameField where
  | queue
  | jobType
deriving DecidableEq, Repr

def NameField.text : NameField → String
  | .queue => "queue"
  | .jobType => "job_type"

/-- **A rule that a request breaks.** -/
inductive RequestFault where
  | emptyName (field : NameField)
  | longName (field : NameField) (bytes : Nat)
  | illegalName (field : NameField) (name : String)
  | noAttempts (maxAttempts : Int)
  | deepPayload (levels : Nat)
deriving DecidableEq, Repr

namespace Request

/-- A request for work to be done at once. -/
def create (queue : QueueName) (jobType : JobType) (payload : Fields) : Request :=
  ⟨queue, jobType, payload, .immediate, none⟩

def withDelay (request : Request) (delay : Duration) : Request :=
  { request with schedule := .delayed delay }

def withTime (request : Request) (time : Int) : Request :=
  { request with schedule := .at time }

def withMaxAttempts (request : Request) (maxAttempts : Int) : Request :=
  { request with maxAttempts := some maxAttempts }

/-- The longest name, in bytes. -/
def maxNameBytes : Nat := 64

/-- The deepest payload, the payload itself counted as one level. -/
def maxPayloadLevels : Nat := 32

/-- The characters of a name. -/
def isNameChar (c : Char) : Bool :=
  c.isAlphanum || c == '_' || c == '-' || c == '.' || c == ':'

/-- The rules for one name. -/
def checkName (field : NameField) (name : String) : Except RequestFault Unit :=
  if name.isEmpty then .error (.emptyName field)
  else if maxNameBytes < name.utf8ByteSize then .error (.longName field name.utf8ByteSize)
  else if name.toList.all isNameChar then .ok ()
  else .error (.illegalName field name)

/-- The levels of nesting of the payload. -/
def payloadLevels (request : Request) : Nat := (Json.obj request.payload).depth

/-- The number of attempts asked for is at least one. -/
def checkAttempts : Option Int → Except RequestFault Unit
  | some n => if n < 1 then .error (.noAttempts n) else .ok ()
  | none => .ok ()

/-- The payload is not too deep. -/
def checkPayload (request : Request) : Except RequestFault Unit :=
  if maxPayloadLevels < request.payloadLevels then .error (.deepPayload request.payloadLevels)
  else .ok ()

/-- **The first rule that the request breaks**, if any: the queue's name, the name of the kind of
work, the attempts, the payload. -/
def check (request : Request) : Except RequestFault Unit := do
  checkName .queue request.queue
  checkName .jobType request.jobType
  checkAttempts request.maxAttempts
  request.checkPayload

end Request

end JobQueue

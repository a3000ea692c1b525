import JobQueue.Job.Basic

/-! # Handlers

A handler does the work of one kind of job. It is told about the job's attempt (`JobContext`) and
ends in one of three ways (`Ending`); a worker that has waited too long stops it. Every way but
the first is a failed attempt, with a message (`verdict`).

* `Registry`: the handlers by kind of work, of each kind the last registered;
  `find?_register_self`, `find?_register_of_ne`. -/

namespace JobQueue

/-- **What a handler is told** besides the payload. -/
structure JobContext where
  jobId : JobId
  queue : QueueName
  jobType : JobType
  /-- The number of the attempt, from one. -/
  attempt : Int
  maxAttempts : Int
  /-- The time that the handler has. -/
  timeout : Duration
deriving DecidableEq, Repr

/-- The context of a claimed job; there is none when the attempts are beyond count. -/
def JobContext.ofJob (job : Job) (timeout : Duration) : Except Breakdown JobContext := do
  let attempt ← job.attempt
  return ⟨job.id, job.queue, job.jobType, attempt, job.maxAttempts, timeout⟩

/-- **How a handler ends.** -/
inductive Ending where
  | returned (result : Fields)
  | failed (message : String)
  /-- The handler broke off, with a text or without. -/
  | panicked (message : Option String)
deriving Repr

/-- The message of a handler that could not read its payload. -/
def payloadErrorMessage (text : String) : String := "payload error: " ++ text

/-- **The outcome of an attempt**: a result, or why it failed. No ending means that the time ran
out. -/
def verdict (limit : Duration) : Option Ending → Except String Fields
  | some (.returned result) => .ok result
  | some (.failed message) => .error message
  | some (.panicked message) => .error ("handler panicked: " ++ message.getD "Unknown panic")
  | none => .error ("handler timed out after " ++ limit.text)

/-! ### Registries -/

/-- **Handlers by kind of work**, in increasing order of the kinds. -/
structure Registry (Handler : Type) where
  entries : List (JobType × Handler)

namespace Registry

variable {Handler : Type}

def empty : Registry Handler := ⟨[]⟩

/-- The handler takes its place in an increasing list. -/
def insertSorted (jobType : JobType) (handler : Handler) :
    List (JobType × Handler) → List (JobType × Handler)
  | [] => [(jobType, handler)]
  | (k, h) :: rest =>
    if jobType < k then (jobType, handler) :: (k, h) :: rest
    else if jobType = k then (jobType, handler) :: rest
    else (k, h) :: insertSorted jobType handler rest

def register (registry : Registry Handler) (jobType : JobType) (handler : Handler) :
    Registry Handler :=
  ⟨insertSorted jobType handler registry.entries⟩

def lookup (jobType : JobType) : List (JobType × Handler) → Option Handler
  | [] => none
  | (k, h) :: rest => if jobType = k then some h else lookup jobType rest

def find? (registry : Registry Handler) (jobType : JobType) : Option Handler :=
  lookup jobType registry.entries

/-- The kinds of work with a handler. -/
def jobTypes (registry : Registry Handler) : List JobType := registry.entries.map (·.1)

theorem lookup_insertSorted (jobType other : JobType) (handler : Handler)
    (entries : List (JobType × Handler)) :
    lookup other (insertSorted jobType handler entries) =
      if other = jobType then some handler else lookup other entries := by
  induction entries with
  | nil => simp [insertSorted, lookup]
  | cons e rest ih =>
    obtain ⟨k, h⟩ := e
    unfold insertSorted
    split
    · simp [lookup]
    · split
      · rename_i hk
        subst hk
        by_cases ho : other = jobType <;> simp [lookup, ho]
      · rename_i hk
        by_cases ho : other = jobType
        · subst ho
          simp [lookup, hk, ih]
        · simp [lookup, ho, ih]

theorem find?_register_self (registry : Registry Handler) (jobType : JobType) (handler : Handler) :
    (registry.register jobType handler).find? jobType = some handler := by
  simp [find?, register, lookup_insertSorted]

theorem find?_register_of_ne (registry : Registry Handler) {jobType other : JobType}
    (handler : Handler) (h : other ≠ jobType) :
    (registry.register jobType handler).find? other = registry.find? other := by
  simp [find?, register, lookup_insertSorted, h]

end Registry

end JobQueue

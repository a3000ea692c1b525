import JobQueue.Error

/-! # The states of a job

A job waits (`pending`), is worked on (`running`), or has come to one of three ends. Each state
has a name, by which it is stored and shown.

* `ofName?_name`, `name_of_ofName?`: a name stands for exactly one state. -/

namespace JobQueue

/-- **The state of a job.** -/
inductive Status where
  | pending
  | running
  | completed
  | failed
  | cancelled
deriving DecidableEq, Repr

namespace Status

/-- All states, in the order of a job's life. -/
def all : List Status := [.pending, .running, .completed, .failed, .cancelled]

def name : Status → String
  | .pending => "pending"
  | .running => "running"
  | .completed => "completed"
  | .failed => "failed"
  | .cancelled => "cancelled"

/-- The state of that name; names are spelled exactly. -/
def ofName? (s : String) : Option Status :=
  all.find? fun status => status.name == s

/-- The state of that name, or the error that names it. -/
def ofName (s : String) : Except DomainError Status :=
  match ofName? s with
  | some status => .ok status
  | none => .error (.unknownStatus s)

/-- The job has come to an end; only pruning touches it again. -/
def isTerminal : Status → Bool
  | .completed | .failed | .cancelled => true
  | .pending | .running => false

@[simp] theorem ofName?_name (s : Status) : ofName? s.name = some s := by
  cases s <;> decide

theorem name_of_ofName? {t : String} {s : Status} (h : ofName? t = some s) : s.name = t := by
  have := List.find?_some h
  simpa using this

@[simp] theorem ofName_name (s : Status) : ofName s.name = .ok s := by
  simp [ofName]

theorem name_injective {s t : Status} (h : s.name = t.name) : s = t := by
  have := ofName?_name s
  rw [h, ofName?_name] at this
  exact (Option.some.inj this).symm

theorem mem_all (s : Status) : s ∈ all := by
  cases s <;> decide

end Status

end JobQueue

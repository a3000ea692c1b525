import JobQueue.Job.Basic
import JobQueue.Json.Reader
import JobQueue.Json.Writer
import JobQueue.Store.Sql.Value

/-! # Rows of the jobs table

A row holds a job as the database does: the state by its name, payload and result as JSON text,
counters and times in integer columns. Writing a job as a row always succeeds; a row read back may
be no job, when a column is missing or holds a value of another kind, a counter does not fit 32
bits, a text is no JSON object or nests too deep, or the state has no known name.

A statement finds its columns by their places, which it learns when it is prepared; a table that has
lost columns since then gives it those that follow.

* `Row.ofJob`, `Row.job`: `Row.job` reports the first fault in a fixed order: the columns from
  left to right, then payload, result and state.
* `Row.set`: a single column, as the column keeps the value. -/

namespace JobQueue.Sql

/-- The columns of the jobs table, from left to right. -/
inductive Column where
  | id | queue | jobType | payload | status | attempts | maxAttempts | scheduledAt | claimedBy
  | claimedAt | result | lastError | createdAt | updatedAt
deriving DecidableEq, Repr

namespace Column

def all : List Column :=
  [.id, .queue, .jobType, .payload, .status, .attempts, .maxAttempts, .scheduledAt, .claimedBy,
    .claimedAt, .result, .lastError, .createdAt, .updatedAt]

def name : Column → String
  | .id => "id"
  | .queue => "queue"
  | .jobType => "job_type"
  | .payload => "payload"
  | .status => "status"
  | .attempts => "attempts"
  | .maxAttempts => "max_attempts"
  | .scheduledAt => "scheduled_at"
  | .claimedBy => "claimed_by"
  | .claimedAt => "claimed_at"
  | .result => "result"
  | .lastError => "last_error"
  | .createdAt => "created_at"
  | .updatedAt => "updated_at"

def ofName? (s : String) : Option Column := all.find? fun c => c.name == s

end Column

/-- **A row.** -/
structure Row where
  id : String
  queue : String
  jobType : String
  payload : String
  status : String
  attempts : Value
  maxAttempts : Value
  scheduledAt : Value
  claimedBy : Option String
  claimedAt : Value
  result : Option String
  lastError : Option String
  createdAt : Value
  updatedAt : Value
deriving DecidableEq, Repr

namespace Row

/-- The row of a job. -/
def ofJob (job : Job) : Row where
  id := job.id
  queue := job.queue
  jobType := job.jobType
  payload := (Json.obj job.payload).text
  status := job.status.name
  attempts := .int job.attempts
  maxAttempts := .int job.maxAttempts
  scheduledAt := .int job.scheduledAt
  claimedBy := job.claimedBy
  claimedAt := .ofInt? job.claimedAt
  result := job.result.map fun fields => (Json.obj fields).text
  lastError := job.lastError
  createdAt := .int job.createdAt
  updatedAt := .int job.updatedAt

/-- The value in a column. -/
def value (row : Row) : Column → Value
  | .id => .text row.id
  | .queue => .text row.queue
  | .jobType => .text row.jobType
  | .payload => .text row.payload
  | .status => .text row.status
  | .attempts => row.attempts
  | .maxAttempts => row.maxAttempts
  | .scheduledAt => row.scheduledAt
  | .claimedBy => .ofText? row.claimedBy
  | .claimedAt => row.claimedAt
  | .result => .ofText? row.result
  | .lastError => .ofText? row.lastError
  | .createdAt => row.createdAt
  | .updatedAt => row.updatedAt

/-! ### Setting a single column -/

/-- **The row with one column set**, if the column can keep the value: most columns must have one.
-/
def set? (row : Row) (column : Column) (value : Value) : Option Row :=
  let number := value.inIntegerColumn
  let integer := if number.isNull then none else some number
  match column with
  | .id => value.inTextColumn.map fun s => { row with id := s }
  | .queue => value.inTextColumn.map fun s => { row with queue := s }
  | .jobType => value.inTextColumn.map fun s => { row with jobType := s }
  | .payload => value.inTextColumn.map fun s => { row with payload := s }
  | .status => value.inTextColumn.map fun s => { row with status := s }
  | .attempts => integer.map fun v => { row with attempts := v }
  | .maxAttempts => integer.map fun v => { row with maxAttempts := v }
  | .scheduledAt => integer.map fun v => { row with scheduledAt := v }
  | .claimedBy => some { row with claimedBy := value.inTextColumn }
  | .claimedAt => some { row with claimedAt := number }
  | .result => some { row with result := value.inTextColumn }
  | .lastError => some { row with lastError := value.inTextColumn }
  | .createdAt => integer.map fun v => { row with createdAt := v }
  | .updatedAt => integer.map fun v => { row with updatedAt := v }

end Row

end JobQueue.Sql

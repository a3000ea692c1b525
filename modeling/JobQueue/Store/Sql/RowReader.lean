import JobQueue.Store.Sql.Row

/-! # Reading rows as jobs

A statement learns the places of its columns when it is prepared, and reads a row by these places.
When the table loses a column afterwards, a name stands for the value that has moved to its place.

* `Places`: the columns at the preparation, and those of now.
* `Row.job`: the job of a row, or the first `RowFault`. -/

namespace JobQueue.Sql

/-- **What a column is read as.** -/
inductive Reading where
  /-- An integer of 32 bits. -/
  | counter
  /-- An integer of 64 bits. -/
  | time
  /-- An integer of 64 bits, or nothing. -/
  | optionalTime
  | text
  /-- A text, or nothing. -/
  | optionalText
deriving DecidableEq, Repr

namespace Reading

/-- What the values of a column are read as. -/
def ofColumn : Column → Reading
  | .attempts | .maxAttempts => .counter
  | .scheduledAt | .createdAt | .updatedAt => .time
  | .claimedAt => .optionalTime
  | .claimedBy | .result | .lastError => .optionalText
  | _ => .text

/-- The reading as messages name it: the type and the kind of value. -/
def typeName : Reading → String × String
  | .counter => ("i32", "INTEGER")
  | .time => ("i64", "INTEGER")
  | .optionalTime => ("core::option::Option<i64>", "INTEGER")
  | .text => ("alloc::string::String", "TEXT")
  | .optionalText => ("core::option::Option<alloc::string::String>", "TEXT")

/-- A value of the kind can be read so. Nothing can be read as anything. -/
def accepts : Reading → Value → Bool
  | _, .null => true
  | .text, .text _ | .optionalText, .text _ => true
  | .counter, .int _ | .time, .int _ | .optionalTime, .int _ => true
  | _, _ => false

end Reading

/-- Why a row is no job. -/
inductive RowFault where
  /-- The table has no such column. -/
  | missing (column : Column)
  /-- The row ends before the place of a column. -/
  | beyond (length place : Nat)
  /-- The value has another kind than the column is read as. -/
  | mismatch (column : Column) (value : Value)
  /-- The integer is beyond 32 bits, above or below. -/
  | outOfRange (column : Column) (above : Bool)
  /-- The text of the payload or the result is no object. -/
  | notAnObject (text : String)
  | unknownStatus (text : String)
deriving DecidableEq, Repr

namespace RowFault

/-- A fault in reading one column. -/
def decodingError (column : Column) (text : String) : JobError :=
  .database ("error occurred while decoding column \"" ++ column.name ++ "\": " ++ text)

def toError : RowFault → JobError
  | .missing column => .database ("Column not found: " ++ column.name)
  | .beyond length place => .breakdown (.outOfBounds length place)
  | .mismatch column value =>
    let (type, kind) := (Reading.ofColumn column).typeName
    decodingError column
      ("mismatched types; Rust type `" ++ type ++ "` (as SQL type `" ++ kind ++
        "`) is not compatible with SQL type `" ++ value.kindName ++ "`")
  | .outOfRange column above =>
    decodingError column
      ("number too " ++ (if above then "large" else "small") ++ " to fit in target type")
  | .notAnObject text => .serialization (.unread text)
  | .unknownStatus text => .domain (.unknownStatus text)

end RowFault

/-- **The columns of a statement**: those that its table had at the preparation, by which the
places are known, and those that it has now. -/
structure Places where
  prepared : List Column
  present : List Column
deriving DecidableEq, Repr

/-- The places of a statement that is prepared now. -/
def Places.now (columns : List Column) : Places := ⟨columns, columns⟩

namespace Row

/-- The value that a statement reads for a column. -/
def cell (places : Places) (row : Row) (column : Column) : Except RowFault Value :=
  match places.prepared.findIdx? (· = column) with
  | none => .error (.missing column)
  | some i =>
    match places.present[i]? with
    | none => .error (.beyond places.present.length i)
    | some there => .ok (row.value there)

/-- The value of a column, of a kind that the column is read as. -/
def read (places : Places) (row : Row) (column : Column) : Except RowFault Value := do
  let value ← row.cell places column
  if (Reading.ofColumn column).accepts value then return value
  else throw (.mismatch column value)

/-- A text; nothing is read as the empty text. -/
def readText (places : Places) (row : Row) (column : Column) : Except RowFault String := do
  match ← row.read places column with
  | .text s => return s
  | _ => return ""

def readText? (places : Places) (row : Row) (column : Column) :
    Except RowFault (Option String) := do
  match ← row.read places column with
  | .text s => return some s
  | _ => return none

/-- An integer; nothing is read as zero. -/
def readInt (places : Places) (row : Row) (column : Column) : Except RowFault Int := do
  match ← row.read places column with
  | .int n => return n
  | _ => return 0

def readInt? (places : Places) (row : Row) (column : Column) : Except RowFault (Option Int) := do
  match ← row.read places column with
  | .int n => return some n
  | _ => return none

/-- A counter fits 32 bits. -/
def readCounter (places : Places) (row : Row) (column : Column) : Except RowFault Int := do
  let n ← row.readInt places column
  if n < -2147483648 then throw (.outOfRange column false)
  else if 2147483647 < n then throw (.outOfRange column true)
  else return n

/-- The object of a text. -/
def fieldsOf (text : String) : Except RowFault Fields :=
  match Json.parseFields? text with
  | some fields => .ok fields
  | none => .error (.notAnObject text)

/-- The object of a text that may be missing. -/
def fieldsOf? : Option String → Except RowFault (Option Fields)
  | some text => (fieldsOf text).map some
  | none => .ok none

def statusOf (text : String) : Except RowFault Status :=
  match Status.ofName? text with
  | some status => .ok status
  | none => .error (.unknownStatus text)

/-- **The job of a row**, read by a statement. -/
def job (places : Places) (row : Row) : Except RowFault Job := do
  let id ← row.readText places .id
  let queue ← row.readText places .queue
  let jobType ← row.readText places .jobType
  let payload ← row.readText places .payload
  let status ← row.readText places .status
  let attempts ← row.readCounter places .attempts
  let maxAttempts ← row.readCounter places .maxAttempts
  let scheduledAt ← row.readInt places .scheduledAt
  let claimedBy ← row.readText? places .claimedBy
  let claimedAt ← row.readInt? places .claimedAt
  let result ← row.readText? places .result
  let lastError ← row.readText? places .lastError
  let createdAt ← row.readInt places .createdAt
  let updatedAt ← row.readInt places .updatedAt
  let payload ← fieldsOf payload
  let result ← fieldsOf? result
  let status ← statusOf status
  return {
    id := id, queue := queue, jobType := jobType, payload := payload, status := status
    attempts := attempts, maxAttempts := maxAttempts, scheduledAt := scheduledAt
    claimedBy := claimedBy, claimedAt := claimedAt, result := result, lastError := lastError
    createdAt := createdAt, updatedAt := updatedAt }

end Row

end JobQueue.Sql

import JobQueue.Store.Sql.Value

/-! # Cells of pages

A database file is made of pages of one size. A record is a list of values; it is kept as a cell on
a page, and what is too long for its page goes on in a chain of further pages. A cell knows its key
and its sizes, not its bytes.

* `recordBytes`: the length of a record.
* `Cell.ofRow`, `Cell.ofEntry`: the cell of a table's row and that of an index's entry. -/

namespace JobQueue.Sql

/-- The bytes of a page. -/
def pageBytes : Nat := 4096

/-- The bytes of a chain's page that hold a part of a record. -/
def chainBytes : Nat := 4092

/-- The bytes of a number in groups of seven bits. -/
def groupBytes (n : Nat) : Nat := min 9 (if n = 0 then 1 else n.log2 / 7 + 1)

/-- The bytes of an integer. The numbers zero and one need none. -/
def intBytes (n : Int) : Nat :=
  let magnitude := if n < 0 then (-n - 1).toNat else n.toNat
  if n = 0 ∨ n = 1 then 0
  else if magnitude ≤ 127 then 1
  else if magnitude ≤ 32767 then 2
  else if magnitude ≤ 8388607 then 3
  else if magnitude ≤ 2147483647 then 4
  else if magnitude ≤ 140737488355327 then 6
  else 8

namespace Value

/-- The bytes of a value. -/
def bytes : Value → Nat
  | .null => 0
  | .int n => intBytes n
  | .real _ => 8
  | .text s => s.utf8ByteSize

/-- The bytes that say the kind and the length of a value. -/
def headBytes : Value → Nat
  | .text s => groupBytes (13 + 2 * s.utf8ByteSize)
  | _ => 1

end Value

/-- **The bytes of a record**: its head, which starts with its own length, and its values. -/
def recordBytes (values : List Value) : Nat :=
  let head := values.foldl (fun n value => n + value.headBytes) 0
  let head := head + groupBytes head
  let head := if groupBytes head = 1 ∨ 129 ≤ head then head else head + 1
  values.foldl (fun n value => n + value.bytes) head

/-- **A cell.** -/
structure Cell where
  /-- By the key the cells are in order. -/
  key : List Value
  /-- The bytes of the record. -/
  record : Nat
  /-- The bytes on the page. -/
  size : Nat
  /-- The pages of the chain. -/
  chain : Nat
deriving DecidableEq, Repr

namespace Cell

/-- The least part of a record that stays on the page. -/
def leastLocal : Nat := 489

/-- The part of a record that stays on the page, which holds `most` bytes of it at most. The pages
of the chain are filled. -/
def localBytes (record most : Nat) : Nat :=
  if record ≤ most then record
  else
    let filled := leastLocal + (record - leastLocal) % chainBytes
    if filled ≤ most then filled else leastLocal

/-- A cell with bytes in front of the record. -/
def make (key : List Value) (record head most : Nat) : Cell :=
  let here := localBytes record most
  let chain := (record - here + (chainBytes - 1)) / chainBytes
  ⟨key, record, max 4 (head + here + if chain = 0 then 0 else 4), chain⟩

/-- The cell of a row with a number. -/
def ofRow (number : Nat) (values : List Value) : Cell :=
  let record := recordBytes values
  make [.int number] record (groupBytes record + groupBytes number) 4061

/-- The cell of an entry of an index, which ends with the number of the row. -/
def ofEntry (values : List Value) (number : Nat) : Cell :=
  let key := values ++ [.int number]
  let record := recordBytes key
  make key record (groupBytes record) 1002

/-- What divides two pages of rows: a number alone. -/
def divider (key : List Value) : Cell :=
  match key with
  | [.int n] => ⟨key, 0, groupBytes n.toNat, 0⟩
  | _ => ⟨key, 0, 0, 0⟩

end Cell

end JobQueue.Sql

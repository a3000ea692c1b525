import JobQueue.Store.Sql.Row
import JobQueue.Store.Sql.Tree

/-! # Pages of the jobs table

The jobs table occupies a tree of rows, in which each row has a number, and a tree of entries for
its key and for each of its indexes. A change of rows is a change of these trees; it may find no
room.

* `Pages.insert`, `Pages.update`, `Pages.delete`: one row.
* `Pages.count`: the pages that the table occupies. -/

namespace JobQueue.Sql

/-- **The trees of the jobs table.** -/
structure Pages where
  /-- The number of each row, by its id. -/
  numbers : List (String × Nat)
  rows : Tree
  /-- For the key and for each index its columns and its entries, the latest first. -/
  entries : List (List Column × Tree)
deriving Repr

namespace Pages

/-- The pages that the table occupies. -/
def count (p : Pages) : Nat := p.entries.foldl (fun n entries => n + entries.2.pages) p.rows.pages

/-- The trees of a table without rows. -/
def empty : Pages := ⟨[], .empty, [([.id], .empty)]⟩

/-- The trees of a new table. -/
def create : Paging Pages := do
  Paging.takeMany empty.count
  return empty

/-- The number of a row. -/
def number (p : Pages) (id : String) : Nat :=
  ((p.numbers.find? fun n => n.1 == id).map (·.2)).getD 0

/-- The number of the next row. -/
def nextNumber (p : Pages) : Nat := (p.numbers.map (·.2)).foldl max 0 + 1

/-- The values of a row of a table with these columns. -/
def values (columns : List Column) (row : Row) : List Value := columns.map row.value

/-- The entry of a row in an index. -/
def entry (columns : List Column) (row : Row) (number : Nat) : Cell :=
  .ofEntry (values columns row) number

/-- Every tree of entries is changed in turn. -/
def onEntries (change : List Column → Tree → Paging Tree) (p : Pages) : Paging Pages := do
  let entries ← p.entries.mapM fun (columns, tree) => do
    return (columns, ← change columns tree)
  return { p with entries := entries }

/-- **A new row** of a table with these columns. -/
def insert (columns : List Column) (row : Row) (p : Pages) : Paging Pages := do
  let n := p.nextNumber
  let p ← onEntries (fun cs tree => tree.insert false (entry cs row n)) p
  let rows ← p.rows.insert true (.ofRow n (values columns row))
  return { p with rows := rows, numbers := p.numbers ++ [(row.id, n)] }

/-- **A changed row.** The entries of the indexes with a column that the change names are all
taken out before any is put in. -/
def update (columns changed : List Column) (old new : Row) (p : Pages) : Paging Pages := do
  let n := p.number old.id
  let concerned (cs : List Column) : Bool := cs.any changed.contains
  let p ← onEntries
    (fun cs tree => if concerned cs then tree.erase false (entry cs old n).key else return tree) p
  let p ← onEntries
    (fun cs tree => if concerned cs then tree.insert false (entry cs new n) else return tree) p
  let rows ← p.rows.replace true (.ofRow n (values columns new))
  return { p with
    rows := rows
    numbers := p.numbers.map fun m => if m.2 = n then (new.id, n) else m }

/-- **A removed row**, which was found by an index: its entry there goes last. -/
def delete (found : List Column) (row : Row) (p : Pages) : Paging Pages := do
  let n := p.number row.id
  let without (cs : List Column) (tree : Tree) := tree.erase false (entry cs row n).key
  let p ← onEntries (fun cs tree => if cs = found then return tree else without cs tree) p
  let rows ← p.rows.erase true [.int n]
  let p ← onEntries (fun cs tree => if cs = found then without cs tree else return tree) p
  return { p with rows := rows, numbers := p.numbers.filter fun m => m.2 ≠ n }

/-- Every row is written anew, for a table with these columns. -/
def replaceRows (columns : List Column) (rows : List Row) (p : Pages) : Paging Pages := do
  let tree ← rows.foldlM
    (fun (tree : Tree) row => tree.replace true (.ofRow (p.number row.id) (values columns row)))
    p.rows
  return { p with rows := tree }

/-- A new index gets the entries of the rows. -/
def addIndex (columns : List Column) (rows : List Row) (p : Pages) : Paging Pages := do
  Paging.take
  let tree ← rows.foldlM
    (fun (tree : Tree) row => tree.insert false (entry columns row (p.number row.id))) .empty
  return { p with entries := (columns, tree) :: p.entries }

end Pages

end JobQueue.Sql

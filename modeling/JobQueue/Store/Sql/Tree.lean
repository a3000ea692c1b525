import JobQueue.Store.Sql.Cell

/-! # Trees of pages

Cells are kept in order of their keys in a balanced tree whose nodes are pages. A tree of rows has
its rows on the lowest pages, and numbers of rows divide these; a tree of entries has entries on
all pages. A page that is given more than it holds, or is left with little, is balanced: its cells
are distributed anew over it and the pages beside it, up to three in all.

Pages come from a `Space`: from those that were given up, else from the end of the file, unless it
may not grow.

* `Tree.insert`, `Tree.replace`, `Tree.erase`: they change the tree and the space, or there is no
  room.
* `Tree.pages`: the pages that a tree occupies. -/

namespace JobQueue.Sql

/-! ### Space -/

/-- **The pages that a file has to give.** -/
structure Space where
  /-- The pages that were given up. -/
  free : Nat
  /-- The file can grow no more. -/
  bounded : Bool
deriving DecidableEq, Repr

/-- A change of the pages of a file; there is none when the room is not enough. -/
abbrev Paging := StateT Space Option

namespace Paging

/-- A page is taken. -/
def take : Paging Unit := fun space =>
  if 0 < space.free then some ((), { space with free := space.free - 1 })
  else if space.bounded then none
  else some ((), space)

/-- Pages are taken. -/
def takeMany : Nat → Paging Unit
  | 0 => pure ()
  | n + 1 => do
    take
    takeMany n

/-- Pages are given up. -/
def giveUp (n : Nat) : Paging Unit := modify fun space => { space with free := space.free + n }

end Paging

/-! ### Trees -/

/-- **A page with the pages below it**: of these there are none, or one more than cells. -/
inductive Tree where
  | page (cells : List Cell) (lower : List Tree)
deriving Repr

namespace Tree

def cells : Tree → List Cell
  | .page cells _ => cells

def lower : Tree → List Tree
  | .page _ lower => lower

/-- A page without cells. -/
def empty : Tree := .page [] []

def isLowest (t : Tree) : Bool := t.lower.isEmpty

/-- The bytes of a page that cells can use. -/
def room (lowest : Bool) : Nat := if lowest then pageBytes - 8 else pageBytes - 12

/-- The bytes that a cell takes; above the lowest pages it also has the place of a page. -/
def load (lowest : Bool) (cell : Cell) : Nat := cell.size + if lowest then 2 else 6

/-- The bytes that the cells of a page take. -/
def used (t : Tree) : Nat := t.cells.foldl (fun n cell => n + load t.isLowest cell) 0

/-- The page has more than it holds. -/
def isOver (t : Tree) : Bool := room t.isLowest < t.used

/-- Less than a third of the page is used. -/
def isSparse (t : Tree) : Bool := 2 * pageBytes < 3 * (room t.isLowest - t.used)

mutual

/-- The pages of the tree, chains included. -/
def pages : Tree → Nat
  | .page cells lower => cells.foldl (fun n cell => n + cell.chain) 1 + pagesBelow lower

def pagesBelow : List Tree → Nat
  | [] => 0
  | t :: rest => pages t + pagesBelow rest

end

/-! ### Distribution -/

/-- **A distribution of cells over pages**: for each page the place after its last cell, and the
bytes that it uses. When the pages are not the lowest of a tree of rows, the cell at the place
after the last is not on a page but divides it from the next. -/
structure Layout where
  cuts : Array Nat
  loads : Array Int
  count : Nat
deriving Repr

namespace Layout

def cut (l : Layout) (i : Nat) : Nat := l.cuts[i]?.getD 0

def bytes (l : Layout) (i : Nat) : Int := l.loads[i]?.getD 0

def put (l : Layout) (i cut : Nat) (bytes : Int) : Layout :=
  { l with cuts := l.cuts.setIfInBounds i cut, loads := l.loads.setIfInBounds i bytes }

/-- What is fixed while cells are distributed. -/
structure Plan where
  /-- The bytes that each cell takes. -/
  sizes : Array Nat
  room : Nat
  /-- The pages are the lowest of a tree of rows. -/
  rows : Bool

def Plan.size (p : Plan) (j : Nat) : Int := p.sizes[j]?.getD 0

/-- The bytes that the next page gets or loses when the cell at a place becomes its first or
divides it. -/
def Plan.passed (p : Plan) (l : Layout) (i : Nat) (moved : Int) : Int :=
  if p.rows then moved else if l.cut i < p.sizes.size then p.size (l.cut i) else 0

/-- There is a page after page `i`. -/
def extended (p : Plan) (l : Layout) (i : Nat) : Layout :=
  if i + 1 < l.count then l
  else
    let l := { l with count := i + 2 }
    if i + 1 < l.cuts.size then l.put (i + 1) p.sizes.size 0
    else { l with cuts := l.cuts.push p.sizes.size, loads := l.loads.push 0 }

/-- The last cells of page `i` go to the next page until the rest fits. -/
def shrink (p : Plan) (i : Nat) : Nat → Layout → Layout
  | 0, l => l
  | fuel + 1, l =>
    if l.bytes i ≤ p.room then l
    else
      let l := extended p l i
      let moved := p.size (l.cut i - 1)
      let passed := p.passed l i moved
      let l := l.put i (l.cut i - 1) (l.bytes i - moved)
      shrink p i fuel (l.put (i + 1) (l.cut (i + 1)) (l.bytes (i + 1) + passed))

/-- The next cells come to page `i` as long as they fit. -/
def grow (p : Plan) (i : Nat) : Nat → Layout → Layout
  | 0, l => l
  | fuel + 1, l =>
    let moved := p.size (l.cut i)
    if p.sizes.size ≤ l.cut i ∨ p.room < l.bytes i + moved then l
    else
      let l := l.put i (l.cut i + 1) (l.bytes i + moved)
      let passed := p.passed l i moved
      grow p i fuel (l.put (i + 1) (l.cut (i + 1)) (l.bytes (i + 1) - passed))

/-- The pages are filled from the left; `fuel` bounds their number. -/
def fill (p : Plan) : Nat → Nat → Layout → Layout
  | 0, _, l => l
  | fuel + 1, i, l =>
    if l.count ≤ i then l
    else
      let steps := p.sizes.size + 1
      let l := grow p i steps (shrink p i steps l)
      fill p fuel (i + 1) (if p.sizes.size ≤ l.cut i then { l with count := i + 1 } else l)

/-- The last cells of the page before page `i` come to page `i` while that makes the two more
alike. -/
def level (p : Plan) (i : Nat) : Nat → Layout → Layout
  | 0, l => l
  | fuel + 1, l =>
    let last := l.cut (i - 1) - 1
    let come := p.size (last + if p.rows then 0 else 1)
    let gone := p.size last - if i = l.count - 1 then 2 else 0
    if l.bytes i ≠ 0 ∧ l.bytes (i - 1) - gone < l.bytes i + come then l
    else
      let l := l.put i (l.cut i) (l.bytes i + come)
      let l := l.put (i - 1) last (l.bytes (i - 1) - p.size last)
      if last = 0 then l else level p i fuel l

/-- The pages are made alike from the right. -/
def levelAll (p : Plan) : Nat → Layout → Layout
  | 0, l => l
  | i + 1, l => if i = 0 then l else levelAll p i (level p i (p.sizes.size + 1) l)

/-- **The distribution** of cells that are on pages already. -/
def distribute (p : Plan) (start : Layout) : Layout :=
  let l := fill p (start.count + p.sizes.size) 0 start
  levelAll p l.count l

end Layout

/-! ### Balancing -/

/-- The cells of the pages with the cells between them. -/
def joined : List Tree → List Cell → List Cell
  | [], _ => []
  | [t], _ => t.cells
  | t :: rest, d :: ds => t.cells ++ d :: joined rest ds
  | t :: rest, [] => t.cells ++ joined rest []

/-- The places after the last cells of the pages, `skip` cells dividing two pages. -/
def cutsOf (skip : Nat) : Nat → List Tree → List Nat
  | _, [] => []
  | n, t :: rest => (n + t.cells.length) :: cutsOf skip (n + t.cells.length + skip) rest

/-- The pages of cells that are distributed, and the cells that divide the pages. -/
def split (rows : Bool) : List Nat → Nat → List Cell → List Tree → List Tree × List Cell
  | [], _, _, _ => ([], [])
  | [_], _, cells, lower => ([.page cells lower], [])
  | cut :: cuts, start, cells, lower =>
    let mine := cells.take (cut - start)
    let rest := cells.drop (cut - start)
    let kept := if lower.isEmpty then 0 else mine.length + 1
    let (divider, skip) :=
      if rows then ((mine.getLast?.map fun c => Cell.divider c.key), 0) else (rest.head?, 1)
    let (trees, dividers) :=
      split rows cuts (cut + skip) (rest.drop skip) (lower.drop kept)
    (.page mine (lower.take kept) :: trees, divider.toList ++ dividers)

/-- The pages get their cells anew. -/
def redistribute (rows : Bool) (old : List Tree) (dividers : List Cell) :
    Paging (List Tree × List Cell) := do
  let lowest := (old.head?.map isLowest).getD true
  let plain := rows && lowest
  let cells := if plain then old.flatMap Tree.cells else joined old dividers
  let plan : Layout.Plan := ⟨(cells.map (load lowest)).toArray, room lowest, plain⟩
  let start : Layout :=
    ⟨(cutsOf (if plain then 0 else 1) 0 old).toArray,
      (old.map fun t => (t.used : Int)).toArray, old.length⟩
  let l := Layout.distribute plan start
  Paging.takeMany (l.count - old.length)
  Paging.giveUp (old.length - l.count)
  return split plain ((l.cuts.toList).take l.count) 0 cells (old.flatMap Tree.lower)

/-- The first of the pages that are balanced together with page `i` of a page with so many
dividing cells. -/
def firstSibling (dividers i : Nat) : Nat :=
  if dividers < 2 ∨ i = 0 then 0 else if i = dividers then dividers - 2 else i - 1

/-- Page `i` below a page is balanced with the pages beside it. When the root is left without cells
the page below takes its place. -/
def balanceBelow (rows isRoot : Bool) (i : Nat) : Tree → Paging Tree
  | .page cells lower => do
    let first := firstSibling cells.length i
    let count := min 3 (cells.length + 1)
    let (trees, dividers) ← redistribute rows ((lower.drop first).take count)
      ((cells.drop first).take (count - 1))
    let cells := cells.take first ++ dividers ++ cells.drop (first + count - 1)
    let lower := lower.take first ++ trees ++ lower.drop (first + count)
    match isRoot && cells.isEmpty, lower with
    | true, [t] => do
      Paging.giveUp 1
      return t
    | _, _ => return .page cells lower

/-- The last page of rows has got one row too many at its end: the row begins a new page. -/
def extend : Tree → Paging Tree
  | .page cells lower => do
    Paging.take
    match lower.getLast? with
    | some (.page rows _) =>
      let divider := rows.dropLast.getLast?.map fun c => Cell.divider c.key
      return .page (cells ++ divider.toList)
        (lower.dropLast ++ [.page rows.dropLast [], .page (rows.drop (rows.length - 1)) []])
    | none => return .page cells lower

/-- What a change did to a page: nothing that concerns the page above, or perhaps more; then also
whether its last cell is new. -/
inductive Touched where
  | no
  | yes (atEnd : Bool)
deriving DecidableEq, Repr

/-- Page `i` below a page was changed: it is balanced if it has to be. The answer says whether the
page above is concerned. -/
def settle (rows isRoot : Bool) (i : Nat) (touched : Touched) (t : Tree) :
    Paging (Tree × Touched) :=
  match touched, t.lower[i]? with
  | .yes atEnd, some child =>
    if child.isOver then do
      if rows && child.isLowest && atEnd && i == t.cells.length then
        return (← extend t, .yes false)
      else return (← balanceBelow rows isRoot i t, .yes false)
    else if child.isSparse then do
      return (← balanceBelow rows isRoot i t, .yes false)
    else return (t, .no)
  | _, _ => return (t, .no)

/-- The root was changed: when it has too much, its cells go to a new page below it. -/
def settleRoot (rows : Bool) (touched : Touched) (t : Tree) : Paging Tree :=
  match touched with
  | .no => return t
  | .yes _ =>
    if t.isOver then do
      Paging.take
      let (t, _) ← settle rows true 0 touched (.page [] [t])
      return t
    else return t

/-! ### Operations -/

/-- The place of a key among cells: the number of smaller keys. -/
def place (key : List Value) (cells : List Cell) : Nat :=
  (cells.takeWhile fun c => Value.lexLt c.key key).length

/-- The cell has the key. -/
def hasKey (key : List Value) (cell : Cell) : Bool :=
  !Value.lexLt cell.key key && !Value.lexLt key cell.key

/-- A change of a lowest page, carried up: `fuel` bounds the height of the tree. -/
def descend (rows : Bool) (key : List Value)
    (change : List Cell → Nat → Paging (List Cell × Touched)) :
    Nat → Bool → Tree → Paging (Tree × Touched)
  | 0, _, t => return (t, .no)
  | fuel + 1, isRoot, .page cells lower =>
    let i := place key cells
    match lower[i]? with
    | none => do
      let (cells, touched) ← change cells i
      return (.page cells [], touched)
    | some child => do
      let (child, touched) ← descend rows key change fuel false child
      settle rows isRoot i touched (.page cells (lower.set i child))

/-- The height that no tree passes. -/
def height : Nat := 30

/-- A page that got a cell at a place, and whether that concerns the page above. -/
def touch (cells : List Cell) (i : Nat) : Touched :=
  if Tree.isOver (.page cells []) then .yes (i + 1 == cells.length) else .no

/-- **A new cell.** -/
def insert (rows : Bool) (cell : Cell) (t : Tree) : Paging Tree := do
  Paging.takeMany cell.chain
  let (t, touched) ← descend rows cell.key
    (fun cells i =>
      let cells := cells.take i ++ cell :: cells.drop i
      return (cells, touch cells i)) height true t
  settleRoot rows touched t

/-- **A cell in place of the one with its key.** A record of the same length is written where the
old one is; else the new one has its chain before the old one is given up. -/
def replace (rows : Bool) (cell : Cell) (t : Tree) : Paging Tree := do
  let (t, touched) ← descend rows cell.key
    (fun cells i =>
      match cells[i]? with
      | none => return (cells, .no)
      | some old =>
        if old.record = cell.record then return (cells.set i cell, .no)
        else do
          Paging.takeMany cell.chain
          Paging.giveUp old.chain
          return (cells.set i cell, touch (cells.set i cell) i)) height true t
  settleRoot rows touched t

/-- The last cell of the tree is taken out. -/
def takeLast (rows : Bool) : Nat → Tree → Paging (Tree × Touched × Option Cell)
  | 0, t => return (t, .no, none)
  | fuel + 1, .page cells lower =>
    match lower.getLast? with
    | none => return (.page cells.dropLast [], .yes false, cells.getLast?)
    | some child => do
      let (child, touched, cell) ← takeLast rows fuel child
      let (t, touched) ← settle rows false (lower.length - 1) touched
        (.page cells (lower.dropLast ++ [child]))
      return (t, touched, cell)

/-- The cell of a key is taken out, below a page. A cell above the lowest pages is replaced by the
one before it. -/
def eraseBelow (rows : Bool) (key : List Value) : Nat → Bool → Tree → Paging (Tree × Touched)
  | 0, _, t => return (t, .no)
  | fuel + 1, isRoot, .page cells lower =>
    let i := place key cells
    let found := (cells[i]?).filter (hasKey key)
    match lower[i]?, found with
    | none, none => return (.page cells [], .no)
    | none, some cell => do
      Paging.giveUp cell.chain
      return (.page (cells.eraseIdx i) [], .yes false)
    | some child, found =>
      match if rows then none else found with
      | none => do
        let (child, touched) ← eraseBelow rows key fuel false child
        settle rows isRoot i touched (.page cells (lower.set i child))
      | some cell => do
        Paging.giveUp cell.chain
        let (child, touched, last) ← takeLast rows fuel child
        let (t, _) ← settle rows isRoot i touched
          (.page (cells.set i (last.getD cell)) (lower.set i child))
        return (t, .yes false)

/-- **The cell of a key is removed.** -/
def erase (rows : Bool) (key : List Value) (t : Tree) : Paging Tree := do
  let (t, touched) ← eraseBelow rows key height true t
  settleRoot rows touched t

end Tree

end JobQueue.Sql

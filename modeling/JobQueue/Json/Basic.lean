import JobQueue.Decimal.Binary64

/-! # JSON values

A value is `null`, a truth value, an integer, a binary64 number, a text, a list or an object. The
members of an object are a list of named values; `put` keeps it in increasing order of the names
with one member a name, so equal objects are equal lists. Integers and floating-point numbers are
told apart: `100` and `100.0` differ.

* `Fields.put`, `Fields.get?`: `get?_put_self`, `get?_put_of_ne`.
* `depth`: the longest chain of nested lists and objects, the value's own container included. -/

namespace JobQueue

/-- **A JSON value.** -/
inductive Json where
  | null
  | bool (b : Bool)
  | int (n : Int)
  | float (x : Binary64)
  | str (s : String)
  | arr (items : List Json)
  | obj (fields : List (String × Json))
deriving Repr

/-- The members of an object. -/
abbrev Fields := List (String × Json)

namespace Fields

/-- **The member is set**, in its place by name; an earlier value of that name is replaced. -/
def put (name : String) (value : Json) : Fields → Fields
  | [] => [(name, value)]
  | (k, v) :: rest =>
    if name < k then (name, value) :: (k, v) :: rest
    else if name = k then (name, value) :: rest
    else (k, v) :: put name value rest

/-- The value of a member. -/
def get? (name : String) : Fields → Option Json
  | [] => none
  | (k, v) :: rest => if name = k then some v else get? name rest

/-- The members in their order by name, of each name the last. -/
def ofList (members : List (String × Json)) : Fields :=
  members.foldl (fun fs m => put m.1 m.2 fs) []

theorem get?_put_self (name : String) (value : Json) (fs : Fields) :
    get? name (put name value fs) = some value := by
  induction fs with
  | nil => simp [put, get?]
  | cons m rest ih =>
    obtain ⟨k, v⟩ := m
    unfold put
    split
    · simp [get?]
    · split
      · simp [get?]
      · rename_i h
        simp [get?, h, ih]

theorem get?_put_of_ne {name other : String} (value : Json) (fs : Fields) (h : other ≠ name) :
    get? other (put name value fs) = get? other fs := by
  induction fs with
  | nil => simp [put, get?, h]
  | cons m rest ih =>
    obtain ⟨k, v⟩ := m
    unfold put
    split
    · simp [get?, h]
    · split
      · rename_i hk
        subst hk
        simp [get?, h]
      · simp [get?, ih]

end Fields

namespace Json

/-- The object with these members. -/
def ofFields (members : List (String × Json)) : Json := .obj (Fields.ofList members)

/-- A value that may be missing; `null` stands for none. -/
def ofOption {α : Type} (f : α → Json) : Option α → Json
  | some a => f a
  | none => .null

mutual

/-- **The nesting depth.** A scalar has none; a list or an object is one deeper than the deepest
value in it. -/
def depth : Json → Nat
  | .arr items => depthItems items + 1
  | .obj fields => depthFields fields + 1
  | _ => 0

/-- The depth of the deepest value of a list. -/
def depthItems : List Json → Nat
  | [] => 0
  | v :: rest => max (depth v) (depthItems rest)

/-- The depth of the deepest member of an object. -/
def depthFields : List (String × Json) → Nat
  | [] => 0
  | (_, v) :: rest => max (depth v) (depthFields rest)

end

mutual

/-- No floating-point number occurs in the value. -/
def floatFree : Json → Bool
  | .float _ => false
  | .arr items => floatFreeItems items
  | .obj fields => floatFreeFields fields
  | _ => true

/-- No floating-point number occurs in the list. -/
def floatFreeItems : List Json → Bool
  | [] => true
  | v :: rest => floatFree v && floatFreeItems rest

/-- No floating-point number occurs in the members. -/
def floatFreeFields : List (String × Json) → Bool
  | [] => true
  | (_, v) :: rest => floatFree v && floatFreeFields rest

end

@[simp] theorem depth_arr (items : List Json) : depth (.arr items) = depthItems items + 1 := by
  simp [depth]

@[simp] theorem depth_obj (fields : Fields) : depth (.obj fields) = depthFields fields + 1 := by
  simp [depth]

end Json

end JobQueue

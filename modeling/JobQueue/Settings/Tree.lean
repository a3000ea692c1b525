import JobQueue.Breakdown
import JobQueue.Settings.Name
import JobQueue.Settings.Value

/-! # Trees of settings

Settings that are given one by one form a tree: a setting is a value, a list or a table of further
settings. A setting that is put into the tree makes room for itself. What stands in its way is
replaced by a table or by a list, and a list grows up to its place, with entries that miss.

* `SettingTree.put`: the tree with a setting.
* `SettingTree.member?`: a part by its name. -/

namespace JobQueue

/-- **A tree of settings.** -/
inductive SettingTree where
  /-- An entry of a list that was not given. -/
  | missing
  | value (v : SettingValue)
  | list (entries : List SettingTree)
  | table (members : List (String × SettingTree))

namespace SettingTree

/-- The tree of a text, of a setting that is a list or is none. -/
def ofText (isList : Bool) (s : String) : SettingTree :=
  match SettingValue.classify s with
  | .text s =>
    if isList then .list ((SettingValue.parts s).map fun part => .value (.text part))
    else .value (.text s)
  | v => .value v

/-- The parts with names; a tree of another kind has none. -/
def members : SettingTree → List (String × SettingTree)
  | .table members => members
  | _ => []

/-- The entries; a tree of another kind has none. -/
def entries : SettingTree → List SettingTree
  | .list entries => entries
  | _ => []

def lookup (name : String) : List (String × SettingTree) → Option SettingTree
  | [] => none
  | (k, t) :: rest => if k = name then some t else lookup name rest

def replace (name : String) (tree : SettingTree) :
    List (String × SettingTree) → List (String × SettingTree)
  | [] => [(name, tree)]
  | (k, t) :: rest => if k = name then (k, tree) :: rest else (k, t) :: replace name tree rest

/-- A part by its name. -/
def member? (tree : SettingTree) (name : String) : Option SettingTree := lookup name tree.members

/-- The place in a list of a length that a number stands for. -/
def placeOf (length : Nat) (n : Int) : Except Breakdown Nat :=
  if 0 ≤ n then .ok n.toNat
  else if n.natAbs ≤ length then .ok (length - n.natAbs)
  else .error .difference

/-- The greatest length of a list of settings. -/
def maxLength : Nat := 96076792050570581

/-- The list, long enough to have an entry at the place. -/
def grow (entries : List SettingTree) (place : Nat) : Except Breakdown (List SettingTree) :=
  if place < entries.length then .ok entries
  else if maxLength < place + 1 then .error .capacity
  else .ok (entries ++ List.replicate (place + 1 - entries.length) .missing)

/-- **The tree with a setting** at the end of the steps. -/
def put (new : SettingTree) : List SettingStep → SettingTree → Except Breakdown SettingTree
  | [], _ => .ok new
  | .member name :: steps, tree => do
    let part ← put new steps ((tree.member? name).getD .missing)
    return .table (replace name part tree.members)
  | .entry n :: steps, tree => do
    let place ← placeOf tree.entries.length n
    let entries ← grow tree.entries place
    let part ← put new steps (entries[place]?.getD .missing)
    return .list (entries.set place part)

/-- The value, if the tree is one. -/
def value? : SettingTree → Option SettingValue
  | .value v => some v
  | _ => none

/-- The texts of a list. -/
def texts? : SettingTree → Option (List String)
  | .list entries => entries.mapM fun entry => entry.value?.map SettingValue.asText
  | _ => none

theorem lookup_replace_self (name : String) (tree : SettingTree)
    (members : List (String × SettingTree)) :
    lookup name (replace name tree members) = some tree := by
  induction members with
  | nil => simp [replace, lookup]
  | cons m rest ih =>
    obtain ⟨k, t⟩ := m
    unfold replace
    split
    · rename_i h
      simp [lookup, h]
    · rename_i h
      simp [lookup, h, ih]

theorem lookup_replace_of_ne {name other : String} (tree : SettingTree)
    (members : List (String × SettingTree)) (h : other ≠ name) :
    lookup other (replace name tree members) = lookup other members := by
  induction members with
  | nil => simp [replace, lookup, Ne.symm h]
  | cons m rest ih =>
    obtain ⟨k, t⟩ := m
    unfold replace
    split
    · rename_i hk
      subst hk
      simp [lookup, Ne.symm h]
    · simp [lookup, ih]

end SettingTree

end JobQueue

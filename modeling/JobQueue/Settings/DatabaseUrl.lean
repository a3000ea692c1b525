import JobQueue.Json.Reader

/-! # Addresses of databases

A database is named by `sqlite:` and a path, or `:memory:` for one that lives in memory, with
options after a question mark. Percent signs in path and options stand for bytes. An option that
is not known, or has a value that it cannot have, makes the address invalid. Which file systems
there are is not known to an address.

* `DatabaseUrl.parse?`. -/

namespace JobQueue

/-- **Where a database is.** -/
structure DatabaseUrl where
  path : String
  inMemory : Bool
  readOnly : Bool
  /-- The file never changes. -/
  immutable : Bool
  /-- The file system, by its name. -/
  system : Option String
deriving DecidableEq, Repr

namespace DatabaseUrl

/-- The text without any number of copies of a word at its start; `fuel` bounds its length. -/
def dropCopies (word : List Char) : Nat → List Char → List Char
  | 0, cs => cs
  | fuel + 1, cs => if word.isPrefixOf cs then dropCopies word fuel (cs.drop word.length) else cs

/-- The bytes of a text, those given by percent signs included. -/
def percentBytes : List Char → List UInt8
  | [] => []
  | '%' :: a :: b :: rest =>
    match Json.hexValue? a, Json.hexValue? b with
    | some x, some y => UInt8.ofNat (16 * x + y) :: percentBytes rest
    | _, _ => UInt8.ofNat 37 :: percentBytes (a :: b :: rest)
  | c :: rest => (String.singleton c).toUTF8.toList ++ percentBytes rest

/-- The text of the bytes, if they are one. -/
def decode? (cs : List Char) : Option String := String.fromUTF8? ⟨(percentBytes cs).toArray⟩

/-- The parts of a sequence between separators. -/
def splitAt {α : Type} [DecidableEq α] (separator : α) (cs : List α) : List (List α) :=
  cs.foldr
    (fun c parts => match parts with
      | part :: rest => if c = separator then [] :: part :: rest else (c :: part) :: rest
      | [] => [[c]]) [[]]

/-- An option's name and value. -/
def option? (cs : List Char) : Option (String × String) := do
  let plain (cs : List Char) : List Char := cs.map fun c => if c = '+' then ' ' else c
  let name ← decode? (plain (cs.takeWhile (· ≠ '=')))
  let value ← decode? (plain ((cs.dropWhile (· ≠ '=')).drop 1))
  return (name, value)

/-- The address with an option. -/
def withOption? (url : DatabaseUrl) (name value : String) : Option DatabaseUrl :=
  if name = "mode" then
    if value = "ro" then some { url with readOnly := true }
    else if value = "rw" ∨ value = "rwc" then some url
    else if value = "memory" then some { url with inMemory := true }
    else none
  else if name = "cache" then if ["private", "shared"].contains value then some url else none
  else if name = "immutable" then
    if ["true", "1"].contains value then some { url with immutable := true }
    else if ["false", "0"].contains value then some { url with immutable := false }
    else none
  else if name = "vfs" then some { url with system := some value }
  else none

/-- **The address of a text.** -/
def parse? (s : String) : Option DatabaseUrl := do
  let cs := dropCopies "sqlite://".toList s.length s.toList
  let cs := dropCopies "sqlite:".toList s.length cs
  let path ← decode? (cs.takeWhile (· ≠ '?'))
  let options := (splitAt '&' ((cs.dropWhile (· ≠ '?')).drop 1)).filter fun o => !o.isEmpty
  options.foldlM
    (fun url o => do
      let (name, value) ← option? o
      url.withOption? name value)
    ⟨path, path == ":memory:", false, false, none⟩

end DatabaseUrl

end JobQueue

import JobQueue.Settings.DatabaseUrl

/-! # Files of databases

The path of an address may itself be a file address: `file:`, perhaps two slashes and the local
host, a path, and options that have a say after those of the outer address. So the file that is
opened, and how, is known only when both are read.

* `DatabaseFile.ofUrl?`: what an address names. A path with an option that only a file address can
  carry is taken as it stands.
* `DatabaseFile.opens`: a database in memory can be opened, and so can one without a name. A file
  that is there already is none of this library's; a new one can be made where its directory
  exists and its name, with those of the files beside it, is not too long. -/

namespace JobQueue

/-- How far a file may be used; what comes later allows more. -/
inductive FileAccess where
  | read
  | write
  | create
deriving DecidableEq, Repr

/-- The file systems that a database can be opened with. -/
inductive FileSystem where
  | ordinary
  | unlocked
  | lockFiles
  | exclusive
  | memory
deriving DecidableEq, Repr

/-- **The file of a database.** -/
structure DatabaseFile where
  /-- The bytes of the path. -/
  path : List UInt8
  inMemory : Bool
  access : FileAccess
  immutable : Bool
  system : FileSystem
deriving DecidableEq, Repr

namespace FileAccess

def rank : FileAccess → Nat
  | .read => 1
  | .write => 2
  | .create => 3

end FileAccess

namespace FileSystem

def all : List FileSystem := [.ordinary, .unlocked, .lockFiles, .exclusive, .memory]

def name : FileSystem → String
  | .ordinary => "unix"
  | .unlocked => "unix-none"
  | .lockFiles => "unix-dotfile"
  | .exclusive => "unix-excl"
  | .memory => "memdb"

def ofName? (s : String) : Option FileSystem := all.find? fun f => f.name == s

/-- The longest name of a file, in bytes; the files beside it have longer ones. -/
def longestName : FileSystem → Nat
  | .unlocked => 255
  | .lockFiles => 250
  | _ => 247

/-- The longest path, in bytes. -/
def longestPath : FileSystem → Nat
  | .memory => 1016
  | _ => 504

end FileSystem

namespace DatabaseFile

/-! ### File addresses -/

/-- A byte of a file address; one that was given by a percent sign separates nothing. -/
structure UriByte where
  value : UInt8
  escaped : Bool
deriving DecidableEq, Repr

/-- A byte that stands for itself. -/
def plain (c : Char) : UriByte := ⟨UInt8.ofNat c.toNat, false⟩

/-- The value of a hexadecimal digit. -/
def hexValue? (b : UInt8) : Option Nat := Json.hexValue? (Char.ofNat b.toNat)

/-- The bytes up to a number sign. -/
def uriBytes : List UInt8 → List UriByte
  | [] => []
  | 37 :: a :: b :: rest =>
    match hexValue? a, hexValue? b with
    | some x, some y => ⟨UInt8.ofNat (16 * x + y), true⟩ :: uriBytes rest
    | _, _ => ⟨37, false⟩ :: uriBytes (a :: b :: rest)
  | b :: rest => if b = 35 then [] else ⟨b, false⟩ :: uriBytes rest

/-- The bytes before the first zero. -/
def untilZero (bs : List UriByte) : List UInt8 :=
  (bs.map UriByte.value).takeWhile (· ≠ 0)

/-- The bytes are those of a word. -/
def isWord (word : String) (bs : List UInt8) : Bool := bs == word.toUTF8.toList

/-- What the options say so far. Options that put the database in memory allow every later use. -/
structure OptionState where
  access : Option FileAccess
  inMemory : Bool
  system : Option (List UInt8)
deriving DecidableEq, Repr

/-- The use of a file is allowed if earlier options go as far. -/
def OptionState.narrow? (state : OptionState) (access : FileAccess) : Option OptionState :=
  if state.inMemory || access.rank ≤ (state.access.elim 0 FileAccess.rank) then
    some { state with access := some access, inMemory := false }
  else none

/-- The options with one more. -/
def OptionState.apply? (state : OptionState) (name value : List UInt8) : Option OptionState :=
  if isWord "vfs" name then some { state with system := some value }
  else if isWord "cache" name then
    if isWord "shared" value ∨ isWord "private" value then some state else none
  else if isWord "mode" name then
    if isWord "memory" value then some { state with access := none, inMemory := true }
    else if isWord "ro" value then state.narrow? .read
    else if isWord "rw" value then state.narrow? .write
    else if isWord "rwc" value then state.narrow? .create
    else none
  else some state

/-- The bytes after the scheme and the host, if it is this one. -/
def withoutHost? : List UInt8 → Option (List UInt8)
  | 47 :: 47 :: rest =>
    let host := rest.takeWhile (· ≠ 47)
    if host.isEmpty ∨ isWord "localhost" host then some (rest.drop host.length) else none
  | rest => some rest

/-- The path of a file address, and what its options say. -/
def readUri? (state : OptionState) (bs : List UInt8) : Option (List UInt8 × OptionState) := do
  let us := uriBytes (← withoutHost? bs)
  let path := us.takeWhile (· ≠ plain '?')
  let options := DatabaseUrl.splitAt (plain '&') ((us.dropWhile (· ≠ plain '?')).drop 1)
  let state ← options.foldlM
    (fun state o =>
      let name := untilZero (o.takeWhile (· ≠ plain '='))
      if name.isEmpty then some state
      else state.apply? name (untilZero ((o.dropWhile (· ≠ plain '=')).drop 1))) state
  return (untilZero path, state)

/-- The start of a file address. -/
def scheme : List UInt8 := "file:".toUTF8.toList

/-- **What an address names.** -/
def ofUrl? (url : DatabaseUrl) : Option DatabaseFile := do
  let bytes := url.path.toUTF8.toList
  let access : FileAccess := if url.readOnly then .read else .create
  if url.immutable || url.system.isSome then
    let system ← FileSystem.ofName? (url.system.getD FileSystem.ordinary.name)
    return ⟨bytes.takeWhile (· ≠ 0), url.inMemory, access, url.immutable, system⟩
  else if bytes.contains 0 then none
  else if scheme.isPrefixOf bytes then
    let (path, state) ← readUri? ⟨some access, url.inMemory, none⟩ (bytes.drop scheme.length)
    let system ← match state.system with
      | some name => FileSystem.all.find? fun f => isWord f.name name
      | none => some .ordinary
    return ⟨path, state.inMemory, state.access.getD .read, false, system⟩
  else return ⟨bytes, url.inMemory, access, false, .ordinary⟩

/-! ### Opening -/

/-- The parts of a path from the root, or from the working directory, that are left when the parts
that lead up are carried out. -/
def walk (fromRoot : Bool) (parts : List (List UInt8)) : List (List UInt8) :=
  let up : List UInt8 := [46, 46]
  (parts.foldl
    (fun done part =>
      if part.isEmpty ∨ part = [46] then done
      else if part = up then
        match done with
        | [] => if fromRoot then [] else [up]
        | last :: rest => if last = up then up :: done else rest
      else part :: done) []).reverse

/-- The text of a path that was walked. The working directory is a dot. -/
def pathText (fromRoot : Bool) (parts : List (List UInt8)) : List UInt8 :=
  if fromRoot then 47 :: List.intercalate [47] parts
  else if parts.isEmpty then [46]
  else List.intercalate [47] parts

/-- A new file can be made, given the directories that exist. -/
def creatable (directories : List String) (file : DatabaseFile) : Bool :=
  let fromRoot := file.path.head? == some 47
  let parts := walk fromRoot (DatabaseUrl.splitAt 47 file.path)
  let isDirectory (parts : List (List UInt8)) : Bool :=
    directories.any fun d => isWord d (pathText fromRoot parts)
  let longest := if file.immutable then 255 else file.system.longestName
  isDirectory parts.dropLast && !isDirectory parts &&
    (pathText fromRoot parts).length ≤ file.system.longestPath &&
    parts.all (fun part => part.length ≤ 255) &&
    (parts.getLast?.elim 0 List.length) ≤ longest

/-- **The database can be opened**, given the directories that exist. -/
def opens (directories : List String) (file : DatabaseFile) : Bool :=
  file.inMemory || file.path.isEmpty || isWord ":memory:" file.path ||
    (if file.system = .memory then file.path.length ≤ file.system.longestPath
     else file.access == .create && file.creatable directories)

end DatabaseFile

end JobQueue

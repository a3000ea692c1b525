import JobQueue.Text.Alphanumeric

/-! # Paths with variables

A path may name variables of the environment, as `$NAME`, as `${NAME}` or with a default as
`${NAME:-default}`, and may start with a tilde for the home directory.

* Variables are replaced from left to right, once; what a variable holds is not looked at again. A
  name in braces ends at the first closing brace, and its default starts at the first `:-` that
  has a name in front. A variable that is not set and has no default makes the path invalid. Two
  dollar signs stand for one; a dollar sign before anything else stands for itself.
* A tilde at the start stands for the home directory when a slash or nothing follows, but not when
  it came from a variable. -/

namespace JobQueue

/-- The values of the variables that are set. -/
abbrev Environment := List (String × String)

namespace Environment

/-- The value of a variable. A variable is kept as its name, an equals sign and its value in one
text, and a name is looked for at the start of the texts; so it may reach into a value. -/
def lookup? (env : Environment) (name : List Char) : Option (List Char) :=
  if name.isEmpty then none
  else
    (env.find? fun v => (name ++ ['=']).isPrefixOf (v.1.toList ++ '=' :: v.2.toList)).map
      fun v => (v.1.toList ++ '=' :: v.2.toList).drop (name.length + 1)

end Environment

namespace Path

/-- A character of a variable's name outside braces. -/
def isNameChar (c : Char) : Bool := Text.isAlphanumeric c || c == '_'

/-- The characters before the first closing brace and those after it. -/
def splitBrace : List Char → Option (List Char × List Char)
  | [] => none
  | c :: rest =>
    if c = '\x7d' then some ([], rest)
    else (splitBrace rest).map fun (inside, after) => (c :: inside, after)

/-- The characters before the first `:-` and those after it. -/
def splitDefault : List Char → Option (List Char × List Char)
  | ':' :: '-' :: rest => some ([], rest)
  | c :: rest => (splitDefault rest).map fun (name, value) => (c :: name, value)
  | [] => none

/-- The value of what stands between braces. -/
def braced? (env : Environment) (inside : List Char) : Option (List Char) :=
  match splitDefault inside with
  | some (c :: name, value) => some ((env.lookup? (c :: name)).getD value)
  | _ => env.lookup? inside

/-- The path with its variables replaced; `fuel` bounds its characters. -/
def expandFrom (env : Environment) : Nat → List Char → Option (List Char)
  | 0, _ => some []
  | _ + 1, [] => some []
  | fuel + 1, c :: rest =>
    if c ≠ '$' then (expandFrom env fuel rest).map (c :: ·)
    else match rest with
      | [] => some ['$']
      | d :: after =>
        if d = '\x7b' then
          match splitBrace after with
          | none => (expandFrom env fuel after).map ('$' :: d :: ·)
          | some (inside, after) => do
            let value ← braced? env inside
            let tail ← expandFrom env fuel after
            return value ++ tail
        else if isNameChar d then do
          let value ← env.lookup? (rest.takeWhile isNameChar)
          let tail ← expandFrom env fuel (rest.dropWhile isNameChar)
          return value ++ tail
        else if d = '$' then (expandFrom env fuel after).map ('$' :: ·)
        else (expandFrom env fuel rest).map ('$' :: ·)

/-- The path with its variables replaced. -/
def expandVariables (env : Environment) (path : List Char) : Option (List Char) :=
  expandFrom env path.length path

/-- The path with the home directory in place of a tilde. -/
def expandTilde (home : Option (List Char)) : List Char → List Char
  | '~' :: rest =>
    match home with
    | some home => if rest.isEmpty ∨ rest.head? = some '/' then home ++ rest else '~' :: rest
    | none => '~' :: rest
  | path => path

/-- The home directory, if one is set. -/
def home? (env : Environment) : Option (List Char) :=
  (env.lookup? "HOME".toList).filter fun home => !home.isEmpty

/-- **The expanded path.** -/
def expand (env : Environment) (path : String) : Option String :=
  let cs := path.toList
  (expandVariables env cs).map fun expanded =>
    if cs.head? ≠ some '~' ∧ expanded.head? = some '~' then String.ofList expanded
    else String.ofList (expandTilde (home? env) expanded)

end Path

end JobQueue

import JobQueue.Json.Reader

/-! # Embedded documents in values

A value that was built and not read from a text may hold objects that stand for an embedded
document. `Json.resolved?` puts the documents in their place, as a reader of the text of the value
does; an object that starts like an embedded document and is none has no meaning.

`Fields.resolved?` does so below an outermost object, which stands for itself. -/

namespace JobQueue

namespace Json

/-- The document of an object whose first member has the name of an embedding. -/
def embedded? : Json → Fields → Option Json
  | .str s, [] => parse? s
  | _, _ => none

mutual

/-- **The value with its embedded documents in their place.** -/
def resolved? : Json → Option Json
  | .arr items => (resolvedItems? items).map .arr
  | .obj [] => some (.obj [])
  | .obj ((k, v) :: rest) =>
    if k = embeddingName then embedded? v rest
    else do
      let v ← resolved? v
      let rest ← resolvedMembers? rest
      return .obj ((k, v) :: rest)
  | v => some v

/-- The items of a list. -/
def resolvedItems? : List Json → Option (List Json)
  | [] => some []
  | v :: rest => do
    let v ← resolved? v
    let rest ← resolvedItems? rest
    return v :: rest

/-- The members of an object. -/
def resolvedMembers? : List (String × Json) → Option Fields
  | [] => some []
  | (k, v) :: rest => do
    let v ← resolved? v
    let rest ← resolvedMembers? rest
    return (k, v) :: rest

end

end Json

/-- **The members with their embedded documents in their place.** -/
def Fields.resolved? (fields : Fields) : Option Fields := Json.resolvedMembers? fields

end JobQueue

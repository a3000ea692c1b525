/-! # Names of settings

A setting may lie inside another one. Its name is then that of the outer setting, followed by steps
inwards: `.member` for a part that has a name, `[place]` for an entry of a list, which is counted
from the end when it is negative. Blanks may surround a place. A text that has no such form is a
name as a whole. -/

namespace JobQueue

/-- A step into a setting. -/
inductive SettingStep where
  | member (name : String)
  | entry (place : Int)
deriving DecidableEq, Repr

/-- **The name of a setting**: an outermost name, and the steps from there. -/
structure SettingName where
  outer : String
  steps : List SettingStep
deriving DecidableEq, Repr

namespace SettingName

/-- The least place that can be given. -/
def leastPlace : Int := -9223372036854775808

/-- The greatest place that can be given. -/
def greatestPlace : Int := 9223372036854775807

/-- The character can stand in a name. -/
def isNameChar (c : Char) : Bool := c.isAlphanum || c == ' ' || c == '_' || c == '-'

def isBlank (c : Char) : Bool := c == ' ' || c == '\t'

/-- The number of a sequence of decimal digits. -/
def digitsValue (ds : List Char) : Nat := ds.foldl (fun n d => 10 * n + (d.toNat - 48)) 0

/-- A place and what follows it. -/
def place? (cs : List Char) : Option (Int × List Char) :=
  let cs := cs.dropWhile isBlank
  let negative := cs.head? == some '-'
  let cs := if negative then cs.drop 1 else cs
  let ds := cs.takeWhile Char.isDigit
  let n : Int := if negative then -(digitsValue ds : Int) else digitsValue ds
  if ds.isEmpty then none
  else if leastPlace ≤ n ∧ n ≤ greatestPlace then
    some (n, (cs.dropWhile Char.isDigit).dropWhile isBlank)
  else none

/-- The steps of a text; `fuel` bounds their number. -/
def steps? : Nat → List Char → Option (List SettingStep)
  | _, [] => some []
  | 0, _ :: _ => none
  | fuel + 1, c :: cs =>
    if c = '.' then
      let name := cs.takeWhile isNameChar
      if name.isEmpty then none
      else (steps? fuel (cs.dropWhile isNameChar)).map (.member (String.ofList name) :: ·)
    else if c = '[' then
      match place? cs with
      | some (n, ']' :: rest) => (steps? fuel rest).map (.entry n :: ·)
      | _ => none
    else none

/-- **The name that a text is.** -/
def ofText (s : String) : SettingName :=
  let cs := s.toList
  let outer := cs.takeWhile isNameChar
  let steps := if outer.isEmpty then none else steps? cs.length (cs.dropWhile isNameChar)
  match steps with
  | some steps => ⟨String.ofList outer, steps⟩
  | none => ⟨s, []⟩

end SettingName

end JobQueue

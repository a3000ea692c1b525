import JobQueue.Decimal.Extended

/-! # Values of settings

A setting is given as a text. What it looks like decides its kind, before it is known what it is
needed for: a truth value in any case, an integer of 64 bits, a floating-point number; else a
text, whose parts between commas are the entries of a setting that is a list.

What is needed then is made from the value: an integer from a truth value, a number or a word for
yes or no; a text from all kinds. -/

namespace JobQueue

/-- **The value of a setting.** -/
inductive SettingValue where
  | bool (b : Bool)
  | int (n : Int)
  | float (x : Decimal.Extended)
  | text (s : String)
deriving DecidableEq, Repr

namespace SettingValue

/-- The least integer of 64 bits with a sign. -/
def int64Min : Int := -9223372036854775808

/-- The greatest integer of 64 bits with a sign. -/
def int64Max : Int := 9223372036854775807

/-- The text in lower case, as far as it is ASCII. -/
def lower (s : String) : String := String.ofList (s.toList.map Char.toLower)

/-- A truth value in any case. -/
def bool? (s : String) : Option Bool :=
  if lower s = "true" then some true
  else if lower s = "false" then some false
  else none

/-- An integer of 64 bits, with an optional sign. -/
def int? (s : String) : Option Int :=
  let (negative, ds) := Decimal.Extended.splitSign s.toList
  if ds.isEmpty ∨ !ds.all Char.isDigit then none
  else
    let n : Int := if negative then -(Decimal.value ds : Int) else Decimal.value ds
    if int64Min ≤ n ∧ n ≤ int64Max then some n else none

/-- The parts between commas. -/
def splitCommas : List Char → List (List Char)
  | [] => [[]]
  | c :: rest =>
    if c = ',' then [] :: splitCommas rest
    else match splitCommas rest with
      | part :: parts => (c :: part) :: parts
      | [] => [[c]]

/-- The parts of a text between commas. -/
def parts (s : String) : List String := (splitCommas s.toList).map String.ofList

/-- **The value of a text.** -/
def classify (s : String) : SettingValue :=
  match bool? s with
  | some b => .bool b
  | none =>
    match int? s with
    | some n => .int n
    | none =>
      match Decimal.Extended.parse? s.toList with
      | some x => .float x
      | none => .text s

/-- An integer for a word. -/
def wordInt? (s : String) : Option Int :=
  if ["true", "on", "yes"].contains (lower s) then some 1
  else if ["false", "off", "no"].contains (lower s) then some 0
  else none

/-- An integer between two bounds; a floating-point number is first rounded into `low` to `high`. -/
def asInt? (low high : Int) : SettingValue → Option Int
  | .bool b => some (if b then 1 else 0)
  | .int n => if low ≤ n ∧ n ≤ high then some n else none
  | .float x => some (x.roundWithin low high)
  | .text s => wordInt? s

/-- A natural number up to a bound of at most 64 bits. -/
def asNat? (high : Nat) (v : SettingValue) : Option Nat :=
  (v.asInt? 0 18446744073709551615).bind fun n => if n ≤ high then some n.toNat else none

/-- An integer of 32 bits. -/
def asInt32? (v : SettingValue) : Option Int :=
  (v.asInt? int64Min int64Max).bind fun n =>
    if -2147483648 ≤ n ∧ n ≤ 2147483647 then some n else none

def asText : SettingValue → String
  | .bool b => if b then "true" else "false"
  | .int n => String.ofList (Decimal.ofInt n)
  | .float x => x.text
  | .text s => s

end SettingValue

end JobQueue

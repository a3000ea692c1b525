import JobQueue.Decimal.Shortest
import JobQueue.Json.Basic
import JobQueue.Text.Quoted

/-! # Writing JSON text

The text has no blanks. In a string the quote, the backslash and the controls are escaped, all
else stands for itself; an integer is its numeral; a floating-point number is its shortest
decimal, always with a point or an exponent. -/

namespace JobQueue.Json

/-- The form of a character inside a string. -/
def escapeChar (c : Char) : List Char :=
  if c = '"' then ['\\', '"']
  else if c = '\\' then ['\\', '\\']
  else if c = '\n' then ['\\', 'n']
  else if c = '\r' then ['\\', 'r']
  else if c = '\t' then ['\\', 't']
  else if c.toNat = 8 then ['\\', 'b']
  else if c.toNat = 12 then ['\\', 'f']
  else if c.toNat < 16 then ['\\', 'u', '0', '0', '0'] ++ Text.hexDigits c.toNat
  else if c.toNat < 32 then ['\\', 'u', '0', '0'] ++ Text.hexDigits c.toNat
  else [c]

/-- A string with its quotes. -/
def writeString (s : String) : List Char := '"' :: s.toList.flatMap escapeChar ++ ['"']

mutual

/-- **The text of a value.** -/
def write : Json → List Char
  | .null => "null".toList
  | .bool true => "true".toList
  | .bool false => "false".toList
  | .int n => Decimal.ofInt n
  | .float x => Decimal.scientific x
  | .str s => writeString s
  | .arr [] => ['[', ']']
  | .arr (v :: rest) => '[' :: (write v ++ writeItems rest ++ [']'])
  | .obj [] => ['\x7b', '\x7d']
  | .obj ((k, v) :: rest) =>
    '\x7b' :: (writeString k ++ ':' :: (write v ++ writeMembers rest) ++ ['\x7d'])

/-- The items after the first, each with a comma in front. -/
def writeItems : List Json → List Char
  | [] => []
  | v :: rest => ',' :: (write v ++ writeItems rest)

/-- The members after the first, each with a comma in front. -/
def writeMembers : List (String × Json) → List Char
  | [] => []
  | (k, v) :: rest => ',' :: (writeString k ++ ':' :: (write v ++ writeMembers rest))

end

/-- The text of a value, as a string. -/
def text (v : Json) : String := String.ofList (write v)

end JobQueue.Json

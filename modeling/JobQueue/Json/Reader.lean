import JobQueue.Decimal.Digits
import JobQueue.Json.Basic

/-! # Reading JSON text

`parse?` reads one value with blanks around it. Each reader takes the text from its first character
and returns the value with the text after it.

* Blanks are the space, the tab, the line feed and the carriage return.
* A numeral has no leading zeros. Without fraction and exponent it is an integer when it lies
  between `-2 ^ 63` and `2 ^ 64`; `-0` and all larger ones are floating-point numbers.
* Of a long numeral only the digits that fit 64 bits count; a further digit of the integer part
  raises the exponent, a further digit of the fraction is dropped. A number beyond the largest
  floating-point number is refused.
* A string has no control character, and an escaped surrogate stands only in a pair.
* Of several members of one name the last counts.
* Containers nest at most `maxDepth` deep.
* An object whose first member has the name `embeddingName` stands for the document in that member,
  which must be a text and the only member; an embedded document nests anew.

The readers of containers are given the reader of what they contain, which is the same reader for
one container less: the recursion is on the number of containers still allowed. In the same way
they are given the reader of embedded documents, which are shorter than the document around them.

`parseFields?` reads an object member by member: there the outermost object never stands for
anything else. -/

namespace JobQueue.Json

/-- The deepest nesting that is read. -/
def maxDepth : Nat := 127

/-- The largest significand of a numeral, and the largest integer. -/
def maxUnsigned : Nat := 18446744073709551615

def isBlank (c : Char) : Bool := c == ' ' || c == '\n' || c == '\t' || c == '\r'

def skipBlank (cs : List Char) : List Char := cs.dropWhile isBlank

/-! ### Strings -/

/-- The value of a hexadecimal digit. -/
def hexValue? (c : Char) : Option Nat :=
  if c.isDigit then some (c.toNat - 48)
  else if 'a' ≤ c ∧ c ≤ 'f' then some (c.toNat - 87)
  else if 'A' ≤ c ∧ c ≤ 'F' then some (c.toNat - 55)
  else none

/-- Four hexadecimal digits. -/
def readHex4 : List Char → Option (Nat × List Char)
  | a :: b :: c :: d :: rest => do
    let a ← hexValue? a
    let b ← hexValue? b
    let c ← hexValue? c
    let d ← hexValue? d
    return (((a * 16 + b) * 16 + c) * 16 + d, rest)
  | _ => none

/-- The second half of a surrogate pair, with its escape. -/
def readLowSurrogate : List Char → Option (Nat × List Char)
  | '\\' :: 'u' :: rest => do
    let (n, rest) ← readHex4 rest
    if 0xDC00 ≤ n ∧ n ≤ 0xDFFF then some (n, rest) else none
  | _ => none

/-- The character of a `u` escape: one code unit, or a surrogate pair. -/
def readUnicode (cs : List Char) : Option (Char × List Char) := do
  let (n, rest) ← readHex4 cs
  if 0xD800 ≤ n ∧ n ≤ 0xDBFF then
    let (low, rest) ← readLowSurrogate rest
    return (Char.ofNat (0x10000 + (n - 0xD800) * 1024 + (low - 0xDC00)), rest)
  else if 0xDC00 ≤ n ∧ n ≤ 0xDFFF then none
  else some (Char.ofNat n, rest)

/-- The character of an escape, from the character after the backslash. -/
def readEscape : List Char → Option (Char × List Char)
  | [] => none
  | c :: rest =>
    if c = '"' ∨ c = '\\' ∨ c = '/' then some (c, rest)
    else if c = 'b' then some (Char.ofNat 8, rest)
    else if c = 'f' then some (Char.ofNat 12, rest)
    else if c = 'n' then some ('\n', rest)
    else if c = 'r' then some ('\r', rest)
    else if c = 't' then some ('\t', rest)
    else if c = 'u' then readUnicode rest
    else none

/-- The rest of a string, after what `taken` holds in reverse, up to the closing quote; `fuel`
bounds its characters. -/
def readStringRest : Nat → List Char → List Char → Option (String × List Char)
  | 0, _, _ => none
  | _ + 1, _, [] => none
  | fuel + 1, taken, c :: rest =>
    if c = '"' then some (String.ofList taken.reverse, rest)
    else if c = '\\' then
      match readEscape rest with
      | some (c, rest) => readStringRest fuel (c :: taken) rest
      | none => none
    else if c.toNat < 32 then none
    else readStringRest fuel (c :: taken) rest

/-- A string, after its opening quote. -/
def readString (cs : List Char) : Option (String × List Char) :=
  readStringRest (cs.length + 1) [] cs

/-! ### Numbers -/

/-- The digits that extend the significand within 64 bits, and how many are left over. -/
def significand (n : Nat) : List Char → Nat × Nat
  | [] => (n, 0)
  | d :: ds =>
    let m := 10 * n + Decimal.digitValue d
    if m ≤ maxUnsigned then significand m ds else (n, ds.length + 1)

/-- The exponent after its mark, and the text after it. -/
def readExponent (cs : List Char) : Option (Int × List Char) :=
  let (negative, cs) := match cs with
    | '-' :: rest => (true, rest)
    | '+' :: rest => (false, rest)
    | _ => (false, cs)
  let ds := cs.takeWhile Char.isDigit
  if ds.isEmpty then none
  else
    let n : Int := Decimal.value ds
    some (if negative then -n else n, cs.dropWhile Char.isDigit)

/-- A floating-point number with the exponent that may follow in the text. -/
def readScaled (negative : Bool) (n : Nat) (exponent : Int) (cs : List Char) :
    Option (Json × List Char) := do
  let (shift, rest) ← match cs with
    | c :: rest => if c = 'e' ∨ c = 'E' then readExponent rest else some (0, cs)
    | [] => some (0, [])
  let x ← Binary64.scale? negative n (exponent + shift)
  return (.float x, rest)

/-- An integer, or the floating-point number that stands for it where it is out of range. -/
def integer? (negative : Bool) (n leftOver : Nat) : Option Json :=
  if leftOver = 0 ∧ !negative then some (.int n)
  else if leftOver = 0 ∧ n ≠ 0 ∧ n ≤ 9223372036854775808 then some (.int (-n))
  else (Binary64.scale? negative n leftOver).map .float

/-- A number, after its sign. -/
def readNumber (negative : Bool) (cs : List Char) : Option (Json × List Char) :=
  let ds := cs.takeWhile Char.isDigit
  let rest := cs.dropWhile Char.isDigit
  let (n, leftOver) := significand 0 ds
  if ds.isEmpty ∨ (ds.head? = some '0' ∧ 1 < ds.length) then none
  else match rest with
    | '.' :: rest =>
      let fraction := rest.takeWhile Char.isDigit
      if fraction.isEmpty then none
      else
        let (n, dropped) := significand n fraction
        let exponent : Int := leftOver - (fraction.length - dropped : Nat)
        readScaled negative n exponent (rest.dropWhile Char.isDigit)
    | c :: _ =>
      if c = 'e' ∨ c = 'E' then readScaled negative n leftOver rest
      else (integer? negative n leftOver).map (·, rest)
    | [] => (integer? negative n leftOver).map (·, [])

/-! ### Values -/

/-- A value that is no container. -/
def readScalar : List Char → Option (Json × List Char)
  | 'n' :: 'u' :: 'l' :: 'l' :: rest => some (.null, rest)
  | 't' :: 'r' :: 'u' :: 'e' :: rest => some (.bool true, rest)
  | 'f' :: 'a' :: 'l' :: 's' :: 'e' :: rest => some (.bool false, rest)
  | '"' :: rest => (readString rest).map fun (s, rest) => (.str s, rest)
  | '-' :: rest => readNumber true rest
  | cs => readNumber false cs

/-- A reader of a value with blanks in front. -/
abbrev ValueReader := List Char → Option (Json × List Char)

/-- The items of a list from one item on, up to the closing bracket; `fuel` bounds the items. -/
def readItems (item : ValueReader) : Nat → List Json → List Char → Option (Json × List Char)
  | 0, _, _ => none
  | fuel + 1, taken, cs =>
    match item cs with
    | none => none
    | some (v, rest) =>
      match skipBlank rest with
      | ',' :: rest => readItems item fuel (v :: taken) rest
      | ']' :: rest => some (.arr (v :: taken).reverse, rest)
      | _ => none

/-- A member's name and the colon. -/
def readName (cs : List Char) : Option (String × List Char) :=
  match skipBlank cs with
  | '"' :: rest =>
    match readString rest with
    | none => none
    | some (k, rest) =>
      match skipBlank rest with
      | ':' :: rest => some (k, rest)
      | _ => none
  | _ => none

/-- A member's name, the colon and its value. -/
def readMember (item : ValueReader) (cs : List Char) : Option ((String × Json) × List Char) :=
  match readName cs with
  | some (k, rest) => (item rest).map fun (v, rest) => ((k, v), rest)
  | none => none

/-- The members of an object from one member on, up to the closing brace. -/
def readMembers (item : ValueReader) : Nat → Fields → List Char → Option (Json × List Char)
  | 0, _, _ => none
  | fuel + 1, taken, cs =>
    match readMember item cs with
    | none => none
    | some ((k, v), rest) =>
      match skipBlank rest with
      | ',' :: rest => readMembers item fuel (taken.put k v) rest
      | c :: rest => if c = '\x7d' then some (.obj (taken.put k v), rest) else none
      | [] => none

/-- A list after its opening bracket. -/
def readList (item : ValueReader) (cs : List Char) : Option (Json × List Char) :=
  match skipBlank cs with
  | ']' :: rest => some (.arr [], rest)
  | _ => readItems item (cs.length + 1) [] cs

/-- The members of an object after its opening brace. -/
def readFields (item : ValueReader) (cs : List Char) : Option (Json × List Char) :=
  match skipBlank cs with
  | c :: rest =>
    if c = '\x7d' then some (.obj [], rest) else readMembers item (cs.length + 1) [] cs
  | [] => none

/-- The name of the member that holds an embedded document. -/
def embeddingName : String := "$serde_json::private::RawValue"

/-- A reader of a whole document. -/
abbrev DocumentReader := String → Option Json

/-- An embedded document, from its text to the closing brace of the object around it. -/
def readEmbedded (document : DocumentReader) (cs : List Char) : Option (Json × List Char) :=
  match skipBlank cs with
  | '"' :: rest =>
    match readString rest with
    | none => none
    | some (s, rest) =>
      match skipBlank rest with
      | c :: rest => if c = '\x7d' then (document s).map (·, rest) else none
      | [] => none
  | _ => none

/-- An object after its opening brace, or the document that it stands for. -/
def readObject (document : DocumentReader) (item : ValueReader) (cs : List Char) :
    Option (Json × List Char) :=
  match readName cs with
  | some (k, rest) =>
    if k = embeddingName then readEmbedded document rest else readFields item cs
  | none => readFields item cs

/-- **A value with at most `depth` nested containers**, blanks in front. -/
def readValue (document : DocumentReader) : Nat → ValueReader
  | 0, cs => readScalar (skipBlank cs)
  | depth + 1, cs =>
    match skipBlank cs with
    | [] => none
    | c :: rest =>
      if c = '[' then readList (readValue document depth) rest
      else if c = '\x7b' then readObject document (readValue document depth) rest
      else readScalar (c :: rest)

/-! ### Documents -/

/-- A value that is a whole text, with blanks after it. -/
def complete? : Option (Json × List Char) → Option Json
  | some (v, rest) => if (skipBlank rest).isEmpty then some v else none
  | none => none

/-- A document with at most `embeddings` documents one inside the other. -/
def readDocument : Nat → DocumentReader
  | 0, _ => none
  | embeddings + 1, s => complete? (readValue (readDocument embeddings) maxDepth s.toList)

/-- **The value of a text**, blanks around it. -/
def parse? (s : String) : Option Json := readDocument (s.length + 1) s

/-- **The members of the object of a text.** -/
def parseFields? (s : String) : Option Fields :=
  match skipBlank s.toList with
  | c :: rest =>
    if c = '\x7b' then
      match complete? (readFields (readValue (readDocument s.length) (maxDepth - 1)) rest) with
      | some (.obj fields) => some fields
      | _ => none
    else none
  | [] => none

end JobQueue.Json

import JobQueue.Decimal.Shortest

/-! # Binary64 numbers with infinities

The texts for a number in settings: an optional sign, then `inf`, `infinity` or `nan` in any case,
or digits with an optional point and an optional exponent, at least one digit before the exponent.
The number nearest to the text is meant; beyond the largest finite number that is an infinity.

* `parse?`, `text`: reading and writing; writing is positional.
* `roundWithin`: the nearest integer, a half away from zero, moved into a range. -/

namespace JobQueue.Decimal

/-- **A binary64 number, an infinity or no number.** -/
inductive Extended where
  | nan
  | infinite (negative : Bool)
  | finite (x : Binary64)
deriving DecidableEq, Repr

namespace Extended

/-- The decimal exponent of the leading digit beyond which every number is infinite, or zero. -/
def exponentBound : Nat := 400

/-- The number nearest to `n * 10 ^ exponent`. -/
def ofDecimal (negative : Bool) (n : Nat) (exponent : Int) : Extended :=
  let point : Int := (digits n).length + exponent
  if n = 0 ∨ point < -exponentBound then .finite (Binary64.zero negative)
  else if point > exponentBound then .infinite negative
  else
    match Binary64.round? negative (n * Nat.pow 10 exponent.toNat)
        (Nat.pow 10 (-exponent).toNat) with
    | some x => .finite x
    | none => .infinite negative

/-- A sign in front of the text, and the text after it. -/
def splitSign : List Char → Bool × List Char
  | '-' :: rest => (true, rest)
  | '+' :: rest => (false, rest)
  | cs => (false, cs)

/-- The exponent of a numeral: nothing, or a mark, a sign and digits. -/
def exponent? : List Char → Option Int
  | [] => some 0
  | c :: rest =>
    if c = 'e' ∨ c = 'E' then
      let (negative, ds) := splitSign rest
      if ds.isEmpty ∨ !ds.all Char.isDigit then none
      else some (if negative then -(value ds : Int) else value ds)
    else none

/-- A numeral without its sign. -/
def numeral? (negative : Bool) (cs : List Char) : Option Extended :=
  let whole := cs.takeWhile Char.isDigit
  let rest := cs.dropWhile Char.isDigit
  let (fraction, rest) := match rest with
    | '.' :: rest => (rest.takeWhile Char.isDigit, rest.dropWhile Char.isDigit)
    | _ => ([], rest)
  if whole.isEmpty ∧ fraction.isEmpty then none
  else
    (exponent? rest).map fun e =>
      ofDecimal negative (value (whole ++ fraction)) (e - fraction.length)

/-- **The number of a text.** -/
def parse? (cs : List Char) : Option Extended :=
  let (negative, rest) := splitSign cs
  let word := String.ofList (rest.map Char.toLower)
  if word = "nan" then some .nan
  else if word = "inf" ∨ word = "infinity" then some (.infinite negative)
  else numeral? negative rest

/-- **The text of a number.** -/
def text : Extended → String
  | .nan => "NaN"
  | .infinite negative => if negative then "-inf" else "inf"
  | .finite x => String.ofList (positional x)

/-- The absolute value to the nearest integer, a half upwards. -/
def magnitude (x : Binary64) : Nat :=
  let (num, den) := x.ratio
  (2 * num + den) / (2 * den)

/-- **The nearest integer**, moved to the nearer end when it is outside the range; no number
counts as zero. -/
def roundWithin (low high : Int) : Extended → Int
  | .nan => 0
  | .infinite negative => if negative then low else high
  | .finite x =>
    let n : Int := magnitude x
    max low (min high (if x.negative then -n else n))

end Extended

end JobQueue.Decimal

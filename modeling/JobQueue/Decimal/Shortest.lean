import JobQueue.Decimal.Binary64
import JobQueue.Decimal.Digits

/-! # The shortest decimal text of a binary64 number

The reals that round to a finite number form an interval around it, its ends included when the
mantissa is even. The shortest decimal of the number is, on the coarsest decimal grid with a point
in that interval, the point nearest to the number. Of the two grid points next to the number at
least one lies in the interval if any does, so only those two are tried.

* `shortest`: digits and decimal exponent.
* `scientific`: positional text for moderate exponents, else with an exponent mark.
* `positional`: always without an exponent mark. -/

namespace JobQueue.Decimal

/-- A decimal: `coefficient * 10 ^ exponent`. -/
structure Scaled where
  coefficient : Nat
  exponent : Int
deriving DecidableEq, Repr

/-- The number and the ends of its rounding interval, in one unit: four times the mantissa, with the
powers of two as a quotient `num / den`. -/
structure Interval where
  low : Nat
  mid : Nat
  high : Nat
  closed : Bool
  num : Nat
  den : Nat

/-- The interval of the reals that round to `x`; below a power of two the numbers lie twice as
close. -/
def Interval.of (x : Binary64) : Interval :=
  let below := if x.mantissa = Binary64.hiddenBit ∧ Binary64.minExponent < x.exponent then 1 else 2
  let e := x.exponent - 2
  { low := 4 * x.mantissa - below
    mid := 4 * x.mantissa
    high := 4 * x.mantissa + 2
    closed := x.mantissa % 2 == 0
    num := Nat.pow 2 e.toNat
    den := Nat.pow 2 (-e).toNat }

/-- The point `c * 10 ^ e` lies in the interval. -/
def Interval.contains (i : Interval) (c : Nat) (e : Int) : Bool :=
  let p := c * Nat.pow 10 e.toNat * i.den
  let unit := i.num * Nat.pow 10 (-e).toNat
  if i.closed then i.low * unit ≤ p && p ≤ i.high * unit else i.low * unit < p && p < i.high * unit

/-- The greatest grid coefficient whose point is not above the number, and twice the remainder
against the grid step: its order tells which neighbour is nearer. -/
def Interval.floor (i : Interval) (e : Int) : Nat × Ordering :=
  let step := Nat.pow 10 e.toNat * i.den
  let p := i.mid * i.num * Nat.pow 10 (-e).toNat
  (p / step, compare (2 * (p % step)) step)

/-- The best point of the grid of step `10 ^ e`: of the two neighbours of the number one that lies
in the interval, the nearer if both do, the even one on a tie. -/
def Interval.pick (i : Interval) (e : Int) : Option Nat :=
  let (c, half) := i.floor e
  let lower := i.contains c e
  let upper := i.contains (c + 1) e
  if lower && upper then
    match half with
    | .lt => some c
    | .gt => some (c + 1)
    | .eq => some (if c % 2 = 0 then c else c + 1)
  else if lower then some c
  else if upper then some (c + 1)
  else none

/-- Trailing zeros of the coefficient moved into the exponent; `fuel` bounds the digits. -/
def Scaled.trim (s : Scaled) : Nat → Scaled
  | 0 => s
  | fuel + 1 =>
    if s.coefficient ≠ 0 ∧ s.coefficient % 10 = 0 then
      Scaled.trim ⟨s.coefficient / 10, s.exponent + 1⟩ fuel
    else s

/-- The number of digits of the integer part of `num / den`, or the negated number of zeros after
the point when that is zero, up to one; from the binary logarithm. -/
def magnitude (num den : Nat) : Int :=
  ((Binary64.floorLog2 num den) * 30103) / 100000

/-- The first grid with a hit, from coarse to fine. -/
def Interval.search (i : Interval) (e : Int) : Nat → Scaled
  | 0 => ⟨i.mid, e⟩
  | fuel + 1 =>
    match i.pick e with
    | some c => (Scaled.mk c e).trim 20
    | none => i.search (e - 1) fuel

/-- **The shortest decimal that rounds to `x`**, the nearest one of that length. -/
def shortest (x : Binary64) : Scaled :=
  if x.isZero then ⟨0, 0⟩
  else (Interval.of x).search (magnitude x.ratio.1 x.ratio.2 + 1) 24

/-- Digits with a point after the first `k`. -/
def pointed (ds : List Char) (k : Nat) : List Char := ds.take k ++ '.' :: ds.drop k

/-- The sign in front of a magnitude. -/
def signed (negative : Bool) (cs : List Char) : List Char := if negative then '-' :: cs else cs

/-- **Mixed notation.** Positional between `1e-5` and `1e16`, with at least one digit after the
point; else one digit, the fraction if any, and the exponent after an `e`. -/
def scientific (x : Binary64) : List Char :=
  let s := shortest x
  let ds := digits s.coefficient
  let point : Int := ds.length + s.exponent
  signed x.negative <|
    if x.isZero then "0.0".toList
    else if 0 ≤ s.exponent ∧ point ≤ 16 then
      ds ++ List.replicate s.exponent.toNat '0' ++ ['.', '0']
    else if 0 < point ∧ point ≤ 16 then pointed ds point.toNat
    else if -5 < point ∧ point ≤ 0 then
      '0' :: '.' :: (List.replicate (-point).toNat '0' ++ ds)
    else if ds.length = 1 then ds ++ 'e' :: ofInt (point - 1)
    else pointed ds 1 ++ 'e' :: ofInt (point - 1)

/-- **Positional notation**, without a point when the number is whole. -/
def positional (x : Binary64) : List Char :=
  let s := shortest x
  let ds := digits s.coefficient
  let point : Int := ds.length + s.exponent
  signed x.negative <|
    if x.isZero then ['0']
    else if 0 ≤ s.exponent then ds ++ List.replicate s.exponent.toNat '0'
    else if 0 < point then pointed ds point.toNat
    else '0' :: '.' :: (List.replicate (-point).toNat '0' ++ ds)

end JobQueue.Decimal

/-! # Binary floating-point numbers of 64 bits

A finite number is a sign, a mantissa below `2 ^ 53` and a power of two not below `2 ^ -1074`. All
arithmetic is exact on natural numbers and then rounded once: `round?` takes a quotient of two
naturals to the nearest representable number, a tie to the even mantissa, and has no answer beyond
the largest finite number.

* `divEven`: division to the nearest integer, ties to even; `divEven_mul_self`: exact quotients
  stay.
* `round?`: the one place where precision is lost.
* `mul?`, `div?`: the rounded product and quotient.
* `scale?`: a decimal significand with a decimal exponent, by one multiplication or by divisions.
  -/

namespace JobQueue

/-- **A finite binary64 number**, `mantissa * 2 ^ exponent` with a sign. -/
structure Binary64 where
  negative : Bool
  mantissa : Nat
  exponent : Int
deriving DecidableEq, Repr

namespace Binary64

/-- The least exponent, that of the subnormal numbers. -/
def minExponent : Int := -1074

/-- The greatest exponent of a finite number. -/
def maxExponent : Int := 971

/-- The weight of the leading bit of a mantissa. -/
def hiddenBit : Nat := 4503599627370496

/-- Zero, with a sign. -/
def zero (negative : Bool) : Binary64 := ⟨negative, 0, minExponent⟩

def isZero (x : Binary64) : Bool := x.mantissa == 0

def neg (x : Binary64) : Binary64 := { x with negative := !x.negative }

/-- The quotient to the nearest integer, a tie to the even one. -/
def divEven (a b : Nat) : Nat :=
  let q := a / b
  let r := a % b
  if 2 * r < b ∨ (2 * r = b ∧ q % 2 = 0) then q else q + 1

theorem divEven_mul_self (a : Nat) {b : Nat} (h : 0 < b) : divEven (a * b) b = a := by
  simp [divEven, Nat.mul_div_cancel _ h, h]

/-- The numerator of `num / den / 2 ^ e` over `scaledDen den e`. -/
def scaledNum (num : Nat) (e : Int) : Nat := num * Nat.pow 2 (-e).toNat

/-- The denominator of `num / den / 2 ^ e`. -/
def scaledDen (den : Nat) (e : Int) : Nat := den * Nat.pow 2 e.toNat

/-- The greatest `e` with `2 ^ e ≤ num / den`, for positive arguments. -/
def floorLog2 (num den : Nat) : Int :=
  let e := (num.log2 : Int) - den.log2
  if scaledDen den e ≤ scaledNum num e then e else e - 1

/-- **Rounding.** The representable number nearest to `num / den`, a tie going to the even
mantissa; `none` when that lies beyond the largest finite number. -/
def round? (negative : Bool) (num den : Nat) : Option Binary64 :=
  if num = 0 then some (zero negative)
  else
    let e := max (floorLog2 num den - 52) minExponent
    let m := divEven (scaledNum num e) (scaledDen den e)
    let x : Binary64 := if m = 2 * hiddenBit then ⟨negative, hiddenBit, e + 1⟩ else ⟨negative, m, e⟩
    if x.exponent ≤ maxExponent then some x else none

/-- The absolute value as a quotient of naturals. -/
def ratio (x : Binary64) : Nat × Nat :=
  (x.mantissa * Nat.pow 2 x.exponent.toNat, Nat.pow 2 (-x.exponent).toNat)

def mul? (x y : Binary64) : Option Binary64 :=
  round? (x.negative != y.negative) (x.ratio.1 * y.ratio.1) (x.ratio.2 * y.ratio.2)

def div? (x y : Binary64) : Option Binary64 :=
  round? (x.negative != y.negative) (x.ratio.1 * y.ratio.2) (x.ratio.2 * y.ratio.1)

/-- The number nearest to a natural number. -/
def ofNat? (n : Nat) : Option Binary64 := round? false n 1

/-- The largest power of ten by which `scale?` multiplies or divides at once. -/
def maxPower : Nat := 308

/-- `x / 10 ^ k`, in steps of `10 ^ 308` while `k` is larger; zero stays zero. -/
def divPow10? (x : Binary64) (k : Nat) : Option Binary64 :=
  if k ≤ maxPower then (ofNat? (Nat.pow 10 k)).bind x.div?
  else if x.isZero then some x
  else ((ofNat? (Nat.pow 10 maxPower)).bind x.div?).bind fun y => divPow10? y (k - maxPower)
termination_by k
decreasing_by simp only [maxPower] at *; omega

/-- **A significand with a decimal exponent.** The significand is rounded first, then multiplied
or divided by the rounded power of ten: two roundings, so the result can be one unit away from the
nearest number. `none` is an overflow. -/
def scale? (negative : Bool) (significand : Nat) (exponent : Int) : Option Binary64 :=
  (ofNat? significand).bind fun x =>
    let magnitude :=
      if exponent < 0 then divPow10? x exponent.natAbs
      else if exponent.natAbs ≤ maxPower then (ofNat? (Nat.pow 10 exponent.natAbs)).bind x.mul?
      else if x.isZero then some x
      else none
    magnitude.map fun y => if negative then y.neg else y

end Binary64

end JobQueue

import JobQueue.Breakdown
import JobQueue.Decimal.Extended

/-! # Values of a database

A column has a kind, but the kind binds a value only loosely: an integer column turns a text into a
number where the text is one, and keeps it as a text where it is none; a text column turns numbers
into texts. Values are compared across kinds: nothing comes before the numbers, and the numbers
before the texts.

* `Value.inIntegerColumn`, `Value.inTextColumn`: the value as a column of the kind keeps it.
* `Value.lt`: the order, exact between integers and floating-point numbers; `Value.lexLt`: the order
  of lists.
* `Value.succ`: one more, where the text of no number counts by its start. -/

namespace JobQueue.Sql

/-- **A value.** -/
inductive Value where
  | null
  | int (n : Int)
  | real (x : Decimal.Extended)
  | text (s : String)
deriving DecidableEq, Repr

/-- The kind of a value, by its name in messages. -/
def Value.kindName : Value → String
  | .null => "NULL"
  | .int _ => "INTEGER"
  | .real _ => "REAL"
  | .text _ => "TEXT"

def Value.ofInt? : Option Int → Value
  | some n => .int n
  | none => .null

def Value.ofText? : Option String → Value
  | some s => .text s
  | none => .null

/-! ### Numbers in texts -/

/-- **The number at the start of a text.** -/
structure Numeral where
  negative : Bool
  whole : List Char
  fraction : List Char
  /-- There is a point. -/
  pointed : Bool
  /-- There is the mark of an exponent. -/
  marked : Bool
  /-- The exponent, if digits follow its mark. -/
  exponent? : Option Int
  /-- What follows the number and blanks after it. -/
  rest : List Char
deriving Repr

namespace Numeral

/-- A blank around a number. -/
def isBlank (c : Char) : Bool := c == ' ' || (9 ≤ c.toNat && c.toNat ≤ 13)

/-- A mark, a sign and digits of an exponent, and what follows. -/
def readExponent (cs : List Char) : Bool × Option Int × List Char :=
  match cs with
  | c :: tail =>
    if c = 'e' ∨ c = 'E' then
      let (negative, tail) := Decimal.Extended.splitSign tail
      let ds := tail.takeWhile Char.isDigit
      let n : Int := if negative then -(Decimal.value ds : Int) else Decimal.value ds
      (true, if ds.isEmpty then none else some n, tail.dropWhile Char.isDigit)
    else (false, none, cs)
  | [] => (false, none, [])

/-- The number at the start of a text, after blanks. -/
def read (s : String) : Numeral :=
  let (negative, cs) := Decimal.Extended.splitSign (s.toList.dropWhile isBlank)
  let whole := cs.takeWhile Char.isDigit
  let cs := cs.dropWhile Char.isDigit
  let pointed := cs.head? == some '.'
  let cs := if pointed then cs.drop 1 else cs
  let fraction := if pointed then cs.takeWhile Char.isDigit else []
  let cs := if pointed then cs.dropWhile Char.isDigit else cs
  let (marked, exponent, cs) := readExponent cs
  ⟨negative, whole, fraction, pointed, marked, exponent, cs.dropWhile isBlank⟩

def hasDigits (n : Numeral) : Bool := !(n.whole.isEmpty && n.fraction.isEmpty)

/-- Nothing is missing and nothing follows. -/
def isComplete (n : Numeral) : Bool :=
  n.hasDigits && n.rest.isEmpty && (!n.marked || n.exponent?.isSome)

/-- The number has a point or an exponent, so it is no integer as it is written. -/
def isFractional (n : Numeral) : Bool :=
  n.hasDigits &&
    if n.marked then n.pointed || n.exponent?.isSome else n.pointed

/-- The digits in front of a point as an integer. -/
def integer (n : Numeral) : Int :=
  if n.negative then -(Decimal.value n.whole : Int) else Decimal.value n.whole

/-- The nearest floating-point number. -/
def real (n : Numeral) : Decimal.Extended :=
  Decimal.Extended.ofDecimal n.negative (Decimal.value (n.whole ++ n.fraction))
    (n.exponent?.getD 0 - n.fraction.length)

/-- The value: an integer where it is written as one and has 64 bits. -/
def value (n : Numeral) : Value :=
  if n.isFractional then .real n.real
  else if Breakdown.int64Min ≤ n.integer ∧ n.integer ≤ Breakdown.int64Max then .int n.integer
  else .real n.real

end Numeral

namespace Value

/-- The integer that a floating-point number is, strictly between the ends of the range. -/
def integer? : Decimal.Extended → Option Int
  | .finite x =>
    let (num, den) := x.ratio
    let n : Int := if x.negative then -(num / den : Nat) else (num / den : Nat)
    if num % den = 0 ∧ Breakdown.int64Min < n ∧ n < Breakdown.int64Max then some n else none
  | _ => none

/-- A floating-point number as an integer column keeps it. -/
def ofReal (x : Decimal.Extended) : Value :=
  match integer? x with
  | some n => .int n
  | none => .real x

/-- **The value as an integer column keeps it.** -/
def inIntegerColumn : Value → Value
  | .text s =>
    let n := Numeral.read s
    if n.isComplete then
      match n.value with
      | .real x => ofReal x
      | v => v
    else .text s
  | .real x => ofReal x
  | v => v

/-- **The value as a text column keeps it.** -/
def inTextColumn : Value → Option String
  | .null => none
  | .int n => some (String.ofList (Decimal.ofInt n))
  | .real x => some x.text
  | .text s => some s

/-! ### Order -/

/-- Nothing, a number, a text. -/
def rank : Value → Nat
  | .null => 0
  | .int _ => 1
  | .real _ => 1
  | .text _ => 2

/-- A floating-point number as a quotient with a sign; an infinity is beyond all that occur. -/
def quotient : Decimal.Extended → Int × Nat
  | .finite x => (if x.negative then -(x.ratio.1 : Int) else x.ratio.1, x.ratio.2)
  | .infinite negative => (if negative then -(Nat.pow 2 1024 : Int) else Nat.pow 2 1024, 1)
  | .nan => (0, 1)

/-- A number as a quotient with a sign. -/
def quotientOf : Value → Int × Nat
  | .int n => (n, 1)
  | .real x => quotient x
  | _ => (0, 1)

/-- **The order of values.** -/
def lt (a b : Value) : Bool :=
  match a, b with
  | .int m, .int n => m < n
  | .text s, .text t => s < t
  | a, b =>
    if a.rank = b.rank then
      (quotientOf a).1 * (quotientOf b).2 < (quotientOf b).1 * (quotientOf a).2
    else a.rank < b.rank

/-- The order of lists of values, by the first place at which they differ. -/
def lexLt : List Value → List Value → Bool
  | [], [] => false
  | [], _ :: _ => true
  | _ :: _, [] => false
  | a :: as, b :: bs => a.lt b || (!b.lt a && lexLt as bs)

def isNull : Value → Bool
  | .null => true
  | _ => false

/-- The value comes before another one; nothing has no place. -/
def isBelow (a b : Value) : Bool := !a.isNull && !b.isNull && a.lt b

/-- The value does not come after another one; nothing has no place. -/
def isAtMost (a b : Value) : Bool := !a.isNull && !b.isNull && !b.lt a

@[simp] theorem lt_int (m n : Int) : (Value.int m).lt (.int n) = decide (m < n) := by
  simp [lt]

@[simp] theorem isBelow_int (m n : Int) : (Value.int m).isBelow (.int n) = decide (m < n) := by
  simp [isBelow, isNull]

@[simp] theorem isAtMost_int (m n : Int) : (Value.int m).isAtMost (.int n) = decide (m ≤ n) := by
  have h : (¬ n < m) ↔ m ≤ n := Int.not_lt
  simp [isAtMost, isNull, ← decide_not, h]

/-! ### Arithmetic -/

/-- The nearest floating-point number to a quotient. -/
def nearest (num : Int) (den : Nat) : Decimal.Extended :=
  match Binary64.round? (num < 0) num.natAbs den with
  | some x => .finite x
  | none => .infinite (num < 0)

/-- A floating-point number and one. -/
def succReal : Decimal.Extended → Decimal.Extended
  | .finite x => nearest ((quotient (.finite x)).1 + (x.ratio.2 : Int)) x.ratio.2
  | x => x

/-- **One more**; beyond the integers a floating-point number. -/
def succ (v : Value) : Value :=
  let v := match v with
    | .text s => (Numeral.read s).value
    | v => v
  match v with
  | .int n =>
    if n + 1 ≤ Breakdown.int64Max then .int (n + 1) else .real (nearest (n + 1) 1)
  | .real x => .real (succReal x)
  | v => v

theorem succ_int {n : Int} (h : n + 1 ≤ Breakdown.int64Max) :
    (Value.int n).succ = .int (n + 1) := by
  unfold succ
  exact if_pos h

end Value

end JobQueue.Sql

import JobQueue.Decimal.Digits

/-! # Breakdowns

Some faults leave no answer at all: the work in which they happen stops there, and with it the task
that does it. `Breakdown` lists them; `Breakdown.message` is what is reported of them. -/

namespace JobQueue

/-- **Why work stops in the middle.** -/
inductive Breakdown where
  /-- A sum of integers leaves its range. -/
  | sum
  /-- A difference of integers leaves its range. -/
  | difference
  /-- A multiple of a duration leaves its range. -/
  | multiple
  /-- An earlier breakdown happened in the middle of a change of the same data. -/
  | poisoned
  /-- A list of so many entries has none at this place. -/
  | outOfBounds (length place : Nat)
  /-- A list is to have more entries than there can be. -/
  | capacity
deriving DecidableEq, Repr

namespace Breakdown

/-- **The report of a breakdown.** -/
def message : Breakdown → String
  | .sum => "attempt to add with overflow"
  | .difference => "attempt to subtract with overflow"
  | .multiple => "overflow when multiplying duration by scalar"
  | .poisoned =>
    "called `Result::unwrap()` on an `Err` value: PoisonError \x7b .. \x7d"
  | .outOfBounds length place =>
    "index out of bounds: the len is " ++ String.ofList (Decimal.digits length) ++
      " but the index is " ++ String.ofList (Decimal.digits place)
  | .capacity => "capacity overflow"

/-- The least integer of 64 bits with a sign. -/
def int64Min : Int := -9223372036854775808

/-- The greatest integer of 64 bits with a sign. -/
def int64Max : Int := 9223372036854775807

/-- The sum of two integers, which must have 64 bits. -/
def sum64 (a b : Int) : Except Breakdown Int :=
  if int64Min ≤ a + b ∧ a + b ≤ int64Max then .ok (a + b) else .error .sum

theorem sum64_eq_ok {a b n : Int} (h : sum64 a b = .ok n) : n = a + b := by
  unfold sum64 at h
  split at h
  · exact (Except.ok.inj h).symm
  · cases h

end Breakdown

end JobQueue

import JobQueue.Decimal.Digits

/-! # Durations

A duration is a whole number of nanoseconds, at most `2 ^ 64` seconds less one nanosecond.
Arithmetic that would pass this bound stays at it (`ofNanos`, `scale`) or has no answer
(`scale?`).

* `secs`, `subsecNanos`: the two parts; `nanos_eq`: together they are the duration.
* `wholeMillis`: milliseconds rounded down, at most the largest 64-bit integer.
* `text`: the form used in messages, in the largest unit that is not below one. -/

namespace JobQueue

/-- Nanoseconds of a second. -/
def nanosPerSecond : Nat := 1000000000

/-- The nanoseconds of `2 ^ 64` seconds, which no duration reaches. -/
def durationBound : Nat := 18446744073709551616 * nanosPerSecond

/-- **A duration** in nanoseconds. -/
structure Duration where
  nanos : Nat
  nanos_lt : nanos < durationBound
deriving DecidableEq, Repr

namespace Duration

/-- The longest duration. -/
def longest : Duration := ⟨durationBound - 1, by decide⟩

def zero : Duration := ⟨0, by decide⟩

/-- The duration of that many nanoseconds, or the longest one. -/
def ofNanos (n : Nat) : Duration :=
  if h : n < durationBound then ⟨n, h⟩ else longest

/-- The duration of that many nanoseconds, if there is one. -/
def ofNanos? (n : Nat) : Option Duration :=
  if h : n < durationBound then some ⟨n, h⟩ else none

def ofMillis (n : Nat) : Duration := ofNanos (n * 1000000)

def ofSecs (n : Nat) : Duration := ofNanos (n * nanosPerSecond)

/-- Whole seconds and further nanoseconds, which may be more than a second's. -/
def ofParts? (secs nanos : Nat) : Option Duration := ofNanos? (secs * nanosPerSecond + nanos)

/-- The whole seconds. -/
def secs (d : Duration) : Nat := d.nanos / nanosPerSecond

/-- The nanoseconds beyond the whole seconds. -/
def subsecNanos (d : Duration) : Nat := d.nanos % nanosPerSecond

def isZero (d : Duration) : Bool := d.nanos == 0

/-- `k` times the duration, or the longest one. -/
def scale (d : Duration) (k : Nat) : Duration := ofNanos (d.nanos * k)

/-- `k` times the duration, if there is one. -/
def scale? (d : Duration) (k : Nat) : Option Duration := ofNanos? (d.nanos * k)

/-- The `k`th part, rounded down to the nanosecond. -/
def part (d : Duration) (k : Nat) : Duration :=
  ⟨d.nanos / k, Nat.lt_of_le_of_lt (Nat.div_le_self ..) d.nanos_lt⟩

/-- **Whole milliseconds**, at most the largest signed 64-bit integer. -/
def wholeMillis (d : Duration) : Int := min (d.nanos / 1000000 : Nat) 9223372036854775807

/-- Digits of a fraction of `width` places, without trailing zeros. -/
def fractionDigits : Nat → Nat → List Char
  | 0, _ => []
  | width + 1, n =>
    if n = 0 then []
    else Decimal.digitChar (n / Nat.pow 10 width) :: fractionDigits width (n % Nat.pow 10 width)

/-- An amount of `n` units of `10 ^ width` parts each. -/
def amount (n : Nat) (width : Nat) : List Char :=
  let whole := Decimal.digits (n / Nat.pow 10 width)
  match fractionDigits width (n % Nat.pow 10 width) with
  | [] => whole
  | ds => whole ++ '.' :: ds

/-- **The form in messages**: seconds, milliseconds, microseconds or nanoseconds, with a fraction as
long as needed. -/
def text (d : Duration) : String :=
  if nanosPerSecond ≤ d.nanos then String.ofList (amount d.nanos 9 ++ ['s'])
  else if 1000000 ≤ d.nanos then String.ofList (amount d.nanos 6 ++ ['m', 's'])
  else if 1000 ≤ d.nanos then String.ofList (amount d.nanos 3 ++ ['µ', 's'])
  else String.ofList (amount d.nanos 0 ++ ['n', 's'])

theorem nanos_eq (d : Duration) : d.secs * nanosPerSecond + d.subsecNanos = d.nanos := by
  unfold secs subsecNanos
  rw [Nat.mul_comm]
  exact Nat.div_add_mod ..

theorem nanos_ofNanos (n : Nat) : (ofNanos n).nanos = min n longest.nanos := by
  unfold ofNanos
  split
  · simp only [longest]; omega
  · simp only [longest]; omega

theorem nanos_scale (d : Duration) (k : Nat) :
    (d.scale k).nanos = min (d.nanos * k) longest.nanos := nanos_ofNanos _

theorem wholeMillis_nonneg (d : Duration) : 0 ≤ d.wholeMillis := by
  unfold wholeMillis; omega

end Duration

end JobQueue

import JobQueue.Breakdown
import JobQueue.Duration

/-! # Points in time

A point in time is a number of milliseconds since the epoch, an integer of 64 bits with a sign;
what leaves the range stays at its end (`later`), breaks the operation down (`after`, `before`), or
comes around at the other end (`wrap`), as the operation says.

* `later_eq_of_le`: within the range `later` is addition. -/

namespace JobQueue

namespace Timestamp

/-- The earliest point in time. -/
def earliest : Int := -9223372036854775808

/-- The latest point in time. -/
def latest : Int := 9223372036854775807

/-- The integer is a point in time. -/
def InRange (t : Int) : Prop := earliest ≤ t ∧ t ≤ latest

instance (t : Int) : Decidable (InRange t) := by unfold InRange; infer_instance

/-- The point `d` after `now`, or the latest one. -/
def later (now : Int) (d : Duration) : Int := min (now + d.wholeMillis) latest

/-- The point `d` after `now`. -/
def after (now : Int) (d : Duration) : Except Breakdown Int :=
  if now + d.wholeMillis ≤ latest then .ok (now + d.wholeMillis) else .error .sum

/-- The point `d` before `now`. -/
def before (now : Int) (d : Duration) : Except Breakdown Int :=
  if earliest ≤ now - d.wholeMillis then .ok (now - d.wholeMillis) else .error .difference

/-- The point that an integer reaches going around the range. -/
def wrap (t : Int) : Int := t.bmod 18446744073709551616

theorem later_eq_of_le {now : Int} {d : Duration} (h : now + d.wholeMillis ≤ latest) :
    later now d = now + d.wholeMillis := by
  unfold later; omega

theorem later_le (now : Int) (d : Duration) : later now d ≤ latest := by
  unfold later; omega

theorem le_later {now : Int} (d : Duration) (h : now ≤ latest) : now ≤ later now d := by
  have := d.wholeMillis_nonneg
  unfold later; omega

end Timestamp

end JobQueue

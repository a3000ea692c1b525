import JobQueue.Timestamp

/-! # Clocks

A clock tells the time in milliseconds since the epoch. A manual clock stands until it is set or
advanced, and comes around at the end of its range; a running clock follows the elapsed time. -/

namespace JobQueue

/-- **A clock.** -/
inductive Clock where
  | manual (now : Int)
  | running (start : Int)
deriving DecidableEq, Repr

namespace Clock

/-- The time after that many elapsed milliseconds. -/
def now (elapsed : Nat) : Clock → Int
  | .manual now => now
  | .running start => start + elapsed

/-- The clock shows the given time. -/
def set (elapsed : Nat) (time : Int) : Clock → Clock
  | .manual _ => .manual time
  | .running _ => .running (time - elapsed)

/-- The clock moves on by the whole milliseconds of the duration. -/
def advance (d : Duration) : Clock → Clock
  | .manual now => .manual (Timestamp.wrap (now + d.wholeMillis))
  | .running start => .running (Timestamp.wrap (start + d.wholeMillis))

end Clock

end JobQueue

import JobQueue.Duration

/-! # Tickers

A ticker is due at its start and then once an interval. A tick that is taken late by more than five
milliseconds moves the rhythm: the next is due a full interval after it was taken. Else the rhythm
stays. Times are nanoseconds from a common start. -/

namespace JobQueue

/-- **A ticker.** -/
structure Ticker where
  interval : Nat
  due : Nat
deriving DecidableEq, Repr

namespace Ticker

/-- The lateness, in nanoseconds, up to which the rhythm stays. -/
def tolerance : Nat := 5000000

def start (interval : Duration) (now : Nat) : Ticker := ⟨interval.nanos, now⟩

def isDue (ticker : Ticker) (now : Nat) : Bool := ticker.due ≤ now

/-- The ticker after a tick was taken. -/
def take (ticker : Ticker) (now : Nat) : Ticker :=
  { ticker with
    due := if ticker.due + tolerance < now then now + ticker.interval
           else ticker.due + ticker.interval }

theorem due_lt_due_take {ticker : Ticker} {now : Nat} (h : 0 < ticker.interval) :
    ticker.due < (ticker.take now).due := by
  unfold take
  split <;> simp only <;> omega

end Ticker

end JobQueue

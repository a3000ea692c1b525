/-! # The shutdown signal

One sender tells any number of holders that it is time to stop. The signal stays once it is given; a
holder that waits is also let go when the sender is gone, without a signal. -/

namespace JobQueue

/-- **The state of a shutdown signal.** -/
structure Shutdown where
  signalled : Bool
  senderAlive : Bool
deriving DecidableEq, Repr

namespace Shutdown

def fresh : Shutdown := ⟨false, true⟩

/-- The sender gives the signal; without a sender nothing happens. -/
def signal (s : Shutdown) : Shutdown := { s with signalled := s.signalled || s.senderAlive }

/-- The sender goes. -/
def dropSender (s : Shutdown) : Shutdown := { s with senderAlive := false }

/-- Waiting for the signal comes to an end. -/
def endsWait (s : Shutdown) : Bool := s.signalled || !s.senderAlive

end Shutdown

end JobQueue

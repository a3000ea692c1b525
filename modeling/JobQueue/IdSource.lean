import JobQueue.Decimal.Digits
import JobQueue.Error

/-! # Sources of job ids

A source yields one id after the other. -/

namespace JobQueue

/-- **A source of ids**: the id at each place, and how many were drawn. -/
structure IdSource where
  idAt : Nat → JobId
  drawn : Nat

namespace IdSource

/-- The ids `job-1`, `job-2` and so on. -/
def sequential : IdSource :=
  ⟨fun n => "job-" ++ String.ofList (Decimal.digits (n + 1)), 0⟩

/-- The next id. -/
def draw (source : IdSource) : JobId × IdSource :=
  (source.idAt source.drawn, { source with drawn := source.drawn + 1 })

/-- The next `n` ids. -/
def take (source : IdSource) : Nat → List JobId
  | 0 => []
  | n + 1 => source.draw.1 :: source.draw.2.take n

end IdSource

end JobQueue

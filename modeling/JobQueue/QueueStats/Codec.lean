import JobQueue.Json.Basic
import JobQueue.QueueStats

/-! # Queue statistics as JSON -/

namespace JobQueue

/-- The counts as an object, with the queue's name. -/
def QueueStats.toJson (stats : QueueStats) : Json :=
  Json.ofFields <|
    ("queue", .str stats.queue) :: Status.all.map fun s => (s.name, .int (stats.count s))

end JobQueue

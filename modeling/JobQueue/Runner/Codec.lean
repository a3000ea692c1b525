import JobQueue.QueueStats.Codec
import JobQueue.Runner

/-! # Overviews as JSON -/

namespace JobQueue

/-- The overview as an object. -/
def RunnerStats.toJson (stats : RunnerStats) : Json :=
  Json.ofFields [
    ("worker_id", .str stats.workerId),
    ("active_jobs", .int stats.activeJobs.length),
    ("active_job_ids", .arr (stats.activeJobs.map .str)),
    ("queues", .arr (stats.queues.map QueueStats.toJson))]

end JobQueue

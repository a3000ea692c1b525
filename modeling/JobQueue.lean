import JobQueue.Json.Writer
import JobQueue.Request.Codec
import JobQueue.Runner.Codec
import JobQueue.Settings.Basic
import JobQueue.Settings.DatabaseFile
import JobQueue.Simulation.Host
import JobQueue.Proofs.Text.Bytes
import JobQueue.Proofs.Jobs.Order
import JobQueue.Proofs.Jobs.Effect
import JobQueue.Proofs.Jobs.Census
import JobQueue.Proofs.Jobs.Queues
import JobQueue.Proofs.Sql.JobRow
import JobQueue.Proofs.Sql.Ready
import JobQueue.Proofs.Sql.Holds
import JobQueue.Proofs.Sql.History
import JobQueue.Proofs.Sql.Consistency
import JobQueue.Proofs.Sql.Fencing
import JobQueue.Proofs.Sql.Lifecycle
import JobQueue.Proofs.Sql.Claims
import JobQueue.Proofs.Sql.Recovery
import JobQueue.Proofs.Sql.Groups
import JobQueue.Proofs.Sql.Upgrades
import JobQueue.Proofs.Memory.History
import JobQueue.Proofs.Sql.Failures
import JobQueue.Proofs.Stores.Agreement
import JobQueue.Proofs.Stores.Reports
import JobQueue.Proofs.Stores.Entry
import JobQueue.Proofs.Sql.Ledger
import JobQueue.Proofs.Sql.Readable
import JobQueue.Proofs.Sql.Isolation
import JobQueue.Proofs.Worker.System
import JobQueue.Proofs.Worker.Accounting
import JobQueue.Proofs.Worker.Outcome
import JobQueue.Proofs.Worker.Retries
import JobQueue.Proofs.Worker.Tasks
import JobQueue.Proofs.Worker.Guards
import JobQueue.Proofs.Worker.Holders
import JobQueue.Proofs.Worker.Tracking
import JobQueue.Proofs.Runner.Config
import JobQueue.Proofs.Settings.Accepted
import JobQueue.Proofs.Runner.Calls
import JobQueue.Proofs.Runner.Occurrences
import JobQueue.Proofs.Runner.Evolution
import JobQueue.Proofs.Runner.Moves
import JobQueue.Proofs.Runner.Soundness
import JobQueue.Proofs.Runner.Requests
import JobQueue.Proofs.Runner.Lifecycle
import JobQueue.Proofs.Runner.Start
import JobQueue.Proofs.Runner.Debts
import JobQueue.Proofs.Runner.Drain
import JobQueue.Proofs.Runner.Bounded
import JobQueue.Proofs.Json.Nesting
import JobQueue.Proofs.Request.Rules
import JobQueue.Proofs.Cleanup.Calls
import JobQueue.Proofs.Cleanup.Moves
import JobQueue.Proofs.Cleanup.Passes
import JobQueue.Proofs.Cleanup.Ages
import JobQueue.Proofs.WorkerLoop.Runs
import JobQueue.Proofs.WorkerLoop.Moves
import JobQueue.Proofs.WorkerLoop.Systems
import JobQueue.Proofs.WorkerLoop.Crews
import JobQueue.Proofs.Memory.Delays
import JobQueue.Proofs.Sql.Migrations
import JobQueue.Proofs.Settings.Kinds
import JobQueue.Proofs.Settings.Texts
import JobQueue.Proofs.Stores.Shifts
import JobQueue.Proofs.Stores.Statistics
import JobQueue.Proofs.Json.Records
import JobQueue.Proofs.Json.Embeddings
import JobQueue.Proofs.Request.Forms
import JobQueue.Proofs.Jobs.Forms
import JobQueue.Proofs.Keyed

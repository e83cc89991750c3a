import ForkAgent.Effects.Execution
import ForkAgent.Effects.Interleaving
import ForkAgent.Effects.Program
import ForkAgent.Fpel.Authorization
import ForkAgent.Fpel.Gate
import ForkAgent.Fpel.Supersede
import ForkAgent.Fpel.Elsewhere
import ForkAgent.Fpel.HashAuthority
import ForkAgent.Fpel.Reports
import ForkAgent.Fpel.Repository
import ForkAgent.Fpel.Store
import ForkAgent.Fpel.System
import ForkAgent.Python.Basic
import ForkAgent.Python.Documents
import ForkAgent.Storage.Table
import ForkAgent.Storage.Lineage
import ForkAgent.TaskBoard.Entity
import ForkAgent.TaskBoard.Repository
import ForkAgent.TaskBoard.Service
import ForkAgent.TaskBoard.Start
import ForkAgent.Launch.Entity
import ForkAgent.Launch.Repository
import ForkAgent.Launch.Lifecycle
import ForkAgent.Launch.System
import ForkAgent.Launch.Store
import ForkAgent.Launch.Served
import ForkAgent.Launch.Exclusion
import ForkAgent.Launch.Quarantine
import ForkAgent.Effects.Serial
import ForkAgent.Polling.Entity
import ForkAgent.Polling.Repository
import ForkAgent.Polling.Service
import ForkAgent.Polling.System
import ForkAgent.Polling.Cap
import ForkAgent.Polling.Pollers
import ForkAgent.Polling.Served
import ForkAgent.Polling.Moves
import ForkAgent.Polling.Transitions
import ForkAgent.Polling.Unresolved
import ForkAgent.Polling.Timeout
import ForkAgent.Polling.RefusedStart
import ForkAgent.TaskBoard.Writes
import ForkAgent.TaskBoard.Served
import ForkAgent.TaskBoard.Approval
import ForkAgent.Effects.Schedule
import ForkAgent.TaskBoard.Replay
import ForkAgent.TaskBoard.EmergencyStop
import ForkAgent.TaskBoard.Blockers
import ForkAgent.Launch.Lineage
import ForkAgent.Launch.FailClosed
import ForkAgent.Launch.Ownership
import ForkAgent.Launch.Record
import ForkAgent.Spawn.Surfaces
import ForkAgent.Spawn.Poller
import ForkAgent.Spawn.System
import ForkAgent.Spawn.Exclusive
import ForkAgent.Sessions.Entity
import ForkAgent.Memory.Entity
import ForkAgent.Memory.Table
import ForkAgent.Memory.Repository
import ForkAgent.Memory.Service
import ForkAgent.Sync.Repository
import ForkAgent.Memory.Runs
import ForkAgent.Memory.Served
import ForkAgent.Memory.Events
import ForkAgent.Memory.Changes
import ForkAgent.Memory.Journal
import ForkAgent.Memory.Merge
import ForkAgent.Sessions.Service
import ForkAgent.Sessions.Active
import ForkAgent.Workflow.State
import ForkAgent.Workflow.Commands
import ForkAgent.Workflow.Phases
import ForkAgent.Workspace.Manager
import ForkAgent.Python.Lines
import ForkAgent.Workspace.Porcelain
import ForkAgent.Workflow.Cleanup
import ForkAgent.Workflow.Executor
import ForkAgent.Workflow.Executions
import ForkAgent.Workflow.Codec
import ForkAgent.Storage.FullText
import ForkAgent.Memory.Search
import ForkAgent.Memory.Readable
import ForkAgent.Memory.Saves
import ForkAgent.Memory.Isolation
import ForkAgent.Sync.Disk
import ForkAgent.Sync.Service
import ForkAgent.Sync.Runs
import ForkAgent.Sync.Exports
import ForkAgent.Sync.Imports
import ForkAgent.Sync.RoundTrip
import ForkAgent.Sync.Manifest
import ForkAgent.Sync.Commands
import ForkAgent.Sync.Watermark
import ForkAgent.Sync.Reimport
import ForkAgent.Messages.Store
import ForkAgent.Messages.Cap
import ForkAgent.Messages.Broadcast
import ForkAgent.Migrations.Loader
import ForkAgent.Migrations.Runner
import ForkAgent.Migrations.Forward
import ForkAgent.Migrations.Atomic
import ForkAgent.Promises.Entity
import ForkAgent.Promises.Repository
import ForkAgent.Promises.Evidence
import ForkAgent.Tmux.DeadLetterQueue
import ForkAgent.Tmux.DeadLetters
import ForkAgent.Effects.Sequence
import ForkAgent.Telemetry.Accounting
import ForkAgent.Telemetry.Counters
import ForkAgent.Hybrid.Client
import ForkAgent.Hybrid.Server
import ForkAgent.Hybrid.Dispatch
import ForkAgent.Storage.QueryGrammar
import ForkAgent.Memory.Query
import ForkAgent.Memory.TopicKeys
import ForkAgent.Memory.Recall
import ForkAgent.Memory.ShortIds
import ForkAgent.Text.Patterns
import ForkAgent.Redaction.Service
import ForkAgent.Redaction.Metadata
import ForkAgent.Python.JsonText
import ForkAgent.Output.Service
import ForkAgent.Output.Faithful
import ForkAgent.Output.Budget
import ForkAgent.Messages.Protocol
import ForkAgent.Messages.References
import ForkAgent.Effects.Clocked
import ForkAgent.Messages.RateLimiter
import ForkAgent.Messages.SlidingWindow
import ForkAgent.Api.RateLimit
import ForkAgent.Api.Admission
import ForkAgent.Tmux.CircuitBreaker
import ForkAgent.Tmux.Tripping
import ForkAgent.Text.FirstMatch
import ForkAgent.Text.Bytes
import ForkAgent.Python.Paths
import ForkAgent.Text.Substitution
import ForkAgent.Tmux.Sanitize
import ForkAgent.Effects.Traces
import ForkAgent.Orchestration.Dispatcher
import ForkAgent.Orchestration.Dispatch
import ForkAgent.Graph.DepthFirst
import ForkAgent.TaskBoard.Cycles
import ForkAgent.Obsidian.Export
import ForkAgent.Obsidian.Places
import ForkAgent.Python.Files
import ForkAgent.Obsidian.Import
import ForkAgent.Obsidian.RoundTrip
import ForkAgent.Memory.Diff
import ForkAgent.Memory.Privacy
import ForkAgent.Storage.Selection
import ForkAgent.Retrieval.EnhancedSearch
import ForkAgent.Storage.LatestBy
import ForkAgent.Spawn.CanonicalKeys
import ForkAgent.Tmux.Recovery

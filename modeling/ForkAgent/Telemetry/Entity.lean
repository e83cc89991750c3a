import ForkAgent.Python.Json

/-!
# Telemetry events and session summaries

Times are milliseconds. A type of event that has no name below is an event like any other.
-/

namespace ForkAgent.Telemetry

inductive EventCategory where
  | session
  | hook
  | agent
  | tmux
  | memory
  | workflow
  | cli
  | message
  | trace
  | error
  deriving DecidableEq, Repr

namespace EventCategory

def value : EventCategory → String
  | session => "session"
  | hook => "hook"
  | agent => "agent"
  | tmux => "tmux"
  | memory => "memory"
  | workflow => "workflow"
  | cli => "cli"
  | message => "message"
  | trace => "trace"
  | error => "error"

/-- `EventCategory(value)`. -/
def ofValue (name : String) : Except Exn EventCategory :=
  match [session, hook, agent, tmux, memory, workflow, cli, message, trace, error].find?
      (·.value = name) with
  | some category => .ok category
  | none => .error (.valueError s!"'{name}' is not a valid EventCategory")

theorem ofValue_value (category : EventCategory) : ofValue category.value = .ok category := by
  cases category <;> rfl

/-- `RETENTION_DAYS.get(category, 30)`; messages have no entry. -/
def retentionDays : EventCategory → Int
  | session | workflow | error => 90
  | hook | agent | tmux | memory | cli => 30
  | trace => 7
  | message => 30

end EventCategory

namespace EventType

def SESSION_START : String := "session.start"
def SESSION_END : String := "session.end"
def HOOK_FIRE : String := "hook.fire"
def HOOK_SUCCESS : String := "hook.success"
def HOOK_FAIL : String := "hook.fail"
def AGENT_SPAWN : String := "agent.spawn"
def AGENT_STOP : String := "agent.stop"
def TMUX_SESSION_CREATE : String := "tmux.session.create"
def TMUX_SESSION_KILL : String := "tmux.session.kill"
def MEMORY_SAVE : String := "memory.save"
def MEMORY_SEARCH : String := "memory.search"
def MEMORY_DELETE : String := "memory.delete"
def WORKFLOW_OUTLINE : String := "workflow.outline"
def WORKFLOW_EXECUTE : String := "workflow.execute"
def WORKFLOW_SHIP : String := "workflow.ship"
def WORKFLOW_ABORT : String := "workflow.abort"
def CLI_COMMAND : String := "cli.command"
def CLI_ERROR : String := "cli.error"
def CLI_HYBRID_DISPATCH : String := "cli.hybrid_dispatch"

end EventType

structure TelemetryEvent where
  id : String
  eventType : String
  eventCategory : String
  timestamp : Int
  receivedAt : Int
  attributes : JsonObject
  sessionId : Option String := none
  correlationId : Option String := none
  parentEventId : Option String := none
  metrics : Option JsonObject := none
  expiresAt : Option Int := none
  deriving DecidableEq

/-- What `track` is given. -/
structure TrackArgs where
  eventType : String
  eventCategory : String
  attributes : JsonObject
  metrics : Option JsonObject := none
  correlationId : Option String := none
  parentEventId : Option String := none
  timestamp : Option Int := none

/-- `TelemetryEvent.create`, with the time it reads and the id it draws. -/
def TelemetryEvent.create (nowMs : Int) (uuid : String) (sessionId : Option String)
    (args : TrackArgs) : Except Exn TelemetryEvent := do
  let category ← EventCategory.ofValue args.eventCategory
  return { id := uuid
           eventType := args.eventType
           eventCategory := category.value
           -- a timestamp of zero counts as none
           timestamp := (args.timestamp.filter (· ≠ 0)).getD nowMs
           receivedAt := nowMs
           attributes := args.attributes
           sessionId := sessionId
           correlationId := args.correlationId
           parentEventId := args.parentEventId
           metrics := args.metrics
           expiresAt := some (nowMs + category.retentionDays * 86400 * 1000) }

structure SessionSummary where
  sessionId : String
  workspaceId : Option String := none
  startedAt : Option Int := none
  endedAt : Option Int := none
  durationMs : Option Int := none
  status : String := "active"
  hooksFired : Int := 0
  hooksSucceeded : Int := 0
  hooksFailed : Int := 0
  agentsSpawned : Int := 0
  agentsCompleted : Int := 0
  agentsFailed : Int := 0
  tmuxSessionsCreated : Int := 0
  tmuxSessionsKilled : Int := 0
  memorySaves : Int := 0
  memorySearches : Int := 0
  memoryDeletes : Int := 0
  workflowStarted : Int := 0
  workflowCompleted : Int := 0
  workflowAborted : Int := 0
  cliCommands : Int := 0
  cliErrors : Int := 0
  hybridDispatches : Int := 0
  platform : Option String := none
  pythonVersion : Option String := none
  forkAgentVersion : Option String := none
  deriving DecidableEq, Repr

/-- A row of `telemetry_sessions`. -/
structure TelemetrySessionRow where
  sessionId : String
  workspaceId : Option String
  startedAt : Option Int
  endedAt : Option Int
  durationMs : Option Int
  status : String
  hooksFired : Int
  hooksSucceeded : Int
  hooksFailed : Int
  agentsSpawned : Int
  agentsCompleted : Int
  agentsFailed : Int
  tmuxSessionsCreated : Int
  tmuxSessionsKilled : Int
  memorySaves : Int
  memorySearches : Int
  memoryDeletes : Int
  workflowStarted : Int
  workflowCompleted : Int
  workflowAborted : Int
  cliCommands : Int
  cliErrors : Int
  platform : Option String
  pythonVersion : Option String
  forkAgentVersion : Option String
  deriving DecidableEq, Repr

/-- The row that `save_session_summary` writes. -/
def SessionSummary.toRow (summary : SessionSummary) : TelemetrySessionRow where
  sessionId := summary.sessionId
  workspaceId := summary.workspaceId
  startedAt := summary.startedAt
  endedAt := summary.endedAt
  durationMs := summary.durationMs
  status := summary.status
  hooksFired := summary.hooksFired
  hooksSucceeded := summary.hooksSucceeded
  hooksFailed := summary.hooksFailed
  agentsSpawned := summary.agentsSpawned
  agentsCompleted := summary.agentsCompleted
  agentsFailed := summary.agentsFailed
  tmuxSessionsCreated := summary.tmuxSessionsCreated
  tmuxSessionsKilled := summary.tmuxSessionsKilled
  memorySaves := summary.memorySaves
  memorySearches := summary.memorySearches
  memoryDeletes := summary.memoryDeletes
  workflowStarted := summary.workflowStarted
  workflowCompleted := summary.workflowCompleted
  workflowAborted := summary.workflowAborted
  cliCommands := summary.cliCommands
  cliErrors := summary.cliErrors
  platform := summary.platform
  pythonVersion := summary.pythonVersion
  forkAgentVersion := summary.forkAgentVersion

/-- `_row_to_session`. -/
def TelemetrySessionRow.toSession (row : TelemetrySessionRow) : SessionSummary where
  sessionId := row.sessionId
  workspaceId := row.workspaceId
  startedAt := row.startedAt
  endedAt := row.endedAt
  durationMs := row.durationMs
  status := row.status
  hooksFired := row.hooksFired
  hooksSucceeded := row.hooksSucceeded
  hooksFailed := row.hooksFailed
  agentsSpawned := row.agentsSpawned
  agentsCompleted := row.agentsCompleted
  agentsFailed := row.agentsFailed
  tmuxSessionsCreated := row.tmuxSessionsCreated
  tmuxSessionsKilled := row.tmuxSessionsKilled
  memorySaves := row.memorySaves
  memorySearches := row.memorySearches
  memoryDeletes := row.memoryDeletes
  workflowStarted := row.workflowStarted
  workflowCompleted := row.workflowCompleted
  workflowAborted := row.workflowAborted
  cliCommands := row.cliCommands
  cliErrors := row.cliErrors
  platform := row.platform
  pythonVersion := row.pythonVersion
  forkAgentVersion := row.forkAgentVersion

theorem SessionSummary.toSession_toRow (summary : SessionSummary) :
    summary.toRow.toSession = { summary with hybridDispatches := 0 } := rfl

/-- `replace(summary, **updates)` of `_update_session_summary`; `none` where there are no updates. -/
def SessionSummary.updated (summary : SessionSummary) (event : TelemetryEvent) :
    Option SessionSummary :=
  if event.eventType = EventType.HOOK_FIRE then
    some { summary with hooksFired := summary.hooksFired + 1 }
  else if event.eventType = EventType.HOOK_SUCCESS then
    some { summary with hooksSucceeded := summary.hooksSucceeded + 1 }
  else if event.eventType = EventType.HOOK_FAIL then
    some { summary with hooksFailed := summary.hooksFailed + 1 }
  else if event.eventType = EventType.AGENT_SPAWN then
    some { summary with agentsSpawned := summary.agentsSpawned + 1 }
  else if event.eventType = EventType.AGENT_STOP then
    if event.attributes.getD "status" (.str "completed") = .str "completed" then
      some { summary with agentsCompleted := summary.agentsCompleted + 1 }
    else
      some { summary with agentsFailed := summary.agentsFailed + 1 }
  else if event.eventType = EventType.TMUX_SESSION_CREATE then
    some { summary with tmuxSessionsCreated := summary.tmuxSessionsCreated + 1 }
  else if event.eventType = EventType.TMUX_SESSION_KILL then
    some { summary with tmuxSessionsKilled := summary.tmuxSessionsKilled + 1 }
  else if event.eventType = EventType.MEMORY_SAVE then
    some { summary with memorySaves := summary.memorySaves + 1 }
  else if event.eventType = EventType.MEMORY_SEARCH then
    some { summary with memorySearches := summary.memorySearches + 1 }
  else if event.eventType = EventType.MEMORY_DELETE then
    some { summary with memoryDeletes := summary.memoryDeletes + 1 }
  else if event.eventType = EventType.WORKFLOW_OUTLINE ∨
      event.eventType = EventType.WORKFLOW_EXECUTE then
    some { summary with workflowStarted := summary.workflowStarted + 1 }
  else if event.eventType = EventType.WORKFLOW_SHIP then
    some { summary with workflowCompleted := summary.workflowCompleted + 1 }
  else if event.eventType = EventType.WORKFLOW_ABORT then
    some { summary with workflowAborted := summary.workflowAborted + 1 }
  else if event.eventType = EventType.CLI_COMMAND then
    some { summary with cliCommands := summary.cliCommands + 1 }
  else if event.eventType = EventType.CLI_ERROR then
    some { summary with cliErrors := summary.cliErrors + 1 }
  else if event.eventType = EventType.CLI_HYBRID_DISPATCH then
    some { summary with hybridDispatches := summary.hybridDispatches + 1 }
  else none

end ForkAgent.Telemetry

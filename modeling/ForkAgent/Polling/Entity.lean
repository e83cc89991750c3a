import ForkAgent.Python.Basic

/-!
# Poll runs

A poll run records one autonomous execution of a task. Times are milliseconds.
-/

namespace ForkAgent.Polling

inductive PollRunStatus where
  | queued
  | spawning
  | running
  | terminating
  | quarantined
  | completed
  | failed
  | cancelled
  deriving DecidableEq, Repr

namespace PollRunStatus

def value : PollRunStatus → String
  | queued => "QUEUED"
  | spawning => "SPAWNING"
  | running => "RUNNING"
  | terminating => "TERMINATING"
  | quarantined => "QUARANTINED"
  | completed => "COMPLETED"
  | failed => "FAILED"
  | cancelled => "CANCELLED"

/-- `_VALID_TRANSITIONS`. -/
def validTransitions : PollRunStatus → List PollRunStatus
  | queued => [spawning, cancelled, quarantined]
  | spawning => [running, quarantined, failed, cancelled]
  | running => [terminating, completed, failed, cancelled]
  | terminating => [completed, failed, cancelled]
  | quarantined => [cancelled]
  | completed | failed | cancelled => []

/-- The statuses that set `ended_at`. -/
def isTerminal : PollRunStatus → Bool
  | completed | failed | cancelled => true
  | _ => false

/-- The statuses of `list_active`. -/
def isActive : PollRunStatus → Bool
  | queued | spawning | running | terminating => true
  | _ => false

/-- The statuses of `list_launch_blocking`. -/
def isLaunchBlocking : PollRunStatus → Bool
  | queued | spawning | running | terminating | quarantined => true
  | _ => false

/-- The statuses that the partial unique index on the task covers. -/
def isIndexed : PollRunStatus → Bool
  | queued | running => true
  | _ => false

theorem isLaunchBlocking_of_transition {a b : PollRunStatus} (h : b ∈ a.validTransitions) :
    a.isLaunchBlocking = true := by
  cases a <;> simp_all [validTransitions, isLaunchBlocking]

end PollRunStatus

structure PollRunFields where
  id : String
  taskId : String
  agentName : String
  status : PollRunStatus
  startedAt : Option Int := none
  endedAt : Option Int := none
  pollRunDir : Option String := none
  errorMessage : Option String := none
  launchMethod : Option String := none
  launchPaneId : Option String := none
  launchPid : Option Int := none
  launchPgid : Option Int := none
  launchRecordedAt : Option Int := none
  canonicalKey : Option String := none
  launchId : Option String := none
  deriving DecidableEq, Repr

namespace PollRunFields

def requireNonNegative (name : String) : Option Int → Except Exn Unit
  | none => .ok ()
  | some n => require (0 ≤ n) (.valueError s!"{name} must be non-negative")

def requireLaunchId : Option String → Except Exn Unit
  | none => .ok ()
  | some launchId =>
    require (strip launchId ≠ "")
      (.valueError "launch_id must be a non-empty string when provided")

def postInit (f : PollRunFields) : Except Exn Unit := do
  require (f.id ≠ "") (.valueError "id must be a non-empty string")
  require (f.taskId ≠ "") (.valueError "task_id must be a non-empty string")
  require (f.agentName ≠ "") (.valueError "agent_name must be a non-empty string")
  requireNonNegative "started_at" f.startedAt
  requireNonNegative "ended_at" f.endedAt
  requireNonNegative "launch_pid" f.launchPid
  requireNonNegative "launch_pgid" f.launchPgid
  requireNonNegative "launch_recorded_at" f.launchRecordedAt
  requireLaunchId f.launchId

end PollRunFields

/-- One autonomous execution of a task. -/
abbrev PollRun := Validated PollRunFields.postInit

def PollRun.canTransitionTo (run : PollRun) (target : PollRunStatus) : Bool :=
  target ∈ run.val.status.validTransitions

/-- The launch metadata that a later termination needs. -/
structure LaunchHandle where
  method : String
  paneId : Option String := none
  pid : Option Int := none
  pgid : Option Int := none
  deriving DecidableEq, Repr

end ForkAgent.Polling

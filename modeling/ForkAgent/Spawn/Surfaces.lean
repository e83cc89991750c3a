import ForkAgent.Polling.Service

/-!
# Spawn surfaces

The workflow executor and the agent manager, which claim a launch, confirm it and start an agent
in a tmux session, beside the poller. Sessions, worktrees and the event store only answer.
-/

namespace ForkAgent.Spawn

open Effects Launch Polling

/-- A task of a plan, with the fields that its execution reads. -/
structure WorkflowTask where
  id : String
  slug : String
  description : String
  deriving DecidableEq, Repr

/-- An event as it is emitted to memory. -/
structure WorkflowEvent where
  eventType : String
  content : String
  runId : String
  taskId : String
  agentId : String
  launchId : Option String
  sessionName : String
  mode : String := "worktree"
  branch : Option String := none
  worktreePath : Option String := none
  success : Option Bool := none
  errorMessage : Option String := none
  deriving DecidableEq, Repr

structure AgentConfig where
  name : String
  workingDir : String
  tmuxSession : Option String := none
  sessionTimeout : Int := 10
  deriving DecidableEq, Repr

structure TmuxAgent where
  config : AgentConfig
  tmuxSession : String
  deriving DecidableEq, Repr

/-- tmux, the backends, the worktrees, memory, the hooks, the agents that a manager holds, the
clock and fresh ids. -/
inductive SurfaceCall where
  | uuid4Hex
  | time
  | createSession (name : String)
  | getDefaultBackend
  | launchAgent (session : String) (window : Nat) (backend prompt model : String)
  | createWorkspace (name : String)
  | saveEvent (event : WorkflowEvent)
  | dispatchWorktreeCreated (workspaceName worktreePath : String)
  | hasAgent (name : String)
  | setAgent (agent : TmuxAgent)
  | newSession (session workingDir : String)
  | waitForSession (session : String) (timeout : Int)
  | killSession (session : String)

def SurfaceCall.Value : SurfaceCall → Type
  | .uuid4Hex | .createWorkspace _ => String
  | .time | .newSession .. => Int
  | .createSession _ | .launchAgent .. | .hasAgent _ | .waitForSession .. => Bool
  | .getDefaultBackend => Option String
  | .saveEvent _ | .dispatchWorktreeCreated .. | .setAgent _ | .killSession _ => Unit

def surfaceSignature : Signature := ⟨SurfaceCall, SurfaceCall.Value⟩

section Programs

variable (H : Fpel.Hashing)

def spawnSignature : Signature := surfaceSignature.sum (worldSignature H)

abbrev SpawnProgram := Program (spawnSignature H) Exn

/-- Where the calls of the launch lifecycle service are. -/
def registryEmbedding : Embedding launchSignature (spawnSignature H) :=
  ⟨fun c => .inr (.inr (.inl c)), fun _ => .refl _⟩

variable {H}

def surface (c : SurfaceCall) : SpawnProgram H c.Value := .perform (σ := spawnSignature H) (.inl c)

/-- A program of the launch lifecycle service. -/
def registry {α : Type} (p : LaunchProgram α) : SpawnProgram H α := p.lift (registryEmbedding H)

/-- Tell the lifecycle service about a claimed launch; what it answers is only logged. -/
def notify (launchId : Option String) (f : String → LaunchProgram Bool) : SpawnProgram H Unit :=
  match launchId with
  | none => return ()
  | some id => do
    let _ ← registry (f id)
    return ()

/-- `except Exception` around a statement whose failure is only logged. -/
def logged (p : SpawnProgram H Unit) : SpawnProgram H Unit := p.handle fun _ => return ()

end Programs

section Workflow

variable {H : Fpel.Hashing}

/-- `text[:n]`. -/
def upTo (n : Nat) (text : String) : String := String.ofList (text.toList.take n)

def buildWorkflowKey (taskId : String) : String := "workflow:" ++ sanitize taskId 128

structure TaskExecutionResult where
  task : WorkflowTask
  sessionName : Option String := none
  worktreePath : Option String := none
  worktreeName : Option String := none
  error : Option String := none
  deriving DecidableEq, Repr

/-- `if "already exists" not in str(first_error).lower(): raise`. -/
def alreadyExists (e : Exn) : Bool :=
  e.message.toLower.toList.tails.any fun rest => "already exists".toList.isPrefixOf rest

/-- `attempt.reason or "already active"`. -/
def suppressedReason (attempt : LaunchAttempt) : String :=
  (attempt.reason.filter (· ≠ "")).getD "already active"

def suppressedResult (task : WorkflowTask) (attempt : LaunchAttempt) : TaskExecutionResult where
  task := task
  sessionName := attempt.existingLaunch.bind (·.val.tmuxSession)
  error := some ("Launch suppressed: " ++ suppressedReason attempt)

def blockedResult (task : WorkflowTask) (attempt : LaunchAttempt) : TaskExecutionResult where
  task := task
  error := some ("Launch blocked by registry error: " ++ attempt.reason.getD "None")

/-- What one execution is about: the task, the names it was given and the launch it claimed. -/
structure Execution where
  task : WorkflowTask
  model : String
  sessionName : String
  runId : String
  launchId : Option String

variable (x : Execution)

def Execution.started : WorkflowEvent where
  eventType := "task_started"
  content := "Task started: " ++ upTo 100 x.task.description
  runId := x.runId
  taskId := x.task.id
  agentId := "pending"
  launchId := x.launchId
  sessionName := x.sessionName

def Execution.spawned : WorkflowEvent where
  eventType := "agent_spawned"
  content := "Agent spawned in session " ++ x.sessionName
  runId := x.runId
  taskId := x.task.id
  agentId := x.sessionName ++ ":0"
  launchId := x.launchId
  sessionName := x.sessionName

/-- The event that ends an execution; errors make it a failure. -/
def Execution.ended (session worktreeName worktreePath : Option String) (errors : List String) :
    WorkflowEvent where
  eventType := if errors = [] then "task_completed" else "task_failed"
  content := (if errors = [] then "Task completed: " else "Task failed: ") ++
    upTo 100 x.task.description
  runId := x.runId
  taskId := x.task.id
  agentId := (session.filter (· ≠ "")).getD "unknown"
  launchId := x.launchId
  sessionName := (session.filter (· ≠ "")).getD x.sessionName
  branch := worktreeName
  worktreePath := worktreePath
  success := some (errors = [])
  errorMessage := if errors = [] then none else some ("; ".intercalate errors)

/-- The agent in a session that is there; the answer is what went wrong. -/
def launchInSession : SpawnProgram H (List String) := do
  match ← surface .getDefaultBackend with
  | none => return ["No available agent backend found (opencode/pi)"]
  | some backend =>
    let launched : Bool ← surface (.launchAgent x.sessionName 0 backend
      ("Execute task: " ++ x.task.description) x.model)
    if launched then
      notify x.launchId fun id =>
        confirmActive id "tmux" "tmux-session" x.sessionName none (some x.sessionName) none none
      logged (surface (.saveEvent x.spawned))
      return []
    else return ["Failed to launch agent in tmux session: " ++ x.sessionName]

def sessionError (e : Exn) : String := "Error creating tmux session: " ++ e.message

/-- The session, if it was created, and what went wrong. -/
def createSession : SpawnProgram H (Option String × List String) :=
  (do
    let success : Bool ← surface (.createSession x.sessionName)
    if success then
      let errors ← (launchInSession x).handle fun e => return [sessionError e]
      return (some x.sessionName, errors)
    else return (none, ["Failed to create tmux session: " ++ x.sessionName])
    : SpawnProgram H (Option String × List String)).handle fun e => return (none, [sessionError e])

/-- A name that is taken gets a suffix, once. -/
def createWorktree : SpawnProgram H (String × String) := do
  let base := "task-" ++ upTo 30 x.task.slug
  let named (name : String) : SpawnProgram H (String × String) := do
    let path : String ← surface (.createWorkspace name)
    return (name, path)
  let created ← (named base).handle fun e =>
    if alreadyExists e then do
      let hex : String ← surface .uuid4Hex
      named (upTo 24 base ++ "-" ++ upTo 6 hex)
    else throw e
  logged (surface (.dispatchWorktreeCreated created.1 created.2))
  return created

/-- Mark the launch as failed if something went wrong. -/
def failLaunch (errors : List String) : SpawnProgram H Unit :=
  if errors = [] then return ()
  else notify x.launchId fun id => markFailed id ("; ".intercalate errors)

/-- The worktree, if it was created, and all that went wrong. -/
def addWorktree (errors : List String) : SpawnProgram H (Option (String × String) × List String) :=
  (do
    let created ← createWorktree x
    return (some created, errors)
    : SpawnProgram H (Option (String × String) × List String)).handle fun e =>
  return (none, errors ++ ["Failed to create worktree: " ++ e.message])

/-- The end of an execution: its last event and its result. -/
def finish (session : Option String) (worktree : Option (String × String)) (errors : List String) :
    SpawnProgram H TaskExecutionResult := do
  logged (surface (.saveEvent (x.ended session (worktree.map (·.1)) (worktree.map (·.2)) errors)))
  return {
    task := x.task
    sessionName := session
    worktreePath := worktree.map (·.2)
    worktreeName := worktree.map (·.1)
    error := if errors = [] then none else some ("; ".intercalate errors) }

/-- The part of an execution that follows the claim of a launch. -/
def executeClaimed : SpawnProgram H TaskExecutionResult := do
  logged (surface (.saveEvent x.started))
  notify x.launchId confirmSpawning
  let created ← createSession x
  failLaunch x created.2
  let added ← addWorktree x created.2
  finish x created.1 added.1 added.2

/-- A name that was given, or a fresh one. -/
def nameOr (given : Option String) (fresh : String → String) : SpawnProgram H String :=
  match given with
  | some name => return name
  | none => do
    let hex : String ← surface .uuid4Hex
    return fresh (upTo 8 hex)

def workflowRequest (leaseDurationMs : Int) (task : WorkflowTask) : LaunchRequest where
  canonicalKey := buildWorkflowKey task.id
  surface := "workflow"
  ownerType := "task"
  ownerId := task.id
  leaseDurationMs := leaseDurationMs

/-- `WorkflowExecutor.execute_task`, with the lease duration of the lifecycle service it was built
with, if it was built with one. -/
def executeTask (lifecycle : Option Int) (task : WorkflowTask) (model : String)
    (sessionName runId : Option String) : SpawnProgram H TaskExecutionResult := do
  let sessionName ← nameOr sessionName fun hex => "fork-" ++ upTo 20 task.slug ++ "-" ++ hex
  let runId ← nameOr runId fun hex => "run-" ++ hex
  match lifecycle with
  | none => executeClaimed ⟨task, model, sessionName, runId, none⟩
  | some leaseDurationMs =>
    let attempt ← registry (requestLaunch (workflowRequest leaseDurationMs task))
    match attempt.decision with
    | .suppressed => return suppressedResult task attempt
    | .error => return blockedResult task attempt
    | .claimed =>
      executeClaimed ⟨task, model, sessionName, runId, attempt.launch.map (·.val.launchId)⟩

end Workflow

section Manager

variable {H : Fpel.Hashing}

def buildManagerKey (agentName : String) : String := "manager:" ++ sanitize agentName 128

/-- `TmuxAgent(config)`; a session name that was not given is made from the time. -/
def tmuxAgent (config : AgentConfig) : SpawnProgram H TmuxAgent :=
  match config.tmuxSession.filter (· ≠ "") with
  | some session => return ⟨config, session⟩
  | none => do
    let now : Int ← surface .time
    return ⟨config, s!"agent-{config.name}-{now}"⟩

/-- `TmuxAgent.spawn`. -/
def TmuxAgent.spawn (agent : TmuxAgent) : SpawnProgram H Bool :=
  (do
    let returnCode : Int ← surface (.newSession agent.tmuxSession agent.config.workingDir)
    if returnCode ≠ 0 then return false
    else
      let ready : Bool ← surface (.waitForSession agent.tmuxSession agent.config.sessionTimeout)
      if ready then return true
      else
        logged (surface (.killSession agent.tmuxSession))
        return false : SpawnProgram H Bool).handle fun _ => return false

def managerRequest (leaseDurationMs : Int) (config : AgentConfig) : LaunchRequest where
  canonicalKey := buildManagerKey config.name
  surface := "manager"
  ownerType := "agent"
  ownerId := config.name
  leaseDurationMs := leaseDurationMs

/-- The part of a spawn that follows the claim of a launch. -/
def spawnClaimed (config : AgentConfig) (launchId : Option String) :
    SpawnProgram H (Option TmuxAgent) := do
  let agent ← tmuxAgent config
  notify launchId confirmSpawning
  if ← agent.spawn then
    surface (.setAgent agent)
    notify launchId fun id =>
      confirmActive id "tmux" "tmux-session" agent.tmuxSession none (some agent.tmuxSession) none none
    return some agent
  else
    notify launchId fun id => markFailed id "tmux spawn failed"
    return none

/-- `AgentManager.spawn_agent`. -/
def spawnAgent (lifecycle : Option Int) (config : AgentConfig) :
    SpawnProgram H (Option TmuxAgent) := do
  let known : Bool ← surface (.hasAgent config.name)
  if known then return none
  else
    match lifecycle with
    | none => spawnClaimed config none
    | some leaseDurationMs =>
      let attempt ← registry (requestLaunch (managerRequest leaseDurationMs config))
      if attempt.decision = .claimed then
        spawnClaimed config (attempt.launch.map (·.val.launchId))
      else return none

end Manager

end ForkAgent.Spawn

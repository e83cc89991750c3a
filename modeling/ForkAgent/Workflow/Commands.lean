import ForkAgent.Effects.Serial
import ForkAgent.Fpel.Entity
import ForkAgent.Workflow.State

/-!
# Workflow commands

`outline`, `execute` and `verify` each overwrite a state file of their own; `ship` reads the one that
`verify` has written. A state file is replaced as a whole or not at all. What the gate, the executor
of a task and the test runner answer is left open.
-/

namespace ForkAgent.Workflow

open Effects Fpel

/-- What the gate is asked about: a task of the plan or all of its tasks, by the content that is
hashed. -/
inductive HashScope where
  | task (id slug description : String)
  | plan (tasks : List (String × String × String))

/-- What executing a task has led to. -/
structure TaskExecutionResult where
  task : Task
  sessionName : Option String := none
  worktreePath : Option String := none
  worktreeName : Option String := none
  error : Option String := none

inductive WorkflowCall where
  | loadPlan
  | loadExecute
  | loadVerify
  | savePlan (state : PlanState)
  | saveExecute (state : ExecuteState)
  | saveVerify (state : VerifyState)
  | writePlanFile (path content : String)
  | uuid4Hex
  | hasFpelPort
  | checkSealed (targetId : String) (scope : HashScope)
  | executeTask (task : Task) (model : String)
  | runTests

def WorkflowCall.Value : WorkflowCall → Type
  | .loadPlan => Option PlanState
  | .loadExecute => Option ExecuteState
  | .loadVerify => Option VerifyState
  | .savePlan _ | .saveExecute _ | .saveVerify _ | .writePlanFile .. => Unit
  | .uuid4Hex => String
  | .hasFpelPort => Bool
  | .checkSealed .. => AuthorizationDecision
  | .executeTask .. => TaskExecutionResult
  | .runTests => VerifyResults

def workflowSignature : Signature := ⟨WorkflowCall, WorkflowCall.Value⟩

abbrev WorkflowProgram := Program workflowSignature Exn

/-- The state directory. -/
structure StateDir where
  plan : Option PlanState := none
  execute : Option ExecuteState := none
  verify : Option VerifyState := none

namespace StateDir

/-- A file is replaced when the call succeeds. -/
def Replaced (d written : StateDir) (r : Except Exn Unit) (d' : StateDir) : Prop :=
  r = .ok () ∧ d' = written ∨ (∃ e, r = .error e) ∧ d' = d

/-- A load that succeeds reads what is stored. Every call may fail, and then nothing is written. -/
def step : Semantics workflowSignature Exn StateDir
  | ⟨.loadPlan, r⟩, d, d' => d' = d ∧ ∀ state, r = .ok state → state = d.plan
  | ⟨.loadExecute, r⟩, d, d' => d' = d ∧ ∀ state, r = .ok state → state = d.execute
  | ⟨.loadVerify, r⟩, d, d' => d' = d ∧ ∀ state, r = .ok state → state = d.verify
  | ⟨.savePlan state, r⟩, d, d' => Replaced d { d with plan := some state } r d'
  | ⟨.saveExecute state, r⟩, d, d' => Replaced d { d with execute := some state } r d'
  | ⟨.saveVerify state, r⟩, d, d' => Replaced d { d with verify := some state } r d'
  | _, d, d' => d' = d

end StateDir

section Calls

def workflowCall (c : WorkflowCall) : WorkflowProgram c.Value :=
  Program.perform (σ := workflowSignature) c

/-- `_check_plan_exists`. -/
def checkPlanExists : WorkflowProgram PlanState := do
  let plan : Option PlanState ← workflowCall .loadPlan
  match plan with
  | none => throw (.exit "Error: No plan found. Run 'memory workflow outline' first.")
  | some plan => return plan

/-- `_check_execute_exists`. -/
def checkExecuteExists : WorkflowProgram ExecuteState := do
  let state : Option ExecuteState ← workflowCall .loadExecute
  match state with
  | none => throw (.exit "Error: No execution found. Run 'memory workflow execute' first.")
  | some state => return state

/-- `_check_verify_exists`. -/
def checkVerifyExists : WorkflowProgram VerifyState := do
  let state : Option VerifyState ← workflowCall .loadVerify
  match state with
  | none => throw (.exit "Error: No verification found. Run 'memory workflow verify' first.")
  | some state => return state

end Calls

section Outline

variable (slugify : String → String)

def planContent (sessionId taskDescription : String) : String :=
  "# Plan: " ++ taskDescription ++ "\n\n## Session: " ++ sessionId ++ "\n\n### Tasks\n- [ ] " ++
    taskDescription ++ "\n\n---\nGenerated by fork_agent workflow\n"

def outline (taskDescription planFile : String) : WorkflowProgram Unit := do
  let planHex : String ← workflowCall .uuid4Hex
  let sessionId := "plan-" ++ planHex
  let taskHex : String ← workflowCall .uuid4Hex
  let planTask : Task :=
    { id := "task-" ++ taskHex, slug := slugify taskDescription, description := taskDescription }
  workflowCall (.savePlan
    { sessionId, status := "outlined", phase := .outlined, planFile, tasks := [planTask] })
  workflowCall (.writePlanFile planFile (planContent sessionId taskDescription))

end Outline

section Execute

/-- `_create_updated_task`; what the task depends on and what it is for are not copied. -/
def createUpdatedTask (result : TaskExecutionResult) : Task :=
  { id := result.task.id
    slug := result.task.slug
    description := result.task.description
    status := if result.sessionName.any (· ≠ "") then "executing" else result.task.status
    branch := (result.worktreeName.filter (· ≠ "")).or result.task.branch
    worktreePath := (result.worktreePath.filter (· ≠ "")).or result.task.worktreePath
    sessionName := result.sessionName
    agentPid := result.task.agentPid }

/-- The results, task by task. -/
def executeTasks (model : String) : List Task → WorkflowProgram (List TaskExecutionResult)
  | [] => return []
  | task :: tasks => do
    let result : TaskExecutionResult ← workflowCall (.executeTask task model)
    let results ← executeTasks model tasks
    return result :: results

def executePlan (plan : PlanState) (model : String) (taskId : Option String) :
    WorkflowProgram ExecuteState := do
  let results ← executeTasks model (match taskId with
    | some id => plan.tasks.filter (·.id = id)
    | none => plan.tasks)
  let hex : String ← workflowCall .uuid4Hex
  return { sessionId := "exec-" ++ hex, status := "executing", phase := .executed,
           tasks := results.map createUpdatedTask }

/-- The target of the gate and what is hashed for it. -/
def gateScope (plan : PlanState) : Option String → Except Exn (String × HashScope)
  | none => .ok (plan.sessionId, .plan (plan.tasks.map fun t => (t.id, t.slug, t.description)))
  | some taskId =>
    match plan.tasks.find? (·.id = taskId) with
    | none => .error (.exit ("Error: Task '" ++ taskId ++ "' not found in plan"))
    | some t => .ok (taskId, .task t.id t.slug t.description)

/-- The FPEL gate of `execute`, where the gate is not disabled. -/
def executeGate (plan : PlanState) (taskId : Option String) : WorkflowProgram Unit := do
  let enabled : Bool ← workflowCall .hasFpelPort
  if enabled then
    let (targetId, scope) ← .ofExcept (gateScope plan taskId)
    let decision : AuthorizationDecision ← workflowCall (.checkSealed targetId scope)
    if decision.allowed then return ()
    else throw (.exit ("Error: Workflow execute blocked — sealed PASS required. Status: " ++
      decision.status.value ++ ", reason: " ++ (decision.reason.map (·.value)).getD "unknown"))
  else return ()

/-- A task id is given where it is set and not empty. The stored execution is loaded, and replaced
whatever it is. -/
def execute (taskId : Option String) (model : String) : WorkflowProgram Unit := do
  let plan ← checkPlanExists
  .ofExcept (validatePhaseTransition (some plan.phase) [.outlined, .executed] "execute")
  let _ ← workflowCall .loadExecute
  executeGate plan (taskId.filter (· ≠ ""))
  let state ← executePlan plan model (taskId.filter (· ≠ ""))
  workflowCall (.saveExecute state)

end Execute

/-- The results of the runner; when it raises, the error is the result. -/
def testResults : Bool → WorkflowProgram VerifyResults
  | true =>
    (workflowCall .runTests).handle fun e => return { passed := some false, error := some e.message }
  | false => return {}

def verify (runTests : Bool) : WorkflowProgram Unit := do
  let _ ← checkPlanExists
  let state ← checkExecuteExists
  .ofExcept (validatePhaseTransition (some state.phase) [.executed, .verified] "verify")
  let hex : String ← workflowCall .uuid4Hex
  let results ← testResults runTests
  workflowCall (.saveVerify
    { sessionId := "verify-" ++ hex, status := "verified", phase := .verified, unlockShip := true,
      testResults := results })

/-- The verification that a ship goes by: a stored one that passes the exit gate or, when forced, one
made up for it. -/
def shipVerification (force : Bool) (reason : String) : WorkflowProgram VerifyState :=
  if force then
    if strip reason = "" then throw (.exit "Error: --force requires --reason")
    else do
      let hex : String ← workflowCall .uuid4Hex
      return { sessionId := "forced-" ++ hex, phase := .verified, unlockShip := true }
  else do
    let state ← checkVerifyExists
    if state.testResults.passGate then return state
    else throw (.exit "Error: Tests failed, cannot ship")

/-- The gates of `ship`. -/
def shipGates (force : Bool) (reason : String) : WorkflowProgram VerifyState := do
  let state ← shipVerification force reason
  .ofExcept (validatePhaseTransition (some state.phase) [.verified, .shipped] "ship")
  if state.unlockShip then return state
  else throw (.exit "Error: Verification not complete. Run 'memory workflow verify' first.")

end ForkAgent.Workflow

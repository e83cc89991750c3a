import ForkAgent.Python.Basic

/-!
# Workflow states

The three state files of a workflow directory, one for each phase that leaves something behind, and
the check that a command makes of the phase it finds in one of them.
-/

namespace ForkAgent.Workflow

inductive WorkflowPhase where
  | planning
  | outlined
  | executing
  | executed
  | verifying
  | verified
  | shipping
  | shipped
  | hunting
  | hunted
  deriving DecidableEq, Repr

def WorkflowPhase.value : WorkflowPhase → String
  | .planning => "planning"
  | .outlined => "outlined"
  | .executing => "executing"
  | .executed => "executed"
  | .verifying => "verifying"
  | .verified => "verified"
  | .shipping => "shipping"
  | .shipped => "shipped"
  | .hunting => "hunting"
  | .hunted => "hunted"

structure Task where
  id : String
  slug : String
  description : String
  status : String := "pending"
  branch : Option String := none
  worktreePath : Option String := none
  sessionName : Option String := none
  agentPid : Option Int := none
  dependsOn : List String := []
  requirementIds : List String := []
  deriving DecidableEq, Repr

/-- The results of the test runner; every key may be missing. -/
structure VerifyResults where
  passed : Option Bool := none
  exitCode : Option Int := none
  testCount : Option Nat := none
  failCount : Option Nat := none
  durationMs : Option Nat := none
  error : Option String := none
  deriving DecidableEq, Repr

structure PlanState where
  sessionId : String
  status : String := "planning"
  phase : WorkflowPhase := .planning
  planFile : String := ".claude/plans/plan.md"
  tasks : List Task := []
  deriving DecidableEq, Repr

structure ExecuteState where
  sessionId : String
  status : String := "idle"
  phase : WorkflowPhase := .planning
  tasks : List Task := []
  deriving DecidableEq, Repr

structure VerifyState where
  sessionId : String
  status : String := "pending"
  phase : WorkflowPhase := .planning
  unlockShip : Bool := false
  testResults : VerifyResults := {}
  deriving DecidableEq, Repr

/-- `_validate_phase_transition`. -/
def validatePhaseTransition (currentPhase : Option WorkflowPhase) (allowedPhases : List WorkflowPhase)
    (targetCommand : String) : Except Exn Unit :=
  match currentPhase with
  | none =>
    if targetCommand = "outline" then .ok ()
    else .error (.phaseSkipError
      ("Cannot run '" ++ targetCommand ++ "' without completing previous phases."))
  | some phase =>
    if phase ∈ allowedPhases then .ok ()
    else .error (.phaseSkipError
      ("Cannot skip to '" ++ targetCommand ++ "'. Current phase is '" ++ phase.value ++
        "'. Required phases: " ++ ", ".intercalate (allowedPhases.map (·.value)) ++ "."))

/-- The exit gate of a ship: no results mean that the user opted out of the tests. -/
def VerifyResults.passGate (results : VerifyResults) : Bool :=
  let passed := if results = {} then true else results.passed.getD false
  let exitCode := if results = {} then 0 else results.exitCode.getD (-1)
  passed || exitCode == 0

/-- The recorded tests passed, or none were run. -/
def VerifyResults.DidNotFail (results : VerifyResults) : Prop :=
  results = {} ∨ results.passed = some true

/-- The gate lets through what did not fail, and results without a pass that carry exit code 0. -/
theorem VerifyResults.passGate_iff {results : VerifyResults} :
    results.passGate = true ↔
      results.DidNotFail ∨ results ≠ {} ∧ results.exitCode = some 0 := by
  unfold passGate DidNotFail
  by_cases hempty : results = {}
  · simp [hempty]
  · cases hpassed : results.passed with
    | none => cases hcode : results.exitCode <;> simp [hempty]
    | some passed =>
      cases hcode : results.exitCode with
      | none => cases passed <;> simp [hempty]
      | some code => cases passed <;> simp [hempty]

end ForkAgent.Workflow

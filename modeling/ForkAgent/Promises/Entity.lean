import ForkAgent.Python.Json

/-!
# Promise contracts

A promise contract with its life cycle. What `transition_to` makes of a contract carries evidence
exactly in the two states that a verification ends in.
-/

namespace ForkAgent.Promises

inductive PromiseState where
  | created
  | running
  | verifyPassed
  | verifyFailed
  | shipped
  | failed
  deriving DecidableEq, Repr

namespace PromiseState

def value : PromiseState → String
  | created => "created"
  | running => "running"
  | verifyPassed => "verify_passed"
  | verifyFailed => "verify_failed"
  | shipped => "shipped"
  | failed => "failed"

def validTransitions : PromiseState → List PromiseState
  | created => [running, failed]
  | running => [verifyPassed, verifyFailed, failed]
  | verifyPassed => [shipped, failed]
  | verifyFailed => [running, failed]
  | shipped => []
  | failed => [running]

/-- The verification states, which require evidence. -/
def isVerification (state : PromiseState) : Bool := state = verifyPassed ∨ state = verifyFailed

end PromiseState

structure VerifyEvidenceFields where
  artifactPath : String
  passed : Bool
  exitCode : Int
  timestamp : String
  deriving DecidableEq, Repr

def VerifyEvidenceFields.postInit (f : VerifyEvidenceFields) : Except Exn Unit := do
  require (f.artifactPath ≠ "") (.valueError "artifact_path must be non-empty")
  require (f.timestamp ≠ "") (.valueError "timestamp must be non-empty")
  require (0 ≤ f.exitCode) (.valueError "exit_code must be a non-negative integer")

abbrev VerifyEvidence := Validated VerifyEvidenceFields.postInit

/-- Times are microseconds. -/
structure PromiseContractFields where
  id : String
  sessionId : String
  planId : String
  task : String
  state : PromiseState
  verifyEvidence : Option VerifyEvidence := none
  createdAt : Option Int := none
  updatedAt : Option Int := none
  metadata : Option JsonObject := none

namespace PromiseContractFields

def postInit (f : PromiseContractFields) : Except Exn Unit := do
  require (f.id ≠ "") (.valueError "id cannot be empty")
  require (f.sessionId ≠ "") (.valueError "session_id cannot be empty")
  require (f.planId ≠ "") (.valueError "plan_id cannot be empty")
  require (f.task ≠ "") (.valueError "task cannot be empty")

def canTransitionTo (f : PromiseContractFields) (newState : PromiseState) : Bool :=
  newState ∈ f.state.validTransitions

theorem canTransitionTo_iff {f : PromiseContractFields} {newState : PromiseState} :
    f.canTransitionTo newState = true ↔ newState ∈ f.state.validTransitions := by
  simp [canTransitionTo]

end PromiseContractFields

abbrev PromiseContract := Validated PromiseContractFields.postInit

/-- The contract with a new state; what is checked at construction does not depend on it. -/
def PromiseContract.withState (contract : PromiseContract) (state : PromiseState)
    (verifyEvidence : Option VerifyEvidence) (now : Int) : PromiseContract :=
  ⟨{ contract.val with state, verifyEvidence, updatedAt := some now }, contract.property⟩

/-- `transition_to`, with the clock it reads. -/
def PromiseContract.transitionTo (contract : PromiseContract) (newState : PromiseState)
    (verifyEvidence : Option VerifyEvidence) (now : Int) : Except Exn PromiseContract :=
  if contract.val.canTransitionTo newState then
    if newState.isVerification ∧ verifyEvidence.isNone then
      .error (.valueError ("Evidence required for transition to " ++ newState.value))
    else
      .ok (contract.withState newState (if newState.isVerification then verifyEvidence else none) now)
  else
    .error (.valueError
      ("Cannot transition from " ++ contract.val.state.value ++ " to " ++ newState.value))

/-- Evidence is there in the verification states, and nowhere else. -/
def PromiseContractFields.EvidenceMatches (f : PromiseContractFields) : Prop :=
  f.verifyEvidence.isSome = f.state.isVerification

theorem PromiseContract.transitionTo_evidence {contract contract' : PromiseContract}
    {newState : PromiseState} {verifyEvidence : Option VerifyEvidence} {now : Int}
    (h : contract.transitionTo newState verifyEvidence now = .ok contract') :
    contract'.val.EvidenceMatches := by
  unfold transitionTo at h
  by_cases hcan : contract.val.canTransitionTo newState
  · rw [if_pos hcan] at h
    by_cases hmissing : newState.isVerification ∧ verifyEvidence.isNone
    · rw [if_pos hmissing] at h
      cases h
    · rw [if_neg hmissing] at h
      cases h
      show Option.isSome (if newState.isVerification then verifyEvidence else none) =
        newState.isVerification
      cases hverification : newState.isVerification with
      | false => rfl
      | true =>
        cases verifyEvidence with
        | none => exact absurd ⟨hverification, rfl⟩ hmissing
        | some evidence => rfl
  · rw [if_neg hcan] at h
    cases h

theorem PromiseContract.transitionTo_none_eq_ok {contract contract' : PromiseContract}
    {newState : PromiseState} {now : Int} :
    contract.transitionTo newState none now = .ok contract' ↔
      contract.val.canTransitionTo newState = true ∧ newState.isVerification = false ∧
        contract' = contract.withState newState none now := by
  unfold transitionTo
  by_cases hcan : contract.val.canTransitionTo newState
  · cases hverification : newState.isVerification with
    | true => simp [hcan]
    | false => simp [hcan, eq_comm]
  · simp [hcan]

end ForkAgent.Promises

import ForkAgent.Effects.Serial
import ForkAgent.Promises.Entity
import ForkAgent.Storage.Table

/-!
# The promise contract repository

A contract is stored once. `update_state` reads the stored contract, asks it whether it may change
its state, and then sets the state in a statement that leaves the evidence as it is.
-/

namespace ForkAgent.Promises

open Effects Storage

/-- A row of `promise_contracts`; evidence and metadata are stored as JSON. -/
structure PromiseContractRow where
  id : String
  sessionId : String
  planId : String
  task : String
  state : PromiseState
  verifyEvidence : Option VerifyEvidenceFields
  createdAt : Option Int
  updatedAt : Option Int
  metadata : Option JsonObject

inductive PromiseCall where
  | insert (row : PromiseContractRow)
  | selectById (contractId : String)
  | updateState (contractId : String) (state : PromiseState) (updatedAt : Int)
  | now

def PromiseCall.Value : PromiseCall → Type
  | .insert _ => Unit
  | .selectById _ => Option PromiseContractRow
  | .updateState .. => Nat
  | .now => Int

def promiseSignature : Signature := ⟨PromiseCall, PromiseCall.Value⟩

abbrev PromiseProgram := Program promiseSignature Exn

namespace PromiseTable

def markState (contractId : String) (state : PromiseState) (updatedAt : Int) :
    List PromiseContractRow → List PromiseContractRow :=
  updateWhere (fun row => row.id == contractId)
    fun row => { row with state, updatedAt := some updatedAt }

/-- What a call answers and does when the database serves it. -/
def serve : Semantics promiseSignature Exn (List PromiseContractRow)
  | ⟨.insert row, r⟩, s, s' =>
    if row.id ∈ s.map (·.id) then (∃ m, r = .error (.integrityError m)) ∧ s' = s
    else r = .ok () ∧ s' = s ++ [row]
  | ⟨.selectById contractId, r⟩, s, s' => s' = s ∧ r = .ok (s.find? fun row => row.id == contractId)
  | ⟨.updateState contractId state updatedAt, r⟩, s, s' =>
    r = .ok (s.countP fun row => row.id == contractId) ∧ s' = markState contractId state updatedAt s
  | ⟨.now, r⟩, s, s' => s' = s ∧ ∃ now, r = .ok now

/-- Any call may instead fail in the database, which then rolls back. -/
def step : Semantics promiseSignature Exn (List PromiseContractRow) := fun a s s' =>
  serve a s s' ∨ s' = s ∧ ∃ m, a.answer = .error (.operationalError m)

end PromiseTable

/-- A call whose errors are raised as others. -/
def promiseCall (f : Exn → Exn) (c : PromiseCall) : PromiseProgram c.Value :=
  (Program.perform (σ := promiseSignature) c).handle fun e => throw (f e)

namespace PromiseContractRepository

/-- The row that a contract is stored as. -/
def contractToRow (contract : PromiseContract) : PromiseContractRow where
  id := contract.val.id
  sessionId := contract.val.sessionId
  planId := contract.val.planId
  task := contract.val.task
  state := contract.val.state
  verifyEvidence := contract.val.verifyEvidence.map (·.val)
  createdAt := contract.val.createdAt
  updatedAt := contract.val.updatedAt
  metadata := contract.val.metadata

/-- `_deserialize_verify_evidence`. -/
def deserializeVerifyEvidence : Option VerifyEvidenceFields → Except Exn (Option VerifyEvidence)
  | none => .ok none
  | some fields => (construct VerifyEvidenceFields.postInit fields).map some

/-- `_row_to_contract`. -/
def rowToContract (row : PromiseContractRow) : Except Exn PromiseContract := do
  let verifyEvidence ← deserializeVerifyEvidence row.verifyEvidence
  construct PromiseContractFields.postInit
    { id := row.id, sessionId := row.sessionId, planId := row.planId, task := row.task,
      state := row.state, verifyEvidence, createdAt := row.createdAt, updatedAt := row.updatedAt,
      metadata := row.metadata }

/-- `except sqlite3.Error as e: raise RepositoryError(f"{context}: {e}")`. -/
def sqliteErrorAs (context : String) : Exn → Exn
  | .integrityError m | .operationalError m => .repositoryError (context ++ ": " ++ m)
  | e => e

def saveError (contractId : String) : Exn → Exn
  | .integrityError _ =>
    .repositoryError ("PromiseContract with id '" ++ contractId ++ "' already exists")
  | e => sqliteErrorAs "Failed to save promise contract" e

def save (contract : PromiseContract) : PromiseProgram PromiseContract := do
  promiseCall (saveError contract.val.id) (.insert (contractToRow contract))
  return contract

def getById (contractId : String) : PromiseProgram (Option PromiseContract) := do
  let row : Option PromiseContractRow ←
    promiseCall (sqliteErrorAs "Failed to get promise contract") (.selectById contractId)
  match row with
  | none => return none
  | some row => do
    let contract ← .ofExcept (rowToContract row)
    return some contract

/-- The transaction that sets the state. -/
def setState (contractId : String) (state : PromiseState) : PromiseProgram Unit := do
  let now : Int ← promiseCall id .now
  let rowcount : Nat ← promiseCall (sqliteErrorAs "Failed to update promise contract state")
    (.updateState contractId state now)
  if rowcount = 0 then
    throw (.repositoryError ("PromiseContract '" ++ contractId ++ "' not found"))
  else return ()

def updateState (contractId : String) (state : PromiseState) : PromiseProgram PromiseContract := do
  match ← getById contractId with
  | none => throw (.repositoryError ("Contract " ++ contractId ++ " not found"))
  | some current =>
    if current.val.canTransitionTo state then do
      setState contractId state
      match ← getById contractId with
      | none =>
        throw (.repositoryError ("PromiseContract '" ++ contractId ++ "' not found after update"))
      | some contract => return contract
    else
      throw (.repositoryError
        ("Invalid transition from " ++ current.val.state.value ++ " to " ++ state.value))

theorem rowToContract_contractToRow (contract : PromiseContract) :
    rowToContract (contractToRow contract) = .ok contract := by
  have hevidence : deserializeVerifyEvidence (contract.val.verifyEvidence.map (·.val)) =
      .ok contract.val.verifyEvidence := by
    cases contract.val.verifyEvidence with
    | none => rfl
    | some evidence =>
      simp only [Option.map_some, deserializeVerifyEvidence, construct_of_postInit evidence.property]
      rfl
  unfold rowToContract
  rw [show (contractToRow contract).verifyEvidence = contract.val.verifyEvidence.map (·.val) from rfl,
    hevidence]
  exact construct_of_postInit contract.property

end PromiseContractRepository

end ForkAgent.Promises

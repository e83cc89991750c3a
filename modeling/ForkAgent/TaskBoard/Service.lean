import ForkAgent.TaskBoard.Repository

/-!
# Task board service

The operations of the task board. Each but `create` reads a task, decides on the copy it read and
writes the whole row back, guarded by the status it had read. `start` asks the FPEL gate in
between.
-/

namespace ForkAgent.TaskBoard

open Effects

variable (H : Fpel.Hashing)

def requireTask (taskId : String) : BoardProgram H OrchestrationTask := do
  match ← getById taskId with
  | none => throw (.valueError s!"Task '{taskId}' not found")
  | some task => return task

def validateTransition (task : OrchestrationTask) (target : OrchestrationTaskStatus) :
    Except Exn Unit :=
  require (task.canTransitionTo target) (.taskTransitionError
    s!"Cannot transition task '{task.val.id}' from {task.val.status.value} to {target.value}")

/-- `dataclasses.replace`: the new instance is checked again. -/
def replaceTask (fields : OrchestrationTaskFields) : BoardProgram H OrchestrationTask :=
  .ofExcept (construct OrchestrationTaskFields.postInit fields)

/-- Write a task back unless its status has changed since it was read. -/
def storeTask (updated : OrchestrationTask) (expected : OrchestrationTaskStatus)
    (conflict : String) : BoardProgram H OrchestrationTask := do
  if ← casSave updated expected then return updated
  else throw (.valueError conflict)

def modifiedConcurrently : String := "Task was modified concurrently"

def create (subject : String) (description owner : Option String) :
    BoardProgram H OrchestrationTask := do
  let now ← nowMs
  let id ← uuid4Hex
  let task ← replaceTask H
    { id, subject, description, status := .pending, owner, createdAt := now, updatedAt := now }
  save task
  return task

/-- The outer option of an argument says whether it was passed. -/
def update (taskId : String) (subject description owner : Option (Option String)) :
    BoardProgram H OrchestrationTask := do
  let task ← requireTask H taskId
  if task.val.status = .deleted then
    throw (.valueError s!"Cannot update deleted task '{taskId}'")
  else
    let now ← nowMs
    match subject with
    | some none => throw (.typeError "subject must be a string")
    | some (some subject) =>
      let updated ← replaceTask H
        { task.val with
          updatedAt := now, subject, description := description.getD task.val.description,
          owner := owner.getD task.val.owner }
      storeTask H updated task.val.status modifiedConcurrently
    | none =>
      let updated ← replaceTask H
        { task.val with
          updatedAt := now, description := description.getD task.val.description,
          owner := owner.getD task.val.owner }
      storeTask H updated task.val.status modifiedConcurrently

def submitPlan (taskId planText : String) (requestedBy : Option String) :
    BoardProgram H OrchestrationTask := do
  let task ← requireTask H taskId
  .ofExcept (validateTransition task .planning)
  let now ← nowMs
  let updated ← replaceTask H
    { task.val with status := .planning, planText := some planText, updatedAt := now, requestedBy }
  storeTask H updated task.val.status modifiedConcurrently

def approve (taskId approvedBy : String) (requestedBy : Option String) :
    BoardProgram H OrchestrationTask := do
  let task ← requireTask H taskId
  .ofExcept (validateTransition task .approved)
  let now ← nowMs
  let updated ← replaceTask H
    { task.val with
      status := .approved, approvedBy := some approvedBy, approvedAt := some now, updatedAt := now,
      requestedBy }
  storeTask H updated task.val.status modifiedConcurrently

def reject (taskId : String) (requestedBy : Option String) : BoardProgram H OrchestrationTask := do
  let task ← requireTask H taskId
  .ofExcept (validateTransition task .pending)
  let now ← nowMs
  let updated ← replaceTask H
    { task.val with status := .pending, planText := none, updatedAt := now, requestedBy }
  storeTask H updated task.val.status modifiedConcurrently

/-- The FPEL gate, when a port is injected: a sealed PASS for the content just read. -/
def requireSealed (fpelPort : Bool) (task : OrchestrationTask) (taskId : String) :
    BoardProgram H Unit := do
  if fpelPort then
    let currentHash ← .ofExcept (computeTaskHash H task)
    let decision ← (Fpel.checkSealed H taskId (some currentHash)).lift (.inr _ _)
    if decision.allowed then return ()
    else throw (.taskTransitionError (s!"Task '{taskId}' requires sealed PASS to start. " ++
      s!"Status: {decision.status.value}"))
  else return ()

def start (fpelPort : Bool) (taskId owner : String) (requestedBy : Option String) :
    BoardProgram H OrchestrationTask := do
  let task ← requireTask H taskId
  if task.isBlocked then
    let blockers := String.intercalate ", " task.val.blockedBy
    throw (.valueError s!"Task '{taskId}' is blocked by: {blockers}")
  else
    .ofExcept (validateTransition task .inProgress)
    requireSealed H fpelPort task taskId
    let now ← nowMs
    let updated ← replaceTask H
      { task.val with
        status := .inProgress, owner := some owner, updatedAt := now, requestedBy }
    storeTask H updated task.val.status modifiedConcurrently

/-- Whether every blocker is completed, deleted or gone. -/
def allResolved (candidate : OrchestrationTask) (blockers : List OrchestrationTask) : Bool :=
  candidate.val.blockedBy.all fun blockerId =>
    match blockers.find? fun b => b.val.id == blockerId with
    | none => true
    | some blocker => blocker.val.status ∈ [.completed, .deleted]

/-- The candidates that no unfinished task blocks any more. -/
def unblockedBy (taskId : String) : List OrchestrationTask → BoardProgram H (List String)
  | [] => return []
  | candidate :: rest => do
    if taskId ∉ candidate.val.blockedBy then unblockedBy taskId rest
    else
      let blockers ← getByIds candidate.val.blockedBy
      let unblocked ← unblockedBy taskId rest
      return if allResolved candidate blockers then candidate.val.id :: unblocked else unblocked

def resolveBlockers (taskId : String) : BoardProgram H (List String) := do
  let candidates ← listBlocked
  unblockedBy H taskId candidates

def complete (taskId : String) (requestedBy : Option String) :
    BoardProgram H OrchestrationTask := do
  let task ← requireTask H taskId
  .ofExcept (validateTransition task .completed)
  let now ← nowMs
  let updated ← replaceTask H { task.val with status := .completed, updatedAt := now, requestedBy }
  let updated ← storeTask H updated task.val.status modifiedConcurrently
  let _ ← resolveBlockers H taskId
  return updated

/-- Put a started task back into the approved pool. -/
def retry (taskId : String) : BoardProgram H OrchestrationTask := do
  let task ← requireTask H taskId
  if task.canTransitionTo .approved then
    let updated ← replaceTask H { task.val with status := .approved }
    storeTask H updated task.val.status "Task was modified concurrently during retry"
  else
    throw (.taskTransitionError
      s!"Cannot retry task '{taskId}' in status {task.val.status.value}")

def delete (taskId : String) (requestedBy : Option String) : BoardProgram H OrchestrationTask := do
  let task ← requireTask H taskId
  .ofExcept (validateTransition task .deleted)
  let now ← nowMs
  let updated ← replaceTask H { task.val with status := .deleted, updatedAt := now, requestedBy }
  storeTask H updated task.val.status modifiedConcurrently

end ForkAgent.TaskBoard

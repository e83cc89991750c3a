import ForkAgent.Fpel.Authorization

/-!
# Orchestration tasks

The task entity with its post-init checks and its status transitions, and the content hash that
the FPEL gate compares.
-/

namespace ForkAgent.TaskBoard

inductive OrchestrationTaskStatus where
  | pending
  | planning
  | approved
  | inProgress
  | completed
  | deleted
  deriving DecidableEq, Repr

namespace OrchestrationTaskStatus

def value : OrchestrationTaskStatus → String
  | pending => "PENDING"
  | planning => "PLANNING"
  | approved => "APPROVED"
  | inProgress => "IN_PROGRESS"
  | completed => "COMPLETED"
  | deleted => "DELETED"

def transitions : OrchestrationTaskStatus → List OrchestrationTaskStatus
  | pending => [planning, deleted]
  | planning => [approved, pending, deleted]
  | approved => [inProgress, deleted]
  | inProgress => [completed, approved, deleted]
  | completed => [deleted]
  | deleted => []

end OrchestrationTaskStatus

structure OrchestrationTaskFields where
  id : String
  subject : String
  description : Option String := none
  status : OrchestrationTaskStatus := .pending
  owner : Option String := none
  blockedBy : List String := []
  planText : Option String := none
  createdAt : Int := 0
  updatedAt : Int := 0
  approvedBy : Option String := none
  approvedAt : Option Int := none
  requestedBy : Option String := none
  deriving DecidableEq, Repr

def OrchestrationTaskFields.postInit (f : OrchestrationTaskFields) : Except Exn Unit := do
  require (f.id ≠ "") (.valueError "id must not be empty")
  require (f.subject ≠ "") (.valueError "subject must not be empty")
  require (f.id ∉ f.blockedBy) (.valueError s!"Task '{f.id}' cannot block itself")
  require (f.blockedBy.all (· ≠ "")) (.valueError "blocked_by entries must not be empty")
  require (0 ≤ f.createdAt) (.valueError "created_at must be non-negative")
  require (0 ≤ f.updatedAt) (.valueError "updated_at must be non-negative")

abbrev OrchestrationTask := Validated OrchestrationTaskFields.postInit

namespace OrchestrationTask

def canTransitionTo (task : OrchestrationTask) (target : OrchestrationTaskStatus) : Bool :=
  target ∈ task.val.status.transitions

def isBlocked (task : OrchestrationTask) : Bool := 0 < task.val.blockedBy.length

end OrchestrationTask

/-- The hash of a task's content; status, owner and times are left out of it. -/
def computeTaskHash (H : Fpel.Hashing) (task : OrchestrationTask) : Except Exn String :=
  Fpel.computeContentHash H
    (Fpel.taskContent task.val.planText task.val.subject task.val.description)

end ForkAgent.TaskBoard

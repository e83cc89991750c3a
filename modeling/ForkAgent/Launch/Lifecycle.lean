import ForkAgent.Launch.Repository

/-!
# Launch lifecycle service

The one owner of launch decisions. An operation that depends on the current status reads the
launch, decides on the copy it read and then compares and sets; the others compare and set at
once. `requestLaunch` looks for a blocking launch first and leaves the rest to the index.
-/

namespace ForkAgent.Launch

open Effects

abbrev LaunchProgram := Program launchSignature Exn

section Calls

def insert (row : AgentLaunchFields) : LaunchProgram Bool :=
  .perform (σ := launchSignature) (.insert row)

def casUpdate (launchId : String) (expected new : LaunchStatus) (columns : CasColumns) :
    LaunchProgram Bool :=
  .perform (σ := launchSignature) (.casUpdate launchId expected new columns)

def getByLaunchId (launchId : String) : LaunchProgram (Option AgentLaunch) :=
  .perform (σ := launchSignature) (.getByLaunchId launchId)

def findActiveByCanonicalKey (canonicalKey : String) : LaunchProgram (Option AgentLaunch) :=
  .perform (σ := launchSignature) (.findActiveByCanonicalKey canonicalKey)

def listByStatus (status : LaunchStatus) : LaunchProgram (List AgentLaunch) :=
  .perform (σ := launchSignature) (.listByStatus status)

def listExpiredLeases (nowMs : Int) : LaunchProgram (List AgentLaunch) :=
  .perform (σ := launchSignature) (.listExpiredLeases nowMs)

def nowMs : LaunchProgram Int := .perform (σ := launchSignature) .nowMs

def uuid4Hex : LaunchProgram String := .perform (σ := launchSignature) .uuid4Hex

def aliveTmuxPanes : LaunchProgram (Option (List String)) :=
  .perform (σ := launchSignature) .aliveTmuxPanes

/-- The insert of a claim, and the read of the row it inserted. -/
def claim (launchId canonicalKey surface ownerType ownerId : String) (leaseExpiresAt : Int)
    (role parentLaunchId model : Option String) : LaunchProgram (Option AgentLaunch) := do
  let now ← nowMs
  if ← insert
      { launchId, canonicalKey, surface, ownerType, ownerId, status := .reserved, createdAt := now,
        reservedAt := some now, leaseExpiresAt := some leaseExpiresAt, role, parentLaunchId, model }
  then getByLaunchId launchId
  else return none

/-- A reading of the clock, when the condition holds. -/
def nowWhen (condition : Bool) : LaunchProgram (Option Int) :=
  if condition then some <$> nowMs else pure none

/-- The compare-and-set, with the times that the new status calls for. -/
def casUpdateStatus (launchId : String) (expected new : LaunchStatus) (columns : CasColumns) :
    LaunchProgram Bool := do
  let endedAt ← nowWhen new.isTerminal
  let spawnStartedAt ← nowWhen (new = .spawning)
  let spawnConfirmedAt ← nowWhen (new = .active)
  casUpdate launchId expected new { columns with endedAt, spawnStartedAt, spawnConfirmedAt }

end Calls

inductive LaunchDecision where
  | claimed
  | suppressed
  | error
  deriving DecidableEq, Repr

def LaunchDecision.value : LaunchDecision → String
  | claimed => "claimed"
  | suppressed => "suppressed"
  | error => "error"

structure LaunchAttempt where
  launch : Option AgentLaunch
  decision : LaunchDecision
  existingLaunch : Option AgentLaunch := none
  reason : Option String := none

def maxLineageDepth : Nat := 16

def defaultRole : String := "agent"

def surfaceRoleDefaults : List (String × String) :=
  [("polling", "poll-agent"), ("workflow", "workflow-agent"), ("api", "api-agent"),
    ("manager", "manager-agent"), ("bug_hunt", "hunter-agent")]

/-- The arguments of `request_launch`, with the lease duration its service was built with. -/
structure LaunchRequest where
  canonicalKey : String
  surface : String
  ownerType : String
  ownerId : String
  role : Option String := none
  parentLaunchId : Option String := none
  model : Option String := none
  leaseDurationMs : Int := 300000
  deriving DecidableEq, Repr

def LaunchRequest.effectiveRole (request : LaunchRequest) : String :=
  request.role.getD ((surfaceRoleDefaults.lookup request.surface).getD defaultRole)

/-- A launch without a lease never expires. -/
def leaseIsValid (launch : AgentLaunch) : LaunchProgram Bool :=
  match launch.val.leaseExpiresAt with
  | none => return true
  | some expiresAt => do
    let now ← nowMs
    return now < expiresAt

def quarantine (launchId reason : String) : LaunchProgram Bool := do
  match ← getByLaunchId launchId with
  | none => return false
  | some launch =>
    if launch.val.status.isTerminal then return false
    else if launch.canTransitionTo .quarantined then
      casUpdateStatus launchId launch.val.status .quarantined { quarantineReason := some reason }
    else return false

def leaseExpiredReason (launch : AgentLaunch) : String :=
  match launch.val.leaseExpiresAt with
  | none => "Lease expired at None"
  | some expiresAt => s!"Lease expired at {expiresAt}"

def quarantineExpired (launch : AgentLaunch) : LaunchProgram Bool :=
  quarantine launch.val.launchId (leaseExpiredReason launch)

/-- Walk the ancestors of a parent; the answer is why the lineage is refused, if it is. -/
def walkAncestors : Nat → List String → Option String → LaunchProgram (Option String)
  | _, _, none => return none
  | 0, _, some _ => return some s!"Lineage exceeds max depth {maxLineageDepth}"
  | depth + 1, visited, some current => do
    if current ∈ visited then
      return some s!"Cycle detected: {current} revisited in ancestry chain"
    else
      match ← getByLaunchId current with
      | none => return none
      | some ancestor => walkAncestors depth (current :: visited) ancestor.val.parentLaunchId

def validateParentLaunchId (parentLaunchId proposedLaunchId : String) :
    LaunchProgram (Option String) := do
  if parentLaunchId = proposedLaunchId then
    return some s!"Self-referential parent_launch_id: {parentLaunchId}"
  else
    match ← getByLaunchId parentLaunchId with
    | none => return some s!"parent_launch_id not found: {parentLaunchId}"
    | some parent =>
      walkAncestors (maxLineageDepth - 2) [parentLaunchId, proposedLaunchId]
        parent.val.parentLaunchId

/-- Why a parent is refused, if one is given and it is. -/
def checkParent (parentLaunchId : Option String) (proposedLaunchId : String) :
    LaunchProgram (Option String) :=
  match parentLaunchId with
  | none => return none
  | some parent => validateParentLaunchId parent proposedLaunchId

/-- The part of `request_launch` that comes after the lookup. -/
def claimLaunch (request : LaunchRequest) : LaunchProgram LaunchAttempt := do
  let launchId ← uuid4Hex
  match ← checkParent request.parentLaunchId launchId with
  | some reason => return { launch := none, decision := .error, reason := some reason }
  | none =>
    let now ← nowMs
    match ← claim launchId request.canonicalKey request.surface request.ownerType request.ownerId
      (now + request.leaseDurationMs) (some request.effectiveRole) request.parentLaunchId
      request.model with
    | none =>
      let winner ← findActiveByCanonicalKey request.canonicalKey
      return {
        launch := none
        decision := .suppressed
        existingLaunch := winner
        reason := some "Concurrent claim won by another request" }
    | some claimed => return { launch := some claimed, decision := .claimed }

def suppressedBy (existing : AgentLaunch) : LaunchAttempt where
  launch := none
  decision := .suppressed
  existingLaunch := some existing
  reason := some (s!"Active launch {existing.val.launchId} in status " ++ existing.val.status.value)

/-- Only a launch that was never confirmed is quarantined for an expired lease. -/
def clearExpired (existing : AgentLaunch) : LaunchProgram Unit := do
  if existing.val.status = .reserved ∨ existing.val.status = .spawning then
    let _ ← quarantineExpired existing
    return ()
  else return ()

def requestLaunchUnguarded (request : LaunchRequest) : LaunchProgram LaunchAttempt := do
  match ← findActiveByCanonicalKey request.canonicalKey with
  | none => claimLaunch request
  | some existing =>
    if ← leaseIsValid existing then return suppressedBy existing
    else
      clearExpired existing
      claimLaunch request

/-- Permission to launch an agent for a canonical key; any failure of the registry is an answer. -/
def requestLaunch (request : LaunchRequest) : LaunchProgram LaunchAttempt :=
  (requestLaunchUnguarded request).handle fun e =>
    return { launch := none, decision := .error, reason := some s!"Registry error: {e.message}" }

def confirmSpawning (launchId : String) : LaunchProgram Bool :=
  casUpdateStatus launchId .reserved .spawning {}

/-- A confirmed launch gives its lease up. -/
def confirmActive (launchId backend terminationHandleType terminationHandleValue : String)
    (tmuxPaneId tmuxSession : Option String) (processPid processPgid : Option Int) :
    LaunchProgram Bool :=
  casUpdateStatus launchId .spawning .active
    { backend := some backend, terminationHandleType := some terminationHandleType,
      terminationHandleValue := some terminationHandleValue, tmuxPaneId, tmuxSession, processPid,
      processPgid, clearLease := true }

def markFailed (launchId error : String) : LaunchProgram Bool := do
  match ← getByLaunchId launchId with
  | none => return false
  | some launch =>
    if launch.val.status.isTerminal then return false
    else if launch.canTransitionTo .failed then
      casUpdateStatus launchId launch.val.status .failed { lastError := some error }
    else return false

def beginTermination (launchId : String) : LaunchProgram Bool := do
  match ← getByLaunchId launchId with
  | none => return false
  | some launch =>
    if launch.canTransitionTo .terminating then
      casUpdateStatus launchId launch.val.status .terminating {}
    else return false

def confirmTerminated (launchId : String) : LaunchProgram Bool :=
  casUpdateStatus launchId .terminating .terminated {}

/-- Quarantine each launch in turn; the answer is the launches whose quarantine took effect. -/
def quarantineEach (reason : AgentLaunch → String) :
    List AgentLaunch → LaunchProgram (List AgentLaunch)
  | [] => return []
  | launch :: rest => do
    let ok ← quarantine launch.val.launchId (reason launch)
    let quarantined ← quarantineEach reason rest
    return if ok then launch :: quarantined else quarantined

def reconcileExpiredLeases : LaunchProgram (List AgentLaunch) := do
  let now ← nowMs
  let expired ← listExpiredLeases now
  quarantineEach leaseExpiredReason expired

/-- Quarantine the active launches whose tmux pane is gone; without tmux, none. -/
def reconcileLostPanes : LaunchProgram (List AgentLaunch) := do
  let activeLaunches ← listByStatus .active
  let candidates := activeLaunches.filter (·.val.tmuxPaneId.isSome)
  if candidates.isEmpty then return []
  else
    match ← aliveTmuxPanes with
    | none => return []
    | some alivePanes =>
      let lost := candidates.filter fun launch => !launch.val.tmuxPaneId.any (· ∈ alivePanes)
      quarantineEach (fun _ => "pane_lost") lost

end ForkAgent.Launch

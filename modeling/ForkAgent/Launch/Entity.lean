import ForkAgent.Python.Basic

/-!
# Agent launches

The launch record with its post-init checks, the statuses that block a key and the transitions
between statuses. Times are milliseconds.
-/

namespace ForkAgent.Launch

inductive LaunchStatus where
  | reserved
  | spawning
  | active
  | terminating
  | terminated
  | failed
  | suppressedDuplicate
  | quarantined
  deriving DecidableEq, Repr

namespace LaunchStatus

def value : LaunchStatus → String
  | reserved => "RESERVED"
  | spawning => "SPAWNING"
  | active => "ACTIVE"
  | terminating => "TERMINATING"
  | terminated => "TERMINATED"
  | failed => "FAILED"
  | suppressedDuplicate => "SUPPRESSED_DUPLICATE"
  | quarantined => "QUARANTINED"

/-- `BLOCKING_STATUSES`. -/
def isBlocking : LaunchStatus → Bool
  | reserved | spawning | active | terminating | quarantined => true
  | _ => false

/-- `TERMINAL_STATUSES`. -/
def isTerminal : LaunchStatus → Bool
  | terminated | failed | suppressedDuplicate => true
  | _ => false

/-- `_VALID_TRANSITIONS`. -/
def validTransitions : LaunchStatus → List LaunchStatus
  | reserved => [spawning, failed, quarantined]
  | spawning => [active, failed, quarantined]
  | active => [terminating, failed, quarantined]
  | terminating => [terminated, failed]
  | quarantined => [failed, terminated]
  | terminated | failed | suppressedDuplicate => []

/-- The statuses that the partial unique index of the registry covers. -/
def inFlight : LaunchStatus → Bool
  | reserved | spawning | active | terminating => true
  | _ => false

theorem not_terminal_of_transition {a b : LaunchStatus} (h : b ∈ a.validTransitions) :
    a.isTerminal = false := by
  cases a <;> simp_all [validTransitions, isTerminal]

theorem inFlight_of_transition {a b : LaunchStatus} (h : b ∈ a.validTransitions)
    (hb : b.inFlight = true) : a.inFlight = true := by
  cases a <;> cases b <;> simp_all [validTransitions, inFlight]

theorem isBlocking_of_transition {a b : LaunchStatus} (h : b ∈ a.validTransitions) :
    a.isBlocking = true := by
  cases a <;> simp_all [validTransitions, isBlocking]

theorem released_of_not_inFlight {a : LaunchStatus} (h : a.inFlight = false) :
    a.isTerminal = true ∨ a = quarantined := by
  cases a <;> simp_all [inFlight, isTerminal]

end LaunchStatus

structure AgentLaunchFields where
  launchId : String
  canonicalKey : String
  surface : String
  ownerType : String
  ownerId : String
  status : LaunchStatus
  backend : Option String := none
  createdAt : Int
  reservedAt : Option Int := none
  spawnStartedAt : Option Int := none
  spawnConfirmedAt : Option Int := none
  endedAt : Option Int := none
  leaseExpiresAt : Option Int := none
  terminationHandleType : Option String := none
  terminationHandleValue : Option String := none
  processPid : Option Int := none
  processPgid : Option Int := none
  tmuxSession : Option String := none
  tmuxPaneId : Option String := none
  lastError : Option String := none
  quarantineReason : Option String := none
  parentLaunchId : Option String := none
  role : Option String := none
  model : Option String := none
  outputArtifact : Option String := none
  deriving DecidableEq, Repr

namespace AgentLaunchFields

def canonicalKeyChar (c : Char) : Bool :=
  ('a' ≤ c && c ≤ 'z') || ('A' ≤ c && c ≤ 'Z') || ('0' ≤ c && c ≤ '9') || c ∈ ['.', '_', ':', '/', '-']

/-- Up to 256 of these characters; the `$` of the pattern also matches before a final newline. -/
def matchesCanonicalKey (key : String) : Bool :=
  let body := if key.toList.getLast? = some '\n' then key.toList.dropLast else key.toList
  body.all canonicalKeyChar && 1 ≤ body.length && body.length ≤ 256

def maxOwnerIdLength : Nat := 1024

def validOwnerTypes : List String := ["agent", "batch", "run", "session", "task"]

def requireText (name : String) : Option String → Except Exn Unit
  | none => .ok ()
  | some text =>
    require (strip text ≠ "") (.valueError s!"{name} must be non-empty when provided")

def postInit (f : AgentLaunchFields) : Except Exn Unit := do
  require (f.launchId ≠ "") (.valueError "launch_id must be a non-empty string")
  require (f.canonicalKey ≠ "") (.valueError "canonical_key must be a non-empty string")
  require (matchesCanonicalKey f.canonicalKey) (.valueError
    ("canonical_key must match ^[a-zA-Z0-9._:/" ++ "-]\x7b1,256\x7d$ (got '" ++
      f.canonicalKey ++ "')"))
  require (f.ownerId ≠ "") (.valueError "owner_id must be a non-empty string")
  let ownerIdLength := f.ownerId.length
  require (ownerIdLength ≤ maxOwnerIdLength)
    (.valueError s!"owner_id must be <= 1024 chars (got {ownerIdLength})")
  require (f.ownerType ∈ validOwnerTypes) (.valueError
    ("owner_type must be one of ['agent', 'batch', 'run', 'session', 'task'] " ++
      s!"(got '{f.ownerType}')"))
  requireText "parent_launch_id" f.parentLaunchId
  require (f.parentLaunchId ≠ some f.launchId)
    (.valueError "parent_launch_id cannot equal launch_id (self-cycle)")
  requireText "role" f.role
  requireText "model" f.model
  requireText "output_artifact" f.outputArtifact

end AgentLaunchFields

/-- One spawn attempt and who owns it. -/
abbrev AgentLaunch := Validated AgentLaunchFields.postInit

def AgentLaunch.canTransitionTo (launch : AgentLaunch) (target : LaunchStatus) : Bool :=
  target ∈ launch.val.status.validTransitions

end ForkAgent.Launch

import ForkAgent.Effects.Execution
import ForkAgent.Launch.Entity
import ForkAgent.Storage.Table

/-!
# Launch registry

The registry table, with its partial unique index, and the calls the lifecycle service makes.
`claim` is an insert and a separate read; every other method is one statement, after the clock
readings it makes.
-/

namespace ForkAgent.Launch

open Effects Storage

structure LaunchStore where
  agentLaunchRegistry : List AgentLaunchFields := []

/-- The columns a compare-and-set may fill in; `none` keeps what the row has. -/
structure CasColumns where
  endedAt : Option Int := none
  spawnStartedAt : Option Int := none
  spawnConfirmedAt : Option Int := none
  lastError : Option String := none
  quarantineReason : Option String := none
  backend : Option String := none
  terminationHandleType : Option String := none
  terminationHandleValue : Option String := none
  processPid : Option Int := none
  processPgid : Option Int := none
  tmuxSession : Option String := none
  tmuxPaneId : Option String := none
  outputArtifact : Option String := none
  clearLease : Bool := false

namespace LaunchStore

/-- Primary key of the registry. -/
def rowId (r : AgentLaunchFields) : Option String := some r.launchId

/-- `idx_one_active_launch_per_key`. -/
def inFlightKey (r : AgentLaunchFields) : Option String :=
  if r.status.inFlight then some r.canonicalKey else none

/-- The rows that `find_active_by_canonical_key` looks among. -/
def blockingRows (s : LaunchStore) (canonicalKey : String) : List AgentLaunchFields :=
  s.agentLaunchRegistry.filter fun r => r.canonicalKey == canonicalKey && r.status.isBlocking

/-- Whether a compare-and-set picks the row. -/
def guarded (launchId : String) (expected : LaunchStatus) (row : AgentLaunchFields) : Bool :=
  row.launchId == launchId && row.status == expected

/-- The `SET` clause of a compare-and-set. -/
def set (new : LaunchStatus) (columns : CasColumns) (r : AgentLaunchFields) : AgentLaunchFields :=
  { r with
    status := new
    endedAt := columns.endedAt.or r.endedAt
    spawnStartedAt := columns.spawnStartedAt.or r.spawnStartedAt
    spawnConfirmedAt := columns.spawnConfirmedAt.or r.spawnConfirmedAt
    lastError := columns.lastError.or r.lastError
    quarantineReason := columns.quarantineReason.or r.quarantineReason
    backend := columns.backend.or r.backend
    terminationHandleType := columns.terminationHandleType.or r.terminationHandleType
    terminationHandleValue := columns.terminationHandleValue.or r.terminationHandleValue
    processPid := columns.processPid.or r.processPid
    processPgid := columns.processPgid.or r.processPgid
    tmuxSession := columns.tmuxSession.or r.tmuxSession
    tmuxPaneId := columns.tmuxPaneId.or r.tmuxPaneId
    outputArtifact := columns.outputArtifact.or r.outputArtifact
    leaseExpiresAt := if columns.clearLease then none else r.leaseExpiresAt }

def casUpdate (s : LaunchStore) (launchId : String) (expected new : LaunchStatus)
    (columns : CasColumns) : LaunchStore :=
  { agentLaunchRegistry :=
      updateWhere (guarded launchId expected) (set new columns) s.agentLaunchRegistry }

/-- The insert of a claim: `false` when a unique index refuses the row, an error when another
constraint does. -/
def insert (s : LaunchStore) (row : AgentLaunchFields) : Except Exn (Bool × LaunchStore) :=
  if row.canonicalKey = "" then
    .error (.repositoryError
      "Unexpected IntegrityError during claim: CHECK constraint failed: canonical_key != ''")
  else if conflicts rowId s.agentLaunchRegistry row ||
      conflicts inFlightKey s.agentLaunchRegistry row then
    .ok (false, s)
  else if row.parentLaunchId.any fun parent =>
      parent != row.launchId && !s.agentLaunchRegistry.any fun r => r.launchId == parent then
    .error (.repositoryError
      "Unexpected IntegrityError during claim: FOREIGN KEY constraint failed")
  else .ok (true, { agentLaunchRegistry := s.agentLaunchRegistry ++ [row] })

end LaunchStore

/-- The repository's statements, the clock, fresh ids and the panes that tmux reports. -/
inductive LaunchCall where
  | insert (row : AgentLaunchFields)
  | getByLaunchId (launchId : String)
  | findActiveByCanonicalKey (canonicalKey : String)
  | casUpdate (launchId : String) (expected new : LaunchStatus) (columns : CasColumns)
  | listByStatus (status : LaunchStatus)
  | listExpiredLeases (nowMs : Int)
  | nowMs
  | uuid4Hex
  | aliveTmuxPanes

def LaunchCall.Value : LaunchCall → Type
  | .insert _ | .casUpdate .. => Bool
  | .getByLaunchId _ | .findActiveByCanonicalKey _ => Option AgentLaunch
  | .listByStatus _ | .listExpiredLeases _ => List AgentLaunch
  | .nowMs => Int
  | .uuid4Hex => String
  | .aliveTmuxPanes => Option (List String)

def launchSignature : Signature := ⟨LaunchCall, LaunchCall.Value⟩

namespace LaunchStore

/-- The launches that a listing makes of its rows; a malformed row is skipped. -/
def wellFormed (rows : List AgentLaunchFields) : List AgentLaunch :=
  rows.filterMap fun r => (construct AgentLaunchFields.postInit r).toOption

/-- What a call answers and does when the database serves it. -/
def serve : Semantics launchSignature Exn LaunchStore
  | ⟨.insert row, r⟩, s, s' =>
    match s.insert row with
    | .ok (inserted, s₁) => r = .ok inserted ∧ s' = s₁
    | .error e => r = .error e ∧ s' = s
  | ⟨.getByLaunchId launchId, r⟩, s, s' =>
    s' = s ∧ r = (s.agentLaunchRegistry.find? fun row => row.launchId == launchId).mapM
      (construct _)
  | ⟨.findActiveByCanonicalKey canonicalKey, r⟩, s, s' =>
    s' = s ∧ ∃ row, Latest (·.createdAt) (s.blockingRows canonicalKey) row ∧
      r = row.mapM (construct _)
  | ⟨.casUpdate launchId expected new columns, r⟩, s, s' =>
    r = .ok (s.agentLaunchRegistry.any (guarded launchId expected)) ∧
      s' = s.casUpdate launchId expected new columns
  | ⟨.listByStatus status, r⟩, s, s' =>
    s' = s ∧ ∃ rows,
      Ordered (·.createdAt) (s.agentLaunchRegistry.filter fun row => row.status == status) rows ∧
      r = .ok (wellFormed rows)
  | ⟨.listExpiredLeases nowMs, r⟩, s, s' =>
    s' = s ∧ ∃ rows : List AgentLaunchFields, r = .ok (wellFormed rows) ∧
      rows.Perm (s.agentLaunchRegistry.filter fun row =>
        (row.status == .reserved || row.status == .spawning) &&
          row.leaseExpiresAt.any (· ≤ nowMs))
  | ⟨.nowMs, r⟩, s, s' => s' = s ∧ ∃ now, r = .ok now
  | ⟨.uuid4Hex, r⟩, s, s' => s' = s ∧ ∃ hex, r = .ok hex
  | ⟨.aliveTmuxPanes, _⟩, s, s' => s' = s

/-- Any call may instead fail in the database, which then rolls back. -/
def step : Semantics launchSignature Exn LaunchStore := fun a s s' =>
  serve a s s' ∨ s' = s ∧ ∃ m, a.answer = .error (.repositoryError m)

end LaunchStore

end ForkAgent.Launch

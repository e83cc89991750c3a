import ForkAgent.Effects.Sequence
import ForkAgent.Telemetry.Entity

/-!
# The telemetry service

The service keeps new events in a buffer, writes the buffer when it is full, and counts the events of
the session in the stored summary. Its lock makes each operation one step for everybody else.
-/

namespace ForkAgent.Telemetry

open Effects

/-- A service, and the database that it writes to. -/
structure TelemetryState where
  buffer : List TelemetryEvent := []
  sessionId : Option String := none
  sessionStart : Option Int := none
  events : List TelemetryEvent := []
  sessions : List TelemetrySessionRow := []
  /-- Every event that was ever created, in order. -/
  created : List TelemetryEvent := []

inductive TelemetryCall where
  | timeMs
  | create (sessionId : Option String) (args : TrackArgs)
  | buffer
  | append (event : TelemetryEvent)
  | clear
  | session
  | setSession (sessionId : Option String) (sessionStart : Option Int)
  | saveBatch (events : List TelemetryEvent)
  | selectSession (sessionId : String)
  | replaceSession (row : TelemetrySessionRow)

abbrev TelemetryCall.Value : TelemetryCall → Type
  | .timeMs => Int
  | .create .. => TelemetryEvent
  | .buffer => List TelemetryEvent
  | .session => Option String × Option Int
  | .selectSession _ => Option TelemetrySessionRow
  | .append _ | .clear | .setSession .. | .saveBatch _ | .replaceSession _ => Unit

/-- The calls that the database serves. -/
def TelemetryCall.isStatement : TelemetryCall → Bool
  | .saveBatch _ | .selectSession _ | .replaceSession _ => true
  | _ => false

abbrev telemetrySignature : Signature := ⟨TelemetryCall, TelemetryCall.Value⟩

abbrev TelemetryProgram := Program telemetrySignature Exn

namespace TelemetryState

/-- `INSERT OR REPLACE INTO telemetry_events` of one event. -/
def replaceEvent (events : List TelemetryEvent) (event : TelemetryEvent) : List TelemetryEvent :=
  events.filter (·.id ≠ event.id) ++ [event]

/-- `INSERT OR REPLACE INTO telemetry_sessions`. -/
def replaceSession (row : TelemetrySessionRow) (rows : List TelemetrySessionRow) :
    List TelemetrySessionRow :=
  rows.filter (·.sessionId ≠ row.sessionId) ++ [row]

def selectSession (sessionId : String) (rows : List TelemetrySessionRow) :
    Option TelemetrySessionRow :=
  rows.find? (·.sessionId == sessionId)

/-- What a call answers and does when the database serves it. No id is drawn twice. -/
def serve : Semantics telemetrySignature Exn TelemetryState
  | ⟨.timeMs, r⟩, s, s' => s' = s ∧ ∃ now, r = .ok now
  | ⟨.create sessionId args, r⟩, s, s' =>
    ∃ nowMs uuid, uuid ∉ s.created.map (·.id) ∧
      match TelemetryEvent.create nowMs uuid sessionId args with
      | .ok event => r = .ok event ∧ s' = { s with created := s.created ++ [event] }
      | .error e => r = .error e ∧ s' = s
  | ⟨.buffer, r⟩, s, s' => s' = s ∧ r = .ok s.buffer
  | ⟨.append event, r⟩, s, s' => r = .ok () ∧ s' = { s with buffer := s.buffer ++ [event] }
  | ⟨.clear, r⟩, s, s' => r = .ok () ∧ s' = { s with buffer := [] }
  | ⟨.session, r⟩, s, s' => s' = s ∧ r = .ok (s.sessionId, s.sessionStart)
  | ⟨.setSession sessionId sessionStart, r⟩, s, s' => r = .ok () ∧ s' = { s with sessionId, sessionStart }
  | ⟨.saveBatch events, r⟩, s, s' =>
    r = .ok () ∧ s' = { s with events := events.foldl replaceEvent s.events }
  | ⟨.selectSession sessionId, r⟩, s, s' => s' = s ∧ r = .ok (selectSession sessionId s.sessions)
  | ⟨.replaceSession row, r⟩, s, s' =>
    r = .ok () ∧ s' = { s with sessions := replaceSession row s.sessions }

/-- Any statement may instead fail, also half-way through a batch; the database then rolls back. -/
def step : Semantics telemetrySignature Exn TelemetryState := fun a s s' =>
  serve a s s' ∨ a.call.isStatement = true ∧ s' = s ∧ ∃ e, a.answer = .error e

end TelemetryState

namespace TelemetryRepository

def telemetryCall (c : TelemetryCall) : TelemetryProgram c.Value :=
  Program.perform (σ := telemetrySignature) c

def saveBatch (events : List TelemetryEvent) : TelemetryProgram Unit :=
  if events = [] then return () else telemetryCall (.saveBatch events)

def getSessionSummary (sessionId : String) : TelemetryProgram (Option SessionSummary) := do
  let row : Option TelemetrySessionRow ← telemetryCall (.selectSession sessionId)
  return row.map (·.toSession)

def saveSessionSummary (summary : SessionSummary) : TelemetryProgram Unit :=
  telemetryCall (.replaceSession summary.toRow)

end TelemetryRepository

open TelemetryRepository

structure TelemetryService where
  bufferSize : Int := 50
  enabled : Bool := true
  platform : String
  pythonVersion : String
  forkAgentVersion : String

namespace TelemetryService

def flush : TelemetryProgram Unit := do
  let buffer : List TelemetryEvent ← telemetryCall .buffer
  if buffer = [] then return () else do
    saveBatch buffer
    telemetryCall .clear

/-- `_update_session_summary`. -/
def updateSessionSummary (event : TelemetryEvent) : TelemetryProgram Unit := do
  let (sessionId, _) : Option String × Option Int ← telemetryCall .session
  match sessionId with
  | none => return ()
  | some sessionId =>
    match ← getSessionSummary sessionId with
    | none => return ()
    | some summary =>
      match summary.updated event with
      | none => return ()
      | some summary => saveSessionSummary summary

variable (service : TelemetryService)

def track (args : TrackArgs) : TelemetryProgram String :=
  if service.enabled = false then return "" else do
    let session : Option String × Option Int ← telemetryCall .session
    let event : TelemetryEvent ← telemetryCall (.create session.1 args)
    telemetryCall (.append event)
    let buffer : List TelemetryEvent ← telemetryCall .buffer
    (if service.bufferSize ≤ buffer.length then flush else return ())
    -- an empty session id counts as none
    (if session.1.getD "" ≠ "" then updateSessionSummary event else return ())
    return event.id

/-- The event that a session starts with. -/
def sessionStarted (workspaceId : Option String) : TrackArgs where
  eventType := EventType.SESSION_START
  eventCategory := EventCategory.session.value
  attributes :=
    [("workspace_id", Json.ofText workspaceId), ("platform", .str service.platform),
      ("python_version", .str service.pythonVersion),
      ("fork_agent_version", .str service.forkAgentVersion)]

def startSession (sessionId : String) (workspaceId : Option String) : TelemetryProgram Unit :=
  if service.enabled = false then return () else do
    let now : Int ← telemetryCall .timeMs
    telemetryCall (.setSession (some sessionId) (some now))
    saveSessionSummary
      { sessionId, workspaceId, startedAt := some now, platform := some service.platform,
        pythonVersion := some service.pythonVersion,
        forkAgentVersion := some service.forkAgentVersion }
    let _ ← service.track (service.sessionStarted workspaceId)

/-- The event that a session ends with. -/
def sessionEnded (reason : String) (durationMs : Int) : TrackArgs where
  eventType := EventType.SESSION_END
  eventCategory := EventCategory.session.value
  attributes := [("reason", .str reason), ("duration_ms", .int durationMs)]
  metrics := some [("duration_ms", .float (toString durationMs ++ ".0"))]

def ended (summary : SessionSummary) (reason : String) (now durationMs : Int) : SessionSummary :=
  { summary with
    endedAt := some now, durationMs := some durationMs,
    status := if reason = "normal" then "ended" else "error" }

/-- The update of the summary in `end_session`. -/
def updateEnded (sessionId reason : String) (now durationMs : Int) : TelemetryProgram Unit := do
  match ← getSessionSummary sessionId with
  | none => return ()
  | some summary => saveSessionSummary (ended summary reason now durationMs)

def endSession (reason : String) : TelemetryProgram Unit :=
  if service.enabled = false then return () else do
    let (sessionId, sessionStart) : Option String × Option Int ← telemetryCall .session
    match sessionId.filter (· ≠ "") with
    | none => return ()
    | some sessionId =>
      let now : Int ← telemetryCall .timeMs
      -- a start at time zero counts as none
      let durationMs := ((sessionStart.filter (· ≠ 0)).map (now - ·)).getD 0
      let _ ← service.track (sessionEnded reason durationMs)
      flush
      updateEnded sessionId reason now durationMs
      telemetryCall (.setSession none none)

end TelemetryService

/-- The operations of the service. -/
inductive TelemetryOp where
  | startSession (sessionId : String) (workspaceId : Option String)
  | endSession (reason : String)
  | track (args : TrackArgs)
  | flush

def TelemetryOp.Result : TelemetryOp → Type
  | .startSession .. | .endSession _ | .flush => Unit
  | .track _ => String

def TelemetryOp.program (service : TelemetryService) : (o : TelemetryOp) → TelemetryProgram o.Result
  | .startSession sessionId workspaceId => service.startSession sessionId workspaceId
  | .endSession reason => service.endSession reason
  | .track args => service.track args
  | .flush => TelemetryService.flush

/-- A service that nothing was tracked with yet, over a database with a primary key. -/
structure TelemetryState.Unused (s : TelemetryState) : Prop where
  buffer : s.buffer = []
  created : s.created = s.events
  keyed : (s.events.map (·.id)).Nodup

def telemetrySystem (service : TelemetryService) : System telemetrySignature Exn TelemetryState where
  Op := TelemetryOp
  Result := TelemetryOp.Result
  program := TelemetryOp.program service
  step := TelemetryState.step
  outside _ _ := False
  initial := TelemetryState.Unused

end ForkAgent.Telemetry

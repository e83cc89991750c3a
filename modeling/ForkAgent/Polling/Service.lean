import ForkAgent.Polling.Repository

/-!
# Agent polling service

A cycle of the poller claims a launch for each approved task it has room for, records a queued
run, starts the task and spawns an agent; each step moves the run and the launch on. The check of
the active runs and the cancellation of one end runs again.
-/

namespace ForkAgent.Polling

open Effects Launch

def pollAgentOwner : String := "poll-agent"

/-- The fields of the service. `maxConcurrent` is the cap on runs that block a launch; the lease
duration and the FPEL port are those of the services it was built with. -/
structure AgentPollingService where
  maxConcurrent : Nat := 4
  allowSubprocessFallback : Bool := false
  lifecycleService : Bool := true
  leaseDurationMs : Int := 300000
  fpelPort : Bool := true

def queuedTimeoutS : Nat := 300

/-- `re.sub(r"\s+", "-", text)`; the flag says whether a run of white space is under way. -/
def collapseSpaces : Bool → List Char → List Char
  | _, [] => []
  | inSpace, c :: cs =>
    if isSpace c then if inSpace then collapseSpaces true cs else '-' :: collapseSpaces true cs
    else c :: collapseSpaces false cs

def sanitize (value : String) (maxLength : Nat) : String :=
  String.ofList ((collapseSpaces false (strip value).toList).take maxLength)

def buildTaskKey (taskId : String) : String := "task:" ++ sanitize taskId 128

/-- `f"{elapsed_s:.0f}"`, which rounds a half to the even neighbour. -/
def formatSeconds (elapsedMs : Int) : String :=
  let seconds := elapsedMs / 1000
  let rest := elapsedMs % 1000
  toString (if 500 < rest ∨ rest = 500 ∧ seconds % 2 = 1 then seconds + 1 else seconds)

variable {H : Fpel.Hashing}

/-- `contextlib.suppress(ValueError, TaskTransitionError)` around a task board operation. -/
def suppressValueError (p : PollingProgram H TaskBoard.OrchestrationTask) : PollingProgram H Unit :=
  (p >>= fun _ => return ()).handle fun e => if e.isValueError then return () else throw e

/-- `except ProcessLookupError: pass`. -/
def suppressProcessLookup (p : PollingProgram H Unit) : PollingProgram H Unit :=
  p.handle fun
    | .processLookupError _ => return ()
    | e => throw e

/-- Read a run back, or fail because it is gone. -/
def requireRun (runId gone : String) : PollingProgram H PollRun := do
  match ← pollCall (.getById runId) with
  | none => throw (.valueError (s!"Poll run '{runId}' " ++ gone))
  | some run => return run

/-- Tell the lifecycle service about the launch of a run, if the run has one. -/
def withLaunch (launchId : Option String) (f : String → LaunchProgram Bool) : PollingProgram H Unit :=
  match launchId with
  | none => return ()
  | some id => do
    let _ ← launches (f id)
    return ()

/-- Append an event stamped with the time. -/
def appendStamped (runId : String) (event : Int → Fields) : PollingProgram H Unit := do
  let now ← pollCall .timeMs
  pollCall (.appendEvent runId (event (Int.ofNat now)))

section Terminate

/-- `_terminate_pid` and `_terminate_process_group`: ask, wait up to a second, then force. -/
def terminateProcess (target : Int) (group : Bool) : PollingProgram H Unit := do
  suppressProcessLookup (pollCall (.terminate target group))
  let gone : Bool ← pollCall (.awaitExit target group)
  if gone then return ()
  else suppressProcessLookup (pollCall (.kill target group))

def killPane (paneId : String) : PollingProgram H Unit :=
  (pollCall (.killPane paneId)).handle fun
    | .timeoutExpired _ | .fileNotFoundError _ => return ()
    | e => throw e

def terminateLaunchHandle (handle : LaunchHandle) : PollingProgram H Unit :=
  match handle.method, handle.paneId, handle.pgid, handle.pid with
  | "tmux", some paneId, _, _ => if paneId ≠ "" then killPane paneId else return ()
  | "subprocess", _, some pgid, _ => terminateProcess pgid true
  | "subprocess", _, none, some pid => terminateProcess pid false
  | _, _, _, _ => return ()

def launchHandleFromRun (run : PollRun) : Option LaunchHandle :=
  match run.val.launchMethod, run.val.launchPaneId, run.val.launchPid with
  | some "tmux", some paneId, _ =>
    if paneId ≠ "" then some { method := "tmux", paneId := some paneId } else none
  | some "subprocess", _, some pid =>
    some { method := "subprocess", pid := some pid, pgid := run.val.launchPgid }
  | _, _, _ => none

/-- An integer in a JSON value; `True` and `False` are integers too. -/
def asInt : Option Json → Option Int
  | some (.int n) => some n
  | some (.bool b) => some (if b then 1 else 0)
  | _ => none

/-- A text of digits, read as a number; not every digit is one that `int` reads. -/
def asDigits : Option Json → Except Exn (Option Int)
  | some (.str s) => if isDigits s then some <$> intOfDigits s else .ok none
  | _ => .ok none

/-- The process that an `agent_spawned` event describes. -/
def processFromEvent (event : Fields) : Except Exn (Option LaunchHandle) :=
  match asInt (event.lookup "pid"), event.lookup "pid" with
  | some pid, _ =>
    .ok (some { method := "subprocess", pid := some pid, pgid := asInt (event.lookup "pgid") })
  | none, some (.str text) =>
    if isDigits text then do
      let pgid ← asDigits (event.lookup "pgid")
      let pid ← intOfDigits text
      return some { method := "subprocess", pid := some pid, pgid }
    else .ok none
  | none, _ => .ok none

/-- The handle that an `agent_spawned` event describes. -/
def launchHandleFromEvent (event : Fields) : Except Exn (Option LaunchHandle) :=
  match event.lookup "pane_id" with
  | some (.str paneId) =>
    if paneId ≠ "" then .ok (some { method := "tmux", paneId := some paneId })
    else processFromEvent event
  | _ => processFromEvent event

def isSpawned (event : Fields) : Bool :=
  match event.lookup "type" with
  | some (.str type) => type = "agent_spawned"
  | _ => false

/-- The last spawn that the event log tells of. -/
def terminateFromEvents (runId : String) : PollingProgram H Unit := do
  let events ← pollCall (.readEvents runId)
  match events.reverse.find? isSpawned with
  | none => return ()
  | some event =>
    match ← .ofExcept (launchHandleFromEvent event) with
    | none => return ()
    | some handle => terminateLaunchHandle handle

/-- The status a run is moved to when its agent is terminated, if it is moved. -/
def terminationStatus : PollRunStatus → Option PollRunStatus
  | .running | .spawning => some .terminating
  | .queued | .quarantined => some .cancelled
  | _ => none

def updateStatusTo (runId : String) : Option PollRunStatus → PollingProgram H Unit
  | none => return ()
  | some status => updateStatus runId status none

def terminateSpawnedAgent (runId : String) : PollingProgram H Unit := do
  match ← pollCall (.getById runId) with
  | none => terminateFromEvents runId
  | some run =>
    updateStatusTo runId (terminationStatus run.val.status)
    match launchHandleFromRun run with
    | none => terminateFromEvents runId
    | some handle => terminateLaunchHandle handle

end Terminate

section Spawn

variable (svc : AgentPollingService)

def agentPrompt (run : PollRun) (taskSubject runDir : String) : String :=
  s!"You are an autonomous agent executing task: {taskSubject}\n" ++
    s!"Run ID: {run.val.id}\n" ++
    s!"Write your results to {runDir}/status.json when done.\n" ++
    "Set status to COMPLETED or FAILED.\n"

/-- The agent in a new tmux pane, if the poller runs inside tmux. -/
def spawnPane (runDir : String) : PollingProgram H (Option LaunchHandle) := do
  let inTmux : Bool ← pollCall .inTmux
  if inTmux then
    (do
      let output ← pollCall (.splitWindow (s!"pi --mode json -p @{runDir}/agent_prompt.txt 2>&1" ++
        s!" | tee {runDir}/agent_output.jsonl; echo $?"))
      let paneId := strip output
      return if paneId ≠ "" then some { method := "tmux", paneId := some paneId } else none
      : PollingProgram H (Option LaunchHandle)).handle fun
    | .timeoutExpired _ | .fileNotFoundError _ => return none
    | e => throw e
  else return none

/-- The process of the fallback; `none` when it could not be started. -/
def openProcess (runDir : String) : PollingProgram H (Option Nat) :=
  (some <$> pollCall (.popen ["pi", "--mode", "json", "-p", s!"@{runDir}/agent_prompt.txt"]
    s!"{runDir}/agent.log")).handle fun e => if e.isOSError then return none else throw e

/-- The process group of the fallback; an orphan without one is killed. -/
def processGroup (pid : Nat) : PollingProgram H (Option Nat) :=
  (some <$> pollCall (.getpgid pid)).handle fun
    | .processLookupError _ => do
      suppressProcessLookup (pollCall (.kill pid false))
      return none
    | e => throw e

def spawnSubprocess (runDir : String) : PollingProgram H (Option LaunchHandle) := do
  match ← openProcess runDir with
  | none => return none
  | some pid =>
    match ← processGroup pid with
    | none => return none
    | some pgid =>
      return some { method := "subprocess", pid := some (Int.ofNat pid), pgid := some (Int.ofNat pgid) }

def spawnAgent (run : PollRun) (taskSubject runDir : String) :
    PollingProgram H (Option LaunchHandle) := do
  let dirExists : Bool ← pollCall (.pathExists runDir)
  if dirExists then
    pollCall (.writeText s!"{runDir}/agent_prompt.txt" (agentPrompt run taskSubject runDir))
    match ← spawnPane runDir with
    | some handle => return some handle
    | none => if svc.allowSubprocessFallback then spawnSubprocess runDir else return none
  else return none

/-- A run that did not get a confirmed agent stays where it blocks its task. -/
def quarantineRun (runId taskId : String) (launchId : Option String)
    (message launchReason reason : String) : PollingProgram H PollRun := do
  updateStatus runId .quarantined (some message)
  withLaunch launchId fun id => quarantine id launchReason
  appendStamped runId fun now =>
    [("type", .str "launch_quarantined"), ("task_id", .str taskId), ("timestamp", .int now),
      ("reason", .str reason)]
  requireRun runId "disappeared"

def spawnedEvent (handle : LaunchHandle) : Fields :=
  [("type", .str "agent_spawned"), ("method", .str handle.method)] ++
    (match handle.paneId with
      | some paneId => if paneId ≠ "" then [("pane_id", .str paneId)] else []
      | none => []) ++
    (handle.pid.toList.map fun pid => ("pid", .int pid)) ++
    (handle.pgid.toList.map fun pgid => ("pgid", .int pgid))

/-- `handle.pane_id or str(handle.pgid or handle.pid or "")`. -/
def terminationHandleValue (handle : LaunchHandle) : String :=
  match handle.paneId.filter (· ≠ ""), handle.pgid.filter (· ≠ 0), handle.pid.filter (· ≠ 0) with
  | some paneId, _, _ => paneId
  | none, some pgid, _ => toString pgid
  | none, none, some pid => toString pid
  | none, none, none => ""

/-- The part of a spawn that follows a confirmed agent. -/
def recordSpawn (runId taskId taskSubject : String) (nowMs : Nat) (launchId : Option String)
    (handle : LaunchHandle) : PollingProgram H PollRun := do
  if ← recordLaunchMetadata runId handle launchId then
    pollCall (.appendEvent runId (spawnedEvent handle))
    withLaunch launchId fun id =>
      confirmActive id handle.method (if handle.method = "tmux" then "tmux-pane" else "pgid")
        (terminationHandleValue handle) handle.paneId none handle.pid handle.pgid
    updateStatus runId .running none
    pollCall (.writeStatus runId
      [("run_id", .str runId), ("task_id", .str taskId), ("task_subject", .str taskSubject),
        ("agent_name", .str pollAgentOwner), ("status", .str "RUNNING"), ("started_at", .int nowMs)])
    pollCall (.appendEvent runId
      [("type", .str "started"), ("task_id", .str taskId), ("timestamp", .int nowMs),
        ("launch_method", .str handle.method)])
    requireRun runId "disappeared after spawn"
  else
    terminateLaunchHandle handle
    quarantineRun runId taskId launchId "Spawn unresolved: failed to persist launch metadata"
      "metadata persist failed" "metadata_persist_failed"

/-- The agent of a run that is still there. -/
def spawnCurrent (current : Option PollRun) (taskSubject runDir : String) :
    PollingProgram H (Option LaunchHandle) :=
  match current with
  | none => return none
  | some run => spawnAgent svc run taskSubject runDir

/-- The part of a spawn that follows the start of the task. -/
def spawnStarted (runId taskId taskSubject runDir : String) (nowMs : Nat)
    (launchId : Option String) : PollingProgram H PollRun := do
  updateStatus runId .spawning none
  withLaunch launchId confirmSpawning
  let current ← pollCall (.getById runId)
  match ← spawnCurrent svc current taskSubject runDir with
  | none =>
    quarantineRun runId taskId launchId
      "Spawn unresolved: launch confirmation missing; blocking relaunch" "spawn unresolved"
      "spawn_unresolved"
  | some handle => recordSpawn runId taskId taskSubject nowMs launchId handle

/-- The start of the task; the answer is why it was refused, if it was. Only a refused transition
is caught. -/
def startTask (taskId : String) : PollingProgram H (Option String) :=
  (tasks (TaskBoard.start H svc.fpelPort taskId pollAgentOwner none) >>= fun _ => return none).handle
    fun
    | .taskTransitionError message => return some message
    | e => throw e

def refuseRun (runId message : String) (launchId : Option String) : PollingProgram H PollRun := do
  updateStatus runId .failed (some message)
  withLaunch launchId fun id => markFailed id message
  requireRun runId "disappeared"

/-- The run that a spawn records before it starts the task. -/
def queuedRun (runId taskId runDir : String) (launchId : Option String) : PollRunFields where
  id := runId
  taskId := taskId
  agentName := pollAgentOwner
  status := .queued
  pollRunDir := some runDir
  canonicalKey := some (buildTaskKey taskId)
  launchId := launchId

/-- The part of a spawn that follows the claim of a launch. -/
def spawnClaimed (runId taskId taskSubject : String) (nowMs : Nat) (launchId : Option String) :
    PollingProgram H PollRun := do
  let runDir ← pollCall (.createRunDir runId)
  let run ← .ofExcept (construct PollRunFields.postInit (queuedRun runId taskId runDir launchId))
  pollCall (.save run)
  match ← startTask svc taskId with
  | some message => refuseRun runId message launchId
  | none => spawnStarted svc runId taskId taskSubject runDir nowMs launchId

/-- The reason of a refused launch, or else the decision. -/
def denialReason (attempt : LaunchAttempt) : String :=
  match attempt.reason.filter (· ≠ "") with
  | some reason => reason
  | none => attempt.decision.value

/-- A run that was refused a launch is recorded as cancelled. -/
def suppressedRun (runId taskId : String) (attempt : LaunchAttempt) : PollRunFields where
  id := runId
  taskId := taskId
  agentName := pollAgentOwner
  status := .cancelled
  errorMessage := some ("Launch suppressed by lifecycle service: " ++ denialReason attempt)

def launchRequest (taskId : String) : LaunchRequest where
  canonicalKey := buildTaskKey taskId
  surface := "polling"
  ownerType := "task"
  ownerId := taskId
  leaseDurationMs := svc.leaseDurationMs

def spawnRun (taskId taskSubject : String) : PollingProgram H PollRun := do
  let now ← pollCall .timeMs
  let runId ← pollCall .uuid4Hex
  if svc.lifecycleService then
    let attempt ← launches (requestLaunch (launchRequest svc taskId))
    if attempt.decision = .claimed then
      spawnClaimed svc runId taskId taskSubject now (attempt.launch.map (·.val.launchId))
    else
      let run ← .ofExcept (construct PollRunFields.postInit (suppressedRun runId taskId attempt))
      pollCall (.save run)
      return run
  else spawnClaimed svc runId taskId taskSubject now none

end Spawn

section PollOnce

variable (svc : AgentPollingService)

def reconcile : PollingProgram H Unit :=
  if svc.lifecycleService then do
    let _ ← launches reconcileExpiredLeases
    return ()
  else return ()

/-- Whether the launch registry blocks the task. -/
def hasActiveLaunch (taskId : String) : PollingProgram H Bool :=
  if svc.lifecycleService then do
    let active ← launches (findActiveByCanonicalKey (buildTaskKey taskId))
    return active.isSome
  else return false

/-- The approved tasks that neither a run nor a launch blocks. -/
def candidates (blockingTaskIds : List String) :
    List TaskBoard.OrchestrationTask → PollingProgram H (List TaskBoard.OrchestrationTask)
  | [] => return []
  | task :: rest => do
    if task.val.id ∈ blockingTaskIds then candidates blockingTaskIds rest
    else
      let blocked ← hasActiveLaunch svc task.val.id
      let others ← candidates blockingTaskIds rest
      return if blocked then others else task :: others

def spawnEach : List TaskBoard.OrchestrationTask → PollingProgram H (List PollRun)
  | [] => return []
  | task :: rest => do
    let run ← spawnRun svc task.val.id task.val.subject
    let runs ← spawnEach rest
    return run :: runs

def pollOnce : PollingProgram H (List PollRun) := do
  reconcile svc
  let launchBlockingRuns ← pollCall .listLaunchBlocking
  let available := svc.maxConcurrent - launchBlockingRuns.length
  if available = 0 then return []
  else
    let approved ← tasks (TaskBoard.listByStatus .approved)
    let found ← candidates svc (launchBlockingRuns.map (·.val.taskId)) approved
    spawnEach svc (found.take available)

end PollOnce

section CheckRuns

variable (svc : AgentPollingService)

def getLaunch (launchId : Option String) : LaunchProgram (Option AgentLaunch) :=
  match launchId with
  | none => return none
  | some launchId => getByLaunchId launchId

/-- The launch of a run, or for a run without one the launch that blocks its key. -/
def launchOfRun (run : PollRun) : LaunchProgram (Option AgentLaunch) := do
  match ← getLaunch run.val.launchId, run.val.canonicalKey with
  | none, some canonicalKey => findActiveByCanonicalKey canonicalKey
  | launch, _ => return launch

/-- `error or "run failed"`. -/
def failureText (error : String) : String := if error = "" then "run failed" else error

/-- What a finalization does with a launch; the error says that the run failed. -/
def endLaunch (error : Option String) (launch : AgentLaunch) : LaunchProgram Unit := do
  match error with
  | some error =>
    let _ ← markFailed launch.val.launchId (failureText error)
    return ()
  | none =>
    let _ ← beginTermination launch.val.launchId
    let _ ← confirmTerminated launch.val.launchId
    return ()

/-- Finalization is best effort: whatever it raises is dropped. -/
def finalizeLaunch (run : PollRun) (error : Option String) : PollingProgram H Unit :=
  if svc.lifecycleService then
    (launches (do
      match ← launchOfRun run with
      | none => return ()
      | some launch => endLaunch error launch)).handle fun _ => return ()
  else return ()

def finalizeIfSome (run : Option PollRun) (error : Option String) : PollingProgram H Unit :=
  match run with
  | none => return ()
  | some run => finalizeLaunch svc run error

def completeRun (runId taskId : String) : PollingProgram H Unit := do
  terminateSpawnedAgent runId
  suppressValueError (tasks (TaskBoard.complete H taskId none))
  updateStatus runId .completed none
  let run ← pollCall (.getById runId)
  finalizeIfSome svc run none
  appendStamped runId fun now =>
    [("type", .str "completed"), ("task_id", .str taskId), ("timestamp", .int now)]

/-- Put the task of a run back into the approved pool. -/
def retryTask (taskId : String) : PollingProgram H Unit :=
  if taskId ≠ "" then suppressValueError (tasks (TaskBoard.retry H taskId)) else return ()

def failRun (runId error : String) : PollingProgram H Unit := do
  let run ← pollCall (.getById runId)
  terminateSpawnedAgent runId
  updateStatus runId .failed (some error)
  finalizeIfSome svc run (some error)
  appendStamped runId fun now =>
    [("type", .str "failed"), ("error", .str error), ("timestamp", .int now)]
  match run with
  | none => return ()
  | some run => retryTask run.val.taskId

/-- A run that has waited too long for its agent is quarantined; the answer says whether it was. -/
def quarantineTimedOut (run : PollRun) (reason : String) : PollingProgram H Bool := do
  if run.val.status = .queued ∨ run.val.status = .spawning then
    let now ← pollCall .timeMs
    let elapsedMs := Int.ofNat now - run.val.startedAt.getD 0
    if 1000 * Int.ofNat queuedTimeoutS < elapsedMs then
      updateStatus run.val.id .quarantined
        (some s!"Spawn unresolved timeout after {formatSeconds elapsedMs}s")
      appendStamped run.val.id fun now =>
        [("type", .str "launch_quarantined"), ("timestamp", .int now), ("reason", .str reason)]
      return true
    else return false
  else return false

def checkMissing (run : PollRun) : PollingProgram H Unit := do
  if run.val.status = .queued ∨ run.val.status = .spawning then
    let _ ← quarantineTimedOut run "queued_timeout"
    return ()
  else failRun svc run.val.id "Agent crashed: no status file written"

/-- What the check does with a run that has a status file; the answer says whether it was
quarantined. -/
def checkReported (run : PollRun) (status error : Option String) : PollingProgram H Bool := do
  if status = some "COMPLETED" then
    completeRun svc run.val.id run.val.taskId
    return false
  else if status = some "FAILED" then
    failRun svc run.val.id (error.getD "Unknown error")
    return false
  else quarantineTimedOut run "status_timeout"

/-- One turn of the check; the answer is what it adds to the list of updated runs. -/
def checkRun (run : PollRun) : PollingProgram H (List (Option PollRun)) := do
  match ← pollCall (.readStatus run.val.id) with
  | .absent =>
    checkMissing svc run
    let current ← pollCall (.getById run.val.id)
    return [current]
  | .notObject typeName => throw (.attributeError s!"'{typeName}' object has no attribute 'get'")
  | .object status error =>
    let quarantined ← checkReported svc run status error
    let current ← pollCall (.getById run.val.id)
    return if quarantined || current.isSome then [current] else []

def checkEach : List PollRun → PollingProgram H (List (Option PollRun))
  | [] => return []
  | run :: rest => do
    let updated ← checkRun svc run
    let others ← checkEach rest
    return updated ++ others

def checkRuns : PollingProgram H (List (Option PollRun)) := do
  let active ← pollCall .listActive
  checkEach svc active

end CheckRuns

def cancelRun (runId : String) : PollingProgram H PollRun := do
  match ← pollCall (.getById runId) with
  | none => throw (.valueError s!"Poll run '{runId}' not found")
  | some run =>
    if run.canTransitionTo .cancelled then
      updateStatus runId .cancelled none
      appendStamped runId fun now => [("type", .str "cancelled"), ("timestamp", .int now)]
      terminateSpawnedAgent runId
      retryTask run.val.taskId
      requireRun runId "disappeared after update"
    else
      throw (.valueError s!"Cannot cancel run '{runId}' in status {run.val.status.value}")

end ForkAgent.Polling

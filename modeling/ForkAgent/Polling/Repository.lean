import ForkAgent.Launch.Lifecycle
import ForkAgent.Polling.Entity
import ForkAgent.Python.Json
import ForkAgent.TaskBoard.Service
import Mathlib.Order.WithBot

/-!
# Poll run repository

The table of poll runs, and the world around the polling service: the run directories that it
shares with the agents, tmux, processes and the clock. The service also calls the launch registry
and the task board, so its programs run over all three.
-/

namespace ForkAgent.Polling

open Effects Storage

structure PollStore where
  pollRuns : List PollRunFields := []

namespace PollStore

/-- Primary key of `poll_runs`. -/
def runId (r : PollRunFields) : Option String := some r.id

/-- `idx_poll_runs_unique_active_task`. -/
def activeTask (r : PollRunFields) : Option String :=
  if r.status.isIndexed then some r.taskId else none

/-- `INSERT OR REPLACE`: a row that shares a key with the new one goes. -/
def save (s : PollStore) (run : PollRun) : PollStore :=
  { pollRuns :=
      s.pollRuns.filter (fun r => !(conflicts runId [r] run.val || conflicts activeTask [r] run.val))
        ++ [run.val] }

/-- The `SET` clause of a status update. -/
def set (status : PollRunStatus) (nowMs : Int) (errorMessage : Option String) (r : PollRunFields) :
    PollRunFields :=
  if status.isTerminal then { r with status, endedAt := some nowMs, errorMessage }
  else { r with status, startedAt := some nowMs, errorMessage }

section Set

variable (status : PollRunStatus) (nowMs : Int) (errorMessage : Option String) (r : PollRunFields)

@[simp] theorem set_id : (set status nowMs errorMessage r).id = r.id := by
  unfold set
  split_ifs <;> rfl

@[simp] theorem set_taskId : (set status nowMs errorMessage r).taskId = r.taskId := by
  unfold set
  split_ifs <;> rfl

@[simp] theorem set_launchId : (set status nowMs errorMessage r).launchId = r.launchId := by
  unfold set
  split_ifs <;> rfl

@[simp] theorem set_status : (set status nowMs errorMessage r).status = status := by
  unfold set
  split_ifs <;> rfl

end Set

def withStatus (s : PollStore) (id : String) (status : PollRunStatus) (nowMs : Int)
    (errorMessage : Option String) : PollStore :=
  { pollRuns := updateWhere (fun r => r.id == id) (set status nowMs errorMessage) s.pollRuns }

/-- The `UPDATE` of a status, unless it would put two rows under one key. -/
def updateRow (s : PollStore) (id : String) (status : PollRunStatus) (nowMs : Int)
    (errorMessage : Option String) : Except Exn PollStore :=
  let others := s.pollRuns.filter fun r => r.id != id
  let changed := s.pollRuns.filter fun r => r.id == id
  if changed.any fun r => conflicts activeTask others (set status nowMs errorMessage r) then
    .error (.repositoryError
      "Failed to update poll run status: UNIQUE constraint failed: poll_runs.task_id")
  else .ok (s.withStatus id status nowMs errorMessage)

/-- The `SET` clause of `record_launch_metadata`. -/
def setMetadata (handle : LaunchHandle) (nowMs : Int) (launchId : Option String)
    (r : PollRunFields) : PollRunFields :=
  { r with
    launchMethod := some handle.method
    launchPaneId := handle.paneId
    launchPid := handle.pid
    launchPgid := handle.pgid
    launchRecordedAt := some nowMs
    launchId := launchId.or r.launchId }

def recordLaunchMetadata (s : PollStore) (id : String) (handle : LaunchHandle) (nowMs : Int)
    (launchId : Option String) : PollStore :=
  { pollRuns := updateWhere (fun r => r.id == id) (setMetadata handle nowMs launchId) s.pollRuns }

/-- `NULL` comes before every time. -/
instance timeLE : LE (WithBot Int) := (@WithBot.linearOrder Int Int.instLinearOrder).toLE

/-- `ORDER BY started_at DESC`, where `NULL` comes last. -/
def startedAt (r : PollRunFields) : WithBot Int := r.startedAt

def activeRows (s : PollStore) : List PollRunFields :=
  s.pollRuns.filter fun r => r.status.isActive

def launchBlockingRows (s : PollStore) : List PollRunFields :=
  s.pollRuns.filter fun r => r.status.isLaunchBlocking

end PollStore

/-- What `check_runs` can tell of a `status.json`: missing, malformed or `null`; a JSON value of
another type; or an object, with its status if that is a text, and with the text of its error if
it has one. -/
inductive StatusFile where
  | absent
  | notObject (typeName : String)
  | object (status : Option String) (error : Option String)
  deriving DecidableEq, Repr

/-- The fields of an event, or of a status that is written. -/
abbrev Fields := List (String × Json)

/-- The statements of the repository, the run directory, tmux, processes, the clock and fresh ids. -/
inductive PollCall where
  | save (run : PollRun)
  | getById (runId : String)
  | listActive
  | listLaunchBlocking
  | updateRow (runId : String) (status : PollRunStatus) (nowMs : Int) (errorMessage : Option String)
  | recordLaunchMetadata (runId : String) (handle : LaunchHandle) (nowMs : Int)
      (launchId : Option String)
  | timeMs
  | uuid4Hex
  | createRunDir (runId : String)
  | readStatus (runId : String)
  | writeStatus (runId : String) (data : Fields)
  | appendEvent (runId : String) (event : Fields)
  | readEvents (runId : String)
  | pathExists (path : String)
  | writeText (path text : String)
  | inTmux
  | splitWindow (command : String)
  | killPane (paneId : String)
  | popen (arguments : List String) (logPath : String)
  | getpgid (pid : Int)
  | terminate (target : Int) (group : Bool)
  | awaitExit (target : Int) (group : Bool)
  | kill (target : Int) (group : Bool)

def PollCall.Value : PollCall → Type
  | .getById _ => Option PollRun
  | .listActive | .listLaunchBlocking => List PollRun
  | .recordLaunchMetadata .. | .pathExists _ | .inTmux | .awaitExit .. => Bool
  | .timeMs | .popen .. | .getpgid _ => Nat
  | .uuid4Hex | .createRunDir _ | .splitWindow _ => String
  | .readStatus _ => StatusFile
  | .readEvents _ => List Fields
  | .save _ | .updateRow .. | .writeStatus .. | .appendEvent .. | .writeText .. | .killPane _ |
    .terminate .. | .kill .. => Unit

def pollSignature : Signature := ⟨PollCall, PollCall.Value⟩

namespace PollStore

/-- What a call answers and does when the database serves it. The run directory is the agents' too
and processes come and go, so nothing is said of what these answer or raise. -/
def serve : Semantics pollSignature Exn PollStore
  | ⟨.save run, r⟩, s, s' => r = .ok () ∧ s' = s.save run
  | ⟨.getById id, r⟩, s, s' =>
    s' = s ∧ r = (s.pollRuns.find? fun row => row.id == id).mapM (construct _)
  | ⟨.listActive, r⟩, s, s' =>
    s' = s ∧ ∃ rows, Ordered startedAt s.activeRows rows ∧ r = rows.mapM (construct _)
  | ⟨.listLaunchBlocking, r⟩, s, s' =>
    s' = s ∧ ∃ rows, Ordered startedAt s.launchBlockingRows rows ∧ r = rows.mapM (construct _)
  | ⟨.updateRow id status nowMs errorMessage, r⟩, s, s' =>
    Transaction (s.updateRow id status nowMs errorMessage) s r s'
  | ⟨.recordLaunchMetadata id handle nowMs launchId, r⟩, s, s' =>
    r = .ok (s.pollRuns.any fun row => row.id == id) ∧
      s' = s.recordLaunchMetadata id handle nowMs launchId
  | ⟨.timeMs, r⟩, s, s' => s' = s ∧ ∃ now, r = .ok now
  | ⟨.uuid4Hex, r⟩, s, s' => s' = s ∧ ∃ hex, r = .ok hex
  | _, s, s' => s' = s

/-- Any call may instead fail in the database, which then rolls back. -/
def step : Semantics pollSignature Exn PollStore := fun a s s' =>
  serve a s s' ∨ s' = s ∧ ∃ m, a.answer = .error (.repositoryError m)

end PollStore

section World

variable (H : Fpel.Hashing)

/-- The calls of the polling service: on its own table and surroundings, on the launch registry
and on the task board. -/
def worldSignature : Signature := pollSignature.sum (Launch.launchSignature.sum (TaskBoard.boardSignature H))

abbrev PollingProgram := Program (worldSignature H) Exn

/-- Where the calls of the launch lifecycle service and of the task board service are. -/
def launchEmbedding : Embedding Launch.launchSignature (worldSignature H) :=
  ⟨fun c => .inr (.inl c), fun _ => .refl _⟩

def boardEmbedding : Embedding (TaskBoard.boardSignature H) (worldSignature H) :=
  ⟨fun c => .inr (.inr c), fun _ => .refl _⟩

/-- Poll runs, launches and tasks with their FPEL tables. -/
abbrev World := PollStore × Launch.LaunchStore × TaskBoard.TaskStore × Fpel.FpelStore

def serve : Semantics (worldSignature H) Exn World :=
  Semantics.sum PollStore.serve (Semantics.sum Launch.LaunchStore.serve
    (Semantics.sum TaskBoard.TaskStore.serve (Fpel.FpelStore.serve H)))

def step : Semantics (worldSignature H) Exn World :=
  Semantics.sum PollStore.step (Semantics.sum Launch.LaunchStore.step
    (Semantics.sum TaskBoard.TaskStore.step (Fpel.FpelStore.step H)))

end World

section Calls

variable {H : Fpel.Hashing}

def pollCall (c : PollCall) : PollingProgram H c.Value := .perform (σ := worldSignature H) (.inl c)

/-- A program of the launch lifecycle service. -/
def launches {α : Type} (p : Launch.LaunchProgram α) : PollingProgram H α :=
  p.lift (launchEmbedding H)

/-- A program of the task board service. -/
def tasks {α : Type} (p : TaskBoard.BoardProgram H α) : PollingProgram H α :=
  p.lift (boardEmbedding H)

def invalidTransition (run : PollRun) (status : PollRunStatus) : Exn :=
  .valueError ("Invalid poll run transition: " ++
    s!"{run.val.status.value} -> {status.value} for run {run.val.id}")

def validateTransition (current : Option PollRun) (status : PollRunStatus) : Except Exn Unit :=
  match current with
  | none => .ok ()
  | some run => require (run.canTransitionTo status) (invalidTransition run status)

/-- The status as it is read decides; the update itself has no guard. -/
def updateStatus (runId : String) (status : PollRunStatus) (errorMessage : Option String) :
    PollingProgram H Unit := do
  let current ← pollCall (.getById runId)
  .ofExcept (validateTransition current status)
  let now ← pollCall .timeMs
  pollCall (.updateRow runId status (Int.ofNat now) errorMessage)

def recordLaunchMetadata (runId : String) (handle : LaunchHandle) (launchId : Option String) :
    PollingProgram H Bool := do
  let now ← pollCall .timeMs
  pollCall (.recordLaunchMetadata runId handle (Int.ofNat now) launchId)

end Calls

end ForkAgent.Polling

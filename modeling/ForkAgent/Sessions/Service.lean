import ForkAgent.Effects.Serial
import ForkAgent.Sessions.Entity
import ForkAgent.Storage.Table

/-!
# The session service

Starting a session looks for an active one of the project, ends it and stores the new one: three
transactions, one after another. A session is ended in one transaction, which reads the row, writes
it and builds the session that it returns.
-/

namespace ForkAgent.Sessions

open Effects Storage

/-- The calls of the session repository, and the sources of fresh ids and of time. -/
inductive SessionCall where
  | insert (session : Session)
  | selectActive (project : String)
  | endSession (sessionId : String) (endedAt : Nat) (summary : Option String)
  | uuid4
  | timeMs

def SessionCall.Value : SessionCall → Type
  | .insert _ => Unit
  | .selectActive _ => Option SessionFields
  | .endSession .. => Session
  | .uuid4 => String
  | .timeMs => Nat

def sessionSignature : Signature := ⟨SessionCall, SessionCall.Value⟩

abbrev SessionProgram := Program sessionSignature Exn

namespace SessionTable

def isActiveIn (project : String) (session : SessionFields) : Bool :=
  session.project == project && session.isActive

/-- The statement that ends a session. -/
def markEnded (sessionId : String) (endedAt : Nat) (summary : Option String) :
    List SessionFields → List SessionFields :=
  updateWhere (fun session => session.id == sessionId)
    fun session => { session with endedAt := some (endedAt : Int), summary }

/-- The transaction that ends a session. -/
def endSession (sessionId : String) (endedAt : Nat) (summary : Option String)
    (sessions : List SessionFields) : Except Exn (Session × List SessionFields) :=
  match sessions.find? fun session => session.id == sessionId with
  | none => .error (.sessionNotFoundError ("Session '" ++ sessionId ++ "' not found"))
  | some row => do
    let session ← construct SessionFields.postInit row
    let ended ← construct SessionFields.postInit
      { session.val with endedAt := some (endedAt : Int), summary }
    return (ended, markEnded sessionId endedAt summary sessions)

/-- What a call answers and does when the database serves it. -/
def serve : Semantics sessionSignature Exn (List SessionFields)
  | ⟨.insert session, r⟩, s, s' =>
    if session.val.id ∈ s.map (·.id) then (∃ m, r = .error (.integrityError m)) ∧ s' = s
    else r = .ok () ∧ s' = s ++ [session.val]
  | ⟨.selectActive project, r⟩, s, s' =>
    s' = s ∧ ∃ row, Latest (·.startedAt) (s.filter (isActiveIn project)) row ∧ r = .ok row
  | ⟨.endSession sessionId endedAt summary, r⟩, s, s' =>
    match endSession sessionId endedAt summary s with
    | .ok (session, t) => r = .ok session ∧ s' = t
    | .error e => r = .error e ∧ s' = s
  | ⟨.uuid4, r⟩, s, s' => s' = s ∧ ∃ id : String, id ≠ "" ∧ r = .ok id
  | ⟨.timeMs, r⟩, s, s' => s' = s ∧ ∃ now, r = .ok now

/-- Any call may instead fail in the database, which then rolls back. -/
def step : Semantics sessionSignature Exn (List SessionFields) := fun a s s' =>
  serve a s s' ∨ s' = s ∧ ∃ m, a.answer = .error (.operationalError m)

end SessionTable

/-- A call whose errors are raised as others. -/
def sessionCall (f : Exn → Exn) (c : SessionCall) : SessionProgram c.Value :=
  (Program.perform (σ := sessionSignature) c).handle fun e => throw (f e)

namespace SessionRepository

/-- `except sqlite3.Error as e: raise RepositoryError(f"{context}: {e}")`. -/
def sqliteErrorAs (context : String) : Exn → Exn
  | .integrityError m | .operationalError m => .repositoryError (context ++ ": " ++ m)
  | e => e

def insertError (sessionId : String) : Exn → Exn
  | .integrityError _ => .repositoryError ("Session with id '" ++ sessionId ++ "' already exists")
  | e => sqliteErrorAs "Failed to create session" e

def create (session : Session) : SessionProgram Unit :=
  sessionCall (insertError session.val.id) (.insert session)

def endSession (sessionId : String) (summary : Option String) : SessionProgram Session := do
  let endedAt ← sessionCall id .timeMs
  sessionCall (sqliteErrorAs "Failed to end session") (.endSession sessionId endedAt summary)

def getActive (project : String) : SessionProgram (Option Session) := do
  let row ← sessionCall (sqliteErrorAs "Failed to get active session") (.selectActive project)
  .ofExcept (Option.mapM (construct SessionFields.postInit) row)

end SessionRepository

namespace SessionService

open SessionRepository

/-- Auto-end the previous active session. -/
def autoEnd : Option Session → SessionProgram Unit
  | none => return ()
  | some active => do
    let _ ← endSession active.val.id (some "Auto-ended: new session started")
    return ()

/-- The body of `start_session`. -/
def openSession (project directory : String) (goal instructions : Option String) :
    SessionProgram Session := do
  let active ← getActive project
  autoEnd active
  let sessionId : String ← sessionCall id .uuid4
  let startedAt : Nat ← sessionCall id .timeMs
  let session ← .ofExcept (construct SessionFields.postInit
    { id := sessionId, project, directory, startedAt, goal, instructions })
  create session
  return session

def startSession (project directory : String) (goal instructions : Option String) :
    SessionProgram Session :=
  (openSession project directory goal instructions).handle fun e =>
    throw (.serviceError ("Failed to start session: " ++ e.message))

def endSession (sessionId : String) (summary : Option String) : SessionProgram Session :=
  (SessionRepository.endSession sessionId summary).handle fun
    | .sessionNotFoundError m => throw (.sessionNotFoundError m)
    | e => throw (.serviceError ("Failed to end session: " ++ e.message))

end SessionService

end ForkAgent.Sessions

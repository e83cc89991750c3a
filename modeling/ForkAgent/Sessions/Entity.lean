import ForkAgent.Python.Basic

/-!
# Sessions

The session record with its post-init checks, and the statements that change rows of the sessions
table. Times are milliseconds; a session that has not ended is active.
-/

namespace ForkAgent.Sessions

structure SessionFields where
  id : String
  project : String
  directory : String
  startedAt : Int
  endedAt : Option Int := none
  goal : Option String := none
  instructions : Option String := none
  summary : Option String := none
  deriving DecidableEq, Repr

namespace SessionFields

def postInit (f : SessionFields) : Except Exn Unit := do
  require (f.id ≠ "") (.valueError "id cannot be empty")
  require (f.project ≠ "") (.valueError "project cannot be empty")
  require (f.directory ≠ "") (.valueError "directory cannot be empty")
  require (0 ≤ f.startedAt) (.valueError "started_at must be non-negative")
  require (f.endedAt.all (0 ≤ ·)) (.valueError "ended_at must be non-negative")

def isActive (f : SessionFields) : Bool := f.endedAt.isNone

/-- What a merge of projects makes of a row. -/
def relocate (canonical : String) (f : SessionFields) : SessionFields :=
  { f with project := canonical }

end SessionFields

abbrev Session := Validated SessionFields.postInit

/-- The sessions after their projects were merged, and how many were changed. -/
def moveSessions (canonical : String) : List String → List SessionFields → Nat × List SessionFields
  | [], sessions => (0, sessions)
  | src :: sources, sessions =>
    let moved := sessions.countP (·.project = src)
    let rest := moveSessions canonical sources
      (sessions.map fun session => if session.project = src then session.relocate canonical else session)
    (moved + rest.1, rest.2)

end ForkAgent.Sessions

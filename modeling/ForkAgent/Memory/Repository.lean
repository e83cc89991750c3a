import ForkAgent.Memory.Table
import ForkAgent.Sessions.Entity
import ForkAgent.Sync.Repository

/-!
# Observation repository

Each statement of the repository is one call. A write that has been committed is followed by an
entry in the sync journal, in a transaction of its own; a failure to record it is dropped.
-/

namespace ForkAgent.Memory

open Effects Storage Sync Sessions

/-- The observations, and the sessions, whose projects are merged along with theirs. -/
@[ext] structure MemoryStore where
  observations : ObservationTable := .empty
  sessions : List SessionFields := []

/-- The database's statements, the clock and fresh ids. -/
inductive MemoryCall where
  | insert (row : ObservationRow)
  | update (row : ObservationRow)
  | delete (id : String)
  | selectById (id : String)
  | selectByTopicKey (key : String) (project : Option String)
  | selectByIdempotencyKey (key : String)
  | selectAll (type project : Option String) (limit offset : Option Int)
  | search (query : String) (project : Option String) (limit : Option Int)
  | selectByTimestampRange (start stop : Int) (project : Option String)
  | upsertTopicKey (observation : Observation) (key : String) (project : Option String)
  | mergeProjects (canonical : String) (sources : List String)
  | countOlderThan (cutoff : Int)
  | deleteOlderThan (cutoff : Int)
  | uuid4
  | timeMs

def MemoryCall.Value : MemoryCall → Type
  | .insert _ => Unit
  | .update _ | .delete _ => Bool
  | .selectById _ | .selectByTopicKey .. | .selectByIdempotencyKey _ => Option ObservationRow
  | .selectAll .. | .search .. | .selectByTimestampRange .. => List ObservationRow
  | .upsertTopicKey .. => Observation
  | .mergeProjects .. | .countOlderThan _ | .deleteOlderThan _ => Nat × Nat
  | .uuid4 => String
  | .timeMs => Nat

def memorySignature : Signature := ⟨MemoryCall, MemoryCall.Value⟩

namespace MemoryStore

/-- `LIMIT ? OFFSET ?`; a negative limit is none. -/
def page (limit offset : Option Int) (rows : List ObservationRow) : List ObservationRow :=
  let rest := rows.drop (offset.getD 0).toNat
  match limit with
  | some n => if 0 ≤ n then rest.take n.toNat else rest
  | none => rest

/-- `column = ?`, where the filter is given. -/
def matchesFilter (filter column : Option String) : Bool := filter.all fun value => column == some value

/-- The rows in the order of a listing. -/
def Listing (rows answer : List ObservationRow) : Prop := Ordered (·.timestamp) rows answer

/-- A write that an index may refuse. -/
def Write {β : Type} (s : MemoryStore) (written : Option ObservationTable) (value : β)
    (r : Except Exn β) (s' : MemoryStore) : Prop :=
  match written with
  | some t => r = .ok value ∧ s' = { s with observations := t }
  | none => (∃ m, r = .error (.integrityError m)) ∧ s' = s

/-- What an upsert makes of the row it picked; a row that cannot be read is rolled back. -/
def Upsert (s : MemoryStore) (o : Observation) (key : String) (project : Option String)
    (row : Option ObservationRow) (r : Except Exn Observation) (s' : MemoryStore) : Prop :=
  match row with
  | none =>
    r = .error (.repositoryError
      ("No observation found for topic_key=" ++ o.val.topicKey.getD "None")) ∧ s' = s
  | some row =>
    let revised := ObservationTable.revise o.val key project row
    match s.observations.update revised with
    | none => (∃ m, r = .error (.integrityError m)) ∧ s' = s
    | some t =>
      match rowToObservation revised with
      | .ok result => r = .ok result ∧ s' = { s with observations := t }
      | .error e => r = .error e ∧ s' = s

/-- What a call answers and does when the database serves it. Which rows match a full-text query
and how many the full-text index counts is left open, as are the fresh ids and the time. -/
def serve : Semantics memorySignature Exn MemoryStore
  | ⟨.insert row, r⟩, s, s' => Write s (s.observations.insert row) () r s'
  | ⟨.update row, r⟩, s, s' =>
    if s.observations.contains row.id then Write s (s.observations.update row) true r s'
    else r = .ok false ∧ s' = s
  | ⟨.delete id, r⟩, s, s' =>
    r = .ok (s.observations.contains id) ∧ s' = { s with observations := s.observations.delete id }
  | ⟨.selectById id, r⟩, s, s' => s' = s ∧ r = .ok (s.observations.rows.find? fun row => row.id == id)
  | ⟨.selectByTopicKey key project, r⟩, s, s' =>
    s' = s ∧ ∃ row, s.observations.Finds key project row ∧ r = .ok row
  | ⟨.selectByIdempotencyKey key, r⟩, s, s' =>
    s' = s ∧ r = .ok (s.observations.rows.find? fun row => row.idempotencyKey == some key)
  | ⟨.selectAll type project limit offset, r⟩, s, s' =>
    s' = s ∧
      if offset.isSome ∧ limit = none then
        r = .error (.operationalError "near \"OFFSET\": syntax error")
      else ∃ rows, Listing (s.observations.rows.filter fun row =>
        matchesFilter type row.type && matchesFilter project row.project) rows ∧
          r = .ok (page limit offset rows)
  | ⟨.search _ project limit, r⟩, s, s' =>
    s' = s ∧ ∃ (hit : ObservationRow → Bool) (rows : List ObservationRow),
      Listing (s.observations.rows.filter fun row => hit row && matchesFilter project row.project) rows ∧
        r = .ok (page limit none rows)
  | ⟨.selectByTimestampRange start stop project, r⟩, s, s' =>
    s' = s ∧ ∃ rows, Listing (s.observations.rows.filter fun row =>
      decide (start ≤ row.timestamp ∧ row.timestamp ≤ stop) && matchesFilter project row.project) rows ∧
        r = .ok rows
  | ⟨.upsertTopicKey o key project, r⟩, s, s' =>
    ∃ row, s.observations.Picks key project row ∧ Upsert s o key project row r s'
  | ⟨.mergeProjects canonical sources, r⟩, s, s' =>
    match s.observations.moveProjects (some canonical) sources with
    | none => (∃ m, r = .error (.integrityError m)) ∧ s' = s
    | some (observationsUpdated, t) =>
      let moved := moveSessions canonical sources s.sessions
      r = .ok (observationsUpdated, moved.1) ∧ s' = { observations := t, sessions := moved.2 }
  | ⟨.countOlderThan cutoff, r⟩, s, s' =>
    s' = s ∧ ∃ indexed, r = .ok (s.observations.rows.countP (fun row => row.timestamp < cutoff), indexed)
  | ⟨.deleteOlderThan cutoff, r⟩, s, s' =>
    s' = { s with observations := s.observations.deleteOlder cutoff } ∧
      ∃ indexed, r = .ok (s.observations.rows.countP (fun row => row.timestamp < cutoff), indexed)
  | ⟨.uuid4, r⟩, s, s' => s' = s ∧ ∃ id : String, id ≠ "" ∧ r = .ok id
  | ⟨.timeMs, r⟩, s, s' => s' = s ∧ ∃ now, r = .ok now

/-- Any call may instead fail in the database, which then rolls back. -/
def step : Semantics memorySignature Exn MemoryStore := fun a s s' =>
  serve a s s' ∨ s' = s ∧ ∃ m, a.answer = .error (.operationalError m)

end MemoryStore

/-- The calls of the repository: on its own tables and on the sync journal. -/
def storeSignature : Signature := memorySignature.sum syncSignature

abbrev MemoryProgram := Program storeSignature Exn

abbrev Store := MemoryStore × SyncStore

namespace Store

/-- Both databases, each with its own semantics. -/
def both (memory : Semantics memorySignature Exn MemoryStore)
    (sync : Semantics syncSignature Exn SyncStore) : Semantics storeSignature Exn Store :=
  Semantics.sum memory sync

def serve : Semantics storeSignature Exn Store := both MemoryStore.serve SyncStore.serve

def step : Semantics storeSignature Exn Store := both MemoryStore.step SyncStore.step

end Store

section Calls

def memoryCall (c : MemoryCall) : MemoryProgram c.Value := .perform (σ := storeSignature) (.inl c)

def syncCall (c : SyncCall) : MemoryProgram c.Value := .perform (σ := storeSignature) (.inr c)

/-- Raise another error in the place of the one that was raised. -/
def raising {α : Type} (f : Exn → Exn) (p : MemoryProgram α) : MemoryProgram α :=
  p.handle fun e => throw (f e)

/-- `except sqlite3.Error as e: raise RepositoryError(f"{context}: {e}")`. -/
def sqliteErrorAs (context : String) : Exn → Exn
  | .integrityError m | .operationalError m => .repositoryError (context ++ ": " ++ m)
  | e => e

end Calls

/-- The fields of the repository: whether it records mutations, that is whether it was given a sync
repository and recording is enabled, and `str.lower`. -/
structure ObservationRepository where
  lower : String → String
  recording : Bool := true

namespace ObservationRepository

variable (repo : ObservationRepository)

/-- `_record_mutation`. -/
def recordMutation (op : MutationOp) (entityKey : String) (project : Option String)
    (payload : JsonObject) : MemoryProgram Unit :=
  if repo.recording then
    (syncCall (.recordMutation entityKey op payload (project.getD "")) >>= fun _ => return ()).handle
      fun _ => return ()
  else return ()

/-- The payload that is recorded of an observation. -/
def payload (id : String) (o : ObservationFields) : JsonObject :=
  [("id", .str id), ("content", .str o.content), ("metadata", (o.metadata.map .obj).getD .null),
    ("type", .ofText o.type), ("topic_key", .ofText o.topicKey)]

/-- The columns of an observation. -/
def row (o : ObservationFields) : ObservationRow where
  id := o.id
  timestamp := o.timestamp
  content := o.content
  title := o.title
  metadata := o.metadata
  idempotencyKey := o.idempotencyKey
  topicKey := o.topicKey
  project := normalizeProject repo.lower o.project
  type := o.type
  revisionCount := o.revisionCount
  sessionId := o.sessionId

def alreadyExists (id : String) : Exn := .repositoryError s!"Observation with id '{id}' already exists"

/-- Every refusal by an index is reported as a duplicate id. -/
def insertError (id : String) : Exn → Exn
  | .integrityError _ => alreadyExists id
  | e => sqliteErrorAs "Failed to create observation" e

def create (o : Observation) : MemoryProgram Unit := do
  raising (insertError o.val.id) (memoryCall (.insert (repo.row o.val)))
  repo.recordMutation .insert o.val.id o.val.project (payload o.val.id o.val)

/-- The observation that a fetched row, if there is one, is read as. -/
def readRow (row : Option ObservationRow) : MemoryProgram (Option Observation) :=
  .ofExcept (row.mapM rowToObservation)

def getByIdempotencyKey (idempotencyKey : String) : MemoryProgram (Option Observation) := do
  let row ← raising (sqliteErrorAs "Failed to get observation by idempotency_key")
    (memoryCall (.selectByIdempotencyKey idempotencyKey))
  readRow row

/-- The observation that an event is. -/
def event (content : String) (metadata : JsonObject) (idempotencyKey : String) (now : Nat)
    (id : String) : ObservationFields where
  id := id
  timestamp := now
  content := content
  metadata := some metadata
  idempotencyKey := some idempotencyKey

def saveNew (content : String) (metadata : JsonObject) (idempotencyKey : String) :
    MemoryProgram String := do
  let now ← memoryCall .timeMs
  let id ← memoryCall .uuid4
  let observation ← .ofExcept (construct ObservationFields.postInit (event content metadata idempotencyKey now id))
  repo.create observation
  return id

def saveEvent (content : String) (metadata : JsonObject) (idempotencyKey : String) :
    MemoryProgram String := do
  let existing ← getByIdempotencyKey idempotencyKey
  match existing with
  | some existing => return existing.val.id
  | none => repo.saveNew content metadata idempotencyKey

def notFound (id : String) : Exn := .observationNotFoundError s!"Observation '{id}' not found"

def update (o : Observation) : MemoryProgram Unit := do
  let found : Bool ← raising (sqliteErrorAs "Failed to update observation") (memoryCall (.update (repo.row o.val)))
  if found then
    repo.recordMutation .update o.val.id o.val.project (payload o.val.id o.val)
  else throw (notFound o.val.id)

def delete (observationId : String) : MemoryProgram Unit := do
  let found : Bool ← raising (sqliteErrorAs "Failed to delete observation") (memoryCall (.delete observationId))
  if found then
    repo.recordMutation .delete observationId none [("id", .str observationId)]
  else throw (notFound observationId)

def upsertTopicKey (o : Observation) : MemoryProgram Observation :=
  match o.val.topicKey with
  | none => throw (.repositoryError "topic_key is required for upsert")
  | some topicKey =>
    let normalizedKey := normalizeTopicKey repo.lower topicKey
    if normalizedKey = "" then throw (.repositoryError "topic_key cannot be empty for upsert")
    else do
      let result ← raising (sqliteErrorAs "Failed to upsert topic_key") (memoryCall
        (.upsertTopicKey o normalizedKey (normalizeProject repo.lower o.val.project)))
      repo.recordMutation .update topicKey o.val.project (payload result.val.id o.val)
      return result

def getByTopicKey (topicKey : String) (project : Option String) : MemoryProgram (Option Observation) := do
  let row ← raising (sqliteErrorAs "Failed to get observation by topic_key") (memoryCall
    (.selectByTopicKey (normalizeTopicKey repo.lower topicKey) (project.filter (· ≠ ""))))
  readRow row

def getById (observationId : String) : MemoryProgram Observation := do
  let row ← raising (sqliteErrorAs "Failed to get observation") (memoryCall (.selectById observationId))
  match row with
  | none => throw (notFound observationId)
  | some row => .ofExcept (rowToObservation row)

/-- A project filter counts when the normalised name is not empty. -/
def projectFilter (project : Option String) : Option String :=
  (normalizeProject repo.lower project).filter (· ≠ "")

def readRows (context : String) (call : MemoryProgram (List ObservationRow)) :
    MemoryProgram (List Observation) := do
  let rows ← raising (sqliteErrorAs context) call
  .ofExcept (rows.mapM rowToObservation)

def getAll (limit offset : Option Int) (type project : Option String) :
    MemoryProgram (List Observation) :=
  readRows "Failed to get observations"
    (memoryCall (.selectAll type (repo.projectFilter project) limit offset))

/-- The characters that `_sanitize_fts_query` blanks out. -/
def ftsSyntax : List Char := "*^\"'()-/\\:.\x7b\x7d[]~!<>+=@,;".toList

def ftsReserved : List String := ["AND", "OR", "NOT", "NEAR", "COLUMN"]

/-- `text.split()`. -/
def splitWords : List Char → List Char → List String
  | [], word => if word = [] then [] else [String.ofList word.reverse]
  | c :: cs, word =>
    if isSpace c then
      if word = [] then splitWords cs [] else String.ofList word.reverse :: splitWords cs []
    else splitWords cs (c :: word)

/-- Only ASCII letters have an upper case that spells a reserved word. -/
def sanitizeFtsQuery (query : String) : String :=
  let words := splitWords (query.toList.map fun c => if c ∈ ftsSyntax then ' ' else c) []
  " ".intercalate ((words.filter fun w =>
    String.ofList (w.toList.map Char.toUpper) ∉ ftsReserved).map (· ++ "*"))

def search (query : String) (limit : Option Int) (project : Option String) :
    MemoryProgram (List Observation) :=
  if sanitizeFtsQuery query = "" then return []
  else readRows "Failed to search observations"
    (memoryCall (.search (sanitizeFtsQuery query) (repo.projectFilter project) limit))

def getByTimestampRange (start stop : Int) (project : Option String) :
    MemoryProgram (List Observation) :=
  readRows "Failed to get observations by range"
    (memoryCall (.selectByTimestampRange start stop (repo.projectFilter project)))

structure MergeStats where
  canonical : String
  sourcesMerged : List String
  observationsUpdated : Nat
  sessionsUpdated : Nat
  deriving DecidableEq, Repr

def mergeProjects (canonical : String) (sources : List String) : MemoryProgram MergeStats := do
  let (observationsUpdated, sessionsUpdated) ← raising (sqliteErrorAs "Failed to merge projects") (memoryCall
    (.mergeProjects (normalizeProjectName repo.lower canonical)
      (sources.map (normalizeProjectName repo.lower))))
  return { canonical, sourcesMerged := sources, observationsUpdated, sessionsUpdated }

end ObservationRepository

end ForkAgent.Memory

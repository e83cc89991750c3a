import ForkAgent.Memory.Repository

/-!
# Memory service

Saving, updating and merging observations. A save with a topic key looks for an observation under
that key first: one that is found is revised, otherwise a new one is created.
-/

namespace ForkAgent.Memory

open Effects

/-- The fields of the service, with the redaction of private content and metadata. -/
structure MemoryService where
  repository : ObservationRepository
  redactObservationData : String → Option JsonObject → String × Option JsonObject

/-- The arguments of `save`. -/
structure SaveArgs where
  content : String
  metadata : Option JsonObject := none
  topicKey : Option String := none
  project : Option String := none
  type : Option String := none
  title : Option String := none

/-- The arguments of `update`; what is not given keeps its value. -/
structure UpdateArgs where
  content : Option String := none
  metadata : Option JsonObject := none
  type : Option String := none
  topicKey : Option String := none
  project : Option String := none
  title : Option String := none

namespace MemoryService

variable (svc : MemoryService)

/-- The observation that a save makes. -/
def saved (args : SaveArgs) (id : String) (now : Nat) : ObservationFields where
  id := id
  timestamp := now
  content := (svc.redactObservationData args.content args.metadata).1
  title := args.title
  metadata := (svc.redactObservationData args.content args.metadata).2
  topicKey := args.topicKey
  project := args.project
  type := args.type

/-- The observation under the topic key, if the key is not empty. -/
def existingForTopic (args : SaveArgs) : MemoryProgram (Option Observation) :=
  match args.topicKey.filter (· ≠ "") with
  | none => return none
  | some topicKey => svc.repository.getByTopicKey topicKey args.project

def save (args : SaveArgs) : MemoryProgram Observation := do
  let existing ← svc.existingForTopic args
  let id ← memoryCall .uuid4
  let now ← memoryCall .timeMs
  let observation ← .ofExcept (construct ObservationFields.postInit (svc.saved args id now))
  match existing with
  | some _ => svc.repository.upsertTopicKey observation
  | none =>
    svc.repository.create observation
    return observation

/-- The observation that an update makes of the one that is there. -/
def updated (args : UpdateArgs) (existing : ObservationFields) : ObservationFields :=
  let redacted := svc.redactObservationData (args.content.getD "") args.metadata
  { existing with
    revisionCount := existing.revisionCount + 1
    content := if args.content.isSome then redacted.1 else existing.content
    metadata := if args.metadata.isSome then redacted.2 else existing.metadata
    type := args.type.or existing.type
    topicKey := args.topicKey.or existing.topicKey
    project := args.project.or existing.project
    title := args.title.or existing.title }

def update (observationId : String) (args : UpdateArgs) : MemoryProgram Observation := do
  let existing ← ObservationRepository.getById observationId
  let observation ← .ofExcept (construct ObservationFields.postInit (svc.updated args existing.val))
  svc.repository.update observation
  return observation

/-- `text.split(",")`. -/
def splitCommas : List Char → List Char → List String
  | [], part => [String.ofList part.reverse]
  | c :: cs, part =>
    if c = ',' then String.ofList part.reverse :: splitCommas cs [] else splitCommas cs (c :: part)

def mergeProjects (fromProjects toProject : String) :
    MemoryProgram ObservationRepository.MergeStats :=
  let normalize := normalizeProjectName svc.repository.lower
  let canonical := normalize toProject
  let sources := ((splitCommas fromProjects.toList []).map normalize).filter fun src =>
    src ≠ "" ∧ src ≠ canonical
  if canonical = "" then
    return { canonical := "", sourcesMerged := [], observationsUpdated := 0, sessionsUpdated := 0 }
  else if sources = [] then
    return { canonical, sourcesMerged := [], observationsUpdated := 0, sessionsUpdated := 0 }
  else svc.repository.mergeProjects canonical sources

end MemoryService

/-- The counts of the rows that a cleanup deletes, or would delete. -/
structure CleanupResult where
  deletedCount : Nat
  ftsDeletedCount : Nat
  deriving DecidableEq, Repr

namespace CleanupService

/-- `except sqlite3.Error as e: raise RuntimeError(f"{context}: {e}")`. -/
def sqliteErrorAs (context : String) : Exn → Exn
  | .integrityError m | .operationalError m => .runtimeError (context ++ ": " ++ m)
  | e => e

def cutoffTimestamp (now : Nat) (days : Int) : Int := now - days * 86400 * 1000

def countOldObservations (cutoff : Int) : MemoryProgram CleanupResult := do
  let counts : Nat × Nat ← raising (sqliteErrorAs "Failed to count old observations")
    (memoryCall (.countOlderThan cutoff))
  return { deletedCount := counts.1, ftsDeletedCount := counts.2 }

def deleteOldObservations (cutoff : Int) : MemoryProgram CleanupResult := do
  let counts : Nat × Nat ← raising (sqliteErrorAs "Failed to delete old observations")
    (memoryCall (.deleteOlderThan cutoff))
  return { deletedCount := counts.1, ftsDeletedCount := counts.2 }

def cleanupOldObservations (days : Int) (dryRun : Bool) : MemoryProgram CleanupResult :=
  if days ≤ 0 then throw (.valueError s!"days must be positive, got {days}")
  else do
    let now ← memoryCall .timeMs
    if dryRun then countOldObservations (cutoffTimestamp now days)
    else deleteOldObservations (cutoffTimestamp now days)

end CleanupService

end ForkAgent.Memory

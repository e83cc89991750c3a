import ForkAgent.Sync.Disk
import Mathlib.Data.Char
import Mathlib.Data.List.Infix
import Mathlib.Data.List.Lex

/-!
# Sync service

Exports to chunks, of observations or of the journal itself, and the imports that read them back.
Every chunk of an export is hashed into its manifest.
-/

namespace ForkAgent.Sync

open Effects Memory

structure SyncService where
  self : Nat
  repository : ObservationRepository
  sha256 : List UInt8 → String
  exportVersion : Int := 1

section Text

/-- `text.startswith(start)`. -/
def startsWith (text start : String) : Bool := start.toList.isPrefixOf text.toList

/-- `part in text.lower()`, for a part in small ASCII letters. -/
def lowerContains (part text : String) : Bool := part.toList <:+: text.toList.map Char.toLower

/-- `f"{index:03d}"`. -/
def pad3 (index : Nat) : List Char := List.leftpad 3 '0' (Nat.toDigits 10 index)

/-- The id of a chunk, of the kind `sync` or `mutation`. -/
def chunkId (kind : String) (timestamp index : Nat) : String :=
  s!"{kind}_{timestamp}_" ++ String.ofList (pad3 index)

def chunkFile (chunkId : String) : String := chunkId ++ ".jsonl.gz"

def manifestName (timestamp : Nat) : String := s!"manifest_{timestamp}.json"

/-- `sorted(paths)`, of the chunks of one directory. -/
def sortedChunks (chunkIds : List String) : List String :=
  chunkIds.insertionSort fun a b => (chunkFile a).toList ≤ (chunkFile b).toList

end Text

section Lines

/-- The slices of `n` items, the last one shorter. -/
def slices {α : Type} (n : Nat) (items : List α) : List (List α) :=
  (List.range ((items.length + n - 1) / n)).map fun i => (items.drop (i * n)).take n

def observationLine (o : ObservationFields) : JsonObject :=
  [("id", .str o.id), ("timestamp", .int o.timestamp), ("content", .str o.content),
    ("metadata", (o.metadata.map .obj).getD .null), ("idempotency_key", .ofText o.idempotencyKey),
    ("project", .ofText o.project), ("type", .ofText o.type), ("topic_key", .ofText o.topicKey),
    ("revision_count", .int o.revisionCount), ("session_id", .ofText o.sessionId)]

def mutationLine (m : SyncMutationFields) : JsonObject :=
  [("seq", .int m.seq), ("entity", .str m.entity), ("entity_key", .str m.entityKey),
    ("op", .str m.op.value), ("payload", .obj m.payload), ("source", .str m.source),
    ("project", .str m.project), ("created_at", .int m.createdAt)]

/-- The arguments that a reader takes from an object. -/
def observationArgs (fields : JsonObject) (id timestamp content type : Json) : ObservationArgs where
  id
  timestamp
  content
  metadata := fields.get "metadata"
  idempotencyKey := fields.get "idempotency_key"
  project := fields.get "project"
  type
  topicKey := fields.get "topic_key"
  revisionCount := fields.getD "revision_count" (.int 1)
  sessionId := match fields.get "session_id" with
    | .str sessionId => some sessionId
    | _ => none

/-- A type that is not allowed is dropped; what cannot be hashed cannot be looked up. -/
def checkedType (type : Json) : Except Exn Json :=
  match type with
  | .str name => .ok (if name ∈ allowedTypes then type else .null)
  | .arr _ | .obj _ => .error (.typeError s!"unhashable type: '{type.typeName}'")
  | _ => .ok .null

end Lines

section Calls

def sync (c : SyncCall) : SyncProgram c.Value := onStore (syncCall c)

def timeMs : SyncProgram Nat := onStore (memoryCall .timeMs)

/-- Write the chunks of one export, from the given index on. -/
def writeChunks (kind : String) (timestamp : Nat) : Nat → List (List JsonObject) → SyncProgram (List String)
  | _, [] => return []
  | index, lines :: rest => do
    diskCall (.writeChunk (chunkId kind timestamp index) lines)
    let chunkIds ← writeChunks kind timestamp (index + 1) rest
    return chunkId kind timestamp index :: chunkIds

def readChunks : List String → SyncProgram (List UInt8)
  | [] => return []
  | chunkId :: rest => do
    let bytes : List UInt8 ← diskCall (.readBytes chunkId)
    let more ← readChunks rest
    return bytes ++ more

/-- The bytes of a chunk, if it exists. -/
def readExistingChunk (chunkId : String) : SyncProgram (List UInt8) := do
  let found : Bool ← diskCall (.chunkExists chunkId)
  if found then diskCall (.readBytes chunkId) else return []

def readExistingChunks : List String → SyncProgram (List UInt8)
  | [] => return []
  | chunkId :: rest => do
    let bytes ← readExistingChunk chunkId
    let more ← readExistingChunks rest
    return bytes ++ more

end Calls

namespace SyncService

variable (svc : SyncService)

section Manifest

def checksum (bytes : List UInt8) : String := "sha256:" ++ svc.sha256 bytes

def manifest (chunkCount total timestamp : Nat) (bytes : List UInt8) : JsonObject :=
  [("chunk_count", .int chunkCount), ("total_observations", .int total),
    ("checksum", .str (svc.checksum bytes)), ("created_at", .int timestamp),
    ("export_version", .int svc.exportVersion)]

def writeManifest (chunkIds : List String) (total timestamp : Nat) : SyncProgram Unit := do
  let bytes ← readChunks chunkIds
  diskCall (.writeManifest (manifestName timestamp) (svc.manifest chunkIds.length total timestamp bytes))

def invalidManifest : Exn → Exn
  | .jsonDecodeError m => .valueError ("Invalid manifest file: " ++ m)
  | e => if e.isOSError then .valueError ("Invalid manifest file: " ++ e.message) else e

def checkChecksum (chunkIds : List String) (expected : String) : SyncProgram Bool := do
  let bytes ← readExistingChunks (sortedChunks chunkIds)
  if svc.checksum bytes = expected then return true
  else throw (.valueError
    s!"Manifest checksum mismatch: expected {expected}, got {svc.checksum bytes}")

/-- `_validate_manifest`, once the manifest is read. A manifest without a checksum is an old one. -/
def checkManifest (chunkIds : List String) : Json → SyncProgram Bool
  | .obj manifest =>
    match JsonObject.getD manifest "checksum" (.str "") with
    | .str expected =>
      if startsWith expected "sha256:" then svc.checkChecksum chunkIds expected else return true
    | value =>
      if value.truthy then
        throw (.attributeError s!"'{value.typeName}' object has no attribute 'startswith'")
      else return true
  | value => throw (.attributeError s!"'{value.typeName}' object has no attribute 'get'")

def validateManifest (chunkIds : List String) (manifestPath : Option String) : SyncProgram Bool :=
  match manifestPath with
  | none => return true
  | some name => do
    let found : Bool ← diskCall (.manifestExists name)
    if found then do
      let manifest ← (diskCall (.loadManifest name)).handle fun e => throw (invalidManifest e)
      svc.checkManifest chunkIds manifest
    else return true

end Manifest

section ExportObservations

/-- `obs_data`, in the order of its keys. -/
abbrev ObsData := List (String × JsonObject)

def ObsData.set (key : String) (payload : JsonObject) : ObsData → ObsData
  | [] => [(key, payload)]
  | entry :: rest => if entry.1 = key then (key, payload) :: rest else entry :: ObsData.set key payload rest

def ObsData.pop (key : String) (data : ObsData) : ObsData := data.filter fun entry => entry.1 ≠ key

/-- Whether a filter by project leaves a mutation out. -/
def filteredOut (project : Option String) (m : SyncMutationFields) : Bool :=
  truthy project && some m.project != project

def replayMutation (project : Option String) (data : ObsData) (m : SyncMutationFields) : ObsData :=
  if filteredOut project m then data
  else match m.op with
    | .delete => data.pop m.entityKey
    | .insert | .update => data.set m.entityKey m.payload

def maxSeq (since : Nat) (mutations : List SyncMutationFields) : Nat :=
  (mutations.map (·.seq)).foldl max since

/-- The observation that a payload is read as; it is left out where a type is wrong. -/
def reconstructObservation (entry : String × JsonObject) : Except Exn (Option Observation) :=
  let payload := entry.2
  let read : Except Exn Observation := do
    let type ← checkedType (payload.get "type")
    observation (observationArgs payload (payload.getD "id" (.str entry.1))
      (payload.getD "timestamp" (.int 0)) (payload.getD "content" (.str "")) type)
  match read with
  | .ok o => .ok (some o)
  | .error (.typeError _) | .error (.keyError _) => .ok none
  | .error e => .error e

def reconstructFromMutations (sinceSeq : Nat) (project : Option String) :
    SyncProgram (List Observation × Nat) := do
  let mutations ← sync (.getMutationsSince sinceSeq)
  let fields := mutations.map (·.val)
  let data := fields.foldl (replayMutation project) []
  let observations ← .ofExcept (data.mapM reconstructObservation)
  return (observations.filterMap id, maxSeq sinceSeq fields)

/-- What there is to export, and the sequence number that it reaches, if the journal was read. -/
def changedObservations (project : Option String) (lastExportSeq : Nat) :
    SyncProgram (List Observation × Option Nat) :=
  if 0 < lastExportSeq then do
    let (observations, exportMaxSeq) ← reconstructFromMutations lastExportSeq project
    return (observations, some exportMaxSeq)
  else do
    let observations ← onStore (svc.repository.getAll none none none none)
    return (if truthy project then observations.filter fun o => o.val.project == project
      else observations, none)

def byTimestamp (observations : List Observation) : List Observation :=
  observations.insertionSort fun a b => a.val.timestamp ≤ b.val.timestamp

/-- The sequence number that the watermark is set to. -/
def watermarkSeq : Option Nat → SyncProgram Nat
  | some exportMaxSeq => return exportMaxSeq
  | none => sync .getLatestSeq

def writeObservations (chunkSize : Nat) (observations : List Observation) (exportMaxSeq : Option Nat) :
    SyncProgram (List String) :=
  if chunkSize = 0 then throw (.other "integer division or modulo by zero")
  else do
    let timestamp ← timeMs
    let chunkIds ← writeChunks "sync" timestamp 0
      (slices chunkSize ((byTimestamp observations).map fun o => observationLine o.val))
    svc.writeManifest chunkIds observations.length timestamp
    let seq ← watermarkSeq exportMaxSeq
    sync (.updateStatus (some (timestamp : Int)) none (some seq))
    return chunkIds

def exportObservations (project : Option String) (chunkSize : Nat) : SyncProgram (List String) := do
  let status ← sync .getStatus
  let (observations, exportMaxSeq) ← svc.changedObservations project status.lastExportSeq
  if observations = [] then return []
  else svc.writeObservations chunkSize observations exportMaxSeq

end ExportObservations

section ExportIncremental

def setLastExport (last : LastExport) : SyncProgram Unit := diskCall (.setLastExport svc.self last)

/-- Set the watermark at once, unless the caller is to do so later. -/
def commitExport (commitWatermark : Bool) (seq timestamp : Nat) : SyncProgram Unit :=
  if commitWatermark then sync (.updateStatus (some (timestamp : Int)) none (some seq)) else return ()

def exportMutations (chunkSize : Nat) (commitWatermark : Bool) (since : Nat)
    (mutations : List SyncMutationFields) : SyncProgram (List String) := do
  let timestamp ← timeMs
  if chunkSize = 0 then throw (.valueError "range() arg 3 must not be zero")
  else do
    let batches := slices chunkSize mutations
    let chunkIds ← writeChunks "mutation" timestamp 0 (batches.map (·.map mutationLine))
    svc.writeManifest chunkIds mutations.length timestamp
    let seq := batches.foldl (fun _ batch => maxSeq 0 batch) since
    svc.setLastExport ⟨seq, timestamp⟩
    commitExport commitWatermark seq timestamp
    return chunkIds

/-- Export what the journal holds past the watermark, if there is anything. -/
def exportPending (chunkSize : Nat) (commitWatermark : Bool) (since : Nat)
    (mutations : List SyncMutation) : SyncProgram (List String) :=
  if mutations = [] then do
    let last ← diskCall (.getLastExport svc.self)
    svc.setLastExport { last with maxSeq := 0 }
    return []
  else svc.exportMutations chunkSize commitWatermark since (mutations.map (·.val))

def exportIncremental (chunkSize : Nat) (commitWatermark : Bool) : SyncProgram (List String) := do
  let status ← sync .getStatus
  let mutations ← sync (.getMutationsSince status.lastExportSeq)
  svc.exportPending chunkSize commitWatermark status.lastExportSeq mutations

/-- The time of the last export, or else the time now. -/
def exportTimestamp (last : LastExport) : SyncProgram Nat :=
  if last.timestamp = 0 then timeMs else return last.timestamp

/-- Store what the last export reached; an export that found nothing reached nothing. -/
def commitLast (last : LastExport) : SyncProgram Unit :=
  if last.maxSeq = 0 then return ()
  else do
    let timestamp ← exportTimestamp last
    sync (.updateStatus (some (timestamp : Int)) none (some last.maxSeq))

def commitExportWatermark : SyncProgram Unit := do
  let last ← diskCall (.getLastExport svc.self)
  commitLast last

end ExportIncremental

section Import

/-- The repository while an import has recording disabled. -/
def silent : ObservationRepository := { svc.repository with recording := false }

/-- Record that a chunk was imported; its checksum needs its bytes. -/
def recordChunk (chunkId source : String) (timestamp count : Nat) : SyncProgram Unit := do
  let _ ← diskCall (.readBytes chunkId)
  let chunk ← .ofExcept (construct SyncChunkFields.postInit
    { chunkId, source, importedAt := timestamp, observationCount := count })
  sync (.recordChunk chunk)

/-- The lines of a chunk, or `none` where it cannot be opened. -/
def openChunk (chunkId : String) : SyncProgram (Option Reading) :=
  (diskCall (.openChunk chunkId) >>= fun reading => return some reading).handle fun e =>
    if e.isOSError then return none else throw e

/-- The end of the lines of a chunk. -/
def endOfLines {α : Type} (reading : Reading) (value : α) : SyncProgram α :=
  match reading.failure with
  | some e => throw e
  | none => return value

/-- Errors that a loop over lines passes over. -/
def isParseError : Exn → Bool
  | .jsonDecodeError _ | .keyError _ => true
  | _ => false

/-- `uuid.UUID(obs_id)`, of which an id of another form is let through; only of `null` it raises a `TypeError`. -/
def checkId : Json → Except Exn Unit
  | .null => .error (.typeError "one of the hex, bytes, bytes_le, fields, or int arguments must be given")
  | _ => .ok ()

def readFields (fields : JsonObject) : Except Exn Observation := do
  checkId (fields.getD "id" (.str ""))
  let type ← checkedType (fields.get "type")
  let timestamp ← fields.item "timestamp"
  let content ← fields.item "content"
  observation (observationArgs fields (fields.getD "id" (.str "")) timestamp content type)

/-- The observation on a line. -/
def readLine : Json → Except Exn Observation
  | .obj fields => readFields fields
  | value => throw (.attributeError s!"'{value.typeName}' object has no attribute 'get'")

/-- Create the observation; a refusal because it exists already is passed over. -/
def createLine (o : Observation) : SyncProgram Nat :=
  (onStore (svc.silent.create o) >>= fun _ => return 1).handle fun e =>
    match e with
    | .repositoryError m => if lowerContains "already exists" m then return 0 else throw e
    | _ => throw e

def importLine (line : Json) : SyncProgram Nat := do
  let o ← .ofExcept (readLine line)
  svc.createLine o

def tryLine : Line → SyncProgram Nat
  | none => return 0
  | some line => (svc.importLine line).handle fun e => if isParseError e then return 0 else throw e

def importLines : List Line → SyncProgram Nat
  | [] => return 0
  | line :: rest => do
    let imported ← svc.tryLine line
    let more ← importLines rest
    return imported + more

def importSingleChunk (chunkId : String) : SyncProgram Nat := do
  let opened ← openChunk chunkId
  match opened with
  | none => return 0
  | some reading => do
    let imported ← svc.importLines reading.lines
    endOfLines reading imported

def importChunk (source : String) (timestamp : Nat) (chunkId : String) : SyncProgram Nat := do
  let found : Bool ← diskCall (.chunkExists chunkId)
  if found then do
    let recorded ← sync (.getChunkById chunkId)
    if recorded.isSome then return 0
    else do
      let count ← svc.importSingleChunk chunkId
      recordChunk chunkId source timestamp count
      return count
  else return 0

def importChunks (source : String) (timestamp : Nat) : List String → SyncProgram Nat
  | [] => return 0
  | chunkId :: rest => do
    let count ← svc.importChunk source timestamp chunkId
    let more ← importChunks source timestamp rest
    return count + more

def importObservations (chunkIds : List String) (source : String) (manifestPath : Option String) :
    SyncProgram Nat := do
  let _ ← svc.validateManifest chunkIds manifestPath
  let timestamp ← timeMs
  let imported ← svc.importChunks source timestamp chunkIds
  if 0 < imported then do
    sync (.updateStatus none (some (timestamp : Int)) none)
    return imported
  else return imported

end Import

section ImportMutations

/-- The keys of the counts that `import_mutations` returns. -/
inductive Applied where
  | inserted
  | updated
  | deleted
  | skipped
  deriving DecidableEq, Repr

structure ImportCounts where
  inserted : Nat := 0
  updated : Nat := 0
  deleted : Nat := 0
  skipped : Nat := 0
  deriving DecidableEq, Repr

def ImportCounts.add (counts : ImportCounts) : Applied → ImportCounts
  | .inserted => { counts with inserted := counts.inserted + 1 }
  | .updated => { counts with updated := counts.updated + 1 }
  | .deleted => { counts with deleted := counts.deleted + 1 }
  | .skipped => { counts with skipped := counts.skipped + 1 }

/-- How a value is compared with a text column; an array or an object cannot be bound. -/
def sqlText : Json → Option String
  | .str text | .float text => some text
  | .int n => some (toString n)
  | .bool b => some (if b then "1" else "0")
  | .null | .arr _ | .obj _ => none

/-- Run an operation; whatever it raises, the mutation counts as skipped. -/
def orSkipped (p : MemoryProgram Unit) (applied : Applied) : SyncProgram Applied :=
  (onStore p >>= fun _ => return applied).handle fun _ => return .skipped

def applyDelete (payload : JsonObject) : SyncProgram Applied :=
  match sqlText (payload.get "id") with
  | some id => orSkipped (svc.silent.delete id) .deleted
  | none => return .skipped

def applyUpdate (o : Observation) : SyncProgram Applied :=
  (onStore (svc.silent.update o) >>= fun _ => return .updated).handle fun e =>
    if lowerContains "not found" e.message then orSkipped (svc.silent.create o) .inserted
    else return .skipped

/-- The observation that an insert or an update carries. -/
def readMutation (mutation payload : JsonObject) : Except Exn Observation := do
  let entityKey ← mutation.item "entity_key"
  observation (observationArgs payload (payload.getD "id" entityKey)
    (payload.getD "timestamp" (mutation.getD "created_at" (.int 0)))
    (payload.getD "content" (.str "")) (payload.get "type"))

/-- What a mutation does under its operation; an operation that is not known does nothing. -/
def applyOp (mutation : JsonObject) (op : Json) (payload : JsonObject) : SyncProgram Applied :=
  match op with
  | .str "delete" => svc.applyDelete payload
  | .str "insert" => do
    let o ← .ofExcept (readMutation mutation payload)
    orSkipped (svc.silent.create o) .inserted
  | .str "update" => do
    let o ← .ofExcept (readMutation mutation payload)
    svc.applyUpdate o
  | _ => return .skipped

def applyFields (mutation : JsonObject) : SyncProgram Applied := do
  let op ← .ofExcept (mutation.item "op")
  let payload ← .ofExcept (mutation.item "payload")
  match payload with
  | .obj payload => svc.applyOp mutation op payload
  | value =>
    match op with
    | .str "delete" | .str "insert" | .str "update" =>
      throw (.attributeError s!"'{value.typeName}' object has no attribute 'get'")
    | _ => return .skipped

def applyMutation : Json → SyncProgram Applied
  | .obj mutation => svc.applyFields mutation
  | value => throw (.typeError s!"'{value.typeName}' object is not subscriptable")

def applyLine : Line → SyncProgram Applied
  | none => return .skipped
  | some line => (svc.applyMutation line).handle fun e =>
      if isParseError e then return .skipped else throw e

/-- The counts after the lines, and how many of them were not skipped. -/
def applyLines (counts : ImportCounts) (count : Nat) : List Line → SyncProgram (ImportCounts × Nat)
  | [] => return (counts, count)
  | line :: rest => do
    let applied ← svc.applyLine line
    applyLines (counts.add applied) (if applied = .skipped then count else count + 1) rest

def importMutationChunk (source : String) (timestamp : Nat) (counts : ImportCounts)
    (chunkId : String) : SyncProgram ImportCounts := do
  let recorded ← sync (.getChunkById chunkId)
  if recorded.isSome then return counts
  else do
    let opened ← openChunk chunkId
    match opened with
    | none => return counts
    | some reading => do
      let applied ← svc.applyLines counts 0 reading.lines
      let (counts, count) ← endOfLines reading applied
      recordChunk chunkId source timestamp count
      return counts

def importMutationChunks (source : String) (timestamp : Nat) (counts : ImportCounts) :
    List String → SyncProgram ImportCounts
  | [] => return counts
  | chunkId :: rest => do
    let counts ← svc.importMutationChunk source timestamp counts chunkId
    importMutationChunks source timestamp counts rest

def importMutations (chunkIds : List String) (source : String) (manifestPath : Option String) :
    SyncProgram ImportCounts := do
  let _ ← svc.validateManifest chunkIds manifestPath
  let timestamp ← timeMs
  let counts ← svc.importMutationChunks source timestamp {} chunkIds
  sync (.updateStatus none (some (timestamp : Int)) none)
  return counts

end ImportMutations

end SyncService

end ForkAgent.Sync

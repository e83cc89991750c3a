import ForkAgent.Effects.Execution
import ForkAgent.Python.Json
import ForkAgent.Storage.Table

/-!
# Sync journal

The journal of mutations, the watermark of the last export and the chunks that were imported. The
payload of a mutation is JSON text; it is kept as the object that the text encodes.
-/

namespace ForkAgent.Sync

open Effects Storage

inductive MutationOp where
  | insert
  | update
  | delete
  deriving DecidableEq, Repr

def MutationOp.value : MutationOp → String
  | insert => "insert"
  | update => "update"
  | delete => "delete"

structure SyncMutationFields where
  seq : Nat
  entity : String
  entityKey : String
  op : MutationOp
  payload : JsonObject
  source : String := "local"
  project : String := ""
  createdAt : Int

def SyncMutationFields.postInit (f : SyncMutationFields) : Except Exn Unit := do
  require (f.entity ≠ "") (.valueError "entity cannot be empty")
  require (f.entityKey ≠ "") (.valueError "entity_key cannot be empty")
  require (f.source ≠ "") (.valueError "source cannot be empty")
  require (0 ≤ f.createdAt) (.valueError "created_at must be non-negative")

/-- One entry of the journal. -/
abbrev SyncMutation := Validated SyncMutationFields.postInit

structure SyncChunkFields where
  chunkId : String
  source : String
  importedAt : Int
  observationCount : Nat
  deriving DecidableEq, Repr

def SyncChunkFields.postInit (f : SyncChunkFields) : Except Exn Unit := do
  require (f.chunkId ≠ "") (.valueError "chunk_id cannot be empty")
  require (f.source ≠ "") (.valueError "source cannot be empty")
  require (0 ≤ f.importedAt) (.valueError "imported_at must be non-negative")

/-- A chunk that was imported. -/
abbrev SyncChunk := Validated SyncChunkFields.postInit

structure SyncStatus where
  lastExportAt : Option Int := none
  lastImportAt : Option Int := none
  lastExportSeq : Nat := 0
  mutationCount : Nat := 0
  deriving DecidableEq, Repr

/-- The tables `sync_mutations`, `sync_status` and `sync_chunks`, with the last sequence number that
was given out. -/
structure SyncStore where
  syncMutations : List SyncMutationFields := []
  sqliteSequence : Nat := 0
  syncStatus : SyncStatus := {}
  syncChunks : List SyncChunkFields := []

namespace SyncStore

def recordMutation (s : SyncStore) (entityKey : String) (op : MutationOp) (payload : JsonObject)
    (project : String) (createdAt : Int) : SyncStore :=
  { s with
    syncMutations := s.syncMutations ++
      [{ seq := s.sqliteSequence + 1, entity := "observation", entityKey, op, payload, project,
         createdAt }]
    sqliteSequence := s.sqliteSequence + 1
    syncStatus := { s.syncStatus with mutationCount := s.syncStatus.mutationCount + 1 } }

/-- `WHERE seq > ? ORDER BY seq`; the rows stand in the order of their sequence numbers. -/
def mutationsSince (s : SyncStore) (seq : Nat) : List SyncMutationFields :=
  s.syncMutations.filter fun m => seq < m.seq

/-- `SELECT COALESCE(MAX(seq), 0)`. -/
def latestSeq (s : SyncStore) : Nat := (s.syncMutations.map (·.seq)).foldl max 0

/-- `update_status`; what is not given keeps its value. -/
def updateStatus (s : SyncStore) (lastExportAt lastImportAt : Option Int)
    (lastExportSeq : Option Nat) : SyncStore :=
  { s with
    syncStatus := { s.syncStatus with
      lastExportAt := lastExportAt.or s.syncStatus.lastExportAt
      lastImportAt := lastImportAt.or s.syncStatus.lastImportAt
      lastExportSeq := lastExportSeq.getD s.syncStatus.lastExportSeq } }

def chunkKey (chunk : SyncChunkFields) : Option String := some chunk.chunkId

def recordChunk (s : SyncStore) (chunk : SyncChunkFields) : Except Exn SyncStore :=
  if conflicts chunkKey s.syncChunks chunk then
    .error (.repositoryError "Failed to record chunk: UNIQUE constraint failed: sync_chunks.chunk_id")
  else .ok { s with syncChunks := s.syncChunks ++ [chunk] }

end SyncStore

inductive SyncCall where
  | recordMutation (entityKey : String) (op : MutationOp) (payload : JsonObject) (project : String)
  | getMutationsSince (seq : Nat)
  | getLatestSeq
  | getStatus
  | updateStatus (lastExportAt lastImportAt : Option Int) (lastExportSeq : Option Nat)
  | recordChunk (chunk : SyncChunk)
  | getChunkById (chunkId : String)

def SyncCall.Value : SyncCall → Type
  | .recordMutation .. | .getLatestSeq => Nat
  | .getMutationsSince _ => List SyncMutation
  | .getStatus => SyncStatus
  | .updateStatus .. | .recordChunk _ => Unit
  | .getChunkById _ => Option SyncChunk

def syncSignature : Signature := ⟨SyncCall, SyncCall.Value⟩

namespace SyncStore

/-- What a call answers and does when the database serves it. The database's own clock stamps a
mutation. -/
def serve : Semantics syncSignature Exn SyncStore
  | ⟨.recordMutation entityKey op payload project, r⟩, s, s' =>
    r = .ok (s.sqliteSequence + 1) ∧ ∃ createdAt : Int, 0 ≤ createdAt ∧
      s' = s.recordMutation entityKey op payload project createdAt
  | ⟨.getMutationsSince seq, r⟩, s, s' => s' = s ∧ r = (s.mutationsSince seq).mapM (construct _)
  | ⟨.getLatestSeq, r⟩, s, s' => s' = s ∧ r = .ok s.latestSeq
  | ⟨.getStatus, r⟩, s, s' => s' = s ∧ r = .ok s.syncStatus
  | ⟨.updateStatus lastExportAt lastImportAt lastExportSeq, r⟩, s, s' =>
    r = .ok () ∧ s' = s.updateStatus lastExportAt lastImportAt lastExportSeq
  | ⟨.recordChunk chunk, r⟩, s, s' => Transaction (s.recordChunk chunk.val) s r s'
  | ⟨.getChunkById chunkId, r⟩, s, s' =>
    s' = s ∧ r = (s.syncChunks.find? fun chunk => chunk.chunkId == chunkId).mapM (construct _)

/-- Any call may instead fail in the database, which then rolls back. -/
def step : Semantics syncSignature Exn SyncStore := fun a s s' =>
  serve a s s' ∨ s' = s ∧ ∃ m, a.answer = .error (.repositoryError m)

end SyncStore

end ForkAgent.Sync

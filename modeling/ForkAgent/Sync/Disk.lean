import ForkAgent.Memory.Repository

/-!
# Sync directory

The chunk files and the manifests of an export directory, and what an export leaves on its service
object. A chunk is named by its id, which is the name of its file without `.jsonl.gz`.
-/

namespace ForkAgent.Sync

open Effects Storage Memory

/-- A line of a chunk: what `json.loads` makes of it, or `none` where it is not JSON. The text of a
mutation's payload is kept as the value it encodes. -/
abbrev Line := Option Json

/-- The lines that are not blank, and the bytes that they are compressed to. -/
structure ChunkFile where
  lines : List Line
  bytes : List UInt8

/-- What iterating over an opened chunk gives: lines, and the error that ends it early. -/
structure Reading where
  lines : List Line
  failure : Option Exn := none

/-- `_last_export_max_seq` and `_last_export_timestamp`. -/
structure LastExport where
  maxSeq : Nat := 0
  timestamp : Nat := 0
  deriving DecidableEq, Repr

/-- The files of the directory, and the attributes of each service object. -/
structure Disk where
  chunks : String → Option ChunkFile := fun _ => none
  manifests : String → Option Line := fun _ => none
  lastExports : Nat → LastExport := fun _ => {}

namespace Disk

def setChunk (d : Disk) (chunkId : String) (file : Option ChunkFile) : Disk :=
  { d with chunks := Function.update d.chunks chunkId file }

def setManifest (d : Disk) (name : String) (text : Option Line) : Disk :=
  { d with manifests := Function.update d.manifests name text }

def setLastExport (d : Disk) (self : Nat) (last : LastExport) : Disk :=
  { d with lastExports := Function.update d.lastExports self last }

@[simp] theorem setChunk_manifests (d : Disk) (chunkId : String) (file : Option ChunkFile) :
    (d.setChunk chunkId file).manifests = d.manifests := rfl

@[simp] theorem setChunk_lastExports (d : Disk) (chunkId : String) (file : Option ChunkFile) :
    (d.setChunk chunkId file).lastExports = d.lastExports := rfl

@[simp] theorem setManifest_chunks (d : Disk) (name : String) (text : Option Line) :
    (d.setManifest name text).chunks = d.chunks := rfl

@[simp] theorem setManifest_lastExports (d : Disk) (name : String) (text : Option Line) :
    (d.setManifest name text).lastExports = d.lastExports := rfl

@[simp] theorem setLastExport_lastExports (d : Disk) (self self' : Nat) (last : LastExport) :
    (d.setLastExport self last).lastExports self' = if self' = self then last else d.lastExports self' := by
  simp [setLastExport, Function.update_apply]

@[simp] theorem setLastExport_chunks (d : Disk) (self : Nat) (last : LastExport) :
    (d.setLastExport self last).chunks = d.chunks := rfl

@[simp] theorem setLastExport_manifests (d : Disk) (self : Nat) (last : LastExport) :
    (d.setLastExport self last).manifests = d.manifests := rfl

end Disk

inductive DiskCall where
  | writeChunk (chunkId : String) (lines : List JsonObject)
  | chunkExists (chunkId : String)
  | readBytes (chunkId : String)
  | openChunk (chunkId : String)
  | writeManifest (name : String) (manifest : JsonObject)
  | manifestExists (name : String)
  | loadManifest (name : String)
  | globManifests
  | setLastExport (self : Nat) (last : LastExport)
  | getLastExport (self : Nat)

def DiskCall.Value : DiskCall → Type
  | .writeChunk .. | .writeManifest .. | .setLastExport .. => Unit
  | .chunkExists _ | .manifestExists _ => Bool
  | .readBytes _ => List UInt8
  | .openChunk _ => Reading
  | .loadManifest _ => Json
  | .globManifests => List String
  | .getLastExport _ => LastExport

def diskSignature : Signature := ⟨DiskCall, DiskCall.Value⟩

namespace Disk

/-- What a call answers and does. How lines are compressed is left open. -/
def serve : Semantics diskSignature Exn Disk
  | ⟨.writeChunk chunkId lines, r⟩, d, d' =>
    r = .ok () ∧ ∃ bytes : List UInt8,
      d' = d.setChunk chunkId (some ⟨lines.map fun fields => some (.obj fields), bytes⟩)
  | ⟨.chunkExists chunkId, r⟩, d, d' => d' = d ∧ r = .ok (d.chunks chunkId).isSome
  | ⟨.readBytes chunkId, r⟩, d, d' =>
    d' = d ∧
      match d.chunks chunkId with
      | some file => r = .ok file.bytes
      | none => ∃ m, r = .error (.fileNotFoundError m)
  | ⟨.openChunk chunkId, r⟩, d, d' =>
    d' = d ∧
      match d.chunks chunkId with
      | some file => r = .ok { lines := file.lines }
      | none => ∃ m, r = .error (.fileNotFoundError m)
  | ⟨.writeManifest name manifest, r⟩, d, d' =>
    r = .ok () ∧ d' = d.setManifest name (some (some (.obj manifest)))
  | ⟨.manifestExists name, r⟩, d, d' => d' = d ∧ r = .ok (d.manifests name).isSome
  | ⟨.loadManifest name, r⟩, d, d' =>
    d' = d ∧
      match d.manifests name with
      | some (some manifest) => r = .ok manifest
      | some none => ∃ m, r = .error (.jsonDecodeError m)
      | none => ∃ m, r = .error (.fileNotFoundError m)
  | ⟨.globManifests, r⟩, d, d' =>
    d' = d ∧ ∃ names : List String, (∀ name, name ∈ names ↔ (d.manifests name).isSome) ∧
      r = .ok names
  | ⟨.setLastExport self last, r⟩, d, d' => r = .ok () ∧ d' = d.setLastExport self last
  | ⟨.getLastExport self, r⟩, d, d' => d' = d ∧ r = .ok (d.lastExports self)

/-- What a call may do instead when the file system fails: a write leaves any file behind, and the
lines of an opened chunk may break off. Attributes do not fail. -/
def fail : Semantics diskSignature Exn Disk
  | ⟨.writeChunk chunkId _, r⟩, d, d' =>
    (∃ m, r = .error (.osError m)) ∧ ∃ file, d' = d.setChunk chunkId file
  | ⟨.writeManifest name _, r⟩, d, d' =>
    (∃ m, r = .error (.osError m)) ∧ ∃ text, d' = d.setManifest name text
  | ⟨.openChunk chunkId, r⟩, d, d' =>
    d' = d ∧ ((∃ m, r = .error (.osError m)) ∨
      ∃ file, d.chunks chunkId = some file ∧ ∃ lines e, lines <+: file.lines ∧
        r = .ok { lines, failure := some e })
  | ⟨.setLastExport .., _⟩, _, _ => False
  | ⟨.getLastExport _, _⟩, _, _ => False
  | ⟨_, r⟩, d, d' => d' = d ∧ ∃ m, r = .error (.osError m)

def step : Semantics diskSignature Exn Disk := fun a d d' => serve a d d' ∨ fail a d d'

end Disk

/-- The database and the directory. -/
def worldSignature : Signature := storeSignature.sum diskSignature

abbrev SyncProgram := Program worldSignature Exn

abbrev World := Store × Disk

namespace World

def both (store : Semantics storeSignature Exn Store) (disk : Semantics diskSignature Exn Disk) :
    Semantics worldSignature Exn World := Semantics.sum store disk

def serve : Semantics worldSignature Exn World := both Store.serve Disk.serve

def step : Semantics worldSignature Exn World := both Store.step Disk.step

/-- The rows of `observations`. -/
def rows (w : World) : List ObservationRow := w.1.1.observations.rows

/-- The journal with its bookkeeping. -/
abbrev sync (w : World) : SyncStore := w.1.2

abbrev disk (w : World) : Disk := w.2

def withSync (w : World) (s : SyncStore) : World := ((w.1.1, s), w.2)

def withDisk (w : World) (d : Disk) : World := (w.1, d)

@[simp] theorem withSync_sync (w : World) (s : SyncStore) : (w.withSync s).sync = s := rfl

@[simp] theorem withSync_disk (w : World) (s : SyncStore) : (w.withSync s).disk = w.disk := rfl

@[simp] theorem withDisk_sync (w : World) (d : Disk) : (w.withDisk d).sync = w.sync := rfl

@[simp] theorem withDisk_disk (w : World) (d : Disk) : (w.withDisk d).disk = d := rfl

end World

def diskCall (c : DiskCall) : SyncProgram c.Value := .perform (σ := worldSignature) (.inr c)

/-- A program of the repositories. -/
def onStore {α : Type} (p : MemoryProgram α) : SyncProgram α :=
  p.lift (.inl storeSignature diskSignature)

end ForkAgent.Sync

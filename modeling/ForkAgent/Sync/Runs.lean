import ForkAgent.Memory.Runs
import ForkAgent.Sync.Service

/-!
# Runs of exports and imports

The calls of the service, one store at a time, and what the loops over chunks do.
-/

namespace ForkAgent.Sync

open Effects Storage Memory

variable {m : Semantics memorySignature Exn MemoryStore} {y : Semantics syncSignature Exn SyncStore}
variable {disk : Semantics diskSignature Exn Disk}
variable {w u : World} {α β : Type}

section Calls

theorem onStore_runs {store : Semantics storeSignature Exn Store} {p : MemoryProgram α}
    {out : Except Exn α} :
    (onStore p).Runs (World.both store disk) w out u ↔ p.Runs store w.1 out u.1 ∧ u.2 = w.2 :=
  Program.runs_lift_inl

theorem diskCall_runs {store : Semantics storeSignature Exn Store} {c : DiskCall}
    {out : Except Exn c.Value} :
    (diskCall c).Runs (World.both store disk) w out u ↔ disk ⟨c, out⟩ w.2 u.2 ∧ u.1 = w.1 :=
  Program.runs_perform (σ := worldSignature) (c := .inr c)

theorem sync_runs {c : SyncCall} {out : Except Exn c.Value} :
    (sync c).Runs (World.both (Store.both m y) disk) w out u ↔
      y ⟨c, out⟩ w.sync u.sync ∧ u.1.1 = w.1.1 ∧ u.2 = w.2 := by
  rw [sync, onStore_runs, syncCall_runs, and_assoc]

theorem timeMs_runs {out : Except Exn Nat} :
    timeMs.Runs (World.both (Store.both m y) disk) w out u ↔
      m ⟨.timeMs, out⟩ w.1.1 u.1.1 ∧ u.1.2 = w.1.2 ∧ u.2 = w.2 :=
  onStore_runs.trans ((and_congr_left' memoryCall_runs).trans and_assoc)

theorem runs_bind_ok {sem : Semantics worldSignature Exn World} {p : SyncProgram β}
    {f : β → SyncProgram α} {a : α} :
    (p >>= f).Runs sem w (.ok a) u ↔
      ∃ b v, p.Runs sem w (.ok b) v ∧ (f b).Runs sem v (.ok a) u := by
  rw [Program.runs_bind]
  constructor
  · rintro (⟨e, -, h⟩ | h)
    · cases h
    · exact h
  · exact .inr

theorem runs_return {sem : Semantics worldSignature Exn World} {a : α} {out : Except Exn α} :
    (return a : SyncProgram α).Runs sem w out u ↔ out = .ok a ∧ u = w := Iff.rfl

end Calls

def DiskCall.isOpen : DiskCall → Bool
  | .openChunk _ => true
  | _ => false

/-- A call that succeeds has been served; only the lines of an opened chunk may break off. -/
structure Served (m : Semantics memorySignature Exn MemoryStore)
    (y : Semantics syncSignature Exn SyncStore) (disk : Semantics diskSignature Exn Disk) : Prop where
  memory : ∀ {c : MemoryCall} {v : c.Value} {s s' : MemoryStore},
    m ⟨c, .ok v⟩ s s' ↔ MemoryStore.serve ⟨c, .ok v⟩ s s'
  sync : ∀ {c : SyncCall} {v : c.Value} {s s' : SyncStore},
    y ⟨c, .ok v⟩ s s' ↔ SyncStore.serve ⟨c, .ok v⟩ s s'
  disk : ∀ {c : DiskCall} {v : c.Value} {d d' : Disk}, c.isOpen = false →
    (disk ⟨c, .ok v⟩ d d' ↔ Disk.serve ⟨c, .ok v⟩ d d')

theorem served_serve : Served MemoryStore.serve SyncStore.serve Disk.serve :=
  ⟨Iff.rfl, Iff.rfl, fun _ => Iff.rfl⟩

theorem served_step : Served MemoryStore.step SyncStore.step Disk.step where
  memory := by
    intro c v s s'
    simp [MemoryStore.step]
  sync := by
    intro c v s s'
    simp [SyncStore.step]
  disk := by
    intro c v d d' hopen
    refine or_iff_left ?_
    cases c <;> simp_all [Disk.fail, DiskCall.isOpen]

section Statements

variable (served : Served m y disk)

include served

theorem sync_ok {c : SyncCall} {v : c.Value} :
    (sync c).Runs (World.both (Store.both m y) disk) w (.ok v) u ↔
      ∃ s, SyncStore.serve ⟨c, .ok v⟩ w.sync s ∧ u = w.withSync s := by
  refine sync_runs.trans ?_
  constructor
  · rintro ⟨hstep, hmemory, hdisk⟩
    exact ⟨u.sync, served.sync.mp hstep, Prod.ext (Prod.ext hmemory rfl) hdisk⟩
  · rintro ⟨s, hstep, rfl⟩
    exact ⟨served.sync.mpr hstep, rfl, rfl⟩

theorem getStatus_ok {status : SyncStatus} :
    (sync .getStatus).Runs (World.both (Store.both m y) disk) w (.ok status) u ↔
      status = w.sync.syncStatus ∧ u = w := by
  refine (sync_ok served).trans ?_
  constructor
  · rintro ⟨s, ⟨rfl, h⟩, rfl⟩
    exact ⟨Except.ok.inj h, rfl⟩
  · rintro ⟨rfl, rfl⟩
    exact ⟨_, ⟨rfl, rfl⟩, rfl⟩

theorem getMutationsSince_ok {seq : Nat} {mutations : List SyncMutation} :
    (sync (.getMutationsSince seq)).Runs (World.both (Store.both m y) disk) w (.ok mutations) u ↔
      (w.sync.mutationsSince seq).mapM (construct _) = .ok mutations ∧ u = w := by
  refine (sync_ok served).trans ?_
  constructor
  · rintro ⟨s, ⟨rfl, h⟩, rfl⟩
    exact ⟨h.symm, rfl⟩
  · rintro ⟨h, rfl⟩
    exact ⟨_, ⟨rfl, h.symm⟩, rfl⟩

theorem getLatestSeq_ok {seq : Nat} :
    (sync .getLatestSeq).Runs (World.both (Store.both m y) disk) w (.ok seq) u ↔
      seq = w.sync.latestSeq ∧ u = w := by
  refine (sync_ok served).trans ?_
  constructor
  · rintro ⟨s, ⟨rfl, h⟩, rfl⟩
    exact ⟨Except.ok.inj h, rfl⟩
  · rintro ⟨rfl, rfl⟩
    exact ⟨_, ⟨rfl, rfl⟩, rfl⟩

theorem updateStatus_ok {exportAt importAt : Option Int} {seq : Option Nat} :
    (sync (.updateStatus exportAt importAt seq)).Runs (World.both (Store.both m y) disk) w (.ok ()) u ↔
      u = w.withSync (w.sync.updateStatus exportAt importAt seq) := by
  refine (sync_ok served).trans ?_
  constructor
  · rintro ⟨s, ⟨-, rfl⟩, rfl⟩
    rfl
  · rintro rfl
    exact ⟨_, ⟨rfl, rfl⟩, rfl⟩

theorem timeMs_ok {now : Nat} :
    timeMs.Runs (World.both (Store.both m y) disk) w (.ok now) u ↔ u = w := by
  refine timeMs_runs.trans ?_
  constructor
  · rintro ⟨hstep, hsync, hdisk⟩
    exact Prod.ext (Prod.ext (served.memory.mp hstep).1 hsync) hdisk
  · rintro rfl
    exact ⟨served.memory.mpr ⟨rfl, now, rfl⟩, rfl, rfl⟩

theorem diskCall_ok {c : DiskCall} {v : c.Value} (hopen : c.isOpen = false) :
    (diskCall c).Runs (World.both (Store.both m y) disk) w (.ok v) u ↔
      ∃ d, Disk.serve ⟨c, .ok v⟩ w.disk d ∧ u = w.withDisk d := by
  refine diskCall_runs.trans ?_
  constructor
  · rintro ⟨hstep, hstore⟩
    exact ⟨u.disk, (served.disk hopen).mp hstep, Prod.ext hstore rfl⟩
  · rintro ⟨d, hstep, rfl⟩
    exact ⟨(served.disk hopen).mpr hstep, rfl⟩

end Statements

section Chunks

/-- The ids of the chunks of an export, from an index on. -/
def exportedChunks (kind : String) (timestamp index count : Nat) : List String :=
  (List.range' index count).map (chunkId kind timestamp)

/-- The directory after the chunks of an export were written. -/
def Disk.setChunks (kind : String) (timestamp : Nat) :
    Nat → List (List JsonObject × List UInt8) → Disk → Disk
  | _, [], d => d
  | index, file :: files, d => setChunks kind timestamp (index + 1) files
      (d.setChunk (chunkId kind timestamp index)
        (some ⟨file.1.map fun fields => some (.obj fields), file.2⟩))

/-- The bytes of those chunks that exist, one after another. -/
def Disk.bytesOf (d : Disk) (chunkIds : List String) : List UInt8 :=
  chunkIds.flatMap fun c => (d.chunks c).elim [] (·.bytes)

variable (served : Served m y disk)

include served

theorem writeChunks_ok {kind : String} {timestamp index : Nat} {lines : List (List JsonObject)}
    {chunkIds : List String} :
    (writeChunks kind timestamp index lines).Runs (World.both (Store.both m y) disk) w
        (.ok chunkIds) u ↔
      chunkIds = exportedChunks kind timestamp index lines.length ∧
        ∃ bytes : List (List UInt8), bytes.length = lines.length ∧
          u = w.withDisk (w.disk.setChunks kind timestamp index (lines.zip bytes)) := by
  induction lines generalizing index w u chunkIds with
  | nil =>
    refine runs_return.trans ?_
    constructor
    · rintro ⟨h, rfl⟩
      exact ⟨Except.ok.inj h, [], rfl, rfl⟩
    · rintro ⟨rfl, bytes, -, rfl⟩
      exact ⟨rfl, rfl⟩
  | cons file files ih =>
    refine runs_bind_ok.trans ?_
    constructor
    · rintro ⟨_, v, hwrite, hrest⟩
      obtain ⟨d, ⟨-, bytes, rfl⟩, rfl⟩ := (diskCall_ok served rfl).mp hwrite
      obtain ⟨rest, x, hrun, hret⟩ := runs_bind_ok.mp hrest
      obtain ⟨rfl, more, hlength, rfl⟩ := ih.mp hrun
      obtain ⟨hids, rfl⟩ := runs_return.mp hret
      refine ⟨Except.ok.inj hids, bytes :: more, ?_, rfl⟩
      simp [hlength]
    · rintro ⟨rfl, bytes, hlength, rfl⟩
      obtain ⟨bytes, more, rfl⟩ := List.exists_cons_of_length_eq_add_one hlength
      refine ⟨(), _, (diskCall_ok served rfl).mpr ⟨_, ⟨rfl, bytes, rfl⟩, rfl⟩, ?_⟩
      refine runs_bind_ok.mpr ⟨_, _, ih.mpr ⟨rfl, more, ?_, rfl⟩, runs_return.mpr ⟨rfl, rfl⟩⟩
      simpa using hlength

theorem readBytes_ok {chunkId : String} {bytes : List UInt8} :
    (diskCall (.readBytes chunkId)).Runs (World.both (Store.both m y) disk) w (.ok bytes) u ↔
      (∃ file, w.disk.chunks chunkId = some file ∧ bytes = file.bytes) ∧ u = w := by
  refine (diskCall_ok served rfl).trans ?_
  constructor
  · rintro ⟨d, ⟨rfl, hfile⟩, rfl⟩
    split at hfile
    · next file hchunk => exact ⟨⟨file, hchunk, Except.ok.inj hfile⟩, rfl⟩
    · obtain ⟨_, h⟩ := hfile
      cases h
  · rintro ⟨⟨file, hchunk, rfl⟩, rfl⟩
    refine ⟨_, ⟨rfl, ?_⟩, rfl⟩
    rw [hchunk]

theorem readChunks_ok {chunkIds : List String} {bytes : List UInt8} :
    (readChunks chunkIds).Runs (World.both (Store.both m y) disk) w (.ok bytes) u ↔
      (∀ c ∈ chunkIds, (w.disk.chunks c).isSome) ∧ bytes = w.disk.bytesOf chunkIds ∧ u = w := by
  induction chunkIds generalizing bytes u with
  | nil =>
    refine runs_return.trans ?_
    simp [Disk.bytesOf]
  | cons c chunkIds ih =>
    refine runs_bind_ok.trans ?_
    simp only [List.forall_mem_cons, Disk.bytesOf, List.flatMap_cons]
    constructor
    · rintro ⟨file, v, hread, hrest⟩
      obtain ⟨⟨file, hchunk, rfl⟩, rfl⟩ := (readBytes_ok served).mp hread
      obtain ⟨more, x, hrun, hret⟩ := runs_bind_ok.mp hrest
      obtain ⟨hall, rfl, rfl⟩ := ih.mp hrun
      obtain ⟨hbytes, rfl⟩ := runs_return.mp hret
      refine ⟨⟨by simp [hchunk], hall⟩, ?_, rfl⟩
      rw [Except.ok.inj hbytes, hchunk]
      rfl
    · rintro ⟨⟨hsome, hall⟩, rfl, rfl⟩
      obtain ⟨file, hchunk⟩ := Option.isSome_iff_exists.mp hsome
      refine ⟨file.bytes, _, (readBytes_ok served).mpr ⟨⟨file, hchunk, rfl⟩, rfl⟩, ?_⟩
      refine runs_bind_ok.mpr ⟨_, _, ih.mpr ⟨hall, rfl, rfl⟩, runs_return.mpr ⟨?_, rfl⟩⟩
      rw [hchunk]
      rfl

theorem chunkExists_ok {chunkId : String} {found : Bool} :
    (diskCall (.chunkExists chunkId)).Runs (World.both (Store.both m y) disk) w (.ok found) u ↔
      found = (w.disk.chunks chunkId).isSome ∧ u = w := by
  refine (diskCall_ok served rfl).trans ?_
  constructor
  · rintro ⟨d, ⟨rfl, h⟩, rfl⟩
    exact ⟨Except.ok.inj h, rfl⟩
  · rintro ⟨rfl, rfl⟩
    exact ⟨_, ⟨rfl, rfl⟩, rfl⟩

theorem readExistingChunk_ok {chunkId : String} {bytes : List UInt8} :
    (readExistingChunk chunkId).Runs (World.both (Store.both m y) disk) w (.ok bytes) u ↔
      bytes = (w.disk.chunks chunkId).elim [] (·.bytes) ∧ u = w := by
  refine runs_bind_ok.trans ?_
  constructor
  · rintro ⟨found, v, hexists, hrest⟩
    obtain ⟨rfl, rfl⟩ := (chunkExists_ok served).mp hexists
    cases hchunk : v.disk.chunks chunkId with
    | none =>
      rw [hchunk] at hrest
      obtain ⟨hbytes, rfl⟩ := runs_return.mp hrest
      exact ⟨Except.ok.inj hbytes, rfl⟩
    | some file =>
      rw [hchunk] at hrest
      obtain ⟨⟨file', hfile, rfl⟩, rfl⟩ := (readBytes_ok served).mp hrest
      rw [hchunk] at hfile
      cases hfile
      exact ⟨rfl, rfl⟩
  · rintro ⟨rfl, rfl⟩
    refine ⟨_, _, (chunkExists_ok served).mpr ⟨rfl, rfl⟩, ?_⟩
    cases hchunk : u.disk.chunks chunkId with
    | none => exact runs_return.mpr ⟨rfl, rfl⟩
    | some file => exact (readBytes_ok served).mpr ⟨⟨file, hchunk, rfl⟩, rfl⟩

theorem readExistingChunks_ok {chunkIds : List String} {bytes : List UInt8} :
    (readExistingChunks chunkIds).Runs (World.both (Store.both m y) disk) w (.ok bytes) u ↔
      bytes = w.disk.bytesOf chunkIds ∧ u = w := by
  induction chunkIds generalizing bytes u with
  | nil =>
    refine runs_return.trans ?_
    simp [Disk.bytesOf]
  | cons c chunkIds ih =>
    refine runs_bind_ok.trans ?_
    constructor
    · rintro ⟨file, v, hread, hrest⟩
      obtain ⟨rfl, rfl⟩ := (readExistingChunk_ok served).mp hread
      obtain ⟨more, x, hrun, hret⟩ := runs_bind_ok.mp hrest
      obtain ⟨rfl, rfl⟩ := ih.mp hrun
      obtain ⟨hbytes, rfl⟩ := runs_return.mp hret
      exact ⟨Except.ok.inj hbytes, rfl⟩
    · rintro ⟨rfl, rfl⟩
      refine ⟨_, _, (readExistingChunk_ok served).mpr ⟨rfl, rfl⟩, ?_⟩
      exact runs_bind_ok.mpr ⟨_, _, ih.mpr ⟨rfl, rfl⟩, runs_return.mpr ⟨rfl, rfl⟩⟩

end Chunks

end ForkAgent.Sync

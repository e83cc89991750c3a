import ForkAgent.Sync.Exports

/-!
# Manifests

The checksum of an export is taken over its chunks as they were written, and checked over them as
their file names sort. Up to a thousand chunks the two orders are one: an index of three digits
sorts as it counts.
-/

namespace ForkAgent.Sync

open Effects Storage Memory

section Order

theorem chunkFile_toList (kind : String) (timestamp index : Nat) :
    (chunkFile (chunkId kind timestamp index)).toList =
      (s!"{kind}_{timestamp}_").toList ++ (pad3 index ++ ".jsonl.gz".toList) := by
  simp only [chunkFile, chunkId, String.toList_append, String.toList_ofList, List.append_assoc]

theorem pad3_chain :
    List.IsChain (fun a b : List Char => a ≤ b)
      ((List.range 1000).map fun index => pad3 index ++ ".jsonl.gz".toList) := by
  decide +kernel

theorem mem_sortedChunks {c : String} {chunkIds : List String} :
    c ∈ sortedChunks chunkIds ↔ c ∈ chunkIds := List.mem_insertionSort _

theorem sortedChunks_eq (kind : String) (timestamp : Nat) {count : Nat} (hcount : count ≤ 1000) :
    sortedChunks (exportedChunks kind timestamp 0 count) = exportedChunks kind timestamp 0 count := by
  have hsorted := List.pairwise_map.mp (List.isChain_iff_pairwise.mp pad3_chain)
  have hrange : (List.range count).Sublist (List.range 1000) := List.range_sublist.mpr hcount
  apply List.Pairwise.insertionSort_eq
  rw [exportedChunks, List.pairwise_map, ← List.range_eq_range']
  refine (hsorted.sublist hrange).imp fun h => ?_
  rw [chunkFile_toList, chunkFile_toList]
  rcases h.lt_or_eq with hlt | heq
  · exact (List.append_left_lt hlt).le
  · rw [heq]

theorem chunk_1000_before_999 (kind : String) (timestamp : Nat) :
    (chunkFile (chunkId kind timestamp 1000)).toList < (chunkFile (chunkId kind timestamp 999)).toList := by
  rw [chunkFile_toList, chunkFile_toList]
  apply List.append_left_lt
  decide +kernel

end Order

section Validation

variable {svc : SyncService} {w u v : World}
variable {m : Semantics memorySignature Exn MemoryStore} {y : Semantics syncSignature Exn SyncStore}
variable {disk : Semantics diskSignature Exn Disk}

theorem startsWith_checksum (bytes : List UInt8) :
    startsWith (svc.checksum bytes) "sha256:" = true := by
  rw [startsWith, SyncService.checksum, String.toList_append, List.isPrefixOf_iff_prefix]
  exact List.prefix_append _ _

theorem checksum_inj {bytes bytes' : List UInt8} :
    svc.checksum bytes = svc.checksum bytes' ↔ svc.sha256 bytes = svc.sha256 bytes' :=
  String.append_right_inj _

section

variable (served : Served m y disk)

include served

theorem manifestExists_ok {name : String} {found : Bool} :
    (diskCall (.manifestExists name)).Runs (World.both (Store.both m y) disk) w (.ok found) u ↔
      found = (w.disk.manifests name).isSome ∧ u = w := by
  refine (diskCall_ok served rfl).trans ?_
  constructor
  · rintro ⟨d, ⟨rfl, h⟩, rfl⟩
    exact ⟨Except.ok.inj h, rfl⟩
  · rintro ⟨rfl, rfl⟩
    exact ⟨_, ⟨rfl, rfl⟩, rfl⟩

theorem loadManifest_ok {name : String} {f : Exn → Exn} {manifest : Json} :
    ((diskCall (.loadManifest name)).handle fun e => throw (f e)).Runs
        (World.both (Store.both m y) disk) w (.ok manifest) u ↔
      w.disk.manifests name = some (some manifest) ∧ u = w := by
  refine Program.runs_handle.trans ?_
  constructor
  · rintro (⟨value, hrun, h⟩ | ⟨e, v, -, h⟩)
    · cases h
      obtain ⟨d, ⟨rfl, hload⟩, rfl⟩ := (diskCall_ok served rfl).mp hrun
      split at hload
      · next text htext =>
        cases hload
        exact ⟨htext, rfl⟩
      · obtain ⟨_, h⟩ := hload
        cases h
      · obtain ⟨_, h⟩ := hload
        cases h
    · cases h.1
  · rintro ⟨hname, rfl⟩
    refine .inl ⟨manifest, (diskCall_ok served rfl).mpr ⟨_, ⟨rfl, ?_⟩, rfl⟩, rfl⟩
    rw [hname]

/-- Validation succeeds when the digest of the chunks that exist, in the order of their names, is
the expected one. -/
theorem checkChecksum_ok {chunkIds : List String} {bytes : List UInt8} {valid : Bool} :
    (svc.checkChecksum chunkIds (svc.checksum bytes)).Runs (World.both (Store.both m y) disk) w
        (.ok valid) u ↔
      valid = true ∧ u = w ∧ svc.sha256 (w.disk.bytesOf (sortedChunks chunkIds)) = svc.sha256 bytes := by
  refine runs_bind_ok.trans ?_
  constructor
  · rintro ⟨found, v, hread, hrest⟩
    obtain ⟨rfl, rfl⟩ := (readExistingChunks_ok served).mp hread
    by_cases hsame : svc.checksum (v.disk.bytesOf (sortedChunks chunkIds)) = svc.checksum bytes
    · rw [if_pos hsame] at hrest
      obtain ⟨hvalid, rfl⟩ := runs_return.mp hrest
      exact ⟨Except.ok.inj hvalid, rfl, checksum_inj.mp hsame⟩
    · rw [if_neg hsame] at hrest
      cases hrest.1
  · rintro ⟨rfl, rfl, hsame⟩
    refine ⟨_, _, (readExistingChunks_ok served).mpr ⟨rfl, rfl⟩, ?_⟩
    rw [if_pos (checksum_inj.mpr hsame)]
    exact runs_return.mpr ⟨rfl, rfl⟩

theorem validateManifest_ok {chunkIds : List String} {name : String} {count total timestamp : Nat}
    {bytes : List UInt8} {valid : Bool}
    (hname : w.disk.manifests name = some (some (.obj (svc.manifest count total timestamp bytes)))) :
    (svc.validateManifest chunkIds (some name)).Runs (World.both (Store.both m y) disk) w (.ok valid) u ↔
      valid = true ∧ u = w ∧ svc.sha256 (w.disk.bytesOf (sortedChunks chunkIds)) = svc.sha256 bytes := by
  have hcheck : svc.checkManifest chunkIds (.obj (svc.manifest count total timestamp bytes)) =
      svc.checkChecksum chunkIds (svc.checksum bytes) := if_pos (startsWith_checksum bytes)
  refine runs_bind_ok.trans ?_
  constructor
  · rintro ⟨found, v, hfound, hrest⟩
    obtain ⟨rfl, rfl⟩ := (manifestExists_ok served).mp hfound
    rw [hname] at hrest
    obtain ⟨manifest, v, hload, hrun⟩ := runs_bind_ok.mp hrest
    obtain ⟨hmanifest, rfl⟩ := (loadManifest_ok served).mp hload
    rw [hname] at hmanifest
    cases hmanifest
    rw [hcheck] at hrun
    exact (checkChecksum_ok served).mp hrun
  · rintro ⟨rfl, rfl, hsame⟩
    refine ⟨_, _, (manifestExists_ok served).mpr ⟨rfl, rfl⟩, ?_⟩
    rw [hname]
    refine runs_bind_ok.mpr ⟨_, _, (loadManifest_ok served).mpr ⟨hname, rfl⟩, ?_⟩
    rw [hcheck]
    exact (checkChecksum_ok served).mpr ⟨rfl, rfl, hsame⟩

end

end Validation

section Exports

/-- The two exporters. -/
inductive ExportOp where
  | observations (project : Option String)
  | incremental (commitWatermark : Bool)

def ExportOp.kind : ExportOp → String
  | observations _ => "sync"
  | incremental _ => "mutation"

def SyncService.export (svc : SyncService) (chunkSize : Nat) : ExportOp → SyncProgram (List String)
  | .observations project => svc.exportObservations project chunkSize
  | .incremental commitWatermark => svc.exportIncremental chunkSize commitWatermark

/-- The chunks of one export with the manifest over them. -/
structure Manifested (svc : SyncService) (kind : String) (timestamp : Nat) (paths : List String)
    (d : Disk) : Prop where
  named : paths = exportedChunks kind timestamp 0 paths.length
  manifest : ∃ total, d.manifests (manifestName timestamp) =
    some (some (.obj (svc.manifest paths.length total timestamp (d.bytesOf paths))))

/-- Those files were not touched. -/
structure Unchanged (paths : List String) (name : String) (d d' : Disk) : Prop where
  chunks : ∀ c ∈ paths, d'.chunks c = d.chunks c
  manifest : d'.manifests name = d.manifests name

variable {svc : SyncService} {w u v : World}

theorem bytesOf_congr {d d' : Disk} {paths : List String}
    (h : ∀ c ∈ paths, d'.chunks c = d.chunks c) : d'.bytesOf paths = d.bytesOf paths := by
  unfold Disk.bytesOf
  apply List.flatMap_congr
  intro c hc
  rw [h c hc]

theorem written_manifested (svc : SyncService) (kind : String) (timestamp total : Nat)
    (files : List (List JsonObject × List UInt8)) (d : Disk) :
    Manifested svc kind timestamp (exportedChunks kind timestamp 0 files.length)
      (svc.written kind timestamp total files d) where
  named := by rw [length_exportedChunks]
  manifest := by
    refine ⟨total, ?_⟩
    rw [length_exportedChunks]
    exact Function.update_self (manifestName timestamp) _ _

/-- An export that wrote chunks has written the manifest over them. -/
theorem export_manifested {op : ExportOp} {chunkSize : Nat} {paths : List String}
    (hrun : (svc.export chunkSize op).Runs World.step w (.ok paths) u) (hpaths : paths ≠ []) :
    ∃ timestamp, Manifested svc op.kind timestamp paths u.disk := by
  cases op with
  | observations project =>
    obtain ⟨os, seq, -, hcases⟩ := (svc.exportObservations_ok served_step).mp hrun
    by_cases hempty : os = []
    · rw [if_pos hempty] at hcases
      exact absurd hcases.1 hpaths
    · rw [if_neg hempty] at hcases
      obtain ⟨-, timestamp, bytes, hlength, rfl, rfl⟩ := hcases
      refine ⟨timestamp, ?_⟩
      have h := written_manifested svc "sync" timestamp os.length
        ((SyncService.observationLines chunkSize os).zip bytes) w.disk
      rwa [List.length_zip, hlength, min_self] at h
  | incremental commitWatermark =>
    obtain ⟨ms, -, hcases⟩ := (svc.exportIncremental_ok served_step).mp hrun
    by_cases hempty : ms = []
    · rw [if_pos hempty] at hcases
      exact absurd hcases.1 hpaths
    · rw [if_neg hempty] at hcases
      obtain ⟨-, timestamp, bytes, hlength, rfl, rfl⟩ := hcases
      refine ⟨timestamp, ?_⟩
      have h := written_manifested svc "mutation" timestamp (ms.map (·.val)).length
        (((slices chunkSize (ms.map (·.val))).map (·.map mutationLine)).zip bytes) w.disk
      rw [List.length_zip, List.length_map, hlength, min_self] at h
      exact ⟨h.named, h.manifest⟩

/-- The chunks and the manifest of an export, unchanged, validate exactly when the export has at
most a thousand chunks, or the digest does not tell the two orders of its chunks apart. -/
theorem export_validates_iff {op : ExportOp} {chunkSize : Nat} {paths : List String}
    (hrun : (svc.export chunkSize op).Runs World.step w (.ok paths) u) (hpaths : paths ≠ []) :
    ∃ timestamp, Manifested svc op.kind timestamp paths u.disk ∧
      ∀ v : World, Unchanged paths (manifestName timestamp) u.disk v.disk →
        ((svc.validateManifest paths (some (manifestName timestamp))).Runs World.serve v (.ok true) v ↔
          paths.length ≤ 1000 ∨
            svc.sha256 (u.disk.bytesOf (sortedChunks paths)) = svc.sha256 (u.disk.bytesOf paths)) := by
  obtain ⟨timestamp, hmanifested⟩ := export_manifested hrun hpaths
  refine ⟨timestamp, hmanifested, fun v hsame => ?_⟩
  obtain ⟨total, hmanifest⟩ := hmanifested.manifest
  rw [← hsame.manifest] at hmanifest
  have hsorted : v.disk.bytesOf (sortedChunks paths) = u.disk.bytesOf (sortedChunks paths) := by
    apply bytesOf_congr
    intro c hc
    exact hsame.chunks c (mem_sortedChunks.mp hc)
  refine (validateManifest_ok served_serve hmanifest).trans ?_
  rw [hsorted]
  constructor
  · rintro ⟨-, -, hdigest⟩
    exact .inr hdigest
  · rintro (hcount | hdigest)
    · have hpaths := sortedChunks_eq op.kind timestamp hcount
      rw [← hmanifested.named] at hpaths
      rw [hpaths]
      exact ⟨rfl, rfl, rfl⟩
    · exact ⟨rfl, rfl, hdigest⟩

/-- Inserts past the watermark, and nothing else. -/
def journal (count : Nat) : List SyncMutationFields :=
  (List.range count).map fun i =>
    { seq := i + 1, entity := "observation", entityKey := "o", op := .insert, payload := [],
      createdAt := 0 }

def journalWorld (count : Nat) : World :=
  (({}, { syncMutations := journal count, sqliteSequence := count }), {})

/-- Whatever is pending can be exported, one mutation a chunk, whatever the chunks are compressed
to. -/
theorem exportIncremental_pending (svc : SyncService) {m : Semantics memorySignature Exn MemoryStore}
    {y : Semantics syncSignature Exn SyncStore} {disk : Semantics diskSignature Exn Disk}
    (served : Served m y disk) {w : World} {pending : List SyncMutationFields}
    (hpending : w.sync.mutationsSince w.sync.syncStatus.lastExportSeq = pending) (hne : pending ≠ [])
    (hvalid : ∀ f ∈ pending, f.postInit = .ok ()) (commitWatermark : Bool) (timestamp : Nat)
    {bytes : List (List UInt8)} (hbytes : bytes.length = pending.length) :
    (svc.exportIncremental 1 commitWatermark).Runs (World.both (Store.both m y) disk) w
      (.ok (exportedChunks "mutation" timestamp 0 pending.length))
      (svc.incremented 1 commitWatermark timestamp bytes pending w) := by
  have hslices : (slices 1 pending).length = pending.length := by
    simp [slices]
  obtain ⟨ms, hms⟩ := exists_mapM_eq_ok fun f hf => ⟨_, construct_of_postInit (hvalid f hf)⟩
  have hfields := listMapM_construct_eq_ok hms
  have hmutations : ms ≠ [] := by
    rintro rfl
    exact hne hfields.symm
  refine (svc.exportIncremental_ok served).mpr ⟨ms, ?_, ?_⟩
  · exact (congrArg (List.mapM (construct _)) hpending).trans hms
  · rw [if_neg hmutations, hfields, hslices]
    exact ⟨Nat.one_ne_zero, timestamp, bytes, hbytes, rfl, rfl⟩

theorem journal_exported {m : Semantics memorySignature Exn MemoryStore}
    {y : Semantics syncSignature Exn SyncStore} {disk : Semantics diskSignature Exn Disk}
    (served : Served m y disk) {count : Nat} (hcount : 0 < count) {bytes : List (List UInt8)}
    (hbytes : bytes.length = count) :
    (svc.exportIncremental 1 false).Runs (World.both (Store.both m y) disk) (journalWorld count)
      (.ok (exportedChunks "mutation" 0 0 count))
      (svc.incremented 1 false 0 bytes (journal count) (journalWorld count)) := by
  have hlength : (journal count).length = count := by
    simp [journal]
  have hsince : (journalWorld count).sync.mutationsSince 0 = journal count := by
    apply List.filter_eq_self.mpr
    intro f hf
    obtain ⟨i, -, rfl⟩ := List.mem_map.mp hf
    simp
  have hvalid : ∀ f ∈ journal count, f.postInit = .ok () := by
    intro f hf
    obtain ⟨i, -, rfl⟩ := List.mem_map.mp hf
    rfl
  have hne : journal count ≠ [] := by
    intro hnil
    rw [hnil] at hlength
    simp at hlength
    omega
  have h := exportIncremental_pending svc served hsince hne hvalid false 0
    (hbytes.trans hlength.symm)
  rw [hlength] at h
  exact h

/-- A digest that tells all bytes apart. -/
def plainService : SyncService where
  self := 0
  repository := { lower := id }
  sha256 := fun bytes => String.ofList (bytes.map Char.ofUInt8)

theorem plainService_sha256_injective : Function.Injective plainService.sha256 := by
  have hchar : Function.Injective Char.ofUInt8 := by
    intro a b h
    exact UInt8.toUInt32_inj.mp (congrArg Char.val h)
  intro a b h
  exact hchar.list_map (String.ofList_injective h)

/-- Only the thousandth chunk and the one after it hold anything. -/
def lastByte (i : Nat) : Option UInt8 := if i = 999 then some 0 else if i = 1000 then some 1 else none

theorem lastByte_eq_some {i : Nat} {b : UInt8} (h : lastByte i = some b) :
    i = 999 ∧ b = 0 ∨ i = 1000 ∧ b = 1 := by
  unfold lastByte at h
  split_ifs at h with hi hi'
  · exact .inl ⟨hi, (Option.some.inj h).symm⟩
  · exact .inr ⟨hi', (Option.some.inj h).symm⟩

/-- The world after one chunk was written for each mutation of a journal. -/
def exportedJournal (count : Nat) : World :=
  plainService.incremented 1 false 0 ((List.range count).map fun i => (lastByte i).toList) (journal count) (journalWorld count)

theorem exportedJournal_runs {m : Semantics memorySignature Exn MemoryStore}
    {y : Semantics syncSignature Exn SyncStore} {disk : Semantics diskSignature Exn Disk}
    (served : Served m y disk) {count : Nat} (hcount : 0 < count) :
    (plainService.export 1 (.incremental false)).Runs (World.both (Store.both m y) disk)
      (journalWorld count) (.ok (exportedChunks "mutation" 0 0 count)) (exportedJournal count) :=
  journal_exported served hcount (by simp)

theorem exportedJournal_manifested (count : Nat) :
    Manifested plainService "mutation" 0 (exportedChunks "mutation" 0 0 count)
      (exportedJournal count).disk := by
  have hslices : (slices 1 (journal count)).length = count := by
    simp [slices, journal]
  have h := written_manifested plainService "mutation" 0 (journal count).length
    (((slices 1 (journal count)).map (·.map mutationLine)).zip ((List.range count).map fun i => (lastByte i).toList))
    (journalWorld count).disk
  rw [List.length_zip, List.length_map, List.length_map, List.length_range, hslices, min_self] at h
  exact ⟨h.named, h.manifest⟩

theorem exportedJournal_bytes {count i : Nat} (hi : i < count) :
    ((exportedJournal count).disk.chunks (chunkId "mutation" 0 i)).elim [] (·.bytes) =
      (lastByte i).toList := by
  have hslices : (slices 1 (journal count)).length = count := by
    simp [slices, journal]
  have hlength : i < (((slices 1 (journal count)).map (·.map mutationLine)).zip
      ((List.range count).map fun i => (lastByte i).toList)).length := by
    simp [hslices, hi]
  have h := setChunks_get "mutation" 0 0 (journalWorld count).disk hlength
  rw [Nat.zero_add] at h
  refine (congrArg (Option.elim · [] (·.bytes)) h).trans ?_
  simp

/-- A chunk for each of a thousand mutations: the export's own manifest accepts them. -/
theorem export_validates_thousand :
    ∃ timestamp, Manifested plainService "mutation" timestamp (exportedChunks "mutation" 0 0 1000)
        (exportedJournal 1000).disk ∧
      ∀ v : World, Unchanged (exportedChunks "mutation" 0 0 1000) (manifestName timestamp)
        (exportedJournal 1000).disk v.disk →
        (plainService.validateManifest (exportedChunks "mutation" 0 0 1000)
            (some (manifestName timestamp))).Runs World.serve v (.ok true) v := by
  have hlength : (exportedChunks "mutation" 0 0 1000).length = 1000 := length_exportedChunks ..
  have hne : exportedChunks "mutation" 0 0 1000 ≠ [] := by
    intro hnil
    rw [hnil] at hlength
    cases hlength
  obtain ⟨timestamp, hmanifested, hvalidates⟩ := @export_validates_iff _ _ _ (.incremental false) _ _
    (exportedJournal_runs served_step (by decide)) hne
  refine ⟨timestamp, hmanifested, fun v hunchanged => (hvalidates v hunchanged).mpr (.inl ?_)⟩
  exact hlength.le

theorem exportedJournal_bytesOf {count : Nat} {paths : List String}
    (hpaths : ∀ c ∈ paths, c ∈ exportedChunks "mutation" 0 0 count) {indices : List Nat}
    (hindices : paths = indices.map (chunkId "mutation" 0)) :
    (exportedJournal count).disk.bytesOf paths = indices.filterMap lastByte := by
  subst hindices
  rw [Disk.bytesOf, List.flatMap_map, List.filterMap_eq_flatMap_toList]
  apply List.flatMap_congr
  intro i hi
  obtain ⟨j, hj, h⟩ := mem_exportedChunks.mp (hpaths _ (List.mem_map_of_mem hi))
  rw [Nat.zero_add] at h
  rw [h, exportedJournal_bytes hj, chunkId_injective _ _ h]

/-- A chunk for each of a thousand and one mutations: the export's own manifest refuses them. -/
theorem thousand_and_one_chunks_refused :
    (plainService.export 1 (.incremental false)).Runs World.serve (journalWorld 1001)
        (.ok (exportedChunks "mutation" 0 0 1001)) (exportedJournal 1001) ∧
      Manifested plainService "mutation" 0 (exportedChunks "mutation" 0 0 1001)
        (exportedJournal 1001).disk ∧
      ¬ (plainService.validateManifest (exportedChunks "mutation" 0 0 1001)
        (some (manifestName 0))).Runs World.serve (exportedJournal 1001) (.ok true)
        (exportedJournal 1001) := by
  have hmanifested := exportedJournal_manifested 1001
  refine ⟨exportedJournal_runs served_serve (by decide), hmanifested, fun hrun => ?_⟩
  obtain ⟨total, hmanifest⟩ := hmanifested.manifest
  obtain ⟨-, -, hdigest⟩ := (validateManifest_ok served_serve hmanifest).mp hrun
  have hbytes := plainService_sha256_injective hdigest
  -- the order of the files, as an order of their indices
  let before : Nat → Nat → Prop := fun i j =>
    (chunkFile (chunkId "mutation" 0 i)).toList ≤ (chunkFile (chunkId "mutation" 0 j)).toList
  have hindices : sortedChunks (exportedChunks "mutation" 0 0 1001) =
      ((List.range' 0 1001).insertionSort before).map (chunkId "mutation" 0) :=
    (List.map_insertionSort _ _ (chunkId "mutation" 0) _ fun _ _ _ _ => Iff.rfl).symm
  rw [exportedJournal_bytesOf (fun c hc => mem_sortedChunks.mp hc) hindices,
    exportedJournal_bytesOf (fun c hc => hc) rfl] at hbytes
  have hgenerated : (List.range' 0 1001).filterMap lastByte = [0, 1] := by decide +kernel
  rw [hgenerated] at hbytes
  have : Std.Total before := ⟨fun i j => le_total (chunkFile (chunkId "mutation" 0 i)).toList _⟩
  have : IsTrans Nat before := ⟨fun _ _ _ h h' => le_trans h h'⟩
  have hsorted := List.pairwise_insertionSort before (List.range' 0 1001)
  have hdescending : (((List.range' 0 1001).insertionSort before).filterMap lastByte).Pairwise (· ≥ ·) := by
    refine List.pairwise_filterMap.mpr (hsorted.imp fun {i j} hbefore a ha b hb => ?_)
    obtain ⟨rfl, rfl⟩ | ⟨rfl, rfl⟩ := lastByte_eq_some ha <;>
      obtain ⟨rfl, rfl⟩ | ⟨rfl, rfl⟩ := lastByte_eq_some hb
    · decide
    · exact absurd (chunk_1000_before_999 "mutation" 0) (not_lt_of_ge hbefore)
    · decide
    · decide
  rw [hbytes] at hdescending
  exact absurd hdescending (by decide)

end Exports

end ForkAgent.Sync

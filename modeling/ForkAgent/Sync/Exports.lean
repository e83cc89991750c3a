import ForkAgent.Sync.Runs

/-!
# What an export does

An export that succeeds has written its chunks and the manifest over their bytes, and set the
watermark if it was to do so.
-/

namespace ForkAgent.Sync

open Effects Storage Memory

section Slices

variable {α : Type}

theorem flatten_take_drop (n k : Nat) (items : List α) :
    ((List.range k).map fun i => (items.drop (i * n)).take n).flatten = items.take (k * n) := by
  induction k with
  | zero => simp
  | succ k ih =>
    rw [List.range_succ, List.map_append, List.flatten_append, ih, Nat.add_mul, Nat.one_mul,
      List.take_add]
    simp

theorem slices_flatten {n : Nat} (hn : n ≠ 0) (items : List α) : (slices n items).flatten = items := by
  rw [slices, flatten_take_drop]
  apply List.take_of_length_le
  have hdiv := Nat.div_add_mod (items.length + n - 1) n
  have hmod := Nat.mod_lt (items.length + n - 1) (Nat.pos_of_ne_zero hn)
  rw [Nat.mul_comm]
  omega

theorem ne_nil_of_mem_slices {n : Nat} {items batch : List α} (h : batch ∈ slices n items) :
    batch ≠ [] := by
  obtain ⟨i, hi, rfl⟩ := List.mem_map.mp h
  rw [List.mem_range] at hi
  have hn : 0 < n := by
    apply Nat.pos_of_ne_zero
    rintro rfl
    simp at hi
  have hbound := (Nat.lt_div_iff_mul_lt hn).mp hi
  apply List.ne_nil_of_length_pos
  rw [List.length_take, List.length_drop]
  omega

theorem slices_map {β : Type} (f : α → β) (n : Nat) (items : List α) :
    slices n (items.map f) = (slices n items).map (·.map f) := by
  simp [slices, Function.comp_def]

end Slices

section Chunks

theorem pad3_injective : Function.Injective pad3 := by
  have value : ∀ index, Nat.ofDigitChars 10 (pad3 index) 0 = index := by
    intro index
    rw [pad3, List.leftpad, Nat.ofDigitChars_append, Nat.ofDigitChars_replicate_zero, Nat.mul_zero]
    exact Nat.ofDigitChars_ten_toDigits
  intro i j h
  rw [← value i, h, value j]

theorem chunkId_injective (kind : String) (timestamp : Nat) :
    Function.Injective (chunkId kind timestamp) := by
  intro i j h
  apply pad3_injective
  apply String.ofList_injective
  exact String.append_right_inj _ |>.mp h

theorem toDigits_injective : Function.Injective (Nat.toDigits 10) := by
  intro i j h
  rw [← Nat.ofDigitChars_ten_toDigits (n := i), h, Nat.ofDigitChars_ten_toDigits]

theorem underscore_notMem_pad3 (index : Nat) : '_' ∉ pad3 index := by
  rw [pad3, List.leftpad, List.mem_append, List.mem_replicate]
  rintro (⟨-, h⟩ | h)
  · exact absurd h (by decide)
  · exact Nat.underscore_not_in_toDigits h

theorem chunkId_timestamp {kind : String} {timestamp timestamp' i j : Nat}
    (h : chunkId kind timestamp i = chunkId kind timestamp' j) : timestamp = timestamp' := by
  have hlist := congrArg String.toList h
  simp only [chunkId, toString, String.toList_append, String.toList_ofList, Nat.toList_repr,
    List.append_assoc, List.append_cancel_left_eq] at hlist
  have hdigits := (List.append_cons_inj_of_notMem Nat.underscore_not_in_toDigits
    (underscore_notMem_pad3 i)).mp hlist
  exact toDigits_injective hdigits.1

theorem manifestName_injective : Function.Injective manifestName := by
  intro t t' h
  apply toDigits_injective
  have hlist := congrArg String.toList h
  simpa [manifestName, toString] using hlist

theorem length_exportedChunks (kind : String) (timestamp index count : Nat) :
    (exportedChunks kind timestamp index count).length = count := by
  simp [exportedChunks]

theorem mem_exportedChunks {kind : String} {timestamp index count : Nat} {c : String} :
    c ∈ exportedChunks kind timestamp index count ↔
      ∃ i < count, c = chunkId kind timestamp (index + i) := by
  simp only [exportedChunks, List.mem_map, List.mem_range'_1]
  constructor
  · rintro ⟨i, ⟨hle, hlt⟩, rfl⟩
    refine ⟨i - index, by omega, ?_⟩
    congr 1
    omega
  · rintro ⟨i, hi, rfl⟩
    exact ⟨index + i, by omega, rfl⟩

theorem exportedChunks_nodup (kind : String) (timestamp index count : Nat) :
    (exportedChunks kind timestamp index count).Nodup :=
  List.Nodup.map (chunkId_injective kind timestamp) List.nodup_range'

variable {kind : String} {timestamp index : Nat} {files : List (List JsonObject × List UInt8)}

theorem setChunks_manifests (d : Disk) :
    (d.setChunks kind timestamp index files).manifests = d.manifests := by
  induction files generalizing index d with
  | nil => rfl
  | cons file files ih => exact ih _

theorem setChunks_other (d : Disk) {c : String}
    (hc : c ∉ exportedChunks kind timestamp index files.length) :
    (d.setChunks kind timestamp index files).chunks c = d.chunks c := by
  induction files generalizing index d with
  | nil => rfl
  | cons file files ih =>
    simp only [mem_exportedChunks, not_exists, not_and, List.length_cons] at hc
    refine (ih _ ?_).trans ?_
    · rw [mem_exportedChunks]
      rintro ⟨i, hi, rfl⟩
      exact hc (i + 1) (by omega) (by congr 1; omega)
    · exact Function.update_of_ne (hc 0 (by omega)) _ _

theorem setChunks_get (kind : String) (timestamp index : Nat) (d : Disk) {i : Nat} (hi : i < files.length) :
    (d.setChunks kind timestamp index files).chunks (chunkId kind timestamp (index + i)) =
      some ⟨files[i].1.map fun fields => some (.obj fields), files[i].2⟩ := by
  induction files generalizing index d i with
  | nil => cases hi
  | cons file files ih =>
    let d₁ := d.setChunk (chunkId kind timestamp index)
      (some ⟨file.1.map fun fields => some (.obj fields), file.2⟩)
    cases i with
    | zero =>
      have hfresh : chunkId kind timestamp index ∉
          exportedChunks kind timestamp (index + 1) files.length := by
        rw [mem_exportedChunks]
        rintro ⟨j, hj, h⟩
        have := chunkId_injective kind timestamp h
        omega
      exact (setChunks_other d₁ hfresh).trans (Function.update_self _ _ _)
    | succ i =>
      have hnext := @ih (index + 1) d₁ i (Nat.lt_of_succ_lt_succ hi)
      rw [show index + 1 + i = index + (i + 1) by omega] at hnext
      exact hnext

end Chunks

namespace SyncService

variable (svc : SyncService) {w u : World}
variable {m : Semantics memorySignature Exn MemoryStore} {y : Semantics syncSignature Exn SyncStore}
variable {disk : Semantics diskSignature Exn Disk} (served : Served m y disk)

/-- The directory after an export wrote its chunks and its manifest. -/
def written (kind : String) (timestamp total : Nat) (files : List (List JsonObject × List UInt8))
    (d : Disk) : Disk :=
  let d₁ := d.setChunks kind timestamp 0 files
  d₁.setManifest (manifestName timestamp) (some (some (.obj (svc.manifest files.length total timestamp
    (d₁.bytesOf (exportedChunks kind timestamp 0 files.length))))))

/-- The sequence number that an incremental export reaches. -/
def reachedSeq (chunkSize since : Nat) (mutations : List SyncMutationFields) : Nat :=
  (slices chunkSize mutations).foldl (fun _ batch => maxSeq 0 batch) since

/-- The world after an incremental export of those mutations. -/
def incremented (chunkSize : Nat) (commitWatermark : Bool) (timestamp : Nat)
    (bytes : List (List UInt8)) (mutations : List SyncMutationFields) (w : World) : World :=
  let lines := (slices chunkSize mutations).map (·.map mutationLine)
  let seq := reachedSeq chunkSize w.sync.syncStatus.lastExportSeq mutations
  let sync := if commitWatermark then w.sync.updateStatus (some (timestamp : Int)) none (some seq) else w.sync
  ((w.1.1, sync), (svc.written "mutation" timestamp mutations.length (lines.zip bytes) w.disk).setLastExport
    svc.self ⟨seq, timestamp⟩)

section

include served

theorem writeManifest_ok {chunkIds : List String} {total timestamp : Nat} :
    (svc.writeManifest chunkIds total timestamp).Runs (World.both (Store.both m y) disk) w (.ok ()) u ↔
      (∀ c ∈ chunkIds, (w.disk.chunks c).isSome) ∧
        u = w.withDisk (w.disk.setManifest (manifestName timestamp) (some (some (.obj
          (svc.manifest chunkIds.length total timestamp (w.disk.bytesOf chunkIds)))))) := by
  refine runs_bind_ok.trans ?_
  constructor
  · rintro ⟨bytes, v, hread, hwrite⟩
    obtain ⟨hall, rfl, rfl⟩ := (readChunks_ok served).mp hread
    obtain ⟨d, ⟨-, rfl⟩, rfl⟩ := (diskCall_ok served rfl).mp hwrite
    exact ⟨hall, rfl⟩
  · rintro ⟨hall, rfl⟩
    exact ⟨_, _, (readChunks_ok served).mpr ⟨hall, rfl, rfl⟩,
      (diskCall_ok served rfl).mpr ⟨_, ⟨rfl, rfl⟩, rfl⟩⟩

/-- Chunks and manifest are written, and the rest of the export goes on. -/
theorem writeExport_ok {α : Type} {kind : String} {timestamp total : Nat}
    {lines : List (List JsonObject)} {k : List String → SyncProgram α} {a : α} :
    (do let chunkIds ← writeChunks kind timestamp 0 lines
        svc.writeManifest chunkIds total timestamp
        k chunkIds).Runs (World.both (Store.both m y) disk) w (.ok a) u ↔
      ∃ bytes : List (List UInt8), bytes.length = lines.length ∧
        (k (exportedChunks kind timestamp 0 lines.length)).Runs (World.both (Store.both m y) disk)
          (w.withDisk (svc.written kind timestamp total (lines.zip bytes) w.disk)) (.ok a) u := by
  have hwritten : ∀ bytes : List (List UInt8), bytes.length = lines.length →
      (svc.writeManifest (exportedChunks kind timestamp 0 lines.length) total timestamp).Runs
        (World.both (Store.both m y) disk)
        (w.withDisk (w.disk.setChunks kind timestamp 0 (lines.zip bytes))) (.ok ())
        (w.withDisk (svc.written kind timestamp total (lines.zip bytes) w.disk)) := by
    intro bytes hlength
    have hzip : (lines.zip bytes).length = lines.length := by simp [hlength]
    refine (svc.writeManifest_ok served).mpr ⟨?_, ?_⟩
    · intro c hc
      obtain ⟨i, hi, rfl⟩ := mem_exportedChunks.mp hc
      rw [World.disk, World.withDisk, setChunks_get _ _ _ w.disk (hzip.symm ▸ hi)]
      rfl
    · rw [written, hzip, length_exportedChunks]
      rfl
  refine runs_bind_ok.trans ?_
  constructor
  · rintro ⟨chunkIds, v, hchunks, hrest⟩
    obtain ⟨rfl, bytes, hlength, rfl⟩ := (writeChunks_ok served).mp hchunks
    obtain ⟨_, x, hmanifest, hrest⟩ := runs_bind_ok.mp hrest
    have hx := ((svc.writeManifest_ok served).mp hmanifest).2
    have hx' := ((svc.writeManifest_ok served).mp (hwritten bytes hlength)).2
    obtain rfl := hx.trans hx'.symm
    exact ⟨bytes, hlength, hrest⟩
  · rintro ⟨bytes, hlength, hrest⟩
    refine ⟨_, _, (writeChunks_ok served).mpr ⟨rfl, bytes, hlength, rfl⟩, ?_⟩
    exact runs_bind_ok.mpr ⟨(), _, hwritten bytes hlength, hrest⟩

theorem getLastExport_ok {last : LastExport} :
    (diskCall (.getLastExport svc.self)).Runs (World.both (Store.both m y) disk) w (.ok last) u ↔
      last = w.disk.lastExports svc.self ∧ u = w := by
  refine (diskCall_ok served rfl).trans ?_
  constructor
  · rintro ⟨d, ⟨rfl, h⟩, rfl⟩
    exact ⟨Except.ok.inj h, rfl⟩
  · rintro ⟨rfl, rfl⟩
    exact ⟨_, ⟨rfl, rfl⟩, rfl⟩

theorem setLastExport_ok {last : LastExport} :
    (svc.setLastExport last).Runs (World.both (Store.both m y) disk) w (.ok ()) u ↔
      u = w.withDisk (w.disk.setLastExport svc.self last) := by
  refine (diskCall_ok served rfl).trans ?_
  constructor
  · rintro ⟨d, ⟨-, rfl⟩, rfl⟩
    rfl
  · rintro rfl
    exact ⟨_, ⟨rfl, rfl⟩, rfl⟩

theorem exportMutations_ok {chunkSize : Nat} {commitWatermark : Bool}
    {mutations : List SyncMutationFields} {paths : List String} :
    (svc.exportMutations chunkSize commitWatermark w.sync.syncStatus.lastExportSeq mutations).Runs
        (World.both (Store.both m y) disk) w (.ok paths) u ↔
      chunkSize ≠ 0 ∧ ∃ (timestamp : Nat) (bytes : List (List UInt8)),
        bytes.length = (slices chunkSize mutations).length ∧
        paths = exportedChunks "mutation" timestamp 0 (slices chunkSize mutations).length ∧
        u = svc.incremented chunkSize commitWatermark timestamp bytes mutations w := by
  refine runs_bind_ok.trans ?_
  constructor
  · rintro ⟨timestamp, v, htime, hrest⟩
    obtain rfl := (timeMs_ok served).mp htime
    by_cases hsize : chunkSize = 0
    · rw [if_pos hsize] at hrest
      cases hrest.1
    · rw [if_neg hsize] at hrest
      obtain ⟨bytes, hlength, hrest⟩ := (svc.writeExport_ok served).mp hrest
      rw [List.length_map] at hlength hrest
      obtain ⟨_, x, hset, hrest⟩ := runs_bind_ok.mp hrest
      obtain rfl := (svc.setLastExport_ok served).mp hset
      obtain ⟨_, x, hcommit, hret⟩ := runs_bind_ok.mp hrest
      obtain ⟨hpaths, rfl⟩ := runs_return.mp hret
      refine ⟨hsize, timestamp, bytes, hlength, Except.ok.inj hpaths, ?_⟩
      cases commitWatermark with
      | false => exact (runs_return.mp hcommit).2
      | true => exact (updateStatus_ok served).mp hcommit
  · rintro ⟨hsize, timestamp, bytes, hlength, rfl, rfl⟩
    refine ⟨timestamp, w, (timeMs_ok served).mpr rfl, ?_⟩
    rw [if_neg hsize]
    refine (svc.writeExport_ok served).mpr ⟨bytes, by rwa [List.length_map], ?_⟩
    rw [List.length_map]
    refine runs_bind_ok.mpr ⟨(), _, (svc.setLastExport_ok served).mpr rfl, ?_⟩
    refine runs_bind_ok.mpr ⟨(), _, ?_, runs_return.mpr ⟨rfl, rfl⟩⟩
    cases commitWatermark with
    | false => exact runs_return.mpr ⟨rfl, rfl⟩
    | true => exact (updateStatus_ok served).mpr rfl

theorem exportPending_ok {chunkSize : Nat} {commitWatermark : Bool} {mutations : List SyncMutation}
    {paths : List String} :
    (svc.exportPending chunkSize commitWatermark w.sync.syncStatus.lastExportSeq mutations).Runs
        (World.both (Store.both m y) disk) w (.ok paths) u ↔
      if mutations = [] then
        paths = [] ∧ u = w.withDisk (w.disk.setLastExport svc.self
          { w.disk.lastExports svc.self with maxSeq := 0 })
      else chunkSize ≠ 0 ∧ ∃ (timestamp : Nat) (bytes : List (List UInt8)),
        bytes.length = (slices chunkSize (mutations.map (·.val))).length ∧
        paths = exportedChunks "mutation" timestamp 0 (slices chunkSize (mutations.map (·.val))).length ∧
        u = svc.incremented chunkSize commitWatermark timestamp bytes (mutations.map (·.val)) w := by
  unfold exportPending
  by_cases hempty : mutations = []
  · rw [if_pos hempty, if_pos hempty]
    refine runs_bind_ok.trans ?_
    constructor
    · rintro ⟨last, v, hlast, hrest⟩
      obtain ⟨rfl, rfl⟩ := (svc.getLastExport_ok served).mp hlast
      obtain ⟨_, v, hset, hret⟩ := runs_bind_ok.mp hrest
      obtain rfl := (svc.setLastExport_ok served).mp hset
      obtain ⟨hpaths, rfl⟩ := runs_return.mp hret
      exact ⟨Except.ok.inj hpaths, rfl⟩
    · rintro ⟨rfl, rfl⟩
      refine ⟨_, _, (svc.getLastExport_ok served).mpr ⟨rfl, rfl⟩, ?_⟩
      exact runs_bind_ok.mpr ⟨(), _, (svc.setLastExport_ok served).mpr rfl, runs_return.mpr ⟨rfl, rfl⟩⟩
  · rw [if_neg hempty, if_neg hempty]
    exact svc.exportMutations_ok served

/-- An incremental export that succeeds has read the journal past the watermark, and either found
nothing there or written all of it. -/
theorem exportIncremental_ok {chunkSize : Nat} {commitWatermark : Bool} {paths : List String} :
    (svc.exportIncremental chunkSize commitWatermark).Runs (World.both (Store.both m y) disk) w
        (.ok paths) u ↔
      ∃ mutations : List SyncMutation,
        (w.sync.mutationsSince w.sync.syncStatus.lastExportSeq).mapM (construct _) = .ok mutations ∧
        if mutations = [] then
          paths = [] ∧ u = w.withDisk (w.disk.setLastExport svc.self
            { w.disk.lastExports svc.self with maxSeq := 0 })
        else chunkSize ≠ 0 ∧ ∃ (timestamp : Nat) (bytes : List (List UInt8)),
          bytes.length = (slices chunkSize (mutations.map (·.val))).length ∧
          paths = exportedChunks "mutation" timestamp 0 (slices chunkSize (mutations.map (·.val))).length ∧
          u = svc.incremented chunkSize commitWatermark timestamp bytes (mutations.map (·.val)) w := by
  refine runs_bind_ok.trans ?_
  constructor
  · rintro ⟨status, v, hstatus, hread⟩
    obtain ⟨rfl, rfl⟩ := (getStatus_ok served).mp hstatus
    obtain ⟨mutations, v, hread, hrun⟩ := runs_bind_ok.mp hread
    obtain ⟨hmutations, rfl⟩ := (getMutationsSince_ok served).mp hread
    exact ⟨mutations, hmutations, (svc.exportPending_ok served).mp hrun⟩
  · rintro ⟨mutations, hmutations, hcases⟩
    refine ⟨_, w, (getStatus_ok served).mpr ⟨rfl, rfl⟩, ?_⟩
    refine runs_bind_ok.mpr ⟨mutations, w, (getMutationsSince_ok served).mpr ⟨hmutations, rfl⟩, ?_⟩
    exact (svc.exportPending_ok served).mpr hcases

theorem getAll_ok {observations : List Observation} :
    (onStore (svc.repository.getAll none none none none)).Runs (World.both (Store.both m y) disk) w
        (.ok observations) u ↔
      (∃ rows, MemoryStore.Listing w.rows rows ∧ rows.mapM rowToObservation = .ok observations) ∧
        u = w := by
  refine (onStore_runs.trans (and_congr_left' ObservationRepository.readRows_runs)).trans ?_
  constructor
  · rintro ⟨⟨e, -, h⟩ | ⟨rows, hrun, hread⟩, hdisk⟩
    · cases h
    · obtain ⟨hstep, hsync⟩ := memoryCall_runs.mp hrun
      obtain ⟨hmemory, rows', hlisting, heq⟩ := served.memory.mp hstep
      cases heq
      refine ⟨⟨rows', ?_, hread.symm⟩, Prod.ext (Prod.ext hmemory hsync) hdisk⟩
      simpa [MemoryStore.matchesFilter, ObservationRepository.projectFilter, normalizeProject,
        World.rows] using hlisting
  · rintro ⟨⟨rows, hlisting, hread⟩, rfl⟩
    refine ⟨.inr ⟨rows, memoryCall_runs.mpr ⟨served.memory.mpr ⟨rfl, rows, ?_, rfl⟩, rfl⟩, hread.symm⟩, rfl⟩
    simpa [MemoryStore.matchesFilter, ObservationRepository.projectFilter, normalizeProject,
      World.rows] using hlisting

/-- The observations that the journal past the watermark amounts to. -/
def Reconstructed (project : Option String) (w : World) (observations : List Observation)
    (exportMaxSeq : Option Nat) : Prop :=
  ∃ (mutations : List SyncMutation) (read : List (Option Observation)),
    (w.sync.mutationsSince w.sync.syncStatus.lastExportSeq).mapM (construct _) = .ok mutations ∧
    ((mutations.map (·.val)).foldl (replayMutation project) []).mapM reconstructObservation = .ok read ∧
    observations = read.filterMap id ∧
    exportMaxSeq = some (maxSeq w.sync.syncStatus.lastExportSeq (mutations.map (·.val)))

/-- The observations of the table. -/
def Dumped (project : Option String) (w : World) (observations : List Observation)
    (exportMaxSeq : Option Nat) : Prop :=
  ∃ (rows : List ObservationRow) (all : List Observation), MemoryStore.Listing w.rows rows ∧
    rows.mapM rowToObservation = .ok all ∧
    observations = (if truthy project then all.filter fun o => o.val.project == project else all) ∧
    exportMaxSeq = none

/-- What an export of observations sets out to write, and the sequence number that it reaches. -/
def Changed (project : Option String) (w : World) (observations : List Observation)
    (exportMaxSeq : Option Nat) : Prop :=
  if 0 < w.sync.syncStatus.lastExportSeq then Reconstructed project w observations exportMaxSeq
  else Dumped project w observations exportMaxSeq

theorem changedObservations_ok {project : Option String} {observations : List Observation}
    {exportMaxSeq : Option Nat} :
    (svc.changedObservations project w.sync.syncStatus.lastExportSeq).Runs
        (World.both (Store.both m y) disk) w (.ok (observations, exportMaxSeq)) u ↔
      Changed project w observations exportMaxSeq ∧ u = w := by
  unfold changedObservations Changed
  by_cases hsince : 0 < w.sync.syncStatus.lastExportSeq
  · rw [if_pos hsince, if_pos hsince]
    constructor
    · intro hrun
      obtain ⟨⟨read, seq⟩, v, hrun, hret⟩ := runs_bind_ok.mp hrun
      obtain ⟨mutations, v, hread, hrest⟩ := runs_bind_ok.mp hrun
      obtain ⟨hmutations, rfl⟩ := (getMutationsSince_ok served).mp hread
      obtain ⟨os, v, hos, hret'⟩ := runs_bind_ok.mp hrest
      obtain ⟨hos, rfl⟩ := Program.runs_ofExcept.mp hos
      obtain ⟨h, rfl⟩ := runs_return.mp hret'
      obtain ⟨h', rfl⟩ := runs_return.mp hret
      cases h
      cases h'
      exact ⟨⟨mutations, os, hmutations, hos.symm, rfl, rfl⟩, rfl⟩
    · rintro ⟨⟨mutations, read, hmutations, hread, rfl, rfl⟩, rfl⟩
      refine runs_bind_ok.mpr ⟨(read.filterMap id, _), _, runs_bind_ok.mpr ⟨mutations, _,
        (getMutationsSince_ok served).mpr ⟨hmutations, rfl⟩, ?_⟩, runs_return.mpr ⟨rfl, rfl⟩⟩
      exact runs_bind_ok.mpr ⟨read, _, Program.runs_ofExcept.mpr ⟨hread.symm, rfl⟩, rfl, rfl⟩
  · rw [if_neg hsince, if_neg hsince]
    constructor
    · intro hrun
      obtain ⟨all, v, hrun, hret⟩ := runs_bind_ok.mp hrun
      obtain ⟨⟨rows, hlisting, hread⟩, rfl⟩ := (svc.getAll_ok served).mp hrun
      obtain ⟨h, rfl⟩ := runs_return.mp hret
      cases h
      exact ⟨⟨rows, all, hlisting, hread, rfl, rfl⟩, rfl⟩
    · rintro ⟨⟨rows, all, hlisting, hread, rfl, rfl⟩, rfl⟩
      exact runs_bind_ok.mpr ⟨all, _, (svc.getAll_ok served).mpr ⟨⟨rows, hlisting, hread⟩, rfl⟩, rfl, rfl⟩

/-- The chunks of the observations, in their order of time. -/
def observationLines (chunkSize : Nat) (observations : List Observation) : List (List JsonObject) :=
  slices chunkSize ((byTimestamp observations).map fun o => observationLine o.val)

/-- The world after an export of those observations. -/
def exported (chunkSize timestamp : Nat) (bytes : List (List UInt8)) (observations : List Observation)
    (exportMaxSeq : Option Nat) (w : World) : World :=
  ((w.1.1, w.sync.updateStatus (some (timestamp : Int)) none
      (some (exportMaxSeq.getD w.sync.latestSeq))),
    svc.written "sync" timestamp observations.length
      ((observationLines chunkSize observations).zip bytes) w.disk)

theorem watermarkSeq_ok {exportMaxSeq : Option Nat} {seq : Nat} :
    (watermarkSeq exportMaxSeq).Runs (World.both (Store.both m y) disk) w (.ok seq) u ↔
      seq = exportMaxSeq.getD w.sync.latestSeq ∧ u = w := by
  cases exportMaxSeq with
  | none => exact getLatestSeq_ok served
  | some n =>
    refine runs_return.trans (and_congr_left' ?_)
    simp

theorem writeObservations_ok {chunkSize : Nat} {observations : List Observation}
    {exportMaxSeq : Option Nat} {paths : List String} :
    (svc.writeObservations chunkSize observations exportMaxSeq).Runs
        (World.both (Store.both m y) disk) w (.ok paths) u ↔
      chunkSize ≠ 0 ∧ ∃ (timestamp : Nat) (bytes : List (List UInt8)),
        bytes.length = (observationLines chunkSize observations).length ∧
        paths = exportedChunks "sync" timestamp 0 (observationLines chunkSize observations).length ∧
        u = svc.exported chunkSize timestamp bytes observations exportMaxSeq w := by
  unfold writeObservations
  split_ifs with hsize
  · simp [hsize]
  · refine runs_bind_ok.trans ?_
    constructor
    · rintro ⟨timestamp, v, htime, hrest⟩
      obtain rfl := (timeMs_ok served).mp htime
      obtain ⟨bytes, hlength, hrest⟩ := (svc.writeExport_ok served).mp hrest
      obtain ⟨seq, x, hseq, hrest⟩ := runs_bind_ok.mp hrest
      obtain ⟨rfl, rfl⟩ := (watermarkSeq_ok served).mp hseq
      obtain ⟨_, x, hstatus, hret⟩ := runs_bind_ok.mp hrest
      obtain rfl := (updateStatus_ok served).mp hstatus
      obtain ⟨hpaths, rfl⟩ := runs_return.mp hret
      exact ⟨hsize, timestamp, bytes, hlength, Except.ok.inj hpaths, rfl⟩
    · rintro ⟨-, timestamp, bytes, hlength, rfl, rfl⟩
      refine ⟨timestamp, w, (timeMs_ok served).mpr rfl, ?_⟩
      refine (svc.writeExport_ok served).mpr ⟨bytes, hlength, ?_⟩
      refine runs_bind_ok.mpr ⟨_, _, (watermarkSeq_ok served).mpr ⟨rfl, rfl⟩, ?_⟩
      exact runs_bind_ok.mpr ⟨(), _, (updateStatus_ok served).mpr rfl, runs_return.mpr ⟨rfl, rfl⟩⟩

/-- An export of observations that succeeds has found none to write, or written all of them. -/
theorem exportObservations_ok {project : Option String} {chunkSize : Nat} {paths : List String} :
    (svc.exportObservations project chunkSize).Runs (World.both (Store.both m y) disk) w
        (.ok paths) u ↔
      ∃ observations exportMaxSeq, Changed project w observations exportMaxSeq ∧
        if observations = [] then paths = [] ∧ u = w
        else chunkSize ≠ 0 ∧ ∃ (timestamp : Nat) (bytes : List (List UInt8)),
          bytes.length = (observationLines chunkSize observations).length ∧
          paths = exportedChunks "sync" timestamp 0 (observationLines chunkSize observations).length ∧
          u = svc.exported chunkSize timestamp bytes observations exportMaxSeq w := by
  have hrest : ∀ (observations : List Observation) (exportMaxSeq : Option Nat),
      (if observations = [] then return []
        else svc.writeObservations chunkSize observations exportMaxSeq).Runs
          (World.both (Store.both m y) disk) w (.ok paths) u ↔
        if observations = [] then paths = [] ∧ u = w
        else chunkSize ≠ 0 ∧ ∃ (timestamp : Nat) (bytes : List (List UInt8)),
          bytes.length = (observationLines chunkSize observations).length ∧
          paths = exportedChunks "sync" timestamp 0 (observationLines chunkSize observations).length ∧
          u = svc.exported chunkSize timestamp bytes observations exportMaxSeq w := by
    intro observations exportMaxSeq
    by_cases hempty : observations = []
    · rw [if_pos hempty, if_pos hempty]
      refine runs_return.trans (and_congr_left' ?_)
      simp
    · rw [if_neg hempty, if_neg hempty]
      exact svc.writeObservations_ok served
  refine runs_bind_ok.trans ?_
  constructor
  · rintro ⟨status, v, hstatus, hrun⟩
    obtain ⟨rfl, rfl⟩ := (getStatus_ok served).mp hstatus
    obtain ⟨⟨observations, exportMaxSeq⟩, v, hread, hwrite⟩ := runs_bind_ok.mp hrun
    obtain ⟨hchanged, rfl⟩ := (svc.changedObservations_ok served).mp hread
    exact ⟨observations, exportMaxSeq, hchanged, (hrest _ _).mp hwrite⟩
  · rintro ⟨observations, exportMaxSeq, hchanged, hcases⟩
    refine ⟨_, w, (getStatus_ok served).mpr ⟨rfl, rfl⟩, ?_⟩
    refine runs_bind_ok.mpr ⟨_, w, (svc.changedObservations_ok served).mpr ⟨hchanged, rfl⟩, ?_⟩
    exact (hrest _ _).mpr hcases

end

end SyncService

end ForkAgent.Sync

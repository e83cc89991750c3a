import ForkAgent.Sync.Manifest

/-!
# Export and import commands

Exports into one directory at distinct times, and the import of one of them. The import command
takes the first manifest of the directory by name, whichever export it belongs to.
-/

namespace ForkAgent.Sync

open Effects Storage Memory

/-- `sorted(...)` of the manifests of a directory. -/
def sortedManifests (names : List String) : List String :=
  names.insertionSort fun a b => a.toList ≤ b.toList

/-- The manifest that the import command validates against. -/
def findManifest (chunkIds : List String) : SyncProgram (Option String) :=
  if chunkIds = [] then return none
  else do
    let names : List String ← diskCall .globManifests
    return (sortedManifests names).head?

namespace SyncService

variable (svc : SyncService)

def exportCmd (project : Option String) (chunkSize : Nat) : SyncProgram (List String) :=
  svc.exportObservations project chunkSize

def importCmd (chunkIds : List String) (source : String) : SyncProgram Nat := do
  let manifestPath ← findManifest chunkIds
  svc.importObservations chunkIds source manifestPath

/-- What the import command does first. -/
def importCheck (chunkIds : List String) : SyncProgram Bool := do
  let manifestPath ← findManifest chunkIds
  svc.validateManifest chunkIds manifestPath

/-- The rest of an import. -/
def importRest (chunkIds : List String) (source : String) : SyncProgram Nat := do
  let timestamp ← timeMs
  let imported ← svc.importChunks source timestamp chunkIds
  if 0 < imported then do
    sync (.updateStatus none (some (timestamp : Int)) none)
    return imported
  else return imported

theorem importCmd_eq (chunkIds : List String) (source : String) :
    svc.importCmd chunkIds source = svc.importCheck chunkIds >>= fun _ => svc.importRest chunkIds source :=
  (Program.bind_assoc _ _ _).symm

end SyncService

/-- An export that wrote chunks: its time, and the chunks. -/
structure ExportRecord where
  timestamp : Nat
  paths : List String

/-- The exports into a directory that held no manifest, at distinct times. The database changes in
any way between them, and commands that write nothing leave the directory alone. -/
inductive Exports (svc : SyncService) : List ExportRecord → World → Prop where
  | start {w : World} (empty : ∀ name, w.disk.manifests name = none) : Exports svc [] w
  | database {history : List ExportRecord} {w : World} (s : Store) (before : Exports svc history w) :
      Exports svc history (s, w.disk)
  | export {history : List ExportRecord} {w u : World} {project : Option String} {chunkSize : Nat}
      {paths : List String} {timestamp : Nat} (before : Exports svc history w)
      (run : (svc.exportCmd project chunkSize).Runs World.step w (.ok paths) u) (wrote : paths ≠ [])
      (time : u.sync.syncStatus.lastExportAt = some (timestamp : Int))
      (distinct : ∀ e ∈ history, e.timestamp ≠ timestamp) :
      Exports svc (history ++ [⟨timestamp, paths⟩]) u

/-- What holds of the directory of a history of exports. -/
structure Kept (svc : SyncService) (history : List ExportRecord) (d : Disk) : Prop where
  manifested : ∀ e ∈ history, Manifested svc "sync" e.timestamp e.paths d
  wrote : ∀ e ∈ history, e.paths ≠ []
  manifests : ∀ name, (d.manifests name).isSome ↔ ∃ e ∈ history, name = manifestName e.timestamp

variable {svc : SyncService} {history : List ExportRecord} {w u : World}

theorem exportCmd_written {project : Option String} {chunkSize timestamp : Nat} {paths : List String}
    (run : (svc.exportCmd project chunkSize).Runs World.step w (.ok paths) u) (wrote : paths ≠ [])
    (time : u.sync.syncStatus.lastExportAt = some (timestamp : Int)) :
    ∃ (total : Nat) (files : List (List JsonObject × List UInt8)),
      paths = exportedChunks "sync" timestamp 0 files.length ∧
        u.disk = svc.written "sync" timestamp total files w.disk := by
  obtain ⟨os, seq, -, hcases⟩ := (svc.exportObservations_ok served_step).mp run
  by_cases hempty : os = []
  · rw [if_pos hempty] at hcases
    exact absurd hcases.1 wrote
  · rw [if_neg hempty] at hcases
    obtain ⟨-, timestamp', bytes, hlength, rfl, rfl⟩ := hcases
    obtain rfl : timestamp' = timestamp := by
      have htime : some (timestamp' : Int) = some (timestamp : Int) := time
      exact Int.ofNat.inj (Option.some.inj htime)
    refine ⟨os.length, (SyncService.observationLines chunkSize os).zip bytes, ?_, rfl⟩
    rw [List.length_zip, hlength, min_self]

theorem Manifested.written {kind : String} {timestamp timestamp' total : Nat} {paths : List String}
    {files : List (List JsonObject × List UInt8)} {d : Disk}
    (h : Manifested svc kind timestamp paths d) (hne : timestamp ≠ timestamp') :
    Manifested svc kind timestamp paths (svc.written kind timestamp' total files d) := by
  have hchunks : ∀ c ∈ paths, (svc.written kind timestamp' total files d).chunks c = d.chunks c := by
    intro c hc
    rw [h.named] at hc
    obtain ⟨i, -, rfl⟩ := mem_exportedChunks.mp hc
    apply setChunks_other
    intro hmem
    obtain ⟨j, -, hj⟩ := mem_exportedChunks.mp hmem
    exact hne (chunkId_timestamp hj)
  obtain ⟨total', hmanifest⟩ := h.manifest
  refine ⟨h.named, total', ?_⟩
  rw [bytesOf_congr hchunks, ← hmanifest]
  refine (Function.update_of_ne (manifestName_injective.ne hne) _ _).trans ?_
  exact congrFun (setChunks_manifests d) _

theorem Exports.kept (h : Exports svc history w) : Kept svc history w.disk := by
  induction h with
  | start empty =>
    refine ⟨by simp, by simp, fun name => ?_⟩
    simp [empty name]
  | database s before ih => exact ih
  | @«export» history w u project chunkSize paths timestamp before run wrote time distinct ih =>
    obtain ⟨total, files, rfl, hdisk⟩ := exportCmd_written run wrote time
    rw [hdisk]
    refine ⟨?_, ?_, fun name => ?_⟩
    · rw [List.forall_mem_append, List.forall_mem_singleton]
      refine ⟨fun e he => (ih.manifested e he).written (distinct e he), ?_⟩
      exact written_manifested svc "sync" timestamp total files w.disk
    · rw [List.forall_mem_append, List.forall_mem_singleton]
      exact ⟨ih.wrote, wrote⟩
    · simp only [List.mem_append, List.mem_singleton, or_and_right, exists_or, exists_eq_left]
      by_cases hname : name = manifestName timestamp
      · subst hname
        refine iff_of_true ?_ (.inr rfl)
        exact Option.isSome_of_eq_some (Function.update_self (manifestName timestamp) _ _)
      · have hkept : (svc.written "sync" timestamp total files w.disk).manifests name =
            w.disk.manifests name :=
          (Function.update_of_ne hname _ _).trans (congrFun (setChunks_manifests w.disk) name)
        rw [hkept, ih.manifests]
        exact (or_iff_left hname).symm

/-- The export whose manifest sorts first. -/
structure First (history : List ExportRecord) (e : ExportRecord) : Prop where
  mem : e ∈ history
  least : ∀ e' ∈ history, (manifestName e.timestamp).toList ≤ (manifestName e'.timestamp).toList

theorem mem_sortedManifests {name : String} {names : List String} :
    name ∈ sortedManifests names ↔ name ∈ names := List.mem_insertionSort _

theorem sortedManifests_head {names : List String} {name : String}
    (h : (sortedManifests names).head? = some name) :
    name ∈ names ∧ ∀ other ∈ names, name.toList ≤ other.toList := by
  have : Std.Total fun a b : String => a.toList ≤ b.toList := ⟨fun a b => le_total a.toList b.toList⟩
  have : IsTrans String fun a b => a.toList ≤ b.toList := ⟨fun _ _ _ h h' => le_trans h h'⟩
  have hsorted := List.pairwise_insertionSort (fun a b : String => a.toList ≤ b.toList) names
  obtain ⟨rest, hrest⟩ := List.head?_eq_some_iff.mp h
  rw [sortedManifests] at hrest
  rw [hrest, List.pairwise_cons] at hsorted
  refine ⟨mem_sortedManifests.mp (List.mem_of_mem_head? h), fun other hother => ?_⟩
  rw [← mem_sortedManifests, sortedManifests, hrest, List.mem_cons] at hother
  rcases hother with rfl | hother
  · exact le_refl _
  · exact hsorted.1 other hother

theorem globManifests_ok {names : List String} :
    (diskCall .globManifests).Runs World.serve w (.ok names) u ↔
      (∀ name, name ∈ names ↔ (w.disk.manifests name).isSome) ∧ u = w := by
  refine (diskCall_ok served_serve rfl).trans ?_
  constructor
  · rintro ⟨d, ⟨rfl, names', hnames, h⟩, rfl⟩
    cases h
    exact ⟨hnames, rfl⟩
  · rintro ⟨hnames, rfl⟩
    exact ⟨_, ⟨rfl, names, hnames, rfl⟩, rfl⟩

/-- The import command finds the manifest that sorts first. -/
theorem findManifest_ok (hkept : Kept svc history w.disk) {chunkIds : List String}
    (hchunks : chunkIds ≠ []) (hhistory : history ≠ []) {manifestPath : Option String} :
    (findManifest chunkIds).Runs World.serve w (.ok manifestPath) u ↔
      (∃ first, First history first ∧ manifestPath = some (manifestName first.timestamp)) ∧ u = w := by
  rw [findManifest, if_neg hchunks]
  refine runs_bind_ok.trans ?_
  constructor
  · rintro ⟨names, v, hglob, hret⟩
    obtain ⟨hnames, rfl⟩ := globManifests_ok.mp hglob
    obtain ⟨hpath, rfl⟩ := runs_return.mp hret
    refine ⟨?_, rfl⟩
    obtain ⟨e, he⟩ := List.exists_mem_of_ne_nil _ hhistory
    have hmem : ∀ e ∈ history, manifestName e.timestamp ∈ names := fun e he =>
      (hnames _).mpr ((hkept.manifests _).mpr ⟨e, he, rfl⟩)
    cases hhead : (sortedManifests names).head? with
    | none =>
      have hnil := mem_sortedManifests.mpr (hmem e he)
      rw [List.head?_eq_none_iff.mp hhead] at hnil
      cases hnil
    | some name =>
      obtain ⟨hname, hleast⟩ := sortedManifests_head hhead
      obtain ⟨first, hfirst, rfl⟩ := (hkept.manifests name).mp ((hnames name).mp hname)
      refine ⟨first, ⟨hfirst, fun e' he' => hleast _ (hmem e' he')⟩, ?_⟩
      rw [Except.ok.inj hpath, hhead]
  · rintro ⟨⟨first, hfirst, rfl⟩, rfl⟩
    let names := history.map fun e => manifestName e.timestamp
    have hnames : ∀ name, name ∈ names ↔ (u.disk.manifests name).isSome := by
      intro name
      rw [hkept.manifests, List.mem_map]
      exact exists_congr fun e => and_congr_right fun _ => eq_comm
    refine ⟨names, u, globManifests_ok.mpr ⟨hnames, rfl⟩, runs_return.mpr ⟨?_, rfl⟩⟩
    have hmem : manifestName first.timestamp ∈ names :=
      List.mem_map.mpr ⟨first, hfirst.mem, rfl⟩
    cases hhead : (sortedManifests names).head? with
    | none =>
      rw [← mem_sortedManifests, List.head?_eq_none_iff.mp hhead] at hmem
      cases hmem
    | some name =>
      obtain ⟨hname, hleast⟩ := sortedManifests_head hhead
      obtain ⟨e, he, rfl⟩ := List.mem_map.mp hname
      have hsame := le_antisymm (hfirst.least e he) (hleast _ hmem)
      rw [String.toList_inj.mp hsame]

/-- The chunks of an export are accepted when their digest is the one in the manifest that sorts
first. -/
theorem importCheck_ok (hkept : Kept svc history w.disk) {e : ExportRecord} (he : e ∈ history) :
    (svc.importCheck e.paths).Runs World.serve w (.ok true) w ↔
      ∃ first, First history first ∧
        svc.sha256 (w.disk.bytesOf (sortedChunks e.paths)) = svc.sha256 (w.disk.bytesOf first.paths) := by
  have hvalidates : ∀ first, First history first →
      ((svc.validateManifest e.paths (some (manifestName first.timestamp))).Runs World.serve w (.ok true) w ↔
        svc.sha256 (w.disk.bytesOf (sortedChunks e.paths)) = svc.sha256 (w.disk.bytesOf first.paths)) := by
    intro first hfirst
    obtain ⟨total, hmanifest⟩ := (hkept.manifested first hfirst.mem).manifest
    refine (validateManifest_ok served_serve hmanifest).trans ?_
    simp
  refine runs_bind_ok.trans ?_
  constructor
  · rintro ⟨manifestPath, v, hrun, hvalid⟩
    obtain ⟨⟨first, hfirst, rfl⟩, rfl⟩ :=
      (findManifest_ok hkept (hkept.wrote e he) (List.ne_nil_of_mem he)).mp hrun
    exact ⟨first, hfirst, (hvalidates first hfirst).mp hvalid⟩
  · rintro ⟨first, hfirst, hdigest⟩
    refine ⟨_, w, (findManifest_ok hkept (hkept.wrote e he) (List.ne_nil_of_mem he)).mpr
      ⟨⟨first, hfirst, rfl⟩, rfl⟩, ?_⟩
    exact (hvalidates first hfirst).mpr hdigest

/-- The import of an export, unchanged, passes validation exactly when the export's manifest sorts
first in the directory and the export has at most a thousand chunks, or when the digest of its
chunks happens to be the one that the first manifest records. -/
theorem import_accepts_iff (h : Exports svc history w) {e : ExportRecord} (he : e ∈ history) :
    (svc.importCheck e.paths).Runs World.serve w (.ok true) w ↔
      First history e ∧ e.paths.length ≤ 1000 ∨
        ∃ first, First history first ∧
          svc.sha256 (w.disk.bytesOf (sortedChunks e.paths)) = svc.sha256 (w.disk.bytesOf first.paths) := by
  refine (importCheck_ok h.kept he).trans ?_
  constructor
  · exact .inr
  · rintro (⟨hfirst, hcount⟩ | hdigest)
    · refine ⟨e, hfirst, ?_⟩
      have hpaths := sortedChunks_eq "sync" e.timestamp hcount
      rw [← (h.kept.manifested e he).named] at hpaths
      rw [hpaths]
    · exact hdigest

section Example

def storedRow : ObservationRow := { id := "a", timestamp := 0, content := "x" }

def storedObservation : Observation :=
  ⟨{ id := "a", timestamp := 0, content := "x", metadata := some [] }, rfl⟩

/-- A database with one row and an empty journal, and an empty directory. -/
def oneRow : World :=
  (({ observations := ⟨[storedRow], indexed_iff.mp rfl⟩ }, {}), {})

/-- The world after an export of the row at that time, compressed to one byte. -/
def exportedOnce (timestamp : Nat) (byte : UInt8) (w : World) : World :=
  plainService.exported 1 timestamp [[byte]] [storedObservation] none w

theorem exportedOnce_runs (hrows : w.rows = [storedRow]) (hseq : w.sync.syncStatus.lastExportSeq = 0)
    (timestamp : Nat) (byte : UInt8) :
    (plainService.exportCmd none 1).Runs World.step w (.ok (exportedChunks "sync" timestamp 0 1))
      (exportedOnce timestamp byte w) := by
  refine (plainService.exportObservations_ok served_step).mpr ⟨[storedObservation], none, ?_, ?_⟩
  · rw [SyncService.Changed, hseq, if_neg (Nat.lt_irrefl 0)]
    refine ⟨[storedRow], [storedObservation], ?_, rfl, rfl, rfl⟩
    rw [hrows]
    exact ⟨.refl _, List.pairwise_singleton _ _⟩
  · rw [if_neg (List.cons_ne_nil _ _)]
    exact ⟨Nat.one_ne_zero, timestamp, [[byte]], rfl, rfl, rfl⟩

/-- Two exports of the same row. -/
def twoExports : List ExportRecord :=
  [⟨1, exportedChunks "sync" 1 0 1⟩, ⟨2, exportedChunks "sync" 2 0 1⟩]

def afterTwoExports : World := exportedOnce 2 1 (exportedOnce 1 0 oneRow)

theorem twoExports_run : Exports plainService twoExports afterTwoExports := by
  have hfirst : Exports plainService [⟨1, exportedChunks "sync" 1 0 1⟩] (exportedOnce 1 0 oneRow) :=
    .export (.start fun _ => rfl) (exportedOnce_runs rfl rfl 1 0) (by decide) rfl (by simp)
  exact .export hfirst (exportedOnce_runs rfl rfl 2 1) (by decide) rfl (by simp)

theorem import_accepts_first :
    (plainService.importCheck (exportedChunks "sync" 1 0 1)).Runs World.serve afterTwoExports
        (.ok true) afterTwoExports ↔
      First twoExports ⟨1, exportedChunks "sync" 1 0 1⟩ ∧ (exportedChunks "sync" 1 0 1).length ≤ 1000 ∨
        ∃ first, First twoExports first ∧
          plainService.sha256 (afterTwoExports.disk.bytesOf (sortedChunks (exportedChunks "sync" 1 0 1))) =
            plainService.sha256 (afterTwoExports.disk.bytesOf first.paths) :=
  import_accepts_iff (e := ⟨1, exportedChunks "sync" 1 0 1⟩) twoExports_run (by simp [twoExports])

/-- The import of the second export, unchanged, fails against the manifest of the first. -/
theorem import_of_second_export_refused :
    Exports plainService twoExports afterTwoExports ∧
      ⟨2, exportedChunks "sync" 2 0 1⟩ ∈ twoExports ∧
      ¬ (plainService.importCheck (exportedChunks "sync" 2 0 1)).Runs World.serve afterTwoExports
        (.ok true) afterTwoExports := by
  have hmem : (⟨2, exportedChunks "sync" 2 0 1⟩ : ExportRecord) ∈ twoExports := by simp [twoExports]
  refine ⟨twoExports_run, hmem, fun hrun => ?_⟩
  obtain ⟨first, hfirst, hdigest⟩ := (importCheck_ok twoExports_run.kept hmem).mp hrun
  have hbytes := plainService_sha256_injective hdigest
  have hsecond : afterTwoExports.disk.bytesOf (sortedChunks (exportedChunks "sync" 2 0 1)) = [1] := by
    decide +kernel
  have hfirstBytes : afterTwoExports.disk.bytesOf (exportedChunks "sync" 1 0 1) = [0] := by
    decide +kernel
  have hcases : first = ⟨1, exportedChunks "sync" 1 0 1⟩ ∨ first = ⟨2, exportedChunks "sync" 2 0 1⟩ := by
    simpa [twoExports] using hfirst.mem
  rcases hcases with rfl | rfl
  · rw [hsecond, hfirstBytes] at hbytes
    exact absurd hbytes (by decide)
  · exact absurd (hfirst.least ⟨1, exportedChunks "sync" 1 0 1⟩ (by simp [twoExports])) (by decide +kernel)

end Example

end ForkAgent.Sync

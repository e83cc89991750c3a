import ForkAgent.Memory.Readable
import ForkAgent.Sync.Imports
import ForkAgent.Sync.Manifest

/-!
# The round trip of a full export

All observations are exported from one database, and the chunks are imported into an empty one. The
lines of a chunk carry no title, and the import normalises the project that a row was read with.
-/

namespace ForkAgent.Sync

open Effects Storage Memory

/-- Read back, the rows of both databases are the same observations. -/
def SameObservations (rows rows' : List ObservationRow) : Prop :=
  ∃ os os', rows.mapM rowToObservation = .ok os ∧ rows'.mapM rowToObservation = .ok os' ∧ os'.Perm os

/-- A database without observations and without recorded chunks, beside the files of an export. -/
structure EmptyReplica (paths : List String) (exported replica : World) : Prop where
  rows : replica.rows = []
  chunks : replica.sync.syncChunks = []
  files : ∀ c ∈ paths, replica.disk.chunks c = exported.disk.chunks c

/-- An export of all observations returns the paths of its chunks, and an import of them, in any
order, returns with the same observations. -/
def RoundTrips (svc replicaSvc : SyncService) (w : World) (chunkSize : Nat) : Prop :=
  Returns (svc.exportObservations none chunkSize) w fun paths u =>
    ∀ replica, EmptyReplica paths u replica → ∀ order, order.Perm paths → ∀ source, source ≠ "" →
      Returns (replicaSvc.importObservations order source none) replica fun _ v =>
        SameObservations w.rows v.rows

/-- What an import keeps of an observation: it has no title, and its project is read again as it was. -/
structure Carried (repo : ObservationRepository) (o : Observation) : Prop where
  title : o.val.title = none
  project : ObservationRow.readProject (normalizeProject repo.lower o.val.project) (o.val.metadata.getD []) =
    .ofText o.val.project

/-- The topic key of an observation, and its project as an import stores it. -/
def importedTopic (repo : ObservationRepository) (o : Observation) : Option (String × String) :=
  o.val.topicKey.map fun topicKey => (topicKey, (normalizeProject repo.lower o.val.project).getD "")

/-- All rows can be read, each observation is carried, and no two of them are stored under one topic
key and project. -/
def Transfers (repo : ObservationRepository) (rows : List ObservationRow) : Prop :=
  ∃ os, rows.mapM rowToObservation = .ok os ∧ (∀ o ∈ os, Carried repo o) ∧ UniqueOn (importedTopic repo) os

variable {w u : World}

section Reading

theorem optional_readStr {message : String} {j : Json} {p : Option String} :
    optional (readStr message) j = .ok p ↔ j = .ofText p := by
  constructor
  · intro h
    cases j <;> cases h <;> rfl
  · rintro rfl
    exact optional_ofText message p

theorem readType_again (column : Option String) (metadata : JsonObject) :
    ObservationRow.readType (ObservationRow.readType column metadata) metadata =
      ObservationRow.readType column metadata := by
  cases hread : ObservationRow.readType column metadata with
  | some type =>
    have hallowed : type ∈ allowedTypes := readType_allowed type hread
    simp [ObservationRow.readType, ObservationRow.normalizeType, hallowed]
  | none =>
    unfold ObservationRow.readType at hread ⊢
    split at hread
    · cases hread
    · next hmetadata => simp [hmetadata, hread]
    · next hmetadata =>
      split
      · next hbind => simp at hbind
      · next type _ hstr => exact absurd hstr (hmetadata type)
      · rfl

/-- An observation that was read from a row is read from the row of its import exactly when it is
carried. -/
theorem read_importedRow {svc : SyncService} {row : ObservationRow} {o : Observation}
    (h : rowToObservation row = .ok o) :
    rowToObservation (importedRow svc o) = .ok o ↔ Carried svc.repository o := by
  have hreads := observation_eq_ok.mp h
  have hmetadata : o.val.metadata = some (row.metadata.getD []) := (Except.ok.inj hreads.metadata).symm
  constructor
  · intro hread
    have hreads' := observation_eq_ok.mp hread
    exact ⟨hreads'.title, optional_readStr.mp hreads'.project⟩
  · intro hcarried
    refine observation_eq_ok.mpr ?_
    exact
      { id := rfl
        timestamp := rfl
        content := rfl
        title := hcarried.title
        metadata := by
          show Except.ok (some (o.val.metadata.getD [])) = .ok o.val.metadata
          rw [hmetadata]
          rfl
        idempotencyKey := optional_ofText _ _
        project := optional_readStr.mpr hcarried.project
        type := by
          have htype : ObservationRow.readType row.type (row.metadata.getD []) = o.val.type :=
            Except.ok.inj ((optional_ofText _ _).symm.trans hreads.type)
          refine (optional_ofText _ _).trans (congrArg Except.ok ?_)
          show ObservationRow.readType o.val.type (o.val.metadata.getD []) = o.val.type
          rw [hmetadata, ← htype]
          exact readType_again _ _
        topicKey := optional_ofText _ _
        revisionCount := by
          have hcount := (postInit_eq_ok.mp o.property).revisionCount
          have hne : o.val.revisionCount ≠ 0 := by omega
          show Except.ok (if o.val.revisionCount = 0 then 1 else o.val.revisionCount) = .ok o.val.revisionCount
          rw [if_neg hne]
        sessionId := rfl }

theorem read_columns {rows : List ObservationRow} {os : List Observation}
    (h : List.Forall₂ (fun row o => rowToObservation row = .ok o) rows os) :
    os.map (fun o => some o.val.id) = rows.map rowId ∧
      os.map (·.val.idempotencyKey) = rows.map rowIdempotencyKey := by
  induction h with
  | nil => exact ⟨rfl, rfl⟩
  | cons hread hrest ih =>
    have hreads := observation_eq_ok.mp hread
    have hid := Except.ok.inj hreads.id
    have hkey := Except.ok.inj ((optional_ofText _ _).symm.trans hreads.idempotencyKey)
    rw [List.map_cons, List.map_cons, List.map_cons, List.map_cons, ih.1, ih.2, ← hid, ← hkey]
    exact ⟨rfl, rfl⟩

theorem uniqueOn_of_map_eq {κ : Type} {ρ σ : Type} {key : ρ → Option κ} {key' : σ → Option κ} {rows : List ρ}
    {rows' : List σ} (h : UniqueOn key rows) (heq : rows'.map key' = rows.map key) : UniqueOn key' rows' := by
  have hmap : (rows.map key).Pairwise fun a b => ∀ k, a = some k → b ≠ some k := List.pairwise_map.mpr h
  rw [← heq] at hmap
  exact List.pairwise_map.mp hmap

theorem indexed_importedRows {svc : SyncService} {t : ObservationTable} {os : List Observation}
    (h : List.Forall₂ (fun row o => rowToObservation row = .ok o) t.rows os) :
    Indexed (os.map (importedRow svc)) ↔ UniqueOn (importedTopic svc.repository) os := by
  obtain ⟨hids, hkeys⟩ := read_columns h
  constructor
  · intro hindexed
    exact List.pairwise_map.mp hindexed.topics
  · intro htopics
    have hid : UniqueOn (fun o : Observation => some o.val.id) os := uniqueOn_of_map_eq t.isIndexed.ids hids
    have hkey : UniqueOn (fun o : Observation => o.val.idempotencyKey) os :=
      uniqueOn_of_map_eq t.isIndexed.idempotencyKeys hkeys
    exact ⟨List.pairwise_map.mpr hid, List.pairwise_map.mpr hkey, List.pairwise_map.mpr htopics⟩

end Reading

section Export

variable {svc : SyncService} {os : List Observation}

theorem mapM_perm {rows rows' : List ObservationRow} (hperm : rows'.Perm rows)
    (hos : rows.mapM rowToObservation = .ok os) : ∃ os', rows'.mapM rowToObservation = .ok os' ∧ os'.Perm os := by
  obtain ⟨os', hread, hperm⟩ := List.perm_comp_forall₂ hperm (mapM_eq_ok.mp hos)
  exact ⟨os', mapM_eq_ok.mpr hread, hperm⟩

theorem getAll_returns (hos : w.rows.mapM rowToObservation = .ok os) :
    Returns (onStore (svc.repository.getAll none none none none)) w fun all u => all.Perm os ∧ u = w := by
  refine Returns.of_ok (onStore_returns fun out s hrun => ?_) fun all u hrun => ?_
  · obtain ⟨e, hcall, -⟩ | ⟨rows, hcall, hout⟩ := ObservationRepository.readRows_runs.mp hrun
    · obtain ⟨⟨-, hanswer⟩, -⟩ := memoryCall_runs.mp hcall
      simp at hanswer
    · obtain ⟨⟨-, hanswer⟩, -⟩ := memoryCall_runs.mp hcall
      obtain ⟨listed, hlisting, heq⟩ := hanswer
      cases heq
      have hperm : listed.Perm w.rows := by
        simpa [MemoryStore.matchesFilter, ObservationRepository.projectFilter, normalizeProject,
          World.rows] using hlisting.1
      obtain ⟨os', hread, -⟩ := mapM_perm hperm hos
      exact ⟨os', hout.trans hread, trivial⟩
  · obtain ⟨⟨rows, hlisting, hread⟩, rfl⟩ := (svc.getAll_ok served_serve).mp hrun
    obtain ⟨os', hread', hperm⟩ := mapM_perm hlisting.1 hos
    rw [hread] at hread'
    cases hread'
    exact ⟨hperm, rfl⟩

theorem setChunks_forall₂ (kind : String) (timestamp : Nat) (files : List (List JsonObject × List UInt8))
    (d : Disk) :
    List.Forall₂ (fun c file => (d.setChunks kind timestamp 0 files).chunks c =
        some ⟨file.1.map fun fields => some (.obj fields), file.2⟩)
      (exportedChunks kind timestamp 0 files.length) files := by
  refine List.forall₂_iff_get.mpr ⟨length_exportedChunks _ _ _ _, fun i hi hi' => ?_⟩
  have hchunk := setChunks_get kind timestamp 0 d hi'
  simpa [exportedChunks] using hchunk

theorem slices_holds {timestamp chunkSize : Nat} {bytes : List (List UInt8)} {d : Disk}
    (hbytes : bytes.length = (SyncService.observationLines chunkSize os).length)
    (hdisk : u.disk.chunks = (d.setChunks "sync" timestamp 0
      ((SyncService.observationLines chunkSize os).zip bytes)).chunks) :
    List.Forall₂ (Holds u)
      (exportedChunks "sync" timestamp 0 (SyncService.observationLines chunkSize os).length)
      (slices chunkSize (SyncService.byTimestamp os)) := by
  have hlines : SyncService.observationLines chunkSize os =
      (slices chunkSize (SyncService.byTimestamp os)).map (·.map fun o => observationLine o.val) :=
    slices_map _ _ _
  have hfiles := setChunks_forall₂ "sync" timestamp
    ((SyncService.observationLines chunkSize os).zip bytes) d
  have hlength : ((SyncService.observationLines chunkSize os).zip bytes).length =
      (SyncService.observationLines chunkSize os).length := by
    rw [List.length_zip, hbytes, Nat.min_self]
  rw [hlength] at hfiles
  obtain ⟨hcount, hfiles⟩ := List.forall₂_iff_get.mp hfiles
  refine List.forall₂_iff_get.mpr ⟨?_, fun i hi hi' => ?_⟩
  · rw [length_exportedChunks, hlines, List.length_map]
  · have hfile := hfiles i hi (by rw [hlength, hlines, List.length_map]; exact hi')
    refine ⟨_, (congrFun hdisk _).trans hfile, ?_⟩
    simp [hlines, observationText]

theorem chunkId_ne_empty (kind : String) (timestamp index : Nat) : chunkId kind timestamp index ≠ "" := by
  intro h
  have htext := congrArg String.toList h
  simp [chunkId] at htext

/-- An export of all observations writes each of them once. -/
theorem exportAll_returns {chunkSize : Nat} (hsince : w.sync.syncStatus.lastExportSeq = 0)
    (hsize : chunkSize ≠ 0) (hos : w.rows.mapM rowToObservation = .ok os) :
    Returns (svc.exportObservations none chunkSize) w fun paths u =>
      ∃ batches : List (List Observation), batches.flatten.Perm os ∧ List.Forall₂ (Holds u) paths batches ∧
        paths.Nodup ∧ ∀ c ∈ paths, c ≠ "" := by
  refine getStatus_returns.bind fun status u hstatus => ?_
  obtain ⟨rfl, rfl⟩ := hstatus
  have hchanged : Returns (svc.changedObservations none u.sync.syncStatus.lastExportSeq) u
      fun read v => read.1.Perm os ∧ v = u := by
    rw [hsince]
    refine (getAll_returns hos).bind fun all v hall => ?_
    exact returns_return.mpr hall
  refine hchanged.bind fun read v hread => ?_
  obtain ⟨hperm, rfl⟩ := hread
  by_cases hempty : read.1 = []
  · simp only [hempty, if_true]
    rw [hempty] at hperm
    exact returns_return.mpr ⟨[], hperm, .nil, List.nodup_nil, by simp⟩
  · simp only [hempty, if_false]
    refine (writeObservations_returns svc hsize read.1 read.2).mono fun paths x hwritten => ?_
    obtain ⟨timestamp, bytes, hlength, rfl, rfl⟩ := hwritten
    refine ⟨slices chunkSize (SyncService.byTimestamp read.1), ?_, slices_holds hlength rfl,
      exportedChunks_nodup _ _ _ _, fun c hc => ?_⟩
    · rw [slices_flatten hsize]
      exact (List.perm_insertionSort _ _).trans hperm
    · obtain ⟨i, -, rfl⟩ := mem_exportedChunks.mp hc
      exact chunkId_ne_empty _ _ _

end Export

section Import

variable {svc replicaSvc : SyncService} {os os' : List Observation} {chunkSize : Nat}

theorem replica_returns {paths order : List String} {batches : List (List Observation)} {replica : World}
    {source : String} (hbatches : List.Forall₂ (Holds u) paths batches) (hnodup : paths.Nodup)
    (hne : ∀ c ∈ paths, c ≠ "") (hempty : EmptyReplica paths u replica) (horder : order.Perm paths)
    (hsource : source ≠ "") :
    Returns (replicaSvc.importObservations order source none) replica fun _ v =>
      ∃ os' : List Observation, os'.Perm batches.flatten ∧
        v.rows = (replica.1.1.observations.offerAll (os'.map (importedRow replicaSvc))).rows := by
  obtain ⟨batches', hholds, hperm⟩ := List.perm_comp_forall₂ horder hbatches
  have hholds : List.Forall₂ (Holds replica) order batches' := by
    refine List.forall₂_iff_get.mpr ⟨hholds.length_eq, fun i hi hi' => ?_⟩
    have hchunk := (List.forall₂_iff_get.mp hholds).2 i hi hi'
    unfold Holds at hchunk ⊢
    rw [hempty.files _ (horder.mem_iff.mp (List.get_mem _ _))]
    exact hchunk
  have hfresh : ∀ c ∈ order, Unrecorded replica c ∧ c ≠ "" := by
    intro c hc
    refine ⟨fun chunk hchunk => ?_, hne c (horder.mem_iff.mp hc)⟩
    rw [hempty.chunks] at hchunk
    cases hchunk
  refine (importObservations_returns replicaSvc hsource (horder.nodup_iff.mpr hnodup) hholds hfresh).mono ?_
  intro imported v hv
  exact ⟨_, hperm.flatten, congrArg ObservationTable.rows hv⟩

/-- What an empty table takes in of the imported rows are the same observations exactly when all
rows transfer. -/
theorem same_iff_transfers {t : ObservationTable} (hos : w.rows.mapM rowToObservation = .ok os)
    (hperm : os'.Perm os) (ht : t.rows = []) :
    SameObservations w.rows (t.offerAll (os'.map (importedRow replicaSvc))).rows ↔
      Transfers replicaSvc.repository w.rows := by
  have hread := mapM_eq_ok.mp hos
  have hindexed : Indexed (os'.map (importedRow replicaSvc)) ↔
      UniqueOn (importedTopic replicaSvc.repository) os :=
    Iff.trans ⟨fun h => h.perm (hperm.map _), fun h => h.perm (hperm.map _).symm⟩
      (indexed_importedRows (t := w.1.1.observations) hread)
  constructor
  · rintro ⟨os₁, read, hos₁, hread', hsame⟩
    rw [hos] at hos₁
    cases hos₁
    obtain ⟨kept, hsub, hkept⟩ := t.offerAll_rows (os'.map (importedRow replicaSvc))
    rw [ht, List.nil_append] at hkept
    have hread' := mapM_eq_ok.mp hread'
    have hall : kept = os'.map (importedRow replicaSvc) := by
      refine hsub.eq_of_length ?_
      rw [← hkept, hread'.length_eq, hsame.length_eq, List.length_map, hperm.length_eq]
    rw [hall] at hkept
    have hunique := (t.offerAll (os'.map (importedRow replicaSvc))).isIndexed
    rw [hkept] at hunique hread'
    refine ⟨os, hos, fun o ho => ?_, hindexed.mp hunique⟩
    -- the observation read back is the only one of its id
    obtain ⟨o', ho', himported⟩ := forall₂_exists_right hread' (List.mem_map_of_mem (hperm.mem_iff.mpr ho))
    have hid : o'.val.id = o.val.id := (Except.ok.inj (observation_eq_ok.mp himported).id).symm
    have hids : UniqueOn (fun o : Observation => some o.val.id) os :=
      uniqueOn_of_map_eq w.1.1.observations.isIndexed.ids (read_columns hread).1
    obtain rfl := hids.eq_of_mem (hsame.mem_iff.mp ho') ho (congrArg some hid) rfl
    obtain ⟨row, -, hrow⟩ := forall₂_exists_left hread ho
    exact (read_importedRow hrow).mp himported
  · rintro ⟨os₁, hos₁, hcarried, hunique⟩
    rw [hos] at hos₁
    cases hos₁
    have hall : Indexed (t.rows ++ os'.map (importedRow replicaSvc)) := by
      rw [ht]
      exact hindexed.mpr hunique
    have hrows := ObservationTable.offerAll_of_indexed hall
    rw [ht, List.nil_append] at hrows
    refine ⟨os, os', hos, ?_, hperm⟩
    rw [hrows]
    refine mapM_eq_ok.mpr (List.forall₂_map_left_iff.mpr (List.forall₂_same.mpr fun o ho => ?_))
    have ho := hperm.mem_iff.mp ho
    obtain ⟨row, -, hrow⟩ := forall₂_exists_left hread ho
    exact (read_importedRow hrow).mpr (hcarried o ho)

theorem RoundTrips.transfers (hsince : w.sync.syncStatus.lastExportSeq = 0) (hsize : chunkSize ≠ 0)
    (h : RoundTrips svc replicaSvc w chunkSize) : Transfers replicaSvc.repository w.rows := by
  obtain ⟨out, u, hrun⟩ := h.ends
  obtain ⟨paths, rfl, himports⟩ := h.value out u hrun
  obtain ⟨os, hos⟩ : ∃ os, w.rows.mapM rowToObservation = .ok os := by
    obtain ⟨observations, seq, hchanged, -⟩ := (svc.exportObservations_ok served_serve).mp hrun
    rw [SyncService.Changed, hsince, if_neg (Nat.lt_irrefl 0)] at hchanged
    obtain ⟨rows, all, hlisting, hread, -⟩ := hchanged
    obtain ⟨os, hos, -⟩ := mapM_perm hlisting.1.symm hread
    exact ⟨os, hos⟩
  obtain ⟨_, heq, batches, hperm, hholds, hnodup, hne⟩ :=
    (exportAll_returns hsince hsize hos).value _ u hrun
  cases heq
  have hempty : EmptyReplica paths u (({}, {}), u.disk) := ⟨rfl, rfl, fun _ _ => rfl⟩
  have himport := himports _ hempty paths (List.Perm.refl _) "import" (by decide)
  obtain ⟨out, v, himported⟩ := himport.ends
  obtain ⟨_, -, hsame⟩ := himport.value out v himported
  obtain ⟨_, -, os', hos', hrows⟩ := (replica_returns hholds hnodup hne hempty (List.Perm.refl _)
    (by decide)).value out v himported
  rw [hrows] at hsame
  exact (same_iff_transfers hos (hos'.trans hperm) rfl).mp hsame

/-- The round trip keeps all observations exactly when every row transfers. -/
theorem roundTrips_iff_transfers (hsince : w.sync.syncStatus.lastExportSeq = 0) (hsize : 1 ≤ chunkSize) :
    RoundTrips svc replicaSvc w chunkSize ↔ Transfers replicaSvc.repository w.rows := by
  have hsize : chunkSize ≠ 0 := by omega
  constructor
  · exact RoundTrips.transfers hsince hsize
  · intro h
    obtain ⟨os, hos, -⟩ := id h
    refine (exportAll_returns hsince hsize hos).mono fun paths u hexported replica hempty order horder
      source hsource => ?_
    obtain ⟨batches, hperm, hholds, hnodup, hne⟩ := hexported
    refine (replica_returns hholds hnodup hne hempty horder hsource).mono fun _ v hv => ?_
    obtain ⟨os', hos', hrows⟩ := hv
    rw [hrows]
    exact (same_iff_transfers hos (hos'.trans hperm) hempty.rows).mpr h

section Sample

/-- A database with one observation that has a title. -/
def titled : World :=
  (({ observations := ⟨[{ id := "a", timestamp := 0, content := "x", title := some "t" }],
    indexed_iff.mp rfl⟩ }, {}), {})

theorem titled_not_transfers : ¬ Transfers plainService.repository titled.rows := by
  rintro ⟨os, hos, hcarried, -⟩
  obtain ⟨o, ho, hread⟩ := forall₂_exists_right (mapM_eq_ok.mp hos) (List.mem_singleton_self _)
  have htitle := (observation_eq_ok.mp hread).title
  rw [(hcarried o ho).title] at htitle
  cases htitle

/-- The title is not written. -/
theorem title_is_lost :
    ¬ ∀ (svc replicaSvc : SyncService) (w : World) (chunkSize : Nat),
      w.sync.syncStatus.lastExportSeq = 0 → 1 ≤ chunkSize → RoundTrips svc replicaSvc w chunkSize := by
  intro h
  exact titled_not_transfers ((h plainService plainService titled 1 rfl (by omega)).transfers rfl (by omega))

/-- A database with two observations, one of them of a project. -/
def twoNotes : World :=
  (({ observations := ⟨[{ id := "a", timestamp := 0, content := "x", project := some "p" },
      { id := "b", timestamp := 1, content := "y" }], indexed_iff.mp rfl⟩ }, {}), {})

theorem twoNotes_transfers : Transfers plainService.repository twoNotes.rows := by
  obtain ⟨first, second, hread, hfirst, hsecond, htopic⟩ : ∃ first second : Observation,
      twoNotes.rows.mapM rowToObservation = .ok [first, second] ∧
      Carried plainService.repository first ∧ Carried plainService.repository second ∧
      importedTopic plainService.repository first = none :=
    ⟨_, _, rfl, ⟨rfl, rfl⟩, ⟨rfl, rfl⟩, rfl⟩
  refine ⟨_, hread, by simp [hfirst, hsecond], List.pairwise_pair.mpr ?_⟩
  intro topic htopic'
  rw [htopic] at htopic'
  cases htopic'

theorem titled_roundTrips_iff :
    RoundTrips plainService plainService twoNotes 1 ∧ ¬ RoundTrips plainService plainService titled 1 := by
  constructor
  · exact (roundTrips_iff_transfers rfl (by omega)).mpr twoNotes_transfers
  · rw [roundTrips_iff_transfers rfl (by omega)]
    exact titled_not_transfers

end Sample

end Import

end ForkAgent.Sync

import ForkAgent.Memory.Changes
import ForkAgent.Sync.Exports

/-!
# Exports and imports that nothing disturbs

What the loops of the service do when the database and the file system serve every call. The rows
of a chunk are offered to the table one after another.
-/

namespace ForkAgent.Sync

open Effects Storage Memory

variable {w u : World} {α β : Type}

/-- Where every call is served the program ends, and it returns what, with the world that it leaves,
satisfies `Q`. -/
structure Returns (p : SyncProgram α) (w : World) (Q : α → World → Prop) : Prop where
  ends : ∃ out u, p.Runs World.serve w out u
  value : ∀ out u, p.Runs World.serve w out u → ∃ a, out = .ok a ∧ Q a u

section Rules

variable {p : SyncProgram α} {Q : α → World → Prop}

theorem returns_return {a : α} : Returns (return a) w Q ↔ Q a w := by
  constructor
  · intro h
    obtain ⟨b, hb, hQ⟩ := h.value (.ok a) w ⟨rfl, rfl⟩
    cases hb
    exact hQ
  · intro h
    refine ⟨⟨_, _, rfl, rfl⟩, ?_⟩
    rintro out u ⟨rfl, rfl⟩
    exact ⟨a, rfl, h⟩

theorem Returns.bind {p : SyncProgram β} {f : β → SyncProgram α} {P : β → World → Prop}
    (hp : Returns p w P) (hf : ∀ b u, P b u → Returns (f b) u Q) : Returns (p >>= f) w Q := by
  constructor
  · obtain ⟨out, v, hfirst⟩ := hp.ends
    obtain ⟨b, rfl, hP⟩ := hp.value out v hfirst
    obtain ⟨out, u, hrest⟩ := (hf b v hP).ends
    exact ⟨out, u, Program.Runs.bind hfirst hrest⟩
  · intro out u hrun
    obtain ⟨e, hfails, -⟩ | ⟨b, v, hfirst, hrest⟩ := Program.runs_bind.mp hrun
    · obtain ⟨b, hb, -⟩ := hp.value _ _ hfails
      cases hb
    · obtain ⟨b', hb, hP⟩ := hp.value _ _ hfirst
      cases hb
      exact (hf b v hP).value out u hrest

theorem Returns.mono {P : α → World → Prop} (hp : Returns p w P) (h : ∀ a u, P a u → Q a u) :
    Returns p w Q := by
  refine ⟨hp.ends, fun out u hrun => ?_⟩
  obtain ⟨a, hout, hP⟩ := hp.value out u hrun
  exact ⟨a, hout, h a u hP⟩

theorem Returns.handle (hp : Returns p w Q) (handler : Exn → SyncProgram α) :
    Returns (p.handle handler) w Q := by
  constructor
  · obtain ⟨out, u, hrun⟩ := hp.ends
    obtain ⟨a, rfl, -⟩ := hp.value out u hrun
    exact ⟨.ok a, u, hrun.handle_ok⟩
  · intro out u hrun
    obtain ⟨a, hfirst, rfl⟩ | ⟨e, v, hfails, -⟩ := Program.runs_handle.mp hrun
    · exact hp.value _ u hfirst
    · obtain ⟨a, ha, -⟩ := hp.value _ _ hfails
      cases ha

theorem Returns.of_ok (hp : Returns p w fun _ _ => True)
    (h : ∀ a u, p.Runs World.serve w (.ok a) u → Q a u) : Returns p w Q := by
  refine ⟨hp.ends, fun out u hrun => ?_⟩
  obtain ⟨a, rfl, -⟩ := hp.value out u hrun
  exact ⟨a, rfl, h a u hrun⟩

theorem returns_ofExcept {x : Except Exn α} {a : α} (hx : x = .ok a) (h : Q a w) :
    Returns (.ofExcept x) w Q := by
  subst hx
  exact returns_return.mpr h

theorem onStore_returns {p : MemoryProgram α}
    (h : ∀ out s, p.Runs Store.serve w.1 out s → ∃ a, out = .ok a ∧ Q a (s, w.2)) :
    Returns (onStore p) w Q := by
  constructor
  · obtain ⟨out, s, hrun⟩ := Program.exists_runs
      (fun c s => ⟨_, _, Store.respond_serve { id := "a" } c s⟩) p w.1
    exact ⟨out, (s, w.2), onStore_runs.mpr ⟨hrun, rfl⟩⟩
  · intro out u hrun
    obtain ⟨hstore, hdisk⟩ := onStore_runs.mp hrun
    obtain ⟨a, hout, hQ⟩ := h out u.1 hstore
    rw [← hdisk] at hQ
    exact ⟨a, hout, hQ⟩

/-- An operation of the repository whose errors are handled. -/
theorem attempt_returns {p : MemoryProgram β} {a : α} {handler : Exn → SyncProgram α}
    (hok : ∀ b s, p.Runs Store.serve w.1 (.ok b) s → Q a (s, w.2))
    (herror : ∀ e s, p.Runs Store.serve w.1 (.error e) s → Returns (handler e) (s, w.2) Q) :
    Returns ((onStore p >>= fun _ => return a).handle handler) w Q := by
  constructor
  · obtain ⟨out, s, hrun⟩ := Program.exists_runs
      (fun c s => ⟨_, _, Store.respond_serve { id := "a" } c s⟩) p w.1
    cases out with
    | ok b =>
      have hfirst : (onStore p >>= fun _ => return a).Runs World.serve w (.ok a) (s, w.2) :=
        runs_bind_ok.mpr ⟨b, (s, w.2), onStore_runs.mpr ⟨hrun, rfl⟩, rfl, rfl⟩
      exact ⟨_, _, hfirst.handle_ok⟩
    | error e =>
      obtain ⟨out, u, hrest⟩ := (herror e s hrun).ends
      refine ⟨out, u, Program.runs_handle.mpr (.inr ⟨e, (s, w.2), ?_, hrest⟩)⟩
      exact Program.runs_bind.mpr (.inl ⟨e, onStore_runs.mpr ⟨hrun, rfl⟩, rfl⟩)
  · intro out u hrun
    obtain ⟨a', hfirst, rfl⟩ | ⟨e, v, hfirst, hrest⟩ := Program.runs_handle.mp hrun
    · obtain ⟨b, v, hstore, hret⟩ := runs_bind_ok.mp hfirst
      obtain ⟨ha, rfl⟩ := runs_return.mp hret
      cases ha
      obtain ⟨hstore, hdisk⟩ := onStore_runs.mp hstore
      have hQ := hok b u.1 hstore
      rw [← hdisk] at hQ
      exact ⟨a, rfl, hQ⟩
    · obtain ⟨e', hstore, he⟩ | ⟨b, v', -, hret⟩ := Program.runs_bind.mp hfirst
      · cases he
        obtain ⟨hstore, hdisk⟩ := onStore_runs.mp hstore
        have hreturns := herror e v.1 hstore
        rw [← hdisk] at hreturns
        exact hreturns.value out u hrest
      · cases hret.1

theorem sync_returns {c : SyncCall} {Q : c.Value → World → Prop}
    (h : ∀ r s, SyncStore.serve ⟨c, r⟩ w.sync s → ∃ v, r = .ok v ∧ Q v (w.withSync s)) :
    Returns (sync c) w Q := by
  refine onStore_returns fun out s hrun => ?_
  obtain ⟨hserve, hmemory⟩ := syncCall_runs.mp hrun
  obtain ⟨v, hout, hQ⟩ := h out s.2 hserve
  have hs : s = (w.1.1, s.2) := Prod.ext hmemory rfl
  rw [hs]
  exact ⟨v, hout, hQ⟩

theorem timeMs_returns {Q : Nat → World → Prop} (h : ∀ now, Q now w) : Returns timeMs w Q := by
  refine onStore_returns fun out s hrun => ?_
  obtain ⟨⟨hmemory, now, hout⟩, hsync⟩ := memoryCall_runs.mp hrun
  obtain rfl : s = w.1 := Prod.ext hmemory hsync
  exact ⟨now, hout, h now⟩

theorem diskCall_returns {c : DiskCall} {Q : c.Value → World → Prop}
    (hends : ∃ r d, Disk.serve ⟨c, r⟩ w.disk d)
    (h : ∀ r d, Disk.serve ⟨c, r⟩ w.disk d → ∃ v, r = .ok v ∧ Q v (w.withDisk d)) :
    Returns (diskCall c) w Q := by
  constructor
  · obtain ⟨r, d, hserve⟩ := hends
    exact ⟨r, w.withDisk d, diskCall_runs.mpr ⟨hserve, rfl⟩⟩
  · intro out u hrun
    obtain ⟨hserve, hstore⟩ := diskCall_runs.mp hrun
    obtain ⟨v, hout, hQ⟩ := h out u.disk hserve
    have hu : u = w.withDisk u.disk := Prod.ext hstore rfl
    rw [← hu] at hQ
    exact ⟨v, hout, hQ⟩

end Rules

section Statements

theorem getStatus_returns : Returns (sync .getStatus) w fun status u => status = w.sync.syncStatus ∧ u = w := by
  refine sync_returns ?_
  rintro r s ⟨rfl, rfl⟩
  exact ⟨_, rfl, rfl, rfl⟩

theorem getLatestSeq_returns : Returns (sync .getLatestSeq) w fun seq u => seq = w.sync.latestSeq ∧ u = w := by
  refine sync_returns ?_
  rintro r s ⟨rfl, rfl⟩
  exact ⟨_, rfl, rfl, rfl⟩

theorem updateStatus_returns {exportAt importAt : Option Int} {seq : Option Nat} :
    Returns (sync (.updateStatus exportAt importAt seq)) w fun _ u =>
      u = w.withSync (w.sync.updateStatus exportAt importAt seq) := by
  refine sync_returns ?_
  rintro r s ⟨rfl, rfl⟩
  exact ⟨_, rfl, rfl⟩

/-- No chunk of this name has been recorded. -/
def Unrecorded (w : World) (chunkId : String) : Prop :=
  ∀ chunk ∈ w.sync.syncChunks, chunk.chunkId ≠ chunkId

theorem getChunkById_returns {chunkId : String} (h : Unrecorded w chunkId) :
    Returns (sync (.getChunkById chunkId)) w fun recorded u => recorded = none ∧ u = w := by
  have hnone : (w.sync.syncChunks.find? fun chunk => chunk.chunkId == chunkId) = none :=
    List.find?_eq_none.mpr fun chunk hchunk => by simpa using h chunk hchunk
  refine sync_returns ?_
  rintro r s ⟨rfl, rfl⟩
  rw [hnone]
  exact ⟨none, rfl, rfl, rfl⟩

theorem readBytes_returns {chunkId : String} {file : ChunkFile}
    (h : w.disk.chunks chunkId = some file) :
    Returns (diskCall (.readBytes chunkId)) w fun bytes u => bytes = file.bytes ∧ u = w := by
  refine diskCall_returns ⟨.ok file.bytes, _, rfl, by rw [h]⟩ ?_
  rintro r d ⟨rfl, hr⟩
  rw [h] at hr
  exact ⟨_, hr, rfl, rfl⟩

theorem chunkExists_returns {chunkId : String} :
    Returns (diskCall (.chunkExists chunkId)) w fun found u =>
      found = (w.disk.chunks chunkId).isSome ∧ u = w := by
  refine diskCall_returns ⟨_, _, rfl, rfl⟩ ?_
  rintro r d ⟨rfl, rfl⟩
  exact ⟨_, rfl, rfl, rfl⟩

theorem openChunk_returns {chunkId : String} {file : ChunkFile}
    (h : w.disk.chunks chunkId = some file) :
    Returns (SyncService.openChunk chunkId) w fun opened u =>
      opened = some { lines := file.lines } ∧ u = w := by
  have hopened : Returns (diskCall (.openChunk chunkId)) w fun reading u =>
      reading = { lines := file.lines } ∧ u = w := by
    refine diskCall_returns ⟨.ok { lines := file.lines }, _, rfl, by rw [h]⟩ ?_
    rintro r d ⟨rfl, hr⟩
    rw [h] at hr
    exact ⟨_, hr, rfl, rfl⟩
  refine Returns.handle (hopened.bind fun reading u hreading => ?_) _
  obtain ⟨rfl, rfl⟩ := hreading
  exact returns_return.mpr ⟨rfl, rfl⟩

end Statements

section Exports

theorem writeChunks_returns {kind : String} {timestamp index : Nat} {lines : List (List JsonObject)} :
    Returns (writeChunks kind timestamp index lines) w fun chunkIds u =>
      chunkIds = exportedChunks kind timestamp index lines.length ∧
        ∃ bytes : List (List UInt8), bytes.length = lines.length ∧
          u = w.withDisk (w.disk.setChunks kind timestamp index (lines.zip bytes)) := by
  refine Returns.of_ok ?_ fun a u hrun => (writeChunks_ok served_serve).mp hrun
  induction lines generalizing index w with
  | nil => exact returns_return.mpr trivial
  | cons file files ih =>
    have hwrite : Returns (diskCall (.writeChunk (chunkId kind timestamp index) file)) w
        fun _ _ => True := by
      refine diskCall_returns ⟨_, _, rfl, [], rfl⟩ ?_
      rintro r d ⟨rfl, -⟩
      exact ⟨_, rfl, trivial⟩
    exact hwrite.bind fun _ _ _ => ih.bind fun _ _ _ => returns_return.mpr trivial

theorem readChunks_returns {chunkIds : List String} (h : ∀ c ∈ chunkIds, (w.disk.chunks c).isSome) :
    Returns (readChunks chunkIds) w fun bytes u => bytes = w.disk.bytesOf chunkIds ∧ u = w := by
  refine Returns.of_ok ?_ fun a u hrun => ((readChunks_ok served_serve).mp hrun).2
  induction chunkIds with
  | nil => exact returns_return.mpr trivial
  | cons c chunkIds ih =>
    rw [List.forall_mem_cons] at h
    obtain ⟨file, hfile⟩ := Option.isSome_iff_exists.mp h.1
    refine (readBytes_returns hfile).bind fun bytes u hread => ?_
    obtain ⟨-, rfl⟩ := hread
    exact (ih h.2).bind fun _ _ _ => returns_return.mpr trivial

variable (svc : SyncService)

theorem writeManifest_returns {chunkIds : List String} {total timestamp : Nat}
    (h : ∀ c ∈ chunkIds, (w.disk.chunks c).isSome) :
    Returns (svc.writeManifest chunkIds total timestamp) w fun _ _ => True := by
  refine (readChunks_returns h).bind fun bytes u _ => ?_
  refine diskCall_returns ⟨_, _, rfl, rfl⟩ ?_
  rintro r d ⟨rfl, -⟩
  exact ⟨_, rfl, trivial⟩

theorem setChunks_isSome {kind : String} {timestamp index : Nat}
    {files : List (List JsonObject × List UInt8)} {d : Disk} {c : String}
    (h : c ∈ exportedChunks kind timestamp index files.length) :
    ((d.setChunks kind timestamp index files).chunks c).isSome := by
  obtain ⟨i, hi, rfl⟩ := mem_exportedChunks.mp h
  rw [setChunks_get kind timestamp index d hi]
  rfl

theorem watermarkSeq_returns {exportMaxSeq : Option Nat} :
    Returns (SyncService.watermarkSeq exportMaxSeq) w fun _ _ => True := by
  cases exportMaxSeq with
  | none => exact getLatestSeq_returns.mono fun _ _ _ => trivial
  | some seq => exact returns_return.mpr trivial

theorem writeObservations_returns {chunkSize : Nat} (hsize : chunkSize ≠ 0)
    (observations : List Observation) (exportMaxSeq : Option Nat) :
    Returns (svc.writeObservations chunkSize observations exportMaxSeq) w fun paths u =>
      ∃ (timestamp : Nat) (bytes : List (List UInt8)),
        bytes.length = (SyncService.observationLines chunkSize observations).length ∧
        paths = exportedChunks "sync" timestamp 0 (SyncService.observationLines chunkSize observations).length ∧
        u = svc.exported chunkSize timestamp bytes observations exportMaxSeq w := by
  refine Returns.of_ok ?_ fun a u hrun => ((svc.writeObservations_ok served_serve).mp hrun).2
  rw [SyncService.writeObservations, if_neg hsize]
  refine (timeMs_returns (Q := fun _ u => u = w) fun _ => rfl).bind fun timestamp u hu => ?_
  subst hu
  refine writeChunks_returns.bind fun chunkIds u hwritten => ?_
  obtain ⟨rfl, bytes, hlength, rfl⟩ := hwritten
  refine (writeManifest_returns svc fun c hc => setChunks_isSome ?_).bind fun _ u _ => ?_
  · rw [List.length_zip, hlength, Nat.min_self]
    exact hc
  · exact watermarkSeq_returns.bind fun seq v _ => updateStatus_returns.bind fun _ _ _ =>
      returns_return.mpr trivial

end Exports

section Imports

theorem write_refused {β : Type} {s s' : MemoryStore} {written : Option ObservationTable} {value : β} {e : Exn}
    (h : MemoryStore.Write s written value (.error e) s') :
    written = none ∧ (∃ m, e = .integrityError m) ∧ s' = s := by
  cases written with
  | none =>
    obtain ⟨⟨m, hm⟩, hs⟩ := h
    exact ⟨rfl, ⟨m, Except.error.inj hm⟩, hs⟩
  | some t => cases h.1

/-- The observation that the line of another is read as: lines carry no title. -/
def untitled (o : Observation) : Observation :=
  ⟨{ o.val with title := none }, by
    have h := postInit_eq_ok.mp o.property
    exact postInit_eq_ok.mpr ⟨h.id, h.timestamp, h.contentNull, h.content, h.idempotencyKey, h.topicKey,
      h.topicKeySpaces, h.topicKeyNull, h.topicKeyLength, h.revisionCount, h.type, h.project,
      h.projectNull⟩⟩

def observationText (o : Observation) : Line := some (.obj (observationLine o.val))

theorem checkedType_ofText {type : Option String} (h : ∀ t ∈ type, t ∈ allowedTypes) :
    checkedType (.ofText type) = .ok (.ofText type) := by
  cases type with
  | none => rfl
  | some t => simp [Json.ofText, checkedType, h t rfl]

theorem observationArgs_sessionId {fields : JsonObject} {id timestamp content type : Json}
    {sessionId : Option String} (h : fields.get "session_id" = .ofText sessionId) :
    (observationArgs fields id timestamp content type).sessionId = sessionId := by
  unfold observationArgs
  rw [h]
  cases sessionId <;> rfl

theorem readLine_observationLine (o : Observation) :
    SyncService.readLine (.obj (observationLine o.val)) = .ok (untitled o) := by
  have htype := checkedType_ofText (postInit_eq_ok.mp o.property).type
  have hreads : (observationArgs (observationLine o.val) (.str o.val.id) (.int o.val.timestamp)
      (.str o.val.content) (.ofText o.val.type)).Reads (untitled o).val :=
    { id := rfl
      timestamp := rfl
      content := rfl
      title := rfl
      metadata := by
        show optional _ ((o.val.metadata.map Json.obj).getD .null) = .ok o.val.metadata
        cases o.val.metadata <;> rfl
      idempotencyKey := optional_ofText _ _
      project := optional_ofText _ _
      type := optional_ofText _ _
      topicKey := optional_ofText _ _
      revisionCount := rfl
      sessionId := (observationArgs_sessionId rfl).symm }
  show (checkedType (.ofText o.val.type) >>= fun type => observation (observationArgs
    (observationLine o.val) (.str o.val.id) (.int o.val.timestamp) (.str o.val.content) type)) = _
  rw [htype]
  exact observation_eq_ok.mpr hreads

variable (svc : SyncService)

/-- The row that an import makes of an observation. -/
def importedRow (o : Observation) : ObservationRow := svc.repository.row (untitled o).val

def World.withObservations (w : World) (t : ObservationTable) : World :=
  (({ w.1.1 with observations := t }, w.1.2), w.2)

theorem alreadyExists_message (id : String) :
    lowerContains "already exists" s!"Observation with id '{id}' already exists" = true := by
  refine decide_eq_true ?_
  simp only [String.toList_append, toString, List.map_append]
  have hend : "already exists".toList <:+ "' already exists".toList.map Char.toLower :=
    ⟨['\'', ' '], by decide⟩
  exact (hend.trans (List.suffix_append _ _)).isInfix

theorem createLine_returns (o : Observation) :
    Returns (svc.createLine o) w fun _ u =>
      u = w.withObservations (w.1.1.observations.offer (svc.repository.row o.val)) := by
  refine attempt_returns (fun _ s hrun => ?_) fun e s hrun => ?_
  · obtain ⟨e, -, -, he⟩ | ⟨hserve, -, hsync⟩ := (svc.silent.create_runs).mp hrun
    · cases he
    · obtain ⟨t, hinsert, hs⟩ := write_ok hserve
      have hoffer : w.1.1.observations.offer (svc.repository.row o.val) = t :=
        congrArg (Option.getD · _) hinsert
      rw [hoffer]
      exact Prod.ext (Prod.ext hs hsync) rfl
  · obtain ⟨e', hserve, hsync, he⟩ | ⟨-, he, -⟩ := (svc.silent.create_runs).mp hrun
    · obtain ⟨hrefused, ⟨m, rfl⟩, hs⟩ := write_refused hserve
      have hoffer : w.1.1.observations.offer (svc.repository.row o.val) = w.1.1.observations :=
        congrArg (Option.getD · _) hrefused
      obtain rfl : s = w.1 := Prod.ext hs hsync
      cases he
      rw [ObservationRepository.insertError, ObservationRepository.alreadyExists, hoffer]
      simp only [alreadyExists_message, if_true]
      exact returns_return.mpr rfl
    · cases he

theorem tryLine_returns (o : Observation) :
    Returns (svc.tryLine (observationText o)) w fun _ u =>
      u = w.withObservations (w.1.1.observations.offer (importedRow svc o)) := by
  refine Returns.handle ?_ _
  refine (returns_ofExcept (readLine_observationLine o) (Q := fun read u => read = untitled o ∧ u = w)
    ⟨rfl, rfl⟩).bind fun read u hread => ?_
  obtain ⟨rfl, rfl⟩ := hread
  exact createLine_returns svc (untitled o)

theorem importLines_returns (os : List Observation) :
    Returns (svc.importLines (os.map observationText)) w fun _ u =>
      u = w.withObservations (w.1.1.observations.offerAll (os.map (importedRow svc))) := by
  induction os generalizing w with
  | nil => exact returns_return.mpr rfl
  | cons o os ih =>
    refine (tryLine_returns svc o).bind fun _ u hu => ?_
    subst hu
    refine ih.bind fun _ v hv => ?_
    subst hv
    exact returns_return.mpr rfl

/-- The file holds these observations. -/
def Holds (w : World) (chunkId : String) (os : List Observation) : Prop :=
  ∃ file, w.disk.chunks chunkId = some file ∧ file.lines = os.map observationText

theorem recordChunk_returns {chunkId source : String} {timestamp count : Nat} {file : ChunkFile}
    (hfile : w.disk.chunks chunkId = some file) (hfresh : Unrecorded w chunkId) (hid : chunkId ≠ "")
    (hsource : source ≠ "") :
    Returns (SyncService.recordChunk chunkId source timestamp count) w fun _ u =>
      u = w.withSync { w.sync with
        syncChunks := w.sync.syncChunks ++ [⟨chunkId, source, timestamp, count⟩] } := by
  refine (readBytes_returns hfile).bind fun bytes u hread => ?_
  obtain ⟨-, rfl⟩ := hread
  have hvalid : SyncChunkFields.postInit ⟨chunkId, source, timestamp, count⟩ = .ok () := by
    simp [SyncChunkFields.postInit, hid, hsource, require, bind, Except.bind]
  have hconstruct : construct SyncChunkFields.postInit ⟨chunkId, source, timestamp, count⟩ =
      .ok ⟨_, hvalid⟩ := construct_eq_ok.mpr rfl
  refine (returns_ofExcept hconstruct (Q := fun chunk v => chunk = ⟨_, hvalid⟩ ∧ v = u)
    ⟨rfl, rfl⟩).bind fun chunk v hchunk => ?_
  obtain ⟨rfl, rfl⟩ := hchunk
  have hrecorded : v.sync.recordChunk ⟨chunkId, source, timestamp, count⟩ = .ok { v.sync with
      syncChunks := v.sync.syncChunks ++ [⟨chunkId, source, timestamp, count⟩] } := by
    refine if_neg ?_
    rw [Bool.not_eq_true, conflicts_eq_false]
    intro chunk hchunk k hk hk'
    exact hfresh chunk hchunk (Option.some.inj (hk'.trans hk.symm))
  refine sync_returns fun r s hserve => ?_
  have hserve : Transaction (v.sync.recordChunk ⟨chunkId, source, timestamp, count⟩) v.sync r s := hserve
  rw [hrecorded] at hserve
  exact ⟨(), hserve.1, congrArg v.withSync hserve.2⟩

/-- The table takes in the rows of a chunk, and the chunk is recorded. -/
theorem importChunk_returns {chunkId source : String} {timestamp : Nat} {os : List Observation}
    (hholds : Holds w chunkId os) (hfresh : Unrecorded w chunkId) (hid : chunkId ≠ "")
    (hsource : source ≠ "") :
    Returns (svc.importChunk source timestamp chunkId) w fun _ u =>
      u.1.1.observations = w.1.1.observations.offerAll (os.map (importedRow svc)) ∧ u.disk = w.disk ∧
        ∀ c ≠ chunkId, Unrecorded w c → Unrecorded u c := by
  obtain ⟨file, hfile, hlines⟩ := hholds
  refine chunkExists_returns.bind fun found u hfound => ?_
  obtain ⟨rfl, rfl⟩ := hfound
  simp only [hfile, Option.isSome_some, if_true]
  refine (getChunkById_returns hfresh).bind fun recorded v hrecorded => ?_
  obtain ⟨rfl, rfl⟩ := hrecorded
  simp only [Option.isSome_none]
  have hsingle : Returns (svc.importSingleChunk chunkId) v fun _ x =>
      x = v.withObservations (v.1.1.observations.offerAll (os.map (importedRow svc))) := by
    refine (openChunk_returns hfile).bind fun opened x hopened => ?_
    obtain ⟨rfl, rfl⟩ := hopened
    refine Returns.bind (P := fun _ y => y = x.withObservations (x.1.1.observations.offerAll
      (os.map (importedRow svc)))) ?_ fun imported y hy => ?_
    · simp only [hlines]
      exact importLines_returns svc os
    · exact returns_return.mpr hy
  refine hsingle.bind fun count x hx => ?_
  subst hx
  refine Returns.bind (recordChunk_returns (w := v.withObservations _) hfile hfresh hid hsource) fun _ y hy => ?_
  subst hy
  refine returns_return.mpr ⟨rfl, rfl, fun c hc hunrecorded chunk hchunk => ?_⟩
  rcases List.mem_append.mp hchunk with hchunk | hchunk
  · exact hunrecorded chunk hchunk
  · rw [List.mem_singleton.mp hchunk]
    exact Ne.symm hc

/-- The chunks are imported in the order in which they are given. -/
theorem importChunks_returns {source : String} {timestamp : Nat} (hsource : source ≠ "")
    {chunkIds : List String} {batches : List (List Observation)} (hnodup : chunkIds.Nodup)
    (hholds : List.Forall₂ (Holds w) chunkIds batches)
    (hfresh : ∀ c ∈ chunkIds, Unrecorded w c ∧ c ≠ "") :
    Returns (svc.importChunks source timestamp chunkIds) w fun _ u =>
      u.1.1.observations = w.1.1.observations.offerAll (batches.flatten.map (importedRow svc)) := by
  induction chunkIds generalizing w batches with
  | nil =>
    cases hholds
    exact returns_return.mpr rfl
  | cons c chunkIds ih =>
    obtain ⟨os, more, hfirst, hrest, rfl⟩ := List.forall₂_cons_left_iff.mp hholds
    obtain ⟨hne, hnodup⟩ := List.nodup_cons.mp hnodup
    rw [List.forall_mem_cons] at hfresh
    obtain ⟨⟨hunrecorded, hid⟩, hfresh⟩ := hfresh
    refine (importChunk_returns svc hfirst hunrecorded hid hsource).bind fun count u hu => ?_
    obtain ⟨hrows, hdisk, hkept⟩ := hu
    have hholds : List.Forall₂ (Holds u) chunkIds more := by
      refine hrest.imp fun c os hholds => ?_
      unfold Holds
      rw [hdisk]
      exact hholds
    refine Returns.bind (ih hnodup hholds fun c' hc' => ?_) fun rest v hv => ?_
    · have hother : c' ≠ c := by
        rintro rfl
        exact hne hc'
      exact ⟨hkept c' hother (hfresh c' hc').1, (hfresh c' hc').2⟩
    · refine returns_return.mpr (hv.trans ?_)
      rw [hrows, List.flatten_cons, List.map_append, ObservationTable.offerAll, ObservationTable.offerAll,
        ObservationTable.offerAll, List.foldl_append]

theorem importObservations_returns {source : String} (hsource : source ≠ "") {chunkIds : List String}
    {batches : List (List Observation)} (hnodup : chunkIds.Nodup)
    (hholds : List.Forall₂ (Holds w) chunkIds batches)
    (hfresh : ∀ c ∈ chunkIds, Unrecorded w c ∧ c ≠ "") :
    Returns (svc.importObservations chunkIds source none) w fun _ u =>
      u.1.1.observations = w.1.1.observations.offerAll (batches.flatten.map (importedRow svc)) := by
  have hvalid : Returns (svc.validateManifest chunkIds none) w fun _ u => u = w :=
    returns_return.mpr rfl
  refine hvalid.bind fun _ u hu => ?_
  subst hu
  refine (timeMs_returns (Q := fun _ v => v = u) fun _ => rfl).bind fun timestamp v hv => ?_
  subst hv
  refine (importChunks_returns svc hsource hnodup hholds hfresh).bind fun imported x hx => ?_
  by_cases himported : 0 < imported
  · rw [if_pos himported]
    refine updateStatus_returns.bind fun _ y hy => ?_
    subst hy
    exact returns_return.mpr hx
  · rw [if_neg himported]
    exact returns_return.mpr hx

end Imports

end ForkAgent.Sync

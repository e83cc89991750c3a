import ForkAgent.Memory.Served
import ForkAgent.Sync.Watermark

/-!
# Importing chunks again

An import that met no failure of the file system and returned has recorded its chunks, and what is recorded stays
so whatever others do. A later import of them only checks the manifest and the records, and no line of theirs is
read again; what an import of mutations still writes is the time of the import.
-/

namespace ForkAgent.Sync

open Effects Storage Memory

/-- The two imports, with the number of lines that each reports. -/
inductive Import where
  | observations (svc : SyncService) (chunkIds : List String) (source : String)
      (manifestPath : Option String)
  | mutations (svc : SyncService) (chunkIds : List String) (source : String)
      (manifestPath : Option String)

def Import.chunkIds : Import → List String
  | .observations _ chunkIds _ _ | .mutations _ chunkIds _ _ => chunkIds

def SyncService.ImportCounts.total (counts : ImportCounts) : Nat :=
  counts.inserted + counts.updated + counts.deleted + counts.skipped

def Import.program : Import → SyncProgram Nat
  | .observations svc chunkIds source manifestPath => svc.importObservations chunkIds source manifestPath
  | .mutations svc chunkIds source manifestPath => do
    let counts ← svc.importMutations chunkIds source manifestPath
    return counts.total

/-- The database may fail at any statement, and the directory serves every call. -/
def intact : Semantics worldSignature Exn World := World.both Store.step Disk.serve

/-- The records of chunks and the chunk files of one world are still there in the other. -/
structure Retains (w w' : World) : Prop where
  records : w.sync.syncChunks ⊆ w'.sync.syncChunks
  files : ∀ c, (w.disk.chunks c).isSome → (w'.disk.chunks c).isSome

/-- A chunk of this name has been recorded. -/
def Recorded (w : World) (chunkId : String) : Prop :=
  ∃ chunk ∈ w.sync.syncChunks, chunk.chunkId = chunkId

/-- The calls that check the manifest, the chunk files and the records; none of them writes. -/
def isCheck : worldSignature.Call → Bool
  | .inl (.inl .timeMs) | .inl (.inr (.getChunkById _)) => true
  | .inr (.chunkExists _) | .inr (.readBytes _) | .inr (.manifestExists _) | .inr (.loadManifest _) => true
  | _ => false

/-- The write of the time of the import to the status. -/
def marksImport : worldSignature.Call → Bool
  | .inl (.inr (.updateStatus none (some _) none)) => true
  | _ => false

/-- An import of mutations marks the status whether or not it has imported anything. -/
def Import.marks : Import → Bool
  | .observations .. => false
  | .mutations .. => true

/-- What is called by an import that finds all of its chunks recorded. -/
def Permitted (marks : Bool) (c : worldSignature.Call) : Prop :=
  isCheck c = true ∨ marks = true ∧ marksImport c = true

variable {w v u : World} {α : Type} {chunkId : String}

section Retains

theorem Retains.refl (w : World) : Retains w w := ⟨fun _ h => h, fun _ h => h⟩

theorem Retains.trans (h : Retains w v) (h' : Retains v u) : Retains w u :=
  ⟨fun _ hchunk => h'.records (h.records hchunk), fun c hfile => h'.files c (h.files c hfile)⟩

theorem Retains.of_reflTransGen (h : Relation.ReflTransGen Retains w v) : Retains w v := by
  induction h with
  | refl => exact .refl w
  | tail _ hlast ih => exact ih.trans hlast

theorem Retains.recorded (h : Retains w v) (hw : Recorded w chunkId) : Recorded v chunkId := by
  obtain ⟨chunk, hchunk, hid⟩ := hw
  exact ⟨chunk, h.records hchunk, hid⟩

theorem Retains.of_eq (hsync : v.sync.syncChunks = w.sync.syncChunks) (hdisk : v.disk.chunks = w.disk.chunks) :
    Retains w v := by
  constructor
  · rw [hsync]
    exact fun _ h => h
  · rw [hdisk]
    exact fun _ h => h

theorem retains_sync {c : SyncCall} {r : Except Exn c.Value} {s s' : SyncStore}
    (h : SyncStore.step ⟨c, r⟩ s s') : s.syncChunks ⊆ s'.syncChunks := by
  obtain h | ⟨rfl, -⟩ := h
  · cases c with
    | recordMutation entityKey op payload project =>
      obtain ⟨-, createdAt, -, rfl⟩ := h
      exact fun _ hchunk => hchunk
    | updateStatus exportAt importAt seq =>
      obtain ⟨-, rfl⟩ := h
      exact fun _ hchunk => hchunk
    | recordChunk chunk =>
      have htransaction : Transaction (s.recordChunk chunk.val) s r s' := h
      cases hrecord : s.recordChunk chunk.val with
      | error e =>
        rw [hrecord] at htransaction
        rw [htransaction.2]
        exact fun _ hchunk => hchunk
      | ok s₁ =>
        rw [hrecord] at htransaction
        rw [htransaction.2]
        unfold SyncStore.recordChunk at hrecord
        split_ifs at hrecord
        rw [← Except.ok.inj hrecord]
        exact List.subset_append_left _ _
    | getMutationsSince _ | getLatestSeq | getStatus | getChunkById _ =>
      rw [h.1]
      exact fun _ hchunk => hchunk
  · exact fun _ hchunk => hchunk

theorem retains_store {c : storeSignature.Call} {r : Except Exn (storeSignature.Value c)} {s s' : Store}
    (h : Store.step ⟨c, r⟩ s s') : s.2.syncChunks ⊆ s'.2.syncChunks := by
  cases c with
  | inl c =>
    rw [h.2]
    exact fun _ hchunk => hchunk
  | inr c => exact retains_sync h.1

theorem isSome_setChunk {d : Disk} {c : String} {file : ChunkFile} (name : String)
    (h : (d.chunks name).isSome) : ((d.setChunk c (some file)).chunks name).isSome := by
  unfold Disk.setChunk
  by_cases hname : name = c
  · subst hname
    simp
  · simpa [Function.update_of_ne hname] using h

theorem retains_disk {c : DiskCall} {r : Except Exn c.Value} {d d' : Disk} (h : Disk.serve ⟨c, r⟩ d d') :
    ∀ name, (d.chunks name).isSome → (d'.chunks name).isSome := by
  intro name hfile
  cases c with
  | writeChunk chunkId lines =>
    obtain ⟨-, bytes, rfl⟩ := h
    exact isSome_setChunk name hfile
  | writeManifest _ _ | setLastExport _ _ =>
    rw [h.2]
    exact hfile
  | chunkExists _ | readBytes _ | openChunk _ | manifestExists _ | loadManifest _ | globManifests
  | getLastExport _ =>
    rw [h.1]
    exact hfile

theorem retains_intact {a : Answered worldSignature Exn} (h : intact a w v) : Retains w v := by
  obtain ⟨c | c, r⟩ := a
  · refine ⟨retains_store h.1, fun name hfile => ?_⟩
    rw [show v.disk = w.disk from h.2]
    exact hfile
  · refine ⟨?_, retains_disk h.1⟩
    rw [show v.sync = w.sync from congrArg Prod.snd h.2]
    exact fun _ hchunk => hchunk

/-- A check keeps them even where the file system fails. -/
theorem retains_check {a : Answered worldSignature Exn} (ha : isCheck a.call = true)
    (h : World.step a w v) : Retains w v := by
  obtain ⟨c | c, r⟩ := a
  · exact retains_intact (a := ⟨.inl c, r⟩) h
  · obtain hserve | hfail := h.1
    · exact retains_intact (a := ⟨.inr c, r⟩) ⟨hserve, h.2⟩
    · have hdisk : v.disk = w.disk := by
        cases c with
        | chunkExists _ | readBytes _ | manifestExists _ | loadManifest _ => exact hfail.1
        | _ => cases ha
      exact .of_eq (by rw [show v.sync = w.sync from congrArg Prod.snd h.2]) (by rw [hdisk])

theorem retains_permitted {marks : Bool} {a : Answered worldSignature Exn} (ha : Permitted marks a.call)
    (h : World.step a w v) : Retains w v := by
  obtain hcheck | ⟨-, hmarks⟩ := ha
  · exact retains_check hcheck h
  · obtain ⟨c | c, r⟩ := a
    · exact retains_intact (a := ⟨.inl c, r⟩) h
    · cases hmarks

end Retains

section First

/-- The first import, with whatever others do that retains its chunks. -/
def shared : Semantics worldSignature Exn World := intact.disturbed Retains

theorem retains_shared {a : Answered worldSignature Exn} (h : shared a w v) : Retains w v := by
  obtain ⟨w₁, houtside, hstep⟩ := h
  exact (Retains.of_reflTransGen houtside).trans (retains_intact hstep)

theorem retains_runs {p : SyncProgram α} {out : Except Exn α} (h : p.Runs shared w out v) : Retains w v := by
  induction p generalizing w with
  | ret a =>
    rw [h.2]
    exact .refl w
  | fail e =>
    rw [h.2]
    exact .refl w
  | call c next ih =>
    obtain ⟨r, w₁, hstep, hrest⟩ := h
    exact (retains_shared hstep).trans (ih r hrest)

theorem getChunkById_isSome {recorded : Option SyncChunk} {s s' : SyncStore}
    (h : SyncStore.serve ⟨.getChunkById chunkId, .ok recorded⟩ s s') :
    recorded.isSome ↔ ∃ chunk ∈ s.syncChunks, chunk.chunkId = chunkId := by
  have hread := h.2
  cases hfind : s.syncChunks.find? fun chunk => chunk.chunkId == chunkId with
  | none =>
    rw [hfind] at hread
    cases hread
    simpa using List.find?_eq_none.mp hfind
  | some chunk =>
    have hchunk := List.mem_of_find?_eq_some hfind
    have hid : chunk.chunkId = chunkId := by simpa using List.find?_some hfind
    cases recorded with
    | none =>
      rw [hfind] at hread
      cases hconstruct : construct SyncChunkFields.postInit chunk with
      | ok v =>
        rw [Option.mapM_some, hconstruct] at hread
        cases hread
      | error e =>
        rw [Option.mapM_some, hconstruct] at hread
        cases hread
    | some v => exact iff_of_true rfl ⟨chunk, hchunk, hid⟩

theorem sync_shared {c : SyncCall} {x : c.Value} (h : (sync c).Runs shared w (.ok x) v) :
    ∃ w₁, Retains w w₁ ∧ SyncStore.serve ⟨c, .ok x⟩ w₁.sync v.sync ∧ v.disk = w₁.disk := by
  rw [sync_eq] at h
  obtain ⟨w₁, houtside, ⟨hstep, -⟩, hdisk⟩ := Program.runs_perform.mp h
  refine ⟨w₁, .of_reflTransGen houtside, ?_, hdisk⟩
  obtain hserve | ⟨-, m, hfail⟩ := hstep
  · exact hserve
  · cases hfail

theorem diskCall_shared {c : DiskCall} {r : Except Exn c.Value} (h : (diskCall c).Runs shared w r v) :
    ∃ w₁, Retains w w₁ ∧ Disk.serve ⟨c, r⟩ w₁.disk v.disk := by
  obtain ⟨w₁, houtside, hserve, -⟩ := Program.runs_perform.mp h
  exact ⟨w₁, .of_reflTransGen houtside, hserve⟩

theorem recordChunk_records {source : String} {timestamp count : Nat}
    (h : (SyncService.recordChunk chunkId source timestamp count).Runs shared w (.ok ()) u) :
    Recorded u chunkId := by
  obtain ⟨bytes, w₁, -, hrest⟩ := runs_bind_ok.mp h
  obtain ⟨chunk, w₂, hconstruct, hsync⟩ := runs_bind_ok.mp hrest
  have hchunk := construct_eq_ok.mp (Program.runs_ofExcept.mp hconstruct).1.symm
  obtain ⟨w₃, -, hserve, -⟩ := sync_shared hsync
  have hrecord := Transaction.ok hserve
  unfold SyncStore.recordChunk at hrecord
  split_ifs at hrecord
  refine ⟨chunk.val, ?_, by rw [hchunk]⟩
  rw [← Except.ok.inj hrecord]
  simp

theorem importChunk_records {svc : SyncService} {source : String} {timestamp n : Nat}
    (hfile : (w.disk.chunks chunkId).isSome)
    (h : (svc.importChunk source timestamp chunkId).Runs shared w (.ok n) u) : Recorded u chunkId := by
  obtain ⟨found, w₁, hexists, hrest⟩ := runs_bind_ok.mp h
  obtain ⟨w₀, houtside, -, hfound⟩ := diskCall_shared hexists
  rw [Except.ok.inj hfound, if_pos (houtside.files chunkId hfile)] at hrest
  obtain ⟨recorded, w₂, hget, hrest⟩ := runs_bind_ok.mp hrest
  obtain ⟨w₁', -, hserve, -⟩ := sync_shared hget
  by_cases hrecorded : recorded.isSome
  · obtain ⟨chunk, hchunk, hid⟩ := (getChunkById_isSome hserve).mp hrecorded
    rw [← hserve.1] at hchunk
    exact (retains_runs hrest).recorded ⟨chunk, hchunk, hid⟩
  · rw [if_neg hrecorded] at hrest
    obtain ⟨count, w₃, -, hrest⟩ := runs_bind_ok.mp hrest
    obtain ⟨_, w₄, hrecord, hret⟩ := runs_bind_ok.mp hrest
    rw [(runs_return.mp hret).2]
    exact recordChunk_records hrecord

theorem openChunk_shared {opened : Option Reading} (hfile : (w.disk.chunks chunkId).isSome)
    (h : (SyncService.openChunk chunkId).Runs shared w (.ok opened) v) : opened.isSome := by
  obtain ⟨a, hopen, ha⟩ | ⟨e, w₁, hfails, -⟩ := Program.runs_handle.mp h
  · obtain ⟨reading, w₁, -, hret⟩ := runs_bind_ok.mp hopen
    have hopened := (runs_return.mp hret).1
    rw [Except.ok.inj ha, Except.ok.inj hopened]
    rfl
  · obtain ⟨e', hcall, -⟩ | ⟨reading, w₂, -, hret⟩ := Program.runs_bind.mp hfails
    · obtain ⟨w₀, houtside, -, hmissing⟩ := diskCall_shared hcall
      obtain ⟨file, hchunk⟩ := Option.isSome_iff_exists.mp (houtside.files chunkId hfile)
      rw [hchunk] at hmissing
      cases hmissing
    · cases (runs_return.mp hret).1

theorem importMutationChunk_records {svc : SyncService} {source : String} {timestamp : Nat}
    {counts counts' : SyncService.ImportCounts} (hfile : (w.disk.chunks chunkId).isSome)
    (h : (svc.importMutationChunk source timestamp counts chunkId).Runs shared w (.ok counts') u) :
    Recorded u chunkId := by
  obtain ⟨recorded, w₁, hget, hrest⟩ := runs_bind_ok.mp h
  obtain ⟨w₀, -, hserve, -⟩ := sync_shared hget
  by_cases hrecorded : recorded.isSome
  · obtain ⟨chunk, hchunk, hid⟩ := (getChunkById_isSome hserve).mp hrecorded
    rw [← hserve.1] at hchunk
    exact (retains_runs hrest).recorded ⟨chunk, hchunk, hid⟩
  · rw [if_neg hrecorded] at hrest
    obtain ⟨opened, w₂, hopen, hrest⟩ := runs_bind_ok.mp hrest
    have hopened := openChunk_shared ((retains_runs hget).files chunkId hfile) hopen
    obtain ⟨reading, rfl⟩ := Option.isSome_iff_exists.mp hopened
    obtain ⟨applied, w₃, -, hrest⟩ := runs_bind_ok.mp hrest
    obtain ⟨ended, w₄, -, hrest⟩ := runs_bind_ok.mp hrest
    obtain ⟨_, w₅, hrecord, hret⟩ := runs_bind_ok.mp hrest
    rw [(runs_return.mp hret).2]
    exact recordChunk_records hrecord

theorem importChunks_records {svc : SyncService} {source : String} {timestamp n : Nat}
    {chunkIds : List String} (hfiles : ∀ c ∈ chunkIds, (w.disk.chunks c).isSome)
    (h : (svc.importChunks source timestamp chunkIds).Runs shared w (.ok n) u) :
    ∀ c ∈ chunkIds, Recorded u c := by
  induction chunkIds generalizing w n with
  | nil => exact List.forall_mem_nil _
  | cons c chunkIds ih =>
    obtain ⟨count, w₁, hchunk, hrest⟩ := runs_bind_ok.mp h
    obtain ⟨more, w₂, hmore, hret⟩ := runs_bind_ok.mp hrest
    rw [← (runs_return.mp hret).2] at hmore
    obtain ⟨hfile, hfiles⟩ := List.forall_mem_cons.mp hfiles
    have hretains := retains_runs hchunk
    refine List.forall_mem_cons.mpr ⟨?_, ih (fun c hc => hretains.files c (hfiles c hc)) hmore⟩
    exact (retains_runs hmore).recorded (importChunk_records hfile hchunk)

theorem importMutationChunks_records {svc : SyncService} {source : String} {timestamp : Nat}
    {counts counts' : SyncService.ImportCounts} {chunkIds : List String}
    (hfiles : ∀ c ∈ chunkIds, (w.disk.chunks c).isSome)
    (h : (svc.importMutationChunks source timestamp counts chunkIds).Runs shared w (.ok counts') u) :
    ∀ c ∈ chunkIds, Recorded u c := by
  induction chunkIds generalizing w counts with
  | nil => exact List.forall_mem_nil _
  | cons c chunkIds ih =>
    obtain ⟨counts₁, w₁, hchunk, hmore⟩ := runs_bind_ok.mp h
    obtain ⟨hfile, hfiles⟩ := List.forall_mem_cons.mp hfiles
    have hretains := retains_runs hchunk
    refine List.forall_mem_cons.mpr ⟨?_, ih (fun c hc => hretains.files c (hfiles c hc)) hmore⟩
    exact (retains_runs hmore).recorded (importMutationChunk_records hfile hchunk)

theorem import_records {first : Import} {n : Nat} (hfiles : ∀ c ∈ first.chunkIds, (w.disk.chunks c).isSome)
    (h : first.program.Runs shared w (.ok n) u) : ∀ c ∈ first.chunkIds, Recorded u c := by
  intro c hc
  cases first with
  | observations svc chunkIds source manifestPath =>
    obtain ⟨valid, w₁, hvalid, hrest⟩ := runs_bind_ok.mp h
    obtain ⟨timestamp, w₂, htime, hrest⟩ := runs_bind_ok.mp hrest
    obtain ⟨imported, w₃, hchunks, hrest⟩ := runs_bind_ok.mp hrest
    have hbefore := (retains_runs hvalid).trans (retains_runs htime)
    have hrecorded := importChunks_records (fun c hc => hbefore.files c (hfiles c hc)) hchunks c hc
    exact (retains_runs hrest).recorded hrecorded
  | mutations svc chunkIds source manifestPath =>
    obtain ⟨counts, w₄, himport, hret⟩ := runs_bind_ok.mp h
    rw [(runs_return.mp hret).2]
    obtain ⟨valid, w₁, hvalid, hrest⟩ := runs_bind_ok.mp himport
    obtain ⟨timestamp, w₂, htime, hrest⟩ := runs_bind_ok.mp hrest
    obtain ⟨counts, w₃, hchunks, hrest⟩ := runs_bind_ok.mp hrest
    have hbefore := (retains_runs hvalid).trans (retains_runs htime)
    have hrecorded := importMutationChunks_records (fun c hc => hbefore.files c (hfiles c hc)) hchunks c hc
    exact (retains_runs hrest).recorded hrecorded

end First

section Again

/-- The second import, whatever others do, and whatever fails. -/
def sharedStep : Semantics worldSignature Exn World := World.step.disturbed Retains

variable {svc : SyncService} {source : String} {timestamp : Nat} {chunkIds : List String} {marks : Bool}

/-- The program only checks, or marks the status too, and a value that it returns satisfies `Q`. -/
def OnlyChecks (marks : Bool) (p : SyncProgram α) (Q : α → Prop) (w : World) : Prop :=
  p.Always sharedStep (fun _ c => Permitted marks c) (fun out u => Retains w u ∧ ∀ a, out = .ok a → Q a) w

theorem onlyChecks_return {a : α} {Q : α → Prop} (h : Q a) : OnlyChecks marks (return a) Q w := by
  refine ⟨.refl w, fun b hb => ?_⟩
  rw [← Except.ok.inj hb]
  exact h

theorem OnlyChecks.bind {β : Type} {p : SyncProgram β} {f : β → SyncProgram α} {P : β → Prop}
    {Q : α → Prop} (hp : OnlyChecks marks p P w) (hf : ∀ b u, P b → Retains w u → OnlyChecks marks (f b) Q u) :
    OnlyChecks marks (p >>= f) Q w := by
  refine Program.Always.bind hp (fun b u hb => ?_) fun e u he => ⟨he.1, nofun⟩
  refine (hf b u (hb.2 b rfl) hb.1).mono (fun _ _ hc => hc) fun out u' hout => ?_
  exact ⟨hb.1.trans hout.1, hout.2⟩

theorem onlyChecks_of_permitted {p : SyncProgram α} (hp : p.OnlyCalls (Permitted marks)) :
    OnlyChecks marks p (fun _ => True) w := by
  have hretains : p.Respects sharedStep Retains := by
    refine hp.respects .refl (fun _ _ _ => .trans) fun c r s s' hc hstep => ?_
    obtain ⟨s₁, houtside, hstep⟩ := hstep
    exact (Retains.of_reflTransGen houtside).trans (retains_permitted hc hstep)
  exact ((hp.always w).and (hretains w)).mono (fun _ _ h => h.1) fun _ _ h => ⟨h.2, fun _ _ => trivial⟩

theorem onlyChecks_of_onlyCalls {p : SyncProgram α} (hp : p.OnlyCalls fun c => isCheck c = true) :
    OnlyChecks marks p (fun _ => True) w := onlyChecks_of_permitted (hp.mono fun _ => .inl)

theorem updateStatus_onlyChecks (timestamp : Int) :
    OnlyChecks true (sync (.updateStatus none (some timestamp) none)) (fun _ => True) w := by
  rw [sync_eq]
  exact onlyChecks_of_permitted (.perform (.inr ⟨rfl, rfl⟩))

theorem timeMs_onlyChecks : OnlyChecks marks timeMs (fun _ => True) w := by
  rw [timeMs_eq]
  exact onlyChecks_of_onlyCalls (.perform rfl)

theorem readExistingChunks_onlyCalls (chunkIds : List String) :
    (readExistingChunks chunkIds).OnlyCalls fun c => isCheck c = true := by
  induction chunkIds with
  | nil => exact Program.onlyCalls_ret _
  | cons c chunkIds ih =>
    refine Program.OnlyCalls.bind ?_ fun bytes => ih.bind fun _ => Program.onlyCalls_ret _
    refine Program.OnlyCalls.bind (.perform rfl) fun found => ?_
    cases found with
    | false => exact Program.onlyCalls_ret _
    | true => exact Program.OnlyCalls.perform (A := fun c => isCheck c = true) rfl

theorem checkManifest_onlyCalls (svc : SyncService) (chunkIds : List String) (manifest : Json) :
    (svc.checkManifest chunkIds manifest).OnlyCalls fun c => isCheck c = true := by
  unfold SyncService.checkManifest
  split
  · split
    · split_ifs
      · refine (readExistingChunks_onlyCalls _).bind fun bytes => ?_
        split_ifs <;> trivial
      · trivial
    · split_ifs <;> trivial
  · trivial

theorem validateManifest_onlyChecks (manifestPath : Option String) :
    OnlyChecks marks (svc.validateManifest chunkIds manifestPath) (fun _ => True) w := by
  apply onlyChecks_of_onlyCalls
  cases manifestPath with
  | none => exact Program.onlyCalls_ret _
  | some name =>
    refine Program.OnlyCalls.bind (.perform rfl) fun found => ?_
    split_ifs
    · refine Program.OnlyCalls.bind ?_ fun manifest => checkManifest_onlyCalls svc chunkIds manifest
      exact Program.OnlyCalls.handle (.perform rfl) fun e => Program.onlyCalls_fail _
    · exact Program.onlyCalls_ret _

theorem getChunkById_onlyChecks (hrecorded : Recorded w chunkId) :
    OnlyChecks marks (sync (.getChunkById chunkId)) (fun recorded => recorded.isSome) w := by
  unfold OnlyChecks
  rw [sync_eq]
  refine (Program.always_perform (Φ := fun _ c => Permitted marks c) _ _).mpr ⟨.inl rfl, fun r u hstep => ?_⟩
  obtain ⟨w₁, houtside, hstep⟩ := hstep
  have hbefore := Retains.of_reflTransGen houtside
  refine ⟨hbefore.trans (retains_check rfl hstep), fun recorded hr => ?_⟩
  subst hr
  obtain hserve | ⟨-, m, hfail⟩ := hstep.1.1
  · exact (getChunkById_isSome hserve).mpr (hbefore.recorded hrecorded)
  · cases hfail

theorem importChunk_onlyChecks (hrecorded : Recorded w chunkId) :
    OnlyChecks marks (svc.importChunk source timestamp chunkId) (fun count => count = 0) w := by
  refine (onlyChecks_of_onlyCalls (.perform rfl)).bind fun found u _ hretains => ?_
  split_ifs
  · refine (getChunkById_onlyChecks (hretains.recorded hrecorded)).bind fun recorded u' hsome _ => ?_
    rw [if_pos hsome]
    exact onlyChecks_return rfl
  · exact onlyChecks_return rfl

theorem importMutationChunk_onlyChecks {counts : SyncService.ImportCounts}
    (hrecorded : Recorded w chunkId) :
    OnlyChecks marks (svc.importMutationChunk source timestamp counts chunkId) (fun counts' => counts' = counts) w := by
  refine (getChunkById_onlyChecks hrecorded).bind fun recorded u hsome _ => ?_
  rw [if_pos hsome]
  exact onlyChecks_return rfl

theorem importChunks_onlyChecks (hrecorded : ∀ c ∈ chunkIds, Recorded w c) :
    OnlyChecks marks (svc.importChunks source timestamp chunkIds) (fun count => count = 0) w := by
  induction chunkIds generalizing w with
  | nil => exact onlyChecks_return rfl
  | cons c chunkIds ih =>
    obtain ⟨hc, hrest⟩ := List.forall_mem_cons.mp hrecorded
    refine (importChunk_onlyChecks hc).bind fun count u hcount hretains => ?_
    refine (ih fun c hc => hretains.recorded (hrest c hc)).bind fun more u' hmore _ => ?_
    apply onlyChecks_return
    rw [hcount, hmore]

theorem importMutationChunks_onlyChecks {counts : SyncService.ImportCounts}
    (hrecorded : ∀ c ∈ chunkIds, Recorded w c) :
    OnlyChecks marks (svc.importMutationChunks source timestamp counts chunkIds) (fun counts' => counts' = counts) w := by
  induction chunkIds generalizing w with
  | nil => exact onlyChecks_return rfl
  | cons c chunkIds ih =>
    obtain ⟨hc, hrest⟩ := List.forall_mem_cons.mp hrecorded
    refine (importMutationChunk_onlyChecks hc).bind fun counts' u hcounts hretains => ?_
    rw [hcounts]
    exact ih fun c hc => hretains.recorded (hrest c hc)

/-- An import of chunks that are all recorded checks them, may write its time, and reports nothing. -/
theorem import_onlyChecks {again : Import} (hrecorded : ∀ c ∈ again.chunkIds, Recorded w c) :
    OnlyChecks again.marks again.program (fun n => n = 0) w := by
  cases again with
  | observations svc chunkIds source manifestPath =>
    refine (validateManifest_onlyChecks manifestPath).bind fun valid w₁ _ hvalid => ?_
    refine timeMs_onlyChecks.bind fun timestamp w₂ _ htime => ?_
    have hretains := hvalid.trans htime
    refine (importChunks_onlyChecks fun c hc => hretains.recorded (hrecorded c hc)).bind
      fun imported w₃ himported _ => ?_
    rw [if_neg (by omega)]
    exact onlyChecks_return himported
  | mutations svc chunkIds source manifestPath =>
    refine OnlyChecks.bind (P := fun counts => counts = {}) ?_ fun counts w₁ hcounts _ => ?_
    · refine (validateManifest_onlyChecks manifestPath).bind fun valid w₁ _ hvalid => ?_
      refine timeMs_onlyChecks.bind fun timestamp w₂ _ htime => ?_
      have hretains := hvalid.trans htime
      refine (importMutationChunks_onlyChecks fun c hc => hretains.recorded (hrecorded c hc)).bind
        fun counts w₃ hcounts _ => ?_
      exact (updateStatus_onlyChecks _).bind fun _ _ _ _ => onlyChecks_return hcounts
    · subst hcounts
      exact onlyChecks_return rfl

/-- Once an import that the file system served has returned, any later import of its chunks, by whichever command
and service, only checks the manifest and the records and, if it is one of mutations, writes its time, however far
it gets and whatever fails in it. -/
theorem imported_again_only_checks {first again : Import} {n : Nat} {h : List (Answered worldSignature Exn)}
    {q : SyncProgram Nat} {w u v v' : World} (hfiles : ∀ c ∈ first.chunkIds, (w.disk.chunks c).isSome)
    (hfirst : first.program.Runs shared w (.ok n) u) (hmeanwhile : Retains u v)
    (hsame : again.chunkIds ⊆ first.chunkIds) (hagain : again.program.Reaches sharedStep v h q v') :
    (∀ a ∈ h, Permitted again.marks a.call) ∧ ∀ m, q = .ret m → m = 0 := by
  have hrecords := import_records hfiles hfirst
  have hchecks : OnlyChecks again.marks again.program (fun n => n = 0) v :=
    import_onlyChecks fun c hc => hmeanwhile.recorded (hrecords c (hsame hc))
  constructor
  · exact hagain.calls hchecks
  · rintro m rfl
    exact (hagain.always hchecks).2 m rfl

section Example

theorem generated_ne_empty : "a" ≠ "" := by decide

/-- What the database answers, and the directory to the calls of an import. -/
def respondWorld : (c : worldSignature.Call) → World → Option (Except Exn (worldSignature.Value c) × World)
  | .inl c, w =>
    let answer := Store.respond ⟨0, "a", generated_ne_empty⟩ c w.1
    some (answer.1, answer.2, w.2)
  | .inr (.chunkExists c), w => some (.ok (w.2.chunks c).isSome, w)
  | .inr (.readBytes c), w => (w.2.chunks c).map fun file => (.ok file.bytes, w)
  | .inr (.openChunk c), w => (w.2.chunks c).map fun file => (.ok { lines := file.lines }, w)
  | .inr _, _ => none

theorem respondWorld_intact (c : worldSignature.Call) (s : World)
    (r : Except Exn (worldSignature.Value c)) (s' : World) (h : respondWorld c s = some (r, s')) :
    intact ⟨c, r⟩ s s' := by
  cases c with
  | inl c =>
    cases h
    have hserve := Store.respond_serve { id := "a" } c s.1
    cases c with
    | inl c => exact ⟨⟨.inl hserve.1, hserve.2⟩, rfl⟩
    | inr c => exact ⟨⟨.inl hserve.1, hserve.2⟩, rfl⟩
  | inr c =>
    cases c with
    | chunkExists c =>
      cases h
      exact ⟨⟨rfl, rfl⟩, rfl⟩
    | readBytes c | openChunk c =>
      obtain ⟨file, hfile, heq⟩ := Option.map_eq_some_iff.mp h
      cases heq
      refine ⟨⟨rfl, ?_⟩, rfl⟩
      rw [hfile]
      exact rfl
    | _ => cases h

theorem respondWorld_step (c : worldSignature.Call) (s : World) (r : Except Exn (worldSignature.Value c))
    (s' : World) (h : respondWorld c s = some (r, s')) : World.step ⟨c, r⟩ s s' := by
  have hintact := respondWorld_intact c s r s' h
  cases c with
  | inl c => exact hintact
  | inr c => exact ⟨.inl hintact.1, hintact.2⟩

/-- One chunk with one line, and an empty database. -/
def oneChunk : World :=
  (({}, {}), { chunks := fun c => if c = "c" then some ⟨[some (.obj
    [("id", .str "n"), ("timestamp", .int 0), ("content", .str "note")])], []⟩ else none })

def importNote : Import := .observations plainService ["c"] "remote" none

theorem importNote_again : ∃ h : List (Answered worldSignature Exn), h.length = 3 ∧
    (∀ a ∈ h, Permitted importNote.marks a.call) ∧ ∀ m, (.ret 0 : SyncProgram Nat) = .ret m → m = 0 := by
  obtain ⟨h₁, u, h₂, v, hfirst, hagain, hlength⟩ : ∃ h₁ u h₂ v,
      importNote.program.exec respondWorld oneChunk = some (.ok 1, h₁, u) ∧
        importNote.program.exec respondWorld u = some (.ok 0, h₂, v) ∧ List.length h₂ = 3 :=
    ⟨_, _, _, _, rfl, rfl, rfl⟩
  have hfirst : importNote.program.Reaches shared oneChunk h₁ (.ofExcept (.ok 1)) u :=
    (Program.exec_reaches respondWorld_intact hfirst).disturbed
  have hagain : importNote.program.Reaches sharedStep u h₂ (.ret 0) v :=
    (Program.exec_reaches respondWorld_step hagain).disturbed
  have hfiles : ∀ c ∈ importNote.chunkIds, (oneChunk.disk.chunks c).isSome := by
    intro c hc
    rw [List.mem_singleton.mp hc]
    rfl
  exact ⟨h₂, hlength, imported_again_only_checks hfiles hfirst.runs (.refl u) (List.Subset.refl _) hagain⟩

end Example

end Again

end ForkAgent.Sync

import ForkAgent.Sync.Manifest

/-!
# The export watermark

Exports of any number of services side by side, with mutations landing in the journal. A watermark
that is stored comes from a read of the journal, made by the caller itself or, where the store was
deferred, by the export that its service ran last.
-/

namespace ForkAgent.Sync

open Effects Storage Memory Program

section Calls

theorem onStore_perform (c : storeSignature.Call) :
    (Program.perform (ε := Exn) c).lift (.inl storeSignature diskSignature) =
      .perform (σ := worldSignature) (.inl c) := by
  refine congrArg (Program.call (σ := worldSignature) (.inl c)) ?_
  funext r
  rcases r with e | v <;> rfl

theorem sync_eq (c : SyncCall) : sync c = .perform (σ := worldSignature) (.inl (.inr c)) :=
  onStore_perform (.inr c)

theorem timeMs_eq : timeMs = .perform (σ := worldSignature) (.inl (.inl .timeMs)) :=
  onStore_perform (.inl .timeMs)

end Calls

/-- A read that a watermark may come from: of the journal, or of what an export has left. -/
def isRead : Answered worldSignature Exn → Bool
  | ⟨.inl (.inr (.getMutationsSince _)), .ok _⟩ => true
  | ⟨.inl (.inr .getLatestSeq), .ok _⟩ => true
  | ⟨.inr (.getLastExport _), .ok _⟩ => true
  | _ => false

/-- The sequence numbers that an export may take from such a read. -/
def Yields : Answered worldSignature Exn → Nat → Prop
  | ⟨.inl (.inr (.getMutationsSince since)), .ok mutations⟩, seq =>
    let fields := List.map (fun m : SyncMutation => m.val) mutations
    seq = SyncService.maxSeq since fields ∨ ∃ chunkSize ≠ 0, seq = SyncService.reachedSeq chunkSize since fields
  | ⟨.inl (.inr .getLatestSeq), .ok latest⟩, seq => seq = latest
  | ⟨.inr (.getLastExport _), .ok last⟩, seq => last.maxSeq ≠ 0 ∧ seq = last.maxSeq
  | _, _ => False

def lastRead (h : List (Answered worldSignature Exn)) : Option (Answered worldSignature Exn) :=
  (h.filter isRead).getLast?

def LastYields (h : List (Answered worldSignature Exn)) (seq : Nat) : Prop :=
  ∃ a, lastRead h = some a ∧ Yields a seq

/-- Before it reads the journal an export has read the status; what it stores, or leaves for a later
store, comes from its last read. -/
def watermarkGuard (self : Nat) (h : List (Answered worldSignature Exn)) : worldSignature.Call → Prop
  | .inl (.inr (.getMutationsSince since)) =>
    ∃ status : SyncStatus, ⟨.inl (.inr .getStatus), .ok status⟩ ∈ h ∧ since = status.lastExportSeq
  | .inl (.inr (.updateStatus _ _ (some seq))) => LastYields h seq
  | .inr (.setLastExport self' last) => self' = self ∧ (last.maxSeq = 0 ∨ LastYields h last.maxSeq)
  | .inr (.getLastExport self') => self' = self
  | _ => True

/-- The calls that neither read nor store anything of a watermark. -/
def isAside : worldSignature.Call → Bool
  | .inl (.inr (.getMutationsSince _)) | .inl (.inr .getLatestSeq)
  | .inl (.inr (.updateStatus _ _ (some _))) | .inr (.setLastExport ..) | .inr (.getLastExport _) => false
  | _ => true

theorem lastRead_concat (h : List (Answered worldSignature Exn)) (a : Answered worldSignature Exn) :
    lastRead (h ++ [a]) = if isRead a then some a else lastRead h := by
  unfold lastRead
  rw [List.filter_append]
  cases ha : isRead a <;> simp [ha]

theorem isRead_of_isAside {a : Answered worldSignature Exn} (h : isAside a.call = true) :
    isRead a = false := by
  obtain ⟨(c | c) | c, r⟩ := a
  · rfl
  · cases c <;> first | rfl | cases h
  · cases c <;> first | rfl | cases h

theorem watermarkGuard_of_isAside {self : Nat} {h : List (Answered worldSignature Exn)}
    {c : worldSignature.Call} (hc : isAside c = true) : watermarkGuard self h c := by
  obtain (c | c) | c := c
  · trivial
  · cases c with
    | updateStatus exportAt importAt seq =>
      cases seq with
      | none => trivial
      | some seq => cases hc
    | _ => trivial
  · cases c <;> trivial

variable {self : Nat} {h : List (Answered worldSignature Exn)} {α : Type}

theorem ensures_of_onlyCalls {p : SyncProgram α} (hp : p.OnlyCalls fun c => isAside c = true)
    (read : Option (Answered worldSignature Exn)) (hread : lastRead h = read) :
    p.Ensures (watermarkGuard self) (fun h' _ => lastRead h' = read) h := by
  refine hp.keeps (K := fun h' => lastRead h' = read) ?_ (fun _ _ _ hc => watermarkGuard_of_isAside hc) hread
  intro h' a ha hh'
  rw [lastRead_concat, isRead_of_isAside ha]
  exact hh'

theorem aside_onStore {p : MemoryProgram α} (hp : p.OnlyCalls fun c => isAside (.inl c) = true) :
    (onStore p).OnlyCalls fun c => isAside c = true := hp.lift

theorem aside_diskCall {c : DiskCall} (hc : isAside (.inr c) = true) :
    (diskCall c).OnlyCalls fun c => isAside c = true := .perform hc

theorem aside_timeMs : timeMs.OnlyCalls fun c => isAside c = true := by
  rw [timeMs_eq]
  exact .perform rfl

theorem aside_writeChunks (kind : String) (timestamp index : Nat) (lines : List (List JsonObject)) :
    (writeChunks kind timestamp index lines).OnlyCalls fun c => isAside c = true := by
  induction lines generalizing index with
  | nil => exact onlyCalls_ret _
  | cons file files ih =>
    refine (aside_diskCall rfl).bind fun _ => ?_
    exact (ih (index + 1)).bind fun _ => onlyCalls_ret _

theorem aside_readChunks (chunkIds : List String) :
    (readChunks chunkIds).OnlyCalls fun c => isAside c = true := by
  induction chunkIds with
  | nil => exact onlyCalls_ret _
  | cons c chunkIds ih =>
    refine (aside_diskCall rfl).bind fun _ => ?_
    exact ih.bind fun _ => onlyCalls_ret _

theorem aside_writeManifest (svc : SyncService) (chunkIds : List String) (total timestamp : Nat) :
    (svc.writeManifest chunkIds total timestamp).OnlyCalls fun c => isAside c = true :=
  (aside_readChunks chunkIds).bind fun _ => aside_diskCall rfl

theorem writeExport_ensures {svc : SyncService} {kind : String} {timestamp total : Nat}
    {lines : List (List JsonObject)} {k : List String → SyncProgram α}
    {read : Option (Answered worldSignature Exn)} (hread : lastRead h = read)
    (hrest : ∀ h' chunkIds, lastRead h' = read →
      (k chunkIds).Ensures (watermarkGuard self) (fun _ _ => True) h') :
    (do let chunkIds ← writeChunks kind timestamp 0 lines
        svc.writeManifest chunkIds total timestamp
        k chunkIds).Ensures (watermarkGuard self) (fun _ _ => True) h := by
  refine (ensures_of_onlyCalls (aside_writeChunks kind timestamp 0 lines) read hread).bind
    (fun h₁ chunkIds hread₁ => ?_) fun _ _ _ => trivial
  refine (ensures_of_onlyCalls (aside_writeManifest svc chunkIds total timestamp) read hread₁).bind
    (fun h₂ _ hread₂ => hrest h₂ chunkIds hread₂) fun _ _ _ => trivial

theorem lastRead_concat_read {a : Answered worldSignature Exn} (ha : isRead a = true) :
    lastRead (h ++ [a]) = some a := by
  rw [lastRead_concat, if_pos ha]

theorem updateStatus_ensures {exportAt importAt : Option Int} {seq : Nat} {value : α}
    (hyields : LastYields h seq) :
    (do sync (.updateStatus exportAt importAt (some seq))
        return value).Ensures (watermarkGuard self) (fun _ _ => True) h := by
  rw [sync_eq]
  exact (ensures_perform_bind _ _).mpr ⟨hyields, fun _ => trivial, fun _ => trivial⟩

theorem exportMutations_ensures (svc : SyncService) {chunkSize : Nat} {commitWatermark : Bool}
    {since : Nat} {mutations : List SyncMutation}
    (hread : lastRead h = some ⟨.inl (.inr (.getMutationsSince since)), .ok mutations⟩) :
    (svc.exportMutations chunkSize commitWatermark since (mutations.map (·.val))).Ensures
      (watermarkGuard svc.self) (fun _ _ => True) h := by
  refine (ensures_of_onlyCalls aside_timeMs _ hread).bind (fun h₁ timestamp hread₁ => ?_)
    fun _ _ _ => trivial
  by_cases hsize : chunkSize = 0
  · rw [if_pos hsize]
    trivial
  · rw [if_neg hsize]
    refine writeExport_ensures hread₁ fun h₂ chunkIds hread₂ => ?_
    have hyields : LastYields h₂ (SyncService.reachedSeq chunkSize since (mutations.map (·.val))) :=
      ⟨_, hread₂, .inr ⟨chunkSize, hsize, rfl⟩⟩
    refine (ensures_perform_bind _ _).mpr ⟨⟨rfl, .inr hyields⟩, fun _ => ?_, fun _ => trivial⟩
    have hcommit : LastYields (h₂ ++ [⟨.inr (.setLastExport svc.self
        ⟨SyncService.reachedSeq chunkSize since (mutations.map (·.val)), timestamp⟩), .ok ()⟩])
        (SyncService.reachedSeq chunkSize since (mutations.map (·.val))) := by
      obtain ⟨a, ha, hseq⟩ := hyields
      exact ⟨a, by rw [lastRead_concat]; exact ha, hseq⟩
    cases commitWatermark with
    | false => trivial
    | true => exact updateStatus_ensures hcommit

theorem exportPending_ensures (svc : SyncService) {chunkSize : Nat} {commitWatermark : Bool}
    {since : Nat} {mutations : List SyncMutation}
    (hread : lastRead h = some ⟨.inl (.inr (.getMutationsSince since)), .ok mutations⟩) :
    (svc.exportPending chunkSize commitWatermark since mutations).Ensures (watermarkGuard svc.self)
      (fun _ _ => True) h := by
  unfold SyncService.exportPending
  by_cases hempty : mutations = []
  · rw [if_pos hempty]
    refine (ensures_perform_bind _ _).mpr ⟨rfl, fun last => ?_, fun _ => trivial⟩
    exact (ensures_perform_bind _ _).mpr ⟨⟨rfl, .inl rfl⟩, fun _ => trivial, fun _ => trivial⟩
  · rw [if_neg hempty]
    exact exportMutations_ensures svc hread

theorem exportIncremental_ensures (svc : SyncService) (chunkSize : Nat) (commitWatermark : Bool) :
    (svc.exportIncremental chunkSize commitWatermark).Ensures (watermarkGuard svc.self)
      (fun _ _ => True) [] := by
  unfold SyncService.exportIncremental
  rw [sync_eq]
  refine (ensures_perform_bind _ _).mpr ⟨trivial, fun status => ?_, fun _ => trivial⟩
  rw [sync_eq]
  refine (ensures_perform_bind _ _).mpr ⟨⟨status, by simp, rfl⟩, fun mutations => ?_, fun _ => trivial⟩
  exact exportPending_ensures svc (lastRead_concat_read rfl)

theorem commitLast_ensures {last : LastExport} (self : Nat)
    (hread : lastRead h = some ⟨.inr (.getLastExport self), .ok last⟩) :
    (SyncService.commitLast last).Ensures (watermarkGuard self) (fun _ _ => True) h := by
  unfold SyncService.commitLast
  by_cases hseq : last.maxSeq = 0
  · rw [if_pos hseq]
    trivial
  · rw [if_neg hseq]
    have haside : (SyncService.exportTimestamp last).OnlyCalls fun c => isAside c = true := by
      unfold SyncService.exportTimestamp
      split_ifs
      · exact aside_timeMs
      · exact onlyCalls_ret _
    refine (ensures_of_onlyCalls haside _ hread).bind (fun h₁ timestamp hread₁ => ?_) fun _ _ _ => trivial
    rw [sync_eq]
    refine ⟨⟨_, hread₁, hseq, rfl⟩, ?_⟩
    rintro (e | v) <;> trivial

theorem commitExportWatermark_ensures (svc : SyncService) :
    svc.commitExportWatermark.Ensures (watermarkGuard svc.self) (fun _ _ => True) [] :=
  (ensures_perform_bind _ _).mpr
    ⟨rfl, fun _ => commitLast_ensures svc.self (lastRead_concat_read rfl), fun _ => trivial⟩

theorem aside_getAll (svc : SyncService) (limit offset : Option Int) (type project : Option String) :
    (onStore (svc.repository.getAll limit offset type project)).OnlyCalls fun c => isAside c = true := by
  refine aside_onStore ?_
  refine OnlyCalls.bind (OnlyCalls.handle (.perform rfl) fun _ => onlyCalls_fail _) fun rows => ?_
  exact .ofExcept _

/-- What an incremental export of observations reaches comes from its read of the journal. -/
def reachedGuard (h : List (Answered worldSignature Exn))
    (r : Except Exn (List Observation × Option Nat)) : Prop :=
  ∀ observations seq, r = .ok (observations, some seq) → LastYields h seq

theorem reconstructFromMutations_ensures {project : Option String} {status : SyncStatus}
    (hstatus : (⟨.inl (.inr .getStatus), .ok status⟩ : Answered worldSignature Exn) ∈ h) :
    (SyncService.reconstructFromMutations status.lastExportSeq project).Ensures (watermarkGuard self)
      (fun h' r => ∀ observations seq, r = .ok (observations, seq) → LastYields h' seq) h := by
  unfold SyncService.reconstructFromMutations
  rw [sync_eq]
  refine (ensures_perform_bind _ _).mpr ⟨⟨status, hstatus, rfl⟩, fun mutations => ?_, fun e => ?_⟩
  · refine (ensures_ofExcept_bind _ _).mpr ⟨fun read _ => ?_, fun e _ => ?_⟩
    · intro observations seq heq
      cases heq
      exact ⟨_, lastRead_concat_read rfl, .inl rfl⟩
    · intro observations seq heq
      cases heq
  · intro observations seq heq
    cases heq

theorem changedObservations_ensures (svc : SyncService) {project : Option String} {status : SyncStatus}
    (hstatus : (⟨.inl (.inr .getStatus), .ok status⟩ : Answered worldSignature Exn) ∈ h) :
    (svc.changedObservations project status.lastExportSeq).Ensures (watermarkGuard self)
      reachedGuard h := by
  unfold SyncService.changedObservations
  by_cases hsince : 0 < status.lastExportSeq
  · rw [if_pos hsince]
    refine (reconstructFromMutations_ensures hstatus).bind (fun h₁ changed hyields => ?_) fun h₁ e _ => ?_
    · intro observations seq heq
      cases heq
      exact hyields _ _ rfl
    · intro observations seq heq
      cases heq
  · rw [if_neg hsince]
    refine (ensures_of_onlyCalls (aside_getAll svc none none none none) _ rfl).bind
      (fun h₁ all _ => ?_) fun h₁ e _ => ?_
    · intro observations seq heq
      cases heq
    · intro observations seq heq
      cases heq

theorem writeObservations_ensures (svc : SyncService) {chunkSize : Nat}
    {observations : List Observation} {exportMaxSeq : Option Nat}
    (hreached : ∀ seq, exportMaxSeq = some seq → LastYields h seq) :
    (svc.writeObservations chunkSize observations exportMaxSeq).Ensures (watermarkGuard self)
      (fun _ _ => True) h := by
  unfold SyncService.writeObservations
  split_ifs with hsize
  · trivial
  · refine (ensures_of_onlyCalls aside_timeMs _ rfl).bind (fun h₁ timestamp hread₁ => ?_)
      fun _ _ _ => trivial
    refine writeExport_ensures hread₁ fun h₂ chunkIds hread₂ => ?_
    cases exportMaxSeq with
    | some seq =>
      obtain ⟨a, ha, hseq⟩ := hreached seq rfl
      exact updateStatus_ensures ⟨a, hread₂.trans ha, hseq⟩
    | none =>
      rw [show SyncService.watermarkSeq none = sync .getLatestSeq from rfl, sync_eq]
      refine (ensures_perform_bind _ _).mpr ⟨trivial, fun seq => ?_, fun _ => trivial⟩
      exact updateStatus_ensures ⟨_, lastRead_concat_read rfl, rfl⟩

theorem exportObservations_ensures (svc : SyncService) (project : Option String) (chunkSize : Nat) :
    (svc.exportObservations project chunkSize).Ensures (watermarkGuard self)
      (fun _ _ => True) [] := by
  unfold SyncService.exportObservations
  rw [sync_eq]
  refine (ensures_perform_bind _ _).mpr ⟨trivial, fun status => ?_, fun _ => trivial⟩
  refine (changedObservations_ensures svc (by simp)).bind (fun h₁ changed hreached => ?_)
    fun _ _ _ => trivial
  obtain ⟨observations, exportMaxSeq⟩ := changed
  by_cases hempty : observations = []
  · subst hempty
    trivial
  · refine (congrArg (Ensures _ _ · h₁) (if_neg hempty)).mpr ?_
    refine writeObservations_ensures svc fun seq hseq => ?_
    subst hseq
    exact hreached _ _ rfl

section Journal

/-- The entries of the journal stand in the order of their sequence numbers. -/
structure SyncStore.Ordered (s : SyncStore) : Prop where
  sorted : s.syncMutations.Pairwise fun a b => a.seq < b.seq
  given : ∀ m ∈ s.syncMutations, m.seq ≤ s.sqliteSequence

theorem foldl_max_le_iff {seqs : List Nat} {a b : Nat} :
    seqs.foldl max a ≤ b ↔ a ≤ b ∧ ∀ seq ∈ seqs, seq ≤ b := by
  induction seqs generalizing a with
  | nil => simp
  | cons seq seqs ih =>
    rw [List.foldl_cons, ih, Nat.max_le, List.forall_mem_cons, and_assoc]

theorem maxSeq_le_iff {since b : Nat} {fields : List SyncMutationFields} :
    SyncService.maxSeq since fields ≤ b ↔ since ≤ b ∧ ∀ m ∈ fields, m.seq ≤ b := by
  rw [SyncService.maxSeq, foldl_max_le_iff, List.forall_mem_map]

theorem latestSeq_le_iff {s : SyncStore} {b : Nat} :
    s.latestSeq ≤ b ↔ ∀ m ∈ s.syncMutations, m.seq ≤ b := by
  rw [SyncStore.latestSeq, foldl_max_le_iff, List.forall_mem_map]
  exact and_iff_right (Nat.zero_le b)

theorem seq_le_latestSeq {s : SyncStore} {m : SyncMutationFields} (hm : m ∈ s.syncMutations) :
    m.seq ≤ s.latestSeq := latestSeq_le_iff.mp (Nat.le_refl _) m hm

theorem maxSeq_mutationsSince {s : SyncStore} {since : Nat} (hsince : since ≤ s.latestSeq) :
    SyncService.maxSeq since (s.mutationsSince since) = s.latestSeq := by
  apply le_antisymm
  · refine maxSeq_le_iff.mpr ⟨hsince, fun m hm => ?_⟩
    exact seq_le_latestSeq (List.mem_of_mem_filter hm)
  · refine latestSeq_le_iff.mpr fun m hm => ?_
    obtain ⟨hle, hall⟩ := maxSeq_le_iff.mp (Nat.le_refl (SyncService.maxSeq since (s.mutationsSince since)))
    by_cases h : since < m.seq
    · exact hall m (List.mem_filter.mpr ⟨hm, by simpa using h⟩)
    · omega

/-- The last batch of a sorted journal holds its largest sequence number. -/
theorem reachedSeq_eq {chunkSize since : Nat} {fields : List SyncMutationFields}
    (hsize : chunkSize ≠ 0) (hsorted : fields.Pairwise fun a b => a.seq < b.seq)
    (hsince : ∀ m ∈ fields, since < m.seq) :
    SyncService.reachedSeq chunkSize since fields = SyncService.maxSeq since fields := by
  have hflatten := slices_flatten hsize fields
  unfold SyncService.reachedSeq
  rcases List.eq_nil_or_concat (slices chunkSize fields) with hnil | ⟨batches, batch, hbatches⟩
  · rw [hnil] at hflatten ⊢
    rw [← hflatten]
    rfl
  · have hbatch : batch ∈ slices chunkSize fields := by simp [hbatches]
    have hne : batch ≠ [] := ne_nil_of_mem_slices hbatch
    obtain ⟨last, hlast⟩ := List.exists_mem_of_ne_nil batch hne
    rw [hbatches, List.concat_eq_append, List.flatten_append, List.flatten_singleton] at hflatten
    rw [hbatches, List.concat_eq_append, List.foldl_append]
    rw [← hflatten] at hsorted hsince
    rw [← hflatten]
    apply le_antisymm
    · obtain ⟨-, hall⟩ := maxSeq_le_iff.mp
        (Nat.le_refl (SyncService.maxSeq since (batches.flatten ++ batch)))
      exact maxSeq_le_iff.mpr ⟨Nat.zero_le _, fun m hm => hall m (List.mem_append_right _ hm)⟩
    · obtain ⟨-, hall⟩ := maxSeq_le_iff.mp (Nat.le_refl (SyncService.maxSeq 0 batch))
      have hlastLe := hall last hlast
      refine maxSeq_le_iff.mpr ⟨?_, fun m hm => ?_⟩
      · have := hsince last (List.mem_append_right _ hlast)
        exact le_trans (Nat.le_of_lt this) hlastLe
      · rcases List.mem_append.mp hm with hm | hm
        · have := (List.pairwise_append.mp hsorted).2.2 m hm last hlast
          exact le_trans (Nat.le_of_lt this) hlastLe
        · exact hall m hm

end Journal

section Run

/-- The exporters. -/
inductive SyncOp where
  | exportObservations (svc : SyncService) (project : Option String) (chunkSize : Nat)
  | exportIncremental (svc : SyncService) (chunkSize : Nat) (commitWatermark : Bool)
  | commitExportWatermark (svc : SyncService)

def SyncOp.Result : SyncOp → Type
  | exportObservations .. | exportIncremental .. => List String
  | commitExportWatermark _ => Unit

def SyncOp.program : (o : SyncOp) → SyncProgram o.Result
  | exportObservations svc project chunkSize => svc.exportObservations project chunkSize
  | exportIncremental svc chunkSize commitWatermark => svc.exportIncremental chunkSize commitWatermark
  | commitExportWatermark svc => svc.commitExportWatermark

def SyncOp.service : SyncOp → Nat
  | exportObservations svc _ _ | exportIncremental svc _ _ | commitExportWatermark svc => svc.self

/-- The observations change in any way, and the journal takes at most one more entry. -/
def Mutates (w w' : World) : Prop :=
  w'.disk = w.disk ∧ (w'.sync = w.sync ∨ ∃ entityKey op payload project createdAt,
    w'.sync = w.sync.recordMutation entityKey op payload project createdAt)

/-- Exports of any number of services on a new journal, with mutations in between. -/
def syncSystem : System worldSignature Exn World where
  Op := SyncOp
  Result := SyncOp.Result
  program := SyncOp.program
  step := World.step
  outside := Mutates
  initial w := w.sync = {} ∧ ∀ self, w.disk.lastExports self = {}

theorem program_guarded (o : SyncOp) :
    o.program.Ensures (watermarkGuard o.service) (fun _ _ => True) [] := by
  cases o with
  | exportObservations svc project chunkSize => exact exportObservations_ensures svc project chunkSize
  | exportIncremental svc chunkSize commitWatermark =>
    exact exportIncremental_ensures svc chunkSize commitWatermark
  | commitExportWatermark svc => exact commitExportWatermark_ensures svc

/-- How much the journal held when it was read for a watermark: by each caller, by the export that
each service ran last, and for the watermark that is stored. -/
structure Basis where
  read : Nat → Nat := fun _ => 0
  left : Nat → Nat := fun _ => 0
  stored : Nat := 0

def Basis.note (b : Basis) (e : syncSystem.Event) : Basis :=
  match e.answered with
  | ⟨.inl (.inr (.getMutationsSince _)), .ok _⟩ | ⟨.inl (.inr .getLatestSeq), .ok _⟩ =>
    { b with read := Function.update b.read e.caller e.before.sync.latestSeq }
  | ⟨.inr (.getLastExport self), .ok _⟩ =>
    { b with read := Function.update b.read e.caller (b.left self) }
  | ⟨.inr (.setLastExport self _), .ok _⟩ =>
    { b with left := Function.update b.left self (b.read e.caller) }
  | ⟨.inl (.inr (.updateStatus _ _ (some _))), .ok _⟩ => { b with stored := b.read e.caller }
  | _ => b

def basis (tr : List syncSystem.Event) : Basis := tr.foldl Basis.note {}

theorem basis_concat (tr : List syncSystem.Event) (e : syncSystem.Event) :
    basis (tr ++ [e]) = (basis tr).note e := by
  simp [basis]

/-- The call has stored a watermark. -/
def isStore : Answered worldSignature Exn → Bool
  | ⟨.inl (.inr (.updateStatus _ _ (some _))), .ok _⟩ => true
  | _ => false

/-- Each watermark is stored on the basis of a journal that held at least as much as the one behind
the watermark before it. -/
def InOrder (tr : List syncSystem.Event) : Prop :=
  ∀ pre e post, tr = pre ++ e :: post → isStore e.answered = true →
    (basis pre).stored ≤ (basis pre).read e.caller

/-- What is known of a reached store. -/
structure Tracked (tr : List syncSystem.Event) (w : World) : Prop where
  ordered : w.sync.Ordered
  statuses : ∀ i (status : SyncStatus),
    (⟨.inl (.inr .getStatus), .ok status⟩ : Answered worldSignature Exn) ∈ System.Run.history i tr →
      status.lastExportSeq ≤ w.sync.latestSeq
  read : ∀ i seq, LastYields (System.Run.history i tr) seq → seq = (basis tr).read i
  readLe : ∀ i, (basis tr).read i ≤ w.sync.latestSeq
  left : ∀ self, (w.disk.lastExports self).maxSeq ≠ 0 →
    (w.disk.lastExports self).maxSeq = (basis tr).left self
  leftLe : ∀ self, (basis tr).left self ≤ w.sync.latestSeq
  stored : w.sync.syncStatus.lastExportSeq = (basis tr).stored
  storedLe : (basis tr).stored ≤ w.sync.latestSeq

section Steps

variable {tr : List syncSystem.Event} {w w' : World} {a : Answered worldSignature Exn}

theorem Ordered.recordMutation {s : SyncStore} (hs : s.Ordered) (entityKey : String) (op : MutationOp)
    (payload : JsonObject) (project : String) (createdAt : Int) :
    (s.recordMutation entityKey op payload project createdAt).Ordered := by
  constructor
  · refine List.pairwise_append.mpr ⟨hs.sorted, List.pairwise_singleton _ _, fun m hm n hn => ?_⟩
    rw [List.mem_singleton.mp hn]
    exact Nat.lt_succ_of_le (hs.given m hm)
  · intro m hm
    rcases List.mem_append.mp hm with hm | hm
    · exact Nat.le_succ_of_le (hs.given m hm)
    · rw [List.mem_singleton.mp hm]
      exact Nat.le_refl _

theorem latestSeq_mono {s s' : SyncStore} (h : ∀ m ∈ s.syncMutations, m ∈ s'.syncMutations) :
    s.latestSeq ≤ s'.latestSeq := latestSeq_le_iff.mpr fun m hm => seq_le_latestSeq (h m hm)

/-- The journal only takes entries at its end. -/
structure Extends (s s' : SyncStore) : Prop where
  ordered : s.Ordered → s'.Ordered
  kept : ∀ m ∈ s.syncMutations, m ∈ s'.syncMutations

theorem Extends.of_eq {s s' : SyncStore} (h : s'.syncMutations = s.syncMutations)
    (hseq : s'.sqliteSequence = s.sqliteSequence) : Extends s s' := by
  refine ⟨fun hs => ⟨?_, ?_⟩, ?_⟩
  · rw [h]
    exact hs.sorted
  · rw [h, hseq]
    exact hs.given
  · rw [h]
    exact fun _ hm => hm

theorem Extends.recordMutation (s : SyncStore) (entityKey : String) (op : MutationOp)
    (payload : JsonObject) (project : String) (createdAt : Int) :
    Extends s (s.recordMutation entityKey op payload project createdAt) :=
  ⟨fun hs => Ordered.recordMutation hs _ _ _ _ _, fun _ hm => List.mem_append_left _ hm⟩

theorem SyncStore.step_extends {b : Answered syncSignature Exn} {s s' : SyncStore}
    (h : SyncStore.step b s s') : Extends s s' := by
  rcases h with h | ⟨rfl, -⟩
  · obtain ⟨c, r⟩ := b
    cases c with
    | recordMutation entityKey op payload project =>
      obtain ⟨-, createdAt, -, rfl⟩ := h
      exact .recordMutation s entityKey op payload project createdAt
    | updateStatus exportAt importAt seq =>
      rw [h.2]
      exact .of_eq rfl rfl
    | recordChunk chunk =>
      refine Transaction.elim h (P := fun s' => Extends s s') (.of_eq rfl rfl) fun s₁ hs₁ => ?_
      unfold SyncStore.recordChunk at hs₁
      split_ifs at hs₁
      cases hs₁
      exact .of_eq rfl rfl
    | _ => rw [h.1]; exact .of_eq rfl rfl
  · exact .of_eq rfl rfl

theorem step_extends (h : World.step a w w') : Extends w.sync w'.sync := by
  obtain ⟨(c | c) | c, r⟩ := a
  · rw [show w'.sync = w.sync from h.1.2]
    exact .of_eq rfl rfl
  · exact SyncStore.step_extends h.1.1
  · rw [show w'.sync = w.sync from congrArg Prod.snd h.2]
    exact .of_eq rfl rfl

theorem mutates_extends (h : Mutates w w') : Extends w.sync w'.sync := by
  obtain ⟨-, h | ⟨entityKey, op, payload, project, createdAt, h⟩⟩ := h
  · rw [h]
    exact .of_eq rfl rfl
  · rw [h]
    exact .recordMutation _ _ _ _ _ _

/-- The answers that a watermark is traced by. -/
def isNoted : Answered worldSignature Exn → Bool
  | ⟨.inl (.inr (.getMutationsSince _)), .ok _⟩ | ⟨.inl (.inr .getLatestSeq), .ok _⟩
  | ⟨.inr (.getLastExport _), .ok _⟩ | ⟨.inr (.setLastExport ..), .ok _⟩
  | ⟨.inl (.inr (.updateStatus _ _ (some _))), .ok _⟩ => true
  | _ => false

theorem isStore_of_unnoted (ha : isNoted a = false) : isStore a = false := by
  unfold isStore
  split <;> simp_all [isNoted]

theorem SyncStore.step_unstored {c : SyncCall} {r : Except Exn c.Value} {s s' : SyncStore}
    (h : SyncStore.step ⟨c, r⟩ s s') (ha : isStore ⟨.inl (.inr c), r⟩ = false) :
    s'.syncStatus.lastExportSeq = s.syncStatus.lastExportSeq := by
  rcases h with h | ⟨rfl, -⟩
  · cases c with
    | recordMutation entityKey op payload project =>
      obtain ⟨-, createdAt, -, rfl⟩ := h
      rfl
    | updateStatus exportAt importAt seq =>
      obtain ⟨rfl, rfl⟩ := h
      cases seq with
      | none => rfl
      | some seq => cases ha
    | recordChunk chunk =>
      refine Transaction.elim h (P := fun s' => s'.syncStatus.lastExportSeq = _) rfl fun s₁ hs₁ => ?_
      unfold SyncStore.recordChunk at hs₁
      split_ifs at hs₁
      cases hs₁
      rfl
    | _ => rw [h.1]
  · rfl

theorem Disk.step_unnoted {c : DiskCall} {r : Except Exn c.Value} {d d' : Disk}
    (h : Disk.step ⟨c, r⟩ d d') (ha : isNoted ⟨.inr c, r⟩ = false) :
    d'.lastExports = d.lastExports := by
  cases c with
  | writeChunk chunkId lines =>
    rcases h with ⟨-, bytes, rfl⟩ | ⟨-, file, rfl⟩ <;> rfl
  | writeManifest name manifest =>
    rcases h with ⟨-, rfl⟩ | ⟨-, text, rfl⟩ <;> rfl
  | setLastExport self last =>
    rcases h with ⟨rfl, rfl⟩ | h
    · cases ha
    · cases h
  | getLastExport self =>
    rcases h with h | h
    · rw [h.1]
    · cases h
  | _ => rcases h with h | h <;> rw [h.1]

theorem step_unstored (h : World.step a w w') (ha : isStore a = false) :
    w'.sync.syncStatus.lastExportSeq = w.sync.syncStatus.lastExportSeq := by
  obtain ⟨(c | c) | c, r⟩ := a
  · exact congrArg (·.syncStatus.lastExportSeq) h.1.2
  · exact SyncStore.step_unstored h.1.1 ha
  · exact congrArg (·.2.syncStatus.lastExportSeq) h.2

theorem step_unnoted (h : World.step a w w') (ha : isNoted a = false) :
    w'.disk.lastExports = w.disk.lastExports := by
  obtain ⟨(c | c) | c, r⟩ := a
  · exact congrArg (·.lastExports) h.2
  · exact congrArg (·.lastExports) h.2
  · exact Disk.step_unnoted h.1 ha

theorem isRead_of_unnoted (ha : isNoted a = false) : isRead a = false := by
  obtain ⟨(c | c) | c, e | v⟩ := a
  · rfl
  · rfl
  · cases c <;> rfl
  · cases c <;> first | rfl | exact ha
  · cases c <;> rfl
  · cases c <;> first | rfl | exact ha

theorem history_concat (i : Nat) (tr : List syncSystem.Event) (e : syncSystem.Event) :
    System.Run.history i (tr ++ [e]) =
      if e.caller = i then System.Run.history i tr ++ [e.answered] else System.Run.history i tr := by
  unfold System.Run.history
  rw [System.Run.own_append, List.map_append]
  split_ifs with h <;> simp [System.Run.own, h]

theorem note_unnoted {b : Basis} {e : syncSystem.Event} (ha : isNoted e.answered = false) :
    b.note e = b := by
  unfold Basis.note
  split <;> simp_all [isNoted]

theorem lastYields_concat {h : List (Answered worldSignature Exn)} {b : Answered worldSignature Exn}
    {seq : Nat} : LastYields (h ++ [b]) seq ↔
      if isRead b then Yields b seq else LastYields h seq := by
  unfold LastYields
  rw [lastRead_concat]
  split_ifs <;> simp

theorem Tracked.initial (h : syncSystem.initial w) : Tracked [] w := by
  obtain ⟨hsync, hlast⟩ := h
  refine ⟨?_, ?_, ?_, fun _ => Nat.zero_le _, ?_, fun _ => Nat.zero_le _, ?_, Nat.zero_le _⟩
  · rw [hsync]
    exact ⟨List.Pairwise.nil, by simp⟩
  · simp [System.Run.history, System.Run.own]
  · rintro i seq ⟨b, hb, -⟩
    cases hb
  · intro self hne
    rw [hlast self] at hne
    exact absurd rfl hne
  · rw [hsync]
    rfl

theorem Tracked.extend (h : Tracked tr w) (hsync : Extends w.sync w'.sync)
    (hseq : w'.sync.syncStatus.lastExportSeq = w.sync.syncStatus.lastExportSeq)
    (hdisk : w'.disk.lastExports = w.disk.lastExports) : Tracked tr w' := by
  have hmono := latestSeq_mono hsync.kept
  refine ⟨hsync.ordered h.ordered, fun i status hs => (h.statuses i status hs).trans hmono, h.read,
    fun i => (h.readLe i).trans hmono, ?_, fun self => (h.leftLe self).trans hmono, ?_,
    h.storedLe.trans hmono⟩
  · rw [hdisk]
    exact h.left
  · rw [hseq]
    exact h.stored

theorem Tracked.outside (h : Tracked tr w) (hout : Mutates w w') : Tracked tr w' := by
  refine h.extend (mutates_extends hout) ?_ (congrArg (·.lastExports) hout.1)
  rcases hout.2 with hsync | ⟨_, _, _, _, _, hsync⟩
  · rw [hsync]
  · rw [hsync]
    rfl

variable {i : Nat} {o : SyncOp}

theorem statuses_concat (h : Tracked tr w) (hstep : World.step a w w') (j : Nat) (status : SyncStatus)
    (hs : (⟨.inl (.inr .getStatus), .ok status⟩ : Answered worldSignature Exn) ∈
      System.Run.history j (tr ++ [(⟨i, o, a, w, w'⟩ : syncSystem.Event)])) :
    status.lastExportSeq ≤ w'.sync.latestSeq := by
  have hmono := latestSeq_mono (step_extends hstep).kept
  rw [history_concat] at hs
  split_ifs at hs
  · rcases List.mem_append.mp hs with hs | hs
    · exact (h.statuses j status hs).trans hmono
    · obtain rfl := List.mem_singleton.mp hs
      obtain ⟨⟨hserve | ⟨-, _, herror⟩, -⟩, -⟩ := hstep
      · rw [Except.ok.inj hserve.2, h.stored]
        exact h.storedLe.trans hmono
      · cases herror
  · exact (h.statuses j status hs).trans hmono

theorem Tracked.unnoted (h : Tracked tr w) (hstep : World.step a w w') (ha : isNoted a = false) :
    Tracked (tr ++ [(⟨i, o, a, w, w'⟩ : syncSystem.Event)]) w' := by
  have hseq := step_unstored hstep (isStore_of_unnoted ha)
  have hnext := h.extend (step_extends hstep) hseq (step_unnoted hstep ha)
  have hbasis : basis (tr ++ [(⟨i, o, a, w, w'⟩ : syncSystem.Event)]) = basis tr := by
    rw [basis_concat, note_unnoted ha]
  refine ⟨hnext.ordered, statuses_concat h hstep, fun j seq hj => ?_, ?_, ?_, ?_, ?_, ?_⟩
  · rw [hbasis]
    rw [history_concat] at hj
    split_ifs at hj
    · rw [lastYields_concat, isRead_of_unnoted ha] at hj
      exact h.read j seq hj
    · exact h.read j seq hj
  · rw [hbasis]
    exact hnext.readLe
  · rw [hbasis]
    exact hnext.left
  · rw [hbasis]
    exact hnext.leftLe
  · rw [hbasis]
    exact hnext.stored
  · rw [hbasis]
    exact hnext.storedLe

/-- A read by a caller, on the basis of a journal that the present one has outgrown. -/
theorem Tracked.noteRead (h : Tracked tr w) {e : syncSystem.Event} {held : Nat}
    (hread : isRead e.answered = true)
    (hnote : (basis tr).note e =
      { basis tr with read := Function.update (basis tr).read e.caller held })
    (hyields : ∀ seq, Yields e.answered seq → seq = held) (hheld : held ≤ w.sync.latestSeq)
    (hstatuses : ∀ j (status : SyncStatus),
      (⟨.inl (.inr .getStatus), .ok status⟩ : Answered worldSignature Exn) ∈
        System.Run.history j (tr ++ [e]) → status.lastExportSeq ≤ w.sync.latestSeq) :
    Tracked (tr ++ [e]) w := by
  have hbasis := (basis_concat tr e).trans hnote
  refine ⟨h.ordered, hstatuses, fun j seq hj => ?_, fun j => ?_, ?_, ?_, ?_, ?_⟩
  · rw [hbasis]
    rw [history_concat] at hj
    split_ifs at hj with hcaller
    · subst hcaller
      rw [lastYields_concat, if_pos hread] at hj
      simpa using hyields seq hj
    · simpa [Function.update_of_ne (Ne.symm hcaller)] using h.read j seq hj
  · rw [hbasis]
    by_cases hcaller : j = e.caller
    · subst hcaller
      simpa using hheld
    · simpa [Function.update_of_ne hcaller] using h.readLe j
  · rw [hbasis]
    exact h.left
  · rw [hbasis]
    exact h.leftLe
  · rw [hbasis]
    exact h.stored
  · rw [hbasis]
    exact h.storedLe

theorem isNoted_error (c : worldSignature.Call) (e : Exn) : isNoted ⟨c, .error e⟩ = false := by
  obtain (c | c) | c := c
  · rfl
  · cases c with
    | updateStatus exportAt importAt seq => cases seq <;> rfl
    | _ => rfl
  · cases c <;> rfl

theorem Tracked.getMutationsSince (h : Tracked tr w) {since : Nat} {mutations : List SyncMutation}
    (hstep : World.step ⟨.inl (.inr (.getMutationsSince since)), .ok mutations⟩ w w')
    (hguard : watermarkGuard o.service (System.Run.history i tr) (.inl (.inr (.getMutationsSince since)))) :
    Tracked (tr ++ [(⟨i, o, ⟨.inl (.inr (.getMutationsSince since)), .ok mutations⟩, w, w'⟩ :
      syncSystem.Event)]) w' := by
  have hstatuses := statuses_concat (i := i) (o := o) h hstep
  obtain ⟨⟨hserve | ⟨-, _, herror⟩, hmemory⟩, hdisk⟩ := hstep
  · obtain ⟨hsync, hread⟩ := hserve
    obtain rfl : w' = w := Prod.ext (Prod.ext hmemory hsync) hdisk
    obtain ⟨status, hstatus, rfl⟩ := hguard
    have hsince := h.statuses i status hstatus
    have hfields := listMapM_construct_eq_ok hread.symm
    have hmax := maxSeq_mutationsSince hsince
    refine h.noteRead rfl rfl ?_ (Nat.le_refl _) hstatuses
    rintro seq (rfl | ⟨chunkSize, hsize, rfl⟩)
    · rw [hfields]
      exact hmax
    · rw [hfields]
      refine (reachedSeq_eq hsize (h.ordered.sorted.filter _) fun m hm => ?_).trans hmax
      simpa using (List.mem_filter.mp hm).2
  · cases herror

theorem Tracked.getLatestSeq (h : Tracked tr w) {latest : Nat}
    (hstep : World.step ⟨.inl (.inr .getLatestSeq), .ok latest⟩ w w') :
    Tracked (tr ++ [(⟨i, o, ⟨.inl (.inr .getLatestSeq), .ok latest⟩, w, w'⟩ : syncSystem.Event)]) w' := by
  have hstatuses := statuses_concat (i := i) (o := o) h hstep
  obtain ⟨⟨hserve | ⟨-, _, herror⟩, hmemory⟩, hdisk⟩ := hstep
  · obtain ⟨hsync, hread⟩ := hserve
    obtain rfl : w' = w := Prod.ext (Prod.ext hmemory hsync) hdisk
    refine h.noteRead rfl rfl ?_ (Nat.le_refl _) hstatuses
    rintro seq rfl
    exact Except.ok.inj hread
  · cases herror

theorem Tracked.getLastExport (h : Tracked tr w) {self : Nat} {last : LastExport}
    (hstep : World.step ⟨.inr (.getLastExport self), .ok last⟩ w w') :
    Tracked (tr ++ [(⟨i, o, ⟨.inr (.getLastExport self), .ok last⟩, w, w'⟩ : syncSystem.Event)]) w' := by
  have hstatuses := statuses_concat (i := i) (o := o) h hstep
  obtain ⟨⟨hdisk, hread⟩ | hfail, hstore⟩ := hstep
  · obtain rfl : w' = w := Prod.ext hstore hdisk
    refine h.noteRead rfl rfl ?_ (h.leftLe self) hstatuses
    rintro seq ⟨hne, rfl⟩
    rw [Except.ok.inj hread] at hne ⊢
    exact h.left self hne
  · cases hfail

theorem Tracked.setLastExport (h : Tracked tr w) {self : Nat} {last : LastExport} {v : Unit}
    (hstep : World.step ⟨.inr (.setLastExport self last), .ok v⟩ w w')
    (hguard : watermarkGuard o.service (System.Run.history i tr) (.inr (.setLastExport self last))) :
    Tracked (tr ++ [(⟨i, o, ⟨.inr (.setLastExport self last), .ok v⟩, w, w'⟩ : syncSystem.Event)]) w' := by
  have hstatuses := statuses_concat (i := i) (o := o) h hstep
  have hbasis : basis (tr ++ [(⟨i, o, ⟨.inr (.setLastExport self last), .ok v⟩, w, w'⟩ :
      syncSystem.Event)]) =
        { basis tr with left := Function.update (basis tr).left self ((basis tr).read i) } :=
    basis_concat _ _
  obtain ⟨⟨-, hdisk⟩ | hfail, hstore⟩ := hstep
  · obtain rfl : w' = w.withDisk (w.disk.setLastExport self last) := Prod.ext hstore hdisk
    refine ⟨h.ordered, hstatuses, fun j seq hj => ?_, ?_, fun self' hne => ?_, fun self' => ?_, ?_, ?_⟩
    · rw [hbasis]
      rw [history_concat] at hj
      split_ifs at hj
      · exact h.read j seq (lastYields_concat.mp hj)
      · exact h.read j seq hj
    · rw [hbasis]
      exact h.readLe
    · rw [hbasis]
      by_cases hself : self' = self
      · subst hself
        rw [World.withDisk_disk, Disk.setLastExport_lastExports, if_pos rfl] at hne ⊢
        rcases hguard.2 with hzero | hyields
        · exact absurd hzero hne
        · simpa using h.read i _ hyields
      · rw [World.withDisk_disk, Disk.setLastExport_lastExports, if_neg hself] at hne ⊢
        simpa [Function.update_of_ne hself] using h.left self' hne
    · rw [hbasis]
      by_cases hself : self' = self
      · subst hself
        simpa using h.readLe i
      · simpa [Function.update_of_ne hself] using h.leftLe self'
    · rw [hbasis]
      exact h.stored
    · rw [hbasis]
      exact h.storedLe
  · cases hfail

theorem updateStatus_stored (h : Tracked tr w) {exportAt importAt : Option Int} {seq : Nat} {v : Unit}
    (hstep : World.step ⟨.inl (.inr (.updateStatus exportAt importAt (some seq))), .ok v⟩ w w')
    (hguard : watermarkGuard o.service (System.Run.history i tr)
      (.inl (.inr (.updateStatus exportAt importAt (some seq))))) :
    w' = w.withSync (w.sync.updateStatus exportAt importAt (some seq)) ∧ seq = (basis tr).read i := by
  obtain ⟨⟨⟨-, hsync⟩ | ⟨-, _, herror⟩, hmemory⟩, hdisk⟩ := hstep
  · exact ⟨Prod.ext (Prod.ext hmemory hsync) hdisk, h.read i seq hguard⟩
  · cases herror

theorem Tracked.updateStatus (h : Tracked tr w) {exportAt importAt : Option Int} {seq : Nat} {v : Unit}
    (hstep : World.step ⟨.inl (.inr (.updateStatus exportAt importAt (some seq))), .ok v⟩ w w')
    (hguard : watermarkGuard o.service (System.Run.history i tr)
      (.inl (.inr (.updateStatus exportAt importAt (some seq))))) :
    Tracked (tr ++ [(⟨i, o, ⟨.inl (.inr (.updateStatus exportAt importAt (some seq))), .ok v⟩, w, w'⟩ :
      syncSystem.Event)]) w' := by
  have hstatuses := statuses_concat (i := i) (o := o) h hstep
  have hextends := step_extends hstep
  have hmono := latestSeq_mono hextends.kept
  have hbasis : basis (tr ++ [(⟨i, o, ⟨.inl (.inr (.updateStatus exportAt importAt (some seq))), .ok v⟩,
      w, w'⟩ : syncSystem.Event)]) = { basis tr with stored := (basis tr).read i } := basis_concat _ _
  obtain ⟨rfl, hseq⟩ := updateStatus_stored h hstep hguard
  refine ⟨hextends.ordered h.ordered, hstatuses, fun j seq' hj => ?_, fun j => ?_, ?_, fun self => ?_, ?_, ?_⟩
  · rw [hbasis]
    rw [history_concat] at hj
    split_ifs at hj
    · exact h.read j seq' (lastYields_concat.mp hj)
    · exact h.read j seq' hj
  · rw [hbasis]
    exact (h.readLe j).trans hmono
  · rw [hbasis]
    exact h.left
  · rw [hbasis]
    exact (h.leftLe self).trans hmono
  · rw [hbasis]
    exact hseq
  · rw [hbasis]
    exact (h.readLe i).trans hmono

theorem Tracked.event (h : Tracked tr w) (hstep : World.step a w w')
    (hguard : watermarkGuard o.service (System.Run.history i tr) a.call) :
    Tracked (tr ++ [(⟨i, o, a, w, w'⟩ : syncSystem.Event)]) w' := by
  cases ha : isNoted a with
  | false => exact h.unnoted hstep ha
  | true =>
    obtain ⟨c, e | v⟩ := a
    · rw [isNoted_error] at ha
      cases ha
    · obtain (c | c) | c := c
      · cases ha
      · cases c with
        | getMutationsSince since => exact h.getMutationsSince hstep hguard
        | getLatestSeq => exact h.getLatestSeq hstep
        | updateStatus exportAt importAt seq =>
          cases seq with
          | none => cases ha
          | some seq => exact h.updateStatus hstep hguard
        | _ => cases ha
      · cases c with
        | setLastExport self last => exact h.setLastExport hstep hguard
        | getLastExport self => exact h.getLastExport hstep
        | _ => cases ha

theorem store_eq_read (h : Tracked tr w) (hstep : World.step a w w') (hstore : isStore a = true)
    (hguard : watermarkGuard o.service (System.Run.history i tr) a.call) :
    w'.sync.syncStatus.lastExportSeq = (basis tr).read i := by
  unfold isStore at hstore
  split at hstore
  · next exportAt importAt seq v =>
    obtain ⟨rfl, hseq⟩ := updateStatus_stored h hstep hguard
    exact hseq
  · cases hstore

end Steps

theorem tracked_of_run {tr : List syncSystem.Event} {cfg : syncSystem.Config}
    (run : syncSystem.Run tr cfg) : Tracked tr cfg.store := by
  induction run with
  | initial h => exact .initial h
  | invoke run i fresh o ih => exact ih
  | @call tr s ss run i o c next running r s' step ih =>
    have hensures := (run.follows running).ensures (program_guarded o)
    exact ih.event step hensures.1
  | outside run h ih => exact ih.outside h

/-- The watermark never exceeds what the journal holds, and it only moves forward exactly when the
stores of it come in the order of their reads of the journal. -/
theorem watermark_forward_iff {tr : List syncSystem.Event} {cfg : syncSystem.Config}
    (run : syncSystem.Run tr cfg) :
    cfg.store.sync.syncStatus.lastExportSeq ≤ cfg.store.sync.latestSeq ∧
      ((∀ e ∈ tr, e.before.sync.syncStatus.lastExportSeq ≤ e.after.sync.syncStatus.lastExportSeq) ↔
        InOrder tr) := by
  have htracked := tracked_of_run run
  have hstored : ∀ pre e post, tr = pre ++ e :: post → isStore e.answered = true →
      e.before.sync.syncStatus.lastExportSeq = (basis pre).stored ∧
        e.after.sync.syncStatus.lastExportSeq = (basis pre).read e.caller := by
    intro pre e post hsplit hstore
    obtain ⟨ss, next, hpre, hsession⟩ := run.split hsplit
    have hstep := run.step_of_mem (hsplit ▸ List.mem_append_right _ List.mem_cons_self)
    have hensures := (hpre.follows hsession).ensures (program_guarded e.op)
    have hbefore := tracked_of_run hpre
    exact ⟨hbefore.stored, store_eq_read hbefore hstep hstore hensures.1⟩
  refine ⟨?_, ?_⟩
  · rw [htracked.stored]
    exact htracked.storedLe
  · constructor
    · intro hforward pre e post hsplit hstore
      obtain ⟨hbefore, hafter⟩ := hstored pre e post hsplit hstore
      rw [← hbefore, ← hafter]
      exact hforward e (hsplit ▸ List.mem_append_right _ List.mem_cons_self)
    · intro horder e he
      obtain ⟨pre, post, hsplit⟩ := List.append_of_mem he
      cases hstore : isStore e.answered with
      | true =>
        obtain ⟨hbefore, hafter⟩ := hstored pre e post hsplit hstore
        rw [hbefore, hafter]
        exact horder pre e post hsplit hstore
      | false => exact (step_unstored (run.step_of_mem he) hstore).ge

section Example

/-- One more entry of the journal. -/
def recorded (w : World) : World := w.withSync (w.sync.recordMutation "o" .insert [] "" 0)

theorem mutates_recorded (w : World) : Mutates w (recorded w) := ⟨rfl, .inr ⟨_, _, _, _, _, rfl⟩⟩

/-- A second service. -/
def otherService : SyncService := { plainService with self := 1 }

/-- The first service exports one mutation and defers the store of the watermark; another lands. -/
def deferredExport : World :=
  let w := recorded (({}, {}), {})
  recorded (plainService.incremented 1 false 5 [[]] w.sync.syncMutations w)

/-- The second service exports both. -/
def overtakingExport : World :=
  otherService.incremented 1 true 6 [[], []] deferredExport.sync.syncMutations deferredExport

theorem overtakingExport_run :
    ∃ tr ss, syncSystem.Run tr ⟨overtakingExport, ss⟩ ∧ ss 2 = none := by
  have hfirst : (plainService.exportIncremental 1 false).Runs World.step (recorded (({}, {}), {}))
      (.ok (exportedChunks "mutation" 5 0 1))
      (plainService.incremented 1 false 5 [[]] (recorded (({}, {}), {})).sync.syncMutations
        (recorded (({}, {}), {}))) :=
    exportIncremental_pending _ served_step rfl (by decide) (by decide) false 5 rfl
  have hsecond : (otherService.exportIncremental 1 true).Runs World.step deferredExport
      (.ok (exportedChunks "mutation" 6 0 2)) overtakingExport :=
    exportIncremental_pending _ served_step rfl (by decide) (by decide) true 6 rfl
  have hinitial : syncSystem.Run [] ⟨(({}, {}), {}), fun _ => none⟩ := .initial ⟨rfl, fun _ => rfl⟩
  obtain ⟨tr₁, hrun₁⟩ := (hinitial.outside (mutates_recorded _)).perform (i := 0) rfl
    (o := .exportIncremental plainService 1 false) hfirst
  obtain ⟨tr₂, hrun₂⟩ := (hrun₁.outside (mutates_recorded _)).perform (i := 1) rfl
    (o := .exportIncremental otherService 1 true) hsecond
  exact ⟨_, _, hrun₂, rfl⟩

/-- The first service then stores the watermark that it has deferred. -/
theorem watermark_goes_back :
    ∃ tr tr' ss ss' w w', syncSystem.Run tr ⟨w, ss⟩ ∧ syncSystem.Run (tr ++ tr') ⟨w', ss'⟩ ∧
      w'.sync.syncStatus.lastExportSeq < w.sync.syncStatus.lastExportSeq := by
  obtain ⟨tr, ss, hrun, hfresh⟩ := overtakingExport_run
  have hcommit : plainService.commitExportWatermark.Runs World.step overtakingExport (.ok ())
      (overtakingExport.withSync (overtakingExport.sync.updateStatus (some 5) none (some 1))) := by
    refine runs_bind_ok.mpr ⟨⟨1, 5⟩, _, (plainService.getLastExport_ok served_step).mpr ⟨rfl, rfl⟩, ?_⟩
    exact (updateStatus_ok served_step).mpr rfl
  obtain ⟨tr', hlate⟩ := hrun.perform (i := 2) hfresh (o := .commitExportWatermark plainService) hcommit
  exact ⟨tr, tr', _, _, _, _, hrun, hlate, by decide⟩

theorem watermark_forward_iff_overtaking :
    ∃ tr ss, syncSystem.Run tr ⟨overtakingExport, ss⟩ ∧
      overtakingExport.sync.syncStatus.lastExportSeq ≤ overtakingExport.sync.latestSeq ∧
      ((∀ e ∈ tr, e.before.sync.syncStatus.lastExportSeq ≤ e.after.sync.syncStatus.lastExportSeq) ↔
        InOrder tr) := by
  obtain ⟨tr, ss, hrun, -⟩ := overtakingExport_run
  exact ⟨tr, ss, hrun, watermark_forward_iff hrun⟩

end Example

end Run

end ForkAgent.Sync

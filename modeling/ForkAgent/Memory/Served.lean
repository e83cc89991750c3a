import ForkAgent.Effects.Schedule
import ForkAgent.Memory.Runs

/-!
# Databases that answer

A function that serves the calls on both databases. Where the database has a choice it takes the
first row in the order of the statement, and what is outside it comes as an argument.
-/

open Effects Storage

namespace ForkAgent.Sync.SyncStore

def transact (s : SyncStore) : Except Exn SyncStore → Except Exn Unit × SyncStore
  | .ok s' => (.ok (), s')
  | .error e => (.error e, s)

theorem transact_served (s : SyncStore) (result : Except Exn SyncStore) :
    Transaction result s (s.transact result).1 (s.transact result).2 := by
  cases result with
  | ok s' => exact ⟨rfl, rfl⟩
  | error e => exact ⟨rfl, rfl⟩

def respond (now : Nat) : (c : SyncCall) → SyncStore → Except Exn c.Value × SyncStore
  | .recordMutation entityKey op payload project, s =>
    (.ok (s.sqliteSequence + 1), s.recordMutation entityKey op payload project now)
  | .getMutationsSince seq, s => ((s.mutationsSince seq).mapM (construct _), s)
  | .getLatestSeq, s => (.ok s.latestSeq, s)
  | .getStatus, s => (.ok s.syncStatus, s)
  | .updateStatus lastExportAt lastImportAt lastExportSeq, s =>
    (.ok (), s.updateStatus lastExportAt lastImportAt lastExportSeq)
  | .recordChunk chunk, s => s.transact (s.recordChunk chunk.val)
  | .getChunkById chunkId, s =>
    ((s.syncChunks.find? fun chunk => chunk.chunkId == chunkId).mapM (construct _), s)

theorem respond_serve (now : Nat) (c : SyncCall) (s : SyncStore) :
    serve ⟨c, (respond now c s).1⟩ s (respond now c s).2 := by
  cases c with
  | recordMutation entityKey op payload project =>
    exact ⟨rfl, now, Int.natCast_nonneg _, rfl⟩
  | recordChunk chunk =>
    exact transact_served s (s.recordChunk chunk.val)
  | _ => exact ⟨rfl, rfl⟩

end ForkAgent.Sync.SyncStore

namespace ForkAgent.Memory

open Sync Sessions

theorem a_ne_empty : "a" ≠ "" := by decide

/-- The time and a fresh id. -/
structure Surroundings where
  now : Nat := 0
  id : String
  isFresh : id ≠ "" := by decide

theorem orderDesc_listing (rows : List ObservationRow) :
    MemoryStore.Listing rows (orderDesc (·.timestamp) rows) := orderDesc_ordered _ rows

namespace ObservationTable

variable (t : ObservationTable)

def find (key : String) (project : Option String) : Option ObservationRow :=
  match project with
  | none => (t.withTopicKey key).head?
  | some p =>
    (orderDesc (projectRank p)
      ((t.withTopicKey key).filter fun r => r.project == some p || r.project == none)).head?

theorem find_finds (key : String) (project : Option String) :
    t.Finds key project (t.find key project) := by
  cases project with
  | none =>
    refine head?_latest ⟨List.Perm.refl _, ?_⟩
    exact List.pairwise_of_forall fun _ _ => Nat.le_refl 0
  | some p => exact head?_latest (orderDesc_ordered _ _)

def pick (key : String) (project : Option String) : Option ObservationRow :=
  match project.filter (· ≠ "") with
  | none => ((t.withTopicKey key).filter fun r => r.project == none).head?
  | some p => (orderDesc (upsertRank p) (t.withTopicKey key)).head?

theorem pick_picks (key : String) (project : Option String) :
    t.Picks key project (t.pick key project) := by
  unfold Picks pick
  cases project.filter (· ≠ "") with
  | none =>
    refine head?_latest ⟨List.Perm.refl _, ?_⟩
    exact List.pairwise_of_forall fun _ _ => Nat.le_refl 0
  | some p => exact head?_latest (orderDesc_ordered _ _)

end ObservationTable

namespace MemoryStore

def write {β : Type} (s : MemoryStore) (written : Option ObservationTable) (value : β) :
    Except Exn β × MemoryStore :=
  match written with
  | some t => (.ok value, { s with observations := t })
  | none => (.error (.integrityError "UNIQUE constraint failed"), s)

theorem write_served {β : Type} (s : MemoryStore) (written : Option ObservationTable) (value : β) :
    Write s written value (s.write written value).1 (s.write written value).2 := by
  cases written with
  | some t => exact ⟨rfl, rfl⟩
  | none => exact ⟨⟨_, rfl⟩, rfl⟩

def upsert (s : MemoryStore) (o : Observation) (key : String) (project : Option String) :
    Option ObservationRow → Except Exn Observation × MemoryStore
  | none =>
    (.error (.repositoryError
      ("No observation found for topic_key=" ++ o.val.topicKey.getD "None")), s)
  | some row =>
    let revised := ObservationTable.revise o.val key project row
    match s.observations.update revised with
    | none => (.error (.integrityError "UNIQUE constraint failed"), s)
    | some t =>
      match rowToObservation revised with
      | .ok result => (.ok result, { s with observations := t })
      | .error e => (.error e, s)

theorem upsert_served (s : MemoryStore) (o : Observation) (key : String) (project : Option String)
    (row : Option ObservationRow) :
    Upsert s o key project row (s.upsert o key project row).1 (s.upsert o key project row).2 := by
  cases row with
  | none => exact ⟨rfl, rfl⟩
  | some row =>
    unfold Upsert upsert
    cases hupdate : s.observations.update (ObservationTable.revise o.val key project row) with
    | none => simp [hupdate]
    | some t =>
      cases hread : rowToObservation (ObservationTable.revise o.val key project row) <;>
        simp [hupdate, hread]

def merge (s : MemoryStore) (canonical : String) (sources : List String) :
    Except Exn (Nat × Nat) × MemoryStore :=
  match s.observations.moveProjects (some canonical) sources with
  | none => (.error (.integrityError "UNIQUE constraint failed"), s)
  | some (observationsUpdated, t) =>
    let moved := moveSessions canonical sources s.sessions
    (.ok (observationsUpdated, moved.1), { observations := t, sessions := moved.2 })

theorem merge_served (s : MemoryStore) (canonical : String) (sources : List String) :
    serve ⟨.mergeProjects canonical sources, (s.merge canonical sources).1⟩ s
      (s.merge canonical sources).2 := by
  unfold serve merge
  cases hmoved : s.observations.moveProjects (some canonical) sources with
  | none =>
    simp only [hmoved]
    exact ⟨⟨_, rfl⟩, trivial⟩
  | some moved =>
    simp only [hmoved]
    exact ⟨rfl, trivial⟩

def respond (ω : Surroundings) : (c : MemoryCall) → MemoryStore → Except Exn c.Value × MemoryStore
  | .insert row, s => s.write (s.observations.insert row) ()
  | .update row, s =>
    if s.observations.contains row.id then s.write (s.observations.update row) true else (.ok false, s)
  | .delete id, s =>
    (.ok (s.observations.contains id), { s with observations := s.observations.delete id })
  | .selectById id, s => (.ok (s.observations.rows.find? fun row => row.id == id), s)
  | .selectByTopicKey key project, s => (.ok (s.observations.find key project), s)
  | .selectByIdempotencyKey key, s =>
    (.ok (s.observations.rows.find? fun row => row.idempotencyKey == some key), s)
  | .selectAll type project limit offset, s =>
    (if offset.isSome ∧ limit = none then .error (.operationalError "near \"OFFSET\": syntax error")
      else .ok (page limit offset (orderDesc (·.timestamp) (s.observations.rows.filter fun row =>
        matchesFilter type row.type && matchesFilter project row.project))), s)
  | .search _ _ _, s => (.ok [], s)
  | .selectByTimestampRange start stop project, s =>
    (.ok (orderDesc (·.timestamp) (s.observations.rows.filter fun row =>
      decide (start ≤ row.timestamp ∧ row.timestamp ≤ stop) && matchesFilter project row.project)), s)
  | .upsertTopicKey o key project, s => s.upsert o key project (s.observations.pick key project)
  | .mergeProjects canonical sources, s => s.merge canonical sources
  | .countOlderThan cutoff, s =>
    (.ok (s.observations.rows.countP (fun row => row.timestamp < cutoff), 0), s)
  | .deleteOlderThan cutoff, s =>
    (.ok (s.observations.rows.countP (fun row => row.timestamp < cutoff), 0),
      { s with observations := s.observations.deleteOlder cutoff })
  | .uuid4, s => (.ok ω.id, s)
  | .timeMs, s => (.ok ω.now, s)

theorem respond_serve (ω : Surroundings) (c : MemoryCall) (s : MemoryStore) :
    serve ⟨c, (respond ω c s).1⟩ s (respond ω c s).2 := by
  cases c with
  | insert row => exact write_served _ _ _
  | update row =>
    unfold serve respond
    by_cases hfound : s.observations.contains row.id = true
    · simp only [hfound, if_true]
      exact write_served _ _ _
    · simp only [hfound]
      exact ⟨rfl, rfl⟩
  | delete id => exact ⟨rfl, rfl⟩
  | selectById id => exact ⟨rfl, rfl⟩
  | selectByTopicKey key project => exact ⟨rfl, _, s.observations.find_finds key project, rfl⟩
  | selectByIdempotencyKey key => exact ⟨rfl, rfl⟩
  | selectAll type project limit offset =>
    refine ⟨rfl, ?_⟩
    by_cases hoffset : offset.isSome ∧ limit = none
    · rw [if_pos hoffset]
      exact if_pos hoffset
    · rw [if_neg hoffset]
      exact ⟨_, orderDesc_listing _, if_neg hoffset⟩
  | search query project limit =>
    refine ⟨rfl, fun _ => false, [], ?_, ?_⟩
    · rw [show (s.observations.rows.filter fun row => false && matchesFilter project row.project) = [] by simp]
      exact orderDesc_listing []
    · cases limit with
      | none => rfl
      | some n =>
        simp only [respond, page, List.drop_nil, List.take_nil, ite_self]
        rfl
  | selectByTimestampRange start stop project => exact ⟨rfl, _, orderDesc_listing _, rfl⟩
  | upsertTopicKey o key project => exact ⟨_, s.observations.pick_picks key project, upsert_served _ _ _ _ _⟩
  | mergeProjects canonical sources =>
    exact merge_served s canonical sources
  | countOlderThan cutoff => exact ⟨rfl, 0, rfl⟩
  | deleteOlderThan cutoff => exact ⟨rfl, 0, rfl⟩
  | uuid4 => exact ⟨rfl, ω.id, ω.isFresh, rfl⟩
  | timeMs => exact ⟨rfl, ω.now, rfl⟩

end MemoryStore

namespace Store

def respond (ω : Surroundings) : (c : storeSignature.Call) → Store → Except Exn (storeSignature.Value c) × Store
  | .inl c, s => ((MemoryStore.respond ω c s.1).1, (MemoryStore.respond ω c s.1).2, s.2)
  | .inr c, s => ((SyncStore.respond ω.now c s.2).1, s.1, (SyncStore.respond ω.now c s.2).2)

theorem respond_serve (ω : Surroundings) (c : storeSignature.Call) (s : Store) :
    serve ⟨c, (respond ω c s).1⟩ s (respond ω c s).2 := by
  cases c with
  | inl c => exact ⟨MemoryStore.respond_serve ω c s.1, rfl⟩
  | inr c => exact ⟨SyncStore.respond_serve ω.now c s.2, rfl⟩

theorem step_of_serve {a : Answered storeSignature Exn} {s s' : Store} (h : serve a s s') :
    step a s s' := by
  obtain ⟨c | c, r⟩ := a
  · exact ⟨.inl h.1, h.2⟩
  · exact ⟨.inl h.1, h.2⟩

theorem reaches_of_exec {α : Type} {p : MemoryProgram α} {s s' : Store} {ω : Surroundings}
    {out : Except Exn α} {answers : List (Answered storeSignature Exn)}
    (h : p.exec (fun c s => some (respond ω c s)) s = some (out, answers, s')) :
    p.Reaches step s answers (.ofExcept out) s' := by
  refine Program.exec_reaches (fun c s r s' hrespond => step_of_serve ?_) h
  have hserve := respond_serve ω c s
  rwa [Option.some.inj hrespond] at hserve

end Store

end ForkAgent.Memory

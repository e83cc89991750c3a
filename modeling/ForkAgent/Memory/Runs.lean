import ForkAgent.Effects.Serial
import ForkAgent.Memory.Service

/-!
# Runs of the repository

What each operation of the repository does, in terms of the one statement it makes and of the entry
that follows it in the journal, for any semantics of the two databases.
-/

namespace ForkAgent.Memory

open Effects Storage Sync

variable {m : Semantics memorySignature Exn MemoryStore} {y : Semantics syncSignature Exn SyncStore}
variable {s s' : Store} {α : Type}

theorem memoryCall_runs {c : MemoryCall} {out : Except Exn c.Value} :
    (memoryCall c).Runs (Store.both m y) s out s' ↔ m ⟨c, out⟩ s.1 s'.1 ∧ s'.2 = s.2 :=
  Program.runs_perform (σ := storeSignature) (c := .inl c)

theorem syncCall_runs {c : SyncCall} {out : Except Exn c.Value} :
    (syncCall c).Runs (Store.both m y) s out s' ↔ y ⟨c, out⟩ s.2 s'.2 ∧ s'.1 = s.1 :=
  Program.runs_perform (σ := storeSignature) (c := .inr c)

theorem raising_runs {f : Exn → Exn} {p : MemoryProgram α} {out : Except Exn α} :
    (raising f p).Runs (Store.both m y) s out s' ↔
      ∃ r, p.Runs (Store.both m y) s r s' ∧ out = r.mapError f := by
  rw [raising, Program.runs_handle]
  simp only [Program.throw_eq, Program.runs_fail]
  constructor
  · rintro (⟨a, hrun, rfl⟩ | ⟨e, s₁, hrun, rfl, rfl⟩)
    · exact ⟨.ok a, hrun, rfl⟩
    · exact ⟨.error e, hrun, rfl⟩
  · rintro ⟨e | a, hrun, rfl⟩
    · exact .inr ⟨e, s', hrun, rfl, rfl⟩
    · exact .inl ⟨a, hrun, rfl⟩

theorem statement_runs {f : Exn → Exn} {c : MemoryCall} {out : Except Exn c.Value} :
    (raising f (memoryCall c)).Runs (Store.both m y) s out s' ↔
      ∃ r, (m ⟨c, r⟩ s.1 s'.1 ∧ s'.2 = s.2) ∧ out = r.mapError f := by
  rw [raising_runs]
  exact exists_congr fun r => and_congr_left fun _ => memoryCall_runs

/-- A program that begins with a statement: the statement fails, or the rest goes on from what it
has left. -/
theorem statement_bind_runs {f : Exn → Exn} {c : MemoryCall} {k : c.Value → MemoryProgram α}
    {out : Except Exn α} :
    (raising f (memoryCall c) >>= k).Runs (Store.both m y) s out s' ↔
      (∃ e, m ⟨c, .error e⟩ s.1 s'.1 ∧ s'.2 = s.2 ∧ out = .error (f e)) ∨
        ∃ v t, m ⟨c, .ok v⟩ s.1 t ∧ (k v).Runs (Store.both m y) (t, s.2) out s' := by
  rw [Program.runs_bind]
  constructor
  · rintro (⟨e, hrun, rfl⟩ | ⟨v, s₁, hrun, hrest⟩)
    · obtain ⟨e' | v, hstep, heq⟩ := statement_runs.mp hrun
      · cases heq
        exact .inl ⟨e', hstep.1, hstep.2, rfl⟩
      · cases heq
    · obtain ⟨e | v', hstep, heq⟩ := statement_runs.mp hrun
      · cases heq
      · cases heq
        rw [show s₁ = (s₁.1, s.2) from Prod.ext rfl hstep.2] at hrest
        exact .inr ⟨v, s₁.1, hstep.1, hrest⟩
  · rintro (⟨e, hstep, hsame, rfl⟩ | ⟨v, t, hstep, hrest⟩)
    · exact .inl ⟨f e, statement_runs.mpr ⟨.error e, ⟨hstep, hsame⟩, rfl⟩, rfl⟩
    · exact .inr ⟨v, (t, s.2), statement_runs.mpr ⟨.ok v, ⟨hstep, rfl⟩, rfl⟩, hrest⟩

section Ensures

variable {Φ : List (Answered storeSignature Exn) → storeSignature.Call → Prop}
variable {Ψ : List (Answered storeSignature Exn) → Except Exn α → Prop}
variable {h : List (Answered storeSignature Exn)}

theorem memoryCall_ensures {c : MemoryCall} {k : c.Value → MemoryProgram α} :
    (memoryCall c >>= k).Ensures Φ Ψ h ↔
      Φ h (.inl c) ∧ (∀ v, (k v).Ensures Φ Ψ (h ++ [⟨.inl c, .ok v⟩])) ∧
        ∀ e, Ψ (h ++ [⟨.inl c, .error e⟩]) (.error e) :=
  Program.ensures_perform_bind (σ := storeSignature) (.inl c) k

theorem statement_ensures {f : Exn → Exn} {c : MemoryCall} {k : c.Value → MemoryProgram α} :
    (raising f (memoryCall c) >>= k).Ensures Φ Ψ h ↔
      Φ h (.inl c) ∧ (∀ v, (k v).Ensures Φ Ψ (h ++ [⟨.inl c, .ok v⟩])) ∧
        ∀ e, Ψ (h ++ [⟨.inl c, .error e⟩]) (.error (f e)) := by
  constructor
  · intro hp
    exact ⟨hp.1, fun v => hp.2 (.ok v), fun e => hp.2 (.error e)⟩
  · rintro ⟨hc, hv, he⟩
    refine ⟨hc, ?_⟩
    rintro (e | v)
    · exact he e
    · exact hv v

theorem recordMutation_ensures {repo : ObservationRepository} {op : MutationOp} {entityKey : String}
    {project : Option String} {payload : JsonObject} {k : Unit → MemoryProgram α}
    (hcall : repo.recording = true →
      Φ h (.inr (.recordMutation entityKey op payload (project.getD ""))))
    (hsilent : repo.recording = false → (k ()).Ensures Φ Ψ h)
    (hrecorded : repo.recording = true → ∀ r,
      (k ()).Ensures Φ Ψ (h ++ [⟨.inr (.recordMutation entityKey op payload (project.getD "")), r⟩])) :
    (repo.recordMutation op entityKey project payload >>= k).Ensures Φ Ψ h := by
  unfold ObservationRepository.recordMutation
  cases hrecording : repo.recording with
  | false => exact hsilent hrecording
  | true =>
    refine ⟨hcall hrecording, ?_⟩
    rintro (e | v)
    · exact hrecorded hrecording (.error e)
    · exact hrecorded hrecording (.ok v)

end Ensures

section Always

variable {S : Type} {sem : Semantics storeSignature Exn S} {Φ : S → storeSignature.Call → Prop}
variable {Q : Except Exn α → S → Prop} {u : S}

theorem memoryCall_always {c : MemoryCall} {k : c.Value → MemoryProgram α} :
    (memoryCall c >>= k).Always sem Φ Q u ↔
      Φ u (.inl c) ∧ (∀ v u', sem ⟨.inl c, .ok v⟩ u u' → (k v).Always sem Φ Q u') ∧
        ∀ e u', sem ⟨.inl c, .error e⟩ u u' → Q (.error e) u' :=
  Program.always_perform_bind (σ := storeSignature) (.inl c) k

theorem statement_always {f : Exn → Exn} {c : MemoryCall} {k : c.Value → MemoryProgram α} :
    (raising f (memoryCall c) >>= k).Always sem Φ Q u ↔
      Φ u (.inl c) ∧ (∀ v u', sem ⟨.inl c, .ok v⟩ u u' → (k v).Always sem Φ Q u') ∧
        ∀ e u', sem ⟨.inl c, .error e⟩ u u' → Q (.error (f e)) u' := by
  constructor
  · intro hp
    exact ⟨hp.1, fun v => hp.2 (.ok v), fun e => hp.2 (.error e)⟩
  · rintro ⟨hc, hv, he⟩
    refine ⟨hc, ?_⟩
    rintro (e | v)
    · exact he e
    · exact hv v

theorem recordMutation_always {repo : ObservationRepository} (hrecording : repo.recording = true)
    {op : MutationOp} {entityKey : String} {project : Option String} {payload : JsonObject}
    {Q : Except Exn Unit → S → Prop} :
    (repo.recordMutation op entityKey project payload).Always sem Φ Q u ↔
      Φ u (.inr (.recordMutation entityKey op payload (project.getD ""))) ∧
        ∀ r u', sem ⟨.inr (.recordMutation entityKey op payload (project.getD "")), r⟩ u u' →
          Q (.ok ()) u' := by
  unfold ObservationRepository.recordMutation
  rw [if_pos hrecording]
  constructor
  · rintro ⟨hcall, hr⟩
    refine ⟨hcall, ?_⟩
    rintro (e | v)
    · exact hr (.error e)
    · exact hr (.ok v)
  · rintro ⟨hcall, hr⟩
    refine ⟨hcall, ?_⟩
    rintro (e | v)
    · exact hr (.error e)
    · exact hr (.ok v)

end Always

namespace ObservationRepository

variable (repo : ObservationRepository)

/-- What a recording leaves of the journal. -/
def Records (y : Semantics syncSignature Exn SyncStore) (op : MutationOp) (entityKey : String)
    (project : Option String) (payload : JsonObject) (t t' : SyncStore) : Prop :=
  if repo.recording then
    ∃ r, y ⟨.recordMutation entityKey op payload (project.getD ""), r⟩ t t'
  else t' = t

theorem recordMutation_runs {op : MutationOp} {entityKey : String} {project : Option String}
    {payload : JsonObject} {out : Except Exn Unit} :
    (repo.recordMutation op entityKey project payload).Runs (Store.both m y) s out s' ↔
      out = .ok () ∧ s'.1 = s.1 ∧ repo.Records y op entityKey project payload s.2 s'.2 := by
  unfold recordMutation Records
  split_ifs with hrecording
  · refine Program.runs_attempt.trans (and_congr_right fun _ => ?_)
    simp only [syncCall_runs, exists_and_right]
    exact and_comm
  · rw [Program.pure_eq, Program.runs_ret]
    exact and_congr_right fun _ => Prod.ext_iff

theorem create_runs {o : Observation} {out : Except Exn Unit} :
    (repo.create o).Runs (Store.both m y) s out s' ↔
      (∃ e, m ⟨.insert (repo.row o.val), .error e⟩ s.1 s'.1 ∧ s'.2 = s.2 ∧
        out = .error (insertError o.val.id e)) ∨
      m ⟨.insert (repo.row o.val), .ok ()⟩ s.1 s'.1 ∧ out = .ok () ∧
        repo.Records y .insert o.val.id o.val.project (payload o.val.id o.val) s.2 s'.2 := by
  refine statement_bind_runs.trans (or_congr_right ?_)
  simp only [recordMutation_runs]
  constructor
  · rintro ⟨_, t, hstep, hout, rfl, hrec⟩
    exact ⟨hstep, hout, hrec⟩
  · rintro ⟨hstep, hout, hrec⟩
    exact ⟨(), s'.1, hstep, hout, rfl, hrec⟩

theorem update_runs {o : Observation} {out : Except Exn Unit} :
    (repo.update o).Runs (Store.both m y) s out s' ↔
      (∃ e, m ⟨.update (repo.row o.val), .error e⟩ s.1 s'.1 ∧ s'.2 = s.2 ∧
        out = .error (sqliteErrorAs "Failed to update observation" e)) ∨
      (m ⟨.update (repo.row o.val), .ok false⟩ s.1 s'.1 ∧ s'.2 = s.2 ∧
        out = .error (notFound o.val.id)) ∨
      m ⟨.update (repo.row o.val), .ok true⟩ s.1 s'.1 ∧ out = .ok () ∧
        repo.Records y .update o.val.id o.val.project (payload o.val.id o.val) s.2 s'.2 := by
  refine statement_bind_runs.trans (or_congr_right ?_)
  constructor
  · rintro ⟨_ | _, t, hstep, hrest⟩
    · obtain ⟨rfl, rfl⟩ := hrest
      exact .inl ⟨hstep, rfl, rfl⟩
    · obtain ⟨hout, rfl, hrec⟩ := repo.recordMutation_runs.mp hrest
      exact .inr ⟨hstep, hout, hrec⟩
  · rintro (⟨hstep, hsame, rfl⟩ | ⟨hstep, hout, hrec⟩)
    · exact ⟨false, s'.1, hstep, rfl, Prod.ext rfl hsame⟩
    · exact ⟨true, s'.1, hstep, repo.recordMutation_runs.mpr ⟨hout, rfl, hrec⟩⟩

theorem delete_runs {id : String} {out : Except Exn Unit} :
    (repo.delete id).Runs (Store.both m y) s out s' ↔
      (∃ e, m ⟨.delete id, .error e⟩ s.1 s'.1 ∧ s'.2 = s.2 ∧
        out = .error (sqliteErrorAs "Failed to delete observation" e)) ∨
      (m ⟨.delete id, .ok false⟩ s.1 s'.1 ∧ s'.2 = s.2 ∧ out = .error (notFound id)) ∨
      m ⟨.delete id, .ok true⟩ s.1 s'.1 ∧ out = .ok () ∧
        repo.Records y .delete id none [("id", .str id)] s.2 s'.2 := by
  refine statement_bind_runs.trans (or_congr_right ?_)
  constructor
  · rintro ⟨_ | _, t, hstep, hrest⟩
    · obtain ⟨rfl, rfl⟩ := hrest
      exact .inl ⟨hstep, rfl, rfl⟩
    · obtain ⟨hout, rfl, hrec⟩ := repo.recordMutation_runs.mp hrest
      exact .inr ⟨hstep, hout, hrec⟩
  · rintro (⟨hstep, hsame, rfl⟩ | ⟨hstep, hout, hrec⟩)
    · exact ⟨false, s'.1, hstep, rfl, Prod.ext rfl hsame⟩
    · exact ⟨true, s'.1, hstep, repo.recordMutation_runs.mpr ⟨hout, rfl, hrec⟩⟩

/-- The statement of an upsert under a key that is not empty. -/
def upsertCall (o : Observation) (topicKey : String) : MemoryCall :=
  .upsertTopicKey o (normalizeTopicKey repo.lower topicKey) (normalizeProject repo.lower o.val.project)

/-- An upsert is refused, or it makes its statement under a key that is not empty and records it. -/
theorem upsertTopicKey_cases (o : Observation) :
    (∃ e, repo.upsertTopicKey o = .fail e ∧
        ∀ topicKey, o.val.topicKey = some topicKey → normalizeTopicKey repo.lower topicKey = "") ∨
      ∃ topicKey, o.val.topicKey = some topicKey ∧ normalizeTopicKey repo.lower topicKey ≠ "" ∧
        repo.upsertTopicKey o = (do
          let result ← raising (sqliteErrorAs "Failed to upsert topic_key")
            (memoryCall (repo.upsertCall o topicKey))
          repo.recordMutation .update topicKey o.val.project (payload result.val.id o.val)
          return result) := by
  unfold upsertTopicKey
  cases o.val.topicKey with
  | none => exact .inl ⟨_, rfl, by simp⟩
  | some topicKey =>
    by_cases hempty : normalizeTopicKey repo.lower topicKey = ""
    · exact .inl ⟨_, if_pos hempty, by simpa using hempty⟩
    · exact .inr ⟨topicKey, rfl, hempty, if_neg hempty⟩

theorem upsertTopicKey_runs {o : Observation} {topicKey : String} {out : Except Exn Observation}
    (hkey : o.val.topicKey = some topicKey) (hne : normalizeTopicKey repo.lower topicKey ≠ "") :
    (repo.upsertTopicKey o).Runs (Store.both m y) s out s' ↔
      (∃ e, m ⟨repo.upsertCall o topicKey, .error e⟩ s.1 s'.1 ∧ s'.2 = s.2 ∧
        out = .error (sqliteErrorAs "Failed to upsert topic_key" e)) ∨
      ∃ result : Observation, m ⟨repo.upsertCall o topicKey, .ok result⟩ s.1 s'.1 ∧
        out = .ok result ∧
        repo.Records y .update topicKey o.val.project (payload result.val.id o.val) s.2 s'.2 := by
  have hprogram : repo.upsertTopicKey o = (do
      let result ← raising (sqliteErrorAs "Failed to upsert topic_key")
        (memoryCall (repo.upsertCall o topicKey))
      repo.recordMutation .update topicKey o.val.project (payload result.val.id o.val)
      return result) := by
    unfold upsertTopicKey
    rw [hkey]
    exact if_neg hne
  rw [hprogram]
  refine statement_bind_runs.trans (or_congr_right ?_)
  constructor
  · rintro ⟨result, t, hstep, hrest⟩
    obtain ⟨e, hrun, -⟩ | ⟨_, s₁, hrun, rfl, rfl⟩ := Program.runs_bind.mp hrest
    · cases (repo.recordMutation_runs.mp hrun).1
    · obtain ⟨-, rfl, hrec⟩ := repo.recordMutation_runs.mp hrun
      exact ⟨result, hstep, rfl, hrec⟩
  · rintro ⟨result, hstep, rfl, hrec⟩
    refine ⟨result, s'.1, hstep, Program.runs_bind.mpr (.inr ⟨(), s', ?_, rfl, rfl⟩)⟩
    exact repo.recordMutation_runs.mpr ⟨rfl, rfl, hrec⟩

theorem mergeProjects_runs {canonical : String} {sources : List String}
    {out : Except Exn MergeStats} :
    (repo.mergeProjects canonical sources).Runs (Store.both m y) s out s' ↔
      s'.2 = s.2 ∧ ∃ r, m ⟨.mergeProjects (normalizeProjectName repo.lower canonical)
          (sources.map (normalizeProjectName repo.lower)), r⟩ s.1 s'.1 ∧
        out = (r.map fun moved => ⟨canonical, sources, moved.1, moved.2⟩).mapError
          (sqliteErrorAs "Failed to merge projects") := by
  refine statement_bind_runs.trans ?_
  constructor
  · rintro (⟨e, hstep, hsame, rfl⟩ | ⟨moved, t, hstep, rfl, rfl⟩)
    · exact ⟨hsame, .error e, hstep, rfl⟩
    · exact ⟨rfl, .ok moved, hstep, rfl⟩
  · rintro ⟨hsame, e | moved, hstep, rfl⟩
    · exact .inl ⟨e, hstep, hsame, rfl⟩
    · exact .inr ⟨moved, s'.1, hstep, rfl, Prod.ext rfl hsame⟩

theorem readRows_runs {context : String} {call : MemoryProgram (List ObservationRow)}
    {out : Except Exn (List Observation)} :
    (readRows context call).Runs (Store.both m y) s out s' ↔
      (∃ e, call.Runs (Store.both m y) s (.error e) s' ∧ out = .error (sqliteErrorAs context e)) ∨
        ∃ rows, call.Runs (Store.both m y) s (.ok rows) s' ∧ out = rows.mapM rowToObservation := by
  rw [readRows, Program.runs_bind]
  simp only [raising_runs, Program.runs_ofExcept]
  constructor
  · rintro (⟨e, ⟨e' | rows, hrun, heq⟩, rfl⟩ | ⟨rows, s₁, ⟨e' | rows', hrun, heq⟩, hout, rfl⟩)
    · cases heq
      exact .inl ⟨e', hrun, rfl⟩
    · cases heq
    · cases heq
    · cases heq
      exact .inr ⟨rows, hrun, hout⟩
  · rintro (⟨e, hrun, rfl⟩ | ⟨rows, hrun, hout⟩)
    · exact .inl ⟨_, ⟨.error e, hrun, rfl⟩, rfl⟩
    · exact .inr ⟨rows, s', ⟨.ok rows, hrun, rfl⟩, hout, rfl⟩

end ObservationRepository

end ForkAgent.Memory

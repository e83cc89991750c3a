import ForkAgent.Memory.Changes

/-!
# The journal of the repository

Sequences of operations of the repository and of cleanups, with recording enabled. An operation
changes its rows in one transaction and records the change in another.
-/

namespace ForkAgent.Memory

open Effects Storage Sync MemoryStore

/-- The operations that write observations. -/
inductive RepositoryOp where
  | create (o : Observation)
  | update (o : Observation)
  | upsertTopicKey (o : Observation)
  | delete (observationId : String)
  | saveEvent (content : String) (metadata : JsonObject) (idempotencyKey : String)
  | mergeProjects (canonical : String) (sources : List String)
  | cleanupOldObservations (days : Int) (dryRun : Bool)

namespace RepositoryOp

def Result : RepositoryOp → Type
  | create _ | update _ | delete _ => Unit
  | upsertTopicKey _ => Observation
  | saveEvent .. => String
  | mergeProjects .. => ObservationRepository.MergeStats
  | cleanupOldObservations .. => CleanupResult

def program (repo : ObservationRepository) : (op : RepositoryOp) → MemoryProgram op.Result
  | create o => repo.create o
  | update o => repo.update o
  | upsertTopicKey o => repo.upsertTopicKey o
  | delete observationId => repo.delete observationId
  | saveEvent content metadata idempotencyKey => repo.saveEvent content metadata idempotencyKey
  | mergeProjects canonical sources => repo.mergeProjects canonical sources
  | cleanupOldObservations days dryRun => CleanupService.cleanupOldObservations days dryRun

end RepositoryOp

/-- One operation of a sequence: the stores before and after it, and the answers that it got. -/
structure Operation where
  op : RepositoryOp
  before : Store
  answers : List (Answered storeSignature Exn)
  outcome : Except Exn op.Result
  after : Store

/-- One operation after another, with any failures of the databases. -/
inductive Sequence (repo : ObservationRepository) : Store → List Operation → Store → Prop where
  | nil (s) : Sequence repo s [] s
  | snoc {s ops t} (before : Sequence repo s ops t) (op : RepositoryOp) {answers out t'}
      (run : (op.program repo).Reaches Store.step t answers (.ofExcept out) t') :
      Sequence repo s (ops ++ [⟨op, t, answers, out, t'⟩]) t'

/-- A row with this id was inserted, changed or deleted. -/
def Touches (s s' : Store) (id : String) : Prop :=
  ∃ row : ObservationRow, row.id = id ∧ ¬ (row ∈ s.1.observations.rows ↔ row ∈ s'.1.observations.rows)

/-- Every row that was touched has an entry among those that were added to the journal. -/
def Journaled (s s' : Store) : Prop :=
  ∀ id, Touches s s' id → ∃ added, s'.2.syncMutations = s.2.syncMutations ++ added ∧
    ∃ entry ∈ added, entry.payload.get "id" = .str id

/-- The answers that lose a change: a merge or a cleanup of some row, neither of which is recorded,
and a recording that fails, unless it is of an update that has changed nothing. -/
def Loses (s : Store) (answers : List (Answered storeSignature Exn)) : Answered storeSignature Exn → Prop
  | ⟨.inl (.mergeProjects canonical sources), .ok _⟩ =>
    ∃ row ∈ s.1.observations.rows, ∃ src ∈ sources, row.project = some src ∧ src ≠ canonical
  | ⟨.inl (.deleteOlderThan cutoff), .ok _⟩ => ∃ row ∈ s.1.observations.rows, row.timestamp < cutoff
  | ⟨.inr (.recordMutation ..), .error _⟩ =>
    ∀ row ∈ s.1.observations.rows, (⟨.inl (.update row), .ok true⟩ : Answered storeSignature Exn) ∉ answers
  | _ => False

/-- No answer loses a change. -/
def Kept (s : Store) (answers : List (Answered storeSignature Exn)) : Prop :=
  ∀ a ∈ answers, ¬ Loses s answers a

section Touched

variable {s s' : Store} {id : String}

theorem not_touches_of_rows (h : s'.1.observations.rows = s.1.observations.rows) : ¬ Touches s s' id := by
  rintro ⟨row, -, hrow⟩
  rw [h] at hrow
  exact hrow Iff.rfl

theorem touches_insert (id : String) {row : ObservationRow} (hfresh : s.1.observations.Admits row)
    (h : s'.1.observations.rows = s.1.observations.rows ++ [row]) : Touches s s' id ↔ id = row.id := by
  unfold Touches
  rw [h]
  constructor
  · rintro ⟨other, rfl, hother⟩
    by_contra hne
    refine hother ?_
    have : other ≠ row := fun heq => hne (congrArg _ heq)
    simp [this]
  · rintro rfl
    refine ⟨row, rfl, fun hiff => ?_⟩
    exact hfresh.id row (hiff.mpr (List.mem_append_right _ (List.mem_singleton_self row))) rfl

/-- An update of a row touches it unless the row has been so before. -/
theorem touches_update (id : String) {old new : ObservationRow} (hold : old ∈ s.1.observations.rows)
    (hid : new.id = old.id) (h : s'.1.observations.rows =
      updateWhere (fun r => r.id == old.id) (fun _ => new) s.1.observations.rows) :
    Touches s s' id ↔ id = old.id ∧ new ∉ s.1.observations.rows := by
  have hmem : ∀ row, row ∈ s'.1.observations.rows ↔
      row = new ∨ row ∈ s.1.observations.rows ∧ row.id ≠ old.id := by
    intro row
    rw [h, mem_updateWhere]
    constructor
    · rintro (⟨_, -, -, rfl⟩ | ⟨hrow, hne⟩)
      · exact .inl rfl
      · exact .inr ⟨hrow, by simpa using hne⟩
    · rintro (rfl | ⟨hrow, hne⟩)
      · exact .inl ⟨old, hold, by simp, rfl⟩
      · exact .inr ⟨hrow, by simpa using hne⟩
  constructor
  · rintro ⟨row, rfl, hrow⟩
    rw [hmem] at hrow
    by_cases hne : row.id = old.id
    · refine ⟨hne, fun hnew => hrow ?_⟩
      have hunique : ∀ r ∈ s.1.observations.rows, r.id = old.id → r = new := by
        intro r hr hr'
        have hsame : rowId r = some old.id := congrArg some hr'
        exact s.1.observations.isIndexed.ids.eq_of_mem hr hnew hsame (congrArg some hid)
      constructor
      · intro hr
        exact .inl (hunique row hr hne)
      · rintro (rfl | ⟨hr, -⟩)
        · exact hnew
        · exact hr
    · refine absurd ?_ hrow
      constructor
      · intro hr
        exact .inr ⟨hr, hne⟩
      · rintro (rfl | ⟨hr, -⟩)
        · exact absurd hid hne
        · exact hr
  · rintro ⟨rfl, hnew⟩
    exact ⟨new, hid, fun hiff => hnew (hiff.mpr ((hmem new).mpr (.inl rfl)))⟩

theorem touches_delete (id : String) {old : ObservationRow} (hold : old ∈ s.1.observations.rows)
    (h : s'.1.observations.rows = s.1.observations.rows.filter fun r => r.id != old.id) :
    Touches s s' id ↔ id = old.id := by
  unfold Touches
  rw [h]
  constructor
  · rintro ⟨row, rfl, hrow⟩
    by_contra hne
    exact hrow (by simp [hne])
  · rintro rfl
    refine ⟨old, rfl, fun hiff => ?_⟩
    have := hiff.mp hold
    simp at this

end Touched

section Recorded

variable {s s' : Store} {id : String}

theorem journaled_iff_untouched (h : s'.2 = s.2) : Journaled s s' ↔ ∀ id, ¬ Touches s s' id := by
  constructor
  · intro hjournaled id htouches
    obtain ⟨added, hadded, entry, hentry, -⟩ := hjournaled id htouches
    rw [h, List.self_eq_append_right] at hadded
    rw [hadded] at hentry
    cases hentry
  · intro huntouched id htouches
    exact absurd htouches (huntouched id)

theorem journaled_of_recorded {entry : SyncMutationFields}
    (h : s'.2.syncMutations = s.2.syncMutations ++ [entry]) (hid : entry.payload.get "id" = .str id)
    (honly : ∀ id', Touches s s' id' → id' = id) : Journaled s s' := by
  intro id' htouches
  rw [honly id' htouches]
  exact ⟨[entry], h, entry, List.mem_singleton_self entry, hid⟩

end Recorded

section Operations

variable {repo : ObservationRepository} {s : Store} {t u : Store × List (Answered storeSignature Exn)}

/-- What an operation has done so far has touched one row at most, and nothing that it was answered
loses a change. -/
structure Pending (s : Store) (id : String) (t : Store × List (Answered storeSignature Exn)) : Prop where
  journal : t.1.2 = s.2
  only : ∀ id', Touches s t.1 id' → id' = id
  keeps : ∀ a ∈ t.2, ∀ answers, ¬ Loses s answers a
  touched : Touches s t.1 id ↔ ∀ row ∈ s.1.observations.rows,
    (⟨.inl (.update row), .ok true⟩ : Answered storeSignature Exn) ∉ t.2

theorem touches_congr {s s' s'' : Store} (h : s''.1 = s'.1) (id : String) :
    Touches s s'' id ↔ Touches s s' id := by
  unfold Touches
  rw [h]

/-- The recording that follows decides. -/
theorem Pending.recorded {id : String} (h : Pending s id t) {entityKey project : String}
    {op : MutationOp} {payload : JsonObject} (hid : payload.get "id" = .str id) {r : Except Exn Nat}
    (hstep : Store.step.recorded ⟨.inr (.recordMutation entityKey op payload project), r⟩ t u) :
    Journaled s u.1 ↔ Kept s u.2 := by
  obtain ⟨⟨hserve | ⟨hsame, m, hm⟩, hrows⟩, hanswers⟩ := hstep
  · obtain ⟨hr, createdAt, -, hjournal⟩ := hserve
    have hr : r = .ok (t.1.2.sqliteSequence + 1) := hr
    subst hr
    have hadded : u.1.2.syncMutations = s.2.syncMutations ++ [{ seq := t.1.2.sqliteSequence + 1, entity := "observation", entityKey, op, payload, project, createdAt }] := by
      rw [hjournal, ← h.journal]
      rfl
    refine iff_of_true ?_ ?_
    · refine journaled_of_recorded hadded hid fun id' h' => ?_
      exact h.only id' ((touches_congr hrows id').mp h')
    · intro a ha
      rw [hanswers] at ha
      rcases List.mem_append.mp ha with ha | ha
      · exact h.keeps a ha _
      · rw [List.mem_singleton.mp ha]
        exact not_false
  · have hr : r = .error (.repositoryError m) := hm
    subst hr
    rw [journaled_iff_untouched (hsame.trans h.journal)]
    constructor
    · intro huntouched a ha
      rw [hanswers] at ha ⊢
      rcases List.mem_append.mp ha with ha | ha
      · exact h.keeps a ha _
      · rw [List.mem_singleton.mp ha]
        intro hloses
        refine huntouched id ((touches_congr hrows id).mpr (h.touched.mpr fun row hrow hmem => ?_))
        exact hloses row hrow (List.mem_append_left _ hmem)
    · intro hkept id' htouches
      have htouches := (touches_congr hrows id').mp htouches
      rw [h.only id' htouches] at htouches
      refine hkept _ (by rw [hanswers]; exact List.mem_append_right _ (List.mem_singleton_self _)) ?_
      intro row hrow hmem
      rw [hanswers] at hmem
      rcases List.mem_append.mp hmem with hmem | hmem
      · exact h.touched.mp htouches row hrow hmem
      · cases List.mem_singleton.mp hmem

/-- What an operation has done so far has changed nothing. -/
structure Idle (s : Store) (t : Store × List (Answered storeSignature Exn)) : Prop where
  store : t.1 = s
  keeps : ∀ a ∈ t.2, ∀ answers, ¬ Loses s answers a
  updates : ∀ row, (⟨.inl (.update row), .ok true⟩ : Answered storeSignature Exn) ∉ t.2

theorem Idle.start (s : Store) : Idle s (s, []) :=
  ⟨rfl, fun _ ha => absurd ha List.not_mem_nil, fun _ => List.not_mem_nil⟩

theorem Idle.iff (h : Idle s t) : Journaled s t.1 ↔ Kept s t.2 := by
  refine iff_of_true ?_ fun a ha => h.keeps a ha _
  rw [journaled_iff_untouched (by rw [h.store])]
  exact fun id => not_touches_of_rows (by rw [h.store])

theorem Idle.append (h : Idle s t) {a : Answered storeSignature Exn}
    (ha : ∀ answers, ¬ Loses s answers a) : ∀ b ∈ t.2 ++ [a], ∀ answers, ¬ Loses s answers b := by
  intro b hb
  rcases List.mem_append.mp hb with hb | hb
  · exact h.keeps b hb
  · rw [List.mem_singleton.mp hb]
    exact ha

theorem Idle.append_updates (h : Idle s t) {a : Answered storeSignature Exn}
    (ha : ∀ row, a ≠ ⟨.inl (.update row), .ok true⟩) (row : ObservationRow) :
    (⟨.inl (.update row), .ok true⟩ : Answered storeSignature Exn) ∉ t.2 ++ [a] := by
  intro hmem
  rcases List.mem_append.mp hmem with hmem | hmem
  · exact h.updates row hmem
  · exact ha row (List.mem_singleton.mp hmem).symm

theorem Idle.call (h : Idle s t) {c : MemoryCall} {r : Except Exn c.Value}
    (hstep : Store.step.recorded ⟨.inl c, r⟩ t u) (hsame : u.1.1 = t.1.1)
    (hloses : ∀ answers, ¬ Loses s answers ⟨.inl c, r⟩)
    (hupdate : ∀ row, (⟨.inl c, r⟩ : Answered storeSignature Exn) ≠ ⟨.inl (.update row), .ok true⟩) :
    Idle s u := by
  obtain ⟨⟨-, hjournal⟩, hanswers⟩ := hstep
  refine ⟨(Prod.ext hsame hjournal).trans h.store, ?_, ?_⟩
  · rw [hanswers]
    exact h.append hloses
  · rw [hanswers]
    exact h.append_updates hupdate

theorem Idle.error (h : Idle s t) {c : MemoryCall} {e : Exn}
    (hstep : Store.step.recorded ⟨.inl c, .error e⟩ t u) : Idle s u := by
  refine h.call hstep (step_error hstep.1.1) (fun _ => ?_) fun row heq => ?_
  · cases c <;> exact id
  · cases heq

theorem Idle.read (h : Idle s t) {c : MemoryCall} (hc : isRead c = true) {r : Except Exn c.Value}
    (hstep : Store.step.recorded ⟨.inl c, r⟩ t u) : Idle s u := by
  refine h.call hstep (step_read hc hstep.1.1) (fun _ => ?_) fun row heq => ?_
  · cases c <;> first | (cases r <;> exact id) | cases hc
  · cases heq
    cases hc

theorem payload_id (id : String) (o : ObservationFields) :
    (ObservationRepository.payload id o).get "id" = .str id := by
  simp [ObservationRepository.payload, JsonObject.get]

theorem Idle.insert (h : Idle s t) {row : ObservationRow} {v : Unit}
    (hstep : Store.step.recorded ⟨.inl (.insert row), .ok v⟩ t u) : Pending s row.id u := by
  obtain ⟨⟨hmemory, hjournal⟩, hanswers⟩ := hstep
  obtain ⟨hadmits, hrows⟩ := insert_ok hmemory
  rw [h.store] at hadmits hrows hjournal
  have htouches := fun id => touches_insert id hadmits hrows
  constructor
  case journal => exact hjournal
  case only => exact fun id' h' => (htouches id').mp h'
  case keeps =>
    rw [hanswers]
    exact h.append fun _ => id
  case touched =>
    rw [hanswers]
    refine iff_of_true ((htouches _).mpr rfl) fun other _ => h.append_updates (fun _ heq => ?_) other
    cases heq

theorem Idle.update (h : Idle s t) {row : ObservationRow}
    (hstep : Store.step.recorded ⟨.inl (.update row), .ok true⟩ t u) : Pending s row.id u := by
  obtain ⟨⟨hmemory, hjournal⟩, hanswers⟩ := hstep
  obtain ⟨-, old, hold, hid, hrows⟩ | ⟨hfound, -⟩ := update_ok hmemory
  · rw [h.store] at hold hrows hjournal
    have htouches := fun id => touches_update id hold hid.symm hrows
    constructor
    case journal => exact hjournal
    case only => exact fun id' h' => ((htouches id').mp h').1.trans hid
    case keeps =>
      rw [hanswers]
      exact h.append fun _ => id
    case touched =>
      rw [hanswers, htouches, and_iff_right hid.symm]
      constructor
      · intro hnew other hother hmem
        rcases List.mem_append.mp hmem with hmem | hmem
        · exact h.updates other hmem
        · cases List.mem_singleton.mp hmem
          exact hnew hother
      · intro hnone hmem
        exact hnone row hmem (List.mem_append_right _ (List.mem_singleton_self _))
  · cases hfound

theorem Idle.delete (h : Idle s t) {id : String}
    (hstep : Store.step.recorded ⟨.inl (.delete id), .ok true⟩ t u) : Pending s id u := by
  obtain ⟨⟨hmemory, hjournal⟩, hanswers⟩ := hstep
  obtain ⟨-, old, hold, rfl, hrows⟩ | ⟨hfound, -⟩ := delete_ok hmemory
  · rw [h.store] at hold hrows hjournal
    have htouches := fun id => touches_delete id hold hrows
    constructor
    case journal => exact hjournal
    case only => exact fun id' h' => (htouches id').mp h'
    case keeps =>
      rw [hanswers]
      exact h.append fun _ => id
    case touched =>
      rw [hanswers]
      refine iff_of_true ((htouches _).mpr rfl) fun other _ => h.append_updates (fun _ heq => ?_) other
      cases heq
  · cases hfound

/-- A revision counts one up, so it changes its row. -/
theorem revise_ne (o : ObservationFields) (key : String) (project : Option String) (row : ObservationRow) :
    ObservationTable.revise o key project row ≠ row := by
  intro heq
  have hcount : row.revisionCount + 1 = row.revisionCount := congrArg ObservationRow.revisionCount heq
  omega

theorem Idle.upsert (h : Idle s t) {o result : Observation} {key : String} {project : Option String}
    (hstep : Store.step.recorded ⟨.inl (.upsertTopicKey o key project), .ok result⟩ t u) :
    Pending s result.val.id u := by
  obtain ⟨⟨hmemory, hjournal⟩, hanswers⟩ := hstep
  obtain ⟨old, hold, -, hid, -, hrows⟩ := upsert_row hmemory
  rw [h.store] at hold hrows hjournal
  have htouches := fun id => touches_update id hold (revise_id o.val key project old) hrows
  have hnew : ObservationTable.revise o.val key project old ∉ s.1.observations.rows := by
    intro hmem
    have hsame := s.1.observations.isIndexed.ids.eq_of_mem hmem hold (k := old.id) rfl rfl
    exact revise_ne o.val key project old hsame
  constructor
  case journal => exact hjournal
  case only => exact fun id' h' => ((htouches id').mp h').1.trans hid.symm
  case keeps =>
    rw [hanswers]
    exact h.append fun _ => id
  case touched =>
    rw [hanswers]
    refine iff_of_true ((htouches _).mpr ⟨hid, hnew⟩) fun other _ => h.append_updates (fun _ heq => ?_) other
    cases heq

theorem touches_merge {canonical : String} {sources : List String} {moved : Nat} {s' : Store}
    (h : ObservationTable.moveProjects (some canonical) sources s.1.observations = some (moved, s'.1.observations)) :
    (∀ id, ¬ Touches s s' id) ↔ ∀ row ∈ s.1.observations.rows, ∀ src ∈ sources,
      row.project = some src → src = canonical := by
  have hrows := moveProjects_rows h
  constructor
  · intro hnone row hrow src hsrc hproject
    by_contra hne
    refine hnone row.id ⟨row, rfl, fun hiff => ?_⟩
    have hafter := hiff.mp hrow
    rw [hrows] at hafter
    obtain ⟨before, hbefore, heq⟩ := List.mem_map.mp hafter
    have hid : rowId before = some row.id := congrArg some ((merged_id _ _ _).symm.trans (congrArg _ heq))
    rw [s.1.observations.isIndexed.ids.eq_of_mem hbefore hrow hid rfl] at heq
    have hmerged := merged_project canonical sources row
    rw [if_pos ⟨src, hsrc, hproject⟩, heq, hproject] at hmerged
    exact hne (Option.some.inj hmerged)
  · intro hnone id
    refine not_touches_of_rows ?_
    rw [hrows]
    exact (List.map_congr_left fun row hrow => merged_eq_self (hnone row hrow)).trans (List.map_id _)

theorem Idle.merge (h : Idle s t) {canonical : String} {sources : List String} {v : Nat × Nat}
    (hstep : Store.step.recorded ⟨.inl (.mergeProjects canonical sources), .ok v⟩ t u) :
    Journaled s u.1 ↔ Kept s u.2 := by
  obtain ⟨⟨hmemory, hjournal⟩, hanswers⟩ := hstep
  obtain ⟨moved, t', hmoved, hafter⟩ := merge_ok hmemory
  rw [h.store] at hmoved hjournal
  subst hafter
  rw [journaled_iff_untouched hjournal, touches_merge hmoved]
  constructor
  · intro hnone a ha
    rw [hanswers] at ha
    rcases List.mem_append.mp ha with ha | ha
    · exact h.keeps a ha _
    · rw [List.mem_singleton.mp ha]
      rintro ⟨row, hrow, src, hsrc, hproject, hne⟩
      exact hne (hnone row hrow src hsrc hproject)
  · intro hkept row hrow src hsrc hproject
    by_contra hne
    refine hkept ⟨.inl (.mergeProjects canonical sources), .ok v⟩ ?_ ⟨row, hrow, src, hsrc, hproject, hne⟩
    rw [hanswers]
    exact List.mem_append_right _ (List.mem_singleton_self _)

theorem Idle.cleanup (h : Idle s t) {cutoff : Int} {v : Nat × Nat}
    (hstep : Store.step.recorded ⟨.inl (.deleteOlderThan cutoff), .ok v⟩ t u) :
    Journaled s u.1 ↔ Kept s u.2 := by
  obtain ⟨⟨hmemory, hjournal⟩, hanswers⟩ := hstep
  have hrows := cleanup_ok hmemory
  rw [h.store] at hrows hjournal
  have huntouched : (∀ id, ¬ Touches s u.1 id) ↔ ∀ row ∈ s.1.observations.rows, ¬ row.timestamp < cutoff := by
    constructor
    · intro hnone row hrow hold
      refine hnone row.id ⟨row, rfl, fun hiff => ?_⟩
      rw [hrows] at hiff
      have := List.mem_filter.mp (hiff.mp hrow)
      simp [hold] at this
    · intro hnone id
      refine not_touches_of_rows ?_
      rw [hrows]
      exact List.filter_eq_self.mpr fun row hrow => by simpa using hnone row hrow
  rw [journaled_iff_untouched hjournal, huntouched]
  constructor
  · intro hnone a ha
    rw [hanswers] at ha
    rcases List.mem_append.mp ha with ha | ha
    · exact h.keeps a ha _
    · rw [List.mem_singleton.mp ha]
      rintro ⟨row, hrow, hold⟩
      exact hnone row hrow hold
  · intro hkept row hrow hold
    refine hkept ⟨.inl (.deleteOlderThan cutoff), .ok v⟩ ?_ ⟨row, hrow, hold⟩
    rw [hanswers]
    exact List.mem_append_right _ (List.mem_singleton_self _)

theorem mergeProjects_journal (h : Idle s t) (canonical : String) (sources : List String) :
    (repo.mergeProjects canonical sources).Always Store.step.recorded (fun _ _ => True)
      (fun _ u => Journaled s u.1 ↔ Kept s u.2) t := by
  refine statement_always.mpr ⟨trivial, fun counts u hstep => ?_, fun e u hstep => (h.error hstep).iff⟩
  exact h.merge hstep

theorem cleanup_journal (h : Idle s t) (days : Int) (dryRun : Bool) :
    (CleanupService.cleanupOldObservations days dryRun).Always Store.step.recorded (fun _ _ => True)
      (fun _ u => Journaled s u.1 ↔ Kept s u.2) t := by
  unfold CleanupService.cleanupOldObservations
  by_cases hdays : days ≤ 0
  · rw [if_pos hdays]
    exact h.iff
  · rw [if_neg hdays]
    refine memoryCall_always.mpr ⟨trivial, fun now u hstep => ?_, fun e u hstep => (h.error hstep).iff⟩
    have hu := h.read rfl hstep
    cases dryRun with
    | true =>
      refine statement_always.mpr ⟨trivial, fun counts v hstep => ?_, fun e v hstep => (hu.error hstep).iff⟩
      exact (hu.read rfl hstep).iff
    | false =>
      refine statement_always.mpr ⟨trivial, fun counts v hstep => ?_, fun e v hstep => (hu.error hstep).iff⟩
      exact hu.cleanup hstep

section Recording

variable (hrecording : repo.recording = true)
include hrecording

theorem Pending.record {id : String} (h : Pending s id t) (op : MutationOp) (entityKey : String)
    (project : Option String) {payload : JsonObject} (hid : payload.get "id" = .str id) {α : Type}
    (value : α) :
    (do repo.recordMutation op entityKey project payload
        return value).Always Store.step.recorded (fun _ _ => True)
      (fun _ u => Journaled s u.1 ↔ Kept s u.2) t := by
  have hrecord : (repo.recordMutation op entityKey project payload).Always Store.step.recorded
      (fun _ _ => True) (fun _ u => Journaled s u.1 ↔ Kept s u.2) t :=
    (recordMutation_always hrecording).mpr ⟨trivial, fun r u hstep => h.recorded hid hstep⟩
  exact hrecord.bind (fun _ _ hu => hu) fun _ _ hu => hu

theorem create_journal (h : Idle s t) (o : Observation) {α : Type} (value : α) :
    (do repo.create o
        return value).Always Store.step.recorded (fun _ _ => True)
      (fun _ u => Journaled s u.1 ↔ Kept s u.2) t := by
  unfold ObservationRepository.create
  rw [Program.bind_assoc]
  refine statement_always.mpr ⟨trivial, fun v u hstep => ?_, fun e u hstep => (h.error hstep).iff⟩
  exact (h.insert hstep).record hrecording _ _ _ (payload_id _ _) value

theorem update_journal (h : Idle s t) (o : Observation) :
    (repo.update o).Always Store.step.recorded (fun _ _ => True)
      (fun _ u => Journaled s u.1 ↔ Kept s u.2) t := by
  refine statement_always.mpr ⟨trivial, fun found u hstep => ?_, fun e u hstep => (h.error hstep).iff⟩
  cases found with
  | true =>
    have hrecord := (h.update hstep).record hrecording .update o.val.id o.val.project (payload_id o.val.id o.val) ()
    rwa [Program.pure_eq, Program.bind_ret] at hrecord
  | false =>
    obtain ⟨hfound, -⟩ | ⟨-, hsame, -⟩ := update_ok hstep.1.1
    · cases hfound
    · refine (h.call hstep hsame (fun _ => id) fun row heq => ?_).iff
      cases heq

theorem delete_journal (h : Idle s t) (observationId : String) :
    (repo.delete observationId).Always Store.step.recorded (fun _ _ => True)
      (fun _ u => Journaled s u.1 ↔ Kept s u.2) t := by
  refine statement_always.mpr ⟨trivial, fun found u hstep => ?_, fun e u hstep => (h.error hstep).iff⟩
  cases found with
  | true =>
    have hid : JsonObject.get [("id", .str observationId)] "id" = .str observationId := by
      simp [JsonObject.get]
    have hrecord := (h.delete hstep).record hrecording .delete observationId none hid ()
    rwa [Program.pure_eq, Program.bind_ret] at hrecord
  | false =>
    obtain ⟨hfound, -⟩ | ⟨-, hsame, -⟩ := delete_ok hstep.1.1
    · cases hfound
    · refine (h.call hstep hsame (fun _ => id) fun row heq => ?_).iff
      cases heq

theorem upsert_journal (h : Idle s t) (o : Observation) :
    (repo.upsertTopicKey o).Always Store.step.recorded (fun _ _ => True)
      (fun _ u => Journaled s u.1 ↔ Kept s u.2) t := by
  obtain ⟨e, hrefused, -⟩ | ⟨topicKey, -, -, hprogram⟩ := repo.upsertTopicKey_cases o
  · rw [hrefused]
    exact h.iff
  · rw [hprogram]
    refine statement_always.mpr ⟨trivial, fun result u hstep => ?_, fun e u hstep => (h.error hstep).iff⟩
    exact (h.upsert hstep).record hrecording _ _ _ (payload_id _ _) result

theorem saveEvent_journal (h : Idle s t) (content : String) (metadata : JsonObject)
    (idempotencyKey : String) :
    (repo.saveEvent content metadata idempotencyKey).Always Store.step.recorded (fun _ _ => True)
      (fun _ u => Journaled s u.1 ↔ Kept s u.2) t := by
  have hlookup : (ObservationRepository.getByIdempotencyKey idempotencyKey).Always Store.step.recorded
      (fun _ _ => True) (fun _ u => Idle s u) t := by
    refine statement_always.mpr ⟨trivial, fun row u hstep => ?_, fun e u hstep => h.error hstep⟩
    exact (Program.always_ofExcept _).mpr (h.read rfl hstep)
  refine hlookup.bind (fun existing u hu => ?_) fun e u hu => hu.iff
  cases existing with
  | some existing => exact hu.iff
  | none =>
    refine memoryCall_always.mpr ⟨trivial, fun now v hstep => ?_, fun e v hstep => (hu.error hstep).iff⟩
    have hv := hu.read rfl hstep
    refine memoryCall_always.mpr ⟨trivial, fun id w hstep => ?_, fun e w hstep => (hv.error hstep).iff⟩
    have hw := hv.read rfl hstep
    refine (Program.always_ofExcept_bind _ _).mpr ⟨fun o _ => ?_, fun e _ => hw.iff⟩
    exact create_journal hrecording hw o id

theorem op_journal (op : RepositoryOp) (s : Store) :
    (op.program repo).Always Store.step.recorded (fun _ _ => True)
      (fun _ u => Journaled s u.1 ↔ Kept s u.2) (s, []) := by
  have h := Idle.start s
  cases op with
  | create o =>
    have hcreate := create_journal hrecording h o ()
    rwa [Program.pure_eq, Program.bind_ret] at hcreate
  | update o => exact update_journal hrecording h o
  | upsertTopicKey o => exact upsert_journal hrecording h o
  | delete observationId => exact delete_journal hrecording h observationId
  | saveEvent content metadata idempotencyKey =>
    exact saveEvent_journal hrecording h content metadata idempotencyKey
  | mergeProjects canonical sources => exact mergeProjects_journal h canonical sources
  | cleanupOldObservations days dryRun => exact cleanup_journal h days dryRun

end Recording

end Operations

section Sequences

variable {repo : ObservationRepository} {s t : Store} {ops : List Operation}

theorem Sequence.of_mem (seq : Sequence repo s ops t) {r : Operation} (hr : r ∈ ops) :
    (r.op.program repo).Reaches Store.step r.before r.answers (.ofExcept r.outcome) r.after := by
  induction seq with
  | nil => cases hr
  | snoc before op run ih =>
    rcases List.mem_append.mp hr with hr | hr
    · exact ih hr
    · rw [List.mem_singleton.mp hr]
      exact run

/-- The journal is complete, operation by operation, exactly when no answer loses a change. -/
theorem journaled_iff_kept (seq : Sequence repo s ops t) (hrecording : repo.recording = true) :
    ∀ r ∈ ops, Journaled r.before r.after ↔ Kept r.before r.answers := by
  intro r hr
  have hreaches := (seq.of_mem hr).recorded []
  exact hreaches.runs.always (op_journal hrecording r.op r.before)

section Sample

def plainRepository : ObservationRepository where
  lower := id

def sampleNote : Observation :=
  ⟨{ id := "n", timestamp := 0, content := "note", project := some "a" }, rfl⟩

theorem sampleNote_merged :
    ∃ ops t, Sequence plainRepository ({}, {}) ops t ∧ ∃ r ∈ ops, r.op = .mergeProjects "b" ["a"] ∧
      ¬ Kept r.before r.answers := by
  obtain ⟨answers₁, s₁, hcreate, answers₂, s₂, hmerge, hrow⟩ : ∃ answers₁ s₁,
      (plainRepository.create sampleNote).exec (fun c s => some (Store.respond { id := "a" } c s))
        ({}, {}) = some (.ok (), answers₁, s₁) ∧ ∃ answers₂ s₂,
      (plainRepository.mergeProjects "b" ["a"]).exec (fun c s => some (Store.respond { id := "a" } c s)) s₁ =
        some (.ok ⟨"b", ["a"], 1, 0⟩, answers₂, s₂) ∧
      plainRepository.row sampleNote.val ∈ s₁.1.observations.rows ∧
      answers₂ = [⟨.inl (.mergeProjects "b" ["a"]), .ok (1, 0)⟩] := ⟨_, _, rfl, _, _, rfl, .head _, rfl⟩
  have hfirst := Sequence.snoc (.nil _) (.create sampleNote) (Store.reaches_of_exec hcreate)
  have hsecond := hfirst.snoc (.mergeProjects "b" ["a"]) (Store.reaches_of_exec hmerge)
  refine ⟨_, _, hsecond, _, List.mem_append_right _ (List.mem_singleton_self _), rfl, fun hkept => ?_⟩
  obtain ⟨hrow, rfl⟩ := hrow
  exact hkept _ (List.mem_singleton_self _) ⟨_, hrow, "a", by simp, rfl, by decide⟩

/-- A merge moves a row and records nothing. -/
theorem merge_not_journaled :
    ¬ ∀ (repo : ObservationRepository) s ops t, Sequence repo s ops t → repo.recording = true →
      ∀ r ∈ ops, Journaled r.before r.after := by
  intro h
  obtain ⟨ops, t, hseq, r, hr, -, hlost⟩ := sampleNote_merged
  have hreaches := (hseq.of_mem hr).recorded []
  have hiff := hreaches.runs.always (op_journal rfl r.op r.before)
  exact hlost (hiff.mp (h _ _ _ _ hseq rfl r hr))

theorem journaled_iff_kept_sample :
    ∃ ops t, Sequence plainRepository ({}, {}) ops t ∧ ops ≠ [] ∧
      ∀ r ∈ ops, Journaled r.before r.after ↔ Kept r.before r.answers := by
  obtain ⟨ops, t, hseq, r, hr, -⟩ := sampleNote_merged
  exact ⟨ops, t, hseq, List.ne_nil_of_mem hr, journaled_iff_kept hseq rfl⟩

end Sample

end Sequences

end ForkAgent.Memory

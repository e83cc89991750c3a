import ForkAgent.Memory.Served

/-!
# Row changes

What a statement does to single rows of the table, in the order in which it does it. A trigger of
the table sees these changes and nothing else.
-/

namespace ForkAgent.Memory

open Effects Storage Sync Sessions

inductive RowChange where
  | inserted (row : ObservationRow)
  | updated (old new : ObservationRow)
  | deleted (old : ObservationRow)

namespace RowChange

/-- The rows after a change; the primary key finds the row that is changed. -/
def apply : RowChange → List ObservationRow → List ObservationRow
  | inserted row, rows => rows ++ [row]
  | updated old new, rows => updateWhere (fun r => r.id == old.id) (fun _ => new) rows
  | deleted old, rows => rows.filter fun r => r.id != old.id

def applyAll (changes : List RowChange) (rows : List ObservationRow) : List ObservationRow :=
  changes.foldl (fun rows change => change.apply rows) rows

@[simp] theorem applyAll_nil (rows : List ObservationRow) : applyAll [] rows = rows := rfl

@[simp] theorem applyAll_singleton (change : RowChange) (rows : List ObservationRow) :
    applyAll [change] rows = change.apply rows := rfl

/-- The row that is changed is stored, and stays under its id; the id of a new one is free. -/
def Applies : RowChange → List ObservationRow → Prop
  | inserted row, rows => ∀ r ∈ rows, r.id ≠ row.id
  | updated old new, rows => old ∈ rows ∧ new.id = old.id
  | deleted old, rows => old ∈ rows

def AllApply : List RowChange → List ObservationRow → Prop
  | [], _ => True
  | change :: changes, rows => change.Applies rows ∧ AllApply changes (change.apply rows)

theorem applyAll_append (changes more : List RowChange) (rows : List ObservationRow) :
    applyAll (changes ++ more) rows = applyAll more (applyAll changes rows) := List.foldl_append

theorem allApply_append {changes more : List RowChange} {rows : List ObservationRow} :
    AllApply (changes ++ more) rows ↔ AllApply changes rows ∧ AllApply more (applyAll changes rows) := by
  induction changes generalizing rows with
  | nil => simp [AllApply]
  | cons change changes ih =>
    rw [List.cons_append, AllApply, AllApply, ih, and_assoc]
    rfl

end RowChange

namespace MemoryStore

def findId (id : String) (rows : List ObservationRow) : Option ObservationRow :=
  rows.find? fun row => row.id == id

def relocate (canonical : String) (row : ObservationRow) : ObservationRow :=
  { row with project := some canonical }

/-- One statement for each source. -/
def mergeChanges (canonical : String) : List String → List ObservationRow → List RowChange
  | [], _ => []
  | src :: sources, rows =>
    (rows.filter fun r => r.project == some src).map (fun r => .updated r (relocate canonical r)) ++
      mergeChanges canonical sources
        (updateWhere (fun r => r.project == some src) (relocate canonical) rows)

/-- The changes that a call has made to these rows. -/
def changes : Answered memorySignature Exn → List ObservationRow → List RowChange
  | ⟨.insert row, .ok _⟩, _ => [.inserted row]
  | ⟨.update row, .ok _⟩, rows => (findId row.id rows).toList.map fun old => .updated old row
  | ⟨.delete id, .ok _⟩, rows => (findId id rows).toList.map .deleted
  | ⟨.upsertTopicKey o key project, .ok result⟩, rows =>
    (findId (Subtype.val (p := fun f => ObservationFields.postInit f = .ok ()) result).id rows).toList.map
      fun old => .updated old (ObservationTable.revise o.val key project old)
  | ⟨.mergeProjects canonical sources, .ok _⟩, rows => mergeChanges canonical sources rows
  | ⟨.deleteOlderThan cutoff, .ok _⟩, rows =>
    (rows.filter fun row => row.timestamp < cutoff).map .deleted
  | _, _ => []

end MemoryStore

open MemoryStore RowChange

theorem mem_of_findId {id : String} {rows : List ObservationRow} {row : ObservationRow}
    (h : findId id rows = some row) : row ∈ rows ∧ row.id = id :=
  ⟨List.mem_of_find?_eq_some h, by simpa using List.find?_some h⟩

theorem findId_cons (id : String) (row : ObservationRow) (rows : List ObservationRow) :
    findId id (row :: rows) = if row.id = id then some row else findId id rows := by
  by_cases hid : row.id = id <;> simp [findId, hid]

theorem findId_eq_none {id : String} {rows : List ObservationRow} :
    findId id rows = none ↔ ∀ row ∈ rows, row.id ≠ id := by
  simp [findId]

theorem findId_of_mem {t : ObservationTable} {row : ObservationRow} (h : row ∈ t.rows) :
    findId row.id t.rows = some row := by
  cases hfind : findId row.id t.rows with
  | none => exact absurd rfl (findId_eq_none.mp hfind row h)
  | some other =>
    obtain ⟨hmem, hid⟩ := mem_of_findId hfind
    have hsame : rowId other = some row.id := congrArg some hid
    rw [t.isIndexed.ids.eq_of_mem hmem h hsame rfl]

section Batches

variable {t : ObservationTable} {p : ObservationRow → Bool} {f : ObservationRow → ObservationRow}

theorem applyAll_updated (hf : ∀ row, (f row).id = row.id) (olds rows : List ObservationRow)
    (hunique : UniqueOn rowId olds) :
    applyAll (olds.map fun old => .updated old (f old)) rows =
      rows.map fun row => ((findId row.id olds).map f).getD row := by
  induction olds generalizing rows with
  | nil => simp [findId]
  | cons old olds ih =>
    obtain ⟨hne, hrest⟩ := List.pairwise_cons.mp hunique
    have hother : findId old.id olds = none :=
      findId_eq_none.mpr fun row hrow hid => hne row hrow old.id rfl (congrArg some hid)
    rw [List.map_cons, applyAll, List.foldl_cons]
    refine (ih _ hrest).trans ?_
    rw [RowChange.apply, updateWhere, List.map_map]
    refine List.map_congr_left fun row _ => ?_
    by_cases hid : row.id = old.id
    · simp [hid, hf, hother, findId_cons]
    · simp [hid, findId_cons, Ne.symm hid]

theorem applyAll_deleted (olds rows : List ObservationRow) :
    applyAll (olds.map .deleted) rows = rows.filter fun row => (findId row.id olds).isNone := by
  induction olds generalizing rows with
  | nil => simp [findId]
  | cons old olds ih =>
    rw [List.map_cons, applyAll, List.foldl_cons]
    refine (ih _).trans ?_
    rw [RowChange.apply, List.filter_filter]
    refine List.filter_congr fun row _ => ?_
    by_cases hid : row.id = old.id
    · simp [hid, findId_cons]
    · simp [hid, findId_cons, Ne.symm hid]

theorem allApply_updated (hf : ∀ row, (f row).id = row.id) {olds rows : List ObservationRow}
    (hunique : UniqueOn rowId olds) (hmem : ∀ old ∈ olds, old ∈ rows) :
    AllApply (olds.map fun old => .updated old (f old)) rows := by
  induction olds generalizing rows with
  | nil => trivial
  | cons old olds ih =>
    obtain ⟨hne, hrest⟩ := List.pairwise_cons.mp hunique
    rw [List.forall_mem_cons] at hmem
    refine ⟨⟨hmem.1, hf old⟩, ih hrest fun other hother => ?_⟩
    have hid : other.id ≠ old.id := fun hid => hne other hother old.id rfl (congrArg some hid)
    exact mem_updateWhere.mpr (.inr ⟨hmem.2 other hother, by simpa using hid⟩)

theorem allApply_deleted {olds rows : List ObservationRow} (hunique : UniqueOn rowId olds)
    (hmem : ∀ old ∈ olds, old ∈ rows) : AllApply (olds.map .deleted) rows := by
  induction olds generalizing rows with
  | nil => trivial
  | cons old olds ih =>
    obtain ⟨hne, hrest⟩ := List.pairwise_cons.mp hunique
    rw [List.forall_mem_cons] at hmem
    refine ⟨hmem.1, ih hrest fun other hother => ?_⟩
    have hid : other.id ≠ old.id := fun hid => hne other hother old.id rfl (congrArg some hid)
    exact List.mem_filter.mpr ⟨hmem.2 other hother, by simpa using hid⟩

theorem findId_filter {row : ObservationRow} (h : row ∈ t.rows) :
    findId row.id (t.rows.filter p) = if p row then some row else none := by
  split_ifs with hp
  · have hkept : Indexed (t.rows.filter p) :=
      ⟨t.isIndexed.ids.filter p, t.isIndexed.idempotencyKeys.filter p, t.isIndexed.topics.filter p⟩
    exact findId_of_mem (t := ⟨_, hkept⟩) (List.mem_filter.mpr ⟨h, hp⟩)
  · refine findId_eq_none.mpr fun other hother hid => ?_
    obtain ⟨hmem, hother⟩ := List.mem_filter.mp hother
    have hsame : rowId other = some row.id := congrArg some hid
    rw [t.isIndexed.ids.eq_of_mem hmem h hsame rfl] at hother
    exact hp hother

theorem applyAll_updateWhere (hf : ∀ row, (f row).id = row.id) :
    applyAll ((t.rows.filter p).map fun old => .updated old (f old)) t.rows = updateWhere p f t.rows := by
  rw [applyAll_updated hf _ _ (t.isIndexed.ids.filter p), updateWhere]
  refine List.map_congr_left fun row hrow => ?_
  rw [findId_filter hrow]
  split_ifs <;> rfl

theorem applyAll_deleteWhere :
    applyAll ((t.rows.filter p).map .deleted) t.rows = t.rows.filter fun row => ¬ p row := by
  rw [applyAll_deleted]
  refine List.filter_congr fun row hrow => ?_
  rw [findId_filter hrow]
  cases p row <;> rfl

end Batches

section Merges

/-- A row after a merge. -/
def merged (canonical : String) (sources : List String) (row : ObservationRow) : ObservationRow :=
  sources.foldl (fun r src => if r.project == some src then relocate canonical r else r) row

theorem merged_cons (canonical src : String) (sources : List String) (row : ObservationRow) :
    merged canonical (src :: sources) row =
      merged canonical sources (if row.project == some src then relocate canonical row else row) := rfl

theorem merged_id (canonical : String) (sources : List String) (row : ObservationRow) :
    (merged canonical sources row).id = row.id := by
  induction sources generalizing row with
  | nil => rfl
  | cons src sources ih =>
    rw [merged_cons, ih]
    split_ifs <;> rfl

theorem merged_project (canonical : String) (sources : List String) (row : ObservationRow) :
    (merged canonical sources row).project =
      if ∃ src ∈ sources, row.project = some src then some canonical else row.project := by
  induction sources generalizing row with
  | nil => simp [merged]
  | cons src sources ih =>
    rw [merged_cons, ih]
    by_cases hsrc : row.project = some src
    · simp [hsrc, relocate]
    · simp [hsrc]

theorem merged_eq_self {canonical : String} {sources : List String} {row : ObservationRow}
    (h : ∀ src ∈ sources, row.project = some src → src = canonical) : merged canonical sources row = row := by
  induction sources with
  | nil => rfl
  | cons src sources ih =>
    rw [List.forall_mem_cons] at h
    have hsame : (if row.project == some src then relocate canonical row else row) = row := by
      split_ifs with hsrc
      · have hproject : row.project = some src := by simpa using hsrc
        rw [relocate, ← h.1 hproject, ← hproject]
      · rfl
    rw [merged_cons, hsame]
    exact ih h.2

theorem moveProjects_rows {canonical : String} {sources : List String} {t t' : ObservationTable}
    {count : Nat} (h : ObservationTable.moveProjects (some canonical) sources t = some (count, t')) :
    t'.rows = t.rows.map (merged canonical sources) := by
  induction sources generalizing t count with
  | nil =>
    cases h
    exact (List.map_id _).symm
  | cons src sources ih =>
    obtain ⟨t₁, hcommit, hrest⟩ := Option.bind_eq_some_iff.mp h
    obtain ⟨⟨n, t₂⟩, hmoved, heq⟩ := Option.bind_eq_some_iff.mp hrest
    cases heq
    rw [ih hmoved, ObservationTable.commit_eq_some.mp hcommit, updateWhere, List.map_map]
    rfl

end Merges

section Steps

variable {s s' : MemoryStore} {a : Answered memorySignature Exn}

theorem mergeChanges_rows {canonical : String} {sources : List String} {t t' : ObservationTable}
    {moved : Nat} (h : ObservationTable.moveProjects (some canonical) sources t = some (moved, t')) :
    t'.rows = applyAll (mergeChanges canonical sources t.rows) t.rows := by
  induction sources generalizing t moved with
  | nil =>
    cases h
    rfl
  | cons src sources ih =>
    obtain ⟨t₁, hcommit, hrest⟩ := Option.bind_eq_some_iff.mp h
    obtain ⟨⟨n, t₂⟩, hmoved, heq⟩ := Option.bind_eq_some_iff.mp hrest
    cases heq
    have hrows : t₁.rows = updateWhere (fun r => r.project == some src) (relocate canonical) t.rows :=
      ObservationTable.commit_eq_some.mp hcommit
    rw [mergeChanges, applyAll_append, applyAll_updateWhere (f := relocate canonical) fun _ => rfl, ← hrows]
    exact ih hmoved

theorem write_error {β : Type} {written : Option ObservationTable} {value : β} {e : Exn}
    (h : Write s written value (.error e) s') : s' = s := by
  cases written with
  | none => exact h.2
  | some t => cases h.1

theorem write_ok {β : Type} {written : Option ObservationTable} {value v : β}
    (h : Write s written value (.ok v) s') : ∃ t, written = some t ∧ s' = { s with observations := t } := by
  cases written with
  | none =>
    obtain ⟨⟨m, hm⟩, -⟩ := h
    cases hm
  | some t => exact ⟨t, rfl, h.2⟩

theorem upsert_error {o : Observation} {key : String} {project : Option String}
    {row : Option ObservationRow} {e : Exn} (h : Upsert s o key project row (.error e) s') : s' = s := by
  unfold Upsert at h
  cases row with
  | none => exact h.2
  | some row =>
    simp only at h
    split at h
    · exact h.2
    · split at h
      · cases h.1
      · exact h.2

theorem upsert_ok {o : Observation} {key : String} {project : Option String}
    {row : Option ObservationRow} {result : Observation} (h : Upsert s o key project row (.ok result) s') :
    ∃ old t, row = some old ∧ s.observations.update (ObservationTable.revise o.val key project old) = some t ∧
      rowToObservation (ObservationTable.revise o.val key project old) = .ok result ∧
      s' = { s with observations := t } := by
  unfold Upsert at h
  cases row with
  | none => cases h.1
  | some row =>
    simp only at h
    split at h
    · obtain ⟨⟨m, hm⟩, -⟩ := h
      cases hm
    · next t ht =>
      split at h
      · next result' hread =>
        cases h.1
        exact ⟨row, t, rfl, ht, hread, h.2⟩
      · cases h.1

theorem serve_update {row : ObservationRow} {r : Except Exn Bool} :
    MemoryStore.serve ⟨.update row, r⟩ s s' ↔
      if s.observations.contains row.id then Write s (s.observations.update row) true r s'
      else r = .ok false ∧ s' = s := Iff.rfl

theorem serve_mergeProjects {canonical : String} {sources : List String} {r : Except Exn (Nat × Nat)} :
    MemoryStore.serve ⟨.mergeProjects canonical sources, r⟩ s s' ↔
      (s.observations.moveProjects (some canonical) sources = none ∧
        (∃ m, r = .error (.integrityError m)) ∧ s' = s) ∨
      ∃ moved t, s.observations.moveProjects (some canonical) sources = some (moved, t) ∧
        r = .ok (moved, (moveSessions canonical sources s.sessions).1) ∧
        s' = { observations := t, sessions := (moveSessions canonical sources s.sessions).2 } := by
  cases hmoved : s.observations.moveProjects (some canonical) sources with
  | none =>
    simp only [MemoryStore.serve, hmoved, true_and, reduceCtorEq, false_and, exists_false, or_false]
    exact Iff.rfl
  | some moved =>
    simp only [MemoryStore.serve, hmoved, Option.some.injEq, reduceCtorEq, false_and, false_or]
    constructor
    · intro h
      exact ⟨_, _, rfl, h⟩
    · rintro ⟨_, _, rfl, h⟩
      exact h

theorem step_error {c : MemoryCall} {e : Exn} (h : MemoryStore.step ⟨c, .error e⟩ s s') : s' = s := by
  obtain hserve | ⟨hsame, -⟩ := h
  · cases c with
    | insert row => exact write_error hserve
    | update row =>
      have hserve := serve_update.mp hserve
      split_ifs at hserve
      · exact write_error hserve
      · exact hserve.2
    | delete id => cases hserve.1
    | upsertTopicKey o key project =>
      obtain ⟨row, -, hupsert⟩ := hserve
      exact upsert_error hupsert
    | mergeProjects canonical sources =>
      obtain ⟨-, -, hsame⟩ | ⟨moved, t, -, hr, -⟩ := serve_mergeProjects.mp hserve
      · exact hsame
      · cases hr
    | deleteOlderThan cutoff =>
      obtain ⟨-, n, hn⟩ := hserve
      cases hn
    | _ => exact hserve.1
  · exact hsame

theorem serve_of_ok {c : MemoryCall} {v : c.Value} (h : MemoryStore.step ⟨c, .ok v⟩ s s') :
    MemoryStore.serve ⟨c, .ok v⟩ s s' := by
  obtain hserve | ⟨-, m, hm⟩ := h
  · exact hserve
  · cases hm

theorem revise_id (o : ObservationFields) (key : String) (project : Option String) (row : ObservationRow) :
    (ObservationTable.revise o key project row).id = row.id := rfl

theorem upsert_row {o result : Observation} {key : String} {project : Option String}
    (h : MemoryStore.step ⟨.upsertTopicKey o key project, .ok result⟩ s s') :
    ∃ old ∈ s.observations.rows, s.observations.Picks key project (some old) ∧ result.val.id = old.id ∧
      rowToObservation (ObservationTable.revise o.val key project old) = .ok result ∧
      s'.observations.rows =
        updateWhere (fun r => r.id == old.id) (fun _ => ObservationTable.revise o.val key project old)
          s.observations.rows := by
  obtain ⟨row, hpicks, hupsert⟩ := serve_of_ok h
  obtain ⟨old, t, rfl, hupdate, hread, rfl⟩ := upsert_ok hupsert
  have hmem : old ∈ s.observations.rows := by
    unfold ObservationTable.Picks at hpicks
    split at hpicks
    · exact List.mem_of_mem_filter (List.mem_of_mem_filter hpicks.1)
    · exact List.mem_of_mem_filter hpicks.1
  have hid : result.val.id = old.id := (Except.ok.inj (observation_eq_ok.mp hread).id).symm
  exact ⟨old, hmem, hpicks, hid, hread, ObservationTable.commit_eq_some.mp hupdate⟩

theorem insert_ok {row : ObservationRow} {v : Unit} (h : MemoryStore.step ⟨.insert row, .ok v⟩ s s') :
    s.observations.Admits row ∧ s'.observations.rows = s.observations.rows ++ [row] := by
  obtain ⟨t, hinsert, rfl⟩ := write_ok (serve_of_ok h)
  refine ⟨?_, ObservationTable.insert_eq_some.mp hinsert⟩
  by_contra hrefused
  rw [ObservationTable.insert_eq_none.mpr hrefused] at hinsert
  cases hinsert

theorem contains_eq_true {t : ObservationTable} {id : String} :
    t.contains id = true ↔ ∃ old ∈ t.rows, old.id = id := by
  simp [ObservationTable.contains]

theorem update_ok {row : ObservationRow} {found : Bool}
    (h : MemoryStore.step ⟨.update row, .ok found⟩ s s') :
    (found = true ∧ ∃ old ∈ s.observations.rows, old.id = row.id ∧ s'.observations.rows =
      updateWhere (fun r => r.id == old.id) (fun _ => row) s.observations.rows) ∨
    found = false ∧ s' = s ∧ ∀ old ∈ s.observations.rows, old.id ≠ row.id := by
  have hserve := serve_update.mp (serve_of_ok h)
  split_ifs at hserve with hfound
  · unfold Write at hserve
    split at hserve
    · next t hupdate =>
      obtain ⟨old, hold, hid⟩ := contains_eq_true.mp hfound
      refine .inl ⟨Except.ok.inj hserve.1, old, hold, hid, ?_⟩
      rw [hserve.2, hid]
      exact ObservationTable.commit_eq_some.mp hupdate
    · obtain ⟨⟨m, hm⟩, -⟩ := hserve
      cases hm
  · refine .inr ⟨Except.ok.inj hserve.1, hserve.2, fun old hold hid => ?_⟩
    exact hfound (contains_eq_true.mpr ⟨old, hold, hid⟩)

theorem delete_ok {id : String} {found : Bool} (h : MemoryStore.step ⟨.delete id, .ok found⟩ s s') :
    (found = true ∧ ∃ old ∈ s.observations.rows, old.id = id ∧
      s'.observations.rows = s.observations.rows.filter fun r => r.id != old.id) ∨
    found = false ∧ s' = s ∧ ∀ old ∈ s.observations.rows, old.id ≠ id := by
  obtain ⟨hfound, rfl⟩ := serve_of_ok h
  have hfound := Except.ok.inj hfound
  cases hcontains : s.observations.contains id with
  | true =>
    obtain ⟨old, hold, rfl⟩ := contains_eq_true.mp hcontains
    exact .inl ⟨hfound.trans hcontains, old, hold, rfl, rfl⟩
  | false =>
    have hnone : ∀ old ∈ s.observations.rows, old.id ≠ id := by
      intro old hold hid
      rw [contains_eq_true.mpr ⟨old, hold, hid⟩] at hcontains
      cases hcontains
    have hrows : (s.observations.delete id).rows = s.observations.rows :=
      List.filter_eq_self.mpr fun row hrow => by simpa using hnone row hrow
    exact .inr ⟨hfound.trans hcontains, MemoryStore.ext (ObservationTable.ext hrows) rfl, hnone⟩

theorem merge_ok {canonical : String} {sources : List String} {v : Nat × Nat}
    (h : MemoryStore.step ⟨.mergeProjects canonical sources, .ok v⟩ s s') :
    ∃ moved t, s.observations.moveProjects (some canonical) sources = some (moved, t) ∧
      s'.observations = t := by
  obtain ⟨-, ⟨m, hm⟩, -⟩ | ⟨moved, t, hmoved, -, rfl⟩ := serve_mergeProjects.mp (serve_of_ok h)
  · cases hm
  · exact ⟨moved, t, hmoved, rfl⟩

theorem cleanup_ok {cutoff : Int} {v : Nat × Nat}
    (h : MemoryStore.step ⟨.deleteOlderThan cutoff, .ok v⟩ s s') :
    s'.observations.rows = s.observations.rows.filter fun row => ¬ row.timestamp < cutoff := by
  rw [(serve_of_ok h).1]
  rfl

/-- The rows after a call are what its changes make of the rows before it. -/
theorem step_rows (h : MemoryStore.step a s s') :
    s'.observations.rows = applyAll (changes a s.observations.rows) s.observations.rows := by
  obtain ⟨c, e | v⟩ := a
  · rw [step_error h]
    cases c <;> rfl
  · cases c with
    | insert row => exact (insert_ok h).2
    | update row =>
      obtain ⟨-, old, hold, hid, hrows⟩ | ⟨-, rfl, hnone⟩ := update_ok h
      · have hfind : findId row.id s.observations.rows = some old := hid ▸ findId_of_mem hold
        have hchanges : changes ⟨.update row, .ok v⟩ s.observations.rows = [.updated old row] := by
          simp [changes, hfind]
        rw [hchanges]
        exact hrows
      · simp [changes, findId_eq_none.mpr hnone]
    | delete id =>
      obtain ⟨-, old, hold, rfl, hrows⟩ | ⟨-, rfl, hnone⟩ := delete_ok h
      · have hchanges : changes ⟨.delete old.id, .ok v⟩ s.observations.rows = [.deleted old] := by
          simp [changes, findId_of_mem hold]
        rw [hchanges]
        exact hrows
      · simp [changes, findId_eq_none.mpr hnone]
    | upsertTopicKey o key project =>
      obtain ⟨old, hold, -, hid, -, hrows⟩ := upsert_row h
      have hfind : findId (Subtype.val v).id s.observations.rows = some old := hid ▸ findId_of_mem hold
      have hchanges : changes ⟨.upsertTopicKey o key project, .ok v⟩ s.observations.rows =
          [.updated old (ObservationTable.revise o.val key project old)] := by
        simp [changes, hfind]
      rw [hchanges]
      exact hrows
    | mergeProjects canonical sources =>
      obtain ⟨moved, t, hmoved, hafter⟩ := merge_ok h
      rw [hafter]
      exact mergeChanges_rows hmoved
    | deleteOlderThan cutoff =>
      have hdeleted := @applyAll_deleteWhere s.observations fun row => row.timestamp < cutoff
      rw [cleanup_ok h]
      refine Eq.trans ?_ hdeleted.symm
      simp
    | _ =>
      rw [(serve_of_ok h).1]
      rfl

theorem allApply_mergeChanges {canonical : String} {sources : List String} {t t' : ObservationTable}
    {moved : Nat} (h : ObservationTable.moveProjects (some canonical) sources t = some (moved, t')) :
    AllApply (mergeChanges canonical sources t.rows) t.rows := by
  induction sources generalizing t moved with
  | nil => trivial
  | cons src sources ih =>
    obtain ⟨t₁, hcommit, hrest⟩ := Option.bind_eq_some_iff.mp h
    obtain ⟨⟨n, t₂⟩, hmoved, heq⟩ := Option.bind_eq_some_iff.mp hrest
    cases heq
    have hrows : t₁.rows = updateWhere (fun r => r.project == some src) (relocate canonical) t.rows :=
      ObservationTable.commit_eq_some.mp hcommit
    refine allApply_append.mpr ⟨allApply_updated (f := relocate canonical) (fun _ => rfl) (t.isIndexed.ids.filter _)
      fun old hold => List.mem_of_mem_filter hold, ?_⟩
    rw [applyAll_updateWhere (f := relocate canonical) fun _ => rfl, ← hrows]
    exact ih hmoved

/-- Every change of a call changes a row that is there. -/
theorem step_allApply (h : MemoryStore.step a s s') :
    AllApply (changes a s.observations.rows) s.observations.rows := by
  obtain ⟨c, e | v⟩ := a
  · cases c <;> trivial
  · cases c with
    | insert row => exact ⟨(insert_ok h).1.id, trivial⟩
    | update row =>
      cases hfind : findId row.id s.observations.rows with
      | none => simp [changes, hfind, AllApply]
      | some old =>
        obtain ⟨hold, hid⟩ := mem_of_findId hfind
        simp [changes, hfind, AllApply, Applies, hold, hid]
    | delete id =>
      cases hfind : findId id s.observations.rows with
      | none => simp [changes, hfind, AllApply]
      | some old => simp [changes, hfind, AllApply, Applies, (mem_of_findId hfind).1]
    | upsertTopicKey o key project =>
      cases hfind : findId (Subtype.val v).id s.observations.rows with
      | none => simp [changes, hfind, AllApply]
      | some old =>
        simp [changes, hfind, AllApply, Applies, (mem_of_findId hfind).1, ObservationTable.revise]
    | mergeProjects canonical sources =>
      obtain ⟨moved, t, hmoved, -⟩ := merge_ok h
      exact allApply_mergeChanges hmoved
    | deleteOlderThan cutoff =>
      exact allApply_deleted (s.observations.isIndexed.ids.filter _) fun old hold =>
        List.mem_of_mem_filter hold
    | _ => trivial

/-- The calls that only read. -/
def isRead : MemoryCall → Bool
  | .insert _ | .update _ | .delete _ | .upsertTopicKey .. | .mergeProjects .. | .deleteOlderThan _ => false
  | _ => true

theorem step_read {c : MemoryCall} (hc : isRead c = true) {r : Except Exn c.Value}
    (h : MemoryStore.step ⟨c, r⟩ s s') : s' = s := by
  obtain hserve | ⟨hsame, -⟩ := h
  · cases c <;> first | exact hserve.1 | cases hc
  · exact hsame

end Steps

end ForkAgent.Memory

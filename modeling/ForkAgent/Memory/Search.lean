import ForkAgent.Memory.Journal
import ForkAgent.Python.JsonText
import ForkAgent.Storage.FullText
import Mathlib.Data.Finset.Insert

/-!
# The search index

The full-text index keeps postings of the rows, and the triggers of the table keep it up to date. A
cleanup removes the postings of the rows that it is about to delete, and then deletes the rows. A
statement whose trigger is refused by the index is rolled back.
-/

namespace ForkAgent.Memory

open Effects Storage Sync MemoryStore

/-- The indexed columns. -/
structure SearchColumns where
  content : String
  metadata : Option JsonObject
  title : Option String
  topicKey : Option String
  deriving DecidableEq

def searchColumns (row : ObservationRow) : SearchColumns :=
  ⟨row.content, row.metadata, row.title, row.topicKey⟩

/-- What the index keeps totals of: the rows, and the tokens of each column. -/
inductive SearchTotal where
  | rows
  | content
  | metadata
  | title
  | topicKey
  deriving DecidableEq

instance : Fintype SearchTotal where
  elems := {.rows, .content, .metadata, .title, .topicKey}
  complete total := by cases total <;> decide

/-- What a row counts in the totals; `tokens` is the number of tokens of a text. -/
def searchWeight (tokens : String → Nat) (columns : SearchColumns) : SearchTotal → Nat
  | .rows => 1
  | .content => tokens columns.content
  | .metadata => (columns.metadata.map fun fields => tokens (String.ofList (Json.dumps (.obj fields)))).getD 0
  | .title => (columns.title.map tokens).getD 0
  | .topicKey => (columns.topicKey.map tokens).getD 0

/-- What rows count together. -/
def rowsWeight (tokens : String → Nat) (rows : List ObservationRow) (total : SearchTotal) : Nat :=
  (rows.map fun row => searchWeight tokens (searchColumns row) total).sum

/-- The rows under their rowids, and the index. -/
structure SearchTable where
  entries : List (Nat × ObservationRow) := []
  index : ExternalIndex Nat SearchColumns SearchTotal := {}

namespace SearchTable

/-- A rowid is one more than the largest. -/
def nextRowid (entries : List (Nat × ObservationRow)) : Nat := (entries.map (·.1)).foldl max 0 + 1

def posting (entry : Nat × ObservationRow) : Nat × SearchColumns := (entry.1, searchColumns entry.2)

/-- The posting of a row under the rowid that the row with this id has. -/
def postingOf (entries : List (Nat × ObservationRow)) (id : String) (row : ObservationRow) :
    Nat × SearchColumns :=
  (((entries.find? fun entry => entry.2.id == id).map (·.1)).getD 0, searchColumns row)

section Statements

variable (tokens : String → Nat)

/-- A change of one row, and what the trigger of the change does: `observations_ai`,
`observations_au` or `observations_ad`. -/
def apply (t : SearchTable) : RowChange → Option SearchTable
  | .inserted row =>
    some {
      entries := t.entries ++ [(nextRowid t.entries, row)]
      index := t.index.add (searchWeight tokens) (nextRowid t.entries, searchColumns row) }
  | .updated old new => do
    let index ← t.index.remove (searchWeight tokens) (postingOf t.entries old.id old)
    return {
      entries := t.entries.map fun entry => if entry.2.id == old.id then (entry.1, new) else entry
      index := index.add (searchWeight tokens) (postingOf t.entries old.id new) }
  | .deleted old => do
    let index ← t.index.remove (searchWeight tokens) (postingOf t.entries old.id old)
    return { entries := t.entries.filter fun entry => entry.2.id != old.id, index }

def applyAll (t : SearchTable) (changes : List RowChange) : Option SearchTable :=
  changes.foldlM (apply tokens) t

/-- `DELETE FROM observations_fts WHERE rowid IN (SELECT rowid ... WHERE timestamp < ?)`. -/
def purge (cutoff : Int) (t : SearchTable) : Option SearchTable := do
  let index ← t.index.removeAll (searchWeight tokens)
    ((t.entries.filter fun entry => entry.2.timestamp < cutoff).map posting)
  return { t with index }

/-- What a cleanup removes from the index before it deletes rows. -/
def purgedBy (t : SearchTable) : Answered memorySignature Exn → Option SearchTable
  | ⟨.deleteOlderThan cutoff, .ok _⟩ => t.purge tokens cutoff
  | _ => some t

/-- What a call makes of the table and of its index, unless the index refuses it. -/
def after (a : Answered memorySignature Exn) (rows : List ObservationRow) (t : SearchTable) :
    Option SearchTable := do
  let purged ← t.purgedBy tokens a
  purged.applyAll tokens (changes a rows)

end Statements

/-- The index holds each row's posting once, with the values that the row has now. -/
structure Mirrored (tokens : String → Nat) (t : SearchTable) (rows : List ObservationRow) : Prop where
  rows : t.entries.map (·.2) = rows
  rowids : (t.entries.map (·.1)).Nodup
  index : t.index.Mirrors (searchWeight tokens) (t.entries.map posting)

section Triggers

variable {tokens : String → Nat} {t t' : SearchTable} {rows : List ObservationRow}

theorem entries_split {entries : List (Nat × ObservationRow)} {row : ObservationRow}
    (hunique : UniqueOn rowId (entries.map (·.2))) (h : row ∈ entries.map (·.2)) :
    ∃ before rowid after, entries = before ++ (rowid, row) :: after ∧
      (∀ entry ∈ before, entry.2.id ≠ row.id) ∧ ∀ entry ∈ after, entry.2.id ≠ row.id := by
  obtain ⟨⟨rowid, row'⟩, hentry, rfl⟩ := List.mem_map.mp h
  obtain ⟨before, after, rfl⟩ := List.append_of_mem hentry
  rw [List.map_append, List.map_cons] at hunique
  obtain ⟨-, hcons, hacross⟩ := List.pairwise_append.mp hunique
  refine ⟨before, rowid, after, rfl, fun entry he hid => ?_, fun entry he hid => ?_⟩
  · exact hacross entry.2 (List.mem_map_of_mem he) row' List.mem_cons_self row'.id (congrArg some hid) rfl
  · exact (List.pairwise_cons.mp hcons).1 entry.2 (List.mem_map_of_mem he) row'.id rfl (congrArg some hid)

theorem postingOf_split {before after : List (Nat × ObservationRow)} {rowid : Nat}
    {row new : ObservationRow} (hbefore : ∀ entry ∈ before, entry.2.id ≠ row.id) :
    postingOf (before ++ (rowid, row) :: after) row.id new = (rowid, searchColumns new) := by
  have hnone : (before.find? fun entry => entry.2.id == row.id) = none :=
    List.find?_eq_none.mpr fun entry he => by simpa using hbefore entry he
  simp [postingOf, hnone]

theorem map_update_split {before after : List (Nat × ObservationRow)} {rowid : Nat}
    {row new : ObservationRow} (hbefore : ∀ entry ∈ before, entry.2.id ≠ row.id)
    (hafter : ∀ entry ∈ after, entry.2.id ≠ row.id) :
    ((before ++ (rowid, row) :: after).map fun entry =>
        if entry.2.id == row.id then (entry.1, new) else entry) = before ++ (rowid, new) :: after := by
  have hkeep : ∀ entries : List (Nat × ObservationRow), (∀ entry ∈ entries, entry.2.id ≠ row.id) →
      (entries.map fun entry => if entry.2.id == row.id then (entry.1, new) else entry) = entries := by
    intro entries h
    refine (List.map_congr_left fun entry he => ?_).trans (List.map_id _)
    simp [h entry he]
  simp only [List.map_append, List.map_cons, hkeep before hbefore, hkeep after hafter, beq_self_eq_true, if_true]

theorem filter_split {before after : List (Nat × ObservationRow)} {rowid : Nat} {row : ObservationRow}
    (hbefore : ∀ entry ∈ before, entry.2.id ≠ row.id) (hafter : ∀ entry ∈ after, entry.2.id ≠ row.id) :
    ((before ++ (rowid, row) :: after).filter fun entry => entry.2.id != row.id) = before ++ after := by
  have hkeep : ∀ entries : List (Nat × ObservationRow), (∀ entry ∈ entries, entry.2.id ≠ row.id) →
      (entries.filter fun entry => entry.2.id != row.id) = entries := by
    intro entries h
    exact List.filter_eq_self.mpr fun entry he => by simpa using h entry he
  simp [hkeep before hbefore, hkeep after hafter]

theorem lt_nextRowid {entries : List (Nat × ObservationRow)} {rowid : Nat}
    (h : rowid ∈ entries.map (·.1)) : rowid < nextRowid entries := by
  have hmax : ∀ (ns : List Nat) (a : Nat), a ≤ ns.foldl max a ∧ ∀ n ∈ ns, n ≤ ns.foldl max a := by
    intro ns
    induction ns with
    | nil => simp
    | cons n ns ih =>
      intro a
      obtain ⟨ha, hns⟩ := ih (max a n)
      rw [List.foldl_cons, List.forall_mem_cons]
      exact ⟨le_trans (le_max_left a n) ha, le_trans (le_max_right a n) ha, hns⟩
  exact Nat.lt_succ_of_le ((hmax _ 0).2 rowid h)

theorem apply_rows {change : RowChange} (h : t.apply tokens change = some t') :
    t'.entries.map (·.2) = change.apply (t.entries.map (·.2)) := by
  cases change with
  | inserted row =>
    cases h
    simp [RowChange.apply]
  | updated old new =>
    obtain ⟨index, -, heq⟩ := Option.bind_eq_some_iff.mp h
    cases heq
    rw [RowChange.apply, updateWhere, List.map_map, List.map_map]
    refine List.map_congr_left fun entry _ => ?_
    by_cases hid : entry.2.id = old.id <;> simp [hid]
  | deleted old =>
    obtain ⟨index, -, heq⟩ := Option.bind_eq_some_iff.mp h
    cases heq
    simp only [RowChange.apply, List.filter_map]
    rfl

theorem uniqueOn_apply {change : RowChange} (hunique : UniqueOn rowId rows)
    (h : change.Applies rows) : UniqueOn rowId (change.apply rows) := by
  cases change with
  | inserted row =>
    refine uniqueOn_concat.mpr ⟨hunique, fun r hr k hk hr' => h r hr ?_⟩
    exact Option.some.inj (hr'.trans hk.symm)
  | updated old new =>
    refine hunique.updateWhere fun x hx hid => .inl ?_
    have hid : x.id = old.id := by simpa using hid
    exact congrArg some (h.2.trans hid.symm)
  | deleted old => exact hunique.filter _

/-- The triggers keep the index up to date, and are not refused. -/
theorem Mirrored.apply (h : t.Mirrored tokens rows) (hunique : UniqueOn rowId rows) {change : RowChange}
    (happlies : change.Applies rows) :
    ∃ t', t.apply tokens change = some t' ∧ t'.Mirrored tokens (change.apply rows) := by
  have hrows : ∀ t', t.apply tokens change = some t' → t'.entries.map (·.2) = change.apply rows := by
    intro t' ht'
    rw [apply_rows ht', h.rows]
  have hkeys := h.rowids
  have hindex := h.index
  cases change with
  | inserted row =>
    refine ⟨_, rfl, hrows _ rfl, ?_, ?_⟩
    · rw [List.map_append, List.nodup_append]
      refine ⟨hkeys, List.nodup_singleton _, fun rowid hrowid new hnew heq => ?_⟩
      rw [List.mem_singleton.mp hnew] at heq
      exact absurd (lt_nextRowid hrowid) (by rw [heq]; exact lt_irrefl _)
    · rw [List.map_append]
      exact hindex.add _
  | updated old new =>
    obtain ⟨before, rowid, after, hsplit, hbefore, hafter⟩ :=
      entries_split (h.rows.symm ▸ hunique) (h.rows.symm ▸ happlies.1)
    have hposting : ∀ row, postingOf t.entries old.id row = (rowid, searchColumns row) := by
      intro row
      rw [hsplit]
      exact postingOf_split hbefore
    have hfirst : t.index.Mirrors (searchWeight tokens)
        ((rowid, searchColumns old) :: (before ++ after).map posting) := by
      rw [hsplit] at hindex
      exact hindex.perm (List.perm_middle.map posting)
    obtain ⟨index, hremove, hremoved⟩ := hfirst.remove
    have happly : t.apply tokens (.updated old new) = some {
        entries := before ++ (rowid, new) :: after
        index := index.add (searchWeight tokens) (rowid, searchColumns new) } := by
      rw [SearchTable.apply, hposting, hposting, hremove, hsplit]
      exact congrArg some (congrArg (SearchTable.mk · _) (map_update_split hbefore hafter))
    refine ⟨_, happly, hrows _ happly, ?_, ?_⟩
    · rw [hsplit] at hkeys
      simpa using hkeys
    · have hlast : ((before ++ (rowid, new) :: after).map posting).Perm
          ((rowid, searchColumns new) :: (before ++ after).map posting) := List.perm_middle.map posting
      exact (hremoved.add (rowid, searchColumns new)).perm ((List.perm_append_singleton _ _).trans hlast.symm)
  | deleted old =>
    obtain ⟨before, rowid, after, hsplit, hbefore, hafter⟩ :=
      entries_split (h.rows.symm ▸ hunique) (h.rows.symm ▸ happlies)
    have hposting : postingOf t.entries old.id old = (rowid, searchColumns old) := by
      rw [hsplit]
      exact postingOf_split hbefore
    have hfirst : t.index.Mirrors (searchWeight tokens)
        ((rowid, searchColumns old) :: (before ++ after).map posting) := by
      rw [hsplit] at hindex
      exact hindex.perm (List.perm_middle.map posting)
    obtain ⟨index, hremove, hremoved⟩ := hfirst.remove
    have happly : t.apply tokens (.deleted old) = some { entries := before ++ after, index } := by
      rw [SearchTable.apply, hposting, hremove, hsplit]
      exact congrArg some (congrArg (SearchTable.mk · _) (filter_split hbefore hafter))
    refine ⟨_, happly, hrows _ happly, ?_, hremoved⟩
    rw [hsplit] at hkeys
    exact hkeys.sublist ((List.Sublist.refl before).append (List.sublist_cons_self _ after) |>.map _)

theorem Mirrored.applyAll (h : t.Mirrored tokens rows) (hunique : UniqueOn rowId rows) {changes : List RowChange}
    (happly : RowChange.AllApply changes rows) :
    ∃ t', t.applyAll tokens changes = some t' ∧ t'.Mirrored tokens (RowChange.applyAll changes rows) := by
  induction changes generalizing t rows with
  | nil => exact ⟨t, rfl, h⟩
  | cons change changes ih =>
    obtain ⟨t₁, hfirst, h₁⟩ := h.apply hunique happly.1
    obtain ⟨t', hrest, h'⟩ := ih h₁ (uniqueOn_apply hunique happly.1) happly.2
    refine ⟨t', ?_, h'⟩
    rw [SearchTable.applyAll, List.foldlM_cons, hfirst]
    exact hrest

theorem corrupt_apply (h : t.index.corrupt = true) {change : RowChange} (happly : t.apply tokens change = some t') :
    t'.index.corrupt = true := by
  cases change with
  | inserted row =>
    cases happly
    exact h
  | updated old new =>
    obtain ⟨index, hremove, heq⟩ := Option.bind_eq_some_iff.mp happly
    cases heq
    exact ExternalIndex.corrupt_add (ExternalIndex.corrupt_remove h hremove) _
  | deleted old =>
    obtain ⟨index, hremove, heq⟩ := Option.bind_eq_some_iff.mp happly
    cases heq
    exact ExternalIndex.corrupt_remove h hremove

theorem corrupt_applyAll (h : t.index.corrupt = true) {changes : List RowChange}
    (happly : t.applyAll tokens changes = some t') : t'.index.corrupt = true := by
  induction changes generalizing t with
  | nil =>
    cases happly
    exact h
  | cons change changes ih =>
    obtain ⟨t₁, hfirst, hrest⟩ := Option.bind_eq_some_iff.mp happly
    exact ih (corrupt_apply h hfirst) hrest

end Triggers

section Cleanup

variable {tokens : String → Nat} {t t' : SearchTable} {rows : List ObservationRow} {cutoff : Int}

def oldRows (cutoff : Int) (rows : List ObservationRow) : List ObservationRow :=
  rows.filter fun row => row.timestamp < cutoff

def keptRows (cutoff : Int) (rows : List ObservationRow) : List ObservationRow :=
  rows.filter fun row => ¬ row.timestamp < cutoff

theorem load_posting (entries : List (Nat × ObservationRow)) (total : SearchTotal) :
    ExternalIndex.load (searchWeight tokens) (entries.map posting) total =
      rowsWeight tokens (entries.map (·.2)) total := by
  simp [ExternalIndex.load, rowsWeight, posting, Function.comp_def]

theorem corrupt_purge (h : t.index.corrupt = true) (hpurge : t.purge tokens cutoff = some t') :
    t'.index.corrupt = true := by
  obtain ⟨index, hremove, heq⟩ := Option.bind_eq_some_iff.mp hpurge
  cases heq
  exact ExternalIndex.corrupt_removeAll h hremove

theorem purge_of_fresh (h : t.Mirrored tokens rows) (hfresh : ∀ row ∈ rows, ¬ row.timestamp < cutoff) :
    t.purge tokens cutoff = some t := by
  have hnone : t.entries.filter (fun entry => entry.2.timestamp < cutoff) = [] := by
    refine List.filter_eq_nil_iff.mpr fun entry he => ?_
    have hrow : entry.2 ∈ rows := h.rows ▸ List.mem_map_of_mem he
    simpa using hfresh entry.2 hrow
  rw [purge, hnone]
  rfl

theorem Mirrored.purge (h : t.Mirrored tokens rows) (cutoff : Int) :
    ∃ index, t.purge tokens cutoff = some { t with index } ∧ index.Mirrors (searchWeight tokens)
      ((t.entries.filter fun entry => !decide (entry.2.timestamp < cutoff)).map posting) := by
  have hsplit : t.index.Mirrors (searchWeight tokens)
      ((t.entries.filter fun entry => entry.2.timestamp < cutoff).map posting ++
        (t.entries.filter fun entry => !decide (entry.2.timestamp < cutoff)).map posting) := by
    rw [← List.map_append]
    exact h.index.perm ((List.filter_append_perm _ t.entries).symm.map posting)
  obtain ⟨index, hremove, hleft⟩ := hsplit.removeAll
  refine ⟨index, ?_, hleft⟩
  rw [SearchTable.purge, hremove]
  rfl

theorem applyAll_deleted_isSome (olds : List ObservationRow) :
    (t.applyAll tokens (olds.map .deleted)).isSome = true ↔
      ∀ total, rowsWeight tokens olds total ≤ t.index.totals total := by
  induction olds generalizing t with
  | nil => simp [SearchTable.applyAll, rowsWeight]
  | cons old olds ih =>
    have hweight : ∀ total, rowsWeight tokens (old :: olds) total =
        searchWeight tokens (searchColumns old) total + rowsWeight tokens olds total := fun _ => List.sum_cons
    rw [SearchTable.applyAll, List.map_cons, List.foldlM_cons]
    cases hremove : t.index.remove (searchWeight tokens) (postingOf t.entries old.id old) with
    | none =>
      refine iff_of_false (by simp [SearchTable.apply, hremove]) fun hfits => ?_
      have hfirst : ∀ total, searchWeight tokens (postingOf t.entries old.id old).2 total ≤ t.index.totals total :=
        fun total => (Nat.le_add_right _ _).trans ((hweight total).symm.trans_le (hfits total))
      have hsome : (t.index.remove (searchWeight tokens) (postingOf t.entries old.id old)).isSome = true := by
        rw [ExternalIndex.remove, if_pos hfirst]
        rfl
      rw [hremove] at hsome
      cases hsome
    | some index =>
      obtain ⟨hfirst, rfl⟩ := ExternalIndex.remove_eq_some.mp hremove
      rw [SearchTable.apply, hremove]
      refine ih.trans (forall_congr' fun total => ?_)
      rw [hweight total]
      exact Nat.le_sub_iff_add_le' (hfirst total)

/-- A cleanup that finds old rows is accepted by the index exactly if these do not outweigh the others. -/
theorem after_cleanup_isSome (h : t.Mirrored tokens rows) (v : Nat × Nat) :
    (t.after tokens ⟨.deleteOlderThan cutoff, .ok v⟩ rows).isSome = true ↔
      ∀ total, rowsWeight tokens (oldRows cutoff rows) total ≤ rowsWeight tokens (keptRows cutoff rows) total := by
  obtain ⟨index, hpurge, hindex⟩ := h.purge cutoff
  have hafter : t.after tokens ⟨.deleteOlderThan cutoff, .ok v⟩ rows =
      ({ t with index } : SearchTable).applyAll tokens ((oldRows cutoff rows).map .deleted) := by
    show (t.purge tokens cutoff).bind _ = _
    rw [hpurge]
    rfl
  rw [hafter, applyAll_deleted_isSome]
  refine forall_congr' fun total => ?_
  have hkept : index.totals total = rowsWeight tokens (keptRows cutoff rows) total := by
    rw [hindex.totals, load_posting, keptRows, ← h.rows, List.filter_map]
    congr 2
    refine List.filter_congr fun entry _ => ?_
    simp only [Function.comp_apply, decide_not]
  rw [hkept]

/-- The postings of the old rows are gone when the trigger removes them again. -/
theorem cleanup_corrupts (h : t.Mirrored tokens rows) (hunique : UniqueOn rowId rows)
    (hold : ∃ row ∈ rows, row.timestamp < cutoff) {v : Nat × Nat}
    (hafter : t.after tokens ⟨.deleteOlderThan cutoff, .ok v⟩ rows = some t') : t'.index.corrupt = true := by
  obtain ⟨index, hpurge, hindex⟩ := h.purge cutoff
  have happly : ({ t with index } : SearchTable).applyAll tokens ((oldRows cutoff rows).map .deleted) = some t' := by
    have hbind : (t.purge tokens cutoff).bind (fun purged =>
        purged.applyAll tokens ((oldRows cutoff rows).map .deleted)) = some t' := hafter
    rw [hpurge] at hbind
    exact hbind
  cases holds : oldRows cutoff rows with
  | nil =>
    obtain ⟨row, hrow, hlt⟩ := hold
    exact absurd (List.filter_eq_nil_iff.mp holds row hrow) (by simpa using hlt)
  | cons old olds =>
    obtain ⟨hmem, hlt⟩ := List.mem_filter.mp (holds ▸ List.mem_cons_self : old ∈ rows.filter _)
    obtain ⟨before, rowid, after, hsplit, hbefore, -⟩ :=
      entries_split (h.rows.symm ▸ hunique) (h.rows.symm ▸ hmem)
    rw [holds, SearchTable.applyAll, List.map_cons, List.foldlM_cons] at happly
    obtain ⟨t₁, hfirst, hrest⟩ := Option.bind_eq_some_iff.mp happly
    refine corrupt_applyAll ?_ hrest
    obtain ⟨index', hremove, heq⟩ := Option.bind_eq_some_iff.mp hfirst
    cases heq
    have hposting : postingOf t.entries old.id old = (rowid, searchColumns old) := by
      rw [hsplit]
      exact postingOf_split hbefore
    refine hindex.remove_absent (fun hposted => ?_) (hposting ▸ hremove)
    obtain ⟨entry, hentry, heq⟩ := List.mem_map.mp hposted
    obtain ⟨hentry, hkept⟩ := List.mem_filter.mp hentry
    have hsame : entry = (rowid, old) := by
      have hkey : entry.1 = rowid := congrArg Prod.fst heq
      exact List.inj_on_of_nodup_map h.rowids hentry (by simp [hsplit]) hkey
    rw [hsame] at hkept
    simp_all

end Cleanup

end SearchTable

/-- The observations with their search index. -/
structure SearchStore where
  memory : MemoryStore := {}
  table : SearchTable := {}

/-- A call on the database with its triggers. What the index refuses is not done: the call then fails in the
database, as any call may. -/
def SearchStore.step (tokens : String → Nat) : Semantics memorySignature Exn SearchStore := fun a s s' =>
  MemoryStore.step a s.memory s'.memory ∧
    s.table.after tokens a s.memory.observations.rows = some s'.table

/-- The operations of the repository and cleanups, side by side, from an empty database. -/
def searchSystem (tokens : String → Nat) (repo : ObservationRepository) :
    System storeSignature Exn (SearchStore × SyncStore) where
  Op := RepositoryOp
  Result := RepositoryOp.Result
  program := RepositoryOp.program repo
  step := Semantics.sum (SearchStore.step tokens) SyncStore.step
  outside _ _ := False
  initial s := s.1 = {}

section Run

variable {tokens : String → Nat} {repo : ObservationRepository}

/-- The rows hold some that are older than the cutoff, and these do not outweigh the others. -/
def Spoils (tokens : String → Nat) (cutoff : Int) (rows : List ObservationRow) : Prop :=
  (∃ row ∈ rows, row.timestamp < cutoff) ∧ ∀ total, rowsWeight tokens (SearchTable.oldRows cutoff rows) total ≤
    rowsWeight tokens (SearchTable.keptRows cutoff rows) total

/-- A cleanup of such rows, which the database has not failed. -/
def CleansUp (tokens : String → Nat) (a : Answered storeSignature Exn) (rows : List ObservationRow) : Prop :=
  ∃ cutoff v, a = ⟨.inl (.deleteOlderThan cutoff), .ok v⟩ ∧ Spoils tokens cutoff rows

variable {s s' : SearchStore × SyncStore} {a : Answered storeSignature Exn}

theorem after_error (c : MemoryCall) (e : Exn) (rows : List ObservationRow) (t : SearchTable) :
    t.after tokens ⟨c, .error e⟩ rows = some t := by
  cases c <;> rfl

theorem purgedBy_of_not_cleanup {a : Answered memorySignature Exn} {t : SearchTable}
    (h : ∀ cutoff v, a ≠ ⟨.deleteOlderThan cutoff, .ok v⟩) : t.purgedBy tokens a = some t := by
  unfold SearchTable.purgedBy
  split
  · next cutoff v => exact absurd rfl (h cutoff v)
  · rfl

theorem spoils_of_served (h : s.1.table.Mirrored tokens s.1.memory.observations.rows) {cutoff : Int} {v : Nat × Nat}
    (hstep : (searchSystem tokens repo).step ⟨.inl (.deleteOlderThan cutoff), .ok v⟩ s s')
    (hold : ∃ row ∈ s.1.memory.observations.rows, row.timestamp < cutoff) :
    Spoils tokens cutoff s.1.memory.observations.rows := by
  refine ⟨hold, (SearchTable.after_cleanup_isSome h v).mp ?_⟩
  exact Option.isSome_iff_exists.mpr ⟨_, hstep.1.2⟩

theorem mirrored_step (h : s.1.table.Mirrored tokens s.1.memory.observations.rows)
    (hstep : (searchSystem tokens repo).step a s s') (hkept : ¬ CleansUp tokens a s.1.memory.observations.rows) :
    s'.1.table.Mirrored tokens s'.1.memory.observations.rows := by
  obtain ⟨c | c, r⟩ := a
  · obtain ⟨hmemory, htable⟩ := hstep.1
    have hpurged : s.1.table.purgedBy tokens ⟨c, r⟩ = some s.1.table := by
      by_cases hcleanup : ∃ cutoff v, (⟨c, r⟩ : Answered memorySignature Exn) = ⟨.deleteOlderThan cutoff, .ok v⟩
      · obtain ⟨cutoff, v, heq⟩ := hcleanup
        cases heq
        refine SearchTable.purge_of_fresh h fun row hrow hlt => ?_
        exact hkept ⟨cutoff, v, rfl, spoils_of_served h hstep ⟨row, hrow, hlt⟩⟩
      · exact purgedBy_of_not_cleanup fun cutoff v heq => hcleanup ⟨cutoff, v, heq⟩
    obtain ⟨t', happly, h'⟩ := h.applyAll s.1.memory.observations.isIndexed.ids (step_allApply hmemory)
    have hsame : t' = s'.1.table := by
      rw [SearchTable.after, hpurged] at htable
      exact Option.some.inj (happly.symm.trans htable)
    rw [step_rows hmemory, ← hsame]
    exact h'
  · rw [hstep.2]
    exact h

theorem corrupt_step (hstep : (searchSystem tokens repo).step a s s')
    (h : s.1.table.index.corrupt = true ∨
      s.1.table.Mirrored tokens s.1.memory.observations.rows ∧ CleansUp tokens a s.1.memory.observations.rows) :
    s'.1.table.index.corrupt = true := by
  rcases h with hcorrupt | ⟨hmirrored, cutoff, v, rfl, hspoils⟩
  · obtain ⟨c | c, r⟩ := a
    · obtain ⟨purged, hpurge, happly⟩ := Option.bind_eq_some_iff.mp hstep.1.2
      refine SearchTable.corrupt_applyAll ?_ happly
      by_cases hcleanup : ∃ cutoff v, (⟨c, r⟩ : Answered memorySignature Exn) = ⟨.deleteOlderThan cutoff, .ok v⟩
      · obtain ⟨cutoff, v, heq⟩ := hcleanup
        cases heq
        exact SearchTable.corrupt_purge hcorrupt hpurge
      · rw [purgedBy_of_not_cleanup fun cutoff v heq => hcleanup ⟨cutoff, v, heq⟩] at hpurge
        cases hpurge
        exact hcorrupt
    · rw [hstep.2]
      exact hcorrupt
  · exact SearchTable.cleanup_corrupts hmirrored s.1.memory.observations.isIndexed.ids hspoils.1 hstep.1.2

variable {tr : List (searchSystem tokens repo).Event} {cfg : (searchSystem tokens repo).Config}

theorem mirrored_or_corrupt (run : (searchSystem tokens repo).Run tr cfg) :
    ((∀ e ∈ tr, ¬ CleansUp tokens e.answered e.before.1.memory.observations.rows) ∧
      cfg.store.1.table.Mirrored tokens cfg.store.1.memory.observations.rows) ∨
    (∃ e ∈ tr, CleansUp tokens e.answered e.before.1.memory.observations.rows) ∧
      cfg.store.1.table.index.corrupt = true := by
  induction run with
  | @initial s h =>
    have h : s.1 = {} := h
    refine .inl ⟨by simp, ?_⟩
    show s.1.table.Mirrored tokens s.1.memory.observations.rows
    rw [h]
    exact ⟨rfl, List.nodup_nil, ExternalIndex.mirrors_empty⟩
  | invoke run i fresh o ih => exact ih
  | @call tr s ss run i o c next running r s' step ih =>
    rcases ih with ⟨hnone, hmirrored⟩ | ⟨⟨e, he, hcleanup⟩, hcorrupt⟩
    · by_cases hcleanup : CleansUp tokens ⟨c, r⟩ s.1.memory.observations.rows
      · exact .inr ⟨⟨_, List.mem_append_right _ (List.mem_singleton_self _), hcleanup⟩,
          corrupt_step step (.inr ⟨hmirrored, hcleanup⟩)⟩
      · refine .inl ⟨fun e he => ?_, mirrored_step hmirrored step hcleanup⟩
        rcases List.mem_append.mp he with he | he
        · exact hnone e he
        · rw [List.mem_singleton.mp he]
          exact hcleanup
    · exact .inr ⟨⟨e, List.mem_append_left _ he, hcleanup⟩, corrupt_step step (.inl hcorrupt)⟩
  | outside run h ih => exact h.elim

/-- The index mirrors the table exactly in the runs in which no cleanup that the database has not failed comes
when there are old rows that do not outweigh the others. -/
theorem mirrored_iff_no_cleanup (run : (searchSystem tokens repo).Run tr cfg) :
    cfg.store.1.table.Mirrored tokens cfg.store.1.memory.observations.rows ↔
      ∀ e ∈ tr, ¬ CleansUp tokens e.answered e.before.1.memory.observations.rows := by
  rcases mirrored_or_corrupt run with ⟨hnone, hmirrored⟩ | ⟨⟨e, he, hcleanup⟩, hcorrupt⟩
  · exact iff_of_true hmirrored hnone
  · refine iff_of_false (fun hmirrored => ?_) fun hnone => hnone e he hcleanup
    rw [hmirrored.index.sound] at hcorrupt
    cases hcorrupt

section Sample

/-- The words of a text, as many as its tokens where words are made of letters. -/
def words (text : String) : Nat := (ObservationRepository.splitWords text.toList []).length

/-- What the database answers on its own: a call that the index refuses is rolled back. -/
def respondSearch (ω : Surroundings) : (c : storeSignature.Call) → SearchStore × SyncStore →
    Option (Except Exn (storeSignature.Value c) × (SearchStore × SyncStore))
  | .inl c, s =>
    let answer := MemoryStore.respond ω c s.1.memory
    match s.1.table.after words ⟨c, answer.1⟩ s.1.memory.observations.rows with
    | some table => some (answer.1, ⟨answer.2, table⟩, s.2)
    | none => some (.error (.operationalError "database disk image is malformed"), s)
  | .inr c, s =>
    let answer := SyncStore.respond ω.now c s.2
    some (answer.1, s.1, answer.2)

theorem respondSearch_step (ω : Surroundings) (c : storeSignature.Call) (s : SearchStore × SyncStore)
    (r : Except Exn (storeSignature.Value c)) (s' : SearchStore × SyncStore)
    (h : respondSearch ω c s = some (r, s')) : (searchSystem words plainRepository).step ⟨c, r⟩ s s' := by
  cases c with
  | inl c =>
    simp only [respondSearch] at h
    split at h
    · next table hafter =>
      cases h
      exact ⟨⟨.inl (MemoryStore.respond_serve ω c s.1.memory), hafter⟩, rfl⟩
    · cases h
      exact ⟨⟨.inr ⟨rfl, _, rfl⟩, after_error _ _ _ _⟩, rfl⟩
  | inr c =>
    cases h
    exact ⟨.inl (SyncStore.respond_serve ω.now c s.2), rfl⟩

/-- A note of two days later. -/
def laterNote : Observation :=
  ⟨{ id := "m", timestamp := 172800000, content := "note", project := some "a" }, rfl⟩

/-- The calls of a cleanup that keeps one day, two days after the first note. -/
def cleanupCalls (i : Nat) : List ((searchSystem words plainRepository).Move Surroundings) :=
  .invoke i (.cleanupOldObservations 1 false) ::
    List.replicate 2 (.call i { now := 172800000, id := "a", isFresh := a_ne_empty })

def createCalls (i : Nat) (note : Observation) : List ((searchSystem words plainRepository).Move Surroundings) :=
  .invoke i (.create note) :: List.replicate 2 (.call i { id := "a", isFresh := a_ne_empty })

/-- A cleanup of a note that the other one outweighs is done, and has removed its posting twice. -/
theorem sampleNote_cleaned :
    ∃ tr cfg, (searchSystem words plainRepository).Run tr cfg ∧
      ∃ e ∈ tr, CleansUp words e.answered e.before.1.memory.observations.rows := by
  obtain ⟨tr, cfg, hplay, hcleanup⟩ : ∃ tr cfg, (searchSystem words plainRepository).play respondSearch
      (createCalls 0 sampleNote ++ createCalls 1 laterNote ++ cleanupCalls 2) ⟨({}, {}), fun _ => none⟩ =
        some (tr, cfg) ∧ ∃ e ∈ tr, CleansUp words e.answered e.before.1.memory.observations.rows :=
    ⟨_, _, rfl, _, .tail _ (.tail _ (.tail _ (.tail _ (.tail _ (.head _))))), 86400000, (1, 0), rfl,
      ⟨_, .head _, (by decide : (0 : Int) < 86400000)⟩, by decide⟩
  have hinitial : (searchSystem words plainRepository).Run [] ⟨({}, {}), fun _ => none⟩ := .initial rfl
  exact ⟨tr, cfg, hinitial.play respondSearch_step hplay, hcleanup⟩

def goesThrough : Answered storeSignature Exn → Bool
  | ⟨.inl (.deleteOlderThan _), .ok _⟩ => true
  | _ => false

theorem sampleNote_refused :
    ∃ tr cfg, (searchSystem words plainRepository).Run tr cfg ∧
      (∃ e ∈ tr, e.answered.call = .inl (.deleteOlderThan 86400000)) ∧
      cfg.store.1.memory.observations.rows = [plainRepository.row sampleNote.val] ∧
      ∀ e ∈ tr, ¬ CleansUp words e.answered e.before.1.memory.observations.rows := by
  obtain ⟨tr, cfg, hplay, hrest⟩ : ∃ tr cfg, (searchSystem words plainRepository).play respondSearch
      (createCalls 0 sampleNote ++ cleanupCalls 1) ⟨({}, {}), fun _ => none⟩ = some (tr, cfg) ∧
        (∃ e ∈ tr, e.answered.call = .inl (.deleteOlderThan 86400000)) ∧
        cfg.store.1.memory.observations.rows = [plainRepository.row sampleNote.val] ∧
        tr.any (fun e => goesThrough e.answered) = false :=
    ⟨_, _, rfl, ⟨_, .tail _ (.tail _ (.tail _ (.head _))), rfl⟩, rfl, rfl⟩
  have hinitial : (searchSystem words plainRepository).Run [] ⟨({}, {}), fun _ => none⟩ := .initial rfl
  refine ⟨tr, cfg, hinitial.play respondSearch_step hplay, hrest.1, hrest.2.1, fun e he => ?_⟩
  rintro ⟨cutoff, v, heq, -⟩
  have hthrough : goesThrough e.answered = true := by rw [heq]; rfl
  exact absurd (List.any_eq_true.mpr ⟨e, he, hthrough⟩) (Bool.eq_false_iff.mp hrest.2.2)

theorem cleanup_spoils_index :
    ¬ ∀ (tokens : String → Nat) (repo : ObservationRepository) tr cfg, (searchSystem tokens repo).Run tr cfg →
      cfg.store.1.table.Mirrored tokens cfg.store.1.memory.observations.rows := by
  intro h
  obtain ⟨tr, cfg, hrun, e, he, hcleanup⟩ := sampleNote_cleaned
  rcases mirrored_or_corrupt hrun with ⟨hnone, -⟩ | ⟨-, hcorrupt⟩
  · exact hnone e he hcleanup
  · rw [(h _ _ tr cfg hrun).index.sound] at hcorrupt
    cases hcorrupt

/-- The index mirrors the table after the cleanup that was refused, and not after the one that was done. -/
theorem mirrored_iff_no_cleanup_sample :
    (∃ tr cfg, (searchSystem words plainRepository).Run tr cfg ∧
      (∃ e ∈ tr, e.answered.call = .inl (.deleteOlderThan 86400000)) ∧
      cfg.store.1.table.Mirrored words cfg.store.1.memory.observations.rows) ∧
    ∃ tr cfg, (searchSystem words plainRepository).Run tr cfg ∧
      ¬ cfg.store.1.table.Mirrored words cfg.store.1.memory.observations.rows := by
  obtain ⟨tr₁, cfg₁, hrun₁, hcall, -, hnone⟩ := sampleNote_refused
  obtain ⟨tr₂, cfg₂, hrun₂, e, he, hcleanup⟩ := sampleNote_cleaned
  exact ⟨⟨tr₁, cfg₁, hrun₁, hcall, (mirrored_iff_no_cleanup hrun₁).mpr hnone⟩,
    ⟨tr₂, cfg₂, hrun₂, fun hmirrored => (mirrored_iff_no_cleanup hrun₂).mp hmirrored e he hcleanup⟩⟩

end Sample

end Run

end ForkAgent.Memory

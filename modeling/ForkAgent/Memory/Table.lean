import ForkAgent.Memory.Entity
import ForkAgent.Storage.Table
import Mathlib.Data.Prod.Lex

/-!
# Observations table

The rows of `observations` with the unique indexes of the table, what a row is read as, and what
each statement makes of the table. A statement commits its rows when the indexes accept them.
-/

namespace ForkAgent.Memory

open Storage

/-- A row; its metadata is JSON text, kept as the object that `json.loads` reads from it. -/
@[ext] structure ObservationRow where
  id : String
  timestamp : Int
  content : String
  title : Option String := none
  metadata : Option JsonObject := none
  idempotencyKey : Option String := none
  topicKey : Option String := none
  project : Option String := none
  type : Option String := none
  revisionCount : Int := 1
  sessionId : Option String := none
  deriving DecidableEq

namespace ObservationRow

/-- An allowed type under its own spelling, or under the one with underscores. -/
def normalizeType (type : String) : Option String :=
  if type ∈ allowedTypes then some type
  else
    let normalized := String.ofList (type.toList.map fun c => if c = '-' then '_' else c)
    if normalized ∈ allowedTypes then some normalized else none

/-- The type column, or else the type that the metadata name. -/
def readType (column : Option String) (metadata : JsonObject) : Option String :=
  match column.bind normalizeType, metadata.get "type" with
  | some type, _ => some type
  | none, .str type => normalizeType type
  | none, _ => none

/-- The project column, or else whatever the metadata hold under that name. -/
def readProject (column : Option String) (metadata : JsonObject) : Json :=
  match column with
  | some project => if project ≠ "" then .str project else metadata.get "project"
  | none => metadata.get "project"

/-- What `_row_to_observation` hands to the constructor. -/
def args (row : ObservationRow) : ObservationArgs :=
  let metadata := row.metadata.getD []
  { id := .str row.id
    timestamp := .int row.timestamp
    content := .str row.content
    title := row.title
    metadata := .obj metadata
    idempotencyKey := .ofText row.idempotencyKey
    project := readProject row.project metadata
    type := .ofText (readType row.type metadata)
    topicKey := .ofText row.topicKey
    revisionCount := .int (if row.revisionCount = 0 then 1 else row.revisionCount)
    sessionId := row.sessionId }

end ObservationRow

def rowToObservation (row : ObservationRow) : Except Exn Observation := observation row.args

section Indexes

def rowId (row : ObservationRow) : Option String := some row.id

/-- `idx_observations_idempotency_key`. -/
def rowIdempotencyKey (row : ObservationRow) : Option String := row.idempotencyKey

/-- `idx_observations_topic_key_project`. -/
def rowTopic (row : ObservationRow) : Option (String × String) :=
  row.topicKey.map fun topicKey => (topicKey, row.project.getD "")

structure Indexed (rows : List ObservationRow) : Prop where
  ids : UniqueOn rowId rows
  idempotencyKeys : UniqueOn rowIdempotencyKey rows
  topics : UniqueOn rowTopic rows

def indexed (rows : List ObservationRow) : Bool :=
  unique rowId rows && unique rowIdempotencyKey rows && unique rowTopic rows

theorem indexed_iff {rows : List ObservationRow} : indexed rows = true ↔ Indexed rows := by
  simp only [indexed, Bool.and_eq_true, unique_iff]
  constructor
  · intro h
    exact ⟨h.1.1, h.1.2, h.2⟩
  · intro h
    exact ⟨⟨h.ids, h.idempotencyKeys⟩, h.topics⟩

end Indexes

theorem Indexed.sublist {rows rows' : List ObservationRow} (h : Indexed rows')
    (hsub : rows.Sublist rows') : Indexed rows :=
  ⟨h.ids.sublist hsub, h.idempotencyKeys.sublist hsub, h.topics.sublist hsub⟩

theorem Indexed.perm {rows rows' : List ObservationRow} (h : Indexed rows) (hperm : rows.Perm rows') :
    Indexed rows' := ⟨h.ids.perm hperm, h.idempotencyKeys.perm hperm, h.topics.perm hperm⟩

/-- The table: its unique indexes always hold. -/
@[ext] structure ObservationTable where
  rows : List ObservationRow
  isIndexed : Indexed rows

namespace ObservationTable

def empty : ObservationTable := ⟨[], ⟨.nil _, .nil _, .nil _⟩⟩

/-- The table after a statement, unless an index refuses it. -/
def commit (rows : List ObservationRow) : Option ObservationTable :=
  if h : indexed rows = true then some ⟨rows, indexed_iff.mp h⟩ else none

theorem commit_eq_some {rows : List ObservationRow} {t : ObservationTable} :
    commit rows = some t ↔ t.rows = rows := by
  unfold commit
  constructor
  · intro h
    split_ifs at h
    cases h
    rfl
  · rintro rfl
    rw [dif_pos (indexed_iff.mpr t.isIndexed)]

theorem commit_eq_none {rows : List ObservationRow} : commit rows = none ↔ ¬ Indexed rows := by
  unfold commit
  split_ifs with h
  · simp [indexed_iff.mp h]
  · simpa [indexed_iff] using h

theorem commit_of_indexed {rows : List ObservationRow} (h : Indexed rows) :
    commit rows = some ⟨rows, h⟩ := commit_eq_some.mpr rfl

variable (t : ObservationTable)

def insert (row : ObservationRow) : Option ObservationTable := commit (t.rows ++ [row])

/-- No stored row stands in the way of a row. -/
structure Admits (row : ObservationRow) : Prop where
  id : ∀ r ∈ t.rows, r.id ≠ row.id
  idempotencyKey : ∀ r ∈ t.rows, ∀ k, row.idempotencyKey = some k → r.idempotencyKey ≠ some k
  topic : ∀ r ∈ t.rows, ∀ k, rowTopic row = some k → rowTopic r ≠ some k

theorem insert_eq_some {t t' : ObservationTable} {row : ObservationRow} :
    t.insert row = some t' ↔ t'.rows = t.rows ++ [row] := commit_eq_some

theorem insert_eq_none {t : ObservationTable} {row : ObservationRow} :
    t.insert row = none ↔ ¬ t.Admits row := by
  refine commit_eq_none.trans (not_congr ?_)
  constructor
  · intro h
    refine ⟨fun r hr hid => ?_, (uniqueOn_concat.mp h.idempotencyKeys).2, (uniqueOn_concat.mp h.topics).2⟩
    exact (uniqueOn_concat.mp h.ids).2 r hr row.id rfl (congrArg some hid)
  · intro h
    refine ⟨uniqueOn_concat.mpr ⟨t.isIndexed.ids, ?_⟩,
      uniqueOn_concat.mpr ⟨t.isIndexed.idempotencyKeys, h.idempotencyKey⟩,
      uniqueOn_concat.mpr ⟨t.isIndexed.topics, h.topic⟩⟩
    intro r hr k hk hr'
    exact h.id r hr (Option.some.inj (hr'.trans hk.symm))

/-- The table with one more row, unless an index refuses it. -/
def offer (row : ObservationRow) : ObservationTable := (t.insert row).getD t

def offerAll (rows : List ObservationRow) : ObservationTable := rows.foldl offer t

theorem offer_rows (row : ObservationRow) :
    (t.offer row).rows = t.rows ++ [row] ∧ t.Admits row ∨ t.offer row = t ∧ ¬ t.Admits row := by
  unfold offer
  cases hinsert : t.insert row with
  | none => exact .inr ⟨rfl, insert_eq_none.mp hinsert⟩
  | some t' =>
    refine .inl ⟨insert_eq_some.mp hinsert, ?_⟩
    by_contra hrefused
    rw [insert_eq_none.mpr hrefused] at hinsert
    cases hinsert

theorem offerAll_rows (rows : List ObservationRow) :
    ∃ kept, kept.Sublist rows ∧ (t.offerAll rows).rows = t.rows ++ kept := by
  induction rows generalizing t with
  | nil => exact ⟨[], List.nil_sublist _, (List.append_nil _).symm⟩
  | cons row rows ih =>
    obtain ⟨kept, hsub, hrows⟩ := ih (t.offer row)
    rw [offerAll, List.foldl_cons]
    obtain ⟨hoffer, -⟩ | ⟨hoffer, -⟩ := t.offer_rows row
    · refine ⟨row :: kept, hsub.cons_cons row, hrows.trans ?_⟩
      rw [hoffer, List.append_assoc, List.singleton_append]
    · refine ⟨kept, hsub.cons row, hrows.trans ?_⟩
      rw [hoffer]

theorem offerAll_of_indexed {t : ObservationTable} {rows : List ObservationRow}
    (h : Indexed (t.rows ++ rows)) : (t.offerAll rows).rows = t.rows ++ rows := by
  induction rows generalizing t with
  | nil => exact (List.append_nil _).symm
  | cons row rows ih =>
    have hsplit : t.rows ++ row :: rows = t.rows ++ [row] ++ rows := by simp
    rw [hsplit] at h ⊢
    have hfirst : (t.offer row).rows = t.rows ++ [row] := by
      rw [offer, insert, commit_of_indexed (h.sublist (List.sublist_append_left _ _))]
      rfl
    rw [← hfirst] at h ⊢
    exact ih h

/-- `UPDATE ... WHERE id = ?`, which sets every other column. -/
def update (row : ObservationRow) : Option ObservationTable :=
  commit (updateWhere (fun r => r.id == row.id) (fun _ => row) t.rows)

def contains (id : String) : Bool := t.rows.any fun r => r.id == id

def delete (id : String) : ObservationTable where
  rows := t.rows.filter fun r => r.id != id
  isIndexed := ⟨t.isIndexed.ids.filter _, t.isIndexed.idempotencyKeys.filter _,
    t.isIndexed.topics.filter _⟩

/-- `DELETE ... WHERE timestamp < ?`. -/
def deleteOlder (cutoff : Int) : ObservationTable where
  rows := t.rows.filter fun r => ¬ r.timestamp < cutoff
  isIndexed := ⟨t.isIndexed.ids.filter _, t.isIndexed.idempotencyKeys.filter _,
    t.isIndexed.topics.filter _⟩

/-- `LOWER(topic_key) = ?`. -/
def withTopicKey (key : String) : List ObservationRow :=
  t.rows.filter fun r => r.topicKey.map sqlLower == some key

/-- `project = ?`, which is unknown of a row without a project. A descending order puts what is true
first and what is unknown last. -/
def projectRank (project : String) (row : ObservationRow) : Nat :=
  match row.project with
  | none => 0
  | some p => if p = project then 2 else 1

/-- The row that `get_by_topic_key` fetches. -/
def Finds (key : String) (project : Option String) (row : Option ObservationRow) : Prop :=
  match project with
  | none => Latest (fun _ => 0) (t.withTopicKey key) row
  | some p =>
    Latest (projectRank p)
      ((t.withTopicKey key).filter fun r => r.project == some p || r.project == none) row

/-- The order in which the subquery of an upsert prefers rows. -/
def upsertRank (project : String) (row : ObservationRow) :
    Lex (Nat × Lex (Nat × Int)) :=
  toLex (projectRank project row, toLex (if row.project = none then 1 else 0, row.revisionCount))

/-- The row that the subquery of an upsert picks. -/
def Picks (key : String) (project : Option String) (row : Option ObservationRow) : Prop :=
  match project.filter (· ≠ "") with
  | none => Latest (fun _ => 0) ((t.withTopicKey key).filter fun r => r.project == none) row
  | some p => Latest (upsertRank p) (t.withTopicKey key) row

/-- The `SET` clause of an upsert. -/
def revise (o : ObservationFields) (key : String) (project : Option String)
    (row : ObservationRow) : ObservationRow :=
  { row with
    content := o.content
    title := o.title
    metadata := some (o.metadata.getD [])
    timestamp := o.timestamp
    type := o.type
    sessionId := o.sessionId
    project := project
    topicKey := some key
    revisionCount := row.revisionCount + 1 }

/-- `UPDATE observations SET project = ? WHERE project = ?` for each source in turn; the answer
says how many rows were changed. -/
def moveProjects (canonical : Option String) : List String → ObservationTable →
    Option (Nat × ObservationTable)
  | [], t => some (0, t)
  | src :: sources, t => do
    let moved := t.rows.countP fun r => r.project == some src
    let t₁ ← commit (updateWhere (fun r => r.project == some src)
      (fun r => { r with project := canonical }) t.rows)
    let (rest, t₂) ← moveProjects canonical sources t₁
    return (moved + rest, t₂)

end ObservationTable

end ForkAgent.Memory

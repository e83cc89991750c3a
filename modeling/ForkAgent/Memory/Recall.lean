import ForkAgent.Memory.Readable
import ForkAgent.Python.Values
import Mathlib.Data.List.DropRight

/-!
# What a created observation is read back as

Metadata are stored as JSON text and read as what `json.loads` makes of it, missing ones as empty; a
missing type or project is looked up in them. An integer of more than 64 bits is not stored.
-/

namespace ForkAgent.Memory

open Effects Storage Sync MemoryStore

/-- What is relied upon of `str.lower`: it makes no null byte, and no white space of a first character
that is none. -/
structure KeepsText (lower : String → String) : Prop where
  null : ∀ s : String, '\x00' ∉ s.toList → '\x00' ∉ (lower s).toList
  head : ∀ s : String, (∃ c, s.toList.head? = some c ∧ isSpace c = false) →
    ∃ c, (lower s).toList.head? = some c ∧ isSpace c = false

section Names

/-- A name that starts with a character other than white space. -/
def StartsInk (s : String) : Prop := ∃ c, s.toList.head? = some c ∧ isSpace c = false

theorem toList_strip (s : String) :
    (strip s).toList = (s.toList.dropWhile isSpace).rdropWhile isSpace := by
  simp [strip, List.rdropWhile]

theorem toList_rstripSlash (s : String) : (rstripSlash s).toList = s.toList.rdropWhile (· = '/') := by
  simp [rstripSlash, List.rdropWhile]

theorem ne_empty_iff {s : String} : s ≠ "" ↔ s.toList ≠ [] := by
  rw [Ne, Ne, String.toList_eq_nil_iff]

theorem StartsInk.of_prefix {s t : String} (h : StartsInk s) (hpart : t.toList <+: s.toList) (hne : t ≠ "") :
    StartsInk t := by
  obtain ⟨c, hhead, hc⟩ := h
  obtain ⟨rest, hrest⟩ := hpart
  cases hlist : t.toList with
  | nil => exact absurd hlist (ne_empty_iff.mp hne)
  | cons d cs =>
    rw [← hrest, hlist] at hhead
    exact ⟨d, by rw [hlist]; rfl, by simpa [← Option.some.inj hhead] using hc⟩

theorem StartsInk.strip_ne {s : String} (h : StartsInk s) : strip s ≠ "" := by
  obtain ⟨c, hhead, hc⟩ := h
  rw [ne_empty_iff, toList_strip]
  cases hlist : s.toList with
  | nil => simp [hlist] at hhead
  | cons d cs =>
    have hd : isSpace d = false := by
      rw [hlist] at hhead
      simpa [Option.some.inj hhead] using hc
    rw [List.dropWhile_cons_of_neg (by simp [hd])]
    intro hnil
    have hall := List.rdropWhile_eq_nil_iff.mp hnil d List.mem_cons_self
    rw [hd] at hall
    cases hall

theorem startsInk_strip {s : String} (h : strip s ≠ "") : StartsInk (strip s) := by
  have hdropped : (strip s).toList <+: s.toList.dropWhile isSpace := by
    rw [toList_strip]
    exact List.rdropWhile_prefix _ _
  have hink : StartsInk (String.ofList (s.toList.dropWhile isSpace)) := by
    have hne : s.toList.dropWhile isSpace ≠ [] := by
      intro hnil
      rw [hnil, List.prefix_nil] at hdropped
      exact ne_empty_iff.mp h hdropped
    refine ⟨(s.toList.dropWhile isSpace).head hne, ?_, ?_⟩
    · simp [List.head?_eq_some_head hne]
    · simpa using List.head_dropWhile_not isSpace hne
  exact hink.of_prefix (by simpa using hdropped) h

variable {lower : String → String}

theorem normalizeProjectName_reads (hlower : KeepsText lower) {name : String} (hname : strip name ≠ "")
    (hnull : '\x00' ∉ name.toList) (hne : normalizeProjectName lower name ≠ "") :
    strip (normalizeProjectName lower name) ≠ "" ∧
      '\x00' ∉ (normalizeProjectName lower name).toList := by
  have hpart : (normalizeProjectName lower name).toList <+: (lower (strip name)).toList := by
    rw [normalizeProjectName, toList_rstripSlash]
    exact List.rdropWhile_prefix _ _
  constructor
  · have hink : StartsInk (lower (strip name)) := hlower.head _ (startsInk_strip hname)
    exact (hink.of_prefix hpart hne).strip_ne
  · intro hmem
    have hstripped : '\x00' ∉ (strip name).toList := by
      rw [toList_strip]
      intro h
      exact hnull ((List.dropWhile_sublist _).subset ((List.rdropWhile_prefix _ _).subset h))
    exact hlower.null _ hstripped (hpart.subset hmem)

end Names

section Recall

open ObservationRepository

variable {repo : ObservationRepository}

/-- The allowed type that metadata name. -/
def namedType (metadata : JsonObject) : Option String :=
  match metadata.get "type" with
  | .str type => ObservationRow.normalizeType type
  | _ => none

/-- The project that metadata name. -/
def namedProject (metadata : JsonObject) : Option String :=
  match metadata.get "project" with
  | .str project => some project
  | _ => none

/-- The normalised project, if there is anything left of it. -/
def keptProject (repo : ObservationRepository) (f : ObservationFields) : Option String :=
  (normalizeProject repo.lower f.project).filter (· ≠ "")

/-- An observation as it is read back. -/
def recalled (repo : ObservationRepository) (f : ObservationFields) : ObservationFields :=
  { f with
    metadata := some (f.metadata.getD [])
    type := f.type.or (namedType (f.metadata.getD []))
    project := (keptProject repo f).or (namedProject (f.metadata.getD [])) }

theorem readProject_normalized (project : Option String) (metadata : JsonObject) :
    ObservationRow.readProject project metadata =
      match project.filter (· ≠ "") with
      | some p => .str p
      | none => metadata.get "project" := by
  cases project with
  | none => rfl
  | some p => by_cases hp : p = "" <;> simp [ObservationRow.readProject, Option.filter, hp]

theorem readType_of_allowed {type : Option String} (h : ∀ t ∈ type, t ∈ allowedTypes)
    (metadata : JsonObject) :
    ObservationRow.readType type metadata = type.or (namedType metadata) := by
  cases type with
  | none =>
    unfold ObservationRow.readType namedType
    cases metadata.get "type" <;> rfl
  | some t =>
    have hnormal : ObservationRow.normalizeType t = some t := by
      unfold ObservationRow.normalizeType
      rw [if_pos (h t rfl)]
    simp [ObservationRow.readType, hnormal]

theorem reads_project {f : ObservationFields}
    (h : keptProject repo f = none → ProjectReads ((f.metadata.getD []).get "project")) :
    optional (readStr "project must be a string or None")
      (ObservationRow.readProject (normalizeProject repo.lower f.project) (f.metadata.getD [])) =
        .ok ((keptProject repo f).or (namedProject (f.metadata.getD []))) := by
  rw [readProject_normalized]
  cases hkept : keptProject repo f with
  | some p =>
    rw [show (normalizeProject repo.lower f.project).filter (· ≠ "") = some p from hkept]
    rfl
  | none =>
    rw [show (normalizeProject repo.lower f.project).filter (· ≠ "") = none from hkept]
    have hreads := h hkept
    unfold namedProject
    cases hnamed : (f.metadata.getD []).get "project" with
    | null => rfl
    | str name => rfl
    | _ =>
      rw [hnamed] at hreads
      exact hreads.elim

theorem readable_row (hlower : KeepsText repo.lower) {o : Observation}
    (h : keptProject repo o.val = none → ProjectReads ((o.val.metadata.getD []).get "project")) :
    Readable (repo.row o.val) := by
  rw [readable_written]
  show ProjectReads (ObservationRow.readProject (normalizeProject repo.lower o.val.project)
    (o.val.metadata.getD []))
  have hvalid := postInit_eq_ok.mp o.property
  rw [readProject_normalized]
  cases hkept : keptProject repo o.val with
  | none =>
    rw [show (normalizeProject repo.lower o.val.project).filter (· ≠ "") = none from hkept]
    exact h hkept
  | some p =>
    rw [show (normalizeProject repo.lower o.val.project).filter (· ≠ "") = some p from hkept]
    obtain ⟨hnormal, hp⟩ := Option.filter_eq_some_iff.mp hkept
    obtain ⟨name, hname, rfl⟩ := Option.map_eq_some_iff.mp hnormal
    exact normalizeProjectName_reads hlower (hvalid.project name hname) (hvalid.projectNull name hname)
      (by simpa using hp)

theorem rowToObservation_row (hlower : KeepsText repo.lower) {o : Observation}
    (h : keptProject repo o.val = none → ProjectReads ((o.val.metadata.getD []).get "project")) :
    ∃ o', rowToObservation (repo.row o.val) = .ok o' ∧ o'.val = recalled repo o.val := by
  obtain ⟨o', ho'⟩ := readable_row hlower h
  refine ⟨o', ho', ?_⟩
  have hvalid := postInit_eq_ok.mp o.property
  have hreads := observation_eq_ok.mp ho'
  rw [hreads.unique (reads_args_row (reads_project h))]
  have hcount : (if o.val.revisionCount = 0 then 1 else o.val.revisionCount) = o.val.revisionCount := by
    have := hvalid.revisionCount
    rw [if_neg (by omega)]
  have htype := readType_of_allowed hvalid.type (o.val.metadata.getD [])
  show ({ bareFields (repo.row o.val) with project := _ } : ObservationFields) = recalled repo o.val
  unfold bareFields recalled ObservationRepository.row
  simp only [hcount, htype]

/-- The observations are served; the sync journal may fail. -/
def Store.serving : Semantics storeSignature Exn Store := both MemoryStore.serve SyncStore.step

/-- The integers that a statement binds. -/
def MemoryCall.integers : MemoryCall → List Int
  | .insert row | .update row => [row.timestamp, row.revisionCount]
  | .upsertTopicKey o _ _ => [o.val.timestamp]
  | .selectAll _ _ limit offset => limit.toList ++ offset.toList
  | .search _ _ limit => limit.toList
  | .selectByTimestampRange start stop _ => [start, stop]
  | .countOlderThan cutoff | .deleteOlderThan cutoff => [cutoff]
  | _ => []

/-- A signed integer of 64 bits. -/
def inColumn (n : Int) : Prop := -2 ^ 63 ≤ n ∧ n < 2 ^ 63

instance (n : Int) : Decidable (inColumn n) := inferInstanceAs (Decidable (_ ∧ _))

def tooLarge : Exn := .overflowError "Python int too large to convert to SQLite INTEGER"

/-- The statements are served, but `sqlite3` binds no integer that a column cannot hold. -/
def MemoryStore.binding : Semantics memorySignature Exn MemoryStore
  | ⟨c, r⟩, s, s' =>
    if ∀ n ∈ c.integers, inColumn n then serve ⟨c, r⟩ s s'
    else s' = s ∧ r = .error tooLarge

/-- The observations are served; the sync journal may fail. -/
def Store.binding : Semantics storeSignature Exn Store := both MemoryStore.binding SyncStore.step

/-- An observation as it is constructed, its metadata any dictionary. -/
structure GivenObservation where
  rest : Observation
  bare : rest.val.metadata = none
  metadata : Option (List (PyKey × PyValue)) := none

/-- `_serialize_metadata`; the text is kept as what `json.loads` reads from it. -/
def serializeMetadata : Option (List (PyKey × PyValue)) → Except Exn (Option JsonObject)
  | none => .ok none
  | some fields => (PyValue.imageFields fields []).map some

theorem postInit_metadata (o : Observation) (metadata : Option JsonObject) :
    ({ o.val with metadata } : ObservationFields).postInit = .ok () := by
  have hvalid := postInit_eq_ok.mp o.property
  exact postInit_eq_ok.mpr { hvalid with }

/-- The observation that is stored, with these metadata. -/
def GivenObservation.stored (o : GivenObservation) (metadata : Option JsonObject) : Observation :=
  ⟨{ o.rest.val with metadata }, postInit_metadata o.rest metadata⟩

/-- `create`, from the serialisation of the metadata on. -/
def ObservationRepository.createGiven (repo : ObservationRepository) (o : GivenObservation) :
    MemoryProgram Unit := do
  let metadata ← .ofExcept (serializeMetadata o.metadata)
  repo.create (o.stored metadata)

/-- The columns hold the integers of the observation. -/
def GivenObservation.Fits (o : GivenObservation) : Prop :=
  o.rest.val.timestamp < 2 ^ 63 ∧ o.rest.val.revisionCount < 2 ^ 63

theorem integers_insert (o : GivenObservation) (metadata : Option JsonObject) :
    (∀ n ∈ (MemoryCall.insert (repo.row (o.stored metadata).val)).integers, inColumn n) ↔ o.Fits := by
  have hvalid := postInit_eq_ok.mp o.rest.property
  have htimestamp := hvalid.timestamp
  have hrevision := hvalid.revisionCount
  show (∀ n ∈ [o.rest.val.timestamp, o.rest.val.revisionCount], inColumn n) ↔ _
  simp only [List.mem_cons, List.not_mem_nil, or_false, forall_eq_or_imp, forall_eq, inColumn,
    GivenObservation.Fits]
  omega

theorem serializeMetadata_ofFields {fields : JsonObject} (h : (Json.obj fields).Writable) :
    serializeMetadata (some (PyValue.ofFields fields)) = .ok (some fields) := by
  obtain ⟨hnames, hfields⟩ : (fields.map Prod.fst).Nodup ∧ Json.WritableFields fields := by
    simpa [Json.Writable] using h
  rw [serializeMetadata, PyValue.imageFields_ofFields fields [] hfields hnames]
  rfl

theorem binding_insert {row : ObservationRow} {r : Except Exn Unit} {m m' : MemoryStore} :
    MemoryStore.binding ⟨.insert row, r⟩ m m' ↔
      if ∀ n ∈ (MemoryCall.insert row).integers, inColumn n then
        MemoryStore.Write m (m.observations.insert row) () r m'
      else m' = m ∧ r = .error tooLarge :=
  .rfl

theorem binding_stored {o : GivenObservation} {metadata : Option JsonObject} {m m' : MemoryStore}
    (hadmits : m.observations.Admits (repo.row o.rest.val)) {r : Except Exn Unit}
    (h : MemoryStore.binding ⟨.insert (repo.row (o.stored metadata).val), r⟩ m m') :
    (r = .ok () ↔ o.Fits) ∧
      (r = .ok () → m'.observations.rows = m.observations.rows ++ [repo.row (o.stored metadata).val]) := by
  rw [binding_insert] at h
  split_ifs at h with hbound
  · have hfits : o.Fits := (integers_insert o metadata).mp hbound
    have hstored : m.observations.Admits (repo.row (o.stored metadata).val) :=
      ⟨hadmits.id, hadmits.idempotencyKey, hadmits.topic⟩
    cases hinsert : m.observations.insert (repo.row (o.stored metadata).val) with
    | none => exact absurd hstored (ObservationTable.insert_eq_none.mp hinsert)
    | some t =>
      rw [hinsert] at h
      obtain ⟨rfl, rfl⟩ := h
      exact ⟨iff_of_true rfl hfits, fun _ => ObservationTable.insert_eq_some.mp hinsert⟩
  · obtain ⟨-, rfl⟩ := h
    exact ⟨iff_of_false nofun fun hfits => hbound ((integers_insert o metadata).mpr hfits), nofun⟩

theorem binding_selectById {id : String} {r : Except Exn (Option ObservationRow)} {m m' : MemoryStore} :
    MemoryStore.binding ⟨.selectById id, r⟩ m m' ↔ m' = m ∧ r = .ok (findId id m.observations.rows) := by
  have hnone : ∀ n ∈ (MemoryCall.selectById id).integers, inColumn n := List.forall_mem_nil _
  show (if ∀ n ∈ (MemoryCall.selectById id).integers, inColumn n then
    MemoryStore.serve ⟨.selectById id, r⟩ m m' else m' = m ∧ r = .error tooLarge) ↔ _
  rw [if_pos hnone]
  rfl

theorem getById_stored {row : ObservationRow} {s s' : Store} (hrow : row ∈ s.1.observations.rows)
    {out : Except Exn Observation} (hget : (getById row.id).Runs Store.binding s out s') :
    out = rowToObservation row := by
  obtain ⟨e, hfetch, -⟩ | ⟨found, u, hfetch, hrest⟩ := statement_bind_runs.mp hget
  · cases (binding_selectById.mp hfetch).2
  · have hfound : found = findId row.id s.1.observations.rows := Except.ok.inj (binding_selectById.mp hfetch).2
    rw [hfound, findId_of_mem hrow] at hrest
    exact (Program.runs_ofExcept.mp hrest).1

/-- An observation whose metadata can be written is created exactly if its integers fit their columns, and is
then read as it is recalled. -/
theorem create_stored (hlower : KeepsText repo.lower) {o : GivenObservation} {metadata : Option JsonObject}
    {s s₁ s₂ : Store} (hadmits : s.1.observations.Admits (repo.row o.rest.val))
    (hproject : keptProject repo o.rest.val = none → ProjectReads ((metadata.getD []).get "project"))
    {created : Except Exn Unit} (hcreate : (repo.create (o.stored metadata)).Runs Store.binding s created s₁)
    {out : Except Exn Observation} (hget : (getById o.rest.val.id).Runs Store.binding s₁ out s₂) :
    (created = .ok () ↔ o.Fits) ∧
      (created = .ok () → ∃ o', out = .ok o' ∧ o'.val = recalled repo (o.stored metadata).val) := by
  obtain ⟨e, hinsert, -, rfl⟩ | ⟨hinsert, rfl, -⟩ := (create_runs repo).mp hcreate
  · obtain ⟨hfits, -⟩ := binding_stored hadmits hinsert
    exact ⟨iff_of_false nofun fun h => (nomatch hfits.mpr h), nofun⟩
  · obtain ⟨hfits, hrows⟩ := binding_stored hadmits hinsert
    refine ⟨iff_of_true rfl (hfits.mp rfl), fun _ => ?_⟩
    have hrow : repo.row (o.stored metadata).val ∈ s₁.1.observations.rows := by
      rw [hrows rfl]
      simp
    obtain ⟨o', hread, hval⟩ := rowToObservation_row hlower (o := o.stored metadata) hproject
    exact ⟨o', (getById_stored hrow hget).trans hread, hval⟩

/-- An observation that no stored row stands in the way of is created exactly if its integers fit their
columns and its metadata can be written as JSON text. It is then read back with the metadata of that text,
JSON data as they are; with its normalised project or, where nothing is left of that, with the one that its
metadata name; with the type that they name where it has none; and with empty metadata where it has none. -/
theorem create_then_get (hlower : KeepsText repo.lower) (o : GivenObservation) {s s₁ s₂ : Store}
    (hadmits : s.1.observations.Admits (repo.row o.rest.val))
    (hproject : keptProject repo o.rest.val = none → ∀ metadata, serializeMetadata o.metadata = .ok metadata →
      ProjectReads ((metadata.getD []).get "project"))
    {created : Except Exn Unit} (hcreate : (repo.createGiven o).Runs Store.binding s created s₁)
    {out : Except Exn Observation} (hget : (getById o.rest.val.id).Runs Store.binding s₁ out s₂) :
    (created = .ok () ↔ o.Fits ∧ ∃ metadata, serializeMetadata o.metadata = .ok metadata) ∧
      (created = .ok () → ∃ metadata o', serializeMetadata o.metadata = .ok metadata ∧ out = .ok o' ∧
        o'.val = recalled repo (o.stored metadata).val) ∧
      ∀ fields, (Json.obj fields).Writable → o.metadata = some (PyValue.ofFields fields) →
        serializeMetadata o.metadata = .ok (some fields) := by
  have hjson : ∀ fields, (Json.obj fields).Writable → o.metadata = some (PyValue.ofFields fields) →
      serializeMetadata o.metadata = .ok (some fields) := by
    intro fields hwritable heq
    rw [heq, serializeMetadata_ofFields hwritable]
  obtain ⟨e, hserialize, rfl⟩ | ⟨metadata, t, hserialize, hrun⟩ := Program.runs_bind.mp hcreate
  · have herror : serializeMetadata o.metadata = .error e := (Program.runs_ofExcept.mp hserialize).1.symm
    refine ⟨iff_of_false nofun ?_, nofun, hjson⟩
    rintro ⟨-, metadata, hok⟩
    rw [herror] at hok
    cases hok
  · obtain ⟨hok, rfl⟩ := Program.runs_ofExcept.mp hserialize
    obtain ⟨hfits, hread⟩ := create_stored hlower hadmits (fun hkept => hproject hkept metadata hok.symm) hrun hget
    refine ⟨hfits.trans (iff_self_and.mpr fun _ => ⟨metadata, hok.symm⟩), fun hcreated => ?_, hjson⟩
    obtain ⟨o', hout, hval⟩ := hread hcreated
    exact ⟨metadata, o', hok.symm, hout, hval⟩

section Example

theorem keepsText_id : KeepsText id := ⟨fun _ h => h, fun _ h => h⟩

theorem admits_empty (row : ObservationRow) : ObservationTable.empty.Admits row := by
  refine ⟨?_, ?_, ?_⟩ <;> intro r hr <;> cases hr

theorem runs_of_exec {α : Type} {p : MemoryProgram α} {s s' : Store} {out : Except Exn α}
    {answers : List (Answered storeSignature Exn)}
    (h : p.exec (fun c s => some (Store.respond { id := "a" } c s)) s = some (out, answers, s')) :
    p.Runs Store.serving s out s' := by
  refine (Program.exec_reaches (fun c s r s' hrespond => ?_) h).runs
  have hserve := Store.respond_serve { id := "a" } c s
  rw [Option.some.inj hrespond] at hserve
  cases c with
  | inl c => exact hserve
  | inr c => exact ⟨.inl hserve.1, hserve.2⟩

/-- What it answers to a statement whose integers can be bound. -/
def respondBinding (c : storeSignature.Call) (s : Store) :
    Option (Except Exn (storeSignature.Value c) × Store) :=
  match c with
  | .inl c =>
    if ∀ n ∈ c.integers, inColumn n then
      some (Store.respond { id := "a", isFresh := a_ne_empty } (.inl c) s)
    else some (.error tooLarge, s)
  | .inr c => some (Store.respond { id := "a", isFresh := a_ne_empty } (.inr c) s)

theorem binds_of_exec {α : Type} {p : MemoryProgram α} {s s' : Store} {out : Except Exn α}
    {answers : List (Answered storeSignature Exn)} (h : p.exec respondBinding s = some (out, answers, s')) :
    p.Runs Store.binding s out s' := by
  refine (Program.exec_reaches (fun c s r s' hrespond => ?_) h).runs
  have hserve := Store.respond_serve { id := "a" } c s
  cases c with
  | inl c =>
    show (if ∀ n ∈ c.integers, inColumn n then _ else _) ∧ _
    simp only [respondBinding] at hrespond
    split_ifs at hrespond with hbound
    · rw [Option.some.inj hrespond] at hserve
      rw [if_pos hbound]
      exact hserve
    · cases hrespond
      rw [if_neg hbound]
      exact ⟨⟨rfl, rfl⟩, rfl⟩
  | inr c =>
    rw [Option.some.inj hrespond] at hserve
    exact ⟨.inl hserve.1, hserve.2⟩

/-- A note whose metadata name a type. -/
def namedNote : GivenObservation where
  rest := ⟨{ id := "n", timestamp := 0, content := "note" }, rfl⟩
  bare := rfl
  metadata := some (PyValue.ofFields [("type", .str "decision")])

/-- One whose metadata list their sources as a tuple, too, and have a key that is no string. -/
def typedNote : GivenObservation where
  rest := ⟨{ id := "n", timestamp := 0, content := "note" }, rfl⟩
  bare := rfl
  metadata := some [(.str "type", .str "decision"), (.str "sources", .tuple [.str "a"]), (.none, .bool true)]

def typedNoteMetadata : JsonObject :=
  [("type", .str "decision"), ("sources", .arr [.str "a"]), ("null", .bool true)]

theorem namedNote_recalled : ∃ s₁ s₂ o',
    (plainRepository.createGiven namedNote).Runs Store.binding ({}, {}) (.ok ()) s₁ ∧
    (getById "n").Runs Store.binding s₁ (.ok o') s₂ ∧ o'.val.type = some "decision" :=
  ⟨_, _, _, binds_of_exec rfl, binds_of_exec rfl, rfl⟩

theorem typedNote_recalled : ∃ s₁ s₂ o',
    (plainRepository.createGiven typedNote).Runs Store.binding ({}, {}) (.ok ()) s₁ ∧
    (getById "n").Runs Store.binding s₁ (.ok o') s₂ ∧
      o'.val = { typedNote.rest.val with type := some "decision", metadata := some typedNoteMetadata } :=
  ⟨_, _, _, binds_of_exec rfl, binds_of_exec rfl, rfl⟩

/-- Of metadata that are JSON data, too, a missing type is borrowed. -/
theorem type_borrowed :
    ¬ ∀ (repo : ObservationRepository) (o : GivenObservation) (fields : JsonObject) (s s₁ s₂ : Store)
      (out : Except Exn Observation), KeepsText repo.lower → o.metadata = some (PyValue.ofFields fields) →
        s.1.observations.Admits (repo.row o.rest.val) →
          (repo.createGiven o).Runs Store.binding s (.ok ()) s₁ →
            (getById o.rest.val.id).Runs Store.binding s₁ out s₂ → ∃ o', out = .ok o' ∧
              o'.val = { o.rest.val with
                project := normalizeProject repo.lower o.rest.val.project, metadata := some fields } := by
  intro h
  obtain ⟨s₁, s₂, o', hcreate, hget, htype⟩ := namedNote_recalled
  obtain ⟨o₁, heq, hsame⟩ := h plainRepository namedNote [("type", .str "decision")] ({}, {}) s₁ s₂ _
    keepsText_id rfl (admits_empty _) hcreate hget
  cases heq
  rw [hsame] at htype
  cases htype

theorem create_then_get_typedNote : ∃ s₁ s₂ out,
    (plainRepository.createGiven typedNote).Runs Store.binding ({}, {}) (.ok ()) s₁ ∧
    (getById "n").Runs Store.binding s₁ out s₂ ∧ ∃ metadata o', out = .ok o' ∧
      o'.val = recalled plainRepository (typedNote.stored metadata).val := by
  obtain ⟨s₁, s₂, o', hcreate, hget, -⟩ := typedNote_recalled
  obtain ⟨-, hread, -⟩ := create_then_get keepsText_id typedNote (admits_empty _)
    (fun _ metadata hmetadata => by cases hmetadata; trivial) hcreate hget
  obtain ⟨metadata, o₁, -, hout, hval⟩ := hread rfl
  exact ⟨s₁, s₂, _, hcreate, hget, metadata, o₁, hout, hval⟩

end Example

end Recall

end ForkAgent.Memory

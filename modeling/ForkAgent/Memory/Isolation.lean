import ForkAgent.Memory.Events
import ForkAgent.Memory.Saves

/-!
# One row for a save

A save that finds an observation under its topic revises the row that its upsert picks, which need not
be the row that it found.
-/

namespace Storage

variable {α κ : Type} [LinearOrder κ] {key : α → κ} {rows : List α} {x : α}

/-- Whatever stands first among equals, the first row of a descending order is this one exactly if it
is above all others. -/
theorem latest_unique :
    (∀ pick, Latest key rows pick → pick = some x) ↔ x ∈ rows ∧ ∀ y ∈ rows, y ≠ x → key y < key x := by
  constructor
  · intro h
    have hfirst := head?_latest (orderDesc_ordered key rows)
    rw [h _ hfirst] at hfirst
    refine ⟨hfirst.1, fun y hy hne => lt_of_le_of_ne (hfirst.2 y hy) fun heq => hne ?_⟩
    have hlatest : Latest key rows (some y) := ⟨hy, fun z hz => heq ▸ hfirst.2 z hz⟩
    exact Option.some.inj (h _ hlatest)
  · rintro ⟨hx, h⟩ pick hpick
    cases pick with
    | none =>
      rw [show rows = [] from hpick] at hx
      cases hx
    | some y =>
      by_contra hne
      have hlt := h y hpick.1 fun heq => hne (congrArg some heq)
      exact absurd (hpick.2 x hx) (not_le_of_gt hlt)

end Storage

namespace ForkAgent.Memory

open Effects Storage Sync MemoryStore

/-- Among the rows of its topic this is the one that an upsert for the project picks. With a project:
it stands in the project and has more revisions than any other row there; or no other row stands in the
project, and it has more revisions than any other row of a project; or no row has a project, and it has
the most revisions. Without a project: it is the only row that has none. -/
def Prevails (project : Option String) (rows : List ObservationRow) (row : ObservationRow) : Prop :=
  match project.filter (· ≠ "") with
  | none => row.project = none ∧ ∀ other ∈ rows, other ≠ row → other.project ≠ none
  | some name =>
    (row.project = some name ∧
      ∀ other ∈ rows, other ≠ row → other.project = some name → other.revisionCount < row.revisionCount) ∨
    (row.project ≠ none ∧ ∀ other ∈ rows, other ≠ row →
      other.project ≠ some name ∧ (other.project ≠ none → other.revisionCount < row.revisionCount)) ∨
    row.project = none ∧ ∀ other ∈ rows, other ≠ row →
      other.project = none ∧ other.revisionCount < row.revisionCount

section Picks

variable {t : ObservationTable} {key : String} {project : Option String} {row other : ObservationRow}

theorem upsertRank_lt {name : String} :
    ObservationTable.upsertRank name other < ObservationTable.upsertRank name row ↔
      (row.project = some name ∧ (other.project = some name → other.revisionCount < row.revisionCount)) ∨
      (row.project ≠ none ∧ other.project ≠ some name ∧
        (other.project ≠ none → other.revisionCount < row.revisionCount)) ∨
      row.project = none ∧ other.project = none ∧ other.revisionCount < row.revisionCount := by
  simp only [ObservationTable.upsertRank, ObservationTable.projectRank, Prod.Lex.toLex_lt_toLex]
  cases hrow : row.project <;> cases hother : other.project <;> simp
  all_goals grind

theorem picks_iff_prevails (hrow : row ∈ t.withTopicKey key) :
    (∀ pick, t.Picks key project pick → pick = some row) ↔ Prevails project (t.withTopicKey key) row := by
  unfold ObservationTable.Picks Prevails
  cases project.filter (· ≠ "") with
  | none =>
    refine latest_unique.trans ?_
    simp only [List.mem_filter, beq_iff_eq, hrow, true_and, lt_irrefl, imp_false, and_imp]
    grind
  | some name =>
    refine latest_unique.trans ?_
    simp only [upsertRank_lt, hrow, true_and]
    by_cases hname : row.project = some name
    · grind
    · cases hproject : row.project with
      | none => grind
      | some p => grind

end Picks

section Isolation

/-- What a save may leave of the rows: the same ones, one more where it found none, or another version
of the row that it found, which had no project or the one given. -/
inductive OneWritten (args : SaveArgs) (existing : Option Observation) (rows : List ObservationRow) :
    List ObservationRow → Prop where
  | same : OneWritten args existing rows rows
  | created (row : ObservationRow) : existing = none → OneWritten args existing rows (rows ++ [row])
  | revised (o : Observation) (row revised : ObservationRow) : existing = some o → row ∈ rows →
      row.id = o.val.id → revised.id = row.id → row.project = none ∨ row.project = args.project →
      OneWritten args existing rows (updateWhere (fun r => r.id == row.id) (fun _ => revised) rows)

/-- A save writes no row but the one that its lookup returned, and its upsert does not fail over
another row or none. -/
structure Isolated (svc : MemoryService) (args : SaveArgs) (s : Store) : Prop where
  writes : ∀ existing t out u, (svc.existingForTopic args).Runs Store.serve s (.ok existing) t →
    (svc.saveFound args existing).Runs Store.serve t out u →
      OneWritten args existing s.1.observations.rows u.1.observations.rows
  selects : Accepted svc args → ∀ key ∈ args.topicKey, normalizeTopicKey svc.repository.lower key ≠ "" →
    ∀ o t, (svc.existingForTopic args).Runs Store.serve s (.ok (some o)) t →
      ∀ pick, svc.repository.Selects t.1.observations key args.project pick →
        ∃ row, pick = some row ∧ row.id = o.val.id

/-- Every row that the lookup of a topic may return, and that can be read, prevails in the upsert. -/
def Agrees (svc : MemoryService) (args : SaveArgs) (t : ObservationTable) : Prop :=
  Accepted svc args → ∀ key ∈ args.topicKey, normalizeTopicKey svc.repository.lower key ≠ "" →
    ∀ row, t.Finds (normalizeTopicKey svc.repository.lower key) (args.project.filter (· ≠ "")) (some row) →
      Readable row →
        Prevails (normalizeProject svc.repository.lower args.project)
          (t.withTopicKey (normalizeTopicKey svc.repository.lower key)) row

variable {svc : MemoryService} {args : SaveArgs} {s t : Store} {key : String}

theorem finds_mem {T : ObservationTable} {project : Option String} {row : ObservationRow}
    (h : T.Finds key project (some row)) : row ∈ T.withTopicKey key := by
  unfold ObservationTable.Finds at h
  cases project with
  | none => exact h.1
  | some name => exact List.mem_of_mem_filter h.1

theorem picks_mem {T : ObservationTable} {project : Option String} {row : ObservationRow}
    (h : T.Picks key project (some row)) : row ∈ T.rows := by
  unfold ObservationTable.Picks at h
  split at h
  · exact List.mem_of_mem_filter (List.mem_of_mem_filter h.1)
  · exact List.mem_of_mem_filter h.1

theorem finds_project {T : ObservationTable} {name : String} {row : ObservationRow}
    (h : T.Finds key (some name) (some row)) : row.project = some name ∨ row.project = none := by
  have hmem := List.of_mem_filter h.1
  simpa using hmem

theorem getByTopicKey_runs {repo : ObservationRepository} {project : Option String}
    {out : Except Exn (Option Observation)} :
    (repo.getByTopicKey key project).Runs Store.serve s out t ↔ t = s ∧ ∃ row,
      s.1.observations.Finds (normalizeTopicKey repo.lower key) (project.filter (· ≠ "")) row ∧
        out = row.mapM rowToObservation := by
  constructor
  · intro hrun
    exact hrun.always getByTopicKey_always
  · rintro ⟨rfl, row, hfinds, rfl⟩
    refine ⟨.ok row, t, ⟨⟨rfl, row, hfinds, rfl⟩, rfl⟩, ?_⟩
    exact Program.runs_ofExcept.mpr ⟨rfl, rfl⟩

theorem existingForTopic_runs (haccepted : Accepted svc args) (hkey : args.topicKey = some key)
    {out : Except Exn (Option Observation)} :
    (svc.existingForTopic args).Runs Store.serve s out t ↔ t = s ∧ ∃ row,
      s.1.observations.Finds (normalizeTopicKey svc.repository.lower key) (args.project.filter (· ≠ "")) row ∧
        out = row.mapM rowToObservation := by
  have hne : key ≠ "" := (haccepted "a" 0 (by decide)).topicKey key hkey
  rw [existingForTopic_eq hkey hne]
  exact getByTopicKey_runs

theorem Isolated.agrees (h : Isolated svc args s) : Agrees svc args s.1.observations := by
  intro haccepted key hkey hempty row hfinds hreadable
  obtain ⟨o, ho⟩ := hreadable
  have hread : (some row).mapM rowToObservation = .ok (some o) := by simp [ho]
  have hrun := (existingForTopic_runs haccepted hkey).mpr ⟨rfl, some row, hfinds, hread.symm⟩
  have hrow := finds_mem hfinds
  refine (picks_iff_prevails hrow).mp fun pick hpick => ?_
  obtain ⟨picked, rfl, hid⟩ := h.selects haccepted key hkey hempty o s hrun pick hpick
  have hpicked := picks_mem hpick
  rw [rowToObservation_id ho] at hid
  exact congrArg some (s.1.observations.isIndexed.ids.eq_of_mem hpicked (List.mem_of_mem_filter hrow)
    (congrArg some hid) rfl)

theorem Agrees.selects (h : Agrees svc args s.1.observations) (haccepted : Accepted svc args)
    (hkey : args.topicKey = some key) (hempty : normalizeTopicKey svc.repository.lower key ≠ "") {o : Observation}
    (hrun : (svc.existingForTopic args).Runs Store.serve s (.ok (some o)) t) {pick : Option ObservationRow}
    (hpick : svc.repository.Selects s.1.observations key args.project pick) :
    ∃ row, pick = some row ∧ row.id = o.val.id ∧ (row.project = none ∨ row.project = args.project) := by
  obtain ⟨-, row, hfinds, hread⟩ := (existingForTopic_runs haccepted hkey).mp hrun
  cases row with
  | none => cases hread
  | some row =>
    obtain ⟨o', ho, hsome⟩ : ∃ o', rowToObservation row = .ok o' ∧ o' = o := by
      cases ho : rowToObservation row with
      | error e => simp [ho] at hread
      | ok o' =>
        simp [ho] at hread
        exact ⟨o', rfl, hread.symm⟩
    subst hsome
    have hprevails := h haccepted key hkey hempty row hfinds ⟨o', ho⟩
    have hpicked := (picks_iff_prevails (finds_mem hfinds)).mpr hprevails pick hpick
    refine ⟨row, hpicked, (rowToObservation_id ho).symm, ?_⟩
    cases hproject : args.project with
    | none =>
      rw [hproject] at hprevails
      exact .inl hprevails.1
    | some name =>
      have hne : name ≠ "" := by
        rintro rfl
        exact (haccepted "a" 0 (by decide)).project "" hproject rfl
      rw [hproject, show (some name).filter (· ≠ "") = some name from if_pos (decide_eq_true hne)] at hfinds
      exact (finds_project hfinds).symm

theorem existingForTopic_store {out : Except Exn (Option Observation)}
    (h : (svc.existingForTopic args).Runs Store.serve s out t) : t = s := by
  unfold MemoryService.existingForTopic at h
  cases hkey : args.topicKey.filter (· ≠ "") with
  | none =>
    rw [hkey] at h
    exact h.2
  | some key =>
    rw [hkey] at h
    exact (getByTopicKey_runs.mp h).1

/-- A save writes the row that its lookup returned, where its upsert picks no other. -/
theorem Agrees.writes (h : Agrees svc args s.1.observations) {existing : Option Observation}
    (hrun : (svc.existingForTopic args).Runs Store.serve s (.ok existing) t) :
    (svc.saveFound args existing).Always Store.serve (fun _ _ => True)
      (fun _ u => OneWritten args existing s.1.observations.rows u.1.observations.rows) t := by
  obtain rfl := existingForTopic_store hrun
  refine saveFound_always (fun e _ => .same) fun o id now haccepted ho => ?_
  cases existing with
  | none =>
    refine create_always (fun e _ => .same) fun u _ hu => ?_
    rw [hu]
    exact .created _ rfl
  | some found =>
    cases hkey : o.val.topicKey with
    | none =>
      unfold ObservationRepository.upsertTopicKey
      rw [hkey]
      exact .same
    | some key =>
      refine upsertTopicKey_always hkey (fun e _ => .same) (fun e _ => .same) (fun e row _ _ => .same) ?_
      intro row T result u hempty hpick hupdate hread hu
      have hkey' : args.topicKey = some key := by
        rw [ho] at hkey
        exact hkey
      have hproject : o.val.project = args.project := by
        rw [ho]
        rfl
      rw [hproject] at hpick
      obtain ⟨row', hrow, hid, hown⟩ := h.selects haccepted hkey' hempty hrun hpick
      cases hrow
      have hrows : T.rows = updateWhere (fun r => r.id == row.id)
          (fun _ => svc.repository.revised o.val key row) t.1.observations.rows :=
        ObservationTable.commit_eq_some.mp hupdate
      rw [hu, hrows]
      exact .revised found row _ rfl (picks_mem hpick) hid rfl hown

/-- A save under a topic is isolated exactly if every row that it may find prevails in its upsert. -/
theorem isolated_iff_agrees : Isolated svc args s ↔ Agrees svc args s.1.observations := by
  constructor
  · exact Isolated.agrees
  · intro h
    refine ⟨fun existing t out u hlookup hsave => ?_, fun haccepted key hkey hempty o t hlookup pick hpick => ?_⟩
    · exact hsave.always (h.writes hlookup)
    · obtain ⟨rfl, -⟩ := (existingForTopic_runs haccepted hkey).mp hlookup
      obtain ⟨row, hrow, hid, -⟩ := h.selects haccepted hkey hempty hlookup hpick
      exact ⟨row, hrow, hid⟩

section Sample

/-- A note without a project, and one of another project, under one key. -/
def looseNote : ObservationRow := { id := "n", timestamp := 0, content := "note", topicKey := some "k" }

def foreignNote : ObservationRow := { looseNote with id := "f", project := some "b" }

def sharedKey : ObservationTable := ⟨[looseNote, foreignNote], indexed_iff.mp rfl⟩

def thirdProject : SaveArgs := { content := "mine", topicKey := some "k", project := some "c" }

theorem thirdProject_accepted : Accepted plainMemory thirdProject :=
  @accepted_of_valid _ _ "i" 0 (postInit_eq_ok.mp rfl)

theorem looseNote_readable : Readable looseNote := ⟨_, rfl⟩

/-- The lookup returns the note without a project, and the upsert prefers the other. -/
theorem foreign_note_picked :
    ¬ ∀ (svc : MemoryService) args s, args.topicKey ≠ none → Isolated svc args s := by
  intro h
  have hagrees := (h plainMemory thirdProject ({ observations := sharedKey }, {}) (by decide)).agrees
  have hfinds : sharedKey.Finds "k" (some "c") (some looseNote) := ⟨by decide, by decide⟩
  have hforeign : foreignNote ∈ sharedKey.withTopicKey "k" := by decide
  rcases hagrees thirdProject_accepted "k" rfl (by decide) looseNote hfinds looseNote_readable with
    ⟨hproject, -⟩ | ⟨hproject, -⟩ | ⟨-, hothers⟩
  · cases hproject
  · exact hproject rfl
  · have hproject := (hothers foreignNote hforeign (by decide)).1
    cases hproject

end Sample

end Isolation

end ForkAgent.Memory

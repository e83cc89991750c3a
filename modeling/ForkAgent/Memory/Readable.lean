import ForkAgent.Memory.Search

/-!
# Readable observations

A row is read back through the checks of the entity. All of its columns were checked when it was
written, but for the project: where the column is empty the metadata decide.
-/

namespace ForkAgent.Memory

open Effects Storage Sync MemoryStore

/-- A value that may be the project of an observation: none, or a name that is not blank. -/
def ProjectReads : Json → Prop
  | .null => True
  | .str name => strip name ≠ "" ∧ '\x00' ∉ name.toList
  | _ => False

theorem projectReads_iff {project : Json} :
    ProjectReads project ↔ ∃ p, optional (readStr "project must be a string or None") project = .ok p ∧
      ∀ name ∈ p, strip name ≠ "" ∧ '\x00' ∉ name.toList := by
  cases project with
  | null => exact iff_of_true trivial ⟨none, rfl, by simp⟩
  | str name =>
    constructor
    · intro h
      refine ⟨some name, rfl, fun name' hname => ?_⟩
      cases hname
      exact h
    · rintro ⟨p, hp, h⟩
      cases hp
      exact h name rfl
  | _ =>
    refine iff_of_false id ?_
    rintro ⟨p, hp, -⟩
    cases hp

/-- What a row is read as, apart from its project. -/
def bareFields (row : ObservationRow) : ObservationFields where
  id := row.id
  timestamp := row.timestamp
  content := row.content
  title := row.title
  metadata := some (row.metadata.getD [])
  idempotencyKey := row.idempotencyKey
  type := ObservationRow.readType row.type (row.metadata.getD [])
  topicKey := row.topicKey
  revisionCount := if row.revisionCount = 0 then 1 else row.revisionCount
  sessionId := row.sessionId

/-- The row can be read. -/
def Readable (row : ObservationRow) : Prop := ∃ o, rowToObservation row = .ok o

theorem reads_args_row {row : ObservationRow} {p : Option String}
    (h : optional (readStr "project must be a string or None")
      (ObservationRow.readProject row.project (row.metadata.getD [])) = .ok p) :
    row.args.Reads { bareFields row with project := p } where
  id := rfl
  timestamp := rfl
  content := rfl
  title := rfl
  metadata := rfl
  idempotencyKey := optional_ofText _ _
  project := h
  type := optional_ofText _ _
  topicKey := optional_ofText _ _
  revisionCount := rfl
  sessionId := rfl

theorem valid_withProject {f : ObservationFields} {p : Option String} (hf : f.project = none) :
    ({ f with project := p } : ObservationFields).Valid ↔
      f.Valid ∧ ∀ name ∈ p, strip name ≠ "" ∧ '\x00' ∉ name.toList := by
  constructor
  · intro h
    refine ⟨⟨h.id, h.timestamp, h.contentNull, h.content, h.idempotencyKey, h.topicKey, h.topicKeySpaces,
      h.topicKeyNull, h.topicKeyLength, h.revisionCount, h.type, ?_, ?_⟩, fun name hname =>
      ⟨h.project name hname, h.projectNull name hname⟩⟩
    · rw [hf]
      simp
    · rw [hf]
      simp
  · rintro ⟨h, hp⟩
    exact ⟨h.id, h.timestamp, h.contentNull, h.content, h.idempotencyKey, h.topicKey, h.topicKeySpaces,
      h.topicKeyNull, h.topicKeyLength, h.revisionCount, h.type, fun name hname => (hp name hname).1,
      fun name hname => (hp name hname).2⟩

theorem readable_iff {row : ObservationRow} :
    Readable row ↔ (bareFields row).Valid ∧
      ProjectReads (ObservationRow.readProject row.project (row.metadata.getD [])) := by
  constructor
  · rintro ⟨o, ho⟩
    have hreads := observation_eq_ok.mp ho
    have hval := hreads.unique (reads_args_row hreads.project)
    have hvalid := postInit_eq_ok.mp o.property
    rw [hval, valid_withProject rfl] at hvalid
    exact ⟨hvalid.1, projectReads_iff.mpr ⟨_, hreads.project, hvalid.2⟩⟩
  · rintro ⟨hbare, hproject⟩
    obtain ⟨p, hp, hproject⟩ := projectReads_iff.mp hproject
    have hvalid := (valid_withProject (p := p) rfl).mpr ⟨hbare, hproject⟩
    exact ⟨⟨_, postInit_eq_ok.mpr hvalid⟩, observation_eq_ok.mpr (reads_args_row hp)⟩

theorem readType_allowed {column : Option String} {metadata : JsonObject} :
    ∀ type ∈ ObservationRow.readType column metadata, type ∈ allowedTypes := by
  have hnormal : ∀ name, ∀ type ∈ ObservationRow.normalizeType name, type ∈ allowedTypes := by
    intro name type h
    simp only [ObservationRow.normalizeType] at h
    split_ifs at h with hname hnormalized
    · cases h
      exact hname
    · cases h
      exact hnormalized
    · cases h
  intro type h
  unfold ObservationRow.readType at h
  split at h
  · next name _ hcolumn =>
    cases h
    obtain ⟨given, -, hgiven⟩ := Option.bind_eq_some_iff.mp hcolumn
    exact hnormal given _ hgiven
  · exact hnormal _ type h
  · cases h

theorem bareFields_valid {repo : ObservationRepository} {f : ObservationFields} (h : f.Valid) :
    (bareFields (repo.row f)).Valid where
  id := h.id
  timestamp := h.timestamp
  contentNull := h.contentNull
  content := h.content
  idempotencyKey := h.idempotencyKey
  topicKey := h.topicKey
  topicKeySpaces := h.topicKeySpaces
  topicKeyNull := h.topicKeyNull
  topicKeyLength := h.topicKeyLength
  revisionCount := by
    have hcount := h.revisionCount
    have hne : f.revisionCount ≠ 0 := by omega
    show 1 ≤ if f.revisionCount = 0 then 1 else f.revisionCount
    rw [if_neg hne]
    exact hcount
  type := readType_allowed
  project := by simp [bareFields]
  projectNull := by simp [bareFields]

section Readers

/-- The operations that list or fetch observations. -/
inductive ReaderOp where
  | getById (observationId : String)
  | getAll (limit offset : Option Int) (type project : Option String)
  | search (query : String) (limit : Option Int) (project : Option String)
  | getByTimestampRange (start stop : Int) (project : Option String)

def ReaderOp.Result : ReaderOp → Type
  | getById _ => Observation
  | _ => List Observation

def ReaderOp.program (repo : ObservationRepository) : (op : ReaderOp) → MemoryProgram op.Result
  | getById observationId => ObservationRepository.getById observationId
  | getAll limit offset type project => repo.getAll limit offset type project
  | search query limit project => repo.search query limit project
  | getByTimestampRange start stop project => repo.getByTimestampRange start stop project

/-- The errors that the checks of an entity raise. -/
def IsValidation : Exn → Prop
  | .typeError _ | .valueError _ => True
  | _ => False

/-- No reader raises an error of the entity's checks. -/
def NeverRefused (repo : ObservationRepository) (s : Store) : Prop :=
  ∀ (op : ReaderOp) out s', (op.program repo).Runs Store.step s out s' →
    ∀ e, out = .error e → ¬ IsValidation e

/-- A computation that raises nothing else. -/
def Checks {α : Type} (x : Except Exn α) : Prop := ∀ e, x = .error e → IsValidation e

theorem Checks.bind {α β : Type} {x : Except Exn α} {f : α → Except Exn β} (hx : Checks x)
    (hf : ∀ a, Checks (f a)) : Checks (x >>= f) := by
  intro e he
  cases x with
  | error e' =>
    cases he
    exact hx e rfl
  | ok a => exact hf a e he

theorem checks_require (condition : Bool) (message : String) :
    Checks (require condition (.valueError message)) := by
  intro e he
  cases condition <;> cases he
  trivial

theorem checks_readStr (message : String) (j : Json) : Checks (readStr message j) := by
  intro e he
  cases j <;> cases he <;> trivial

theorem checks_readInt (message : String) (j : Json) : Checks (readInt message j) := by
  intro e he
  cases j <;> cases he <;> trivial

theorem checks_optional {α : Type} {read : Json → Except Exn α} (hread : ∀ j, Checks (read j)) (j : Json) :
    Checks (optional read j) := by
  intro e he
  have hmap : ∀ j, (read j).map some = .error e → IsValidation e := by
    intro j h
    cases hj : read j with
    | ok a =>
      rw [hj] at h
      cases h
    | error e' =>
      rw [hj] at h
      cases h
      exact hread j e hj
  cases j with
  | null => cases he
  | _ => exact hmap _ he

theorem checks_readDict (message : String) (j : Json) : Checks (readDict message j) := by
  intro e he
  cases j <;> cases he <;> trivial

theorem checks_init (a : ObservationArgs) : Checks a.init := by
  unfold ObservationArgs.init requireSome
  repeat' first
    | exact checks_require _ _
    | exact checks_readStr _ _
    | exact checks_readInt _ _
    | exact checks_optional (checks_readStr _) _
    | exact checks_optional (checks_readDict _) _
    | refine Checks.bind ?_ fun _ => ?_
  intro e he
  cases he

theorem checks_rowToObservation (row : ObservationRow) : Checks (rowToObservation row) := by
  intro e he
  refine checks_init row.args e ?_
  unfold rowToObservation observation at he
  split at he
  · cases he
  · next e' hinit =>
    cases he
    exact hinit

variable {repo : ObservationRepository} {s s' : Store}

theorem mem_of_page {limit offset : Option Int} {rows : List ObservationRow} {row : ObservationRow}
    (h : row ∈ page limit offset rows) : row ∈ rows := by
  unfold page at h
  cases limit with
  | none => exact List.mem_of_mem_drop h
  | some n =>
    simp only at h
    split_ifs at h
    · exact List.mem_of_mem_drop (List.mem_of_mem_take h)
    · exact List.mem_of_mem_drop h

/-- The errors of the reading statements. -/
theorem read_error {c : MemoryCall} (hc : isRead c = true) {e : Exn} {m m' : MemoryStore}
    (h : MemoryStore.step ⟨c, .error e⟩ m m') : ∃ message, e = .operationalError message := by
  obtain hserve | ⟨-, message, hm⟩ := h
  · cases c with
    | selectAll type project limit offset =>
      have hanswer := hserve.2
      split_ifs at hanswer
      · exact ⟨_, Except.error.inj hanswer⟩
      · obtain ⟨rows, -, hr⟩ := hanswer
        cases hr
    | selectById id => cases hserve.2
    | selectByTopicKey key project =>
      obtain ⟨-, row, -, hr⟩ := hserve
      cases hr
    | selectByIdempotencyKey key => cases hserve.2
    | search query project limit =>
      obtain ⟨-, hit, rows, -, hr⟩ := hserve
      cases hr
    | selectByTimestampRange start stop project =>
      obtain ⟨-, rows, -, hr⟩ := hserve
      cases hr
    | countOlderThan cutoff =>
      obtain ⟨-, n, hr⟩ := hserve
      cases hr
    | uuid4 =>
      obtain ⟨-, id, -, hr⟩ := hserve
      cases hr
    | timeMs =>
      obtain ⟨-, now, hr⟩ := hserve
      cases hr
    | _ => cases hc
  · exact ⟨message, Except.error.inj hm⟩

theorem readRows_checked {context : String} {call : MemoryProgram (List ObservationRow)}
    {out : Except Exn (List Observation)}
    (hrun : (ObservationRepository.readRows context call).Runs Store.step s out s')
    (herror : ∀ e, call.Runs Store.step s (.error e) s' → ∃ message, e = .operationalError message)
    (hrows : ∀ rows, call.Runs Store.step s (.ok rows) s' → ∀ row ∈ rows, Readable row) :
    ∀ e, out = .error e → ¬ IsValidation e := by
  rintro e rfl
  obtain ⟨e', hcall, heq⟩ | ⟨rows, hcall, heq⟩ := ObservationRepository.readRows_runs.mp hrun
  · obtain ⟨message, rfl⟩ := herror e' hcall
    cases heq
    exact id
  · obtain ⟨os, hos⟩ := exists_mapM_eq_ok (hrows rows hcall)
    rw [hos] at heq
    cases heq

/-- The readers raise no error of the checks exactly when every row can be read. -/
theorem neverRefused_iff : NeverRefused repo s ↔ ∀ row ∈ s.1.observations.rows, Readable row := by
  constructor
  · intro h row hrow
    have hfound : MemoryStore.step ⟨.selectById row.id, .ok (some row)⟩ s.1 s.1 :=
      .inl ⟨rfl, congrArg Except.ok (findId_of_mem hrow).symm⟩
    have hrun : (ObservationRepository.getById row.id).Runs Store.step s (rowToObservation row) s :=
      statement_bind_runs.mpr (.inr ⟨some row, s.1, hfound, Program.runs_ofExcept.mpr ⟨rfl, rfl⟩⟩)
    cases hread : rowToObservation row with
    | ok o => exact ⟨o, hread⟩
    | error e =>
      exact absurd (checks_rowToObservation row e hread) (h (.getById row.id) _ s hrun e hread)
  · intro hreadable op out s' hrun
    cases op with
    | getById observationId =>
      rintro e rfl
      obtain ⟨e', hstep, -, heq⟩ | ⟨found, t, hstep, hrest⟩ := statement_bind_runs.mp hrun
      · obtain ⟨message, rfl⟩ := read_error rfl hstep
        cases heq
        exact id
      · obtain ⟨-, hfound⟩ := serve_of_ok hstep
        have hfound : found = findId observationId s.1.observations.rows := Except.ok.inj hfound
        cases hfind : findId observationId s.1.observations.rows with
        | none =>
          rw [hfound, hfind] at hrest
          cases hrest.1
          exact id
        | some row =>
          rw [hfound, hfind] at hrest
          obtain ⟨o, ho⟩ := hreadable row (mem_of_findId hfind).1
          have heq := (Program.runs_ofExcept.mp hrest).1
          rw [ho] at heq
          cases heq
    | getAll limit offset type project =>
      refine readRows_checked hrun (fun e hcall => read_error rfl (memoryCall_runs.mp hcall).1)
        fun rows hcall row hrow => hreadable row ?_
      have hanswer := (serve_of_ok (memoryCall_runs.mp hcall).1).2
      split_ifs at hanswer
      obtain ⟨listed, hlisting, heq⟩ := hanswer
      cases heq
      exact List.mem_of_mem_filter ((hlisting.mem_iff row).mp (mem_of_page hrow))
    | search query limit project =>
      have hrun : (repo.search query limit project).Runs Store.step s out s' := hrun
      unfold ObservationRepository.search at hrun
      by_cases hquery : ObservationRepository.sanitizeFtsQuery query = ""
      · rw [if_pos hquery] at hrun
        rintro e rfl
        cases hrun.1
      · rw [if_neg hquery] at hrun
        refine readRows_checked hrun (fun e hcall => read_error rfl (memoryCall_runs.mp hcall).1)
          fun rows hcall row hrow => hreadable row ?_
        obtain ⟨hit, listed, hlisting, heq⟩ := (serve_of_ok (memoryCall_runs.mp hcall).1).2
        cases heq
        exact List.mem_of_mem_filter ((hlisting.mem_iff row).mp (mem_of_page hrow))
    | getByTimestampRange start stop project =>
      refine readRows_checked hrun (fun e hcall => read_error rfl (memoryCall_runs.mp hcall).1)
        fun rows hcall row hrow => hreadable row ?_
      obtain ⟨listed, hlisting, heq⟩ := (serve_of_ok (memoryCall_runs.mp hcall).1).2
      cases heq
      exact List.mem_of_mem_filter ((hlisting.mem_iff row).mp hrow)

end Readers

section Writers

/-- The operations of the repository and cleanups, side by side, from an empty database. -/
def repositorySystem (repo : ObservationRepository) : System storeSignature Exn Store where
  Op := RepositoryOp
  Result := RepositoryOp.Result
  program := RepositoryOp.program repo
  step := Store.step
  outside _ _ := False
  initial s := s.1 = {}

variable {repo : ObservationRepository}

/-- What an operation inserts or updates are the columns of an observation. -/
def WritesObservation (repo : ObservationRepository) : storeSignature.Call → Prop
  | .inl (.insert row) | .inl (.update row) => ∃ o : Observation, row = repo.row o.val
  | _ => True

theorem onlyCalls_statement {f : Exn → Exn} {c : MemoryCall} {α : Type} {k : c.Value → MemoryProgram α}
    (hc : WritesObservation repo (.inl c)) (hk : ∀ v, (k v).OnlyCalls (WritesObservation repo)) :
    (raising f (memoryCall c) >>= k).OnlyCalls (WritesObservation repo) := by
  have hcall : (memoryCall c).OnlyCalls (WritesObservation repo) := .perform (σ := storeSignature) hc
  exact (hcall.handle fun e => Program.onlyCalls_fail (f e)).bind hk

theorem onlyCalls_recordMutation (op : MutationOp) (entityKey : String) (project : Option String)
    (payload : JsonObject) :
    (repo.recordMutation op entityKey project payload).OnlyCalls (WritesObservation repo) := by
  unfold ObservationRepository.recordMutation
  split_ifs
  · have hcall : (syncCall (.recordMutation entityKey op payload (project.getD ""))).OnlyCalls
        (WritesObservation repo) := .perform (σ := storeSignature) trivial
    exact (hcall.bind fun _ => Program.onlyCalls_ret ()).handle fun _ => Program.onlyCalls_ret ()
  · trivial

theorem create_writes (o : Observation) : (repo.create o).OnlyCalls (WritesObservation repo) :=
  onlyCalls_statement ⟨o, rfl⟩ fun _ => onlyCalls_recordMutation _ _ _ _

theorem upsert_writes (o : Observation) : (repo.upsertTopicKey o).OnlyCalls (WritesObservation repo) := by
  obtain ⟨e, hrefused, -⟩ | ⟨topicKey, -, -, hprogram⟩ := repo.upsertTopicKey_cases o
  · rw [hrefused]
    exact Program.onlyCalls_fail e
  · rw [hprogram]
    refine onlyCalls_statement (c := repo.upsertCall o topicKey) trivial fun result => ?_
    exact (onlyCalls_recordMutation _ _ _ _).bind fun _ => Program.onlyCalls_ret result

theorem onlyCalls_read {c : MemoryCall} (hc : WritesObservation repo (.inl c)) {α : Type}
    {k : c.Value → MemoryProgram α} (hk : ∀ v, (k v).OnlyCalls (WritesObservation repo)) :
    (memoryCall c >>= k).OnlyCalls (WritesObservation repo) := by
  have hcall : (memoryCall c).OnlyCalls (WritesObservation repo) := .perform (σ := storeSignature) hc
  exact hcall.bind hk

theorem saveEvent_writes (content : String) (metadata : JsonObject) (idempotencyKey : String) :
    (repo.saveEvent content metadata idempotencyKey).OnlyCalls (WritesObservation repo) := by
  have hlookup : (ObservationRepository.getByIdempotencyKey idempotencyKey).OnlyCalls
      (WritesObservation repo) := onlyCalls_statement trivial fun row => Program.OnlyCalls.ofExcept _
  refine hlookup.bind fun existing => ?_
  cases existing with
  | some existing => trivial
  | none =>
    refine onlyCalls_read (c := .timeMs) trivial fun now => onlyCalls_read (c := .uuid4) trivial fun id => ?_
    refine (Program.OnlyCalls.ofExcept _).bind fun o => ?_
    exact (create_writes o).bind fun _ => Program.onlyCalls_ret id

theorem cleanup_writes (days : Int) (dryRun : Bool) :
    (CleanupService.cleanupOldObservations days dryRun).OnlyCalls (WritesObservation repo) := by
  unfold CleanupService.cleanupOldObservations
  by_cases hdays : days ≤ 0
  · rw [if_pos hdays]
    trivial
  · rw [if_neg hdays]
    refine onlyCalls_read (c := .timeMs) trivial fun now => ?_
    cases dryRun with
    | true => exact onlyCalls_statement trivial fun _ => trivial
    | false => exact onlyCalls_statement trivial fun _ => trivial

theorem op_writes (op : RepositoryOp) : (op.program repo).OnlyCalls (WritesObservation repo) := by
  cases op with
  | create o => exact create_writes o
  | update o =>
    refine onlyCalls_statement ⟨o, rfl⟩ fun found => ?_
    cases found with
    | true => exact onlyCalls_recordMutation _ _ _ _
    | false => trivial
  | upsertTopicKey o => exact upsert_writes o
  | delete observationId =>
    refine onlyCalls_statement trivial fun found => ?_
    cases found with
    | true => exact onlyCalls_recordMutation _ _ _ _
    | false => trivial
  | saveEvent content metadata idempotencyKey => exact saveEvent_writes content metadata idempotencyKey
  | mergeProjects canonical sources => exact onlyCalls_statement trivial fun _ => trivial
  | cleanupOldObservations days dryRun => exact cleanup_writes days dryRun

/-- The row that an answer has written, if its project is in doubt, reads its project. -/
def KeepsProject (a : Answered storeSignature Exn) (rows : List ObservationRow) : Prop :=
  match a with
  | ⟨.inl (.insert row), .ok _⟩ => ProjectReads (ObservationRow.readProject row.project (row.metadata.getD []))
  | ⟨.inl (.update row), .ok found⟩ =>
    (found : Bool) = true → ProjectReads (ObservationRow.readProject row.project (row.metadata.getD []))
  | ⟨.inl (.mergeProjects canonical sources), .ok _⟩ => ∀ row ∈ rows,
    (∃ src ∈ sources, row.project = some src) →
      ProjectReads (ObservationRow.readProject (some canonical) (row.metadata.getD []))
  | _ => True

theorem readable_written {o : Observation} :
    Readable (repo.row o.val) ↔
      ProjectReads (ObservationRow.readProject (repo.row o.val).project ((repo.row o.val).metadata.getD [])) :=
  readable_iff.trans (and_iff_right (bareFields_valid (postInit_eq_ok.mp o.property)))

theorem merged_withProject (canonical : String) (sources : List String) (row : ObservationRow) :
    merged canonical sources row = { row with project := (merged canonical sources row).project } := by
  induction sources generalizing row with
  | nil => rfl
  | cons src sources ih =>
    rw [merged_cons, ih]
    split_ifs <;> rfl

theorem readable_merged {canonical : String} {sources : List String} {row : ObservationRow}
    (h : Readable row) :
    Readable (merged canonical sources row) ↔ ((∃ src ∈ sources, row.project = some src) →
      ProjectReads (ObservationRow.readProject (some canonical) (row.metadata.getD []))) := by
  by_cases hmoved : ∃ src ∈ sources, row.project = some src
  · rw [forall_prop_of_true hmoved, merged_withProject, merged_project, if_pos hmoved]
    exact readable_iff.trans (and_iff_right (readable_iff.mp h).1)
  · rw [merged_withProject, merged_project, if_neg hmoved]
    exact iff_of_true h fun hmoved' => absurd hmoved' hmoved

/-- A call that writes keeps all rows readable exactly if the project of what it writes is. -/
theorem readable_step {a : Answered storeSignature Exn} {s s' : Store}
    (hwrites : WritesObservation repo a.call) (hstep : Store.step a s s')
    (h : ∀ row ∈ s.1.observations.rows, Readable row) :
    (∀ row ∈ s'.1.observations.rows, Readable row) ↔ KeepsProject a s.1.observations.rows := by
  obtain ⟨c | c, r⟩ := a
  · obtain ⟨hmemory, -⟩ := hstep
    cases r with
    | error e =>
      rw [step_error hmemory]
      cases c <;> exact iff_of_true h trivial
    | ok v =>
      cases c with
      | insert row =>
        obtain ⟨o, rfl⟩ := hwrites
        rw [(insert_ok hmemory).2, List.forall_mem_append, List.forall_mem_singleton, and_iff_right h]
        exact readable_written
      | update row =>
        obtain ⟨o, rfl⟩ := hwrites
        obtain ⟨rfl, old, hold, -, hrows⟩ | ⟨rfl, hsame, -⟩ := update_ok hmemory
        · rw [hrows]
          constructor
          · intro hall _
            exact readable_written.mp (hall _ (mem_updateWhere.mpr (.inl ⟨old, hold, by simp, rfl⟩)))
          · intro hkeeps row hrow
            have hnew : Readable (repo.row o.val) := readable_written.mpr (hkeeps rfl)
            obtain ⟨_, -, -, rfl⟩ | ⟨hrow, -⟩ := mem_updateWhere.mp hrow
            · exact hnew
            · exact h row hrow
        · rw [hsame]
          refine iff_of_true h fun hfound => ?_
          cases hfound
      | upsertTopicKey o key project =>
        obtain ⟨old, -, -, -, hread, hrows⟩ := upsert_row hmemory
        refine iff_of_true (fun row hrow => ?_) trivial
        rw [hrows] at hrow
        obtain ⟨_, -, -, rfl⟩ | ⟨hrow, -⟩ := mem_updateWhere.mp hrow
        · exact ⟨_, hread⟩
        · exact h row hrow
      | mergeProjects canonical sources =>
        obtain ⟨moved, t, hmoved, hafter⟩ := merge_ok hmemory
        rw [hafter, moveProjects_rows hmoved, List.forall_mem_map]
        exact forall₂_congr fun row hrow => readable_merged (h row hrow)
      | delete id =>
        refine iff_of_true (fun row hrow => h row ?_) trivial
        obtain ⟨-, old, -, -, hrows⟩ | ⟨-, hsame, -⟩ := delete_ok hmemory
        · rw [hrows] at hrow
          exact List.mem_of_mem_filter hrow
        · rwa [hsame] at hrow
      | deleteOlderThan cutoff =>
        refine iff_of_true (fun row hrow => h row ?_) trivial
        rw [cleanup_ok hmemory] at hrow
        exact List.mem_of_mem_filter hrow
      | _ =>
        rw [(serve_of_ok hmemory).1]
        exact iff_of_true h trivial
  · rw [hstep.2]
    cases r <;> exact iff_of_true h trivial

theorem readable_of_keeps {tr : List (repositorySystem repo).Event} {cfg : (repositorySystem repo).Config}
    (run : (repositorySystem repo).Run tr cfg)
    (hkeeps : ∀ e ∈ tr, KeepsProject e.answered e.before.1.observations.rows) :
    ∀ row ∈ cfg.store.1.observations.rows, Readable row := by
  refine run.invariant (I := fun s : Store => ∀ row ∈ s.1.observations.rows, Readable row) ?_ ?_ ?_
  · rintro s hs row hrow
    rw [hs] at hrow
    cases hrow
  · intro e he h
    have hwrites := run.onlyCalls op_writes he
    exact (readable_step hwrites (run.step_of_mem he) h).mpr (hkeeps e he)
  · intro s s' h houtside
    exact houtside.elim

/-- The readers never raise an error of the checks, at the start of any call or at the end, exactly
in the runs in which every write reads its project. -/
theorem never_refused_iff_keeps {tr : List (repositorySystem repo).Event}
    {cfg : (repositorySystem repo).Config} (run : (repositorySystem repo).Run tr cfg) :
    ((∀ e ∈ tr, NeverRefused repo e.before) ∧ NeverRefused repo cfg.store) ↔
      ∀ e ∈ tr, KeepsProject e.answered e.before.1.observations.rows := by
  constructor
  · intro hreads
    induction run with
    | initial => simp
    | invoke run i fresh op ih => exact ih hreads
    | @call tr s ss run i op c next running r s' step ih =>
      obtain ⟨hbefore, hend⟩ := hreads
      rw [List.forall_mem_append, List.forall_mem_singleton] at hbefore ⊢
      refine ⟨ih hbefore, ?_⟩
      have hwrites := (run.call running step).onlyCalls op_writes
        (List.mem_append_right _ (List.mem_singleton_self _))
      exact (readable_step hwrites step (neverRefused_iff.mp hbefore.2)).mp (neverRefused_iff.mp hend)
    | outside run houtside ih => exact houtside.elim
  · intro hkeeps
    refine ⟨fun e he => neverRefused_iff.mpr ?_, neverRefused_iff.mpr (readable_of_keeps run hkeeps)⟩
    obtain ⟨pre, post, rfl⟩ := List.append_of_mem he
    obtain ⟨ss, next, hsplit, -⟩ := run.split rfl
    exact readable_of_keeps hsplit fun d hd => hkeeps d (List.mem_append_left _ hd)

section Sample

/-- A note without a project of its own; its metadata name a number. -/
def numberedNote : Observation :=
  ⟨{ id := "n", timestamp := 0, content := "note", metadata := some [("project", .int 5)] }, rfl⟩

/-- Serving both databases. -/
def respondStore (ω : Surroundings) (c : storeSignature.Call) (s : Store) :
    Option (Except Exn (storeSignature.Value c) × Store) := some (Store.respond ω c s)

theorem numberedNote_created :
    ∃ tr cfg, (repositorySystem plainRepository).Run tr cfg ∧
      plainRepository.row numberedNote.val ∈ cfg.store.1.observations.rows := by
  obtain ⟨tr, cfg, hplay, hrow⟩ : ∃ tr cfg, (repositorySystem plainRepository).play respondStore
      [.invoke 0 (.create numberedNote), .call 0 { id := "a" }] ⟨({}, {}), fun _ => none⟩ =
        some (tr, cfg) ∧ plainRepository.row numberedNote.val ∈ cfg.store.1.observations.rows :=
    ⟨_, _, rfl, .head _⟩
  have hinitial : (repositorySystem plainRepository).Run [] ⟨({}, {}), fun _ => none⟩ := .initial rfl
  refine ⟨tr, cfg, hinitial.play (fun ω c s r s' h => Store.step_of_serve ?_) hplay, hrow⟩
  have hserve := Store.respond_serve ω c s
  rwa [Option.some.inj h] at hserve

/-- No reader gets past the note. -/
theorem created_note_refused :
    ¬ ∀ (repo : ObservationRepository) tr cfg, (repositorySystem repo).Run tr cfg →
      NeverRefused repo cfg.store := by
  intro h
  obtain ⟨tr, cfg, hrun, hrow⟩ := numberedNote_created
  obtain ⟨o, ho⟩ := neverRefused_iff.mp (h _ tr cfg hrun) _ hrow
  have hrefused : rowToObservation (plainRepository.row numberedNote.val) =
      .error (.typeError "project must be a string or None") := rfl
  rw [hrefused] at ho
  cases ho

theorem never_refused_iff_keeps_sample :
    ∃ tr cfg, (repositorySystem plainRepository).Run tr cfg ∧ cfg.store.1.observations.rows ≠ [] ∧
      (((∀ e ∈ tr, NeverRefused plainRepository e.before) ∧ NeverRefused plainRepository cfg.store) ↔
        ∀ e ∈ tr, KeepsProject e.answered e.before.1.observations.rows) := by
  obtain ⟨tr, cfg, hrun, hrow⟩ := numberedNote_created
  exact ⟨tr, cfg, hrun, List.ne_nil_of_mem hrow, never_refused_iff_keeps hrun⟩

end Sample

end Writers

end ForkAgent.Memory

import ForkAgent.Memory.Events
import ForkAgent.Memory.Saves
import ForkAgent.Redaction.Metadata

/-!
# Private blocks in stored texts

Four operations of the memory service store texts. Two of them redact the content and the metadata of
an observation first. Titles, events and prompts are stored as they are given.
-/

namespace ForkAgent.Memory

open Effects Storage Sync Redaction Text

section Texts

/-- There is no private block in the text. -/
def NoBlock (text : String) : Prop := ¬ privateTag.Block text.toList

mutual

/-- No string of a value has a private block, at any depth. -/
def Unblocked : Json → Prop
  | .str s => NoBlock s
  | .arr items => UnblockedItems items
  | .obj fields => UnblockedFields fields
  | _ => True

def UnblockedItems : List Json → Prop
  | [] => True
  | value :: values => Unblocked value ∧ UnblockedItems values

def UnblockedFields : List (String × Json) → Prop
  | [] => True
  | (key, value) :: fields => NoBlock key ∧ Unblocked value ∧ UnblockedFields fields

end

mutual

/-- Redaction takes every private block out of a value: there is none in its keys, and none in the
arrays that no sensitive key stands before. -/
def Redactable (lower : String → String) : Json → Prop
  | .arr items => UnblockedItems items
  | .obj fields => RedactableFields lower fields
  | _ => True

def RedactableFields (lower : String → String) : List (String × Json) → Prop
  | [] => True
  | (key, value) :: fields => NoBlock key ∧ (isSensitive lower key = false → Redactable lower value) ∧
      RedactableFields lower fields

end

variable {lower : String → String}

theorem noBlock_of_not_mem {text : String} (h : '<' ∉ text.toList) : NoBlock text := by
  rintro ⟨before, opening, inner, closing, after, heq, hopening, -⟩
  obtain ⟨rest, rfl⟩ := hopening.cons
  apply h
  rw [heq]
  simp [privateTag]

theorem noBlock_redacted : NoBlock "[REDACTED]" := noBlock_of_not_mem (by decide)

mutual

theorem redactValue_unblocked_iff (value : Json) :
    Unblocked (redactValue lower value).1 ↔ Redactable lower value := by
  cases value with
  | str s => exact iff_of_true (not_block_redactContent s) trivial
  | arr items => exact Iff.rfl
  | obj fields => exact redactMetadata_unblocked_iff fields
  | null => exact Iff.rfl
  | bool b => exact Iff.rfl
  | int n => exact Iff.rfl
  | float text => exact Iff.rfl

theorem redactMetadata_unblocked_iff (fields : List (String × Json)) :
    UnblockedFields (redactMetadata lower fields).1 ↔ RedactableFields lower fields := by
  match fields with
  | [] => exact Iff.rfl
  | (key, value) :: fields =>
    rw [redactMetadata, RedactableFields, ← redactMetadata_unblocked_iff fields]
    cases hkey : isSensitive lower key with
    | true => simp [UnblockedFields, Unblocked, noBlock_redacted]
    | false => simp [UnblockedFields, ← redactValue_unblocked_iff value]

end

theorem redactObservationData_content (content : String) (metadata : Option JsonObject) :
    (redactObservationData lower content metadata).1 = (redactContent content).1 := by
  unfold redactObservationData
  split
  · rfl
  · rfl

theorem redacted_content_noBlock (content : String) (metadata : Option JsonObject) :
    NoBlock (redactObservationData lower content metadata).1 := by
  rw [redactObservationData_content]
  exact not_block_redactContent content

theorem redacted_metadata_iff (content : String) (metadata : Option JsonObject) :
    (∀ m ∈ (redactObservationData lower content metadata).2.1, UnblockedFields m) ↔
      ∀ m ∈ metadata, RedactableFields lower m := by
  match metadata with
  | none =>
    have hmetadata : (redactObservationData lower content none).2.1 = none := rfl
    simp [hmetadata]
  | some [] =>
    have hmetadata : (redactObservationData lower content (some [])).2.1 = some [] := rfl
    simp [hmetadata, UnblockedFields, RedactableFields]
  | some (field :: fields) =>
    have hmetadata : (redactObservationData lower content (some (field :: fields))).2.1 =
        some (redactMetadata lower (field :: fields)).1 := rfl
    rw [hmetadata]
    simp only [Option.mem_some_iff, forall_eq']
    exact redactMetadata_unblocked_iff _

end Texts

section Prompts

/-- A row of `prompts`; its id and its time are set by the database. -/
structure PromptRow where
  promptText : String
  role : String
  model : String
  provider : String
  sessionId : Option String
  deriving DecidableEq

inductive PromptCall where
  | insert (row : PromptRow)

def promptSignature : Signature := ⟨PromptCall, fun _ => Nat⟩

/-- An insert answers with the id of the row, or the database fails. -/
def promptStep : Semantics promptSignature Exn (List PromptRow)
  | ⟨.insert row, r⟩, rows, rows' =>
    (∃ lastrowid, r = .ok lastrowid ∧ rows' = rows ++ [row]) ∨
      rows' = rows ∧ ∃ m, r = .error (.operationalError m)

/-- The arguments of `save_prompt`. -/
structure PromptArgs where
  content : String
  project : Option String := none
  sessionId : Option String := none
  role : Option String := none
  model : Option String := none
  provider : Option String := none

namespace PromptArgs

def effectiveSession (args : PromptArgs) : Option String :=
  args.sessionId.or (args.project.map ("manual-save-" ++ ·))

def row (args : PromptArgs) : PromptRow where
  promptText := args.content
  role := args.role.getD ""
  model := args.model.getD ""
  provider := args.provider.getD ""
  sessionId := args.effectiveSession

end PromptArgs

def savePrompt (args : PromptArgs) : Program promptSignature Exn Nat :=
  (Program.perform (σ := promptSignature) (.insert args.row)).handle fun e =>
    throw (sqliteErrorAs "Failed to save prompt" e)

end Prompts

section Operations

/-- The service with the redactor that it calls. -/
def redactingService (repo : ObservationRepository) : MemoryService where
  repository := repo
  redactObservationData content metadata :=
    let redacted := Redaction.redactObservationData repo.lower content metadata
    (redacted.1, redacted.2.1)

/-- The operations that store texts. -/
inductive TextOp where
  | save (args : SaveArgs)
  | update (observationId : String) (args : UpdateArgs)
  | saveEvent (content : String) (metadata : JsonObject) (idempotencyKey : String)
  | savePrompt (args : PromptArgs)

def TextOp.Result : TextOp → Type
  | save _ | update .. => Observation
  | saveEvent .. => String
  | savePrompt _ => Nat

def textSignature : Signature := storeSignature.sum promptSignature

def observations {α : Type} (p : MemoryProgram α) : Program textSignature Exn α := p.lift (.inl _ _)

def TextOp.program (repo : ObservationRepository) : (op : TextOp) → Program textSignature Exn op.Result
  | save args => observations ((redactingService repo).save args)
  | update observationId args => observations ((redactingService repo).update observationId args)
  | saveEvent content metadata idempotencyKey => observations (repo.saveEvent content metadata idempotencyKey)
  | savePrompt args => (Memory.savePrompt args).lift (.inr _ _)

abbrev TextStore := Store × List PromptRow

/-- The texts of an observation have no private block. -/
structure PartsUnblocked (content : String) (title : Option String) (metadata : Option JsonObject) : Prop where
  content : NoBlock content
  title : ∀ t ∈ title, NoBlock t
  metadata : ∀ m ∈ metadata, UnblockedFields m

abbrev RowUnblocked (row : ObservationRow) : Prop := PartsUnblocked row.content row.title row.metadata

abbrev FieldsUnblocked (f : ObservationFields) : Prop := PartsUnblocked f.content f.title f.metadata

/-- No stored text has a private block. -/
structure TextsUnblocked (s : TextStore) : Prop where
  observations : ∀ row ∈ s.1.1.observations.rows, RowUnblocked row
  prompts : ∀ row ∈ s.2, NoBlock row.promptText

/-- Clients that call the allowed operations side by side. What others do to the stores leaves the texts
without private blocks. -/
def textSystem (repo : ObservationRepository) (Allowed : TextOp → Prop) : System textSignature Exn TextStore where
  Op := { op : TextOp // Allowed op }
  Result op := op.val.Result
  program op := op.val.program repo
  step := Store.step.sum promptStep
  outside s s' := TextsUnblocked s → TextsUnblocked s'
  initial := TextsUnblocked

/-- What is given in the place of a title and of metadata lets no private block through. -/
def GivenUnblocked (lower : String → String) (title : Option String) (metadata : Option JsonObject) : Prop :=
  (∀ t ∈ title, NoBlock t) ∧ ∀ m ∈ metadata, RedactableFields lower m

/-- A call stores no private block: its arguments are refused, or what is stored of them as it is given
has none. -/
def TextOp.StoresNoBlock (repo : ObservationRepository) : TextOp → Prop
  | save args => Accepted (redactingService repo) args → GivenUnblocked repo.lower args.title args.metadata
  | update observationId args =>
    (∃ existing : Observation, existing.val.id = observationId ∧
      ((redactingService repo).updated args existing.val).Valid) →
        GivenUnblocked repo.lower args.title args.metadata
  | saveEvent content metadata idempotencyKey =>
    EventArgs.Accepted ⟨repo, content, metadata⟩ idempotencyKey → NoBlock content ∧ UnblockedFields metadata
  | savePrompt args => NoBlock args.content

end Operations

section Step

/-- A row that is read is the one that was asked for, and it has no private block. -/
def ReadsUnblocked : Answered storeSignature Exn → Prop
  | ⟨.inl (.selectById id), .ok found⟩ =>
    ∀ row ∈ (show Option ObservationRow from found), row.id = id ∧ RowUnblocked row
  | _ => True

/-- What is written has no private block. -/
def WritesUnblocked : storeSignature.Call → Prop
  | .inl (.insert row) | .inl (.update row) => RowUnblocked row
  | .inl (.upsertTopicKey o _ _) => FieldsUnblocked o.val
  | .inl c => isRead c = true
  | .inr _ => True

variable {s s' : Store}

theorem readsUnblocked_of_step {a : Answered storeSignature Exn}
    (hs : ∀ row ∈ s.1.observations.rows, RowUnblocked row) (hstep : Store.step a s s') : ReadsUnblocked a := by
  unfold ReadsUnblocked
  split
  · next id found =>
    obtain ⟨-, hfound⟩ := serve_of_ok hstep.1
    cases hfound
    intro row hrow
    exact ⟨by simpa using List.find?_some hrow, hs row (List.mem_of_find?_eq_some hrow)⟩
  · trivial

theorem revise_unblocked {f : ObservationFields} (hf : FieldsUnblocked f) (key : String) (project : Option String)
    (row : ObservationRow) : RowUnblocked (ObservationTable.revise f key project row) := by
  refine ⟨hf.content, hf.title, ?_⟩
  intro m hm
  cases hm
  show UnblockedFields (f.metadata.getD [])
  cases hmetadata : f.metadata with
  | none => trivial
  | some fields => exact hf.metadata fields hmetadata

theorem updateWhere_unblocked {rows : List ObservationRow} (hs : ∀ row ∈ rows, RowUnblocked row)
    {p : ObservationRow → Bool} {row : ObservationRow} (hrow : RowUnblocked row) :
    ∀ r ∈ updateWhere p (fun _ => row) rows, RowUnblocked r := by
  intro r hr
  rcases mem_updateWhere.mp hr with ⟨old, -, -, rfl⟩ | ⟨hold, -⟩
  · exact hrow
  · exact hs r hold

/-- The statements that the operations make keep the rows as they should be. -/
theorem rows_unblocked_step {c : storeSignature.Call} {r : Except Exn (storeSignature.Value c)}
    (hs : ∀ row ∈ s.1.observations.rows, RowUnblocked row) (hc : WritesUnblocked c)
    (hstep : Store.step ⟨c, r⟩ s s') : ∀ row ∈ s'.1.observations.rows, RowUnblocked row := by
  obtain c | c := c
  swap
  · rw [hstep.2]
    exact hs
  obtain e | v := r
  · rw [step_error hstep.1]
    exact hs
  cases c with
  | insert row =>
    intro r hr
    rw [(insert_ok hstep.1).2] at hr
    rcases List.mem_append.mp hr with hr | hr
    · exact hs r hr
    · rw [List.mem_singleton.mp hr]
      exact hc
  | update row =>
    obtain ⟨-, old, -, -, hrows⟩ | ⟨-, hsame, -⟩ := update_ok hstep.1
    · rw [hrows]
      exact updateWhere_unblocked hs hc
    · rw [hsame]
      exact hs
  | upsertTopicKey o key project =>
    obtain ⟨old, -, -, -, -, hrows⟩ := upsert_row hstep.1
    rw [hrows]
    exact updateWhere_unblocked hs (revise_unblocked hc key project old)
  | _ =>
    rw [step_read hc hstep.1]
    exact hs

end Step

section Programs

open Program

variable {repo : ObservationRepository} {α : Type}

theorem onlyCalls_ofExcept_bind {A : storeSignature.Call → Prop} {β : Type} {x : Except Exn β}
    {f : β → MemoryProgram α} (h : ∀ v, x = .ok v → (f v).OnlyCalls A) : (ofExcept x >>= f).OnlyCalls A := by
  cases x with
  | error e => trivial
  | ok v => exact h v rfl

theorem recordMutation_unblocked (op : MutationOp) (entityKey : String) (project : Option String)
    (payload : JsonObject) :
    (repo.recordMutation op entityKey project payload).OnlyCalls WritesUnblocked := by
  unfold ObservationRepository.recordMutation
  split_ifs
  · exact .handle (.bind (.perform trivial) fun _ => trivial) fun _ => trivial
  · trivial

theorem statement_unblocked {c : MemoryCall} (hc : WritesUnblocked (.inl c)) (f : Exn → Exn) :
    (raising f (memoryCall c)).OnlyCalls WritesUnblocked := .handle (.perform hc) fun _ => trivial

theorem create_unblocked {o : Observation} (ho : FieldsUnblocked o.val) :
    (repo.create o).OnlyCalls WritesUnblocked :=
  .bind (statement_unblocked (c := .insert (repo.row o.val)) ho _) fun _ => recordMutation_unblocked _ _ _ _

theorem upsertTopicKey_unblocked {o : Observation} (ho : FieldsUnblocked o.val) :
    (repo.upsertTopicKey o).OnlyCalls WritesUnblocked := by
  obtain ⟨e, hrefused, -⟩ | ⟨key, -, -, hprogram⟩ := repo.upsertTopicKey_cases o
  · rw [hrefused]
    exact onlyCalls_fail e
  · rw [hprogram]
    refine .bind (statement_unblocked (c := repo.upsertCall o key) ho _) fun _ => ?_
    exact .bind (recordMutation_unblocked _ _ _ _) fun _ => onlyCalls_ret _

theorem update_unblocked {o : Observation} (ho : FieldsUnblocked o.val) :
    (repo.update o).OnlyCalls WritesUnblocked := by
  refine .bind (statement_unblocked (c := .update (repo.row o.val)) ho _) fun found => ?_
  cases found with
  | true => exact recordMutation_unblocked _ _ _ _
  | false => exact onlyCalls_fail _

theorem getByTopicKey_unblocked (topicKey : String) (project : Option String) :
    (repo.getByTopicKey topicKey project).OnlyCalls WritesUnblocked :=
  .bind (statement_unblocked (c := .selectByTopicKey _ _) rfl _) fun _ => .ofExcept _

theorem saved_unblocked {args : SaveArgs} (h : GivenUnblocked repo.lower args.title args.metadata) (id : String)
    (now : Nat) : FieldsUnblocked ((redactingService repo).saved args id now) :=
  ⟨redacted_content_noBlock _ _, h.1, (redacted_metadata_iff _ _).mpr h.2⟩

theorem save_unblocked {args : SaveArgs} (h : (TextOp.save args).StoresNoBlock repo) :
    ((redactingService repo).save args).OnlyCalls WritesUnblocked := by
  have hexisting : ((redactingService repo).existingForTopic args).OnlyCalls WritesUnblocked := by
    unfold MemoryService.existingForTopic
    split
    · trivial
    · exact getByTopicKey_unblocked _ _
  refine .bind hexisting fun existing => .bind (.perform rfl) fun id => .bind (.perform rfl) fun now => ?_
  refine onlyCalls_ofExcept_bind fun o ho => ?_
  have hval := construct_eq_ok.mp ho
  have haccepted : Accepted (redactingService repo) args :=
    accepted_of_valid (hval ▸ postInit_eq_ok.mp o.property)
  have hunblocked : FieldsUnblocked o.val := hval ▸ saved_unblocked (h haccepted) id now
  cases existing with
  | some _ => exact upsertTopicKey_unblocked hunblocked
  | none => exact .bind (create_unblocked hunblocked) fun _ => trivial

theorem saveEvent_unblocked {content : String} {metadata : JsonObject} {idempotencyKey : String}
    (h : (TextOp.saveEvent content metadata idempotencyKey).StoresNoBlock repo) :
    (repo.saveEvent content metadata idempotencyKey).OnlyCalls WritesUnblocked := by
  have hexisting := statement_unblocked (c := .selectByIdempotencyKey idempotencyKey) rfl
  refine .bind (.bind (hexisting _) fun _ => .ofExcept _) fun existing => ?_
  cases existing with
  | some existing => trivial
  | none =>
    refine .bind (.perform rfl) fun now => .bind (.perform rfl) fun id => ?_
    refine onlyCalls_ofExcept_bind fun o ho => ?_
    have hval := construct_eq_ok.mp ho
    have hvalid : (ObservationRepository.event content metadata idempotencyKey now id).Valid :=
      hval ▸ postInit_eq_ok.mp o.property
    obtain ⟨hcontent, hmetadata⟩ := h ((event_valid hvalid.id).mp hvalid)
    have hunblocked : FieldsUnblocked o.val := by
      rw [hval]
      exact ⟨hcontent, by simp [ObservationRepository.event], by simpa [ObservationRepository.event] using hmetadata⟩
    exact .bind (create_unblocked hunblocked) fun _ => trivial

theorem updated_unblocked {args : UpdateArgs} (h : GivenUnblocked repo.lower args.title args.metadata)
    {existing : ObservationFields} (hexisting : FieldsUnblocked existing) :
    FieldsUnblocked ((redactingService repo).updated args existing) := by
  refine ⟨?_, ?_, ?_⟩
  · show NoBlock (if args.content.isSome then _ else existing.content)
    split_ifs
    · exact redacted_content_noBlock _ _
    · exact hexisting.content
  · show ∀ t ∈ args.title.or existing.title, NoBlock t
    intro t ht
    cases htitle : args.title with
    | none =>
      rw [htitle] at ht
      exact hexisting.title t ht
    | some title =>
      rw [htitle] at ht
      cases ht
      exact h.1 t htitle
  · show ∀ m ∈ if args.metadata.isSome then _ else existing.metadata, UnblockedFields m
    split_ifs
    · exact (redacted_metadata_iff _ _).mpr h.2
    · exact hexisting.metadata

theorem read_unblocked {row : ObservationRow} {o : Observation} (hrow : RowUnblocked row)
    (h : rowToObservation row = .ok o) : FieldsUnblocked o.val := by
  have hreads := observation_eq_ok.mp h
  have hcontent : row.content = o.val.content := Except.ok.inj hreads.content
  have hmetadata : some (row.metadata.getD []) = o.val.metadata := Except.ok.inj hreads.metadata
  have htitle : o.val.title = row.title := hreads.title
  refine ⟨hcontent ▸ hrow.content, htitle ▸ hrow.title, ?_⟩
  rw [← hmetadata]
  intro m hm
  cases hm
  cases hfields : row.metadata with
  | none => exact trivial
  | some fields => exact hrow.metadata fields hfields

theorem getById_ensures (observationId : String) :
    (ObservationRepository.getById observationId).Ensures
      (fun own c => (∀ a ∈ own, ReadsUnblocked a) → WritesUnblocked c)
      (fun own out => ∀ o, out = .ok o → (∀ a ∈ own, ReadsUnblocked a) →
        o.val.id = observationId ∧ FieldsUnblocked o.val) [] := by
  refine statement_ensures.mpr ⟨fun _ => rfl, fun found => ?_, fun e o ho => nomatch ho⟩
  match found with
  | none => exact fun o ho => nomatch ho
  | some row =>
    cases hread : rowToObservation row with
    | error e =>
      show (ofExcept (rowToObservation row)).Ensures _ _ _
      rw [hread]
      exact fun o ho => nomatch ho
    | ok o =>
      show (ofExcept (rowToObservation row)).Ensures _ _ _
      rw [hread]
      intro o' ho hreads
      cases ho
      have hanswer := hreads ⟨.inl (.selectById observationId), .ok (some row)⟩ (List.mem_singleton_self _)
      obtain ⟨hid, hrow⟩ := hanswer row rfl
      exact ⟨(rowToObservation_id hread).trans hid, read_unblocked hrow hread⟩

theorem ensures_of_not_reads (p : MemoryProgram α) {own : List (Answered storeSignature Exn)}
    (h : ¬ ∀ a ∈ own, ReadsUnblocked a) :
    p.Ensures (fun own c => (∀ a ∈ own, ReadsUnblocked a) → WritesUnblocked c) (fun _ _ => True) own := by
  induction p generalizing own with
  | ret a => trivial
  | fail e => trivial
  | call c next ih =>
    refine ⟨fun hreads => absurd hreads h, fun r => ih r fun hreads => h fun a ha => ?_⟩
    exact hreads a (List.mem_append_left _ ha)

theorem update_ensures {observationId : String} {args : UpdateArgs}
    (h : (TextOp.update observationId args).StoresNoBlock repo) :
    ((redactingService repo).update observationId args).Ensures
      (fun own c => (∀ a ∈ own, ReadsUnblocked a) → WritesUnblocked c) (fun _ _ => True) [] := by
  refine (getById_ensures observationId).bind (fun own existing hexisting => ?_) fun _ _ _ => trivial
  refine (ensures_ofExcept_bind _ _).mpr ⟨fun o ho => ?_, fun _ _ => trivial⟩
  have hval := construct_eq_ok.mp ho
  by_cases hreads : ∀ a ∈ own, ReadsUnblocked a
  · obtain ⟨hid, hunblocked⟩ := hexisting existing rfl hreads
    have hvalid : ((redactingService repo).updated args existing.val).Valid :=
      hval ▸ postInit_eq_ok.mp o.property
    have ho : FieldsUnblocked o.val := hval ▸ updated_unblocked (h ⟨existing, hid, hvalid⟩) hunblocked
    have hwrites := (@update_unblocked repo o ho).bind (f := fun _ => Program.ret o) fun _ => onlyCalls_ret o
    exact hwrites.ensures (fun _ _ hc _ => hc) fun _ _ => trivial
  · exact ensures_of_not_reads _ hreads

end Programs

section Run

open Program

variable {repo : ObservationRepository} {Allowed : TextOp → Prop}

def TextReads : Answered textSignature Exn → Prop
  | ⟨.inl c, r⟩ => ReadsUnblocked ⟨c, r⟩
  | ⟨.inr _, _⟩ => True

def TextWrites : textSignature.Call → Prop
  | .inl c => WritesUnblocked c
  | .inr (.insert row) => NoBlock row.promptText

theorem textReads_lift {a : Answered storeSignature Exn} (h : TextReads (.lift (.inl _ promptSignature) a)) :
    ReadsUnblocked a := by
  obtain ⟨c, e | v⟩ := a
  · exact h
  · exact h

theorem observations_ensures {α : Type} {p : MemoryProgram α}
    (hp : p.Ensures (fun own c => (∀ a ∈ own, ReadsUnblocked a) → WritesUnblocked c) (fun _ _ => True) []) :
    (observations p).Ensures (fun own c => (∀ a ∈ own, TextReads a) → TextWrites c) (fun _ _ => True) [] := by
  refine Ensures.lift (h := []) (k := []) (.inl storeSignature promptSignature) (hp.mono ?_ fun _ _ h => h)
  intro own c hc hreads
  exact hc fun a ha => textReads_lift (hreads _ (List.mem_map_of_mem ha))

theorem op_ensures {op : TextOp} (h : op.StoresNoBlock repo) :
    (op.program repo).Ensures (fun own c => (∀ a ∈ own, TextReads a) → TextWrites c) (fun _ _ => True) [] := by
  cases op with
  | save args =>
    exact observations_ensures ((save_unblocked h).ensures (fun _ _ hc _ => hc) fun _ _ => trivial)
  | update observationId args => exact observations_ensures (update_ensures h)
  | saveEvent content metadata idempotencyKey =>
    exact observations_ensures ((saveEvent_unblocked h).ensures (fun _ _ hc _ => hc) fun _ _ => trivial)
  | savePrompt args =>
    have hwrites : ((savePrompt args).lift (.inr storeSignature promptSignature)).OnlyCalls TextWrites :=
      .lift (.handle (.perform h) fun _ => trivial)
    exact hwrites.ensures (fun _ _ hc _ => hc) fun _ _ => trivial

theorem texts_unblocked_step {c : textSignature.Call} {r : Except Exn (textSignature.Value c)} {s s' : TextStore}
    (hs : TextsUnblocked s) (hc : TextWrites c) (hstep : Store.step.sum promptStep ⟨c, r⟩ s s') :
    TextsUnblocked s' := by
  cases c with
  | inl c =>
    refine ⟨rows_unblocked_step hs.observations hc hstep.1, ?_⟩
    rw [hstep.2]
    exact hs.prompts
  | inr c =>
    obtain ⟨row⟩ := c
    obtain ⟨hinsert, hsame⟩ := hstep
    refine ⟨by rw [hsame]; exact hs.observations, ?_⟩
    obtain ⟨_, -, hrows⟩ | ⟨hrows, -⟩ := hinsert
    · rw [hrows]
      intro prompt hprompt
      rcases List.mem_append.mp hprompt with hprompt | hprompt
      · exact hs.prompts prompt hprompt
      · rw [List.mem_singleton.mp hprompt]
        exact hc
    · rw [hrows]
      exact hs.prompts

theorem run_texts_unblocked (h : ∀ op, Allowed op → op.StoresNoBlock repo)
    {tr : List (textSystem repo Allowed).Event} {cfg : (textSystem repo Allowed).Config}
    (run : (textSystem repo Allowed).Run tr cfg) : TextsUnblocked cfg.store := by
  refine (run.invariant_reads (fun _ hs => hs) ?_ fun s s' hs houtside => houtside hs).2
  intro pre e post htr hreads hs
  have hwrites := run.ensures_event htr (op_ensures (h e.op.val e.op.property))
  refine texts_unblocked_step hs (hwrites ?_) (run.step_of_mem (by simp [htr]))
  intro a ha
  obtain ⟨d, hd, rfl⟩ := List.mem_map.mp ha
  have hd := (System.Run.own_sublist _ _).subset hd
  have hstep := run.step_of_mem (e := d) (by simp [htr, hd])
  have hbefore := hreads d hd
  generalize d.answered = a at hstep
  obtain ⟨c | c, r⟩ := a
  · exact readsUnblocked_of_step hbefore.observations hstep.1
  · trivial

end Run

section Stored

open Program

variable {repo : ObservationRepository}

theorem single_indexed (row : ObservationRow) : Indexed [row] :=
  ⟨List.pairwise_singleton _ _, List.pairwise_singleton _ _, List.pairwise_singleton _ _⟩

theorem records_dropped {op : MutationOp} {entityKey : String} {project : Option String} {payload : JsonObject}
    (t : SyncStore) : repo.Records SyncStore.step op entityKey project payload t t := by
  unfold ObservationRepository.Records
  split_ifs
  · exact ⟨.error (.repositoryError ""), .inr ⟨rfl, "", rfl⟩⟩
  · rfl

theorem create_stores (o : Observation) :
    ∃ s', (repo.create o).Runs Store.step ({}, {}) (.ok ()) s' ∧ s'.1.observations.rows = [repo.row o.val] := by
  have hindexed := single_indexed (repo.row o.val)
  have hinsert : MemoryStore.step ⟨.insert (repo.row o.val), .ok ()⟩ {} { observations := ⟨_, hindexed⟩ } := by
    refine .inl ?_
    show MemoryStore.Write {} (ObservationTable.commit [repo.row o.val]) () (.ok ()) _
    rw [ObservationTable.commit_of_indexed hindexed]
    exact ⟨rfl, rfl⟩
  exact ⟨({ observations := ⟨_, hindexed⟩ }, {}),
    repo.create_runs.mpr (.inr ⟨hinsert, rfl, records_dropped _⟩), rfl⟩

theorem find_empty (key : String) (project : Option String) :
    MemoryStore.step ⟨.selectByTopicKey key project, .ok none⟩ {} {} := by
  refine .inl ⟨rfl, none, ?_, rfl⟩
  have hfinds := ObservationTable.empty.find_finds key project
  cases project with
  | none => exact hfinds
  | some p => exact hfinds

theorem save_stores {args : SaveArgs} (h : Accepted (redactingService repo) args) :
    ∃ out s', ((redactingService repo).save args).Runs Store.step ({}, {}) out s' ∧
      s'.1.observations.rows = [repo.row ((redactingService repo).saved args "a" 0)] := by
  have hexisting : ((redactingService repo).existingForTopic args).Runs Store.step ({}, {}) (.ok none) ({}, {}) := by
    unfold MemoryService.existingForTopic
    split
    · exact ⟨rfl, rfl⟩
    · exact statement_bind_runs.mpr (.inr ⟨none, {}, find_empty _ _, rfl, rfl⟩)
  have hvalid := postInit_eq_ok.mpr (h "a" 0 (by decide))
  obtain ⟨s', hcreate, hrows⟩ := @create_stores repo ⟨_, hvalid⟩
  refine ⟨.ok ⟨_, hvalid⟩, s', hexisting.bind ?_, hrows⟩
  refine .perform_bind (t := ({}, {})) ⟨.inl ⟨rfl, "a", by decide, rfl⟩, rfl⟩ ?_
  refine .perform_bind (t := ({}, {})) ⟨.inl ⟨rfl, (0 : Nat), rfl⟩, rfl⟩ ?_
  refine .ofExcept_bind (construct_eq_ok.mpr rfl : construct _ _ = .ok ⟨_, hvalid⟩) ?_
  exact hcreate.bind ⟨rfl, rfl⟩

theorem saveEvent_stores {content : String} {metadata : JsonObject} {idempotencyKey : String}
    (h : EventArgs.Accepted ⟨repo, content, metadata⟩ idempotencyKey) :
    ∃ out s', (repo.saveEvent content metadata idempotencyKey).Runs Store.step ({}, {}) out s' ∧
      s'.1.observations.rows = [repo.row (ObservationRepository.event content metadata idempotencyKey 0 "a")] := by
  have hvalid := postInit_eq_ok.mpr ((@event_valid ⟨repo, content, metadata⟩ idempotencyKey 0 "a" (by decide)).mpr h)
  obtain ⟨s', hcreate, hrows⟩ := @create_stores repo ⟨_, hvalid⟩
  have hexisting : (ObservationRepository.getByIdempotencyKey idempotencyKey).Runs Store.step ({}, {}) (.ok none)
      ({}, {}) := statement_bind_runs.mpr (.inr ⟨none, {}, .inl ⟨rfl, rfl⟩, rfl, rfl⟩)
  refine ⟨.ok "a", s', hexisting.bind ?_, hrows⟩
  refine .perform_bind (t := ({}, {})) ⟨.inl ⟨rfl, (0 : Nat), rfl⟩, rfl⟩ ?_
  refine .perform_bind (t := ({}, {})) ⟨.inl ⟨rfl, "a", by decide, rfl⟩, rfl⟩ ?_
  refine .ofExcept_bind (construct_eq_ok.mpr rfl : construct _ _ = .ok ⟨_, hvalid⟩) ?_
  exact hcreate.bind ⟨rfl, rfl⟩

/-- A stored observation with nothing but a content. -/
def plainRow (id : String) : ObservationRow := { id, timestamp := 0, content := "x" }

def plainFields (id : String) : ObservationFields := { id, timestamp := 0, content := "x", metadata := some [] }

theorem plainFields_valid {id : String} (hid : id ≠ "") : (plainFields id).Valid := by
  constructor
  case id => exact hid
  case timestamp => exact Int.le_refl 0
  case contentNull => exact (by decide : '\x00' ∉ "x".toList)
  case content => exact (by decide : "x" ≠ "")
  case revisionCount => exact Int.le_refl 1
  all_goals exact fun k hk => nomatch hk

theorem plainRow_reads {id : String} {o : Observation} (ho : o.val = plainFields id) :
    rowToObservation (plainRow id) = .ok o := by
  refine observation_eq_ok.mpr ?_
  rw [ho]
  exact @reads_args_row (plainRow id) none rfl

/-- Arguments that are accepted for some observation are accepted for a plain one. -/
theorem updated_plain_valid {svc : MemoryService} {args : UpdateArgs} {existing : ObservationFields}
    (h : (svc.updated args existing).Valid) (hid : existing.id ≠ "") :
    (svc.updated args (plainFields existing.id)).Valid := by
  have hplain := plainFields_valid hid
  have hcontent : (svc.updated args (plainFields existing.id)).content = (svc.updated args existing).content ∨
      (svc.updated args (plainFields existing.id)).content = "x" := by
    unfold MemoryService.updated
    cases args.content with
    | none => exact .inr rfl
    | some content => exact .inl rfl
  -- what is not given is missing from the plain observation
  have hgiven (given kept : Option String) : ∀ v ∈ given.or none, v ∈ given.or kept := by
    cases given with
    | none => simp
    | some v => simp
  have htopic := hgiven args.topicKey existing.topicKey
  have htype := hgiven args.type existing.type
  have hproject := hgiven args.project existing.project
  constructor
  case id => exact hid
  case timestamp => exact hplain.timestamp
  case contentNull =>
    obtain heq | heq := hcontent
    · rw [heq]
      exact h.contentNull
    · rw [heq]
      decide
  case content =>
    obtain heq | heq := hcontent
    · rw [heq]
      exact h.content
    · rw [heq]
      decide
  case idempotencyKey => exact hplain.idempotencyKey
  case topicKey => exact fun k hk => h.topicKey k (htopic k hk)
  case topicKeySpaces => exact fun k hk => h.topicKeySpaces k (htopic k hk)
  case topicKeyNull => exact fun k hk => h.topicKeyNull k (htopic k hk)
  case topicKeyLength => exact fun k hk => h.topicKeyLength k (htopic k hk)
  case revisionCount => exact (by decide : (1 : Int) ≤ 1 + 1)
  case type => exact fun t ht => h.type t (htype t ht)
  case project => exact fun p hp => h.project p (hproject p hp)
  case projectNull => exact fun p hp => h.projectNull p (hproject p hp)

theorem update_stores {args : UpdateArgs} {observationId : String}
    (h : ((redactingService repo).updated args (plainFields observationId)).Valid) (hid : observationId ≠ "") :
    ∃ s s' : MemoryStore, s.observations.rows = [plainRow observationId] ∧
      (∃ out, ((redactingService repo).update observationId args).Runs Store.step (s, {}) out (s', {})) ∧
      s'.observations.rows = [repo.row ((redactingService repo).updated args (plainFields observationId))] := by
  have hvalid := postInit_eq_ok.mpr h
  have hplain := postInit_eq_ok.mpr (plainFields_valid hid)
  let s : MemoryStore := { observations := ⟨_, single_indexed (plainRow observationId)⟩ }
  let row := repo.row ((redactingService repo).updated args (plainFields observationId))
  let s' : MemoryStore := { observations := ⟨_, single_indexed row⟩ }
  have hread : MemoryStore.step ⟨.selectById observationId, .ok (some (plainRow observationId))⟩ s s := by
    refine .inl ⟨rfl, ?_⟩
    simp [s, plainRow]
  have hwrite : MemoryStore.step ⟨.update row, .ok true⟩ s s' := by
    have hcontains : s.observations.contains row.id = true :=
      contains_eq_true.mpr ⟨plainRow observationId, List.mem_singleton_self _, rfl⟩
    have hset : s.observations.update row = ObservationTable.commit [row] := by
      have hid : (plainRow observationId).id = row.id := rfl
      simp [ObservationTable.update, updateWhere, s, hid]
    refine .inl (serve_update.mpr ?_)
    rw [if_pos hcontains, hset, ObservationTable.commit_of_indexed (single_indexed row)]
    exact ⟨rfl, rfl⟩
  have hget : (ObservationRepository.getById observationId).Runs Store.step (s, {}) (.ok ⟨_, hplain⟩) (s, {}) :=
    statement_bind_runs.mpr (.inr ⟨some (plainRow observationId), s, hread,
      Program.runs_ofExcept.mpr ⟨(plainRow_reads rfl).symm, rfl⟩⟩)
  refine ⟨s, s', rfl, ⟨.ok ⟨_, hvalid⟩, hget.bind ?_⟩, rfl⟩
  refine .ofExcept_bind (construct_eq_ok.mpr rfl : construct _ _ = .ok ⟨_, hvalid⟩) ?_
  have hupdate : (repo.update ⟨_, hvalid⟩).Runs Store.step (s, {}) (.ok ()) (s', {}) :=
    repo.update_runs.mpr (.inr (.inr ⟨hwrite, rfl, records_dropped _⟩))
  exact hupdate.bind ⟨rfl, rfl⟩

theorem savePrompt_stores (args : PromptArgs) :
    (savePrompt args).Runs promptStep [] (.ok (1 : Nat)) [args.row] :=
  ⟨.ok (1 : Nat), [args.row], .inl ⟨(1 : Nat), rfl, rfl⟩, rfl, rfl⟩

/-- What a call may store, when no text that it finds has a private block. -/
theorem storesNoBlock_of_runs {op : TextOp}
    (h : ∀ s out s', TextsUnblocked s → (op.program repo).Runs (Store.step.sum promptStep) s out s' →
      TextsUnblocked s') : op.StoresNoBlock repo := by
  have hempty : TextsUnblocked (({}, {}), []) := ⟨List.forall_mem_nil _, List.forall_mem_nil _⟩
  cases op with
  | save args =>
    intro haccepted
    obtain ⟨out, s', hruns, hrows⟩ := @save_stores repo args haccepted
    have hs' := (h _ out (s', []) hempty (runs_lift_inl.mpr ⟨hruns, rfl⟩)).observations
    rw [hrows, List.forall_mem_singleton] at hs'
    exact ⟨hs'.title, (redacted_metadata_iff _ _).mp hs'.metadata⟩
  | update observationId args =>
    rintro ⟨existing, rfl, hvalid⟩
    have hid := (postInit_eq_ok.mp existing.property).id
    obtain ⟨s, s', hs, ⟨out, hruns⟩, hrows⟩ := update_stores (updated_plain_valid hvalid hid) hid
    have hplain : TextsUnblocked ((s, {}), []) := by
      refine ⟨?_, List.forall_mem_nil _⟩
      rw [hs, List.forall_mem_singleton]
      exact ⟨(noBlock_of_not_mem (by decide) : NoBlock "x"), by simp [plainRow], by simp [plainRow]⟩
    have hs' := (h _ out ((s', {}), []) hplain (runs_lift_inl.mpr ⟨hruns, rfl⟩)).observations
    rw [hrows, List.forall_mem_singleton] at hs'
    refine ⟨fun t ht => hs'.title t ?_, fun m hm => ?_⟩
    · show t ∈ args.title.or none
      rw [ht]
      exact rfl
    · have hmetadata := hs'.metadata
      have hkept : (repo.row ((redactingService repo).updated args (plainFields existing.val.id))).metadata =
          (Redaction.redactObservationData repo.lower (args.content.getD "") args.metadata).2.1 :=
        if_pos (by rw [hm]; rfl)
      rw [hkept] at hmetadata
      exact (redacted_metadata_iff _ _).mp hmetadata m hm
  | saveEvent content metadata idempotencyKey =>
    intro haccepted
    obtain ⟨out, s', hruns, hrows⟩ := saveEvent_stores haccepted
    have hs' := (h _ out (s', []) hempty (runs_lift_inl.mpr ⟨hruns, rfl⟩)).observations
    rw [hrows, List.forall_mem_singleton] at hs'
    exact ⟨hs'.content, hs'.metadata metadata rfl⟩
  | savePrompt args =>
    have hruns : ((TextOp.savePrompt args).program repo).Runs (Store.step.sum promptStep) (({}, {}), [])
        (.ok (1 : Nat)) (({}, {}), [args.row]) := (savePrompt_stores args).lift_inr
    have hs' := (h _ _ _ hempty hruns).prompts
    exact hs' args.row (List.mem_singleton_self _)

/-- Whichever calls are made, side by side and in any order: no stored text ever has a private block
exactly when each of the calls, on its own arguments, stores none. -/
theorem texts_unblocked_iff (repo : ObservationRepository) (Allowed : TextOp → Prop) :
    (∀ tr cfg, (textSystem repo Allowed).Run tr cfg → TextsUnblocked cfg.store) ↔
      ∀ op, Allowed op → op.StoresNoBlock repo := by
  constructor
  · intro h op hop
    refine storesNoBlock_of_runs fun s out s' hs hruns => ?_
    have hinitial : (textSystem repo Allowed).Run [] ⟨s, fun _ => none⟩ := .initial hs
    obtain ⟨tr, hrun⟩ := hinitial.perform (i := 0) rfl (o := ⟨op, hop⟩) hruns
    exact h _ _ hrun
  · intro h tr cfg hrun
    exact run_texts_unblocked h hrun

end Stored

end ForkAgent.Memory

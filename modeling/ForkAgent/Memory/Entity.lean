import ForkAgent.Python.Json

/-!
# Observations

The observation entity. Its constructor takes values of any type: it is called with what JSON text
holds, so that the type checks of `__post_init__` count. A missing argument reads as null.
-/

namespace ForkAgent.Memory

/-- The arguments of the constructor. The title and the session id are not checked. -/
structure ObservationArgs where
  id : Json
  timestamp : Json
  content : Json
  title : Option String := none
  metadata : Json := .null
  idempotencyKey : Json := .null
  project : Json := .null
  type : Json := .null
  topicKey : Json := .null
  revisionCount : Json := .int 1
  sessionId : Option String := none

@[ext] structure ObservationFields where
  id : String
  timestamp : Int
  content : String
  title : Option String := none
  metadata : Option JsonObject := none
  idempotencyKey : Option String := none
  project : Option String := none
  type : Option String := none
  topicKey : Option String := none
  revisionCount : Int := 1
  sessionId : Option String := none
  deriving DecidableEq

/-- `_ALLOWED_TYPES`, sorted. -/
def allowedTypes : List String :=
  ["architecture", "artifacts-index", "bugfix", "command", "config", "decision", "discovery",
    "file-ops", "file_change", "file_ops", "file_read", "learning", "learning-batch", "manual",
    "pattern", "performance", "preference", "search", "security", "session-summary", "tool_use",
    "workflow-event"]

def maxTopicKeyLength : Nat := 128

section Checks

def readStr (message : String) : Json → Except Exn String
  | .str s => .ok s
  | _ => .error (.typeError message)

/-- `True` and `False` are integers too. -/
def readInt (message : String) : Json → Except Exn Int
  | .int n => .ok n
  | .bool b => .ok (if b then 1 else 0)
  | _ => .error (.typeError message)

def readDict (message : String) : Json → Except Exn JsonObject
  | .obj fields => .ok fields
  | _ => .error (.typeError message)

/-- A check that lets `None` pass. -/
def optional {α : Type} (read : Json → Except Exn α) : Json → Except Exn (Option α)
  | .null => .ok none
  | j => (read j).map some

@[simp] theorem optional_ofText (message : String) (text : Option String) :
    optional (readStr message) (.ofText text) = .ok text := by
  cases text <;> rfl

def requireSome {α : Type} (value : Option α) (condition : α → Bool) (e : Exn) : Except Exn Unit :=
  require (value.all condition) e

end Checks

/-- The checks of `__post_init__`, in their order. -/
def ObservationArgs.init (a : ObservationArgs) : Except Exn ObservationFields := do
  let id ← readStr "id must be a string" a.id
  require (id ≠ "") (.valueError "id must not be empty")
  let timestamp ← readInt "timestamp must be an integer" a.timestamp
  require (0 ≤ timestamp) (.valueError "timestamp must be non-negative")
  let content ← readStr "content must be a string" a.content
  require ('\x00' ∉ content.toList)
    (.valueError "content must not contain null bytes (\\x00)")
  require (content ≠ "") (.valueError "content must not be empty")
  let metadata ← optional (readDict "metadata must be a dict or None") a.metadata
  let idempotencyKey ← optional (readStr "idempotency_key must be a string or None") a.idempotencyKey
  requireSome idempotencyKey (· ≠ "") (.valueError "idempotency_key must not be empty")
  let topicKey ← optional (readStr "topic_key must be a string or None") a.topicKey
  requireSome topicKey (· ≠ "") (.valueError "topic_key must not be empty")
  requireSome topicKey (' ' ∉ ·.toList) (.valueError "topic_key must not contain spaces")
  requireSome topicKey ('\x00' ∉ ·.toList) (.valueError "topic_key must not contain null bytes")
  requireSome topicKey (·.length ≤ maxTopicKeyLength) (.valueError
    (s!"topic_key must not exceed {maxTopicKeyLength} characters " ++
      s!"(got {(topicKey.getD default).length})"))
  let revisionCount ← readInt "revision_count must be an integer" a.revisionCount
  require (1 ≤ revisionCount) (.valueError "revision_count must be at least 1")
  let type ← optional (readStr "type must be a string or None") a.type
  requireSome type (· ∈ allowedTypes) (.valueError
    ("type must be one of [" ++
      ", ".intercalate (allowedTypes.map fun type => "'" ++ type ++ "'") ++ "] or None"))
  let project ← optional (readStr "project must be a string or None") a.project
  requireSome project (strip · ≠ "") (.valueError "project must not be empty or whitespace-only")
  requireSome project ('\x00' ∉ ·.toList) (.valueError "project must not contain null bytes")
  return {
    id, timestamp, content, title := a.title, metadata, idempotencyKey, project, type, topicKey,
    revisionCount, sessionId := a.sessionId }

namespace ObservationFields

/-- The arguments that typed fields are. -/
def args (f : ObservationFields) : ObservationArgs where
  id := .str f.id
  timestamp := .int f.timestamp
  content := .str f.content
  title := f.title
  metadata := (f.metadata.map .obj).getD .null
  idempotencyKey := .ofText f.idempotencyKey
  project := .ofText f.project
  type := .ofText f.type
  topicKey := .ofText f.topicKey
  revisionCount := .int f.revisionCount
  sessionId := f.sessionId

def postInit (f : ObservationFields) : Except Exn Unit := do
  let _ ← f.args.init

/-- What `__post_init__` demands of the values. -/
structure Valid (f : ObservationFields) : Prop where
  id : f.id ≠ ""
  timestamp : 0 ≤ f.timestamp
  contentNull : '\x00' ∉ f.content.toList
  content : f.content ≠ ""
  idempotencyKey : ∀ k ∈ f.idempotencyKey, k ≠ ""
  topicKey : ∀ k ∈ f.topicKey, k ≠ ""
  topicKeySpaces : ∀ k ∈ f.topicKey, ' ' ∉ k.toList
  topicKeyNull : ∀ k ∈ f.topicKey, '\x00' ∉ k.toList
  topicKeyLength : ∀ k ∈ f.topicKey, k.length ≤ maxTopicKeyLength
  revisionCount : 1 ≤ f.revisionCount
  type : ∀ t ∈ f.type, t ∈ allowedTypes
  project : ∀ p ∈ f.project, strip p ≠ ""
  projectNull : ∀ p ∈ f.project, '\x00' ∉ p.toList

end ObservationFields

/-- What the type checks read from the arguments. -/
structure ObservationArgs.Reads (a : ObservationArgs) (f : ObservationFields) : Prop where
  id : readStr "id must be a string" a.id = .ok f.id
  timestamp : readInt "timestamp must be an integer" a.timestamp = .ok f.timestamp
  content : readStr "content must be a string" a.content = .ok f.content
  title : f.title = a.title
  metadata : optional (readDict "metadata must be a dict or None") a.metadata = .ok f.metadata
  idempotencyKey : optional (readStr "idempotency_key must be a string or None") a.idempotencyKey =
    .ok f.idempotencyKey
  project : optional (readStr "project must be a string or None") a.project = .ok f.project
  type : optional (readStr "type must be a string or None") a.type = .ok f.type
  topicKey : optional (readStr "topic_key must be a string or None") a.topicKey = .ok f.topicKey
  revisionCount : readInt "revision_count must be an integer" a.revisionCount = .ok f.revisionCount
  sessionId : f.sessionId = a.sessionId

theorem init_eq_ok {a : ObservationArgs} {f : ObservationFields} :
    a.init = .ok f ↔ a.Reads f ∧ f.Valid := by
  simp only [ObservationArgs.init, bind_eq_ok, require_eq_ok, requireSome, exists_const,
    Option.all_eq_true, decide_eq_true_eq]
  constructor
  · rintro ⟨id, hid, hid', timestamp, htimestamp, htimestamp', content, hcontent, hnull, hcontent',
      metadata, hmetadata, idempotencyKey, hidempotency, hidempotency', topicKey, htopic, htopic',
      hspaces, htopicNull, hlength, revisionCount, hrevision, hrevision', type, htype, htype',
      project, hproject, hproject', hprojectNull, heq⟩
    cases heq
    exact ⟨⟨hid, htimestamp, hcontent, rfl, hmetadata, hidempotency, hproject, htype, htopic,
      hrevision, rfl⟩, ⟨hid', htimestamp', hnull, hcontent', hidempotency', htopic', hspaces,
      htopicNull, hlength, hrevision', htype', hproject', hprojectNull⟩⟩
  · rintro ⟨hr, hv⟩
    refine ⟨_, hr.id, hv.id, _, hr.timestamp, hv.timestamp, _, hr.content, hv.contentNull,
      hv.content, _, hr.metadata, _, hr.idempotencyKey, hv.idempotencyKey, _, hr.topicKey,
      hv.topicKey, hv.topicKeySpaces, hv.topicKeyNull, hv.topicKeyLength, _, hr.revisionCount,
      hv.revisionCount, _, hr.type, hv.type, _, hr.project, hv.project, hv.projectNull, ?_⟩
    rw [← hr.title, ← hr.sessionId]
    rfl

theorem reads_args (f : ObservationFields) : f.args.Reads f where
  id := rfl
  timestamp := rfl
  content := rfl
  title := rfl
  metadata := by
    unfold ObservationFields.args
    cases f.metadata <;> rfl
  idempotencyKey := optional_ofText _ _
  project := optional_ofText _ _
  type := optional_ofText _ _
  topicKey := optional_ofText _ _
  revisionCount := rfl
  sessionId := rfl

theorem ObservationArgs.Reads.unique {a : ObservationArgs} {f g : ObservationFields}
    (hf : a.Reads f) (hg : a.Reads g) : f = g := by
  have same : ∀ {α : Type} {x : Except Exn α} {u v : α}, x = .ok u → x = .ok v → u = v := by
    rintro α x u v rfl h
    exact Except.ok.inj h
  exact ObservationFields.ext (same hf.id hg.id) (same hf.timestamp hg.timestamp)
    (same hf.content hg.content) (hf.title.trans hg.title.symm) (same hf.metadata hg.metadata)
    (same hf.idempotencyKey hg.idempotencyKey) (same hf.project hg.project)
    (same hf.type hg.type) (same hf.topicKey hg.topicKey)
    (same hf.revisionCount hg.revisionCount) (hf.sessionId.trans hg.sessionId.symm)

theorem postInit_eq_ok {f : ObservationFields} : f.postInit = .ok () ↔ f.Valid := by
  unfold ObservationFields.postInit
  rw [bind_eq_ok]
  constructor
  · rintro ⟨g, hg, -⟩
    obtain ⟨hreads, hvalid⟩ := init_eq_ok.mp hg
    rwa [(reads_args f).unique hreads]
  · intro hvalid
    exact ⟨f, init_eq_ok.mpr ⟨reads_args f, hvalid⟩, rfl⟩

theorem postInit_of_init {a : ObservationArgs} {f : ObservationFields} (h : a.init = .ok f) :
    f.postInit = .ok () := postInit_eq_ok.mpr (init_eq_ok.mp h).2

/-- An observation carries the proof that the constructor accepted it. -/
abbrev Observation := Validated ObservationFields.postInit

/-- `Observation(...)`. -/
def observation (a : ObservationArgs) : Except Exn Observation :=
  match h : a.init with
  | .ok f => .ok ⟨f, postInit_of_init h⟩
  | .error e => .error e

theorem observation_eq_ok {a : ObservationArgs} {o : Observation} :
    observation a = .ok o ↔ a.Reads o.val := by
  constructor
  · intro h
    unfold observation at h
    split at h
    · next f hf =>
      cases h
      exact (init_eq_ok.mp hf).1
    · cases h
  · intro hreads
    have hinit : a.init = .ok o.val := init_eq_ok.mpr ⟨hreads, postInit_eq_ok.mp o.property⟩
    unfold observation
    split
    · next f hf =>
      rw [hinit] at hf
      cases hf
      rfl
    · next e he =>
      rw [hinit] at he
      cases he

section Names

variable (lower : String → String)

/-- `str.rstrip("/")`. -/
def rstripSlash (s : String) : String := String.ofList (s.toList.reverse.dropWhile (· = '/')).reverse

/-- `MemoryService._normalize_project_name`; `lower` is `str.lower`. -/
def normalizeProjectName (name : String) : String := rstripSlash (lower (strip name))

/-- `_normalize_project`. -/
def normalizeProject (project : Option String) : Option String :=
  project.map (normalizeProjectName lower)

def normalizeTopicKey (topicKey : String) : String := strip (lower topicKey)

end Names

/-- Whether a string is set and not empty, as `if name:` has it. -/
def truthy (name : Option String) : Bool := name.any (· ≠ "")

/-- SQLite's `LOWER`, which changes ASCII letters only. -/
def sqlLower (s : String) : String := String.ofList (s.toList.map Char.toLower)

end ForkAgent.Memory

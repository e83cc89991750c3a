import ForkAgent.Hybrid.Client
import ForkAgent.Python.Documents

/-!
# The tools of the server

What the tools do that the commands call, and what any server may do with a request: it runs the tool that
the request calls, or it does not, and it answers whatever it answers. The project of a call that names none
is the one of the directory in which the server runs.
-/

namespace ForkAgent.Hybrid

open Effects Memory JsonFormat

section Project

/-- `_detect_project`, from the base name of the working directory of the server. -/
def detectProject (basename : String) : String := if basename = "" then "default" else basename

/-- `_resolve_project`. -/
def resolveProject (basename : String) (project : Option String) : String :=
  (project.filter (· ≠ "")).getD (detectProject basename)

end Project

section Arguments

def nullableText : JsonFormat (Option String) := nullable text text_ne_null

def nullableObject : JsonFormat (Option JsonObject) := nullable object object_ne_null

/-- An object, or null for `None`. -/
def ofObject (fields : Option JsonObject) : Json := (fields.map .obj).getD .null

def saveArguments (args : SaveArgs) : JsonObject :=
  [("content", .str args.content), ("metadata", ofObject args.metadata),
    ("topic_key", .ofText args.topicKey), ("project", .ofText args.project),
    ("type", .ofText args.type), ("title", .ofText args.title)]

/-- The arguments that `memory_save` declares. -/
def readSaveArgs (arguments : JsonObject) : Except Exn SaveArgs := do
  let content ← arguments.read text "content"
  let metadata ← arguments.readD nullableObject "metadata" none
  let topicKey ← arguments.readD nullableText "topic_key" none
  let project ← arguments.readD nullableText "project" none
  let type ← arguments.readD nullableText "type" none
  let title ← arguments.readD nullableText "title" none
  return { content, metadata, topicKey, project, type, title }

/-- The keyword arguments of an update. The tool and the service name the id differently. -/
structure UpdateKwargs where
  id : Option String := none
  observationId : Option String := none
  args : UpdateArgs := {}

/-- A keyword argument that is given. -/
def given (name : String) (value : Option String) : JsonObject :=
  match value with
  | some value => [(name, .str value)]
  | none => []

def updateArguments (kwargs : UpdateKwargs) : JsonObject :=
  given "id" kwargs.id ++ given "observation_id" kwargs.observationId ++
    [("content", .ofText kwargs.args.content), ("metadata", ofObject kwargs.args.metadata),
      ("type", .ofText kwargs.args.type), ("topic_key", .ofText kwargs.args.topicKey),
      ("project", .ofText kwargs.args.project), ("title", .ofText kwargs.args.title)]

/-- The arguments that `memory_update` declares. -/
def readUpdateArgs (arguments : JsonObject) : Except Exn (String × UpdateArgs) := do
  let id ← arguments.read text "id"
  let content ← arguments.readD nullableText "content" none
  let metadata ← arguments.readD nullableObject "metadata" none
  let type ← arguments.readD nullableText "type" none
  let topicKey ← arguments.readD nullableText "topic_key" none
  let project ← arguments.readD nullableText "project" none
  let title ← arguments.readD nullableText "title" none
  return (id, { content, metadata, type, topicKey, project, title })

end Arguments

section Tools

variable (svc : MemoryService) (basename : String)

/-- `_validate_topic_key`. -/
def validateTopicKey (topicKey : Option String) : Except Exn Unit :=
  let key := topicKey.getD ""
  requireSome topicKey (fun key => ".." ∉ splitOn '/' key.toList [])
    (.valueError s!"Invalid topic_key: path traversal detected in '{key}'")

/-- `_serialize_observation`: the fields in their order, without those that are `None`. -/
def serializeObservation (o : ObservationFields) : JsonObject :=
  [("id", .str o.id), ("timestamp", .int o.timestamp), ("content", .str o.content),
    ("title", .ofText o.title), ("metadata", ofObject o.metadata),
    ("idempotency_key", .ofText o.idempotencyKey), ("project", .ofText o.project),
    ("type", .ofText o.type), ("topic_key", .ofText o.topicKey),
    ("revision_count", .int o.revisionCount), ("session_id", .ofText o.sessionId)].filter
      fun field => field.2 ≠ .null

def memorySave (args : SaveArgs) : MemoryProgram Json := do
  .ofExcept (require (strip args.content ≠ "") (.valueError "content must not be empty"))
  .ofExcept (validateTopicKey args.topicKey)
  let o ← svc.save { args with project := some (resolveProject basename args.project) }
  return .obj [("id", .str o.val.id), ("status", .str "saved"), ("topic_key", .ofText o.val.topicKey)]

def memoryUpdate (id : String) (args : UpdateArgs) : MemoryProgram Json := do
  .ofExcept (validateTopicKey args.topicKey)
  let o ← svc.update id args
  return .obj (serializeObservation o.val)

/-- What one call of a tool makes of the database. The other tools are left out. -/
def ToolRuns (toolName : String) (arguments : JsonObject) (s s' : Store) : Prop :=
  (toolName = "memory_save" ∧ ∃ args out, readSaveArgs arguments = .ok args ∧
    (memorySave svc basename args).Runs Store.step s out s') ∨
  toolName = "memory_update" ∧ ∃ id args out, readUpdateArgs arguments = .ok (id, args) ∧
    (memoryUpdate svc id args).Runs Store.step s out s'

/-- A server: the ways in which it may answer a request, each with what it leaves in the database. It
applies the call of a tool once, or not at all. -/
structure Server where
  answers : Post → Store → Except Exn HttpResponse → Store → Prop
  applies : ∀ {request s r s'}, answers request s r s' → s' = s ∨
    ∃ id toolName arguments, request.message = toolsCallMessage id toolName arguments ∧
      ToolRuns svc basename toolName arguments s s'

/-- What a dispatch meets: a server, which of its own statements the database may fail, and what the
writing of a receipt may raise. -/
structure Surroundings where
  server : Server svc basename
  fails : storeSignature.Call → Prop
  receiptRaises : Exn → Prop

variable {svc basename}

/-- The statements of the client itself. -/
def Surroundings.own (env : Surroundings svc basename) : Semantics storeSignature Exn Store :=
  fun a s s' => Store.serve a s s' ∨
    env.fails a.call ∧ s' = s ∧ ∃ m, a.answer = .error (.operationalError m)

/-- Client and server share the database. A server is found, or not, or its port file cannot be read. -/
def Surroundings.step (env : Surroundings svc basename) :
    Semantics (hybridSignature.sum storeSignature) Exn Store
  | ⟨.inl .discoverServer, _⟩, s, s' => s' = s
  | ⟨.inl (.post request), r⟩, s, s' => env.server.answers request s r s'
  | ⟨.inl (.writeReceipt _), r⟩, s, s' => s' = s ∧ ∀ e, r = .error e → env.receiptRaises e
  | ⟨.inr c, r⟩, s, s' => env.own ⟨c, r⟩ s s'

end Tools

end ForkAgent.Hybrid

import ForkAgent.Effects.Sequence
import ForkAgent.Messages.Store
import ForkAgent.Python.JsonText
import Mathlib.Data.List.Infix

/-!
# Message references

A message is written to a temporary file that is named after the first eight characters of its id, and
is sent as a reference to that file. Whoever receives a text looks for a reference in it first, and then
for a message that is written out.
-/

namespace ForkAgent.Messages

open Effects

section Directory

/-- What follows the first occurrence of a text, if there is one. -/
def findAfter (needle : List Char) : List Char → Option (List Char)
  | [] => if needle = [] then some [] else none
  | c :: s => if needle <+: c :: s then some ((c :: s).drop needle.length) else findAfter needle s

structure TempFile where
  text : List Char
  mtime : Int

/-- The directory of the temporary files; a file is known by what its name has between `fork_msg_` and
`.json`. -/
structure TempDir where
  made : Bool := false
  files : List Char → Option TempFile := fun _ => none

def TempDir.setFile (d : TempDir) (name : List Char) (file : Option TempFile) : TempDir :=
  { d with files := Function.update d.files name file }

/-- A name that stays within the directory. -/
def IsFileName (name : List Char) : Prop := '/' ∉ name ∧ Char.ofNat 0 ∉ name

instance : DecidablePred IsFileName := fun _ => inferInstanceAs (Decidable (_ ∧ _))

inductive TempCall where
  | mkdir
  | writeText (name text : List Char)
  | fileExists (name : List Char)
  | readText (name : List Char)
  | dirExists
  | time
  | glob
  | mtime (name : List Char)
  | unlink (name : List Char)

abbrev TempCall.Value : TempCall → Type
  | .mkdir | .writeText .. | .unlink _ => Unit
  | .fileExists _ | .dirExists => Bool
  | .readText _ => List Char
  | .time | .mtime _ => Int
  | .glob => List (List Char)

abbrev tempSignature : Signature := ⟨TempCall, TempCall.Value⟩

abbrev TempProgram := Program tempSignature Exn

namespace TempDir

/-- What a call answers and does when the file system serves it. -/
def serve : Semantics tempSignature Exn TempDir
  | ⟨.mkdir, r⟩, d, d' => r = .ok () ∧ d' = { d with made := true }
  | ⟨.writeText name text, r⟩, d, d' =>
    IsFileName name ∧ ∃ mtime, r = .ok () ∧ d' = d.setFile name (some ⟨text, mtime⟩)
  | ⟨.fileExists name, r⟩, d, d' => d' = d ∧ r = .ok (d.files name).isSome
  | ⟨.readText name, r⟩, d, d' => d' = d ∧ ∃ file, d.files name = some file ∧ r = .ok file.text
  | ⟨.dirExists, r⟩, d, d' => d' = d ∧ r = .ok d.made
  | ⟨.time, r⟩, d, d' => d' = d ∧ ∃ now, r = .ok now
  | ⟨.glob, r⟩, d, d' => d' = d ∧ ∃ names, r = .ok names ∧ ∀ name, name ∈ names ↔ (d.files name).isSome
  | ⟨.mtime name, r⟩, d, d' => d' = d ∧ ∃ file, d.files name = some file ∧ r = .ok file.mtime
  | ⟨.unlink name, r⟩, d, d' => (d.files name).isSome ∧ r = .ok () ∧ d' = d.setFile name none

/-- The errors of the file system, and that of a name with a null byte in it. -/
def Fails {α : Type} (r : Except Exn α) : Prop := ∃ e, r = .error e ∧ (e.isOSError = true ∨ ∃ m, e = .valueError m)

/-- Any call may fail instead. -/
def step : Semantics tempSignature Exn TempDir := fun a d d' => serve a d d' ∨ d' = d ∧ Fails a.answer

end TempDir

end Directory

section Decoding

/-- A message as it is constructed of decoded data, whose types are not checked. -/
structure DecodedMessage where
  id : Json
  fromAgent : Json
  toAgent : Json
  messageType : MessageType
  payload : Json
  createdAt : Json
  correlationId : Json

def AgentMessage.decoded (msg : AgentMessage) : DecodedMessage where
  id := .str msg.id
  fromAgent := .str msg.fromAgent
  toAgent := .str msg.toAgent
  messageType := msg.messageType
  payload := .str msg.payload
  createdAt := .int msg.createdAt
  correlationId := .ofText msg.correlationId

/-- The data of a message. -/
def AgentMessage.data (msg : AgentMessage) : JsonObject :=
  [("id", .str msg.id), ("from_agent", .str msg.fromAgent), ("to_agent", .str msg.toAgent),
    ("message_type", .str msg.messageType.name), ("payload", .str msg.payload), ("created_at", .int msg.createdAt),
    ("correlation_id", .ofText msg.correlationId)]

/-- `json.dumps` of the data of a message. -/
def AgentMessage.json (msg : AgentMessage) : List Char := Json.dumps (.obj msg.data)

def requiredFields : List String := ["id", "from_agent", "to_agent", "message_type", "payload", "created_at"]

/-- `MessageType[name]`, which is no message where the name is unknown. -/
def decodedType : Json → Except Exn (Option MessageType)
  | .str name => .ok (MessageType.ofName name).toOption
  | .arr _ => .error (.typeError "unhashable type: 'list'")
  | .obj _ => .error (.typeError "unhashable type: 'dict'")
  | _ => .ok none

def messageOf (data : JsonObject) (messageType : MessageType) : DecodedMessage where
  id := data.get "id"
  fromAgent := data.get "from_agent"
  toAgent := data.get "to_agent"
  messageType := messageType
  payload := data.get "payload"
  createdAt := data.get "created_at"
  correlationId := data.get "correlation_id"

/-- `_create_from_dict` of a dict. -/
def createFromObject (data : JsonObject) : Except Exn (Option DecodedMessage) :=
  if requiredFields.all fun field => (data.lookup field).isSome then
    (decodedType (data.get "message_type")).map fun messageType => messageType.map (messageOf data)
  else .ok none

/-- `_create_from_dict`. Of a list or a text that has the names of all fields in it, the first item that is
asked for raises. -/
def createFromDict : Json → Except Exn (Option DecodedMessage)
  | .obj data => createFromObject data
  | .arr items =>
    if requiredFields.all fun field => .str field ∈ items then
      .error (.typeError "list indices must be integers or slices, not str")
    else .ok none
  | .str text =>
    if requiredFields.all fun field => field.toList <:+: text.toList then
      .error (.typeError "string indices must be integers, not 'str'")
    else .ok none
  | value => .error (.typeError s!"argument of type '{value.typeName}' is not iterable")

theorem createFromDict_data (msg : AgentMessage) : createFromDict (.obj msg.data) = .ok (some msg.decoded) := by
  have htype : decodedType (msg.data.get "message_type") = .ok (some msg.messageType) := by
    show Except.ok (MessageType.ofName msg.messageType.name).toOption = _
    rw [MessageType.ofName_name]
    rfl
  have hall : (requiredFields.all fun field => (msg.data.lookup field).isSome) = true := rfl
  show createFromObject msg.data = _
  rw [createFromObject, if_pos hall, htype]
  rfl

theorem decoded_injective {msg msg' : AgentMessage} (h : msg.decoded = msg'.decoded) : msg = msg' := by
  have hcorrelation : ∀ {a b : Option String}, Json.ofText a = Json.ofText b → a = b := by
    intro a b hab
    cases a <;> cases b <;> cases hab <;> rfl
  simp only [AgentMessage.decoded, DecodedMessage.mk.injEq, Json.str.injEq, Json.int.injEq] at h
  obtain ⟨hid, hfrom, hto, htype, hpayload, hcreated, hcorrelated⟩ := h
  cases msg
  cases msg'
  simp only [AgentMessage.mk.injEq]
  exact ⟨hid, hfrom, hto, htype, hpayload, hcreated, hcorrelation hcorrelated⟩

end Decoding

section Protocol

def FORK_MSG_PREFIX : List Char := "# FORK_MSG:".toList

def FORK_MSG_SHORT_PREFIX : List Char := "# F:".toList

def tempCall (c : TempCall) : TempProgram c.Value := Program.perform (σ := tempSignature) c

/-- `msg.id[:8]`. -/
def AgentMessage.shortId (msg : AgentMessage) : List Char := msg.id.toList.take 8

def AgentMessage.reference (msg : AgentMessage) : List Char := FORK_MSG_SHORT_PREFIX ++ msg.shortId

def encodeMessage (msg : AgentMessage) : TempProgram (List Char) :=
  Program.handle (do
    tempCall .mkdir
    tempCall (.writeText msg.shortId msg.json)
    return msg.reference) fun e =>
      if e.isOSError then throw (.runtimeError ("Failed to write message to temp storage: " ++ e.message))
      else throw e

/-- The name of the file that is referred to: what precedes the first white space, up to eight characters. -/
def referredName (suffix : List Char) : Option (List Char) :=
  let suffix := (strip (String.ofList suffix)).toList
  if suffix = [] then none else some ((suffix.takeWhile fun c => !isSpace c).take 8)

/-- Answer errors of some kinds with no message. -/
def orNone (answered : Exn → Bool) (p : TempProgram (Option DecodedMessage)) : TempProgram (Option DecodedMessage) :=
  p.handle fun e => if answered e then return none else throw e

def isDecodeError : Exn → Bool
  | .jsonDecodeError _ => true
  | _ => false

def isTypeError : Exn → Bool
  | .typeError _ => true
  | _ => false

/-- `json.loads`. -/
abbrev Loads := List Char → Except Exn Json

def readReferred (loads : Loads) (name : List Char) : TempProgram (Option DecodedMessage) := do
  let found : Bool ← tempCall (.fileExists name)
  if found then
    orNone (fun e => isDecodeError e || e.isOSError) do
      let text : List Char ← tempCall (.readText name)
      .ofExcept (loads text >>= createFromDict)
  else return none

def decodeMessage (loads : Loads) (raw : List Char) : TempProgram (Option DecodedMessage) :=
  match findAfter FORK_MSG_SHORT_PREFIX raw with
  | some suffix =>
    match referredName suffix with
    | none => return none
    | some name => readReferred loads name
  | none =>
    match findAfter FORK_MSG_PREFIX raw with
    | some suffix =>
      orNone (fun e => isDecodeError e || isTypeError e)
        (.ofExcept (loads (strip (String.ofList suffix)).toList >>= createFromDict))
    | none => return none

/-- Remove one file that is too old; what fails is passed over. -/
def cleanupFile (maxAgeSeconds now : Int) (name : List Char) : TempProgram Nat :=
  Program.handle (do
    let isFile : Bool ← tempCall (.fileExists name)
    if isFile then do
      let mtime : Int ← tempCall (.mtime name)
      if maxAgeSeconds < now - mtime then do
        tempCall (.unlink name)
        return 1
      else return 0
    else return 0) fun e => if e.isOSError then return 0 else throw e

def cleanupFiles (maxAgeSeconds now : Int) : List (List Char) → TempProgram Nat
  | [] => return 0
  | name :: names => do
    let removed ← cleanupFile maxAgeSeconds now name
    let more ← cleanupFiles maxAgeSeconds now names
    return removed + more

def cleanupTempFiles (maxAgeSeconds : Int) : TempProgram Nat := do
  let made : Bool ← tempCall .dirExists
  if made then do
    let now : Int ← tempCall .time
    let names : List (List Char) ← tempCall .glob
    cleanupFiles maxAgeSeconds now names
  else return 0

inductive ProtocolOp where
  | encode (msg : AgentMessage)
  | cleanup (maxAgeSeconds : Int)

abbrev ProtocolOp.Result : ProtocolOp → Type
  | .encode _ => List Char
  | .cleanup _ => Nat

def protocolSystem : System tempSignature Exn TempDir where
  Op := ProtocolOp
  Result := ProtocolOp.Result
  program
    | .encode msg => encodeMessage msg
    | .cleanup maxAgeSeconds => cleanupTempFiles maxAgeSeconds
  step := TempDir.step
  outside := fun d d' => d' = d
  initial := fun d => d = {}

end Protocol

end ForkAgent.Messages

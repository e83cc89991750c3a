import ForkAgent.Memory.Runs

/-!
# The client of the tool server

The commands can be routed through a tool server that runs the memory service on the same database. A
tool is called by one HTTP request, after a session has been opened by two others; what comes back is
parsed, or an error is raised.
-/

namespace ForkAgent.Hybrid

open Effects Memory

structure HttpResponse where
  status : Nat
  /-- The header `mcp-session-id`. -/
  sessionId : Option String := none
  text : String := ""
  deriving DecidableEq, Repr

/-- The fields of the client that a request depends on. -/
structure MCPClient where
  url : String
  sessionId : Option String := none
  msgId : Nat := 0
  deriving DecidableEq, Repr

/-- One request: what is posted, and the session that the headers name. -/
structure Post where
  url : String
  message : Json
  session : Option String

/-- What the port file says of the server. -/
structure ServerInfo where
  host : String := "127.0.0.1"
  port : Nat := 8080
  pid : Int
  deriving DecidableEq, Repr

inductive DispatchMode where
  | mcpClient
  | direct
  | fallback
  deriving DecidableEq, Repr

/-- A receipt, without the latency. -/
structure DispatchReceipt where
  mode : DispatchMode
  command : String
  reason : Option String := none
  serverPid : Option Int := none
  deriving DecidableEq, Repr

/-- The calls that a dispatch makes besides those of the service. -/
inductive HybridCall where
  | discoverServer
  | post (request : Post)
  | writeReceipt (receipt : DispatchReceipt)

def HybridCall.Value : HybridCall → Type
  | .discoverServer => Option ServerInfo
  | .post _ => HttpResponse
  | .writeReceipt _ => Unit

def hybridSignature : Signature := ⟨HybridCall, HybridCall.Value⟩

abbrev HybridProgram := Program (hybridSignature.sum storeSignature) Exn

def hybridCall (c : HybridCall) : HybridProgram c.Value :=
  .perform (σ := hybridSignature.sum storeSignature) (.inl c)

/-- A call of the service of the client itself. -/
def onService {α : Type} (p : MemoryProgram α) : HybridProgram α := p.lift (.inr hybridSignature storeSignature)

section Parsing

/-- `response.raise_for_status()`. -/
def raiseForStatus (r : HttpResponse) : Except Exn Unit :=
  if 200 ≤ r.status ∧ r.status < 300 then .ok () else .error (.other s!"HTTP status {r.status}")

/-- `text.split(sep)`. -/
def splitOn (sep : Char) : List Char → List Char → List String
  | [], part => [String.ofList part.reverse]
  | c :: cs, part =>
    if c = sep then String.ofList part.reverse :: splitOn sep cs [] else splitOn sep cs (c :: part)

variable (lib : JsonLib)

/-- The JSON text of the first data line. -/
def parseSse (text : String) : Except Exn Json :=
  match (splitOn '\n' text.toList []).find? fun line => "data:".toList.isPrefixOf line.toList with
  | some line => lib.loads (strip (String.ofList (line.toList.drop 5)))
  | none => .error (.runtimeError
    ("No data line in SSE response: " ++ String.ofList (text.toList.take 200)))

def noAttribute (j : Json) (name : String) : Exn :=
  .attributeError s!"'{j.typeName}' object has no attribute '{name}'"

/-- The content items of a result, as a loop goes over them: the names of an object, the characters of a
string. -/
def contentItems : Json → Except Exn (List Json)
  | .arr items => .ok items
  | .obj fields => .ok (fields.map fun field => .str field.1)
  | .str s => .ok (s.toList.map fun c => .str (String.ofList [c]))
  | j => .error (.typeError s!"'{j.typeName}' object is not iterable")

/-- The text of the first item of type text. -/
def firstText : List Json → Except Exn (Option Json)
  | [] => .ok none
  | .obj content :: rest =>
    if JsonObject.get content "type" = .str "text" then
      .ok (some (JsonObject.getD content "text" (.str "")))
    else firstText rest
  | j :: _ => .error (noAttribute j "get")

/-- A text that is not JSON is taken as it is. -/
def loadText : Json → Except Exn Json
  | .str text =>
    match lib.loads text with
    | .ok j => .ok j
    | .error (.jsonDecodeError _) => .ok (.str text)
    | .error (.typeError _) => .ok (.str text)
    | .error e => .error e
  | j => .ok j

/-- What a response to the call of a tool says, or the error that it is turned into. -/
def toolResult (r : HttpResponse) : Except Exn Json := do
  raiseForStatus r
  let data ← parseSse lib r.text
  match data with
  | .obj data =>
    if (data.lookup "error").isSome then .error (.runtimeError "MCP JSON-RPC error")
    else match JsonObject.getD data "result" (.obj []) with
      | .obj result =>
        if (JsonObject.get result "isError").truthy then .error (.runtimeError "MCP tool error")
        else do
          let items ← contentItems (JsonObject.getD result "content" (.arr []))
          let text ← firstText items
          match text with
          | some text => loadText lib text
          | none => return .obj result
      | result => .error (noAttribute result "get")
  | data => .error (noAttribute data "get")

end Parsing

section Calls

/-- The message of a session's start. -/
def initializeMessage (id : Nat) : Json :=
  .obj [("jsonrpc", .str "2.0"), ("id", .int id), ("method", .str "initialize"),
    ("params", .obj [("protocolVersion", .str "2025-03-26"), ("capabilities", .obj []),
      ("clientInfo", .obj [("name", .str "fork-hybrid"), ("version", .str "1.0")])])]

def initializedMessage : Json :=
  .obj [("jsonrpc", .str "2.0"), ("method", .str "notifications/initialized")]

def toolsCallMessage (id : Nat) (toolName : String) (arguments : JsonObject) : Json :=
  .obj [("jsonrpc", .str "2.0"), ("id", .int id), ("method", .str "tools/call"),
    ("params", .obj [("name", .str toolName), ("arguments", .obj arguments)])]

/-- Open a session unless there is one. The status of the answer to the second message is not looked
at. -/
def ensureSession (client : MCPClient) : HybridProgram MCPClient :=
  match client.sessionId with
  | some _ => return client
  | none => do
    let msgId := client.msgId + 1
    let r : HttpResponse ← hybridCall (.post ⟨client.url, initializeMessage msgId, none⟩)
    .ofExcept (raiseForStatus r)
    let _ : HttpResponse ← hybridCall
      (.post ⟨client.url, initializedMessage, r.sessionId.filter (· ≠ "")⟩)
    return { client with sessionId := r.sessionId, msgId }

/-- The request that calls a tool. -/
def toolRequest (client : MCPClient) (toolName : String) (arguments : JsonObject) : Post :=
  ⟨client.url, toolsCallMessage (client.msgId + 1) toolName arguments, client.sessionId.filter (· ≠ "")⟩

def callToolSync (lib : JsonLib) (client : MCPClient) (toolName : String) (arguments : JsonObject) :
    HybridProgram Json := do
  let client ← ensureSession client
  let r : HttpResponse ← hybridCall (.post (toolRequest client toolName arguments))
  .ofExcept (toolResult lib r)

end Calls

section Observations

/-- `Observation(**fields)`, with the fields that the entity has. -/
def observationOf (fields : JsonObject) : Except Exn Observation :=
  observation
    { id := fields.get "id", timestamp := fields.get "timestamp", content := fields.get "content"
      title := (match fields.get "title" with | .str title => some title | _ => none)
      metadata := fields.get "metadata", idempotencyKey := fields.get "idempotency_key"
      project := fields.get "project", type := fields.get "type", topicKey := fields.get "topic_key"
      revisionCount := fields.getD "revision_count" (.int 1)
      sessionId := (match fields.get "session_id" with | .str sessionId => some sessionId | _ => none) }

/-- `except (TypeError, KeyError)`. -/
def Exn.isTypeOrKeyError : Exn → Bool
  | .typeError _ | .keyError _ => true
  | _ => false

/-- `_to_observation`. -/
def toObservation : Json → Except Exn (Option Observation)
  | .obj fields =>
    match observationOf fields with
    | .ok o => .ok (some o)
    | .error e => if Exn.isTypeOrKeyError e then .ok none else .error e
  | _ => .ok none

end Observations

section Dispatcher

/-- The environment that a dispatcher reads, and the client that it has cached. -/
structure Dispatcher where
  lib : JsonLib
  service : MemoryService
  /-- `FORK_MCP_DISABLED=1`. -/
  disabled : Bool := false
  /-- `FORK_MCP_REQUIRE=1`. -/
  required : Bool := false
  cached : Option MCPClient := none

namespace Dispatcher

variable (d : Dispatcher)

def validateContent (content : String) : Except Exn Unit := do
  require (strip content ≠ "") (.valueError "Content cannot be empty")
  require ('\x00' ∉ content.toList) (.valueError "Content contains null bytes")

/-- The client of a server that was found: the cached one if it goes to the same port. -/
def clientFor (info : ServerInfo) : MCPClient :=
  let ending := s!":{info.port}/mcp"
  match d.cached.filter fun client => ending.toList.isSuffixOf client.url.toList with
  | some client => client
  | none => { url := s!"http://{info.host}:{info.port}/mcp" }

/-- `_get_mcp_client`, with the process id of the server. -/
def getMcpClient : HybridProgram (Option (MCPClient × Int)) :=
  if d.disabled then return none
  else do
    let info : Option ServerInfo ← hybridCall .discoverServer
    match info with
    | some info => return some (d.clientFor info, info.pid)
    | none =>
      if d.required then
        throw (.runtimeError
          "FORK_MCP_REQUIRE=1 but no MCP server available. Run 'memory mcp start' first.")
      else return none

/-- `_record`: an `OSError` is dropped, and so is whatever the telemetry raises. -/
def record (receipt : DispatchReceipt) : HybridProgram Unit :=
  (hybridCall (.writeReceipt receipt)).handle fun e => if e.isOSError then return () else throw e

/-- `_on_mcp_error`. -/
def onMcpError (e : Exn) : HybridProgram Unit :=
  if d.required then throw (.runtimeError ("MCP call failed (FORK_MCP_REQUIRE=1): " ++ e.message))
  else return ()

/-- The client's own call, and its receipt. -/
def directly {α : Type} (command : String) (fellBack : Bool) (call : MemoryProgram α) :
    HybridProgram (α × DispatchReceipt) := do
  let result ← onService call
  let receipt : DispatchReceipt :=
    if fellBack then { mode := .fallback, command, reason := some "protocol_error" }
    else { mode := .direct, command }
  record receipt
  return (result, receipt)

/-- Call the tool, read what comes back and record it. -/
def remotely {α : Type} (command toolName : String) (arguments : JsonObject)
    (read : Json → HybridProgram α) (client : MCPClient) (pid : Int) :
    HybridProgram (α × DispatchReceipt) := do
  let result ← callToolSync d.lib client toolName arguments
  let value ← read result
  let receipt : DispatchReceipt := { mode := .mcpClient, command, serverPid := some pid }
  record receipt
  return (value, receipt)

/-- A command: through the server if there is one, and directly if not or if that raises. -/
def dispatch {α : Type} (command : String) (remote : MCPClient → Int → HybridProgram (α × DispatchReceipt))
    (direct : MemoryProgram α) : HybridProgram (α × DispatchReceipt) := do
  let client ← d.getMcpClient
  match client with
  | none => directly command false direct
  | some (client, pid) =>
    (remote client pid).handle fun e => do
      d.onMcpError e
      directly command true direct

end Dispatcher

end Dispatcher

end ForkAgent.Hybrid

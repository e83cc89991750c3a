import ForkAgent.Effects.Execution
import ForkAgent.Obsidian.Export
import ForkAgent.Text.Bytes
import ForkAgent.Text.FirstMatch

/-!
# Import of notes

The notes of a directory are read one after another. A note that has front matter and some content is handed
to the save function; what is wrong with the others is collected.
-/

namespace ForkAgent.Obsidian

open Effects Text

/-- A file that the search for notes lists: where it lies in the directory, whether it leads out of it, and
what reading it gives. -/
structure MdFile where
  folders : List String := []
  name : String
  isInside : Bool := true
  isFile : Bool := true
  bytes : Except Exn ByteArray

/-- The keyword arguments of the save function. -/
structure SaveArgs where
  content : String
  title : Option String
  topicKey : Json
  project : Json
  type : Json
  metadata : Option JsonObject

section Parse

/-- Universal newlines: a carriage return, with a line feed or alone, is read as a line feed. -/
def readNewlines : List Char → List Char
  | [] => []
  | '\r' :: '\n' :: cs => '\n' :: readNewlines cs
  | '\r' :: cs => '\n' :: readNewlines cs
  | c :: cs => c :: readNewlines cs

/-- The pattern of the front matter, up to its first group and between its groups. -/
def yamlOpening : Pattern := .seq (.lit "---".toList) (.seq (.many isSpace 0) (.one (· = '\n')))

def yamlClosing : Pattern :=
  .seq (.lit "\n---".toList) (.seq (.many isSpace 0) (Pattern.opt (.one (· = '\n'))))

/-- `_yaml_pattern.match`, whose groups match any character. -/
def matchYaml (raw : List Char) : Option (List Char × List Char) :=
  (groups yamlOpening (.few (fun _ => true) 0) yamlClosing (.many (fun _ => true) 0) raw).head?

def h1Pattern : Pattern :=
  .seq (.one (· = '#')) (.seq (.many isSpace 1) (.seq (.many (· ≠ '\n') 1)
    (.seq (.one (· = '\n')) (Pattern.opt (.one (· = '\n'))))))

/-- `_h1_pattern.sub("", body, count=1)`: the first match at the start of a line is taken out. -/
def stripH1Title : Bool → List Char → List Char
  | _, [] => []
  | lineStart, c :: cs =>
    match if lineStart then (h1Pattern.ways (c :: cs)).head? else none with
    | some way => way.2
    | none => c :: stripH1Title (c = '\n') cs

def extractH1Title (body : List Char) : Option String :=
  (((body.splitOn '\n').map fun line => strip (String.ofList line)).find? fun line =>
    "# ".toList.isPrefixOf line.toList).map fun line => strip (String.ofList (line.toList.drop 2))

/-- A file that cannot be read counts as binary. -/
def isBinary (file : MdFile) : Bool :=
  match file.bytes with
  | .ok bytes => decide (0 ∈ (bytesOf bytes).take 512)
  | .error _ => true

/-- The front matter and the body of a note, if it has the form of one. -/
def parseFile (yaml : Yaml) (file : MdFile) : Except Exn (Option (JsonObject × String)) :=
  match file.bytes with
  | .error e => if e.isOSError then .ok none else .error e
  | .ok bytes =>
    match String.fromUTF8? bytes with
    | none => .ok none
    | some text =>
      match matchYaml (readNewlines text.toList) with
      | none => .ok none
      | some (fm, body) =>
        match yaml.safeLoad (String.ofList fm) with
        | .ok (.obj frontmatter) => .ok (some (frontmatter, String.ofList body))
        | .ok _ => .ok none
        | .error e => if yaml.isYamlError e then .ok none else .error e

end Parse

section Import

/-- The save function, and `uuid.uuid4()`. -/
inductive ImportCall where
  | save (args : SaveArgs)
  | uuid4

def ImportCall.Value : ImportCall → Type
  | .save _ => String
  | .uuid4 => String

def importSignature : Signature := ⟨ImportCall, ImportCall.Value⟩

abbrev ImportProgram := Program importSignature Exn

def importCall (c : ImportCall) : ImportProgram c.Value := .perform (σ := importSignature) c

def memorySave (args : SaveArgs) : ImportProgram String := importCall (.save args)

def uuid4 : ImportProgram String := importCall .uuid4

/-- The service with what counts as a UUID. -/
structure ObsidianImportService where
  yaml : Yaml
  isUuid : String → Bool

/-- The arguments of an import; the ids that exist count when duplicates are skipped. -/
structure ImportArgs where
  inputDir : String
  existingIds : List String := []
  dryRun : Bool := false
  projectOverride : Option String := none
  skipDuplicates : Bool := false

structure ImportResult where
  totalFiles : Nat
  imported : Nat
  skipped : Nat
  errors : List String
  importedIds : List String

/-- What is collected on the way. -/
structure ImportState where
  skipped : Nat := 0
  errors : List String := []
  importedIds : List String := []

def MdFile.path (file : MdFile) : List String := file.folders ++ [file.name]

/-- What the metadata keep of the front matter. -/
def importMetadata (frontmatter : JsonObject) : JsonObject :=
  (match frontmatter.get "tags" with
    | .arr tags => [("tags", .arr tags)]
    | _ => []) ++
  match frontmatter.getD "revision_count" (.int 1) with
    | .int n => if 0 < n then [("revision_count", .int n)] else []
    | .bool true => [("revision_count", .bool true)]
    | _ => []

/-- The topic key of the front matter, or else the path without its suffix. -/
def importTopicKey (file : MdFile) (frontmatter : JsonObject) : Json :=
  if (frontmatter.get "topic_key").truthy then frontmatter.get "topic_key"
  else .str ("/".intercalate (file.folders ++ [nameStem file.name]))

/-- What the save function is called with, where the body has some content. -/
def saveArgs (projectOverride : Option String) (file : MdFile) (frontmatter : JsonObject) (body : String) :
    Option SaveArgs :=
  let content := strip (String.ofList (stripH1Title true body.toList))
  let metadata := importMetadata frontmatter
  if content = "" then none
  else some
    { content, title := extractH1Title body.toList
      topicKey := importTopicKey file frontmatter
      project := ((projectOverride.filter (· ≠ "")).map .str).getD (frontmatter.get "project")
      type := if (frontmatter.get "type").truthy then frontmatter.get "type" else .null
      metadata := if metadata = [] then none else some metadata }

namespace ObsidianImportService

variable (svc : ObsidianImportService)

/-- The id of the front matter where it is valid, or else a fresh one. -/
def importId (frontmatter : JsonObject) : ImportProgram String :=
  match frontmatter.get "id" with
  | .str id => if id ≠ "" ∧ svc.isUuid id then return id else uuid4
  | _ => uuid4

/-- One file, after its front matter was read. -/
def importParsed (args : ImportArgs) (file : MdFile) (parsed : Option (JsonObject × String))
    (state : ImportState) : ImportProgram ImportState :=
  match parsed with
  | none => return { state with errors := state.errors ++ ["No frontmatter: " ++ file.name] }
  | some (frontmatter, body) => do
    let id ← svc.importId frontmatter
    if args.skipDuplicates ∧ id ∈ args.existingIds then
      return { state with skipped := state.skipped + 1 }
    match saveArgs args.projectOverride file frontmatter body with
    | none => return { state with errors := state.errors ++ ["Empty content: " ++ file.name] }
    | some save =>
      if args.dryRun then return state
      else
        Program.handle
          (do
            let newId ← memorySave save
            return { state with importedIds := state.importedIds ++ [newId] })
          fun e => return { state with
            errors := state.errors ++ [s!"Save failed {file.name}: " ++ e.message] }

def importFile (args : ImportArgs) (file : MdFile) (state : ImportState) : ImportProgram ImportState :=
  if ¬ file.isInside then
    return { state with
      errors := state.errors ++ ["Path traversal blocked: " ++ "/".intercalate (args.inputDir :: file.path)] }
  else if ¬ file.isFile then return state
  else if isBinary file then return state
  else do
    let parsed ← .ofExcept (parseFile svc.yaml file)
    svc.importParsed args file parsed state

def importEach (args : ImportArgs) : List MdFile → ImportState → ImportProgram ImportState
  | [], state => return state
  | file :: files, state => do
    let state ← svc.importFile args file state
    importEach args files state

/-- `import_from_dir`, with the files that are found in the directory, in their order. -/
def importFromDir (args : ImportArgs) (files : List MdFile) : ImportProgram ImportResult := do
  let state ← svc.importEach args files {}
  return {
    totalFiles := files.countP fun file => file.isFile && !isBinary file
    imported := state.importedIds.length
    skipped := state.skipped
    errors := state.errors
    importedIds := state.importedIds }

end ObsidianImportService

end Import

end ForkAgent.Obsidian

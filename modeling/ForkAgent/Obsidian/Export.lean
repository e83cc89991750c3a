import ForkAgent.Memory.Entity
import ForkAgent.Python.Files

/-!
# Export of observations

An observation is rendered as a note: its metadata as front matter, its title as a heading and its content.
A note lies under the path that its topic key names, or else under its id.
-/

namespace ForkAgent.Obsidian

open Memory

/-- `yaml.dump(..., default_flow_style=False, allow_unicode=True)` and `yaml.safe_load`, which raises a
`YAMLError` for what is no YAML. -/
structure Yaml where
  dump : JsonObject → String
  safeLoad : String → Except Exn Json
  isYamlError : Exn → Bool

/-- The service with the time of a timestamp as text, and the characters of words. -/
structure ObsidianExportService where
  yaml : Yaml
  isoformat : Int → Except Exn String
  isWordChar : Char → Bool

/-- `id[:8]`. -/
def shortId (o : Observation) : String := String.ofList (o.val.id.toList.take 8)

/-- `[p for p in text.split("/") if p]`. -/
def topicParts (topicKey : String) : List String :=
  ((topicKey.toList.splitOn '/').filter (· ≠ [])).map String.ofList

section Render

/-- `value or ...`, of texts. -/
def given (text : Option String) : Option String := text.filter (· ≠ "")

def buildTags (o : Observation) : List String :=
  (given o.val.type).toList ++ ((given o.val.topicKey).map topicParts).getD []

/-- The front matter, without the entries that are `None`. -/
def frontmatter (o : Observation) (created : Option String) : JsonObject :=
  [("id", .str o.val.id), ("type", .ofText o.val.type), ("project", .ofText o.val.project),
    ("topic_key", .ofText o.val.topicKey), ("created", .ofText created),
    ("revision_count", .int o.val.revisionCount), ("tags", .arr ((buildTags o).map .str))].filter
      fun entry => entry.2 ≠ .null

def heading (o : Observation) : String := ((given o.val.title).or (given o.val.topicKey)).getD (shortId o)

namespace ObsidianExportService

variable (svc : ObsidianExportService)

def created (o : Observation) : Except Exn (Option String) :=
  if o.val.timestamp = 0 then .ok none else (svc.isoformat o.val.timestamp).map some

def render (o : Observation) : Except Exn String := do
  let created ← svc.created o
  return "---\n" ++ svc.yaml.dump (frontmatter o created) ++ "---\n# " ++ heading o ++ "\n\n" ++
    o.val.content ++ "\n"

end ObsidianExportService

end Render

section Files

/-- `base / "_orphans" / f"{id[:8]}.md"`. -/
def orphanPath (o : Observation) (base : Path) : Path := (base.join "_orphans").join (shortId o ++ ".md")

namespace ObsidianExportService

variable (svc : ObsidianExportService)

def sanitize (segment : String) : String :=
  let sanitized := segment.map fun c => if svc.isWordChar c ∨ c = '-' ∨ c = '.' then c else '_'
  if sanitized = "." ∨ sanitized = ".." then "_" else sanitized

/-- `base.joinpath(*sanitized).with_suffix(".md")`; there is always a name to put the suffix to. -/
def topicPath (topicKey : String) (base : Path) : Path :=
  let sanitized := (topicParts topicKey).map svc.sanitize
  let path := (if sanitized = [] then ["_root"] else sanitized).foldl Path.join base
  path.rename (withSuffix path.name ".md")

/-- A path that leads out of the directory is not taken. -/
def buildPath (fs : FileSystem) (o : Observation) (base : Path) : Path :=
  match given o.val.topicKey with
  | none => orphanPath o base
  | some topicKey =>
    let path := svc.topicPath topicKey base
    if fs.resolve base <+: fs.resolve path then path else orphanPath o base

/-- The loop over the observations, with the paths that were built before. -/
def exportEach (fs : FileSystem) (base : Path) : List Path → List Observation → FileProgram (List Path)
  | _, [] => return []
  | seen, o :: os => do
    let built := svc.buildPath fs o base
    let path ← .ofExcept
      (if built ∈ seen then built.withStem (nameStem built.name ++ "_" ++ shortId o) else .ok built)
    mkdir path.parent
    let text ← .ofExcept (svc.render o)
    writeText path text
    let created ← exportEach fs base (built :: seen) os
    return path :: created

def exportAll (fs : FileSystem) (observations : List Observation) (outputDir : Path) : FileProgram (List Path) := do
  mkdir outputDir
  svc.exportEach fs outputDir [] observations

end ObsidianExportService

end Files

end ForkAgent.Obsidian

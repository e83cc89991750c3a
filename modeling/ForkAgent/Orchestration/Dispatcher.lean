import ForkAgent.Effects.Traces
import ForkAgent.Python.Basic
import Mathlib.Data.List.Infix

/-!
# Hooks

An event is matched against rules, and the action of each rule that it satisfies is run in the shell. An
action says what becomes of its failure: it stops the dispatch, it is dropped, or the action is tried again.
-/

namespace ForkAgent.Orchestration

open Effects

section Events

/-- An event: the name of its class and its attributes that are strings. -/
structure Event where
  className : String
  attributes : List (String × String)
  deriving DecidableEq, Repr

def eventFieldExtractors : List (String × String) :=
  [("UserCommand", "command_name"), ("FileWritten", "path"), ("ToolPreExecution", "tool_name"),
    ("SessionStart", "session_id"), ("SubagentStart", "agent_name"), ("SubagentStop", "agent_name"),
    ("WorkflowPhaseChange", "plan_id"), ("WorkflowOutlineStart", "plan_id"),
    ("WorkflowOutlineComplete", "plan_id"), ("WorkflowExecuteStart", "plan_id"),
    ("WorkflowExecuteComplete", "plan_id"), ("WorkflowVerifyStart", "plan_id"),
    ("WorkflowVerifyComplete", "plan_id"), ("WorkflowShipStart", "plan_id"), ("WorkflowShipComplete", "plan_id")]

/-- The attributes that an event of an unknown type is matched by, the first one that it has. -/
def protocolFields : List String :=
  ["plan_id", "session_id", "agent_name", "command_name", "path", "tool_name"]

/-- `text.replace(word, "")`, for a word that is not empty. -/
def removeAll (word : List Char) : List Char → Nat → List Char
  | [], _ => []
  | _ :: cs, skip + 1 => removeAll word cs skip
  | c :: cs, 0 => if word.isPrefixOf (c :: cs) then removeAll word cs (word.length - 1) else c :: removeAll word cs 0

/-- The name of the class without `Event`. -/
def Event.typeName (e : Event) : String := String.ofList (removeAll "Event".toList e.className.toList 0)

/-- `re.compile(pattern).search(text)` as a truth value; a pattern that does not compile has none. -/
abbrev RegexLib := String → Option (String → Bool)

structure RegexMatcherSpec where
  eventType : String
  matcher : String
  deriving DecidableEq, Repr

/-- A pattern that does not compile matches nothing. -/
def RegexMatcherSpec.isSatisfiedBy (re : RegexLib) (spec : RegexMatcherSpec) (event : Event) : Bool :=
  if event.typeName ≠ spec.eventType then false
  else
    let value := match eventFieldExtractors.lookup event.typeName with
      | some fieldName => event.attributes.lookup fieldName
      | none => protocolFields.findSome? fun fieldName => event.attributes.lookup fieldName
    match value, re spec.matcher with
    | some value, some search => search value
    | _, _ => false

end Events

section Actions

inductive OnFailurePolicy where
  | abort
  | continue
  | retry
  deriving DecidableEq, Repr

structure ShellCommandFields where
  command : String
  timeout : Int := 30
  critical : Bool := true
  onFailure : OnFailurePolicy := .abort
  deriving DecidableEq, Repr

namespace ShellCommandFields

def postInit (a : ShellCommandFields) : Except Exn Unit :=
  require (0 < a.timeout) (.valueError "timeout must be positive")

def continueOnFailure (a : ShellCommandFields) : Bool := !a.critical || a.onFailure = .continue

end ShellCommandFields

abbrev ShellCommandAction := Validated ShellCommandFields.postInit

structure Rule where
  spec : RegexMatcherSpec
  action : ShellCommandAction

end Actions

section Runner

/-- A process that has ended. -/
structure CompletedProcess where
  returncode : Int
  stderr : String := ""
  deriving DecidableEq, Repr

/-- `subprocess.run` in a shell. -/
structure ShellCall where
  command : String
  timeout : Int
  env : List (String × String)
  deriving DecidableEq, Repr

def shellSignature : Signature := ⟨ShellCall, fun _ => CompletedProcess⟩

abbrev HookProgram := Program shellSignature Exn

def dangerousEnvVars : List String :=
  ["LD_PRELOAD", "LD_LIBRARY_PATH", "LD_AUDIT", "LD_DEBUG", "BASH_ENV", "ENV", "CDPATH", "GLOBIGNORE",
    "BASH_FUNC_*", "IFS", "MAIL", "MAILPATH", "OPTIND", "PS1", "PS2", "FIGNORE"]

def safeDefaultEnvVars : List String :=
  ["HOME", "USER", "LOGNAME", "PATH", "SHELL", "TERM", "LANG", "LC_ALL", "PWD", "SHLVL"]

def dangerousPatterns : List String :=
  ["curl ", "wget ", "nc ", "ncat ", "bash -i", "sh -i", "/dev/tcp/", "/dev/udp/", "base64 -d", "xxd -r",
    "chmod 777", "chmod 666", "> /etc/", ">> /etc/", "mkfifo ", "nohup "]

/-- `pattern in text`. -/
def occursIn (pattern text : String) : Bool := pattern.toList <:+: text.toList

/-- The environment that a runner finds, and the order in which it goes over the set of patterns. -/
structure ShellActionRunner where
  hooksDir : String
  defaultTimeout : Int := 30
  environ : List (String × String)
  patterns : List String := dangerousPatterns
  isPatterns : patterns.Perm dangerousPatterns := by exact List.Perm.refl _

namespace ShellActionRunner

variable (runner : ShellActionRunner)

/-- `key.startswith(pattern.rstrip("*"))` for the patterns that have a star. -/
def hasDangerousPrefix (key : String) : Bool :=
  dangerousEnvVars.any fun pattern => occursIn "*" pattern &&
    (pattern.toList.reverse.dropWhile (· = '*')).reverse.isPrefixOf key.toList

def getSafeEnv : List (String × String) :=
  runner.environ.filter (fun var => var.1 ∉ dangerousEnvVars && !hasDangerousPrefix var.1 &&
    var.1 ∈ safeDefaultEnvVars) ++ [("HOOKS_DIR", runner.hooksDir)]

def validateCommand (command : String) : Except Exn Unit :=
  match runner.patterns.find? fun pattern => occursIn pattern (strip command) with
  | some pattern => .error (.hookExecutionError ("Blocked dangerous command pattern: " ++ strip pattern))
  | none => .ok ()

/-- The call that runs an action. -/
def shellCall (action : ShellCommandAction) : ShellCall where
  command := action.val.command
  timeout := if action.val.timeout = 0 then runner.defaultTimeout else action.val.timeout
  env := runner.getSafeEnv

/-- What a process that has not come to its end makes of a run. -/
def onTimeout (action : ShellCommandAction) : Exn → Except Exn Unit
  | .timeoutExpired _ =>
    let timeout := (runner.shellCall action).timeout
    if action.val.continueOnFailure then .ok ()
    else .error (.hookExecutionError s!"Action timed out after {timeout} seconds: {action.val.command}")
  | e => .error e

/-- What a process that has ended makes of a run. -/
def onCompleted (action : ShellCommandAction) (result : CompletedProcess) : Except Exn Unit :=
  if result.returncode = 0 ∨ action.val.continueOnFailure then .ok ()
  else
    let message := if result.stderr = "" then "Unknown error" else String.ofList (result.stderr.toList.take 200)
    .error (.hookExecutionError s!"Action failed (exit {result.returncode}): {message}")

def run (action : ShellCommandAction) : HookProgram Unit := do
  .ofExcept (runner.validateCommand action.val.command)
  let result : Option CompletedProcess ←
    ((Program.perform (σ := shellSignature) (runner.shellCall action)) >>= fun r => return some r).handle fun e => do
      .ofExcept (runner.onTimeout action e)
      return none
  match result with
  | some result => .ofExcept (onCompleted action result)
  | none => return ()

end ShellActionRunner

end Runner

section Dispatcher

structure EventDispatcher where
  rules : List Rule
  runner : ShellActionRunner
  defaultRetryAttempts : Int := 2

namespace EventDispatcher

variable (d : EventDispatcher)

def runWithPolicy (rule : Rule) : HookProgram Unit :=
  let run := d.runner.run rule.action
  match rule.action.val.onFailure with
  | .continue => run.handle fun _ => return ()
  | .retry => .tried run d.defaultRetryAttempts.toNat
  | .abort => run

def dispatch (re : RegexLib) (event : Event) : HookProgram Unit :=
  .each d.runWithPolicy (d.rules.filter fun rule => rule.spec.isSatisfiedBy re event)

end EventDispatcher

end Dispatcher

end ForkAgent.Orchestration

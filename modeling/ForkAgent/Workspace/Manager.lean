import ForkAgent.Effects.Serial
import ForkAgent.Python.Basic

/-!
# The workspace manager

Workspaces are git worktrees, each on a branch of its own name. The manager runs git commands, any of
which may fail or raise; a branch is merged in the main working tree, or by way of a temporary one.
-/

namespace ForkAgent.Workspace

open Effects

structure CompletedProcess where
  returncode : Int
  stdout : String := ""
  stderr : String := ""

/-- A worktree as git lists it: its path and its branch, without `refs/heads/`. -/
structure Worktree where
  path : String
  branch : String
  deriving DecidableEq, Repr

/-- Git commands, with the directory they run in where one is given, and what else the manager asks
of the file system. -/
inductive GitCall where
  | git (cwd : Option String) (args : List String)
  | worktreeList
  | repoRoot
  | runTeardown (path : String)
  | isClean (path : String)
  | mkdtemp
  | rmtree (path : String)

def GitCall.Value : GitCall → Type
  | .git .. => CompletedProcess
  | .worktreeList => List Worktree
  | .repoRoot | .mkdtemp => String
  | .isClean _ => Bool
  | .runTeardown _ | .rmtree _ => Unit

def gitSignature : Signature := ⟨GitCall, GitCall.Value⟩

abbrev GitProgram := Program gitSignature Exn

section Commands

def gitCall (c : GitCall) : GitProgram c.Value := Program.perform (σ := gitSignature) c

/-- `subprocess.run(["git", ...], check=False)`. -/
def runGit (cwd : Option String) (args : List String) : GitProgram CompletedProcess :=
  gitCall (.git cwd args)

/-- `_run_git_command`. -/
def runGitCommand (cwd : Option String) (args : List String) : GitProgram Unit := do
  let result ← runGit cwd args
  if result.returncode = 0 then return ()
  else throw (.gitError ("Git command failed: git " ++ " ".intercalate args))

/-- `except GitError as e: raise GitError(f"{context}: {e}")`. -/
def gitErrorAs (context : String) (p : GitProgram Unit) : GitProgram Unit :=
  p.handle fun
    | .gitError m => throw (.gitError (context ++ ": " ++ m))
    | e => throw e

/-- `_git_output`. -/
def gitOutput (args : List String) : GitProgram (Option String) :=
  (do
    let result ← runGit none args
    return if result.returncode = 0 then some (strip result.stdout) else none).handle fun
    | .timeoutExpired _ | .fileNotFoundError _ => return none
    | e => throw e

/-- `try: p finally: final`; what `final` raises takes the place of what `p` did. -/
def ensuring (p final : GitProgram Unit) : GitProgram Unit := do
  let outcome ← (p >>= fun _ => return (none : Option Exn)).handle fun e => return some e
  final
  match outcome with
  | none => return ()
  | some e => throw e

end Commands

/-- The repository that the manager works on, and whether it has hooks to run. -/
structure WorkspaceManager where
  repoPath : Option String := none
  hasHookRunner : Bool := false

structure WorkspaceInfo where
  name : String
  path : String
  repoRoot : String

namespace WorkspaceManager

variable (manager : WorkspaceManager)

/-- Find a workspace; the main working tree is none. -/
def startWorkspace (name : String) : GitProgram WorkspaceInfo := do
  let worktrees : List Worktree ← gitCall .worktreeList
  let repoRoot : String ← gitCall .repoRoot
  match worktrees.find? fun wt => wt.branch = name ∧ wt.path ≠ repoRoot with
  | some wt => return { name, path := wt.path, repoRoot }
  | none => throw (.workspaceNotFoundError ("Workspace '" ++ name ++ "' not found"))

/-- A hook that cannot be run is logged. -/
def teardown (path : String) : GitProgram Unit :=
  if manager.hasHookRunner then
    (gitCall (.runTeardown path)).handle fun
      | .hookExecutionError _ => return ()
      | e => throw e
  else return ()

/-- Refuse what is not clean, unless forced. -/
def checkClean (name path : String) : Bool → GitProgram Unit
  | true => return ()
  | false => do
    let clean : Bool ← gitCall (.isClean path)
    if clean then return ()
    else throw (.workspaceNotCleanError ("Workspace '" ++ name ++
      "' has uncommitted changes. Use force=True to remove anyway."))

def worktreeRemove (path : String) (force : Bool) : GitProgram Unit :=
  runGitCommand manager.repoPath
    (["worktree", "remove"] ++ (if force then ["--force"] else []) ++ [path])

def branchDelete (branch : String) (force : Bool) : GitProgram Unit :=
  runGitCommand manager.repoPath ["branch", if force then "-D" else "-d", branch]

def removeWorkspace (name : String) (force : Bool) : GitProgram Unit := do
  let workspace ← startWorkspace name
  manager.teardown workspace.path
  checkClean name workspace.path force
  manager.worktreeRemove workspace.path force
  manager.branchDelete name force

def mergeWorkspace (name targetBranch : String) (deleteBranch : Bool) : GitProgram Unit := do
  let workspace ← startWorkspace name
  gitErrorAs ("Failed to checkout target branch '" ++ targetBranch ++ "'")
    (runGitCommand (some workspace.repoRoot) ["checkout", targetBranch])
  gitErrorAs ("Failed to merge branch '" ++ name ++ "'")
    (runGitCommand (some workspace.repoRoot) ["merge", name, "--no-edit"])
  if deleteBranch then
    gitErrorAs ("Failed to delete branch '" ++ name ++ "'") (manager.branchDelete name false)
  else return ()

end WorkspaceManager

/-- `text or default`. -/
def orElseText (text default : String) : String := if text = "" then default else text

/-- The steps between making the temporary worktree and removing it. -/
def mergeInWorktree (repoRoot tempDir branchName targetBranch : String) : GitProgram Unit := do
  let added ← runGit none ["-C", repoRoot, "worktree", "add", tempDir, targetBranch]
  if added.returncode ≠ 0 then
    throw (.runtimeError (orElseText (strip added.stderr) "git worktree add failed"))
  let merged ← runGit none ["-C", tempDir, "merge", branchName, "--no-edit"]
  if merged.returncode ≠ 0 then
    let _ ← runGit none ["-C", tempDir, "merge", "--abort"]
    throw (.runtimeError (orElseText (strip merged.stderr) "git merge failed"))

/-- `_merge_branch_via_temp_worktree`. -/
def mergeBranchViaTempWorktree (branchName targetBranch : String) : GitProgram Unit := do
  match ← gitOutput ["rev-parse", "--show-toplevel"] with
  | none => throw (.runtimeError "Unable to detect git repository root")
  | some repoRoot =>
    let tempDir : String ← gitCall .mkdtemp
    ensuring (mergeInWorktree repoRoot tempDir branchName targetBranch) do
      let _ ← runGit none ["-C", repoRoot, "worktree", "remove", tempDir, "--force"]
      gitCall (.rmtree tempDir)

/-- How `ship` merges a branch: across branches by way of a temporary worktree, where it may use
one. -/
def shipMerge (manager : WorkspaceManager) (useWorktree : Bool) (name targetBranch : String) :
    GitProgram Unit := do
  let current ← gitOutput ["rev-parse", "--abbrev-ref", "HEAD"]
  if useWorktree ∧ orElseText (current.getD "") "unknown" ≠ targetBranch then
    mergeBranchViaTempWorktree name targetBranch
  else manager.mergeWorkspace name targetBranch false

end ForkAgent.Workspace

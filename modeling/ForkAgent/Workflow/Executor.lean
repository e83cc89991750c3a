import Mathlib.Data.List.Infix
import ForkAgent.Workflow.Cleanup
import ForkAgent.Workflow.Commands

/-!
# Executing a task

A task is launched in a session, and whatever comes of that it gets a worktree of its own. The
launch is left open; where the task is being handled already, or the registry cannot tell, nothing
else is done. Git may leave a branch or a worktree behind when it fails to add one.
-/

namespace ForkAgent.Workflow

open Effects Workspace

inductive LayoutType where
  | nested
  | outerNested
  | sibling
  deriving DecidableEq, Repr

structure RepoRoot where
  parent : String
  name : String

/-- `LayoutResolver.resolve_path`. -/
def LayoutType.resolvePath (name : String) (root : RepoRoot) : LayoutType → String
  | .nested => root.parent ++ "/" ++ root.name ++ "/.worktrees/" ++ name
  | .outerNested => root.parent ++ "/" ++ root.name ++ ".worktrees/" ++ name
  | .sibling => root.parent ++ "/" ++ root.name ++ "-" ++ name

/-- What comes of the launch: the session that was made, and the errors met on the way. -/
inductive LaunchOutcome where
  | suppressed (session : Option String) (reason : String)
  | blocked (reason : String)
  | started (session : Option String) (errors : List String)

inductive ExecutorCall where
  | uuid4Hex
  | launch (task : Task) (model : String)
  | repoRoot
  | worktreeIsValid (path : String)
  | worktreeAdd (path branch : String)

def ExecutorCall.Value : ExecutorCall → Type
  | .uuid4Hex => String
  | .launch .. => LaunchOutcome
  | .repoRoot => RepoRoot
  | .worktreeIsValid _ => Bool
  | .worktreeAdd .. => Unit

def executorSignature : Signature := ⟨ExecutorCall, ExecutorCall.Value⟩

abbrev ExecutorProgram := Program executorSignature Exn

/-- What executions have made: the worktrees with their branches, and branches without a worktree. -/
structure Repository where
  worktrees : List Worktree := []
  branches : List String := []

def Repository.add (s : Repository) (worktrees : List Worktree) : Repository :=
  { s with worktrees := s.worktrees ++ worktrees }

/-- `git worktree add -b` makes the branch first. When it fails it may have got that far, or may have
made the worktree, too. -/
def executorStep : Semantics executorSignature Exn Repository
  | ⟨.worktreeAdd path branch, .ok _⟩, s, s' => s' = s.add [⟨path, branch⟩]
  | ⟨.worktreeAdd path branch, .error _⟩, s, s' =>
    s' = s ∨ s' = { s with branches := s.branches ++ [branch] } ∨ s' = s.add [⟨path, branch⟩]
  | _, s, s' => s' = s

/-- Git leaves nothing behind where it fails, and no launch raises. -/
def orderlyStep : Semantics executorSignature Exn Repository := fun a s s' =>
  executorStep a s s' ∧ (∀ e, a.answer = .error e → s' = s) ∧ ∀ task model e, a ≠ ⟨.launch task model, .error e⟩

/-- Git adds nothing: every attempt fails, and leaves nothing behind. -/
def idleStep : Semantics executorSignature Exn Repository := fun a s s' => executorStep a s s' ∧ s' = s

section Programs

variable (layout : LayoutType) (lower : String → String)

def executorCall (c : ExecutorCall) : ExecutorProgram c.Value :=
  Program.perform (σ := executorSignature) c

/-- `create_workspace`, by a manager without hooks; the path of the workspace. -/
def createWorkspace (name : String) : ExecutorProgram String := do
  let root : RepoRoot ← executorCall .repoRoot
  let path := layout.resolvePath name root
  let valid : Bool ← executorCall (.worktreeIsValid path)
  if valid then throw (.other ("Workspace '" ++ name ++ "' already exists at " ++ path))
  executorCall (.worktreeAdd path name)
  return path

def baseWorktreeName (task : Task) : String := "task-" ++ String.ofList (task.slug.toList.take 30)

def freshWorktreeName (base hex : String) : String :=
  String.ofList (base.toList.take 24) ++ "-" ++ String.ofList (hex.toList.take 6)

/-- A workspace as the worktree that git has for it. -/
def workspaceNamed (name : String) : ExecutorProgram Worktree := do
  let path ← createWorkspace layout name
  return { path, branch := name }

/-- The worktree of a task, under another name where its own is taken. -/
def createWorktree (task : Task) : ExecutorProgram Worktree :=
  (workspaceNamed layout (baseWorktreeName task)).handle fun e =>
    if "already exists".toList <:+: (lower e.message).toList then do
      let hex : String ← executorCall .uuid4Hex
      workspaceNamed layout (freshWorktreeName (baseWorktreeName task) hex)
    else throw e

/-- The result of a launch that was started. -/
def startedResult (task : Task) (session : Option String) (errors : List String) :
    Except Exn Worktree → TaskExecutionResult
  | .ok worktree =>
    { task, sessionName := session, worktreePath := some worktree.path,
      worktreeName := some worktree.branch, error := joinErrors errors }
  | .error e =>
    { task, sessionName := session,
      error := joinErrors (errors ++ ["Failed to create worktree: " ++ e.message]) }

/-- The worktree, or the error that was caught. -/
def attemptWorktree (task : Task) : ExecutorProgram (Except Exn Worktree) :=
  (do
    let worktree ← createWorktree layout lower task
    return (.ok worktree : Except Exn Worktree)).handle fun e => return .error e

def executeTask (task : Task) (model : String) : ExecutorProgram TaskExecutionResult := do
  let outcome : LaunchOutcome ← executorCall (.launch task model)
  match outcome with
  | .suppressed session reason =>
    return { task, sessionName := session, error := some ("Launch suppressed: " ++ reason) }
  | .blocked reason => return { task, error := some ("Launch blocked by registry error: " ++ reason) }
  | .started session errors =>
    let worktree ← attemptWorktree layout lower task
    return startedResult task session errors worktree

end Programs

/-- The worktree that an execution tells of. -/
def TaskExecutionResult.worktrees (result : TaskExecutionResult) : List Worktree :=
  match result.worktreePath, result.worktreeName with
  | some path, some name => [⟨path, name⟩]
  | _, _ => []

/-- A result for the task, with a path and a name or with neither. -/
structure ResultOf (task : Task) (result : TaskExecutionResult) : Prop where
  task : result.task = task
  worktree : (result.worktreePath = none ∧ result.worktreeName = none) ∨
    ∃ path name, path ≠ "" ∧ name ≠ "" ∧ result.worktreePath = some path ∧
      result.worktreeName = some name

section Specs

variable {layout : LayoutType} {lower : String → String} {s : Repository}

abbrev Makes {α : Type} (p : ExecutorProgram α) (Q : Except Exn α → Repository → Prop) (s : Repository) : Prop :=
  p.Always orderlyStep (fun _ _ => True) Q s

theorem resolvePath_ne_empty (layout : LayoutType) (name : String) (root : RepoRoot) :
    layout.resolvePath name root ≠ "" := by
  intro h
  have hlength := congrArg String.length h
  cases layout <;> simp [LayoutType.resolvePath, String.length_append] at hlength

theorem baseWorktreeName_ne_empty (task : Task) : baseWorktreeName task ≠ "" := by
  intro h
  have hlength := congrArg String.length h
  simp [baseWorktreeName, String.length_append] at hlength

theorem freshWorktreeName_ne_empty (base hex : String) : freshWorktreeName base hex ≠ "" := by
  intro h
  have hlength := congrArg String.length h
  simp [freshWorktreeName, String.length_append] at hlength

@[simp] theorem add_nil (s : Repository) : s.add [] = s := by simp [Repository.add]

theorem add_add (s : Repository) (worktrees others : List Worktree) :
    (s.add worktrees).add others = s.add (worktrees ++ others) := by simp [Repository.add]

/-- A program that returns has added these worktrees, and one that raises nothing. -/
def Adds {α : Type} (good : α → Prop) (added : α → List Worktree) (s : Repository) :
    Except Exn α → Repository → Prop
  | .ok a, s' => good a ∧ s' = s.add (added a)
  | .error _, s' => s' = s

theorem open_bind_makes {α : Type} {c : ExecutorCall} {k : c.Value → ExecutorProgram α}
    {Q : Except Exn α → Repository → Prop}
    (hopen : ∀ v s s', executorStep ⟨c, .ok v⟩ s s' → s' = s) (hok : ∀ v, Makes (k v) Q s)
    (herror : ∀ e, Q (.error e) s) : Makes (executorCall c >>= k) Q s := by
  apply (Program.always_perform_bind (σ := executorSignature) c k).mpr
  refine ⟨trivial, ?_, ?_⟩
  · intro v s' hstep
    rw [hopen _ _ _ hstep.1]
    exact hok v
  · intro e s' hstep
    rw [hstep.2.1 e rfl]
    exact herror e

theorem createWorkspace_makes {name : String} : Makes (createWorkspace layout name)
    (Adds (· ≠ "") (fun path => [⟨path, name⟩]) s) s := by
  unfold createWorkspace
  apply open_bind_makes
  · intro r s s' h
    exact h
  · intro root
    apply open_bind_makes
    · intro r s s' h
      exact h
    · intro valid
      cases valid with
      | true => exact rfl
      | false =>
        apply (Program.always_perform_bind (σ := executorSignature) (.worktreeAdd _ _) _).mpr
        refine ⟨trivial, ?_, ?_⟩
        · intro v s' hstep
          exact ⟨resolvePath_ne_empty _ _ _, hstep.1⟩
        · intro e s' hstep
          exact hstep.2.1 e rfl
    · intro e
      exact rfl
  · intro e
    exact rfl

theorem workspaceNamed_makes {name : String} (hname : name ≠ "") : Makes (workspaceNamed layout name)
    (Adds (fun worktree => worktree.path ≠ "" ∧ worktree.branch ≠ "") (fun worktree => [worktree]) s)
    s := by
  apply Program.Always.bind createWorkspace_makes
  · intro path s' ⟨hpath, hs'⟩
    exact ⟨⟨hpath, hname⟩, hs'⟩
  · intro e s' hs'
    exact hs'

theorem createWorktree_makes {task : Task} : Makes (createWorktree layout lower task)
    (Adds (fun worktree => worktree.path ≠ "" ∧ worktree.branch ≠ "") (fun worktree => [worktree]) s)
    s := by
  apply Program.Always.handle (workspaceNamed_makes (baseWorktreeName_ne_empty task))
  · intro worktree s' h
    exact h
  · intro e s' hs'
    rw [show s' = s from hs']
    by_cases hexists : "already exists".toList <:+: (lower e.message).toList
    · rw [if_pos hexists]
      apply open_bind_makes
      · intro r s s' h
        exact h
      · intro hex
        exact workspaceNamed_makes (freshWorktreeName_ne_empty _ _)
      · intro e'
        exact rfl
    · rw [if_neg hexists]
      exact rfl

theorem attemptWorktree_makes (task : Task) (session : Option String) (errors : List String) :
    Makes (attemptWorktree layout lower task) (fun out s' => ∃ r, out = .ok r ∧
      ResultOf task (startedResult task session errors r) ∧
      s' = s.add (startedResult task session errors r).worktrees) s := by
  have hcreated : Makes (do
      let worktree ← createWorktree layout lower task
      return (.ok worktree : Except Exn Worktree))
      (Adds (fun r => ∃ worktree : Worktree, r = .ok worktree ∧ worktree.path ≠ "" ∧
        worktree.branch ≠ "") (fun r => r.toOption.toList) s) s := by
    apply Program.Always.bind createWorktree_makes
    · intro worktree s' ⟨hgood, hs'⟩
      exact ⟨⟨worktree, rfl, hgood⟩, hs'⟩
    · intro e s' hs'
      exact hs'
  apply Program.Always.handle hcreated
  · intro r s' ⟨⟨worktree, hr, hpath, hbranch⟩, hs'⟩
    rw [hr] at hs' ⊢
    exact ⟨_, rfl, ⟨rfl, .inr ⟨_, _, hpath, hbranch, rfl, rfl⟩⟩, hs'⟩
  · intro e s' hs'
    rw [show s' = s from hs']
    exact ⟨_, rfl, ⟨rfl, .inl ⟨rfl, rfl⟩⟩, (add_nil s).symm⟩

/-- A task that is executed in order adds the worktree that its result tells of, and nothing raises. -/
theorem executeTask_makes {task : Task} {model : String} : Makes (executeTask layout lower task model)
    (fun out s' => ∃ result, out = .ok result ∧ ResultOf task result ∧ s' = s.add result.worktrees) s := by
  apply (Program.always_perform_bind (σ := executorSignature) (.launch task model) _).mpr
  refine ⟨trivial, ?_, fun e s' hstep => absurd rfl (hstep.2.2 task model e)⟩
  intro outcome s' hstep
  rw [show s' = s from hstep.1]
  cases outcome with
  | suppressed session reason => exact ⟨_, rfl, ⟨rfl, .inl ⟨rfl, rfl⟩⟩, (add_nil s).symm⟩
  | blocked reason => exact ⟨_, rfl, ⟨rfl, .inl ⟨rfl, rfl⟩⟩, (add_nil s).symm⟩
  | started session errors =>
    refine Program.Always.bind (attemptWorktree_makes task session errors) ?_ ?_
    · rintro r s' ⟨r', hr, hresult, hs'⟩
      cases hr
      exact ⟨_, rfl, hresult, hs'⟩
    · rintro e s' ⟨r, hr, -⟩
      cases hr

end Specs

end ForkAgent.Workflow

import ForkAgent.Workflow.State
import ForkAgent.Workspace.Manager

/-!
# Cleaning up worktrees

A worktree is merged and then removed by force. A failed merge is kept as an error and does not stop
the removal: what was asked to be cleaned up is cleaned up. The executor and `ship` each have a loop
of their own, and a way of their own to merge.
-/

namespace ForkAgent.Workflow

open Effects Workspace

/-- What a cleanup asks for: the workspace manager, the merge of a workspace into a branch and the
removal of a workspace. -/
inductive WorkspaceCall where
  | getManager
  | merge (name targetBranch : String)
  | remove (name : String) (force : Bool)
  deriving DecidableEq

def workspaceSignature : Signature := ⟨WorkspaceCall, fun _ => Unit⟩

abbrev WorkspaceProgram := Program workspaceSignature Exn

section Semantics

variable {S : Type}

/-- A merge and a removal are the programs of git commands that make them. -/
def workspaceStep (git : Semantics gitSignature Exn S) (manager : WorkspaceManager)
    (merge : String → String → GitProgram Unit) : Semantics workspaceSignature Exn S
  | ⟨.getManager, _⟩, s, s' => s' = s
  | ⟨.merge name targetBranch, r⟩, s, s' => (merge name targetBranch).Runs git s r s'
  | ⟨.remove name force, r⟩, s, s' => (manager.removeWorkspace name force).Runs git s r s'

end Semantics

def workspaceCall (c : WorkspaceCall) : WorkspaceProgram Unit :=
  Program.perform (σ := workspaceSignature) c

/-- The exception that a call raises, if any. -/
def failure (c : WorkspaceCall) : WorkspaceProgram (Option Exn) :=
  (workspaceCall c >>= fun _ => return none).handle fun e => return some e

/-- `task.branch or f"task-{task.slug[:30]}"`. -/
def Task.worktreeName (task : Task) : String :=
  (task.branch.filter (· ≠ "")).getD ("task-" ++ String.ofList (task.slug.toList.take 30))

def Task.hasWorktree (task : Task) : Bool := task.worktreePath.any (· ≠ "")

structure CleanupResult where
  worktreeName : String
  merged : Bool := false
  removed : Bool := false
  error : Option String := none
  deriving DecidableEq, Repr

/-- The errors of a cleanup, in the order in which they were met. -/
def cleanupErrors (notMerged notRemoved : Option Exn) : List String :=
  (notMerged.map fun e => "Merge failed: " ++ e.message).toList ++
    (notRemoved.map fun e => "Remove failed: " ++ e.message).toList

def joinErrors (errors : List String) : Option String :=
  if errors = [] then none else some ("; ".intercalate errors)

/-- Merge if requested. -/
def mergeFailure (worktreeName targetBranch : String) : Bool → WorkspaceProgram (Option Exn)
  | true => failure (.merge worktreeName targetBranch)
  | false => return none

/-- `WorkflowExecutor.cleanup_worktree`. -/
def cleanupWorktree (task : Task) (merge : Bool) (targetBranch : String) :
    WorkspaceProgram CleanupResult :=
  let worktreeName := task.worktreeName
  if task.hasWorktree then do
    let notMerged ← mergeFailure worktreeName targetBranch merge
    let notRemoved ← failure (.remove worktreeName true)
    return { worktreeName, merged := merge && notMerged.isNone, removed := notRemoved.isNone,
             error := joinErrors (cleanupErrors notMerged notRemoved) }
  else return { worktreeName, error := some "No worktree path found" }

/-- `WorkflowExecutor.cleanup_all_worktrees`. -/
def cleanupAllWorktrees (merge : Bool) (targetBranch : String) :
    List Task → WorkspaceProgram (List CleanupResult)
  | [] => return []
  | task :: tasks =>
    if task.hasWorktree then do
      let result ← cleanupWorktree task merge targetBranch
      let results ← cleanupAllWorktrees merge targetBranch tasks
      return result :: results
    else cleanupAllWorktrees merge targetBranch tasks

/-- The loop of `ship` over the executed tasks, with its runtime errors. -/
def shipTasks (targetBranch : String) : List Task → WorkspaceProgram (List String)
  | [] => return []
  | task :: tasks =>
    if task.hasWorktree then do
      let notMerged ← failure (.merge task.worktreeName targetBranch)
      let notRemoved ← failure (.remove task.worktreeName true)
      let errors ← shipTasks targetBranch tasks
      return (notMerged.map fun _ => "merge:" ++ task.worktreeName).toList ++
        (notRemoved.map fun _ => "remove:" ++ task.worktreeName).toList ++ errors
    else shipTasks targetBranch tasks

/-- The runtime errors of `ship`: it cleans up where it is asked to and an execution is stored. -/
def runtimeErrors (targetBranch : String) :
    Bool → Option ExecuteState → WorkspaceProgram (List String)
  | true, some state => do
    let notAvailable ← failure .getManager
    if notAvailable.isSome then return ["cleanup:init"] else shipTasks targetBranch state.tasks
  | _, _ => return []

/-- What `ship` does after its gates. -/
def shipCleanup (cleanup : Bool) (executed : Option ExecuteState) (targetBranch : String) :
    WorkspaceProgram Unit := do
  let errors ← runtimeErrors targetBranch cleanup executed
  if errors = [] then return ()
  else throw (.exit "Error: Ship failed during runtime operations")

/-- The calls of a cleanup, each with its answer. -/
abbrev WorkspaceAnswers := List (Answered workspaceSignature Exn)

/-- A forced removal comes after a merge of that workspace into the target that succeeded. -/
def RemovesMerged (targetBranch : String) (calls : WorkspaceAnswers) : Prop :=
  ∀ before name r after, calls = before ++ ⟨.remove name true, r⟩ :: after →
    ∃ u, ⟨.merge name targetBranch, .ok u⟩ ∈ before

/-- A removal comes after an attempt to merge that workspace into the target. -/
def RemovesAttempted (targetBranch : String) (calls : WorkspaceAnswers) : Prop :=
  ∀ before name force r after, calls = before ++ ⟨.remove name force, r⟩ :: after →
    ∃ r', ⟨.merge name targetBranch, r'⟩ ∈ before

/-- Each merge that failed is told of by a result of its workspace. -/
def FailuresReported (targetBranch : String) (calls : WorkspaceAnswers)
    (results : List CleanupResult) : Prop :=
  ∀ name e, (⟨.merge name targetBranch, .error e⟩ : Answered workspaceSignature Exn) ∈ calls →
    ∃ result ∈ results, result.worktreeName = name ∧ result.merged = false ∧ result.error ≠ none

/-- The cleanup of one worktree: how its merge and its removal ended. -/
structure Round where
  name : String
  merged : Except Exn Unit
  removed : Except Exn Unit

def failureOf : Except Exn Unit → Option Exn
  | .ok _ => none
  | .error e => some e

namespace Round

def calls (targetBranch : String) (round : Round) : WorkspaceAnswers :=
  [⟨.merge round.name targetBranch, round.merged⟩, ⟨.remove round.name true, round.removed⟩]

def result (round : Round) : CleanupResult :=
  { worktreeName := round.name
    merged := (failureOf round.merged).isNone
    removed := (failureOf round.removed).isNone
    error := joinErrors (cleanupErrors (failureOf round.merged) (failureOf round.removed)) }

def errors (round : Round) : List String :=
  ((failureOf round.merged).map fun _ => "merge:" ++ round.name).toList ++
    ((failureOf round.removed).map fun _ => "remove:" ++ round.name).toList

end Round

/-- How a call ended. -/
def outcomeOf (a : Answered workspaceSignature Exn) : Except Exn Unit := a.answer

section Traces

variable {targetBranch : String}

theorem removesAttempted_nil : RemovesAttempted targetBranch [] := by
  intro before name force r after h
  cases before <;> cases h

theorem RemovesAttempted.cons {a : Answered workspaceSignature Exn} {calls : WorkspaceAnswers}
    (h : RemovesAttempted targetBranch calls) (ha : ∀ name force, a.call ≠ .remove name force) :
    RemovesAttempted targetBranch (a :: calls) := by
  intro before name force r after hcalls
  cases before with
  | nil =>
    rw [List.nil_append, List.cons.injEq] at hcalls
    exact absurd (congrArg Answered.call hcalls.1) (ha name force)
  | cons b before =>
    rw [List.cons_append, List.cons.injEq] at hcalls
    obtain ⟨r', hmem⟩ := h before name force r after hcalls.2
    exact ⟨r', List.mem_cons_of_mem _ hmem⟩

theorem RemovesAttempted.round {calls : WorkspaceAnswers} (h : RemovesAttempted targetBranch calls)
    (round : Round) : RemovesAttempted targetBranch (round.calls targetBranch ++ calls) := by
  intro before name force r after hcalls
  match before with
  | [] =>
    rw [Round.calls, List.cons_append, List.nil_append, List.cons.injEq] at hcalls
    cases congrArg Answered.call hcalls.1
  | [a] =>
    rw [Round.calls, List.cons_append, List.singleton_append, List.singleton_append, List.cons.injEq,
      List.cons.injEq] at hcalls
    obtain ⟨ha, hremove, -⟩ := hcalls
    have hname := congrArg Answered.call hremove
    cases hname
    exact ⟨round.merged, List.mem_singleton.mpr ha⟩
  | a :: b :: before =>
    rw [Round.calls, List.cons_append, List.singleton_append, List.cons_append, List.cons_append,
      List.cons.injEq, List.cons.injEq] at hcalls
    obtain ⟨r', hmem⟩ := h before name force r after hcalls.2.2
    exact ⟨r', List.mem_cons_of_mem _ (List.mem_cons_of_mem _ hmem)⟩

theorem removesAttempted_rounds (rounds : List Round) :
    RemovesAttempted targetBranch (rounds.flatMap (Round.calls targetBranch)) := by
  induction rounds with
  | nil => exact removesAttempted_nil
  | cons round rounds ih =>
    rw [List.flatMap_cons]
    exact ih.round round

theorem failed_round {rounds : List Round} {name : String} {e : Exn}
    (h : (⟨.merge name targetBranch, .error e⟩ : Answered workspaceSignature Exn) ∈
      rounds.flatMap (Round.calls targetBranch)) :
    ∃ round ∈ rounds, round.name = name ∧ round.merged = .error e := by
  obtain ⟨round, hround, hmem⟩ := List.mem_flatMap.mp h
  refine ⟨round, hround, ?_⟩
  rcases List.mem_cons.mp hmem with hmerge | hremove
  · have hname := congrArg Answered.call hmerge
    have hmerged := congrArg outcomeOf hmerge
    cases hname
    exact ⟨rfl, hmerged.symm⟩
  · rw [List.mem_singleton] at hremove
    cases congrArg Answered.call hremove

theorem joinErrors_ne_none {errors : List String} (h : errors ≠ []) : joinErrors errors ≠ none := by
  rw [joinErrors, if_neg h]
  exact Option.some_ne_none _

theorem failuresReported_rounds (rounds : List Round) :
    FailuresReported targetBranch (rounds.flatMap (Round.calls targetBranch))
      (rounds.map Round.result) := by
  intro name e h
  obtain ⟨round, hround, hname, hmerged⟩ := failed_round h
  refine ⟨round.result, List.mem_map_of_mem hround, hname, ?_, ?_⟩
  · simp [Round.result, failureOf, hmerged]
  · refine joinErrors_ne_none ?_
    simp [cleanupErrors, failureOf, hmerged]

end Traces

section Programs

variable {S : Type} {sem : Semantics workspaceSignature Exn S} {targetBranch : String}
  {w : S × WorkspaceAnswers}

abbrev Logs {α : Type} (sem : Semantics workspaceSignature Exn S) (p : WorkspaceProgram α)
    (Q : Except Exn α → WorkspaceAnswers → Prop) (w : S × WorkspaceAnswers) : Prop :=
  p.Always sem.recorded (fun _ _ => True) (fun out w' => Q out w'.2) w

theorem failure_logs {c : WorkspaceCall} :
    Logs sem (failure c) (fun out calls => ∃ r, calls = w.2 ++ [⟨c, r⟩] ∧ out = .ok (failureOf r)) w := by
  refine ⟨trivial, ?_⟩
  rintro (e | v) w' ⟨-, hcalls⟩
  · exact ⟨.error e, hcalls, rfl⟩
  · exact ⟨.ok v, hcalls, rfl⟩

theorem cleanupWorktree_logs {task : Task} (htask : task.hasWorktree = true) :
    Logs sem (cleanupWorktree task true targetBranch) (fun out calls => ∃ round : Round,
      calls = w.2 ++ round.calls targetBranch ∧ out = .ok round.result) w := by
  unfold cleanupWorktree
  rw [if_pos htask]
  refine Program.Always.bind failure_logs (fun notMerged w₁ h => ?_) fun e w₁ h => ?_
  · obtain ⟨r, hcalls, hmerged⟩ := h
    cases hmerged
    refine Program.Always.bind failure_logs (fun notRemoved w₂ h => ?_) fun e w₂ h => ?_
    · obtain ⟨r', hcalls', hremoved⟩ := h
      cases hremoved
      refine ⟨⟨task.worktreeName, r, r'⟩, ?_, rfl⟩
      rw [hcalls', hcalls, List.append_assoc]
      rfl
    · obtain ⟨r', -, hremoved⟩ := h
      cases hremoved
  · obtain ⟨r, -, hmerged⟩ := h
    cases hmerged

theorem cleanupAllWorktrees_logs {tasks : List Task} :
    Logs sem (cleanupAllWorktrees true targetBranch tasks) (fun out calls => ∃ rounds : List Round,
      calls = w.2 ++ rounds.flatMap (Round.calls targetBranch) ∧
        out = .ok (rounds.map Round.result)) w := by
  induction tasks generalizing w with
  | nil => exact ⟨[], (List.append_nil _).symm, rfl⟩
  | cons task tasks ih =>
    unfold cleanupAllWorktrees
    by_cases htask : task.hasWorktree = true
    · rw [if_pos htask]
      refine Program.Always.bind (cleanupWorktree_logs htask) (fun result w₁ h => ?_) fun e w₁ h => ?_
      · obtain ⟨round, hcalls, hresult⟩ := h
        cases hresult
        refine Program.Always.bind ih (fun results w₂ h => ?_) fun e w₂ h => ?_
        · obtain ⟨rounds, hcalls', hresults⟩ := h
          cases hresults
          refine ⟨round :: rounds, ?_, rfl⟩
          rw [hcalls', hcalls, List.append_assoc, List.flatMap_cons]
        · obtain ⟨rounds, -, hresults⟩ := h
          cases hresults
      · obtain ⟨round, -, hresult⟩ := h
        cases hresult
    · rw [if_neg htask]
      exact ih

theorem shipTasks_logs {tasks : List Task} :
    Logs sem (shipTasks targetBranch tasks) (fun out calls => ∃ rounds : List Round,
      calls = w.2 ++ rounds.flatMap (Round.calls targetBranch) ∧
        out = .ok (rounds.flatMap Round.errors)) w := by
  induction tasks generalizing w with
  | nil => exact ⟨[], (List.append_nil _).symm, rfl⟩
  | cons task tasks ih =>
    unfold shipTasks
    by_cases htask : task.hasWorktree = true
    · rw [if_pos htask]
      refine Program.Always.bind failure_logs (fun notMerged w₁ h => ?_) fun e w₁ h => ?_
      · obtain ⟨r, hcalls, hmerged⟩ := h
        cases hmerged
        refine Program.Always.bind failure_logs (fun notRemoved w₂ h => ?_) fun e w₂ h => ?_
        · obtain ⟨r', hcalls', hremoved⟩ := h
          cases hremoved
          refine Program.Always.bind ih (fun errors w₃ h => ?_) fun e w₃ h => ?_
          · obtain ⟨rounds, hrest, herrors⟩ := h
            cases herrors
            refine ⟨⟨task.worktreeName, r, r'⟩ :: rounds, ?_, rfl⟩
            rw [hrest, hcalls', hcalls, List.flatMap_cons, List.append_assoc, List.append_assoc]
            rfl
          · obtain ⟨rounds, -, herrors⟩ := h
            cases herrors
        · obtain ⟨r', -, hremoved⟩ := h
          cases hremoved
      · obtain ⟨r, -, hmerged⟩ := h
        cases hmerged
    · rw [if_neg htask]
      exact ih

/-- Where the manager is not available nothing is cleaned up; a merge that failed leaves an error. -/
theorem runtimeErrors_logs {state : ExecuteState} (hw : w.2 = []) :
    Logs sem (runtimeErrors targetBranch true (some state)) (fun out calls =>
      ∃ (r : Except Exn Unit) (rounds : List Round) (errors : List String),
        calls = ⟨.getManager, r⟩ :: rounds.flatMap (Round.calls targetBranch) ∧
          out = .ok errors ∧ ((∃ round ∈ rounds, ∃ e, round.merged = .error e) → errors ≠ [])) w := by
  refine Program.Always.bind failure_logs (fun notAvailable w₁ h => ?_) fun e w₁ h => ?_
  · obtain ⟨r, hcalls, hfailure⟩ := h
    cases hfailure
    rw [hw, List.nil_append] at hcalls
    cases r with
    | error e =>
      refine ⟨.error e, [], _, hcalls, rfl, fun ⟨round, hround, _⟩ => ?_⟩
      cases hround
    | ok u =>
      refine (shipTasks_logs (w := w₁)).mono (fun _ _ h => h) fun out w₂ h => ?_
      obtain ⟨rounds, hrest, hout⟩ := h
      rw [hcalls, List.singleton_append] at hrest
      refine ⟨.ok u, rounds, _, hrest, hout, ?_⟩
      rintro ⟨round, hround, e, hmerged⟩ hempty
      have hnone := List.flatMap_eq_nil_iff.mp hempty round hround
      simp [Round.errors, failureOf, hmerged] at hnone
  · obtain ⟨r, -, hfailure⟩ := h
    cases hfailure

/-- The ship fails when a merge has failed. -/
def ShipReports (targetBranch : String) (out : Except Exn Unit) (calls : WorkspaceAnswers) : Prop :=
  (∃ name e, (⟨.merge name targetBranch, .error e⟩ : Answered workspaceSignature Exn) ∈ calls) →
    ∃ m, out = .error (.exit m)

theorem shipCleanup_logs {cleanup : Bool} {executed : Option ExecuteState} (hw : w.2 = []) :
    Logs sem (shipCleanup cleanup executed targetBranch) (fun out calls =>
      RemovesAttempted targetBranch calls ∧ ShipReports targetBranch out calls) w := by
  have hnothing : RemovesAttempted targetBranch w.2 ∧ ShipReports targetBranch (.ok ()) w.2 := by
    rw [hw]
    refine ⟨removesAttempted_nil, ?_⟩
    rintro ⟨name, e, hmem⟩
    cases hmem
  cases cleanup with
  | false => exact hnothing
  | true =>
    cases executed with
    | none => exact hnothing
    | some state =>
      refine Program.Always.bind (runtimeErrors_logs hw) (fun errors w₁ h => ?_) fun e w₁ h => ?_
      · obtain ⟨r, rounds, errors', hcalls, hout, hreported⟩ := h
        cases hout
        have hattempted : RemovesAttempted targetBranch w₁.2 := by
          rw [hcalls]
          exact (removesAttempted_rounds rounds).cons fun _ _ h => nomatch h
        by_cases hempty : errors = []
        · rw [if_pos hempty]
          refine ⟨hattempted, fun ⟨name, e, hmem⟩ => ?_⟩
          rw [hcalls] at hmem
          rcases List.mem_cons.mp hmem with hmanager | hround
          · cases congrArg Answered.call hmanager
          · obtain ⟨round, hround, -, hmerged⟩ := failed_round hround
            exact absurd hempty (hreported ⟨round, hround, e, hmerged⟩)
        · rw [if_neg hempty]
          exact ⟨hattempted, fun _ => ⟨_, rfl⟩⟩
      · obtain ⟨r, rounds, errors, -, hout, -⟩ := h
        cases hout

end Programs

section Deletion

variable {S : Type} {git : Semantics gitSignature Exn S} {manager : WorkspaceManager}
  {w : S × List (Answered gitSignature Exn)}

theorem runGitCommand_logs {cwd : Option String} {args : List String} :
    (runGitCommand cwd args).Always git.recorded (fun _ _ => True) (fun out w' => out = .ok () →
      ∃ result : CompletedProcess, result.returncode = 0 ∧
        w'.2 = w.2 ++ [⟨.git cwd args, .ok result⟩]) w := by
  refine (Program.always_perform_bind (σ := gitSignature) (.git cwd args) _).mpr ⟨trivial, ?_, ?_⟩
  · rintro result w' ⟨-, hcalls⟩
    by_cases hcode : CompletedProcess.returncode result = 0
    · rw [if_pos hcode]
      exact fun _ => ⟨result, hcode, hcalls⟩
    · rw [if_neg hcode]
      exact fun h => nomatch h
  · exact fun _ _ _ h => nomatch h

/-- The worktree was removed and the branch deleted, both by force. -/
def Deletes (manager : WorkspaceManager) (name : String) (calls : List (Answered gitSignature Exn)) :
    Prop :=
  ∃ (path : String) (removed deleted : CompletedProcess), removed.returncode = 0 ∧
    deleted.returncode = 0 ∧
    ⟨.git manager.repoPath ["worktree", "remove", "--force", path], .ok removed⟩ ∈ calls ∧
    ⟨.git manager.repoPath ["branch", "-D", name], .ok deleted⟩ ∈ calls

theorem removeWorkspace_deletes {name : String} :
    (manager.removeWorkspace name true).Always git.recorded (fun _ _ => True)
      (fun out w' => out = .ok () → Deletes manager name w'.2) w := by
  have hany : ∀ {α : Type} (p : GitProgram α) (u : S × List (Answered gitSignature Exn)),
      p.Always git.recorded (fun _ _ => True) (fun _ _ => True) u :=
    fun p u => (Program.always_prefix p u).mono (fun _ _ h => h) fun _ _ _ => trivial
  refine Program.Always.bind (hany _ _) (fun workspace w₁ _ => ?_) fun _ _ _ h => nomatch h
  refine Program.Always.bind (hany _ _) (fun _ w₂ _ => ?_) fun _ _ _ h => nomatch h
  refine Program.Always.bind (hany _ _) (fun _ w₂ _ => ?_) fun _ _ _ h => nomatch h
  refine Program.Always.bind runGitCommand_logs (fun _ w₃ hremoved => ?_) fun _ _ _ h => nomatch h
  obtain ⟨removed, hcode, hcalls⟩ := hremoved rfl
  refine runGitCommand_logs.mono (fun _ _ h => h) fun out w₄ hdeleted hout => ?_
  obtain ⟨deleted, hcode', hcalls'⟩ := hdeleted hout
  refine ⟨workspace.path, removed, deleted, hcode, hcode', ?_, ?_⟩
  · rw [hcalls', hcalls]
    simp
  · rw [hcalls']
    simp

end Deletion

/-- A cleanup that merges, by the executor or by `ship`, removes a workspace only after an attempt to
merge it into the target in the same call, and tells of every merge that failed: the executor by the
result for that workspace, `ship` by failing. A forced removal that returns has deleted the worktree
and its branch. -/
theorem cleanup_attempts_and_reports {S : Type} (git : Semantics gitSignature Exn S)
    (manager : WorkspaceManager) (targetBranch : String) (s s' : S) :
    (∀ task out calls, (cleanupWorktree task true targetBranch).Runs
        (workspaceStep git manager fun name target => manager.mergeWorkspace name target false).recorded
        (s, []) out (s', calls) →
      RemovesAttempted targetBranch calls ∧
        ∃ result, out = .ok result ∧ FailuresReported targetBranch calls [result]) ∧
    (∀ tasks out calls, (cleanupAllWorktrees true targetBranch tasks).Runs
        (workspaceStep git manager fun name target => manager.mergeWorkspace name target false).recorded
        (s, []) out (s', calls) →
      RemovesAttempted targetBranch calls ∧
        ∃ results, out = .ok results ∧ FailuresReported targetBranch calls results) ∧
    (∀ useWorktree cleanup executed out calls, (shipCleanup cleanup executed targetBranch).Runs
        (workspaceStep git manager (shipMerge manager useWorktree)).recorded (s, []) out (s', calls) →
      RemovesAttempted targetBranch calls ∧ ShipReports targetBranch out calls) ∧
    ∀ name calls, (manager.removeWorkspace name true).Runs git.recorded (s, []) (.ok ()) (s', calls) →
      Deletes manager name calls := by
  refine ⟨?_, ?_, ?_, ?_⟩
  · intro task out calls hrun
    by_cases htask : task.hasWorktree = true
    · obtain ⟨round, hcalls, hout⟩ := hrun.always (cleanupWorktree_logs htask)
      have hreported := @failuresReported_rounds targetBranch [round]
      have hattempted := @removesAttempted_rounds targetBranch [round]
      rw [List.flatMap_cons, List.flatMap_nil, List.append_nil] at hreported hattempted
      have hsame : calls = round.calls targetBranch := hcalls
      rw [hsame]
      exact ⟨hattempted, round.result, hout, hreported⟩
    · unfold cleanupWorktree at hrun
      rw [if_neg htask] at hrun
      obtain ⟨hout, hsame⟩ := hrun
      cases hsame
      exact ⟨removesAttempted_nil, _, hout, fun _ _ h => nomatch h⟩
  · intro tasks out calls hrun
    obtain ⟨rounds, hcalls, hout⟩ := hrun.always cleanupAllWorktrees_logs
    have hsame : calls = rounds.flatMap (Round.calls targetBranch) := hcalls
    rw [hsame]
    exact ⟨removesAttempted_rounds rounds, _, hout, failuresReported_rounds rounds⟩
  · intro useWorktree cleanup executed out calls hrun
    exact hrun.always (shipCleanup_logs rfl)
  · intro name calls hrun
    exact hrun.always removeWorkspace_deletes rfl

section Example

/-- Git in a repository with one workspace, whose merges end in a conflict. -/
def conflicting : (c : GitCall) → c.Value
  | .git _ args =>
    { returncode := if "merge" ∈ args then 1 else 0
      stderr := if "merge" ∈ args then "CONFLICT" else "" }
  | .worktreeList => [⟨"/repo/.worktrees/task", "task"⟩]
  | .repoRoot => "/repo"
  | .mkdtemp => "/tmp/workflow-ship"
  | .isClean _ => true
  | .runTeardown _ | .rmtree _ => ()

def conflictingGit : Semantics gitSignature Exn Unit := fun a _ _ => a.answer = .ok (conflicting a.call)

theorem conflictingGit_runs {α : Type} {p : GitProgram α} {out : Except Exn α}
    {answers : List (Answered gitSignature Exn)}
    (h : p.exec (fun c _ => some (.ok (conflicting c), ())) () = some (out, answers, ())) :
    p.Runs conflictingGit () out () := by
  refine (Program.exec_reaches (fun c s r s' h => ?_) h).runs
  cases h
  rfl

def workedTask : Task :=
  { id := "1", slug := "task", description := "", branch := some "task",
    worktreePath := some "/repo/.worktrees/task" }

def conflict : Exn := .gitError
  "Failed to merge branch 'task': Git command failed: git merge task --no-edit"

theorem cleanup_conflicting :
    (cleanupWorktree workedTask true "main").Runs
      (workspaceStep conflictingGit {} fun name target =>
        WorkspaceManager.mergeWorkspace {} name target false).recorded ((), [])
      (.ok (Round.result ⟨"task", .error conflict, .ok ()⟩))
      ((), Round.calls "main" ⟨"task", .error conflict, .ok ()⟩) := by
  refine ⟨.error conflict, ((), [⟨.merge "task" "main", .error conflict⟩]), ⟨?_, rfl⟩, ?_⟩
  · exact conflictingGit_runs rfl
  · refine ⟨.ok (), ((), _), ⟨?_, rfl⟩, rfl, rfl⟩
    exact conflictingGit_runs rfl

theorem conflicting_worktree_removed :
    ¬ ∀ (git : Semantics gitSignature Exn Unit) (manager : WorkspaceManager) (targetBranch : String),
      (∀ task out calls, (cleanupWorktree task true targetBranch).Runs
          (workspaceStep git manager fun name target => manager.mergeWorkspace name target false).recorded
          ((), []) out ((), calls) → RemovesMerged targetBranch calls) ∧
      (∀ tasks out calls, (cleanupAllWorktrees true targetBranch tasks).Runs
          (workspaceStep git manager fun name target => manager.mergeWorkspace name target false).recorded
          ((), []) out ((), calls) → RemovesMerged targetBranch calls) ∧
      ∀ useWorktree executed out calls, (shipCleanup true executed targetBranch).Runs
          (workspaceStep git manager (shipMerge manager useWorktree)).recorded ((), []) out ((), calls) →
        RemovesMerged targetBranch calls := by
  intro h
  have hremoves := (h conflictingGit {} "main").1 _ _ _ cleanup_conflicting
  obtain ⟨u, hmem⟩ := hremoves [⟨.merge "task" "main", .error conflict⟩] "task" (.ok ()) [] rfl
  cases congrArg outcomeOf (List.mem_singleton.mp hmem)

theorem cleanup_attempts_and_reports_conflicting :
    RemovesAttempted "main" (Round.calls "main" ⟨"task", .error conflict, .ok ()⟩) :=
  ((cleanup_attempts_and_reports conflictingGit {} "main" () ()).1 _ _ _ cleanup_conflicting).1

end Example

end ForkAgent.Workflow

import ForkAgent.Workflow.Executor

/-!
# Executing a plan again

Each execution replaces the stored state by one that is made from the plan, so that a worktree of an
earlier execution is known to nobody unless it has been removed by then.
-/

namespace ForkAgent.Workflow

open Effects Workspace

/-- The state directory, and what was made by executions and is not removed. -/
structure World where
  dir : StateDir
  repository : Repository := {}

section Steps

variable (layout : LayoutType) (lower : String → String)

/-- A task is executed by the program of the executor, against what git does for it. -/
def executionStep (git : Task → Semantics executorSignature Exn Repository) :
    Semantics workflowSignature Exn World
  | ⟨.executeTask task model, r⟩, w, w' => w'.dir = w.dir ∧
    (executeTask layout lower task model).Runs (git task) w.repository r w'.repository
  | a, w, w' => w'.repository = w.repository ∧ StateDir.step a w.dir w'.dir

/-- Git adds nothing, and no state file is written. -/
def fruitlessStep : Semantics workflowSignature Exn World := fun a w w' =>
  executionStep layout lower (fun _ => idleStep) a w w' ∧ w'.dir = w.dir

/-- What git does in order, and for the tasks that are spared it adds nothing. -/
def sparingStep (spared : Task → Bool) (task : Task) : Semantics executorSignature Exn Repository := fun a s s' =>
  orderlyStep a s s' ∧ (spared task = true → s' = s)

/-- Git leaves nothing behind where it fails; no launch, no id and no saving of the state raises. -/
def smoothStep (spared : Task → Bool) : Semantics workflowSignature Exn World := fun a w w' =>
  executionStep layout lower (sparingStep spared) a w w' ∧ (∀ e, a ≠ ⟨.uuid4Hex, .error e⟩) ∧
    ∀ state e, a ≠ ⟨.saveExecute state, .error e⟩

end Steps

inductive ExecutionCommand where
  | execute (taskId : Option String) (model : String)
  | ship

/-- A run of a command to its end. A ship removes worktrees and branches, and saves nothing. -/
def ExecutionCommand.Runs (layout : LayoutType) (lower : String → String) :
    ExecutionCommand → World → Except Exn Unit → World → Prop
  | .execute taskId model, w, out, w' =>
    (Workflow.execute taskId model).Runs (executionStep layout lower fun _ => executorStep) w out w'
  | .ship, w, _, w' => w'.dir = w.dir ∧ w'.repository.worktrees.Sublist w.repository.worktrees ∧
    w'.repository.branches.Sublist w.repository.branches

/-- The tasks that an execution is for. -/
def PlanState.tasksFor (plan : PlanState) (taskId : Option String) : List Task :=
  match taskId.filter (· ≠ "") with
  | some id => plan.tasks.filter (·.id = id)
  | none => plan.tasks

/-- A task names a worktree, with its branch. -/
def Task.Names (task : Task) (worktree : Worktree) : Prop :=
  task.worktreePath = some worktree.path ∧ task.branch = some worktree.branch

/-- Nothing is lost: the stored execution lists every worktree and every branch, and its tasks are those
of the plan but for what the execution of a task says. -/
structure Kept (plan : PlanState) (w : World) : Prop where
  listed : ∀ worktree ∈ w.repository.worktrees, ∃ state, w.dir.execute = some state ∧
    ∃ task ∈ state.tasks, task.Names worktree
  branches : ∀ branch ∈ w.repository.branches, ∃ state, w.dir.execute = some state ∧
    ∃ task ∈ state.tasks, task.branch = some branch
  whole : ∀ state, w.dir.execute = some state → ∀ task ∈ state.tasks, ∃ planned ∈ plan.tasks,
    task = { planned with status := task.status, branch := task.branch,
                          worktreePath := task.worktreePath, sessionName := task.sessionName }

/-- Everything that is left of earlier commands is named by a task that is spared. -/
structure Spares (tasks : List Task) (spared : Task → Bool) (left : Repository) : Prop where
  worktrees : ∀ worktree ∈ left.worktrees, ∃ planned ∈ tasks, spared planned = true ∧ planned.Names worktree
  branches : ∀ branch ∈ left.branches, ∃ planned ∈ tasks, spared planned = true ∧ planned.branch = some branch

/-- An execution makes nothing and saves nothing; or it runs smoothly, is of tasks that depend on nothing
and have no requirements, and comes when nothing is left but what is named by planned tasks for which git
adds nothing. -/
def Careful (layout : LayoutType) (lower : String → String) (plan : PlanState) :
    ExecutionCommand → World → Except Exn Unit → World → Prop
  | .execute taskId model, w, out, w' =>
    (Workflow.execute taskId model).Runs (fruitlessStep layout lower) w out w' ∨
      ∃ spared, (Workflow.execute taskId model).Runs (smoothStep layout lower spared) w out w' ∧
        Spares (plan.tasksFor taskId) spared w.repository ∧
        ∀ task ∈ plan.tasksFor taskId, task.dependsOn = [] ∧ task.requirementIds = []
  | .ship, _, _, _ => True

/-- A sequence of commands that each meet the condition. -/
inductive Executions (layout : LayoutType) (lower : String → String)
    (condition : ExecutionCommand → World → Except Exn Unit → World → Prop) : World → World → Prop where
  | start (w) : Executions layout lower condition w w
  | command {w w₁ w₂ out} (before : Executions layout lower condition w w₁) (c : ExecutionCommand)
      (h : c.Runs layout lower w₁ out w₂) (hcondition : condition c w₁ out w₂) :
      Executions layout lower condition w w₂

section Programs

variable {layout : LayoutType} {lower : String → String} {spared : Task → Bool} {w : World} {α : Type}

abbrev Leaves (layout : LayoutType) (lower : String → String) (spared : Task → Bool) (p : WorkflowProgram α)
    (Q : Except Exn α → World → Prop) (w : World) : Prop :=
  p.Always (smoothStep layout lower spared) (fun _ _ => True) Q w

/-- The call changes nothing. -/
def Looks (layout : LayoutType) (lower : String → String) (c : WorkflowCall) : Prop :=
  ∀ git r w w', executionStep layout lower git ⟨c, r⟩ w w' → w' = w

theorem world_ext {w w' : World} (hdir : w'.dir = w.dir) (hrepository : w'.repository = w.repository) :
    w' = w := by
  cases w
  cases w'
  simp_all

theorem looks_bind {c : WorkflowCall} (hc : Looks layout lower c) {k : c.Value → WorkflowProgram α}
    {Q : Except Exn α → World → Prop}
    (hok : ∀ v, smoothStep layout lower spared ⟨c, .ok v⟩ w w → Leaves layout lower spared (k v) Q w)
    (herror : ∀ e, smoothStep layout lower spared ⟨c, .error e⟩ w w → Q (.error e) w) :
    Leaves layout lower spared (workflowCall c >>= k) Q w := by
  apply (Program.always_perform_bind (σ := workflowSignature) c k).mpr
  refine ⟨trivial, ?_, ?_⟩
  · intro v w' hstep
    have hsame := hc _ _ _ _ hstep.1
    rw [hsame] at hstep ⊢
    exact hok v hstep
  · intro e w' hstep
    have hsame := hc _ _ _ _ hstep.1
    rw [hsame] at hstep ⊢
    exact herror e hstep

theorem looks_loadPlan : Looks layout lower .loadPlan :=
  fun _ _ _ _ h => world_ext h.2.1 h.1

theorem looks_loadExecute : Looks layout lower .loadExecute :=
  fun _ _ _ _ h => world_ext h.2.1 h.1

theorem looks_uuid4Hex : Looks layout lower .uuid4Hex := fun _ _ _ _ h => world_ext h.2 h.1

theorem looks_hasFpelPort : Looks layout lower .hasFpelPort := fun _ _ _ _ h => world_ext h.2 h.1

theorem looks_checkSealed (targetId : String) (scope : HashScope) :
    Looks layout lower (.checkSealed targetId scope) := fun _ _ _ _ h => world_ext h.2 h.1

/-- The results of these tasks, in order; one of a task that is spared tells of no worktree. -/
structure ResultsOf (spared : Task → Bool) (tasks : List Task) (results : List TaskExecutionResult) : Prop where
  tasks : results.map (·.task) = tasks
  of : ∀ result ∈ results, ResultOf result.task result
  spared : ∀ result ∈ results, spared result.task = true → result.worktrees = []

theorem ResultsOf.cons {task : Task} {tasks : List Task} {result : TaskExecutionResult}
    {results : List TaskExecutionResult} (h : ResultOf task result)
    (hspared : spared task = true → result.worktrees = []) (hrest : ResultsOf spared tasks results) :
    ResultsOf spared (task :: tasks) (result :: results) := by
  constructor
  · rw [List.map_cons, hrest.tasks, h.task]
  · intro other hother
    obtain rfl | hother := List.mem_cons.mp hother
    · rw [h.task]
      exact h
    · exact hrest.of other hother
  · intro other hother
    obtain rfl | hother := List.mem_cons.mp hother
    · rw [h.task]
      exact hspared
    · exact hrest.spared other hother

theorem executeTask_spares {task : Task} {model : String} {r : Except Exn TaskExecutionResult} {s s' : Repository}
    (h : (executeTask layout lower task model).Runs (sparingStep spared task) s r s') :
    ∃ result, r = .ok result ∧ ResultOf task result ∧ s' = s.add result.worktrees ∧
      (spared task = true → result.worktrees = []) := by
  have horderly : (executeTask layout lower task model).Runs orderlyStep s r s' :=
    Program.Runs.mono (fun _ _ _ hstep => hstep.1) h
  obtain ⟨result, rfl, hresult, hadded⟩ := horderly.always executeTask_makes
  refine ⟨result, rfl, hresult, hadded, fun hspared => ?_⟩
  have hsame : s' = s := Program.Runs.unchanged (fun _ _ _ hstep => hstep.2 hspared) h
  have hworktrees : s.worktrees ++ result.worktrees = s.worktrees := by
    rw [hsame] at hadded
    exact (congrArg Repository.worktrees hadded).symm
  exact List.append_right_eq_self.mp hworktrees

/-- Tasks were executed: the state files stay, and the worktrees that the results tell of were made. -/
def TasksEnd (spared : Task → Bool) (tasks : List Task) (w : World)
    (out : Except Exn (List TaskExecutionResult)) (w' : World) : Prop :=
  ∃ results, out = .ok results ∧ ResultsOf spared tasks results ∧ w'.dir = w.dir ∧
    w'.repository = w.repository.add (results.flatMap (·.worktrees))

theorem executeTasks_leaves {model : String} {tasks : List Task} :
    Leaves layout lower spared (executeTasks model tasks) (TasksEnd spared tasks w) w := by
  induction tasks generalizing w with
  | nil => exact ⟨[], rfl, ⟨rfl, by simp, by simp⟩, rfl, (add_nil _).symm⟩
  | cons task tasks ih =>
    apply (Program.always_perform_bind (σ := workflowSignature) (.executeTask task model) _).mpr
    refine ⟨trivial, ?_, ?_⟩
    · rintro result w₁ ⟨⟨hdir, hrun⟩, -⟩
      obtain ⟨result', heq, hresult, hmade, hspared⟩ := executeTask_spares hrun
      cases heq
      apply Program.Always.bind ih
      · rintro results w₂ ⟨results', hresults, hof, hdir', hmade'⟩
        cases hresults
        refine ⟨_, rfl, hof.cons hresult hspared, hdir'.trans hdir, ?_⟩
        rw [hmade', hmade]
        exact add_add _ _ _
      · rintro e w₂ ⟨results, hresults, -⟩
        cases hresults
    · rintro e w₁ ⟨⟨hdir, hrun⟩, -⟩
      obtain ⟨result, heq, -⟩ := executeTask_spares hrun
      cases heq

/-- What a smooth execution of a plan comes to: a state made from the results of its tasks, or nothing. -/
inductive ExecutionEnds (spared : Task → Bool) (plan : PlanState) (taskId : Option String) (w : World) :
    Except Exn Unit → World → Prop where
  | saved {w'} (results : List TaskExecutionResult) (state : ExecuteState)
      (of : ResultsOf spared (plan.tasksFor taskId) results)
      (listed : state.tasks = results.map createUpdatedTask)
      (dir : w'.dir = { w.dir with execute := some state })
      (made : w'.repository = w.repository.add (results.flatMap (·.worktrees))) :
      ExecutionEnds spared plan taskId w (.ok ()) w'
  | refused (e : Exn) : ExecutionEnds spared plan taskId w (.error e) w

theorem executeGate_leaves {plan : PlanState} {taskId : Option String} :
    Leaves layout lower spared (executeGate plan taskId) (fun _ w' => w' = w) w := by
  apply looks_bind looks_hasFpelPort
  · intro enabled _
    cases enabled with
    | false => exact rfl
    | true =>
      apply (Program.always_ofExcept_bind _ _).mpr
      refine ⟨?_, fun _ _ => rfl⟩
      intro target _
      apply looks_bind (looks_checkSealed _ _)
      · intro decision _
        by_cases hallowed : Fpel.AuthorizationDecision.allowed decision = true
        · rw [if_pos hallowed]
          exact rfl
        · rw [if_neg hallowed]
          exact rfl
      · intro e _
        exact rfl
  · intro e _
    exact rfl

theorem saveExecute_leaves {state : ExecuteState} :
    Leaves layout lower spared (workflowCall (.saveExecute state)) (fun out w' => out = .ok () ∧
      w'.repository = w.repository ∧ w'.dir = { w.dir with execute := some state }) w := by
  apply (Program.always_perform (σ := workflowSignature) (.saveExecute state) _).mpr
  refine ⟨trivial, ?_⟩
  rintro r w' ⟨⟨hrepository, hstep⟩, -, hsaved⟩
  obtain ⟨rfl, hdir⟩ | ⟨⟨e, rfl⟩, -⟩ := hstep
  · exact ⟨rfl, hrepository, hdir⟩
  · exact absurd rfl (hsaved state e)

theorem checkPlanExists_leaves {plan : PlanState} (hplan : w.dir.plan = some plan) :
    Leaves layout lower spared checkPlanExists
      (fun out w' => w' = w ∧ ∀ loaded, out = .ok loaded → loaded = plan) w := by
  apply looks_bind looks_loadPlan
  · intro loaded hstep
    obtain rfl : loaded = some plan := by rw [← hplan]; exact hstep.1.2.2 loaded rfl
    refine ⟨rfl, ?_⟩
    intro loaded' h
    cases h
    rfl
  · intro e _
    refine ⟨rfl, ?_⟩
    intro loaded h
    cases h

theorem executePlan_leaves {plan : PlanState} {model : String} {taskId : Option String} :
    Leaves layout lower spared (executePlan plan model (taskId.filter (· ≠ ""))) (fun out w' =>
      ∃ state results, out = .ok state ∧ ResultsOf spared (plan.tasksFor taskId) results ∧
        state.tasks = results.map createUpdatedTask ∧ w'.dir = w.dir ∧
        w'.repository = w.repository.add (results.flatMap (·.worktrees))) w := by
  apply Program.Always.bind executeTasks_leaves
  · rintro results w₁ ⟨results', hresults, hof, hdir, hmade⟩
    cases hresults
    apply looks_bind looks_uuid4Hex
    · intro hex _
      exact ⟨_, results, rfl, hof, rfl, hdir, hmade⟩
    · intro e hstep
      exact absurd rfl (hstep.2.1 e)
  · rintro e w₁ ⟨results, hresults, -⟩
    cases hresults

theorem execute_leaves {plan : PlanState} {taskId : Option String} {model : String}
    (hplan : w.dir.plan = some plan) :
    Leaves layout lower spared (execute taskId model) (ExecutionEnds spared plan taskId w) w := by
  have hrefused : ∀ e w', w' = w → ExecutionEnds spared plan taskId w (.error e) w' := by
    rintro e w' rfl
    exact .refused e
  apply Program.Always.bind (checkPlanExists_leaves hplan)
  · intro loaded w' ⟨hsame, hloaded⟩
    rw [hsame, hloaded loaded rfl]
    apply (Program.always_ofExcept_bind _ _).mpr
    refine ⟨?_, fun e _ => .refused e⟩
    intro _ _
    apply looks_bind looks_loadExecute _ (fun e _ => .refused e)
    intro stored _
    apply Program.Always.bind executeGate_leaves _ hrefused
    intro _ w' hsame
    rw [hsame]
    apply Program.Always.bind executePlan_leaves
    · rintro state w₁ ⟨state', results, hstate, hof, hlisted, hdir, hmade⟩
      cases hstate
      apply saveExecute_leaves.mono
      · intro _ _ h
        exact h
      · rintro out w₂ ⟨rfl, hrepository, hdir'⟩
        exact .saved results state hof hlisted (hdir'.trans (by rw [hdir])) (hrepository.trans hmade)
    · rintro e w₁ ⟨state, results, hstate, -⟩
      cases hstate
  · intro e w' ⟨hsame, _⟩
    exact hrefused e w' hsame

theorem fruitless_unchanged {p : WorkflowProgram α} {out : Except Exn α} {w' : World}
    (h : p.Runs (fruitlessStep layout lower) w out w') : w' = w := by
  refine Program.Runs.unchanged ?_ h
  rintro ⟨c, r⟩ w w' ⟨hstep, hdir⟩
  cases c with
  | executeTask task model =>
    exact world_ext hdir (Program.Runs.unchanged (fun _ _ _ hidle => hidle.2) hstep.2)
  | _ => exact world_ext hdir hstep.1

end Programs

section Commands

variable {layout : LayoutType} {lower : String → String} {spared : Task → Bool} {plan : PlanState}
  {w w' : World} {taskId : Option String}

theorem tasksFor_subset {task : Task} (h : task ∈ plan.tasksFor taskId) : task ∈ plan.tasks := by
  unfold PlanState.tasksFor at h
  split at h
  · exact List.mem_of_mem_filter h
  · exact h

theorem listed_of_mem {result : TaskExecutionResult} (h : ResultOf result.task result)
    {worktree : Worktree} (hmem : worktree ∈ result.worktrees) : (createUpdatedTask result).Names worktree := by
  obtain ⟨hpath, -⟩ | ⟨path, name, hne, hne', hpath, hname⟩ := h.worktree
  · simp [TaskExecutionResult.worktrees, hpath] at hmem
  · simp only [TaskExecutionResult.worktrees, hpath, hname, List.mem_singleton] at hmem
    rw [hmem]
    simp [Task.Names, createUpdatedTask, hpath, hname, hne, hne']

theorem carried_of_none {result : TaskExecutionResult} (h : ResultOf result.task result)
    (hnone : result.worktrees = []) :
    (createUpdatedTask result).worktreePath = result.task.worktreePath ∧
      (createUpdatedTask result).branch = result.task.branch := by
  obtain ⟨hpath, hname⟩ | ⟨path, name, -, -, hpath, hname⟩ := h.worktree
  · simp [createUpdatedTask, hpath, hname]
  · simp [TaskExecutionResult.worktrees, hpath, hname] at hnone

theorem carried_of_spared {results : List TaskExecutionResult}
    (hof : ResultsOf spared (plan.tasksFor taskId) results) {planned : Task}
    (hplanned : planned ∈ plan.tasksFor taskId) (hspared : spared planned = true) :
    ∃ task ∈ results.map createUpdatedTask, task.worktreePath = planned.worktreePath ∧
      task.branch = planned.branch := by
  rw [← hof.tasks] at hplanned
  obtain ⟨result, hresult, rfl⟩ := List.mem_map.mp hplanned
  exact ⟨_, List.mem_map_of_mem hresult,
    carried_of_none (hof.of result hresult) (hof.spared result hresult hspared)⟩

theorem kept_of_saved {results : List TaskExecutionResult} {state : ExecuteState}
    (hof : ResultsOf spared (plan.tasksFor taskId) results)
    (hlisted : state.tasks = results.map createUpdatedTask)
    (hdir : w'.dir = { w.dir with execute := some state })
    (hmade : w'.repository = w.repository.add (results.flatMap (·.worktrees)))
    (hleft : Spares (plan.tasksFor taskId) spared w.repository)
    (hplain : ∀ task ∈ plan.tasksFor taskId, task.dependsOn = [] ∧ task.requirementIds = []) :
    Kept plan w' := by
  have hexecute : w'.dir.execute = some state := by rw [hdir]
  constructor
  · intro worktree hworktree
    refine ⟨state, hexecute, ?_⟩
    rw [hlisted]
    rw [hmade] at hworktree
    obtain hold | hnew := List.mem_append.mp hworktree
    · obtain ⟨planned, hplanned, hspared, hpath, hbranch⟩ := hleft.worktrees worktree hold
      obtain ⟨task, htask, hpath', hbranch'⟩ := carried_of_spared hof hplanned hspared
      exact ⟨task, htask, hpath'.trans hpath, hbranch'.trans hbranch⟩
    · obtain ⟨result, hresult, hmem⟩ := List.mem_flatMap.mp hnew
      exact ⟨_, List.mem_map_of_mem hresult, listed_of_mem (hof.of result hresult) hmem⟩
  · intro branch hbranch
    rw [hmade] at hbranch
    obtain ⟨planned, hplanned, hspared, hnamed⟩ := hleft.branches branch hbranch
    obtain ⟨task, htask, -, hbranch'⟩ := carried_of_spared hof hplanned hspared
    exact ⟨state, hexecute, task, hlisted ▸ htask, hbranch'.trans hnamed⟩
  · intro state' hstate' task htask
    rw [hexecute] at hstate'
    cases hstate'
    rw [hlisted] at htask
    obtain ⟨result, hresult, rfl⟩ := List.mem_map.mp htask
    have hmember : result.task ∈ plan.tasksFor taskId := hof.tasks ▸ List.mem_map_of_mem hresult
    obtain ⟨hdepends, hrequirements⟩ := hplain _ hmember
    refine ⟨result.task, tasksFor_subset hmember, ?_⟩
    simp only [createUpdatedTask, hdepends, hrequirements]

theorem ExecutionCommand.Runs.kept {c : ExecutionCommand} {out : Except Exn Unit}
    (h : c.Runs layout lower w out w') (hplan : w.dir.plan = some plan)
    (hcareful : Careful layout lower plan c w out w') (hkept : Kept plan w) :
    w'.dir.plan = some plan ∧ Kept plan w' := by
  cases c with
  | execute taskId model =>
    obtain hfruitless | ⟨spared, hsmooth, hleft, hplain⟩ := hcareful
    · rw [fruitless_unchanged hfruitless]
      exact ⟨hplan, hkept⟩
    · have hends : ExecutionEnds spared plan taskId w out w' :=
        Program.Runs.always (σ := workflowSignature) hsmooth (execute_leaves hplan)
      cases hends with
      | saved results state hof hlisted hdir hmade =>
        refine ⟨by rw [hdir]; exact hplan, ?_⟩
        exact kept_of_saved hof hlisted hdir hmade hleft hplain
      | refused e => exact ⟨hplan, hkept⟩
  | ship =>
    obtain ⟨hdir, hworktrees, hbranches⟩ := h
    refine ⟨hdir ▸ hplan, ?_, ?_, ?_⟩
    · intro worktree hworktree
      rw [hdir]
      exact hkept.listed worktree (hworktrees.subset hworktree)
    · intro branch hbranch
      rw [hdir]
      exact hkept.branches branch (hbranches.subset hbranch)
    · rw [hdir]
      exact hkept.whole

end Commands

/-- Over every sequence of executions of one plan and of ships that each meet the condition, the stored
execution lists everything that is left, and its tasks are whole. -/
theorem executions_keep {layout : LayoutType} {lower : String → String} {plan : PlanState}
    {w w' : World} (hplan : w.dir.plan = some plan) (hkept : Kept plan w)
    (h : Executions layout lower (Careful layout lower plan) w w') : Kept plan w' := by
  suffices hboth : w'.dir.plan = some plan ∧ Kept plan w' from hboth.2
  induction h with
  | start => exact ⟨hplan, hkept⟩
  | command before c h hcondition ih => exact h.kept ih.1 hcondition ih.2

section Example

/-- A world in which every call succeeds and no gate is set up. -/
def servesExecutor : (c : ExecutorCall) → Repository → Option (Except Exn c.Value × Repository)
  | .uuid4Hex, s => some (.ok "0123456789abcdef", s)
  | .launch .., s => some (.ok (.started none []), s)
  | .repoRoot, s => some (.ok ⟨"/home", "repo"⟩, s)
  | .worktreeIsValid _, s => some (.ok false, s)
  | .worktreeAdd path branch, s => some (.ok (), s.add [⟨path, branch⟩])

theorem orderlyStep_of_serves {c : ExecutorCall} {s s' : Repository} {r : Except Exn c.Value}
    (h : servesExecutor c s = some (r, s')) : orderlyStep ⟨c, r⟩ s s' := by
  have hok : ∃ v, r = .ok v := by
    cases c <;> (cases h; exact ⟨_, rfl⟩)
  obtain ⟨v, rfl⟩ := hok
  refine ⟨?_, nofun, nofun⟩
  cases c <;> (cases h; rfl)

def servesWorkflow : (c : WorkflowCall) → World → Option (Except Exn c.Value × World)
  | .loadPlan, w => some (.ok w.dir.plan, w)
  | .loadExecute, w => some (.ok w.dir.execute, w)
  | .uuid4Hex, w => some (.ok "0123456789abcdef", w)
  | .hasFpelPort, w => some (.ok false, w)
  | .saveExecute state, w => some (.ok (), { w with dir := { w.dir with execute := some state } })
  | .executeTask task model, w =>
    ((executeTask .nested id task model).exec servesExecutor w.repository).map fun ended =>
      (ended.1, { w with repository := ended.2.2 })
  | _, _ => none

theorem smoothStep_of_serves {c : WorkflowCall} {w w' : World} {r : Except Exn c.Value}
    (h : servesWorkflow c w = some (r, w')) : smoothStep .nested id (fun _ => false) ⟨c, r⟩ w w' := by
  cases c with
  | loadPlan =>
    cases h
    exact ⟨⟨rfl, rfl, fun _ h => by cases h; rfl⟩, nofun, nofun⟩
  | loadExecute =>
    cases h
    exact ⟨⟨rfl, rfl, fun _ h => by cases h; rfl⟩, nofun, nofun⟩
  | uuid4Hex =>
    cases h
    exact ⟨⟨rfl, rfl⟩, nofun, nofun⟩
  | hasFpelPort =>
    cases h
    exact ⟨⟨rfl, rfl⟩, nofun, nofun⟩
  | saveExecute state =>
    cases h
    exact ⟨⟨rfl, .inl ⟨rfl, rfl⟩⟩, nofun, nofun⟩
  | executeTask task model =>
    cases hexec : (executeTask .nested id task model).exec servesExecutor w.repository with
    | none =>
      rw [servesWorkflow, hexec] at h
      cases h
    | some ended =>
      rw [servesWorkflow, hexec] at h
      cases h
      have hruns := (Program.exec_reaches (fun _ _ _ _ h => orderlyStep_of_serves h) hexec).runs
      exact ⟨⟨rfl, Program.Runs.mono (fun _ _ _ hstep => ⟨hstep, nofun⟩) hruns⟩, nofun, nofun⟩
  | loadVerify => cases h
  | savePlan state => cases h
  | saveVerify state => cases h
  | writePlanFile path content => cases h
  | checkSealed targetId scope => cases h
  | runTests => cases h

theorem executionStep_of_smooth {layout : LayoutType} {lower : String → String} {spared : Task → Bool}
    {a : Answered workflowSignature Exn} {w w' : World} (h : smoothStep layout lower spared a w w') :
    executionStep layout lower (fun _ => executorStep) a w w' := by
  obtain ⟨c, r⟩ := a
  cases c with
  | executeTask task model => exact ⟨h.1.1, Program.Runs.mono (fun _ _ _ hstep => hstep.1.1) h.1.2⟩
  | _ => exact h.1

def twoTasks : PlanState :=
  { sessionId := "plan", phase := .outlined,
    tasks := [{ id := "1", slug := "a", description := "" }, { id := "2", slug := "b", description := "" }] }

def beforeTasks : World := { dir := { plan := some twoTasks } }

/-- The world after the execution of a task. -/
def executedTask (taskId : String) (w : World) : World :=
  match (execute (some taskId) "m").exec servesWorkflow w with
  | some (_, _, w') => w'
  | none => w

theorem smooth_executedTask {taskId : String} {w : World}
    (h : ((execute (some taskId) "m").exec servesWorkflow w).map (·.1) = some (.ok ())) :
    (execute (some taskId) "m").Runs (smoothStep .nested id fun _ => false) w (.ok ()) (executedTask taskId w) := by
  unfold executedTask
  cases hexec : (execute (some taskId) "m").exec servesWorkflow w with
  | none =>
    rw [hexec] at h
    cases h
  | some ended =>
    obtain ⟨out, answers, w'⟩ := ended
    rw [hexec] at h
    obtain rfl : out = .ok () := Option.some.inj h
    exact (Program.exec_reaches (fun _ _ _ _ h => smoothStep_of_serves h) hexec).runs

theorem runs_executedTask {taskId : String} {w : World}
    (h : ((execute (some taskId) "m").exec servesWorkflow w).map (·.1) = some (.ok ())) :
    (ExecutionCommand.execute (some taskId) "m").Runs .nested id w (.ok ()) (executedTask taskId w) :=
  Program.Runs.mono (fun _ _ _ => executionStep_of_smooth) (smooth_executedTask h)

theorem kept_beforeTasks : Kept twoTasks beforeTasks := by
  constructor
  · intro worktree hworktree
    cases hworktree
  · intro branch hbranch
    cases hbranch
  · intro state hstate
    cases hstate

theorem careful_executedTask {taskId : String} {w : World} (hleft : w.repository = {})
    (h : ((execute (some taskId) "m").exec servesWorkflow w).map (·.1) = some (.ok ())) :
    Careful .nested id twoTasks (.execute (some taskId) "m") w (.ok ()) (executedTask taskId w) := by
  refine .inr ⟨_, smooth_executedTask h, ?_, fun task htask => ?_⟩
  · rw [hleft]
    exact ⟨nofun, nofun⟩
  · have hplain : ∀ task ∈ twoTasks.tasks, task.dependsOn = [] ∧ task.requirementIds = [] := by decide
    exact hplain task (tasksFor_subset htask)

/-- The world after a ship that has removed everything. -/
def shippedTasks (w : World) : World := { w with repository := {} }

/-- A task is executed, its worktree is shipped, and then the other one is executed. -/
theorem executions_keep_shipped : Kept twoTasks (executedTask "2" (shippedTasks (executedTask "1" beforeTasks))) := by
  have hfirst : Executions .nested id (Careful .nested id twoTasks) beforeTasks (executedTask "1" beforeTasks) :=
    .command (.start beforeTasks) (.execute (some "1") "m") (runs_executedTask rfl) (careful_executedTask rfl rfl)
  have hship : ExecutionCommand.ship.Runs .nested id (executedTask "1" beforeTasks) (.ok ())
      (shippedTasks (executedTask "1" beforeTasks)) := ⟨rfl, List.nil_sublist _, List.nil_sublist _⟩
  have hsecond := (hfirst.command .ship hship trivial).command (.execute (some "2") "m") (runs_executedTask rfl) (careful_executedTask rfl rfl)
  exact executions_keep rfl kept_beforeTasks hsecond

/-- The tasks of a plan are executed one by one: the worktree of the first is no longer listed. -/
theorem second_execution_forgets : ¬ ∀ (layout : LayoutType) (lower : String → String)
    (plan : PlanState) (w w' : World), w.dir.plan = some plan → Kept plan w →
      Executions layout lower (fun _ _ _ _ => True) w w' → Kept plan w' := by
  intro h
  have hfirst : Executions .nested id (fun _ _ _ _ => True) beforeTasks (executedTask "1" beforeTasks) :=
    .command (.start beforeTasks) (.execute (some "1") "m") (runs_executedTask rfl) trivial
  have hsecond : Executions .nested id (fun _ _ _ _ => True) beforeTasks
      (executedTask "2" (executedTask "1" beforeTasks)) :=
    hfirst.command (.execute (some "2") "m") (runs_executedTask rfl) trivial
  have hkept := h _ _ twoTasks _ _ rfl kept_beforeTasks hsecond
  obtain ⟨state, hstate, task, htask, hpath, -⟩ := hkept.listed ⟨"/home/repo/.worktrees/task-a", "task-a"⟩
    (by decide)
  have hpaths : ((executedTask "2" (executedTask "1" beforeTasks)).dir.execute.map fun state =>
      state.tasks.map (·.worktreePath)) = some [some "/home/repo/.worktrees/task-b"] := by rfl
  rw [hstate, Option.map_some, Option.some.injEq] at hpaths
  have hlisted : task.worktreePath ∈ state.tasks.map (·.worktreePath) := List.mem_map_of_mem htask
  rw [hpaths, List.mem_singleton, hpath] at hlisted
  revert hlisted
  decide

end Example

end ForkAgent.Workflow

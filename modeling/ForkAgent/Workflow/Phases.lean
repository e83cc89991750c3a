import ForkAgent.Workflow.Commands

/-!
# The order of the phases

A run of commands is followed by what each of them saved. No command looks at more than the phases
in the files it loads, and nothing that a file held is taken back when an earlier phase is run again.
-/

namespace ForkAgent.Workflow

open Effects

/-- A command that has completed has saved its state. -/
inductive Save where
  | plan (state : PlanState)
  | execute (state : ExecuteState)
  | verify (state : VerifyState)

namespace Save

def IsPlan : Save → Prop
  | .plan _ => True
  | _ => False

def IsExecute : Save → Prop
  | .execute _ => True
  | _ => False

def store : Save → StateDir → StateDir
  | .plan state, d => { d with plan := some state }
  | .execute state, d => { d with execute := some state }
  | .verify state, d => { d with verify := some state }

end Save

/-- A state directory with what was saved in it, oldest first. -/
abbrev Recorded := StateDir × List Save

def savesOf : Answered workflowSignature Exn → List Save
  | ⟨.savePlan state, .ok _⟩ => [.plan state]
  | ⟨.saveExecute state, .ok _⟩ => [.execute state]
  | ⟨.saveVerify state, .ok _⟩ => [.verify state]
  | _ => []

def Recorded.step : Semantics workflowSignature Exn Recorded := fun a w w' =>
  StateDir.step a w.1 w'.1 ∧ w'.2 = w.2 ++ savesOf a

inductive Command where
  | outline (taskDescription planFile : String)
  | execute (taskId : Option String) (model : String)
  | verify (runTests : Bool)
  | ship (force : Bool) (reason : String)

/-- A run of a command to its end; a ship goes on after its gates, and saves nothing. -/
def Command.Runs (slugify : String → String) : Command → Recorded → Recorded → Prop
  | .outline taskDescription planFile, w, w' =>
    ∃ out, (Workflow.outline slugify taskDescription planFile).Runs Recorded.step w out w'
  | .execute taskId model, w, w' => ∃ out, (Workflow.execute taskId model).Runs Recorded.step w out w'
  | .verify runTests, w, w' => ∃ out, (Workflow.verify runTests).Runs Recorded.step w out w'
  | .ship force reason, w, w' => ∃ out, (shipGates force reason).Runs Recorded.step w out w'

/-- What is reached from an empty directory by commands that each meet the condition. -/
inductive Reached (slugify : String → String) (condition : Command → Recorded → Prop) :
    Recorded → Prop where
  | empty : Reached slugify condition ({}, [])
  | command {w w'} (before : Reached slugify condition w) (c : Command) (hcondition : condition c w)
      (h : c.Runs slugify w w') : Reached slugify condition w'

/-- An execution was saved after the last plan. -/
def ExecutedSince (saves : List Save) : Prop :=
  ∃ before state after, saves = before ++ .execute state :: after ∧ ∀ save ∈ after, ¬ save.IsPlan

/-- A verification whose tests did not fail was saved after the last execution. -/
def VerifiedSince (saves : List Save) : Prop :=
  ∃ before state after, saves = before ++ .verify state :: after ∧
    state.testResults.DidNotFail ∧ ∀ save ∈ after, ¬ save.IsExecute

/-- No phase was skipped. -/
structure PhasesFollowed (saves : List Save) : Prop where
  executed : ExecutedSince saves
  verified : VerifiedSince saves

/-- Where an execution is stored, `verify` is run only if what was saved last is an execution or a
verification. Where a verification is stored, `ship` is run without force only if what was saved last
is a verification, and its results do not carry exit code 0 without a pass. -/
def InOrder : Command → Recorded → Prop
  | .verify _, w => w.1.execute = none ∨ ∃ save, w.2.getLast? = some save ∧ ¬ save.IsPlan
  | .ship false _, w => w.1.verify = none ∨ (∃ state, w.2.getLast? = some (.verify state)) ∧
    ∀ state, w.1.verify = some state → state.testResults.exitCode = some 0 →
      state.testResults.DidNotFail
  | _, _ => True

section Programs

variable {w : Recorded} {α : Type}

abbrev Ends (p : WorkflowProgram α) (Q : Except Exn α → Recorded → Prop) (w : Recorded) : Prop :=
  p.Always Recorded.step (fun _ _ => True) Q w

/-- The call stores nothing. -/
def Reads (c : WorkflowCall) : Prop := ∀ r w w', Recorded.step ⟨c, r⟩ w w' → w' = w

theorem reads_of_same {c : WorkflowCall} (hsave : ∀ r, savesOf ⟨c, r⟩ = [])
    (hstep : ∀ r d d', StateDir.step ⟨c, r⟩ d d' → d' = d) : Reads c := by
  rintro r w w' ⟨hd, hsaves⟩
  rw [hsave, List.append_nil] at hsaves
  exact Prod.ext (hstep r _ _ hd) hsaves

theorem reads_loadPlan : Reads .loadPlan :=
  reads_of_same (fun r => by cases r <;> rfl) fun _ _ _ h => h.1

theorem reads_loadExecute : Reads .loadExecute :=
  reads_of_same (fun r => by cases r <;> rfl) fun _ _ _ h => h.1

theorem reads_loadVerify : Reads .loadVerify :=
  reads_of_same (fun r => by cases r <;> rfl) fun _ _ _ h => h.1

theorem reads_open {c : WorkflowCall} (hsave : ∀ r, savesOf ⟨c, r⟩ = [])
    (hstep : ∀ r d d', StateDir.step ⟨c, r⟩ d d' = (d' = d)) : Reads c :=
  reads_of_same hsave fun r d d' h => by rwa [hstep] at h

theorem reads_bind_ends {c : WorkflowCall} (hc : Reads c) {k : c.Value → WorkflowProgram α}
    {Q : Except Exn α → Recorded → Prop}
    (hok : ∀ v, Recorded.step ⟨c, .ok v⟩ w w → Ends (k v) Q w) (herror : ∀ e, Q (.error e) w) :
    Ends (workflowCall c >>= k) Q w := by
  refine (Program.always_perform_bind (σ := workflowSignature) c k).mpr ⟨trivial, ?_, ?_⟩
  · intro v w' hstep
    have hsame := hc _ _ _ hstep
    subst hsame
    exact hok v hstep
  · intro e w' hstep
    rw [hc _ _ _ hstep]
    exact herror e

/-- What a program that saves at most one state of this kind leaves behind. -/
def SavesOne (kind : Save → Prop) (w w' : Recorded) : Prop :=
  w' = w ∨ ∃ save, kind save ∧ w' = (save.store w.1, w.2 ++ [save])

/-- The call stores this state, or fails and stores nothing. -/
def Saves (c : WorkflowCall) (save : Save) : Prop := ∀ r w w', Recorded.step ⟨c, r⟩ w w' →
  (∃ v, r = .ok v) ∧ w' = (save.store w.1, w.2 ++ [save]) ∨ (∃ e, r = .error e) ∧ w' = w

theorem saves_of_replaced {r : Except Exn Unit} {save : Save} {w w' : Recorded}
    (hd : StateDir.Replaced w.1 (save.store w.1) r w'.1)
    (hsaves : w'.2 = w.2 ++ match r with | .ok _ => [save] | .error _ => []) :
    (∃ v, r = .ok v) ∧ w' = (save.store w.1, w.2 ++ [save]) ∨ (∃ e, r = .error e) ∧ w' = w := by
  obtain ⟨rfl, hd⟩ | ⟨⟨e, rfl⟩, hd⟩ := hd
  · exact .inl ⟨⟨_, rfl⟩, Prod.ext hd hsaves⟩
  · exact .inr ⟨⟨e, rfl⟩, Prod.ext hd (hsaves.trans (List.append_nil _))⟩

theorem saves_plan (state : PlanState) : Saves (.savePlan state) (.plan state) := by
  rintro (e | v) w w' ⟨hd, hsaves⟩
  · exact @saves_of_replaced (.error e) (.plan state) _ _ hd hsaves
  · exact @saves_of_replaced (.ok v) (.plan state) _ _ hd hsaves

theorem saves_execute (state : ExecuteState) : Saves (.saveExecute state) (.execute state) := by
  rintro (e | v) w w' ⟨hd, hsaves⟩
  · exact @saves_of_replaced (.error e) (.execute state) _ _ hd hsaves
  · exact @saves_of_replaced (.ok v) (.execute state) _ _ hd hsaves

theorem saves_verify (state : VerifyState) : Saves (.saveVerify state) (.verify state) := by
  rintro (e | v) w w' ⟨hd, hsaves⟩
  · exact @saves_of_replaced (.error e) (.verify state) _ _ hd hsaves
  · exact @saves_of_replaced (.ok v) (.verify state) _ _ hd hsaves

theorem save_bind_ends {c : WorkflowCall} {save : Save} (hc : Saves c save)
    {k : c.Value → WorkflowProgram α} {Q : Except Exn α → Recorded → Prop}
    (hok : ∀ v, Ends (k v) Q (save.store w.1, w.2 ++ [save])) (herror : ∀ e, Q (.error e) w) :
    Ends (workflowCall c >>= k) Q w := by
  refine (Program.always_perform_bind (σ := workflowSignature) c k).mpr ⟨trivial, ?_, ?_⟩
  · intro v w' hstep
    obtain ⟨-, rfl⟩ | ⟨⟨e, he⟩, -⟩ := hc _ _ _ hstep
    · exact hok v
    · cases he
  · intro e w' hstep
    obtain ⟨⟨v, hv⟩, -⟩ | ⟨-, rfl⟩ := hc _ _ _ hstep
    · cases hv
    · exact herror e

theorem save_ends {c : WorkflowCall} {save : Save} (hc : Saves c save)
    {Q : Except Exn c.Value → Recorded → Prop}
    (hok : ∀ v, Q (.ok v) (save.store w.1, w.2 ++ [save])) (herror : ∀ e, Q (.error e) w) :
    Ends (workflowCall c) Q w := by
  rw [← Program.bind_ret (workflowCall c)]
  exact save_bind_ends hc hok herror

theorem reads_ends {c : WorkflowCall} (hc : Reads c) : Ends (workflowCall c) (fun _ w' => w' = w) w := by
  rw [← Program.bind_ret (workflowCall c)]
  exact reads_bind_ends hc (fun _ _ => rfl) fun _ => rfl

theorem reads_writePlanFile (path content : String) : Reads (.writePlanFile path content) :=
  reads_open (fun r => by cases r <;> rfl) fun _ _ _ => rfl

theorem reads_uuid4Hex : Reads .uuid4Hex := reads_open (fun r => by cases r <;> rfl) fun _ _ _ => rfl

theorem reads_hasFpelPort : Reads .hasFpelPort :=
  reads_open (fun r => by cases r <;> rfl) fun _ _ _ => rfl

theorem reads_checkSealed (targetId : String) (scope : HashScope) :
    Reads (.checkSealed targetId scope) := reads_open (fun r => by cases r <;> rfl) fun _ _ _ => rfl

theorem reads_executeTask (task : Task) (model : String) : Reads (.executeTask task model) :=
  reads_open (fun r => by cases r <;> rfl) fun _ _ _ => rfl

theorem reads_runTests : Reads .runTests := reads_open (fun r => by cases r <;> rfl) fun _ _ _ => rfl

theorem checkPlanExists_ends : Ends checkPlanExists (fun _ w' => w' = w) w := by
  refine reads_bind_ends reads_loadPlan (fun plan _ => ?_) fun _ => rfl
  cases plan with
  | none => exact rfl
  | some plan => exact rfl

theorem checkExecuteExists_ends : Ends checkExecuteExists
    (fun out w' => w' = w ∧ ∀ state, out = .ok state → w.1.execute = some state) w := by
  refine reads_bind_ends reads_loadExecute (fun state hstep => ?_) fun _ => ⟨rfl, fun _ h => nomatch h⟩
  have hread := hstep.1.2 state rfl
  cases state with
  | none => exact ⟨rfl, fun _ h => nomatch h⟩
  | some state =>
    refine ⟨rfl, fun state' h => ?_⟩
    cases h
    exact hread.symm

theorem checkVerifyExists_ends : Ends checkVerifyExists
    (fun out w' => w' = w ∧ ∀ state, out = .ok state → w.1.verify = some state) w := by
  refine reads_bind_ends reads_loadVerify (fun state hstep => ?_) fun _ => ⟨rfl, fun _ h => nomatch h⟩
  have hread := hstep.1.2 state rfl
  cases state with
  | none => exact ⟨rfl, fun _ h => nomatch h⟩
  | some state =>
    refine ⟨rfl, fun state' h => ?_⟩
    cases h
    exact hread.symm

theorem outline_ends {slugify : String → String} {taskDescription planFile : String} :
    Ends (outline slugify taskDescription planFile)
      (fun _ w' => SavesOne Save.IsPlan w w') w := by
  refine reads_bind_ends reads_uuid4Hex (fun planHex _ => ?_) fun _ => .inl rfl
  refine reads_bind_ends reads_uuid4Hex (fun taskHex _ => ?_) fun _ => .inl rfl
  refine save_bind_ends (saves_plan _) (fun _ => ?_) fun _ => .inl rfl
  refine (reads_ends (reads_writePlanFile _ _)).mono (fun _ _ h => h) fun out w' h => ?_
  rw [h]
  exact .inr ⟨.plan _, trivial, rfl⟩

theorem executeTasks_ends {model : String} {tasks : List Task} :
    Ends (executeTasks model tasks) (fun _ w' => w' = w) w := by
  induction tasks with
  | nil => exact rfl
  | cons task tasks ih =>
    refine reads_bind_ends (reads_executeTask _ _) (fun result _ => ?_) fun _ => rfl
    exact Program.Always.bind ih (fun _ _ h => h) fun _ _ h => h

theorem executePlan_ends {plan : PlanState} {model : String} {taskId : Option String} :
    Ends (executePlan plan model taskId) (fun _ w' => w' = w) w := by
  refine Program.Always.bind executeTasks_ends (fun results w' h => ?_) fun _ _ h => h
  subst h
  exact reads_bind_ends reads_uuid4Hex (fun _ _ => rfl) fun _ => rfl

theorem executeGate_ends {plan : PlanState} {taskId : Option String} :
    Ends (executeGate plan taskId) (fun _ w' => w' = w) w := by
  refine reads_bind_ends reads_hasFpelPort (fun enabled _ => ?_) fun _ => rfl
  cases enabled with
  | false => exact rfl
  | true =>
    refine (Program.always_ofExcept_bind _ _).mpr ⟨fun target _ => ?_, fun _ _ => rfl⟩
    refine reads_bind_ends (reads_checkSealed _ _) (fun decision _ => ?_) fun _ => rfl
    by_cases hallowed : Fpel.AuthorizationDecision.allowed decision = true
    · rw [if_pos hallowed]
      exact rfl
    · rw [if_neg hallowed]
      exact rfl

theorem execute_ends {taskId : Option String} {model : String} :
    Ends (execute taskId model) (fun _ w' => SavesOne Save.IsExecute w w') w := by
  refine Program.Always.bind checkPlanExists_ends (fun plan w' h => ?_) fun _ _ h => .inl h
  subst h
  refine (Program.always_ofExcept_bind _ _).mpr ⟨fun _ _ => ?_, fun _ _ => .inl rfl⟩
  refine reads_bind_ends reads_loadExecute (fun stored _ => ?_) fun _ => .inl rfl
  refine Program.Always.bind executeGate_ends (fun _ w' h => ?_) fun _ _ h => .inl h
  subst h
  refine Program.Always.bind executePlan_ends (fun state w' h => ?_) fun _ _ h => .inl h
  subst h
  exact save_ends (saves_execute state) (fun _ => .inr ⟨.execute state, trivial, rfl⟩)
    fun _ => .inl rfl

theorem testResults_ends {runTests : Bool} : Ends (testResults runTests) (fun _ w' => w' = w) w := by
  cases runTests with
  | true => exact Program.Always.handle (reads_ends reads_runTests) (fun _ _ h => h) fun _ _ h => h
  | false => exact rfl

theorem verify_ends {runTests : Bool} :
    Ends (verify runTests) (fun _ w' => w' = w ∨
      w.1.execute ≠ none ∧ ∃ state, w' = ((Save.verify state).store w.1, w.2 ++ [.verify state])) w := by
  refine Program.Always.bind checkPlanExists_ends (fun plan w' h => ?_) fun _ _ h => .inl h
  subst h
  refine Program.Always.bind checkExecuteExists_ends (fun state w' h => ?_) fun _ _ h => .inl h.1
  obtain ⟨rfl, hstored⟩ := h
  have hexecuted : w'.1.execute ≠ none := by simp [hstored state rfl]
  refine (Program.always_ofExcept_bind _ _).mpr ⟨fun _ _ => ?_, fun _ _ => .inl rfl⟩
  refine reads_bind_ends reads_uuid4Hex (fun hex _ => ?_) fun _ => .inl rfl
  refine Program.Always.bind testResults_ends (fun results w₁ h => ?_) fun _ _ h => .inl h
  subst h
  exact save_ends (saves_verify _) (fun _ => .inr ⟨hexecuted, _, rfl⟩) fun _ => .inl rfl

/-- Without force, the gates are passed with the stored verification, and by its results. -/
theorem shipGates_ends {force : Bool} {reason : String} :
    Ends (shipGates force reason) (fun out w' => w' = w ∧ ∀ state, out = .ok state → force = false →
      w.1.verify = some state ∧ state.testResults.passGate = true) w := by
  have hverification : Ends (shipVerification force reason) (fun out w' => w' = w ∧
      ∀ state, out = .ok state → force = false →
        w.1.verify = some state ∧ state.testResults.passGate = true) w := by
    cases force with
    | true =>
      unfold shipVerification
      rw [if_pos rfl]
      obtain hreason | hreason := eq_or_ne (strip reason) ""
      · rw [if_pos hreason]
        exact ⟨rfl, fun _ h => nomatch h⟩
      · rw [if_neg hreason]
        exact reads_bind_ends reads_uuid4Hex (fun _ _ => ⟨rfl, fun _ _ h => nomatch h⟩)
          fun _ => ⟨rfl, fun _ h => nomatch h⟩
    | false =>
      unfold shipVerification
      rw [if_neg Bool.false_ne_true]
      refine Program.Always.bind checkVerifyExists_ends (fun state w' h => ?_)
        fun _ _ h => ⟨h.1, fun _ h => nomatch h⟩
      obtain ⟨rfl, hstored⟩ := h
      by_cases hgate : state.testResults.passGate = true
      · rw [if_pos hgate]
        refine ⟨rfl, fun state' h _ => ?_⟩
        cases h
        exact ⟨hstored state rfl, hgate⟩
      · rw [if_neg hgate]
        exact ⟨rfl, fun _ h => nomatch h⟩
  refine Program.Always.bind hverification (fun state w' h => ?_) fun _ _ h => ⟨h.1, fun _ h => nomatch h⟩
  obtain ⟨rfl, hstored⟩ := h
  refine (Program.always_ofExcept_bind _ _).mpr
    ⟨fun _ _ => ?_, fun _ _ => ⟨rfl, fun _ h => nomatch h⟩⟩
  by_cases hunlock : state.unlockShip = true
  · rw [if_pos hunlock]
    refine ⟨rfl, fun state' h hforce => ?_⟩
    cases h
    exact hstored state rfl hforce
  · rw [if_neg hunlock]
    exact ⟨rfl, fun _ h => nomatch h⟩

end Programs

theorem ExecutedSince.concat {saves : List Save} (h : ExecutedSince saves) {save : Save}
    (hsave : ¬ save.IsPlan) : ExecutedSince (saves ++ [save]) := by
  obtain ⟨before, state, after, rfl, hafter⟩ := h
  refine ⟨before, state, after ++ [save], by simp, fun other hother => ?_⟩
  rcases List.mem_append.mp hother with hother | hother
  · exact hafter other hother
  · rw [List.mem_singleton.mp hother]
    exact hsave

/-- What was saved last, and that a verification or an execution was saved in order. -/
structure Recorded.Invariant (w : Recorded) : Prop where
  verified : ∀ state, w.2.getLast? = some (.verify state) → w.1.verify = some state
  executed : ∀ save, w.2.getLast? = some save → ¬ save.IsPlan → ExecutedSince w.2

section Runs

variable {slugify : String → String} {w w' : Recorded} {c : Command}

theorem Command.Runs.invariant (h : c.Runs slugify w w') (horder : InOrder c w)
    (hw : w.Invariant) : w'.Invariant := by
  cases c with
  | outline taskDescription planFile =>
    obtain ⟨out, hrun⟩ := h
    obtain rfl | ⟨save, hplan, rfl⟩ := hrun.always outline_ends
    · exact hw
    · refine ⟨fun state hlast => ?_, fun last hlast hother => ?_⟩
      · rw [List.getLast?_concat, Option.some.injEq] at hlast
        subst hlast
        exact hplan.elim
      · rw [List.getLast?_concat, Option.some.injEq] at hlast
        subst hlast
        exact absurd hplan hother
  | execute taskId model =>
    obtain ⟨out, hrun⟩ := h
    obtain rfl | ⟨save, hexecute, rfl⟩ := hrun.always execute_ends
    · exact hw
    · obtain ⟨state, rfl⟩ : ∃ state, save = .execute state := by
        cases save with
        | execute state => exact ⟨state, rfl⟩
        | plan state => exact hexecute.elim
        | verify state => exact hexecute.elim
      refine ⟨fun state' hlast => ?_, fun _ _ _ => ⟨w.2, state, [], rfl, by simp⟩⟩
      rw [List.getLast?_concat, Option.some.injEq] at hlast
      cases hlast
  | verify runTests =>
    obtain ⟨out, hrun⟩ := h
    obtain rfl | ⟨hexecuted, state, rfl⟩ := hrun.always verify_ends
    · exact hw
    · obtain hnone | ⟨last, hlast, hother⟩ := horder
      · exact absurd hnone hexecuted
      · refine ⟨fun state' hlast' => ?_, fun _ _ _ => ?_⟩
        · rw [List.getLast?_concat, Option.some.injEq] at hlast'
          cases hlast'
          rfl
        · exact (hw.executed last hlast hother).concat id
  | ship force reason =>
    obtain ⟨out, hrun⟩ := h
    obtain ⟨rfl, -⟩ := hrun.always shipGates_ends
    exact hw

theorem Reached.invariant (h : Reached slugify InOrder w) : w.Invariant := by
  induction h with
  | empty => exact ⟨fun _ hlast => (nomatch hlast), fun _ hlast => nomatch hlast⟩
  | command before c hcondition h ih => exact h.invariant hcondition ih

end Runs

/-- When every command of a run is in order, a ship without force passes its gates only where an
execution was saved after the last plan, and after it a verification whose tests did not fail. -/
theorem phases_followed_of_inOrder (slugify : String → String) (w : Recorded)
    (hreached : Reached slugify InOrder w) (reason : String) (horder : InOrder (.ship false reason) w)
    (state : VerifyState) (w' : Recorded)
    (hpassed : (shipGates false reason).Runs Recorded.step w (.ok state) w') :
    PhasesFollowed w.2 := by
  obtain ⟨rfl, hgates⟩ := hpassed.always shipGates_ends
  obtain ⟨hstored, hgate⟩ := hgates state rfl rfl
  obtain hnone | ⟨⟨last, hlast⟩, hresults⟩ := horder
  · rw [hstored] at hnone
    cases hnone
  · have hinvariant := hreached.invariant
    have hsame := hinvariant.verified last hlast
    rw [hstored, Option.some.injEq] at hsame
    subst hsame
    refine ⟨hinvariant.executed _ hlast id, ?_⟩
    obtain ⟨before, hsaves⟩ := List.getLast?_eq_some_iff.mp hlast
    refine ⟨before, state, [], hsaves, ?_, by simp⟩
    obtain hpassed | ⟨-, hcode⟩ := VerifyResults.passGate_iff.mp hgate
    · exact hpassed
    · exact hresults state hstored hcode

section Example

/-- A directory in which every call succeeds, with the gate disabled. -/
def respond : (c : WorkflowCall) → Recorded → Option (Except Exn c.Value × Recorded)
  | .loadPlan, w => some (.ok w.1.plan, w)
  | .loadExecute, w => some (.ok w.1.execute, w)
  | .loadVerify, w => some (.ok w.1.verify, w)
  | .savePlan state, w => some (.ok (), (Save.plan state).store w.1, w.2 ++ [.plan state])
  | .saveExecute state, w => some (.ok (), (Save.execute state).store w.1, w.2 ++ [.execute state])
  | .saveVerify state, w => some (.ok (), (Save.verify state).store w.1, w.2 ++ [.verify state])
  | .writePlanFile .., w => some (.ok (), w)
  | .uuid4Hex, w => some (.ok "0", w)
  | .hasFpelPort, w => some (.ok false, w)
  | .executeTask task _, w => some (.ok { task }, w)
  | .checkSealed .., _ | .runTests, _ => none

theorem respond_step (c : WorkflowCall) (w : Recorded) (r : Except Exn c.Value) (w' : Recorded)
    (h : respond c w = some (r, w')) : Recorded.step ⟨c, r⟩ w w' := by
  cases c with
  | savePlan state | saveExecute state | saveVerify state =>
    cases h
    exact ⟨.inl ⟨rfl, rfl⟩, rfl⟩
  | loadPlan | loadExecute | loadVerify =>
    cases h
    refine ⟨⟨rfl, fun state h => ?_⟩, (List.append_nil _).symm⟩
    cases h
    rfl
  | checkSealed | runTests => cases h
  | _ =>
    cases h
    exact ⟨rfl, (List.append_nil _).symm⟩

def planned : PlanState :=
  { sessionId := "plan-0", status := "outlined", phase := .outlined, planFile := "plan.md",
    tasks := [{ id := "task-0", slug := "t", description := "t" }] }

def executedPlan : ExecuteState :=
  { sessionId := "exec-0", status := "executing", phase := .executed, tasks := planned.tasks }

def verifiedPlan : VerifyState :=
  { sessionId := "verify-0", status := "verified", phase := .verified, unlockShip := true }

theorem runs_of_exec {α : Type} {p : WorkflowProgram α} {w w' : Recorded} {out : Except Exn α}
    {answers : List (Answered workflowSignature Exn)}
    (h : p.exec respond w = some (out, answers, w')) : p.Runs Recorded.step w out w' :=
  (Program.exec_reaches respond_step h).runs

def afterOutline : Recorded := ({ plan := some planned }, [.plan planned])

def afterExecute : Recorded :=
  ({ plan := some planned, execute := some executedPlan }, [.plan planned, .execute executedPlan])

def afterVerify : Recorded :=
  ({ plan := some planned, execute := some executedPlan, verify := some verifiedPlan },
    [.plan planned, .execute executedPlan, .verify verifiedPlan])

theorem reached_afterVerify {condition : Command → Recorded → Prop}
    (houtline : condition (.outline "t" "plan.md") ({}, []))
    (hexecute : condition (.execute none "m") afterOutline)
    (hverify : condition (.verify false) afterExecute) :
    Reached (fun text => text) condition afterVerify := by
  have hfirst : Reached (fun text => text) condition afterOutline :=
    Reached.empty.command (.outline "t" "plan.md") houtline ⟨.ok (), runs_of_exec rfl⟩
  have hsecond : Reached (fun text => text) condition afterExecute :=
    hfirst.command (.execute none "m") hexecute ⟨.ok (), runs_of_exec rfl⟩
  exact hsecond.command (.verify false) hverify ⟨.ok (), runs_of_exec rfl⟩

theorem ship_afterVerify :
    (shipGates false "").Runs Recorded.step afterVerify (.ok verifiedPlan) afterVerify :=
  runs_of_exec rfl

theorem phases_followed_of_inOrder_once : PhasesFollowed afterVerify.2 := by
  refine phases_followed_of_inOrder _ _ (reached_afterVerify trivial trivial ?_) "" ?_ _ _
    ship_afterVerify
  · exact .inr ⟨.execute executedPlan, rfl, id⟩
  · refine .inr ⟨⟨verifiedPlan, rfl⟩, fun state hstate _ => ?_⟩
    cases hstate
    exact .inl rfl

/-- A new plan is shipped with the verification of the old one. -/
theorem replanned_ship_passes :
    ¬ ∀ (slugify : String → String) (w : Recorded), Reached slugify (fun _ _ => True) w →
      ∀ reason state w', (shipGates false reason).Runs Recorded.step w (.ok state) w' →
        PhasesFollowed w.2 := by
  intro h
  have hreached := @reached_afterVerify (fun _ _ => True) trivial trivial trivial
  have hreplanned : Reached (fun text => text) (fun _ _ => True)
      (afterVerify.1, afterVerify.2 ++ [.plan planned]) :=
    hreached.command (.outline "t" "plan.md") trivial ⟨.ok (), runs_of_exec rfl⟩
  have hship : (shipGates false "").Runs Recorded.step (afterVerify.1, afterVerify.2 ++ [.plan planned])
      (.ok verifiedPlan) (afterVerify.1, afterVerify.2 ++ [.plan planned]) := runs_of_exec rfl
  obtain ⟨before, state, after, hsaves, hafter⟩ := (h _ _ hreplanned _ _ _ hship).executed
  have hlength := congrArg List.getLast? hsaves
  rw [List.getLast?_concat] at hlength
  cases after with
  | nil =>
    rw [List.getLast?_concat] at hlength
    cases hlength
  | cons save after =>
    rw [List.getLast?_append_cons, List.getLast?_cons_cons] at hlength
    exact hafter _ (List.mem_of_getLast? hlength.symm) trivial

end Example

end ForkAgent.Workflow

import ForkAgent.Orchestration.Dispatcher
import Mathlib.Algebra.GroupWithZero.Nat
import Mathlib.Algebra.Order.BigOperators.Group.List
import Mathlib.Algebra.Order.Group.Nat

/-!
# What a dispatch does

The rules that an event satisfies are handled in their order. How often the command of one of them is run
depends on its policy and on how its runs end, and a rule that fails leaves the later ones alone. What reaches
the shell has passed the check of its command, in the few variables of the environment that are passed on.
-/

namespace ForkAgent.Orchestration

open Effects Program

section Runs

variable {runner : ShellActionRunner} {action : ShellCommandAction}
variable {h : List (Answered shellSignature Exn)} {out : Except Exn Unit}

namespace ShellActionRunner

/-- What the end of a process makes of the run of an action. -/
def outcome (runner : ShellActionRunner) (action : ShellCommandAction) :
    Except Exn CompletedProcess → Except Exn Unit
  | .ok result => onCompleted action result
  | .error e => runner.onTimeout action e

/-- One run of an action: its command is blocked, or handed to the shell. -/
def Attempt (runner : ShellActionRunner) (action : ShellCommandAction) (h : List (Answered shellSignature Exn))
    (out : Except Exn Unit) : Prop :=
  (∃ e, runner.validateCommand action.val.command = .error e ∧ h = [] ∧ out = .error e) ∨
    runner.validateCommand action.val.command = .ok () ∧
      ∃ r, h = [⟨runner.shellCall action, r⟩] ∧ out = runner.outcome action r

theorem run_answers : (runner.run action).Answers h out ↔ runner.Attempt action h out := by
  unfold ShellActionRunner.run Attempt
  cases hvalid : runner.validateCommand action.val.command with
  | error e =>
    rw [answers_bind]
    constructor
    · rintro (⟨e', ⟨rfl, he⟩, rfl⟩ | ⟨_, _, _, -, ⟨-, he⟩, -⟩)
      · cases he
        exact .inl ⟨e, rfl, rfl, rfl⟩
      · cases he
    · rintro (⟨e', he, rfl, rfl⟩ | ⟨hok, -⟩)
      · cases he
        exact .inl ⟨e, ⟨rfl, rfl⟩, rfl⟩
      · cases hok
  | ok u =>
    constructor
    · rintro ⟨r, rest, rfl, hrest⟩
      refine .inr ⟨rfl, r, ?_⟩
      cases r with
      | ok result =>
        obtain ⟨rfl, hout⟩ := answers_ofExcept.mp hrest
        exact ⟨rfl, hout⟩
      | error e =>
        obtain ⟨e', hraised, rfl⟩ | ⟨v, before, after, rfl, hnone, hafter⟩ := answers_bind.mp hrest
        · obtain ⟨e'', hfailed, he⟩ | ⟨_, _, _, -, -, -, hret⟩ := answers_bind.mp hraised
          · obtain ⟨rfl, htimeout⟩ := answers_ofExcept.mp hfailed
            cases he
            exact ⟨rfl, htimeout⟩
          · cases hret
        · obtain ⟨_, -, hret⟩ | ⟨_, _, _, rfl, hdropped, rfl, hv⟩ := answers_bind.mp hnone
          · cases hret
          · obtain ⟨rfl, htimeout⟩ := answers_ofExcept.mp hdropped
            cases hv
            obtain ⟨rfl, rfl⟩ := hafter
            exact ⟨rfl, htimeout⟩
    · rintro (⟨e, he, -⟩ | ⟨-, r, rfl, rfl⟩)
      · cases he
      · refine ⟨r, [], rfl, ?_⟩
        cases r with
        | ok result => exact answers_ofExcept.mpr ⟨rfl, rfl⟩
        | error e =>
          cases htimeout : runner.onTimeout action e with
          | error e' =>
            refine answers_bind.mpr (.inl ⟨e', answers_bind.mpr (.inl ⟨e', ?_, rfl⟩), htimeout⟩)
            exact answers_ofExcept.mpr ⟨rfl, htimeout.symm⟩
          | ok u =>
            refine answers_bind.mpr (.inr ⟨none, [], [], rfl, ?_, rfl, htimeout⟩)
            exact answers_bind.mpr (.inr ⟨u, [], [], rfl, answers_ofExcept.mpr ⟨rfl, htimeout.symm⟩, rfl, rfl⟩)

end ShellActionRunner

end Runs

section Rules

variable {d : EventDispatcher} {rule : Rule}
variable {h : List (Answered shellSignature Exn)} {out : Except Exn Unit}

/-- How a rule is handled. Where its policy is to try again, the runs before the last have failed; they are
as many as there may be if the last fails too, and there are none at all if none are allowed. -/
def EventDispatcher.Handles (d : EventDispatcher) (rule : Rule) (h : List (Answered shellSignature Exn))
    (out : Except Exn Unit) : Prop :=
  match rule.action.val.onFailure with
  | .abort => d.runner.Attempt rule.action h out
  | .continue => out = .ok () ∧ ∃ r, d.runner.Attempt rule.action h r
  | .retry => d.defaultRetryAttempts ≤ 0 ∧ h = [] ∧ out = .ok () ∨
    ∃ fails last, h = List.flatten fails ++ last ∧ fails.length < d.defaultRetryAttempts ∧
      (∀ failed ∈ fails, ∃ e, d.runner.Attempt rule.action failed (.error e)) ∧
        d.runner.Attempt rule.action last out ∧ (out ≠ .ok () → fails.length + 1 = d.defaultRetryAttempts)

theorem runWithPolicy_answers : (d.runWithPolicy rule).Answers h out ↔ d.Handles rule h out := by
  unfold EventDispatcher.runWithPolicy EventDispatcher.Handles
  cases rule.action.val.onFailure with
  | abort => exact ShellActionRunner.run_answers
  | «continue» =>
    refine answers_swallow.trans (and_congr_right fun _ => exists_congr fun r => ?_)
    exact ShellActionRunner.run_answers
  | retry =>
    by_cases hnone : d.defaultRetryAttempts ≤ 0
    · have hzero : d.defaultRetryAttempts.toNat = 0 := Int.toNat_of_nonpos hnone
      simp only [hzero]
      constructor
      · rintro ⟨rfl, rfl⟩
        exact .inl ⟨hnone, rfl, rfl⟩
      · rintro (⟨-, rfl, rfl⟩ | ⟨fails, last, -, hlen, -⟩)
        · exact ⟨rfl, rfl⟩
        · omega
    · obtain ⟨n, hn⟩ : ∃ n : Nat, d.defaultRetryAttempts = n + 1 := ⟨(d.defaultRetryAttempts - 1).toNat, by omega⟩
      have hsucc : d.defaultRetryAttempts.toNat = n + 1 := by omega
      simp only [hsucc]
      refine answers_tried.trans ?_
      simp only [ShellActionRunner.run_answers]
      constructor
      · rintro ⟨fails, last, rfl, hlen, hfails, hlast, hall⟩
        refine .inr ⟨fails, last, rfl, by omega, hfails, hlast, fun hout => ?_⟩
        rw [hall hout, hn]
      · rintro (⟨hnone, -⟩ | ⟨fails, last, rfl, hlen, hfails, hlast, hall⟩)
        · omega
        · refine ⟨fails, last, rfl, by omega, hfails, hlast, fun hout => ?_⟩
          have hcount := hall hout
          omega

/-- A dispatch handles the rules that the event satisfies, in their order, to the first that fails. -/
theorem dispatch_answers_iff (d : EventDispatcher) (re : RegexLib) (event : Event)
    (h : List (Answered shellSignature Exn)) (out : Except Exn Unit) :
    (d.dispatch re event).Answers h out ↔ ∃ done : List (Rule × List (Answered shellSignature Exn)),
      (∀ item ∈ done, d.Handles item.1 item.2 (.ok ())) ∧
        (out = .ok () ∧ d.rules.filter (fun rule => rule.spec.isSatisfiedBy re event) = done.map Prod.fst ∧
            h = (done.map Prod.snd).flatten ∨
          ∃ rule rest last e, out = .error e ∧
            d.rules.filter (fun rule => rule.spec.isSatisfiedBy re event) = done.map Prod.fst ++ rule :: rest ∧
              h = (done.map Prod.snd).flatten ++ last ∧ d.Handles rule last (.error e)) := by
  unfold EventDispatcher.dispatch
  rw [answers_each]
  simp only [AllDone, runWithPolicy_answers]

end Rules

section Safety

variable {d : EventDispatcher} {rule : Rule} {re : RegexLib} {event : Event}
variable {h : List (Answered shellSignature Exn)} {out : Except Exn Unit}

/-- What may reach the shell: a command without any of the patterns, with a time limit, and with the few
variables that are passed on. -/
structure Checked (runner : ShellActionRunner) (call : ShellCall) : Prop where
  command : ∀ pattern ∈ dangerousPatterns, occursIn pattern (strip call.command) = false
  timeout : 0 < call.timeout
  env : ∀ var ∈ call.env, var = ("HOOKS_DIR", runner.hooksDir) ∨
    var ∈ runner.environ ∧ var.1 ∈ safeDefaultEnvVars ∧ var.1 ∉ dangerousEnvVars

theorem validateCommand_eq_ok {runner : ShellActionRunner} {command : String} :
    runner.validateCommand command = .ok () ↔
      ∀ pattern ∈ dangerousPatterns, occursIn pattern (strip command) = false := by
  have hfind : (runner.patterns.find? fun pattern => occursIn pattern (strip command)) = none ↔
      ∀ pattern ∈ dangerousPatterns, occursIn pattern (strip command) = false := by
    simp only [List.find?_eq_none, runner.isPatterns.mem_iff, Bool.not_eq_true]
  rw [← hfind]
  unfold ShellActionRunner.validateCommand
  cases runner.patterns.find? fun pattern => occursIn pattern (strip command) with
  | none => simp
  | some pattern => simp

theorem shellCall_checked {runner : ShellActionRunner} {action : ShellCommandAction}
    (hvalid : runner.validateCommand action.val.command = .ok ()) : Checked runner (runner.shellCall action) := by
  have htimeout : 0 < action.val.timeout := by simpa [ShellCommandFields.postInit] using action.property
  refine ⟨validateCommand_eq_ok.mp hvalid, ?_, fun var hvar => ?_⟩
  · have hne : action.val.timeout ≠ 0 := by omega
    simpa [ShellActionRunner.shellCall, hne] using htimeout
  · obtain hvar | hvar := List.mem_append.mp hvar
    · obtain ⟨hmem, hsafe⟩ := List.mem_filter.mp hvar
      simp only [Bool.and_eq_true, decide_eq_true_eq] at hsafe
      exact .inr ⟨hmem, hsafe.2, hsafe.1.1⟩
    · exact .inl (List.mem_singleton.mp hvar)

/-- How often a rule may be run. -/
def EventDispatcher.mostRuns (d : EventDispatcher) (rule : Rule) : Nat :=
  if rule.action.val.onFailure = .retry then d.defaultRetryAttempts.toNat else 1

/-- All the calls of a rule are the one call of its action. -/
def RunsOf (d : EventDispatcher) (rule : Rule) (h : List (Answered shellSignature Exn)) : Prop :=
  ∀ a ∈ h, a.call = d.runner.shellCall rule.action ∧ Checked d.runner a.call

theorem attempt_runs (hattempt : d.runner.Attempt rule.action h out) : RunsOf d rule h ∧ h.length ≤ 1 := by
  obtain ⟨e, -, rfl, -⟩ | ⟨hvalid, r, rfl, -⟩ := hattempt
  · exact ⟨List.forall_mem_nil _, Nat.zero_le 1⟩
  · refine ⟨fun a ha => ?_, Nat.le_refl 1⟩
    rw [List.mem_singleton.mp ha]
    exact ⟨rfl, shellCall_checked hvalid⟩

theorem handles_runs (hhandles : d.Handles rule h out) : RunsOf d rule h ∧ h.length ≤ d.mostRuns rule := by
  unfold EventDispatcher.Handles at hhandles
  unfold EventDispatcher.mostRuns
  cases hpolicy : rule.action.val.onFailure with
  | abort =>
    rw [hpolicy] at hhandles
    exact attempt_runs hhandles
  | «continue» =>
    rw [hpolicy] at hhandles
    exact attempt_runs hhandles.2.choose_spec
  | retry =>
    rw [hpolicy] at hhandles
    obtain ⟨-, rfl, -⟩ | ⟨fails, last, rfl, hlen, hfails, hlast, -⟩ := hhandles
    · exact ⟨List.forall_mem_nil _, Nat.zero_le _⟩
    obtain ⟨hlast, hone⟩ := attempt_runs hlast
    have hflat : fails.flatten.length ≤ fails.length := by
      rw [List.length_flatten]
      refine (List.sum_le_card_nsmul _ 1 fun n hn => ?_).trans (by simp)
      obtain ⟨failed, hfailed, rfl⟩ := List.mem_map.mp hn
      obtain ⟨e, hattempt⟩ := hfails failed hfailed
      exact (attempt_runs hattempt).2
    constructor
    · intro a ha
      obtain ha | ha := List.mem_append.mp ha
      · obtain ⟨failed, hfailed, ha⟩ := List.mem_flatten.mp ha
        obtain ⟨e, hattempt⟩ := hfails failed hfailed
        exact (attempt_runs hattempt).1 a ha
      · exact hlast a ha
    · rw [if_pos rfl, List.length_append]
      omega

/-- Every command that a dispatch hands to the shell is that of a rule that the event satisfies, it has passed
the check, and there are no more of them than the policies of these rules allow. -/
theorem dispatch_checked (hrun : (d.dispatch re event).Answers h out) :
    (∀ a ∈ h, Checked d.runner a.call ∧ ∃ rule ∈ d.rules, rule.spec.isSatisfiedBy re event = true ∧
      a.call = d.runner.shellCall rule.action) ∧
      h.length ≤ ((d.rules.filter fun rule => rule.spec.isSatisfiedBy re event).map d.mostRuns).sum := by
  obtain ⟨done, hdone, hout⟩ := answers_each.mp hrun
  have hhandles : ∀ item ∈ done, d.Handles item.1 item.2 (.ok ()) :=
    fun item hitem => runWithPolicy_answers.mp (hdone item hitem)
  have hsum : (done.map Prod.snd).flatten.length ≤ ((done.map Prod.fst).map d.mostRuns).sum := by
    rw [List.length_flatten, List.map_map, List.map_map]
    exact List.sum_le_sum fun item hitem => (handles_runs (hhandles item hitem)).2
  have hcalls : ∀ a ∈ (done.map Prod.snd).flatten, Checked d.runner a.call ∧
      ∃ rule ∈ done.map Prod.fst, a.call = d.runner.shellCall rule.action := by
    intro a ha
    obtain ⟨seg, hseg, ha⟩ := List.mem_flatten.mp ha
    obtain ⟨item, hitem, rfl⟩ := List.mem_map.mp hseg
    obtain ⟨hcall, hchecked⟩ := (handles_runs (hhandles item hitem)).1 a ha
    exact ⟨hchecked, item.1, List.mem_map_of_mem hitem, hcall⟩
  have hsatisfied : ∀ rule ∈ d.rules.filter fun rule => rule.spec.isSatisfiedBy re event,
      rule ∈ d.rules ∧ rule.spec.isSatisfiedBy re event = true := fun rule => List.mem_filter.mp
  obtain ⟨-, hrules, rfl⟩ | ⟨rule, rest, last, e, -, hrules, rfl, hlast⟩ := hout
  · rw [hrules] at hsatisfied ⊢
    refine ⟨fun a ha => ?_, hsum⟩
    obtain ⟨hchecked, rule, hrule, hcall⟩ := hcalls a ha
    exact ⟨hchecked, rule, (hsatisfied rule hrule).1, (hsatisfied rule hrule).2, hcall⟩
  · rw [hrules] at hsatisfied ⊢
    obtain ⟨hruns, hlen⟩ := handles_runs (runWithPolicy_answers.mp hlast)
    refine ⟨fun a ha => ?_, ?_⟩
    · obtain ha | ha := List.mem_append.mp ha
      · obtain ⟨hchecked, rule, hrule, hcall⟩ := hcalls a ha
        have hmem := hsatisfied rule (List.mem_append_left _ hrule)
        exact ⟨hchecked, rule, hmem.1, hmem.2, hcall⟩
      · obtain ⟨hcall, hchecked⟩ := hruns a ha
        have hmem := hsatisfied rule (by simp)
        exact ⟨hchecked, rule, hmem.1, hmem.2, hcall⟩
    · rw [List.length_append, List.map_append, List.sum_append, List.map_cons, List.sum_cons]
      omega

theorem dispatch_single (hrules : d.rules.filter (fun rule => rule.spec.isSatisfiedBy re event) = [rule])
    (hhandles : d.Handles rule h (.ok ())) : (d.dispatch re event).Answers h (.ok ()) := by
  unfold EventDispatcher.dispatch
  rw [hrules]
  refine answers_each.mpr ⟨[(rule, h)], fun item hitem => ?_, .inl ⟨rfl, rfl, (List.append_nil h).symm⟩⟩
  rw [List.mem_singleton.mp hitem]
  exact runWithPolicy_answers.mpr hhandles

section Example

/-- A hook that is tried again, of the kind that fails the workflow. -/
def formatHook : Rule where
  spec := { eventType := "FileWritten", matcher := ".py" }
  action := ⟨{ command := "ruff format", onFailure := .retry }, by decide⟩

def formatDispatcher : EventDispatcher where
  rules := [formatHook]
  runner := { hooksDir := ".hooks", environ := [("PATH", "/bin"), ("IFS", ":")] }

/-- The search for a pattern without any special character in it. -/
def plainSearch : RegexLib := fun pattern => some fun text => occursIn pattern text

/-- The first run of the hook fails, and the second one does not. -/
theorem formatHook_tried_again :
    let event : Event := ⟨"FileWrittenEvent", [("path", "a.py")]⟩
    let call : ShellCall :=
      { command := "ruff format", timeout := 30, env := [("PATH", "/bin"), ("HOOKS_DIR", ".hooks")] }
    ∃ h : List (Answered shellSignature Exn), h.map (·.call) = [call, call] ∧
      ((∀ a ∈ h, Checked formatDispatcher.runner a.call ∧ ∃ rule ∈ formatDispatcher.rules,
          rule.spec.isSatisfiedBy plainSearch event = true ∧ a.call = formatDispatcher.runner.shellCall rule.action) ∧
        h.length ≤ ((formatDispatcher.rules.filter fun rule => rule.spec.isSatisfiedBy plainSearch event).map
          formatDispatcher.mostRuns).sum) := by
  intro event call
  have hmatch : formatHook.spec.isSatisfiedBy plainSearch event = true := by decide +kernel
  have hvalid : formatDispatcher.runner.validateCommand formatHook.action.val.command = .ok () :=
    validateCommand_eq_ok.mpr (by decide +kernel)
  have hcall : formatDispatcher.runner.shellCall formatHook.action = call := by decide +kernel
  have hattempt : ∀ r : Except Exn CompletedProcess, formatDispatcher.runner.Attempt formatHook.action [⟨call, r⟩]
      (formatDispatcher.runner.outcome formatHook.action r) := fun r => .inr ⟨hvalid, r, by rw [hcall], rfl⟩
  have hrules : formatDispatcher.rules.filter (fun rule => rule.spec.isSatisfiedBy plainSearch event) = [formatHook] := by
    simp [formatDispatcher, hmatch]
  let h : List (Answered shellSignature Exn) := [⟨call, .ok ⟨1, "no such file"⟩⟩, ⟨call, .ok ⟨0, ""⟩⟩]
  obtain ⟨e, hfailed⟩ : ∃ e, formatDispatcher.runner.outcome formatHook.action (.ok ⟨1, "no such file"⟩) = .error e :=
    ⟨_, rfl⟩
  have hsucceeded : formatDispatcher.runner.outcome formatHook.action (.ok ⟨0, ""⟩) = .ok () := rfl
  have hhandles : formatDispatcher.Handles formatHook h (.ok ()) := by
    unfold EventDispatcher.Handles
    rw [show formatHook.action.val.onFailure = .retry from rfl]
    have hfirst := hattempt (.ok ⟨1, "no such file"⟩)
    have hsecond := hattempt (.ok ⟨0, ""⟩)
    rw [hfailed] at hfirst
    rw [hsucceeded] at hsecond
    refine .inr ⟨[[⟨call, .ok ⟨1, "no such file"⟩⟩]], [⟨call, .ok ⟨0, ""⟩⟩], rfl, by decide, ?_, hsecond, ?_⟩
    · intro failed hmem
      rw [List.mem_singleton.mp hmem]
      exact ⟨e, hfirst⟩
    · intro hout
      exact absurd rfl hout
  exact ⟨h, rfl, dispatch_checked (dispatch_single hrules hhandles)⟩

end Example

end Safety

end ForkAgent.Orchestration

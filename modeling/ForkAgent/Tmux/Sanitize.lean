import ForkAgent.Effects.Execution
import ForkAgent.Python.Basic
import ForkAgent.Text.Substitution
import Mathlib.Data.List.DropRight

/-!
# Terminal input

Text that is sent to a terminal loses its escape sequences, its control characters and its line breaks. The
orchestrator and the agents each have a copy of the rules.
-/

namespace ForkAgent.Tmux

open Effects Text

/-- The rewriting of a text with the patterns of a copy. -/
@[irreducible] def rewriteText (ansiEscape controlChars : Rule) (text : String) : String :=
  let text := (controlChars.subn (ansiEscape.subn text.toList).1).1
  let text := ((substitute (.lit ['\r', '\n']) [' '] (by decide)).subn text).1
  let text := ((substitute (.lit ['\n']) [' '] (by decide)).subn text).1
  let text := ((substitute (.lit ['\r']) [' '] (by decide)).subn text).1
  strip (String.ofList text)

namespace Orchestrator

/-- `\x1b\[[0-9;]*[A-Za-z]`. -/
def ansiEscape : Rule :=
  substitute (.seq (.one (· = '\x1b')) (.seq (.one (· = '[')) (.seq
    (.many (fun c => ('0' ≤ c ∧ c ≤ '9') ∨ c = ';') 0)
    (.one fun c => ('A' ≤ c ∧ c ≤ 'Z') ∨ ('a' ≤ c ∧ c ≤ 'z'))))) [] (by decide)

/-- `[\x00-\x08\x0b-\x1f\x7f]`. -/
def controlChars : Rule :=
  substitute (.one fun c => c.toNat ≤ 0x08 ∨ (0x0b ≤ c.toNat ∧ c.toNat ≤ 0x1f) ∨ c.toNat = 0x7f) [] (by decide)

/-- `_sanitize_tmux_text`. -/
def sanitizeTmuxText (text : String) : Except Exn String :=
  let text := rewriteText ansiEscape controlChars text
  if text = "" then .error (.valueError "sanitized tmux text is empty") else .ok text

end Orchestrator

namespace TmuxAgent

/-- `\x1b\[[0-9;]*[A-Za-z]`. -/
def ansiEscape : Rule :=
  substitute (.seq (.one (· = '\x1b')) (.seq (.one (· = '[')) (.seq
    (.many (fun c => ('0' ≤ c ∧ c ≤ '9') ∨ c = ';') 0)
    (.one fun c => ('A' ≤ c ∧ c ≤ 'Z') ∨ ('a' ≤ c ∧ c ≤ 'z'))))) [] (by decide)

/-- `[\x00-\x08\x0b-\x1f\x7f]`. -/
def controlChars : Rule :=
  substitute (.one fun c => c.toNat ≤ 0x08 ∨ (0x0b ≤ c.toNat ∧ c.toNat ≤ 0x1f) ∨ c.toNat = 0x7f) [] (by decide)

/-- `subprocess.run`, with the exit code it returns. -/
inductive ProcessCall where
  | run (args : List String)

def ProcessCall.Value : ProcessCall → Type
  | .run _ => Int

def processSignature : Signature := ⟨ProcessCall, ProcessCall.Value⟩

abbrev ProcessProgram := Program processSignature Exn

def subprocessRun (args : List String) : ProcessProgram Int := .perform (σ := processSignature) (.run args)

/-- The commands that are run, each of which may return any exit code or fail. -/
def running : Semantics processSignature Exn (List (List String))
  | ⟨.run args, _⟩, commands, commands' => commands' = commands ++ [args]

/-- What an agent of a session does with a message. -/
def sendInput (tmuxSession message : String) : ProcessProgram Bool :=
  Program.handle
    (do
      let sanitized := rewriteText ansiEscape controlChars message
      if sanitized = "" then return false
      let returncode ← subprocessRun ["tmux", "send-keys", "-t", tmuxSession, sanitized, "Enter"]
      return returncode == 0)
    fun _ => return false

end TmuxAgent

section Rewritten

open Orchestrator

variable {text : String} {cs : List Char}

/-- A character that may be sent: a tab, or no control character. -/
def Inert (c : Char) : Prop := (c.toNat < 32 → c = '\t') ∧ c.toNat ≠ 127

theorem eq_newline {c : Char} : c = '\n' ↔ c.toNat = 10 := Char.toNat_inj.symm

theorem eq_tab {c : Char} : c = '\t' ↔ c.toNat = 9 := Char.toNat_inj.symm

theorem controlChars_subn (cs : List Char) : (controlChars.subn cs).1 = cs.filter fun c =>
    ¬ (c.toNat ≤ 0x08 ∨ (0x0b ≤ c.toNat ∧ c.toNat ≤ 0x1f) ∨ c.toNat = 0x7f) := by
  rw [controlChars, substitute_each fun c s => rfl]
  induction cs with
  | nil => rfl
  | cons c cs ih =>
    rw [List.flatMap_cons, ih, List.filter_cons]
    by_cases hc : c.toNat ≤ 0x08 ∨ (0x0b ≤ c.toNat ∧ c.toNat ≤ 0x1f) ∨ c.toNat = 0x7f
    · simp [hc]
    · simp [hc]

theorem newlines_subn (h : '\r' ∉ cs) :
    ((substitute (.lit ['\r']) [' '] (by decide)).subn
      ((substitute (.lit ['\n']) [' '] (by decide)).subn
        ((substitute (.lit ['\r', '\n']) [' '] (by decide)).subn cs).1).1).1 =
      cs.flatMap fun c => if c = '\n' then [' '] else [c] := by
  have hpairs : ((substitute (.lit ['\r', '\n']) [' '] (by decide)).subn cs).1 = cs :=
    substitute_of_not_mem (fun d s hd => ways_lit_of_ne hd) h
  have hfeeds : ((substitute (.lit ['\n']) [' '] (by decide)).subn cs).1 =
      cs.flatMap fun c => if c = '\n' then [' '] else [c] := by
    rw [substitute_each fun c s => ways_lit_single]
    simp only [decide_eq_true_eq]
  rw [hpairs, hfeeds]
  apply substitute_of_not_mem (c := '\r') (fun d s hd => ways_lit_of_ne hd)
  intro hmem
  obtain ⟨c, hc, hin⟩ := List.mem_flatMap.mp hmem
  by_cases hnl : c = '\n'
  · rw [if_pos hnl, List.mem_singleton] at hin
    revert hin
    decide
  · rw [if_neg hnl, List.mem_singleton] at hin
    rw [hin] at h
    exact h hc

/-- The steps after the first, on a text of characters that may be sent or are control characters. -/
theorem rewriteText_eq (text : String) : rewriteText ansiEscape controlChars text =
    strip (String.ofList ((controlChars.subn (ansiEscape.subn text.toList).1).1.flatMap
      fun c => if c = '\n' then [' '] else [c])) := by
  have hreturn : '\r' ∉ (controlChars.subn (ansiEscape.subn text.toList).1).1 := by
    rw [controlChars_subn, List.mem_filter]
    intro h
    revert h
    simp
  rw [rewriteText, newlines_subn hreturn]

theorem mem_of_mem_strip {c : Char} {s : String} (h : c ∈ (strip s).toList) : c ∈ s.toList := by
  rw [strip, String.toList_ofList, List.mem_reverse] at h
  have hfront := (List.dropWhile_suffix isSpace).subset h
  rw [List.mem_reverse] at hfront
  exact (List.dropWhile_suffix isSpace).subset hfront

theorem strip_strip (s : String) : strip (strip s) = strip s := by
  have hlist : (strip s).toList = (s.toList.dropWhile isSpace).rdropWhile isSpace := by
    simp [strip, List.rdropWhile]
  have hfront : (strip s).toList.dropWhile isSpace = (strip s).toList := by
    cases hs : (strip s).toList with
    | nil => rfl
    | cons c cs =>
      have hstarts : c :: cs <+: s.toList.dropWhile isSpace := by
        rw [← hs, hlist]
        exact List.rdropWhile_prefix _ _
      obtain ⟨rest, hrest⟩ := hstarts
      have hc := List.head?_dropWhile_not isSpace s.toList
      rw [← hrest] at hc
      rw [List.dropWhile_cons_of_neg]
      simpa using hc
  have hback : (strip s).toList.rdropWhile isSpace = (strip s).toList := by
    rw [hlist]
    exact List.rdropWhile_idempotent isSpace _
  apply String.toList_injective
  rw [strip, hfront, String.toList_ofList]
  exact hback

theorem inert_of_rewritten {c : Char} (h : c ∈ (rewriteText ansiEscape controlChars text).toList) : Inert c := by
  rw [rewriteText_eq] at h
  have hmem := mem_of_mem_strip h
  rw [String.toList_ofList] at hmem
  obtain ⟨d, hd, hin⟩ := List.mem_flatMap.mp hmem
  rw [controlChars_subn, List.mem_filter] at hd
  by_cases hnl : d = '\n'
  · rw [if_pos hnl, List.mem_singleton] at hin
    rw [hin]
    exact ⟨by decide, by decide⟩
  · rw [if_neg hnl, List.mem_singleton] at hin
    have hnot := of_decide_eq_true hd.2
    rw [eq_newline] at hnl
    rw [hin, Inert, eq_tab]
    omega

/-- A text that may be sent is only stripped. -/
theorem rewriteText_of_inert (h : ∀ c ∈ text.toList, Inert c) :
    rewriteText ansiEscape controlChars text = strip text := by
  have hescape : (ansiEscape.subn text.toList).1 = text.toList := by
    apply substitute_of_not_mem (c := '\x1b')
    · intro d s hd
      simp [hd]
    · intro hmem
      have hinert := (h _ hmem).1 (by decide)
      revert hinert
      decide
  have hcontrol : (controlChars.subn text.toList).1 = text.toList := by
    rw [controlChars_subn, List.filter_eq_self]
    intro c hc
    have hinert := h c hc
    rw [Inert, eq_tab] at hinert
    rw [decide_eq_true_eq]
    omega
  have hfeeds : (text.toList.flatMap fun c => if c = '\n' then [' '] else [c]) = text.toList := by
    rw [List.flatMap_congr (g := fun c => [c]), List.flatMap_singleton']
    intro c hc
    have hinert := h c hc
    rw [Inert, eq_tab] at hinert
    have hnl : c ≠ '\n' := by
      rw [ne_eq, eq_newline]
      omega
    rw [if_neg hnl]
  rw [rewriteText_eq, hescape, hcontrol, hfeeds, String.ofList_toList]

theorem rewriteText_rewritten (text : String) :
    rewriteText ansiEscape controlChars (rewriteText ansiEscape controlChars text) =
      rewriteText ansiEscape controlChars text := by
  rw [rewriteText_of_inert fun c hc => inert_of_rewritten hc, rewriteText_eq, strip_strip]

end Rewritten

section Sent

open TmuxAgent

variable {tmuxSession message : String} {commands : List (List String)} {out : Except Exn Bool}

theorem sendInput_runs (h : (sendInput tmuxSession message).Runs running [] out commands) :
    (∃ sent, out = .ok sent) ∧ commands =
      if rewriteText ansiEscape controlChars message = "" then []
      else [["tmux", "send-keys", "-t", tmuxSession, rewriteText ansiEscape controlChars message, "Enter"]] := by
  unfold sendInput at h
  generalize rewriteText ansiEscape controlChars message = sanitized at h ⊢
  by_cases hempty : sanitized = ""
  · rw [if_pos hempty]
    simp only [if_pos hempty] at h
    exact ⟨⟨false, h.1⟩, h.2⟩
  · rw [if_neg hempty]
    simp only [if_neg hempty] at h
    obtain ⟨r, commands', hrun, hrest⟩ := h
    cases r with
    | ok returncode => exact ⟨⟨_, hrest.1⟩, hrest.2.trans hrun⟩
    | error e => exact ⟨⟨_, hrest.1⟩, hrest.2.trans hrun⟩

theorem sanitizeTmuxText_eq (text : String) : Orchestrator.sanitizeTmuxText text =
    if rewriteText Orchestrator.ansiEscape Orchestrator.controlChars text = "" then
      .error (.valueError "sanitized tmux text is empty")
    else .ok (rewriteText Orchestrator.ansiEscape Orchestrator.controlChars text) := by
  unfold Orchestrator.sanitizeTmuxText
  rfl

/-- Where sanitising raises an agent sends nothing; else the text is not empty and may be sent, sanitising leaves
it as it is, and it is what an agent sends. -/
theorem sanitizeTmuxText_inert (tmuxSession message : String) :
    ((∃ e, Orchestrator.sanitizeTmuxText message = .error e) ∧
      ∀ out commands, (sendInput tmuxSession message).Runs running [] out commands → commands = []) ∨
    ∃ text, Orchestrator.sanitizeTmuxText message = .ok text ∧ text ≠ "" ∧ (∀ c ∈ text.toList, Inert c) ∧
      Orchestrator.sanitizeTmuxText text = .ok text ∧
      ∀ out commands, (sendInput tmuxSession message).Runs running [] out commands →
        commands = [["tmux", "send-keys", "-t", tmuxSession, text, "Enter"]] := by
  have hansi : TmuxAgent.ansiEscape = Orchestrator.ansiEscape := rfl
  have hcontrol : TmuxAgent.controlChars = Orchestrator.controlChars := rfl
  by_cases hempty : rewriteText Orchestrator.ansiEscape Orchestrator.controlChars message = ""
  · left
    refine ⟨⟨.valueError "sanitized tmux text is empty", ?_⟩, ?_⟩
    · rw [sanitizeTmuxText_eq, if_pos hempty]
    · intro out commands h
      have hsent := (sendInput_runs h).2
      rwa [hansi, hcontrol, if_pos hempty] at hsent
  · right
    refine ⟨rewriteText Orchestrator.ansiEscape Orchestrator.controlChars message, ?_, hempty, ?_, ?_, ?_⟩
    · rw [sanitizeTmuxText_eq, if_neg hempty]
    · intro c hc
      exact inert_of_rewritten hc
    · rw [sanitizeTmuxText_eq, rewriteText_rewritten, if_neg hempty]
    · intro out commands h
      have hsent := (sendInput_runs h).2
      rwa [hansi, hcontrol, if_neg hempty] at hsent

end Sent

end ForkAgent.Tmux

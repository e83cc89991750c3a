import ForkAgent.Python.Basic
import Mathlib.Data.List.Basic

/-!
# Lines

The lines of a text as `str.splitlines` finds them, which breaks a text at more than newlines.
-/

namespace ForkAgent

section Lines

/-- A character at which `str.splitlines` breaks a line. -/
def isLineBreak (c : Char) : Bool :=
  let n := c.toNat
  (0x0a ≤ n && n ≤ 0x0d) || (0x1c ≤ n && n ≤ 0x1e) || n == 0x85 || n == 0x2028 || n == 0x2029

/-- The lines of the text after what has been read of its first line. -/
def splitlinesFrom (line : List Char) : List Char → List (List Char)
  | [] => if line.isEmpty then [] else [line]
  | '\r' :: '\n' :: rest => line :: splitlinesFrom [] rest
  | c :: rest => if isLineBreak c then line :: splitlinesFrom [] rest else splitlinesFrom (line ++ [c]) rest

/-- `text.splitlines()`. -/
def splitlines (text : List Char) : List (List Char) := splitlinesFrom [] text

/-- The text in which each of the lines ends with a newline. -/
def unlines (lines : List (List Char)) : List Char := lines.flatMap (· ++ ['\n'])

/-- Nothing breaks the line. -/
def Unbroken (line : List Char) : Prop := ∀ c ∈ line, isLineBreak c = false

instance (line : List Char) : Decidable (Unbroken line) := List.decidableBAll (fun c => isLineBreak c = false) line

variable {line : List Char} {lines : List (List Char)}

theorem isLineBreak_newline : isLineBreak '\n' = true := by decide

theorem splitlinesFrom_cons {c : Char} (hc : isLineBreak c = false) (line rest : List Char) :
    splitlinesFrom line (c :: rest) = splitlinesFrom (line ++ [c]) rest := by
  have hne : c ≠ '\r' := by
    rintro rfl
    revert hc
    decide
  rw [splitlinesFrom]
  · rw [if_neg (by simp [hc])]
  · intro rest' hcr
    exact absurd hcr hne

theorem splitlinesFrom_newline (line rest : List Char) :
    splitlinesFrom line ('\n' :: rest) = line :: splitlinesFrom [] rest := by
  rw [splitlinesFrom]
  · rw [if_pos isLineBreak_newline]
  · intro rest' hcr
    exact absurd hcr (by decide)

theorem splitlinesFrom_append (h : Unbroken line) (before rest : List Char) :
    splitlinesFrom before (line ++ '\n' :: rest) = (before ++ line) :: splitlinesFrom [] rest := by
  induction line generalizing before with
  | nil => rw [List.nil_append, splitlinesFrom_newline, List.append_nil]
  | cons c line ih =>
    rw [List.cons_append, splitlinesFrom_cons (h c List.mem_cons_self),
      ih fun d hd => h d (List.mem_cons_of_mem c hd)]
    simp

theorem splitlines_unlines (h : ∀ line ∈ lines, Unbroken line) : splitlines (unlines lines) = lines := by
  induction lines with
  | nil => rfl
  | cons line lines ih =>
    have hrest := ih fun other hother => h other (List.mem_cons_of_mem line hother)
    rw [splitlines, unlines, List.flatMap_cons, List.append_assoc, List.singleton_append,
      splitlinesFrom_append (h line List.mem_cons_self)]
    exact congrArg (line :: ·) hrest

/-- Every line that is found is unbroken. -/
theorem unbroken_of_mem_splitlinesFrom (before text : List Char) (h : Unbroken before) :
    ∀ line ∈ splitlinesFrom before text, Unbroken line := by
  induction before, text using splitlinesFrom.induct with
  | case1 before hempty =>
    rw [splitlinesFrom, if_pos hempty]
    exact List.forall_mem_nil _
  | case2 before hempty =>
    rw [splitlinesFrom, if_neg hempty]
    simpa using h
  | case3 before rest ih =>
    rw [splitlinesFrom]
    exact List.forall_mem_cons.mpr ⟨h, ih (List.forall_mem_nil _)⟩
  | case4 before c rest hne hbreak ih =>
    rw [splitlinesFrom, if_pos hbreak]
    swap
    · exact hne
    exact List.forall_mem_cons.mpr ⟨h, ih (List.forall_mem_nil _)⟩
  | case5 before c rest hne hbreak ih =>
    rw [splitlinesFrom, if_neg hbreak]
    swap
    · exact hne
    apply ih
    intro d hd
    rcases List.mem_append.mp hd with hd | hd
    · exact h d hd
    · rw [List.mem_singleton.mp hd]
      simpa using hbreak

theorem unbroken_of_mem_splitlines {text : List Char} (h : line ∈ splitlines text) : Unbroken line :=
  unbroken_of_mem_splitlinesFrom [] text (List.forall_mem_nil _) line h

end Lines

end ForkAgent

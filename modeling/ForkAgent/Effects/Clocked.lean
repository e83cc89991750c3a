import Mathlib.Algebra.Order.Field.Rat
import Mathlib.Data.List.Infix

/-!
# Machines that read a clock

An operation of such a machine reads the clock once and is done in one step. In a history the clock never
goes back; every operation is recorded with the reading, its answer and the states around it.
-/

namespace Effects

/-- A machine with a state, and what each of its operations answers. -/
structure Machine (S : Type) where
  Op : Type
  Value : Op → Type
  step : ℚ → (o : Op) → S → Value o × S

variable {S : Type}

/-- An operation that was done. -/
structure Machine.Done (m : Machine S) where
  time : ℚ
  op : m.Op
  before : S
  value : m.Value op
  after : S

/-- From the first state, the operations of the history lead to the second one. -/
inductive Machine.Histories (m : Machine S) (s : S) : List m.Done → S → Prop where
  | nil : Histories m s [] s
  | snoc {h s₁} (earlier : Histories m s h s₁) (t : ℚ) (o : m.Op) (hclock : ∀ e ∈ h, e.time ≤ t) :
      Histories m s (h ++ [⟨t, o, s₁, (m.step t o s₁).1, (m.step t o s₁).2⟩]) (m.step t o s₁).2

namespace Machine.Histories

variable {m : Machine S} {s s' : S} {h h₁ h₂ : List m.Done} {e : m.Done}

theorem left (hh : m.Histories s (h₁ ++ h₂) s') : ∃ s₁, m.Histories s h₁ s₁ := by
  induction h₂ using List.reverseRecOn generalizing s' with
  | nil =>
    rw [List.append_nil] at hh
    exact ⟨s', hh⟩
  | append_singleton h₂ e ih =>
    rw [← List.append_assoc] at hh
    generalize hall : h₁ ++ h₂ ++ [e] = all at hh
    cases hh with
    | nil => simp at hall
    | snoc earlier t o hclock =>
      have hinit := List.append_inj_left' hall rfl
      rw [← hinit] at earlier
      exact ih earlier

theorem last (hh : m.Histories s (h ++ [e]) s') :
    m.Histories s h e.before ∧ (e.value, e.after) = m.step e.time e.op e.before ∧ s' = e.after ∧
      ∀ d ∈ h, d.time ≤ e.time := by
  generalize hall : h ++ [e] = all at hh
  cases hh with
  | nil => simp at hall
  | snoc earlier t o hclock =>
    have hinit := List.append_inj_left' hall rfl
    have hlast := List.append_inj_right' hall rfl
    simp only [List.cons.injEq, and_true] at hlast
    subst hinit hlast
    exact ⟨earlier, rfl, rfl, hclock⟩

theorem done (hh : m.Histories s (h₁ ++ e :: h₂) s') :
    m.Histories s h₁ e.before ∧ (e.value, e.after) = m.step e.time e.op e.before ∧
      ∀ d ∈ h₁, d.time ≤ e.time := by
  rw [List.append_cons] at hh
  obtain ⟨s₁, hleft⟩ := hh.left
  have hlast := hleft.last
  exact ⟨hlast.1, hlast.2.1, hlast.2.2.2⟩

theorem segment (hh : m.Histories s (h₁ ++ h₂) s') {I : List m.Done → S → Prop}
    (hfirst : ∀ s₁, m.Histories s h₁ s₁ → I [] s₁)
    (hstep : ∀ h e, e ∈ h₂ → (∀ d ∈ h₁ ++ h, d.time ≤ e.time) →
      (e.value, e.after) = m.step e.time e.op e.before → I h e.before → I (h ++ [e]) e.after) : I h₂ s' := by
  induction h₂ using List.reverseRecOn generalizing s' with
  | nil =>
    rw [List.append_nil] at hh
    exact hfirst s' hh
  | append_singleton h₂ e ih =>
    rw [← List.append_assoc] at hh
    obtain ⟨hbefore, hdone, rfl, hclock⟩ := hh.last
    have hinit : I h₂ e.before := by
      apply ih hbefore
      intro h d hd
      exact hstep h d (List.mem_append_left _ hd)
    exact hstep h₂ e (by simp) hclock hdone hinit

theorem invariant (hh : m.Histories s h s') {I : List m.Done → S → Prop} (hs : I [] s)
    (hstep : ∀ h e, (∀ d ∈ h, d.time ≤ e.time) → (e.value, e.after) = m.step e.time e.op e.before →
      I h e.before → I (h ++ [e]) e.after) : I h s' := by
  rw [← List.nil_append h] at hh
  apply hh.segment
  · intro s₁ hnone
    generalize hnil : ([] : List m.Done) = none at hnone
    cases hnone with
    | nil => exact hs
    | snoc earlier t o hclock => simp at hnil
  · intro h e _ hclock hdone
    exact hstep h e hclock hdone

end Machine.Histories

section Play

variable (m : Machine S) (s : S)

/-- The history of operations at given readings of the clock, and the state to which they lead. -/
def Machine.play (calls : List (ℚ × m.Op)) : List m.Done × S :=
  calls.foldl (fun r call => (r.1 ++ [⟨call.1, call.2, r.2, (m.step call.1 call.2 r.2).1,
    (m.step call.1 call.2 r.2).2⟩], (m.step call.1 call.2 r.2).2)) ([], s)

theorem Machine.calls_play (calls : List (ℚ × m.Op)) :
    (m.play s calls).1.map (fun e => (e.time, e.op)) = calls := by
  induction calls using List.reverseRecOn with
  | nil => rfl
  | append_singleton calls call ih =>
    rw [Machine.play, List.foldl_append, List.foldl_cons, List.foldl_nil, List.map_append]
    exact congrArg (· ++ [call]) ih

theorem Machine.call_of_play {calls : List (ℚ × m.Op)} {e : m.Done} (he : e ∈ (m.play s calls).1) :
    (e.time, e.op) ∈ calls := by
  have hmem := List.mem_map_of_mem (f := fun e : m.Done => (e.time, e.op)) he
  rw [m.calls_play] at hmem
  exact hmem

theorem Machine.histories_play {calls : List (ℚ × m.Op)} (hclock : (calls.map (·.1)).Pairwise (· ≤ ·)) :
    m.Histories s (m.play s calls).1 (m.play s calls).2 := by
  induction calls using List.reverseRecOn with
  | nil => exact .nil
  | append_singleton calls call ih =>
    rw [List.map_append, List.pairwise_append] at hclock
    rw [Machine.play, List.foldl_append]
    apply (ih hclock.1).snoc
    intro e he
    exact hclock.2.2 e.time (List.mem_map_of_mem (m.call_of_play s he)) call.1 (by simp)

end Play

end Effects

import ForkAgent.Effects.Serial

/-!
# Sequences of operations

One client runs its operations one after another, each to its end: it returns or it raises. The
trace records every operation with its outcome and with the stores before and after it.
-/

namespace Effects

variable {σ : Signature} {ε S : Type}

/-- An operation run to its end. -/
structure System.Performed (sys : System σ ε S) where
  op : sys.Op
  before : S
  out : Except ε (sys.Result op)
  after : S

/-- From the first store, the operations of the trace lead to the second one. -/
inductive System.Performs (sys : System σ ε S) (s : S) : List sys.Performed → S → Prop where
  | nil : Performs sys s [] s
  | snoc {tr s₁ s₂} (before : Performs sys s tr s₁) (o : sys.Op) {out}
      (runs : (sys.program o).Runs sys.step s₁ out s₂) : Performs sys s (tr ++ [⟨o, s₁, out, s₂⟩]) s₂

namespace System.Performs

variable {sys : System σ ε S} {s s' : S} {tr : List sys.Performed}

theorem invariant (h : sys.Performs s tr s') {I : S → Prop} (hs : I s)
    (hop : ∀ o s out s', I s → (sys.program o).Runs sys.step s out s' → I s') : I s' := by
  induction h with
  | nil => exact hs
  | snoc before o runs ih => exact hop o _ _ _ ih runs

theorem of_mem (h : sys.Performs s tr s') {I : S → Prop} (hs : I s)
    (hop : ∀ o s out s', I s → (sys.program o).Runs sys.step s out s' → I s') {e : sys.Performed}
    (he : e ∈ tr) : I e.before ∧ (sys.program e.op).Runs sys.step e.before e.out e.after := by
  induction h with
  | nil => simp at he
  | snoc before o runs ih =>
    obtain he | he := List.mem_append.mp he
    · exact ih he
    · rw [List.mem_singleton.mp he]
      exact ⟨before.invariant hs hop, runs⟩

end System.Performs

end Effects

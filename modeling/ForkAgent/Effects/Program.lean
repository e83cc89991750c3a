import Mathlib.Data.List.Basic
import Mathlib.Logic.Equiv.Defs

/-!
# Programs of atomic calls

A program is a tree of atomic calls. Each call names an operation of some store and its answer,
a value or an error, selects the rest of the program. Nothing is said here about what a call
does: the same program is run alone in `Effects.Execution` and among others in
`Effects.Interleaving`.
-/

namespace Effects

/-- The atomic calls of a store, with the type of the value each one answers. -/
structure Signature where
  Call : Type
  Value : Call → Type

/-- A program over a signature whose errors have type `ε`. -/
inductive Program (σ : Signature) (ε α : Type) : Type where
  | ret (value : α)
  | fail (error : ε)
  | call (c : σ.Call) (next : Except ε (σ.Value c) → Program σ ε α)

namespace Program

variable {σ τ : Signature} {ε α β γ : Type}

def bind : Program σ ε α → (α → Program σ ε β) → Program σ ε β
  | .ret a, f => f a
  | .fail e, _ => .fail e
  | .call c next, f => .call c fun r => (next r).bind f

instance : Monad (Program σ ε) where
  pure := .ret
  bind := bind

/-- Run a program and hand any error it raises to a handler. -/
def handle : Program σ ε α → (ε → Program σ ε α) → Program σ ε α
  | .ret a, _ => .ret a
  | .fail e, h => h e
  | .call c next, h => .call c fun r => (next r).handle h

instance : MonadExceptOf ε (Program σ ε) where
  throw := .fail
  tryCatch := handle

/-- Issue one call and raise its error. -/
def perform (c : σ.Call) : Program σ ε (σ.Value c) :=
  .call c fun
    | .ok v => .ret v
    | .error e => .fail e

/-- A computation that touches no store. -/
def ofExcept : Except ε α → Program σ ε α
  | .ok a => .ret a
  | .error e => .fail e

@[simp] theorem pure_eq (a : α) : (pure a : Program σ ε α) = .ret a := rfl

@[simp] theorem throw_eq (e : ε) : (throw e : Program σ ε α) = .fail e := rfl

@[simp] theorem tryCatch_eq (p : Program σ ε α) (h : ε → Program σ ε α) :
    tryCatch p h = p.handle h := rfl

@[simp] theorem ret_bind (a : α) (f : α → Program σ ε β) : (.ret a : Program σ ε α) >>= f = f a := rfl

@[simp] theorem fail_bind (e : ε) (f : α → Program σ ε β) :
    (.fail e : Program σ ε α) >>= f = .fail e := rfl

@[simp] theorem call_bind (c : σ.Call) (next : Except ε (σ.Value c) → Program σ ε α)
    (f : α → Program σ ε β) : (.call c next : Program σ ε α) >>= f = .call c fun r => next r >>= f :=
  rfl

@[simp] theorem ofExcept_ok (a : α) : (ofExcept (.ok a) : Program σ ε α) = .ret a := rfl

@[simp] theorem ofExcept_error (e : ε) : (ofExcept (.error e) : Program σ ε α) = .fail e := rfl

@[simp] theorem handle_ret (a : α) (h : ε → Program σ ε α) : handle (.ret a) h = .ret a := rfl

@[simp] theorem handle_fail (e : ε) (h : ε → Program σ ε α) : handle (.fail e) h = h e := rfl

@[simp] theorem handle_call (c : σ.Call) (next : Except ε (σ.Value c) → Program σ ε α)
    (h : ε → Program σ ε α) : handle (.call c next) h = .call c fun r => (next r).handle h := rfl

@[simp] theorem bind_ret (p : Program σ ε α) : p >>= Program.ret = p := by
  induction p with
  | ret a => rfl
  | fail e => rfl
  | call c next ih =>
    simp only [call_bind]
    congr 1
    funext r
    exact ih r

theorem bind_assoc (p : Program σ ε α) (f : α → Program σ ε β) (g : β → Program σ ε γ) :
    p >>= f >>= g = p >>= fun a => f a >>= g := by
  induction p with
  | ret a => rfl
  | fail e => rfl
  | call c next ih =>
    simp only [call_bind]
    congr 1
    funext r
    exact ih r

end Program

/-- An embedding of one signature into another: every call becomes a call with the same answers. -/
structure Embedding (σ τ : Signature) where
  call : σ.Call → τ.Call
  value : (c : σ.Call) → τ.Value (call c) ≃ σ.Value c

/-- The same program, over a larger signature. -/
def Program.lift {σ τ : Signature} {ε α : Type} (i : Embedding σ τ) :
    Program σ ε α → Program τ ε α
  | .ret a => .ret a
  | .fail e => .fail e
  | .call c next => .call (i.call c) fun r => (next (r.map (i.value c))).lift i

section lift

variable {σ τ : Signature} {ε α β : Type} (i : Embedding σ τ)

@[simp] theorem Program.lift_ret (a : α) : (Program.ret a : Program σ ε α).lift i = .ret a := rfl

@[simp] theorem Program.lift_fail (e : ε) : (Program.fail e : Program σ ε α).lift i = .fail e := rfl

@[simp] theorem Program.lift_call (c : σ.Call) (next : Except ε (σ.Value c) → Program σ ε α) :
    (Program.call c next).lift i =
      .call (i.call c) fun r => (next (r.map (i.value c))).lift i := rfl

end lift

/-- The calls of two stores kept side by side. -/
def Signature.sum (σ τ : Signature) : Signature :=
  ⟨σ.Call ⊕ τ.Call, fun c => c.elim σ.Value τ.Value⟩

def Embedding.inl (σ τ : Signature) : Embedding σ (σ.sum τ) := ⟨.inl, fun _ => .refl _⟩

def Embedding.inr (σ τ : Signature) : Embedding τ (σ.sum τ) := ⟨.inr, fun _ => .refl _⟩

end Effects

import ForkAgent.Effects.Interleaving

/-!
# Schedules

A schedule says which caller moves next. Played against a function that serves the calls it gives
one interleaved run, trace and all, by computation.
-/

namespace Effects

variable {σ : Signature} {ε S Ω : Type}

/-- One move of a schedule: a new call, or the next atomic call of a caller, served with what `Ω`
says of the surroundings. -/
inductive System.Move (sys : System σ ε S) (Ω : Type) where
  | invoke (i : Nat) (o : sys.Op)
  | call (i : Nat) (ω : Ω)

section Play

variable {sys : System σ ε S}
variable (respond : Ω → (c : σ.Call) → S → Option (Except ε (σ.Value c) × S))

def System.move (cfg : sys.Config) : sys.Move Ω → Option (List sys.Event × sys.Config)
  | .invoke i o =>
    match cfg.sessions i with
    | some _ => none
    | none => some ([], ⟨cfg.store, Function.update cfg.sessions i (some ⟨o, sys.program o⟩)⟩)
  | .call i ω =>
    match cfg.sessions i with
    | some ⟨o, .call c next⟩ =>
      (respond ω c cfg.store).map fun answer =>
        ([⟨i, o, ⟨c, answer.1⟩, cfg.store, answer.2⟩],
          ⟨answer.2, Function.update cfg.sessions i (some ⟨o, next answer.1⟩)⟩)
    | _ => none

/-- The trace and the end of a schedule; `none` when a move is not possible. -/
def System.play : List (sys.Move Ω) → sys.Config → Option (List sys.Event × sys.Config)
  | [], cfg => some ([], cfg)
  | m :: moves, cfg =>
    (sys.move respond cfg m).bind fun moved =>
      (System.play moves moved.2).map fun rest => (moved.1 ++ rest.1, rest.2)

variable {respond}
variable (hrespond : ∀ ω c s r s', respond ω c s = some (r, s') → sys.step ⟨c, r⟩ s s')
include hrespond

theorem System.Run.move {tr tr' : List sys.Event} {cfg cfg' : sys.Config} (run : sys.Run tr cfg)
    {m : sys.Move Ω} (h : sys.move respond cfg m = some (tr', cfg')) : sys.Run (tr ++ tr') cfg' := by
  obtain ⟨s, ss⟩ := cfg
  cases m with
  | invoke i o =>
    cases hi : ss i with
    | some session => simp [System.move, hi] at h
    | none =>
      simp only [System.move, hi, Option.some.injEq, Prod.mk.injEq] at h
      obtain ⟨rfl, rfl⟩ := h
      simpa using run.invoke i hi o
  | call i ω =>
    cases hi : ss i with
    | none => simp [System.move, hi] at h
    | some session =>
      obtain ⟨o, p⟩ := session
      cases p with
      | ret a => simp [System.move, hi] at h
      | fail e => simp [System.move, hi] at h
      | call c next =>
        simp only [System.move, hi, Option.map_eq_some_iff, Prod.mk.injEq] at h
        obtain ⟨answer, hanswer, rfl, rfl⟩ := h
        exact run.call hi (hrespond ω c s answer.1 answer.2 hanswer)

theorem System.Run.play {tr tr' : List sys.Event} {cfg cfg' : sys.Config} (run : sys.Run tr cfg)
    {moves : List (sys.Move Ω)} (h : sys.play respond moves cfg = some (tr', cfg')) :
    sys.Run (tr ++ tr') cfg' := by
  induction moves generalizing tr tr' cfg with
  | nil =>
    cases h
    simpa using run
  | cons m moves ih =>
    obtain ⟨moved, hmoved, hrest⟩ := Option.bind_eq_some_iff.mp h
    obtain ⟨rest, hplay, heq⟩ := Option.map_eq_some_iff.mp hrest
    cases heq
    have hrun := ih (run.move hrespond hmoved) hplay
    simpa using hrun

end Play

end Effects

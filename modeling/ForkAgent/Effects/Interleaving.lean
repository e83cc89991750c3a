import ForkAgent.Effects.Program
import Mathlib.Logic.Function.Basic
import Mathlib.Data.List.Pairwise

/-!
# Interleaved runs

Any number of callers run programs against one store. A step of a run is one atomic call of one
caller, the start of a new call, or a change of the store made from outside. The trace of a run
records every atomic call with its answer and with the stores before and after it, so that a
property of the order of steps is a property of the trace.

Two rules carry a fact about a single program to every run: what the program ensures of the
answers it has read when it issues a call, and what each step preserves.
-/

namespace Effects

/-- A call together with the answer it got. -/
structure Answered (σ : Signature) (ε : Type) where
  call : σ.Call
  answer : Except ε (σ.Value call)

/-- A call that returned a value. -/
abbrev Answered.ok {σ : Signature} {ε : Type} (c : σ.Call) (v : σ.Value c) : Answered σ ε := ⟨c, .ok v⟩

/-- What an answered call does to a store. -/
abbrev Semantics (σ : Signature) (ε S : Type) := Answered σ ε → S → S → Prop

/-- Two stores side by side: each call acts on its own. -/
def Semantics.sum {σ τ : Signature} {ε S T : Type} (first : Semantics σ ε S)
    (second : Semantics τ ε T) : Semantics (σ.sum τ) ε (S × T)
  | ⟨.inl c, r⟩, s, s' => first ⟨c, r⟩ s.1 s'.1 ∧ s'.2 = s.2
  | ⟨.inr c, r⟩, s, s' => second ⟨c, r⟩ s.2 s'.2 ∧ s'.1 = s.1

/-- An answered call, over a larger signature. -/
def Answered.lift {σ τ : Signature} {ε : Type} (i : Embedding σ τ) (a : Answered σ ε) :
    Answered τ ε := ⟨i.call a.call, a.answer.map (i.value a.call).symm⟩

namespace Program

variable {σ : Signature} {ε α β : Type}

/-- `p.Follows h q`: once the calls of `p` have got the answers `h`, the rest of it is `q`. -/
inductive Follows : Program σ ε α → List (Answered σ ε) → Program σ ε α → Prop where
  | nil (p) : Follows p [] p
  | cons {c next r h q} (rest : Follows (next r) h q) : Follows (.call c next) (⟨c, r⟩ :: h) q

@[simp] theorem follows_nil {p q : Program σ ε α} : p.Follows [] q ↔ q = p := by
  constructor
  · rintro ⟨⟩
    rfl
  · rintro rfl
    exact .nil _

theorem Follows.snoc {p : Program σ ε α} {h c next} (hp : p.Follows h (.call c next))
    (r : Except ε (σ.Value c)) : p.Follows (h ++ [⟨c, r⟩]) (next r) := by
  generalize hq : Program.call c next = q at hp
  induction hp with
  | nil p => subst hq; exact .cons (.nil _)
  | cons rest ih => exact .cons (ih hq)

theorem Follows.perform_bind {c : σ.Call} {f : σ.Value c → Program σ ε α} {h : List (Answered σ ε)}
    {a : Answered σ ε} {q : Program σ ε α} (hf : (perform c >>= f).Follows (h ++ [a]) q)
    (hne : a.call ≠ c) : ∃ v rest, h = .ok c v :: rest ∧ (f v).Follows (rest ++ [a]) q := by
  cases h with
  | nil =>
    rw [List.nil_append] at hf
    cases hf
    exact absurd rfl hne
  | cons b rest =>
    rw [List.cons_append] at hf
    cases hf with
    | @cons _ _ r _ _ hrest =>
      cases r with
      | error e =>
        change (Program.fail e).Follows (rest ++ [a]) q at hrest
        generalize hlast : rest ++ [a] = answers at hrest
        cases hrest
        simp at hlast
      | ok v => exact ⟨v, rest, rfl, hrest⟩

/-- Every call of the program satisfies `Φ`, and every outcome `Ψ`, of the answers read so far. -/
def Ensures (Φ : List (Answered σ ε) → σ.Call → Prop)
    (Ψ : List (Answered σ ε) → Except ε α → Prop) : Program σ ε α → List (Answered σ ε) → Prop
  | .ret a, h => Ψ h (.ok a)
  | .fail e, h => Ψ h (.error e)
  | .call c next, h => Φ h c ∧ ∀ r, Ensures Φ Ψ (next r) (h ++ [⟨c, r⟩])

section Ensures

variable {Φ : List (Answered σ ε) → σ.Call → Prop} {Ψ : List (Answered σ ε) → Except ε α → Prop}
variable {h : List (Answered σ ε)}

@[simp] theorem ensures_ret (a : α) : (Program.ret a).Ensures Φ Ψ h ↔ Ψ h (.ok a) := Iff.rfl

@[simp] theorem ensures_fail (e : ε) :
    (Program.fail e : Program σ ε α).Ensures Φ Ψ h ↔ Ψ h (.error e) := Iff.rfl

@[simp] theorem ensures_call (c : σ.Call) (next : Except ε (σ.Value c) → Program σ ε α) :
    (Program.call c next).Ensures Φ Ψ h ↔ Φ h c ∧ ∀ r, (next r).Ensures Φ Ψ (h ++ [⟨c, r⟩]) :=
  Iff.rfl

/-- Issuing one call and going on: the only case split is whether the call raised. -/
theorem ensures_perform_bind (c : σ.Call) (f : σ.Value c → Program σ ε α) :
    (perform c >>= f).Ensures Φ Ψ h ↔
      Φ h c ∧ (∀ v, (f v).Ensures Φ Ψ (h ++ [⟨c, .ok v⟩])) ∧
        ∀ e, Ψ (h ++ [⟨c, .error e⟩]) (.error e) := by
  constructor
  · rintro ⟨hc, hr⟩
    exact ⟨hc, fun v => hr (.ok v), fun e => hr (.error e)⟩
  · rintro ⟨hc, hv, he⟩
    refine ⟨hc, ?_⟩
    rintro (e | v)
    · exact he e
    · exact hv v

theorem ensures_ofExcept_bind (x : Except ε β) (f : β → Program σ ε α) :
    (ofExcept x >>= f).Ensures Φ Ψ h ↔
      (∀ v, x = .ok v → (f v).Ensures Φ Ψ h) ∧ ∀ e, x = .error e → Ψ h (.error e) := by
  cases x <;> simp

theorem Ensures.mono {Φ' : List (Answered σ ε) → σ.Call → Prop}
    {Ψ' : List (Answered σ ε) → Except ε α → Prop} {p : Program σ ε α}
    (hp : p.Ensures Φ Ψ h) (hΦ : ∀ h c, Φ h c → Φ' h c) (hΨ : ∀ h r, Ψ h r → Ψ' h r) :
    p.Ensures Φ' Ψ' h := by
  induction p generalizing h with
  | ret a => exact hΨ _ _ hp
  | fail e => exact hΨ _ _ hp
  | call c next ih => exact ⟨hΦ _ _ hp.1, fun r => ih r (hp.2 r)⟩

theorem Ensures.extends {p : Program σ ε α} (hp : p.Ensures Φ Ψ h) :
    p.Ensures Φ (fun h' r => Ψ h' r ∧ h <+: h') h := by
  induction p generalizing h with
  | ret a => exact ⟨hp, List.prefix_rfl⟩
  | fail e => exact ⟨hp, List.prefix_rfl⟩
  | call c next ih =>
    refine ⟨hp.1, fun r => (ih r (hp.2 r)).mono (fun _ _ hc => hc) ?_⟩
    intro h' out hout
    exact ⟨hout.1, (List.prefix_append h _).trans hout.2⟩

theorem ensures_true (p : Program σ ε α) (h : List (Answered σ ε)) :
    p.Ensures (fun _ _ => True) (fun _ _ => True) h := by
  induction p generalizing h with
  | ret a => trivial
  | fail e => trivial
  | call c next ih => exact ⟨trivial, fun r => ih r _⟩

theorem Ensures.and {Φ' : List (Answered σ ε) → σ.Call → Prop}
    {Ψ' : List (Answered σ ε) → Except ε α → Prop} {p : Program σ ε α} (hp : p.Ensures Φ Ψ h)
    (hp' : p.Ensures Φ' Ψ' h) :
    p.Ensures (fun h c => Φ h c ∧ Φ' h c) (fun h r => Ψ h r ∧ Ψ' h r) h := by
  induction p generalizing h with
  | ret a => exact ⟨hp, hp'⟩
  | fail e => exact ⟨hp, hp'⟩
  | call c next ih => exact ⟨⟨hp.1, hp'.1⟩, fun r => ih r (hp.2 r) (hp'.2 r)⟩

theorem Ensures.shift {before : List (Answered σ ε)} {p : Program σ ε α}
    (hp : p.Ensures Φ Ψ (before ++ h)) :
    p.Ensures (fun own c => Φ (before ++ own) c) (fun own r => Ψ (before ++ own) r) h := by
  induction p generalizing h with
  | ret a => exact hp
  | fail e => exact hp
  | call c next ih =>
    refine ⟨hp.1, fun r => ih r ?_⟩
    rw [← List.append_assoc]
    exact hp.2 r

theorem Ensures.bind {Ψ' : List (Answered σ ε) → Except ε β → Prop} {p : Program σ ε β}
    {f : β → Program σ ε α} (hp : p.Ensures Φ Ψ' h)
    (hok : ∀ h a, Ψ' h (.ok a) → (f a).Ensures Φ Ψ h)
    (herror : ∀ h e, Ψ' h (.error e) → Ψ h (.error e)) : (p >>= f).Ensures Φ Ψ h := by
  induction p generalizing h with
  | ret a => exact hok _ _ hp
  | fail e => exact herror _ _ hp
  | call c next ih => exact ⟨hp.1, fun r => ih r (hp.2 r)⟩

theorem Ensures.handle {Q : List (Answered σ ε) → Except ε α → Prop} {p : Program σ ε α}
    {handler : ε → Program σ ε α} (hp : p.Ensures Φ Q h)
    (hok : ∀ h a, Q h (.ok a) → Ψ h (.ok a))
    (herror : ∀ h e, Q h (.error e) → (handler e).Ensures Φ Ψ h) :
    (p.handle handler).Ensures Φ Ψ h := by
  induction p generalizing h with
  | ret a => exact hok _ _ hp
  | fail e => exact herror _ _ hp
  | call c next ih => exact ⟨hp.1, fun r => ih r (hp.2 r)⟩

theorem Ensures.lift {τ : Signature} (i : Embedding τ σ) {p : Program τ ε α}
    {k : List (Answered τ ε)}
    (hp : p.Ensures (fun own c => Φ (h ++ own.map (.lift i)) (i.call c))
      (fun own r => Ψ (h ++ own.map (.lift i)) r) k) :
    (p.lift i).Ensures Φ Ψ (h ++ k.map (.lift i)) := by
  induction p generalizing k with
  | ret a => exact hp
  | fail e => exact hp
  | call c next ih =>
    refine ⟨hp.1, fun r => ?_⟩
    have hnext := ih (r.map (i.value c)) (hp.2 (r.map (i.value c)))
    have hanswer : Answered.lift i (⟨c, r.map (i.value c)⟩ : Answered τ ε) = ⟨i.call c, r⟩ := by
      cases r <;> simp [Answered.lift, Except.map]
    simpa [hanswer] using hnext

/-- Every call of the program satisfies `A`, whatever has been answered. -/
def OnlyCalls (A : σ.Call → Prop) : Program σ ε α → Prop
  | .ret _ => True
  | .fail _ => True
  | .call c next => A c ∧ ∀ r, OnlyCalls A (next r)

section OnlyCalls

variable {A : σ.Call → Prop}

@[simp] theorem onlyCalls_ret (a : α) : (Program.ret a : Program σ ε α).OnlyCalls A := trivial

@[simp] theorem onlyCalls_fail (e : ε) : (Program.fail e : Program σ ε α).OnlyCalls A := trivial

theorem OnlyCalls.perform {c : σ.Call} (h : A c) :
    (perform c : Program σ ε (σ.Value c)).OnlyCalls A := by
  refine ⟨h, ?_⟩
  rintro (e | v) <;> trivial

theorem OnlyCalls.ofExcept (x : Except ε α) : (ofExcept x : Program σ ε α).OnlyCalls A := by
  cases x <;> trivial

theorem OnlyCalls.bind {p : Program σ ε β} {f : β → Program σ ε α} (hp : p.OnlyCalls A)
    (hf : ∀ b, (f b).OnlyCalls A) : (p >>= f).OnlyCalls A := by
  induction p with
  | ret b => exact hf b
  | fail e => trivial
  | call c next ih => exact ⟨hp.1, fun r => ih r (hp.2 r)⟩

theorem OnlyCalls.handle {p : Program σ ε α} {handler : ε → Program σ ε α} (hp : p.OnlyCalls A)
    (hh : ∀ e, (handler e).OnlyCalls A) : (p.handle handler).OnlyCalls A := by
  induction p with
  | ret b => trivial
  | fail e => exact hh e
  | call c next ih => exact ⟨hp.1, fun r => ih r (hp.2 r)⟩

theorem OnlyCalls.mono {B : σ.Call → Prop} {p : Program σ ε α} (hp : p.OnlyCalls A)
    (hAB : ∀ c, A c → B c) : p.OnlyCalls B := by
  induction p with
  | ret a => trivial
  | fail e => trivial
  | call c next ih => exact ⟨hAB _ hp.1, fun r => ih r (hp.2 r)⟩

theorem OnlyCalls.lift {τ : Signature} {i : Embedding τ σ} {p : Program τ ε α}
    (hp : p.OnlyCalls fun c => A (i.call c)) : (p.lift i).OnlyCalls A := by
  induction p with
  | ret a => trivial
  | fail e => trivial
  | call c next ih => exact ⟨hp.1, fun r => ih _ (hp.2 _)⟩

theorem onlyCalls_lift {τ : Signature} {i : Embedding τ σ} (p : Program τ ε α) :
    (p.lift i).OnlyCalls fun c => ∃ c', c = i.call c' := by
  induction p with
  | ret a => trivial
  | fail e => trivial
  | call c next ih => exact ⟨⟨c, rfl⟩, fun r => ih _⟩

theorem OnlyCalls.follows {p q : Program σ ε α} (hp : p.OnlyCalls A) (hf : p.Follows h q) :
    ∀ a ∈ h, A a.call := by
  induction hf with
  | nil p => simp
  | cons rest ih => exact List.forall_mem_cons.mpr ⟨hp.1, ih (hp.2 _)⟩

theorem Ensures.onlyCalls {p : Program σ ε α} (hp : p.Ensures (fun _ c => A c) Ψ h) :
    p.OnlyCalls A := by
  induction p generalizing h with
  | ret a => trivial
  | fail e => trivial
  | call c next ih => exact ⟨hp.1, fun r => ih r (hp.2 r)⟩

theorem OnlyCalls.keeps {K : List (Answered σ ε) → Prop} {p : Program σ ε α} (hp : p.OnlyCalls A)
    (hK : ∀ h a, A a.call → K h → K (h ++ [a])) (hΦ : ∀ h c, K h → A c → Φ h c) (hh : K h) :
    p.Ensures Φ (fun h' _ => K h') h := by
  induction p generalizing h with
  | ret a => exact hh
  | fail e => exact hh
  | call c next ih => exact ⟨hΦ _ _ hh hp.1, fun r => ih r (hp.2 r) (hK _ _ hp.1 hh)⟩

theorem OnlyCalls.ensures {p : Program σ ε α} (hp : p.OnlyCalls A) (hΦ : ∀ h c, A c → Φ h c)
    (hΨ : ∀ h r, Ψ h r) : p.Ensures Φ Ψ h := by
  induction p generalizing h with
  | ret a => exact hΨ _ _
  | fail e => exact hΨ _ _
  | call c next ih => exact ⟨hΦ _ _ hp.1, fun r => ih r (hp.2 r)⟩

end OnlyCalls

theorem Follows.ensures {p q : Program σ ε α} {tail} (hf : p.Follows tail q)
    (hp : p.Ensures Φ Ψ h) : q.Ensures Φ Ψ (h ++ tail) := by
  induction hf generalizing h with
  | nil p => simpa using hp
  | @cons c next r tail q rest ih =>
    have := ih (hp.2 r)
    simpa using this

end Ensures

end Program

/-- A family of operations over one store, each with its program, and what may happen to the
store from outside. -/
structure System (σ : Signature) (ε S : Type) where
  Op : Type
  Result : Op → Type
  program : (o : Op) → Program σ ε (Result o)
  step : Semantics σ ε S
  outside : S → S → Prop
  initial : S → Prop

section Run

variable {σ : Signature} {ε S : Type}

namespace System

variable (sys : System σ ε S)

/-- One atomic call of one caller. -/
structure Event where
  caller : Nat
  op : sys.Op
  answered : Answered σ ε
  before : S
  after : S

/-- An operation under way, with the program it still has to run. -/
structure Session where
  op : sys.Op
  rest : Program σ ε (sys.Result op)

/-- The store and the calls made so far. A caller number stands for one call of one operation and
is never used twice, so a client that makes several calls uses several numbers. -/
structure Config where
  store : S
  sessions : Nat → Option sys.Session

/-- The runs of a system, each with its trace. -/
inductive Run : List sys.Event → sys.Config → Prop where
  | initial {s} (h : sys.initial s) : Run [] ⟨s, fun _ => none⟩
  | invoke {tr s ss} (run : Run tr ⟨s, ss⟩) (i : Nat) (fresh : ss i = none) (o : sys.Op) :
      Run tr ⟨s, Function.update ss i (some ⟨o, sys.program o⟩)⟩
  | call {tr s ss} (run : Run tr ⟨s, ss⟩) {i : Nat} {o : sys.Op} {c next}
      (running : ss i = some ⟨o, .call c next⟩) {r s'} (step : sys.step ⟨c, r⟩ s s') :
      Run (tr ++ [⟨i, o, ⟨c, r⟩, s, s'⟩]) ⟨s', Function.update ss i (some ⟨o, next r⟩)⟩
  | outside {tr s ss} (run : Run tr ⟨s, ss⟩) {s'} (h : sys.outside s s') : Run tr ⟨s', ss⟩

end System

namespace System.Run

variable {sys : System σ ε S} {tr : List sys.Event} {cfg : sys.Config}

/-- The events of one caller, in order. -/
def own (i : Nat) (tr : List sys.Event) : List sys.Event := tr.filter (·.caller = i)

/-- The answers one caller has read, in order. -/
def history (i : Nat) (tr : List sys.Event) : List (Answered σ ε) := (own i tr).map (·.answered)

@[simp] theorem own_append (i : Nat) (xs ys : List sys.Event) :
    own i (xs ++ ys) = own i xs ++ own i ys := by simp [own]

theorem own_sublist (i : Nat) (tr : List sys.Event) : (own i tr).Sublist tr :=
  List.filter_sublist

theorem mem_own {i : Nat} {e : sys.Event} : e ∈ own i tr ↔ e ∈ tr ∧ e.caller = i := by
  simp [own]

theorem own_eq_nil (run : sys.Run tr cfg) {i : Nat} (h : cfg.sessions i = none) :
    own i tr = [] := by
  induction run with
  | initial => rfl
  | invoke run j fresh o ih =>
    by_cases hij : i = j
    · subst hij; simp at h
    · exact ih (by simpa [Function.update_of_ne hij] using h)
  | @call tr s ss run j o c next running r s' step ih =>
    by_cases hij : i = j
    · subst hij; simp at h
    · have hprev := ih (by simpa [Function.update_of_ne hij] using h)
      rw [own_append, hprev]
      simp [own, Ne.symm hij]
  | outside run h' ih => exact ih h

theorem caller_ne (run : sys.Run tr cfg) {i : Nat} (h : cfg.sessions i = none) {e : sys.Event}
    (he : e ∈ tr) : e.caller ≠ i := by
  intro heq
  have hown := mem_own.mpr ⟨he, heq⟩
  rw [own_eq_nil run h] at hown
  cases hown

theorem follows (run : sys.Run tr cfg) {i : Nat} {o : sys.Op} {p}
    (h : cfg.sessions i = some ⟨o, p⟩) : (sys.program o).Follows (history i tr) p := by
  induction run generalizing i o p with
  | initial => simp at h
  | invoke run j fresh o' ih =>
    by_cases hij : i = j
    · subst hij
      simp only [Function.update_self, Option.some.injEq] at h
      cases h
      rw [history, own_eq_nil run fresh]
      exact .nil _
    · exact ih (by simpa [Function.update_of_ne hij] using h)
  | @call tr s ss run j o' c next running r s' step ih =>
    by_cases hij : i = j
    · subst hij
      simp only [Function.update_self, Option.some.injEq] at h
      cases h
      have := (ih running).snoc r
      simpa [history, own] using this
    · have hprev := ih (by simpa [Function.update_of_ne hij] using h)
      simpa [history, own, Ne.symm hij] using hprev
  | outside run h' ih => exact ih h

theorem split (run : sys.Run tr cfg) {pre post : List sys.Event} {e : sys.Event}
    (h : tr = pre ++ e :: post) :
    ∃ ss next, sys.Run pre ⟨e.before, ss⟩ ∧
      ss e.caller = some ⟨e.op, .call e.answered.call next⟩ := by
  induction run generalizing post with
  | initial => simp at h
  | invoke run j fresh o ih => exact ih h
  | @call tr s ss run j o c next running r s' step ih =>
    rcases List.eq_nil_or_concat post with rfl | ⟨init, last, rfl⟩
    · have := List.append_inj' h rfl
      obtain ⟨rfl, h2⟩ := this
      cases h2
      exact ⟨ss, next, run, running⟩
    · have heq : tr ++ [(⟨j, o, ⟨c, r⟩, s, s'⟩ : sys.Event)] = (pre ++ e :: init) ++ [last] := by
        simpa using h
      exact ih (List.append_inj' heq rfl).1
  | outside run h' ih => exact ih h

theorem reaches_before (run : sys.Run tr cfg) {e : sys.Event} (he : e ∈ tr) :
    ∃ pre ss, sys.Run pre ⟨e.before, ss⟩ := by
  obtain ⟨pre, post, h⟩ := List.append_of_mem he
  obtain ⟨ss, next, hrun, -⟩ := run.split h
  exact ⟨pre, ss, hrun⟩

theorem session_of_mem (run : sys.Run tr cfg) {e : sys.Event} (he : e ∈ tr) :
    ∃ p, cfg.sessions e.caller = some ⟨e.op, p⟩ := by
  induction run with
  | initial => simp at he
  | invoke run j fresh o ih =>
    obtain ⟨p, hp⟩ := ih he
    have hne : e.caller ≠ j := by
      intro heq
      subst heq
      simp [fresh] at hp
    exact ⟨p, by simpa [Function.update_of_ne hne] using hp⟩
  | @call tr s ss run j o c next running r s' step ih =>
    rcases List.mem_append.mp he with he | he
    · obtain ⟨p, hp⟩ := ih he
      by_cases hij : e.caller = j
      · subst hij
        have hop : o = e.op := by
          simp only [running, Option.some.injEq] at hp
          exact congrArg (·.op) hp
        subst hop
        exact ⟨next r, by simp⟩
      · exact ⟨p, by simpa [Function.update_of_ne hij] using hp⟩
    · rw [List.mem_singleton.mp he]
      exact ⟨next r, by simp⟩
  | outside run h ih => exact ih he

theorem op_eq (run : sys.Run tr cfg) {d e : sys.Event} (hd : d ∈ tr) (he : e ∈ tr)
    (h : d.caller = e.caller) : d.op = e.op := by
  obtain ⟨p, hp⟩ := run.session_of_mem hd
  obtain ⟨q, hq⟩ := run.session_of_mem he
  rw [h, hq, Option.some.injEq] at hp
  exact (congrArg (·.op) hp).symm

theorem events_of_history {i : Nat} {answers : List (Answered σ ε)}
    (h : answers.Sublist (history i tr)) :
    ∃ es : List sys.Event, es.Sublist tr ∧ (∀ e ∈ es, e.caller = i) ∧
      es.map (·.answered) = answers := by
  obtain ⟨es, hes, rfl⟩ := List.sublist_map_iff.mp h
  refine ⟨es, hes.trans (own_sublist i tr), ?_, rfl⟩
  intro e he
  exact (mem_own.mp (hes.subset he)).2

/-- An answer that a caller has read is that of an event, with the answers before and after it. -/
theorem split_history {i : Nat} {a : Answered σ ε} {before after : List (Answered σ ε)}
    (h : history i tr = before ++ a :: after) :
    ∃ pre e post, tr = pre ++ e :: post ∧ e.caller = i ∧ e.answered = a ∧ history i pre = before ∧
      history i post = after := by
  obtain ⟨first, rest, hown, hfirst, hrest⟩ := List.map_eq_append_iff.mp h
  obtain ⟨e, last, rfl, rfl, hlast⟩ := List.map_eq_cons_iff.mp hrest
  obtain ⟨pre, rest', rfl, hpre, hrest'⟩ := List.filter_eq_append_iff.mp hown
  obtain ⟨skipped, post, rfl, hskipped, hcaller, hpost⟩ := List.filter_eq_cons_iff.mp hrest'
  refine ⟨pre ++ skipped, e, post, by simp, by simpa using hcaller, rfl, ?_, ?_⟩
  · have hnone : own i skipped = [] := List.filter_eq_nil_iff.mpr hskipped
    rw [history, own_append, hnone, List.append_nil, own, hpre]
    exact hfirst
  · rw [history, own, hpost]
    exact hlast

theorem step_of_mem (run : sys.Run tr cfg) {e : sys.Event} (he : e ∈ tr) :
    sys.step e.answered e.before e.after := by
  induction run with
  | initial => simp at he
  | invoke run j fresh o ih => exact ih he
  | @call tr s ss run j o c next running r s' step ih =>
    rcases List.mem_append.mp he with he | he
    · exact ih he
    · rw [List.mem_singleton.mp he]
      exact step
  | outside run h' ih => exact ih he

theorem reaches_after (run : sys.Run tr cfg) {pre post : List sys.Event} {e : sys.Event}
    (h : tr = pre ++ e :: post) : ∃ ss, sys.Run (pre ++ [e]) ⟨e.after, ss⟩ := by
  have hstep := run.step_of_mem (e := e) (by simp [h])
  obtain ⟨ss, next, hrun, hs⟩ := run.split h
  exact ⟨_, hrun.call hs hstep⟩

/-- The call rule: what a program ensures of the answers read before each of its calls holds of
every event in every run. -/
theorem ensures_event (run : sys.Run tr cfg) {pre post : List sys.Event} {e : sys.Event}
    (h : tr = pre ++ e :: post) {Φ Ψ} (hp : (sys.program e.op).Ensures Φ Ψ []) :
    Φ (history e.caller pre) e.answered.call := by
  obtain ⟨ss, next, hrun, hs⟩ := run.split h
  have := (hrun.follows hs).ensures hp
  simpa using this.1

/-- The outcome rule: what a program ensures of its outcomes holds of every finished session. -/
theorem ensures_outcome (run : sys.Run tr cfg) {i : Nat} {o : sys.Op} {v}
    (h : cfg.sessions i = some ⟨o, .ret v⟩) {Φ Ψ} (hp : (sys.program o).Ensures Φ Ψ []) :
    Ψ (history i tr) (.ok v) := by
  have := (run.follows h).ensures hp
  simpa using this

theorem onlyCalls (run : sys.Run tr cfg) {A : σ.Call → Prop}
    (hprogram : ∀ o, (sys.program o).OnlyCalls A) {e : sys.Event} (he : e ∈ tr) :
    A e.answered.call := by
  obtain ⟨pre, post, htr⟩ := List.append_of_mem he
  have hensures : (sys.program e.op).Ensures (fun _ c => A c) (fun _ _ => True) [] :=
    (hprogram e.op).ensures (fun _ _ hc => hc) fun _ _ => trivial
  exact run.ensures_event htr hensures

theorem invariant (run : sys.Run tr cfg) {I : S → Prop} (hinit : ∀ s, sys.initial s → I s)
    (hevent : ∀ e ∈ tr, I e.before → I e.after)
    (houtside : ∀ s s', I s → sys.outside s s' → I s') : I cfg.store := by
  induction run with
  | initial h => exact hinit _ h
  | invoke run j fresh o ih => exact ih hevent
  | call run running step ih =>
    have hlast := hevent _ (List.mem_append_right _ (List.mem_singleton_self _))
    exact hlast (ih fun e he => hevent e (List.mem_append_left _ he))
  | outside run h ih => exact houtside _ _ (ih hevent) h

/-- The invariant rule for operations that write what they have read: the invariant held of every
store that was read. -/
theorem invariant_reads (run : sys.Run tr cfg) {I : S → Prop} (hinit : ∀ s, sys.initial s → I s)
    (hevent : ∀ pre e post, tr = pre ++ e :: post → (∀ d ∈ pre, I d.before) → I e.before → I e.after)
    (houtside : ∀ s s', I s → sys.outside s s' → I s') :
    (∀ e ∈ tr, I e.before) ∧ I cfg.store := by
  induction run with
  | initial h => exact ⟨by simp, hinit _ h⟩
  | invoke run j fresh o ih => exact ih hevent
  | @call tr s ss run j o c next running r s' step ih =>
    obtain ⟨hreads, hs⟩ := ih fun pre e post h =>
      hevent pre e (post ++ [_]) (by rw [h, List.append_assoc, List.cons_append])
    refine ⟨?_, hevent tr _ [] rfl hreads hs⟩
    intro e he
    rcases List.mem_append.mp he with he | he
    · exact hreads e he
    · rw [List.mem_singleton.mp he]
      exact hs
  | outside run h ih =>
    obtain ⟨hreads, hs⟩ := ih hevent
    exact ⟨hreads, houtside _ _ hs h⟩

/-- The growth rule: a reflexive and transitive relation that every event respects relates the
store after an event to every later store. -/
theorem grows (run : sys.Run tr cfg) {R : S → S → Prop} (hrefl : ∀ s, R s s)
    (htrans : ∀ a b c, R a b → R b c → R a c) (hevent : ∀ e ∈ tr, R e.before e.after)
    (houtside : ∀ s s', sys.outside s s' → R s s') :
    tr.Pairwise (fun d e => R d.after e.before) ∧ ∀ e ∈ tr, R e.after cfg.store := by
  induction run with
  | initial => simp
  | invoke run j fresh o ih => exact ih hevent
  | @call tr s ss run j o c next running r s' step ih =>
    have hprev := ih fun e he => hevent e (List.mem_append_left _ he)
    have hlast := hevent _ (List.mem_append_right _ (List.mem_singleton_self _))
    refine ⟨?_, ?_⟩
    · rw [List.pairwise_append]
      refine ⟨hprev.1, by simp, ?_⟩
      intro d hd e he
      rw [List.mem_singleton.mp he]
      exact hprev.2 d hd
    · intro e he
      rcases List.mem_append.mp he with he | he
      · exact htrans _ _ _ (hprev.2 e he) hlast
      · rw [List.mem_singleton.mp he]
        exact hrefl _
  | outside run h ih =>
    have hprev := ih hevent
    exact ⟨hprev.1, fun e he => htrans _ _ _ (hprev.2 e he) (houtside _ _ h)⟩

theorem undone (run : sys.Run tr cfg) {P : S → Prop}
    (houtside : ∀ s s', sys.outside s s' → P s → P s') {pre mid : List sys.Event} {d : sys.Event}
    (h : tr = pre ++ d :: mid) (hd : P d.after) (hend : ¬ P cfg.store) :
    ∃ e ∈ mid, P e.before ∧ ¬ P e.after := by
  induction run generalizing mid with
  | initial => simp at h
  | invoke run j fresh o ih => exact ih h hend
  | @call tr s ss run j o c next running r s' step ih =>
    rcases List.eq_nil_or_concat mid with rfl | ⟨init, last, rfl⟩
    · cases (List.append_inj' h rfl).2
      exact absurd hd hend
    · have heq : tr ++ [(⟨j, o, ⟨c, r⟩, s, s'⟩ : sys.Event)] = (pre ++ d :: init) ++ [last] := by
        simpa using h
      obtain ⟨hinit, hlast⟩ := List.append_inj' heq rfl
      by_cases hs : P s
      · refine ⟨last, by simp, ?_⟩
        rw [← List.singleton_inj.mp hlast]
        exact ⟨hs, hend⟩
      · obtain ⟨e, he, hundone⟩ := ih hinit hs
        exact ⟨e, by simp [he], hundone⟩
  | outside run hout ih => exact ih h fun hs => hend (houtside _ _ hout hs)

theorem undone_between (run : sys.Run tr cfg) {P : S → Prop}
    (houtside : ∀ s s', sys.outside s s' → P s → P s') {pre mid post : List sys.Event}
    {d e : sys.Event} (h : tr = pre ++ d :: (mid ++ e :: post)) (hd : P d.after)
    (he : ¬ P e.before) : ∃ x ∈ mid, P x.before ∧ ¬ P x.after := by
  have hsplit : tr = (pre ++ d :: mid) ++ e :: post := by simpa using h
  obtain ⟨ss, next, hrun, -⟩ := run.split hsplit
  exact hrun.undone houtside rfl hd he

/-- The origin rule: what holds of a store, not at the start and never brought about from
outside, was brought about by some event. -/
theorem origin (run : sys.Run tr cfg) {P : S → Prop} (hinit : ∀ s, sys.initial s → ¬ P s)
    (houtside : ∀ s s', sys.outside s s' → P s' → P s) (h : P cfg.store) :
    ∃ pre e post, tr = pre ++ e :: post ∧ ¬ P e.before ∧ P e.after := by
  induction run with
  | initial hs => exact absurd h (hinit _ hs)
  | invoke run j fresh o ih => exact ih h
  | @call tr s ss run j o c next running r s' step ih =>
    by_cases hs : P s
    · obtain ⟨pre, e, post, rfl, hb, ha⟩ := ih hs
      exact ⟨pre, e, post ++ [⟨j, o, ⟨c, r⟩, s, s'⟩], by simp, hb, ha⟩
    · exact ⟨tr, ⟨j, o, ⟨c, r⟩, s, s'⟩, [], rfl, hs, h⟩
  | outside run hout ih => exact ih (houtside _ _ hout h)

end System.Run

end Run

end Effects

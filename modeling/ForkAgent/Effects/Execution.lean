import ForkAgent.Effects.Interleaving

/-!
# Sequential runs

A program run alone against a store: its calls are served one after another and nobody else
touches the store in between.
-/

namespace Effects

namespace Program

variable {σ : Signature} {ε α β S : Type} {sem : Semantics σ ε S}

/-- Run to its end from the first store, the program has the given outcome and leaves the
second store. -/
def Runs (sem : Semantics σ ε S) : Program σ ε α → S → Except ε α → S → Prop
  | .ret a, s, out, s' => out = .ok a ∧ s' = s
  | .fail e, s, out, s' => out = .error e ∧ s' = s
  | .call c next, s, out, s' => ∃ r s₁, sem ⟨c, r⟩ s s₁ ∧ Runs sem (next r) s₁ out s'

variable {s s' : S} {out : Except ε α}

@[simp] theorem runs_ret (a : α) :
    (Program.ret a : Program σ ε α).Runs sem s out s' ↔ out = .ok a ∧ s' = s := Iff.rfl

@[simp] theorem runs_fail (e : ε) :
    (Program.fail e : Program σ ε α).Runs sem s out s' ↔ out = .error e ∧ s' = s := Iff.rfl

@[simp] theorem runs_call (c : σ.Call) (next : Except ε (σ.Value c) → Program σ ε α) :
    (Program.call c next).Runs sem s out s' ↔
      ∃ r s₁, sem ⟨c, r⟩ s s₁ ∧ (next r).Runs sem s₁ out s' := Iff.rfl

theorem runs_perform {c : σ.Call} {out : Except ε (σ.Value c)} :
    (perform c : Program σ ε (σ.Value c)).Runs sem s out s' ↔ sem ⟨c, out⟩ s s' := by
  constructor
  · rintro ⟨e | v, s₁, hstep, rfl, rfl⟩
    · exact hstep
    · exact hstep
  · intro hstep
    rcases out with e | v
    · exact ⟨_, _, hstep, rfl, rfl⟩
    · exact ⟨_, _, hstep, rfl, rfl⟩

theorem runs_ofExcept {x : Except ε α} :
    (ofExcept x : Program σ ε α).Runs sem s out s' ↔ out = x ∧ s' = s := by
  cases x <;> exact Iff.rfl

theorem runs_bind {p : Program σ ε β} {f : β → Program σ ε α} :
    (p >>= f).Runs sem s out s' ↔
      (∃ e, p.Runs sem s (.error e) s' ∧ out = .error e) ∨
        ∃ b s₁, p.Runs sem s (.ok b) s₁ ∧ (f b).Runs sem s₁ out s' := by
  induction p generalizing s with
  | ret b => simp [Runs]
  | fail e => simp [Runs, and_comm]
  | call c next ih =>
    simp only [call_bind, runs_call, ih]
    constructor
    · rintro ⟨r, s₁, hstep, ⟨e, hrest, hout⟩ | ⟨b, s₂, hrest, hf⟩⟩
      · exact .inl ⟨e, ⟨r, s₁, hstep, hrest⟩, hout⟩
      · exact .inr ⟨b, s₂, ⟨r, s₁, hstep, hrest⟩, hf⟩
    · rintro (⟨e, ⟨r, s₁, hstep, hrest⟩, hout⟩ | ⟨b, s₂, ⟨r, s₁, hstep, hrest⟩, hf⟩)
      · exact ⟨r, s₁, hstep, .inl ⟨e, hrest, hout⟩⟩
      · exact ⟨r, s₁, hstep, .inr ⟨b, s₂, hrest, hf⟩⟩

theorem runs_handle {p : Program σ ε α} {handler : ε → Program σ ε α} :
    (p.handle handler).Runs sem s out s' ↔
      (∃ a, p.Runs sem s (.ok a) s' ∧ out = .ok a) ∨
        ∃ e s₁, p.Runs sem s (.error e) s₁ ∧ (handler e).Runs sem s₁ out s' := by
  induction p generalizing s with
  | ret a => simp [Runs, and_comm]
  | fail e => simp [Runs]
  | call c next ih =>
    simp only [handle_call, runs_call, ih]
    constructor
    · rintro ⟨r, s₁, hstep, ⟨a, hrest, hout⟩ | ⟨e, s₂, hrest, hh⟩⟩
      · exact .inl ⟨a, ⟨r, s₁, hstep, hrest⟩, hout⟩
      · exact .inr ⟨e, s₂, ⟨r, s₁, hstep, hrest⟩, hh⟩
    · rintro (⟨a, ⟨r, s₁, hstep, hrest⟩, hout⟩ | ⟨e, s₂, ⟨r, s₁, hstep, hrest⟩, hh⟩)
      · exact ⟨r, s₁, hstep, .inl ⟨a, hrest, hout⟩⟩
      · exact ⟨r, s₁, hstep, .inr ⟨e, s₂, hrest, hh⟩⟩

theorem runs_attempt {p : Program σ ε β} {out : Except ε Unit} :
    ((p >>= fun _ => Program.ret ()).handle fun _ => .ret ()).Runs sem s out s' ↔
      out = .ok () ∧ ∃ r, p.Runs sem s r s' := by
  induction p generalizing s with
  | ret b => simp [Runs]
  | fail e => simp [Runs]
  | call c next ih =>
    simp only [call_bind, handle_call, runs_call, ih]
    constructor
    · rintro ⟨r, s₁, hstep, hout, r', hrest⟩
      exact ⟨hout, r', r, s₁, hstep, hrest⟩
    · rintro ⟨hout, r', r, s₁, hstep, hrest⟩
      exact ⟨r, s₁, hstep, hout, r', hrest⟩

theorem runs_perform_bind_ok (c : σ.Call) (f : σ.Value c → Program σ ε α) (a : α) :
    (perform c >>= f).Runs sem s (.ok a) s' ↔
      ∃ v s₁, sem ⟨c, .ok v⟩ s s₁ ∧ (f v).Runs sem s₁ (.ok a) s' := by
  constructor
  · rintro ⟨e | v, s₁, hstep, hrest⟩
    · cases hrest.1
    · exact ⟨v, s₁, hstep, hrest⟩
  · rintro ⟨v, s₁, hstep, hrest⟩
    exact ⟨.ok v, s₁, hstep, hrest⟩

theorem Runs.perform_bind {c : σ.Call} {f : σ.Value c → Program σ ε α} {v : σ.Value c} {t : S}
    (hstep : sem ⟨c, .ok v⟩ s t) (h : (f v).Runs sem t out s') :
    (perform c >>= f).Runs sem s out s' := ⟨.ok v, t, hstep, h⟩

theorem Runs.bind {p : Program σ ε β} {f : β → Program σ ε α} {b : β} {t : S}
    (hp : p.Runs sem s (.ok b) t) (hf : (f b).Runs sem t out s') :
    (p >>= f).Runs sem s out s' := by
  induction p generalizing s with
  | ret a =>
    obtain ⟨h, rfl⟩ := hp
    cases h
    exact hf
  | fail e => cases hp.1
  | call c next ih =>
    obtain ⟨r, s₂, hstep, hrest⟩ := hp
    exact ⟨r, s₂, hstep, ih r hrest⟩

theorem Runs.handle_ok {p : Program σ ε α} {handler : ε → Program σ ε α} {a : α}
    (hp : p.Runs sem s (.ok a) s') : (p.handle handler).Runs sem s (.ok a) s' := by
  induction p generalizing s with
  | ret b => exact hp
  | fail e => cases hp.1
  | call c next ih =>
    obtain ⟨r, s₁, hstep, hrest⟩ := hp
    exact ⟨r, s₁, hstep, ih r hrest⟩

/-- Every error of a call is raised as it is, and there is no other. -/
def Relays : Program σ ε α → Prop
  | .ret _ => True
  | .fail _ => False
  | .call _ next => (∀ e, next (.error e) = .fail e) ∧ ∀ v, Relays (next (.ok v))

@[simp] theorem relays_ret (a : α) : (Program.ret a : Program σ ε α).Relays := trivial

theorem relays_perform (c : σ.Call) : (perform c : Program σ ε (σ.Value c)).Relays :=
  ⟨fun _ => rfl, fun _ => trivial⟩

theorem Relays.bind {p : Program σ ε β} {f : β → Program σ ε α} (hp : p.Relays)
    (hf : ∀ b, (f b).Relays) : (p >>= f).Relays := by
  induction p with
  | ret b => exact hf b
  | fail e => exact hp.elim
  | call c next ih =>
    refine ⟨fun e => ?_, fun v => ih (.ok v) (hp.2 v)⟩
    change (next (.error e)).bind f = .fail e
    rw [hp.1 e]
    rfl

theorem Relays.runs_ok {sem' : Semantics σ ε S} {p : Program σ ε α} (hp : p.Relays) {a : α}
    (hsem : ∀ c v s s', sem ⟨c, .ok v⟩ s s' → sem' ⟨c, .ok v⟩ s s') (h : p.Runs sem s (.ok a) s') :
    p.Runs sem' s (.ok a) s' := by
  induction p generalizing s with
  | ret b => exact h
  | fail e => exact hp.elim
  | call c next ih =>
    obtain ⟨e | v, s₁, hstep, hrest⟩ := h
    · rw [hp.1 e] at hrest
      cases hrest.1
    · exact ⟨.ok v, s₁, hsem c v s s₁ hstep, ih (.ok v) (hp.2 v) hrest⟩

theorem Relays.runs_returns {A : σ.Call → Prop} {p : Program σ ε α} (hp : p.Relays)
    (hcalls : p.OnlyCalls A) (hsem : ∀ c e s s', A c → ¬ sem ⟨c, .error e⟩ s s')
    (h : p.Runs sem s out s') : ∃ a, out = .ok a := by
  induction p generalizing s with
  | ret a => exact ⟨a, h.1⟩
  | fail e => exact hp.elim
  | call c next ih =>
    obtain ⟨e | v, s₁, hstep, hrest⟩ := h
    · exact absurd hstep (hsem c e s s₁ hcalls.1)
    · exact ih (.ok v) (hp.2 v) (hcalls.2 (.ok v)) hrest

theorem Runs.lift_inr {τ : Signature} {T : Type} {first : Semantics τ ε T} {p : Program σ ε α}
    {t : T} (h : p.Runs sem s out s') :
    (p.lift (.inr τ σ)).Runs (first.sum sem) (t, s) out (t, s') := by
  induction p generalizing s with
  | ret a =>
    obtain ⟨rfl, rfl⟩ := h
    exact ⟨rfl, rfl⟩
  | fail e =>
    obtain ⟨rfl, rfl⟩ := h
    exact ⟨rfl, rfl⟩
  | call c next ih =>
    obtain ⟨r, s₁, hstep, hrest⟩ := h
    refine ⟨r, (t, s₁), ⟨hstep, rfl⟩, ?_⟩
    have hmap : r.map (Equiv.refl (σ.Value c)) = r := by cases r <;> rfl
    have hih := ih r hrest
    rw [← hmap] at hih
    exact hih

theorem runs_lift_inl {τ : Signature} {T : Type} {second : Semantics τ ε T} {p : Program σ ε α}
    {t t' : T} : (p.lift (.inl σ τ)).Runs (sem.sum second) (s, t) out (s', t') ↔
      p.Runs sem s out s' ∧ t' = t := by
  have map_refl : ∀ {c : σ.Call} (r : Except ε (σ.Value c)), r.map (Equiv.refl (σ.Value c)) = r := by
    rintro c (e | v) <;> rfl
  induction p generalizing s t with
  | ret a =>
    rw [lift_ret, runs_ret, runs_ret, Prod.ext_iff, and_assoc]
  | fail e =>
    rw [lift_fail, runs_fail, runs_fail, Prod.ext_iff, and_assoc]
  | call c next ih =>
    constructor
    · rintro ⟨r, ⟨s₁, t₁⟩, ⟨hstep, rfl⟩, hrest⟩
      obtain ⟨hrun, rfl⟩ := (ih _).mp hrest
      refine ⟨⟨r, s₁, hstep, ?_⟩, rfl⟩
      rw [← map_refl r]
      exact hrun
    · rintro ⟨⟨r, s₁, hstep, hrun⟩, rfl⟩
      refine ⟨r, (s₁, t'), ⟨hstep, rfl⟩, (ih _).mpr ⟨?_, rfl⟩⟩
      have hr := map_refl r
      rw [← hr] at hrun
      exact hrun

/-- A lifted program runs as the program does, where the steps of its calls are those of its own calls. -/
theorem runs_lift {τ : Signature} {i : Embedding τ σ} {sub : Semantics τ ε S}
    (hstep : ∀ c r s s', sem ⟨i.call c, r⟩ s s' ↔ sub ⟨c, r.map (i.value c)⟩ s s')
    (p : Program τ ε α) {s s' : S} {out : Except ε α} :
    (p.lift i).Runs sem s out s' ↔ p.Runs sub s out s' := by
  induction p generalizing s with
  | ret a => exact Iff.rfl
  | fail e => exact Iff.rfl
  | call c next ih =>
    rw [lift_call, runs_call, runs_call]
    constructor
    · rintro ⟨r, s₁, h, hrest⟩
      exact ⟨_, s₁, (hstep c r s s₁).mp h, (ih _).mp hrest⟩
    · rintro ⟨r, s₁, h, hrest⟩
      have hmap : (r.map (i.value c).symm).map (i.value c) = r := by
        cases r with
        | error e => rfl
        | ok v => exact congrArg Except.ok ((i.value c).apply_symm_apply v)
      refine ⟨r.map (i.value c).symm, s₁, (hstep c _ s s₁).mpr ?_, (ih _).mpr ?_⟩
      · rw [hmap]
        exact h
      · rw [hmap]
        exact hrest

theorem Runs.mono {sem' : Semantics σ ε S} {p : Program σ ε α} (hsem : ∀ a s s', sem a s s' → sem' a s s')
    (h : p.Runs sem s out s') : p.Runs sem' s out s' := by
  induction p generalizing s with
  | ret a => exact h
  | fail e => exact h
  | call c next ih =>
    obtain ⟨r, s₁, hstep, hrest⟩ := h
    exact ⟨r, s₁, hsem _ _ _ hstep, ih r hrest⟩

theorem Runs.unchanged {p : Program σ ε α} (hsem : ∀ a s s', sem a s s' → s' = s) (h : p.Runs sem s out s') :
    s' = s := by
  induction p generalizing s with
  | ret a => exact h.2
  | fail e => exact h.2
  | call c next ih =>
    obtain ⟨r, s₁, hstep, hrest⟩ := h
    exact (ih r hrest).trans (hsem _ _ _ hstep)

theorem Runs.ofExcept_bind {x : Except ε β} {f : β → Program σ ε α} {b : β} (hx : x = .ok b)
    (h : (f b).Runs sem s out s') : (ofExcept x >>= f).Runs sem s out s' := by
  subst hx
  exact h

theorem exists_runs (hserved : ∀ c s, ∃ r s', sem ⟨c, r⟩ s s') (p : Program σ ε α) (s : S) :
    ∃ out s', p.Runs sem s out s' := by
  induction p generalizing s with
  | ret a => exact ⟨_, _, rfl, rfl⟩
  | fail e => exact ⟨_, _, rfl, rfl⟩
  | call c next ih =>
    obtain ⟨r, s₁, hstep⟩ := hserved c s
    obtain ⟨out, s', hrest⟩ := ih r s₁
    exact ⟨out, s', r, s₁, hstep, hrest⟩

end Program

theorem System.Run.alone {σ : Signature} {ε S : Type} {sys : System σ ε S} {tr : List sys.Event}
    {s s' : S} {ss : Nat → Option sys.Session} (run : sys.Run tr ⟨s, ss⟩) {i : Nat} {o : sys.Op}
    {p : Program σ ε (sys.Result o)} (hs : ss i = some ⟨o, p⟩) {out : Except ε (sys.Result o)}
    (h : p.Runs sys.step s out s') :
    ∃ tr', sys.Run (tr ++ tr') ⟨s', Function.update ss i (some ⟨o, .ofExcept out⟩)⟩ := by
  induction p generalizing tr s ss with
  | ret a =>
    obtain ⟨rfl, rfl⟩ := h
    exact ⟨[], by simpa [← hs] using run⟩
  | fail e =>
    obtain ⟨rfl, rfl⟩ := h
    exact ⟨[], by simpa [← hs] using run⟩
  | call c next ih =>
    obtain ⟨r, s₁, hstep, hrest⟩ := h
    obtain ⟨tr', hrun⟩ := ih r (run.call hs hstep) (by simp) hrest
    exact ⟨_, by simpa using hrun⟩

theorem System.Run.perform {σ : Signature} {ε S : Type} {sys : System σ ε S} {tr : List sys.Event}
    {s s' : S} {ss : Nat → Option sys.Session} (run : sys.Run tr ⟨s, ss⟩) {i : Nat}
    (fresh : ss i = none) {o : sys.Op} {out : Except ε (sys.Result o)}
    (h : (sys.program o).Runs sys.step s out s') :
    ∃ tr', sys.Run (tr ++ tr') ⟨s', Function.update ss i (some ⟨o, .ofExcept out⟩)⟩ := by
  have hs : Function.update ss i (some ⟨o, sys.program o⟩) i = some ⟨o, sys.program o⟩ := by simp
  obtain ⟨tr', hrun⟩ := (run.invoke i fresh o).alone hs h
  exact ⟨tr', by simpa using hrun⟩

end Effects

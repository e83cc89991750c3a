import ForkAgent.Effects.Execution
import Mathlib.Logic.Relation

/-!
# One client at a time

A client runs its operations one after another. Each operation runs to its end or is broken off
at one of its calls, and before any call others may have changed the store. `Always` says what
holds whenever a program issues a call and whenever it ends; its rules follow the program.
-/

namespace Effects

/-- Others may have changed the store before the call. -/
def Semantics.disturbed {σ : Signature} {ε S : Type} (sem : Semantics σ ε S)
    (outside : S → S → Prop) : Semantics σ ε S :=
  fun a s s' => ∃ s₁, Relation.ReflTransGen outside s s₁ ∧ sem a s₁ s'

/-- The store, with the calls answered so far. -/
def Semantics.recorded {σ : Signature} {ε S : Type} (sem : Semantics σ ε S) :
    Semantics σ ε (S × List (Answered σ ε)) :=
  fun a s s' => sem a s.1 s'.1 ∧ s'.2 = s.2 ++ [a]

theorem Answered.lift_inj {σ τ : Signature} {ε : Type} {i : Embedding σ τ} {c : σ.Call}
    {r r' : Except ε (σ.Value c)} (h : Answered.lift i ⟨c, r⟩ = Answered.lift i ⟨c, r'⟩) : r = r' := by
  have hanswer : r.map (i.value c).symm = r'.map (i.value c).symm := by
    simpa [Answered.lift] using h
  cases r with
  | error e =>
    cases r' with
    | error e' => simpa [Except.map] using hanswer
    | ok v' => simp [Except.map] at hanswer
  | ok v =>
    cases r' with
    | error e' => simp [Except.map] at hanswer
    | ok v' => simpa [Except.map] using hanswer

namespace Program

variable {σ τ : Signature} {ε α β S T : Type}

/-- Once its calls have got these answers, the first program, started from the first store, has
the second one left to run from the second store. -/
inductive Reaches (sem : Semantics σ ε S) :
    Program σ ε α → S → List (Answered σ ε) → Program σ ε α → S → Prop where
  | here (p s) : Reaches sem p s [] p s
  | call {c next r s s₁ h q s'} (step : sem ⟨c, r⟩ s s₁) (rest : Reaches sem (next r) s₁ h q s') :
      Reaches sem (.call c next) s (⟨c, r⟩ :: h) q s'

/-- Whenever the program issues a call `Φ` holds, and when it ends `Q` does. -/
def Always (sem : Semantics σ ε S) (Φ : S → σ.Call → Prop) (Q : Except ε α → S → Prop) :
    Program σ ε α → S → Prop
  | .ret a, s => Q (.ok a) s
  | .fail e, s => Q (.error e) s
  | .call c next, s => Φ s c ∧ ∀ r s', sem ⟨c, r⟩ s s' → Always sem Φ Q (next r) s'

section Always

variable {sem : Semantics σ ε S} {Φ : S → σ.Call → Prop} {Q : Except ε α → S → Prop} {s : S}

@[simp] theorem always_ret (a : α) : (Program.ret a).Always sem Φ Q s ↔ Q (.ok a) s := Iff.rfl

@[simp] theorem always_fail (e : ε) :
    (Program.fail e : Program σ ε α).Always sem Φ Q s ↔ Q (.error e) s := Iff.rfl

@[simp] theorem always_call (c : σ.Call) (next : Except ε (σ.Value c) → Program σ ε α) :
    (Program.call c next).Always sem Φ Q s ↔
      Φ s c ∧ ∀ r s', sem ⟨c, r⟩ s s' → (next r).Always sem Φ Q s' := Iff.rfl

theorem always_perform_bind (c : σ.Call) (f : σ.Value c → Program σ ε α) :
    (perform c >>= f).Always sem Φ Q s ↔
      Φ s c ∧ (∀ v s', sem ⟨c, .ok v⟩ s s' → (f v).Always sem Φ Q s') ∧
        ∀ e s', sem ⟨c, .error e⟩ s s' → Q (.error e) s' := by
  constructor
  · rintro ⟨hc, hr⟩
    exact ⟨hc, fun v => hr (.ok v), fun e => hr (.error e)⟩
  · rintro ⟨hc, hv, he⟩
    refine ⟨hc, ?_⟩
    rintro (e | v)
    · exact he e
    · exact hv v

theorem always_perform (c : σ.Call) (Q : Except ε (σ.Value c) → S → Prop) :
    (perform c).Always sem Φ Q s ↔ Φ s c ∧ ∀ r s', sem ⟨c, r⟩ s s' → Q r s' := by
  constructor
  · rintro ⟨hc, hr⟩
    refine ⟨hc, ?_⟩
    rintro (e | v)
    · exact hr (.error e)
    · exact hr (.ok v)
  · rintro ⟨hc, hr⟩
    refine ⟨hc, ?_⟩
    rintro (e | v)
    · exact hr (.error e)
    · exact hr (.ok v)

theorem Always.mono {Φ' : S → σ.Call → Prop} {Q' : Except ε α → S → Prop} {p : Program σ ε α}
    (hp : p.Always sem Φ Q s) (hΦ : ∀ s c, Φ s c → Φ' s c) (hQ : ∀ out s, Q out s → Q' out s) :
    p.Always sem Φ' Q' s := by
  induction p generalizing s with
  | ret a => exact hQ _ _ hp
  | fail e => exact hQ _ _ hp
  | call c next ih => exact ⟨hΦ _ _ hp.1, fun r s' hstep => ih r (hp.2 r s' hstep)⟩

theorem Always.bind {Q' : Except ε β → S → Prop} {p : Program σ ε β} {f : β → Program σ ε α}
    (hp : p.Always sem Φ Q' s) (hok : ∀ b s, Q' (.ok b) s → (f b).Always sem Φ Q s)
    (herror : ∀ e s, Q' (.error e) s → Q (.error e) s) : (p >>= f).Always sem Φ Q s := by
  induction p generalizing s with
  | ret b => exact hok _ _ hp
  | fail e => exact herror _ _ hp
  | call c next ih => exact ⟨hp.1, fun r s' hstep => ih r (hp.2 r s' hstep)⟩

theorem Always.handle {Q' : Except ε α → S → Prop} {p : Program σ ε α}
    {handler : ε → Program σ ε α} (hp : p.Always sem Φ Q' s)
    (hok : ∀ a s, Q' (.ok a) s → Q (.ok a) s)
    (herror : ∀ e s, Q' (.error e) s → (handler e).Always sem Φ Q s) :
    (p.handle handler).Always sem Φ Q s := by
  induction p generalizing s with
  | ret a => exact hok _ _ hp
  | fail e => exact herror _ _ hp
  | call c next ih => exact ⟨hp.1, fun r s' hstep => ih r (hp.2 r s' hstep)⟩

theorem always_ofExcept (x : Except ε α) : (ofExcept x).Always sem Φ Q s ↔ Q x s := by
  cases x <;> rfl

theorem always_ofExcept_bind (x : Except ε β) (f : β → Program σ ε α) :
    (ofExcept x >>= f).Always sem Φ Q s ↔
      (∀ v, x = .ok v → (f v).Always sem Φ Q s) ∧ ∀ e, x = .error e → Q (.error e) s := by
  cases x <;> simp

theorem Always.and {Φ' : S → σ.Call → Prop} {Q' : Except ε α → S → Prop} {p : Program σ ε α}
    (hp : p.Always sem Φ Q s) (hp' : p.Always sem Φ' Q' s) :
    p.Always sem (fun s c => Φ s c ∧ Φ' s c) (fun out s => Q out s ∧ Q' out s) s := by
  induction p generalizing s with
  | ret a => exact ⟨hp, hp'⟩
  | fail e => exact ⟨hp, hp'⟩
  | call c next ih =>
    exact ⟨⟨hp.1, hp'.1⟩, fun r s' hstep => ih r (hp.2 r s' hstep) (hp'.2 r s' hstep)⟩

theorem Always.of_kept {J : S → Prop} {p : Program σ ε α}
    (hJ : ∀ a s s', J s → sem a s s' → J s') (hs : J s)
    (hp : p.Always (fun a s s' => J s ∧ sem a s s') Φ Q s) :
    p.Always sem (fun s c => J s ∧ Φ s c) (fun out s => J s ∧ Q out s) s := by
  induction p generalizing s with
  | ret a => exact ⟨hs, hp⟩
  | fail e => exact ⟨hs, hp⟩
  | call c next ih =>
    exact ⟨⟨hs, hp.1⟩, fun r s' hstep => ih r (hJ _ _ _ hs hstep) (hp.2 r s' ⟨hs, hstep⟩)⟩

theorem OnlyCalls.always {A : σ.Call → Prop} {p : Program σ ε α} (hp : p.OnlyCalls A) (s : S) :
    p.Always sem (fun _ c => A c) (fun _ _ => True) s := by
  induction p generalizing s with
  | ret a => trivial
  | fail e => trivial
  | call c next ih => exact ⟨hp.1, fun r s' _ => ih r (hp.2 r) s'⟩

theorem always_prefix (p : Program σ ε α) (s : S × List (Answered σ ε)) :
    p.Always sem.recorded (fun _ _ => True) (fun _ s' => s.2 <+: s'.2) s := by
  induction p generalizing s with
  | ret a => exact List.prefix_refl _
  | fail e => exact List.prefix_refl _
  | call c next ih =>
    refine ⟨trivial, fun r s' hstep => (ih r s').mono (fun _ _ h => h) fun out s'' h => ?_⟩
    rw [hstep.2] at h
    exact (List.prefix_append _ _).trans h

theorem always_lift_follows {i : Embedding τ σ} (p : Program τ ε α)
    (s : S × List (Answered σ ε)) :
    (p.lift i).Always sem.recorded (fun _ _ => True)
      (fun out s' => ∃ own, p.Follows own (.ofExcept out) ∧ s'.2 = s.2 ++ own.map (.lift i)) s := by
  induction p generalizing s with
  | ret a => exact ⟨[], .nil _, by simp⟩
  | fail e => exact ⟨[], .nil _, by simp⟩
  | call c next ih =>
    refine ⟨trivial, fun r s' hstep => ?_⟩
    refine (ih (r.map (i.value c)) s').mono (fun _ _ h => h) fun out s'' h => ?_
    obtain ⟨own, hfollows, hrecord⟩ := h
    refine ⟨⟨c, r.map (i.value c)⟩ :: own, .cons hfollows, ?_⟩
    have hanswer : Answered.lift i (⟨c, r.map (i.value c)⟩ : Answered τ ε) = ⟨i.call c, r⟩ := by
      cases r <;> simp [Answered.lift, Except.map]
    rw [hrecord, hstep.2, List.map_cons, hanswer, List.append_assoc, List.singleton_append]

/-- A program that follows the answers in a record ends in one way. -/
theorem Follows.unique {i : Embedding τ σ} {p : Program τ ε α} {own own' : List (Answered τ ε)}
    {after after' : List (Answered σ ε)} {out out' : Except ε α} (h : p.Follows own (.ofExcept out))
    (h' : p.Follows own' (.ofExcept out'))
    (heq : own.map (.lift i) ++ after = own'.map (.lift i) ++ after') : out = out' := by
  generalize hq : (ofExcept out : Program τ ε α) = q at h
  generalize hq' : (ofExcept out' : Program τ ε α) = q' at h'
  induction p generalizing own own' with
  | ret a =>
    cases h
    cases h'
    cases out <;> cases out' <;> cases hq <;> cases hq'
    rfl
  | fail e =>
    cases h
    cases h'
    cases out <;> cases out' <;> cases hq <;> cases hq'
    rfl
  | call c next ih =>
    cases h with
    | nil => cases out <;> cases hq
    | cons rest =>
      cases h' with
      | nil => cases out' <;> cases hq'
      | cons rest' =>
        obtain ⟨hlift, hmore⟩ := List.cons.inj heq
        cases Answered.lift_inj hlift
        exact ih _ hmore rest rest'

/-- A program of one component, run over the whole store: what it always does to its component,
while the whole store moves by `K`. -/
theorem Always.lift {i : Embedding τ σ} {view : S → T} {sub : Semantics τ ε T} {K : S → S → Prop}
    {Φ' : T → τ.Call → Prop} {Q' : Except ε α → T → Prop} {p : Program τ ε α}
    (hp : p.Always sub Φ' Q' (view s))
    (hstep : ∀ c r s s', sem ⟨i.call c, r⟩ s s' →
      sub ⟨c, r.map (i.value c)⟩ (view s) (view s') ∧ K s s')
    (hrefl : ∀ s, K s s) (htrans : ∀ a b c, K a b → K b c → K a c)
    (hΦ : ∀ s' c, K s s' → Φ' (view s') c → Φ s' (i.call c)) :
    (p.lift i).Always sem Φ (fun out s' => Q' out (view s') ∧ K s s') s := by
  have hgeneral : ∀ s', K s s' → p.Always sub Φ' Q' (view s') →
      (p.lift i).Always sem Φ (fun out s' => Q' out (view s') ∧ K s s') s' := by
    clear hp
    induction p with
    | ret a => exact fun s' hK hp => ⟨hp, hK⟩
    | fail e => exact fun s' hK hp => ⟨hp, hK⟩
    | call c next ih =>
      intro s' hK hp
      refine ⟨hΦ _ _ hK hp.1, fun r s₁ h => ?_⟩
      obtain ⟨hsub, hmove⟩ := hstep c r s' s₁ h
      exact ih _ s₁ (htrans _ _ _ hK hmove) (hp.2 _ _ hsub)
  exact hgeneral s (hrefl s) hp

end Always

/-- Every state that the program passes is related to the one it started from. -/
def Respects (sem : Semantics σ ε S) (K : S → S → Prop) (p : Program σ ε α) : Prop :=
  ∀ s, p.Always sem (fun s' _ => K s s') (fun _ s' => K s s') s

section Respects

variable {sem : Semantics σ ε S} {K : S → S → Prop}

theorem Respects.ret (hrefl : ∀ s, K s s) (a : α) :
    (Program.ret a : Program σ ε α).Respects sem K := fun s => hrefl s

theorem Respects.fail (hrefl : ∀ s, K s s) (e : ε) :
    (Program.fail e : Program σ ε α).Respects sem K := fun s => hrefl s

theorem Respects.ofExcept (hrefl : ∀ s, K s s) (x : Except ε α) :
    (ofExcept x : Program σ ε α).Respects sem K := by
  cases x
  · exact .fail hrefl _
  · exact .ret hrefl _

theorem Respects.perform (hrefl : ∀ s, K s s) {c : σ.Call}
    (hstep : ∀ r s s', sem ⟨c, r⟩ s s' → K s s') :
    (perform c : Program σ ε (σ.Value c)).Respects sem K := by
  intro s
  refine ⟨hrefl s, ?_⟩
  rintro (e | v) s' h
  · exact hstep _ _ _ h
  · exact hstep _ _ _ h

theorem Respects.always {Φ : S → σ.Call → Prop} {Q : Except ε α → S → Prop} {p : Program σ ε α}
    (hp : p.Respects sem K) (s : S) (hΦ : ∀ s' c, K s s' → Φ s' c)
    (hQ : ∀ out s', K s s' → Q out s') : p.Always sem Φ Q s :=
  (hp s).mono hΦ hQ

theorem Respects.bind (htrans : ∀ a b c, K a b → K b c → K a c) {p : Program σ ε β}
    {f : β → Program σ ε α} (hp : p.Respects sem K) (hf : ∀ b, (f b).Respects sem K) :
    (p >>= f).Respects sem K := by
  intro s
  refine Always.bind (hp s) ?_ fun _ _ h => h
  intro b s' hs'
  exact (hf b).always s' (fun _ _ h => htrans _ _ _ hs' h) fun _ _ h => htrans _ _ _ hs' h

theorem Respects.handle (htrans : ∀ a b c, K a b → K b c → K a c) {p : Program σ ε α}
    {handler : ε → Program σ ε α} (hp : p.Respects sem K)
    (hh : ∀ e, (handler e).Respects sem K) : (p.handle handler).Respects sem K := by
  intro s
  refine Always.handle (hp s) (fun _ _ h => h) ?_
  intro e s' hs'
  exact (hh e).always s' (fun _ _ h => htrans _ _ _ hs' h) fun _ _ h => htrans _ _ _ hs' h

theorem Respects.lift (hrefl : ∀ s, K s s) (htrans : ∀ a b c, K a b → K b c → K a c)
    {i : Embedding τ σ} (hstep : ∀ c r s s', sem ⟨i.call c, r⟩ s s' → K s s')
    (p : Program τ ε α) : (p.lift i).Respects sem K := by
  induction p with
  | ret a => exact .ret hrefl a
  | fail e => exact .fail hrefl e
  | call c next ih =>
    intro s
    refine ⟨hrefl s, fun r s' h => ?_⟩
    have hK := hstep c r s s' h
    exact (ih _).always s' (fun _ _ h => htrans _ _ _ hK h) fun _ _ h => htrans _ _ _ hK h

theorem OnlyCalls.respects {A : σ.Call → Prop} {p : Program σ ε α} (hp : p.OnlyCalls A)
    (hrefl : ∀ s, K s s) (htrans : ∀ a b c, K a b → K b c → K a c)
    (hstep : ∀ c r s s', A c → sem ⟨c, r⟩ s s' → K s s') : p.Respects sem K := by
  induction p with
  | ret a => exact .ret hrefl a
  | fail e => exact .fail hrefl e
  | call c next ih =>
    intro s
    refine ⟨hrefl s, fun r s' h => ?_⟩
    have hK := hstep c r s s' hp.1 h
    exact (ih r (hp.2 r)).always s' (fun _ _ h => htrans _ _ _ hK h) fun _ _ h => htrans _ _ _ hK h

end Respects

section Reaches

variable {sem : Semantics σ ε S} {p q : Program σ ε α} {s s' : S} {h : List (Answered σ ε)}

theorem Reaches.always (hr : p.Reaches sem s h q s') {Φ : S → σ.Call → Prop}
    {Q : Except ε α → S → Prop} (hp : p.Always sem Φ Q s) : q.Always sem Φ Q s' := by
  induction hr with
  | here p s => exact hp
  | call step rest ih => exact ih (hp.2 _ _ step)

theorem Reaches.calls (hr : p.Reaches sem s h q s') {A : σ.Call → Prop} {Q : Except ε α → S → Prop}
    (hp : p.Always sem (fun _ c => A c) Q s) : ∀ a ∈ h, A a.call := by
  induction hr with
  | here p s => exact List.forall_mem_nil _
  | call step rest ih => exact List.forall_mem_cons.mpr ⟨hp.1, ih (hp.2 _ _ step)⟩

theorem Reaches.recorded (hr : p.Reaches sem s h q s') (before : List (Answered σ ε)) :
    p.Reaches sem.recorded (s, before) h q (s', before ++ h) := by
  induction hr generalizing before with
  | here p s =>
    rw [List.append_nil]
    exact .here p _
  | @call c next r s s₁ h q s' step rest ih =>
    have hrest := ih (before ++ [⟨c, r⟩])
    rw [List.append_assoc, List.singleton_append] at hrest
    exact .call ⟨step, rfl⟩ hrest

theorem Runs.always {out : Except ε α} (hr : p.Runs sem s out s') {Φ : S → σ.Call → Prop}
    {Q : Except ε α → S → Prop} (hp : p.Always sem Φ Q s) : Q out s' := by
  induction p generalizing s with
  | ret a =>
    obtain ⟨rfl, rfl⟩ := hr
    exact hp
  | fail e =>
    obtain ⟨rfl, rfl⟩ := hr
    exact hp
  | call c next ih =>
    obtain ⟨r, s₁, hstep, hrest⟩ := hr
    exact ih r hrest (hp.2 _ _ hstep)

theorem Runs.reaches {out : Except ε α} (hr : p.Runs sem s out s') :
    ∃ h, p.Reaches sem s h (.ofExcept out) s' := by
  induction p generalizing s with
  | ret a =>
    obtain ⟨rfl, rfl⟩ := hr
    exact ⟨[], .here _ _⟩
  | fail e =>
    obtain ⟨rfl, rfl⟩ := hr
    exact ⟨[], .here _ _⟩
  | call c next ih =>
    obtain ⟨r, s₁, hstep, hrest⟩ := hr
    obtain ⟨h, hreaches⟩ := ih r hrest
    exact ⟨_, .call hstep hreaches⟩

/-- Run a program against a function that serves its calls, and keep the answers; `none` when a
call is not served. -/
def exec (respond : (c : σ.Call) → S → Option (Except ε (σ.Value c) × S)) :
    Program σ ε α → S → Option (Except ε α × List (Answered σ ε) × S)
  | .ret a, s => some (.ok a, [], s)
  | .fail e, s => some (.error e, [], s)
  | .call c next, s =>
    (respond c s).bind fun answer =>
      ((next answer.1).exec respond answer.2).map fun rest =>
        (rest.1, ⟨c, answer.1⟩ :: rest.2.1, rest.2.2)

theorem exec_reaches {respond : (c : σ.Call) → S → Option (Except ε (σ.Value c) × S)}
    (hrespond : ∀ c s r s', respond c s = some (r, s') → sem ⟨c, r⟩ s s') {out : Except ε α}
    (h' : p.exec respond s = some (out, h, s')) : p.Reaches sem s h (.ofExcept out) s' := by
  induction p generalizing s h with
  | ret a =>
    cases h'
    exact .here _ _
  | fail e =>
    cases h'
    exact .here _ _
  | call c next ih =>
    obtain ⟨answer, hanswer, hrest⟩ := Option.bind_eq_some_iff.mp h'
    obtain ⟨rest, hexec, heq⟩ := Option.map_eq_some_iff.mp hrest
    cases heq
    exact .call (hrespond c s answer.1 answer.2 hanswer) (ih answer.1 hexec)

theorem Reaches.runs {out : Except ε α} (hr : p.Reaches sem s h (.ofExcept out) s') :
    p.Runs sem s out s' := by
  generalize hq : (Program.ofExcept out : Program σ ε α) = q at hr
  induction hr with
  | here p s =>
    subst hq
    cases out <;> exact ⟨rfl, rfl⟩
  | call step rest ih => exact ⟨_, _, step, ih hq⟩

end Reaches

end Program

section Serial

variable {σ : Signature} {ε S : Type} (sys : System σ ε S)

/-- A call of the system, after whatever others did to the store. -/
def System.disturbed : Semantics σ ε S := sys.step.disturbed sys.outside

/-- The stores that one client reaches: each of its operations runs to its end or is broken off at
any of its calls. -/
inductive System.Serial : S → Prop where
  | initial {s} (h : sys.initial s) : Serial s
  | outside {s s'} (before : Serial s) (h : sys.outside s s') : Serial s'
  | operation {s} (before : Serial s) (o : sys.Op) {h q s'}
      (reaches : (sys.program o).Reaches sys.disturbed s h q s') : Serial s'

variable {sys}

theorem System.Serial.invariant {s : S} (hs : sys.Serial s) {I : S → Prop}
    (hinit : ∀ s, sys.initial s → I s) (houtside : ∀ s s', I s → sys.outside s s' → I s')
    (hoperation : ∀ o s, I s →
      (sys.program o).Always sys.disturbed (fun s _ => I s) (fun _ s => I s) s) : I s := by
  induction hs with
  | initial h => exact hinit _ h
  | outside before h ih => exact houtside _ _ ih h
  | operation before o reaches ih =>
    have hrest := reaches.always (hoperation o _ ih)
    revert hrest
    generalize ‹Program σ ε (sys.Result o)› = q
    cases q with
    | ret a => exact fun h => h
    | fail e => exact fun h => h
    | call c next => exact fun h => h.1

theorem Program.Reaches.disturbed {sem : Semantics σ ε S} {outside : S → S → Prop} {α : Type}
    {p q : Program σ ε α} {s s' : S} {h : List (Answered σ ε)} (hr : p.Reaches sem s h q s') :
    p.Reaches (sem.disturbed outside) s h q s' := by
  induction hr with
  | here p s => exact .here p s
  | call step rest ih => exact .call ⟨_, .refl, step⟩ ih

theorem System.Run.disturb {sys : System σ ε S} {tr : List sys.Event} {s s' : S}
    {ss : Nat → Option sys.Session} (run : sys.Run tr ⟨s, ss⟩)
    (h : Relation.ReflTransGen sys.outside s s') : sys.Run tr ⟨s', ss⟩ := by
  induction h with
  | refl => exact run
  | tail _ hlast ih => exact ih.outside hlast

/-- A caller that makes some of its calls, with no other caller in between, extends the run of the
system. -/
theorem System.Run.advance {sys : System σ ε S} {tr : List sys.Event} {s s' : S}
    {ss : Nat → Option sys.Session} (run : sys.Run tr ⟨s, ss⟩) {i : Nat} {o : sys.Op}
    {p q : Program σ ε (sys.Result o)} (hs : ss i = some ⟨o, p⟩) {h : List (Answered σ ε)}
    (hreaches : p.Reaches sys.disturbed s h q s') :
    ∃ tr', sys.Run (tr ++ tr') ⟨s', Function.update ss i (some ⟨o, q⟩)⟩ ∧
      tr'.map (·.answered) = h ∧ ∀ e ∈ tr', e.caller = i ∧ e.op = o := by
  induction hreaches generalizing tr ss with
  | here p s => exact ⟨[], by simpa [← hs] using run, rfl, by simp⟩
  | @call c next r s s₂ h q s' step rest ih =>
    obtain ⟨s₁, houtside, step⟩ := step
    obtain ⟨tr', hrun, hanswers, hown⟩ := ih ((run.disturb houtside).call hs step) (by simp)
    refine ⟨⟨i, o, ⟨c, r⟩, s₁, s₂⟩ :: tr', by simpa using hrun, by simp [hanswers], ?_⟩
    intro e he
    rcases List.mem_cons.mp he with rfl | he
    · exact ⟨rfl, rfl⟩
    · exact hown e he

end Serial

end Effects

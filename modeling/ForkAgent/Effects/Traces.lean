import ForkAgent.Effects.Serial

/-!
# Traces of a program

What a program makes of the answers that it gets, whoever gives them: the sequence of its answered calls from
its beginning to its end, together with its outcome.
-/

namespace Effects

namespace Program

variable {σ : Signature} {ε α β : Type}

/-- With these answers to its calls, the program comes to this end. -/
def Answers : Program σ ε α → List (Answered σ ε) → Except ε α → Prop
  | .ret a, h, out => h = [] ∧ out = .ok a
  | .fail e, h, out => h = [] ∧ out = .error e
  | .call c next, h, out => ∃ r rest, h = ⟨c, r⟩ :: rest ∧ Answers (next r) rest out

variable {h : List (Answered σ ε)} {out : Except ε α}

@[simp] theorem answers_ret (a : α) : (.ret a : Program σ ε α).Answers h out ↔ h = [] ∧ out = .ok a := Iff.rfl

@[simp] theorem answers_fail (e : ε) :
    (.fail e : Program σ ε α).Answers h out ↔ h = [] ∧ out = .error e := Iff.rfl

theorem answers_call (c : σ.Call) (next : Except ε (σ.Value c) → Program σ ε α) :
    (Program.call c next).Answers h out ↔ ∃ r rest, h = ⟨c, r⟩ :: rest ∧ (next r).Answers rest out := Iff.rfl

theorem answers_ofExcept {x : Except ε α} :
    (ofExcept x : Program σ ε α).Answers h out ↔ h = [] ∧ out = x := by
  cases x <;> exact Iff.rfl

theorem answers_perform {c : σ.Call} {out : Except ε (σ.Value c)} :
    (perform c : Program σ ε (σ.Value c)).Answers h out ↔ h = [⟨c, out⟩] := by
  constructor
  · rintro ⟨e | v, rest, rfl, rfl, rfl⟩
    · rfl
    · rfl
  · rintro rfl
    cases out with
    | error e => exact ⟨_, [], rfl, rfl, rfl⟩
    | ok v => exact ⟨_, [], rfl, rfl, rfl⟩

/-- One program after another: the first fails, or the trace of the second follows its own. -/
theorem answers_bind {p : Program σ ε β} {f : β → Program σ ε α} :
    (p >>= f).Answers h out ↔ (∃ e, p.Answers h (.error e) ∧ out = .error e) ∨
      ∃ b before after, h = before ++ after ∧ p.Answers before (.ok b) ∧ (f b).Answers after out := by
  induction p generalizing h with
  | ret b =>
    constructor
    · intro hf
      exact .inr ⟨b, [], h, rfl, ⟨rfl, rfl⟩, hf⟩
    · rintro (⟨e, ⟨-, he⟩, -⟩ | ⟨_, _, after, rfl, ⟨rfl, hb⟩, hf⟩)
      · cases he
      · cases hb
        exact hf
  | fail e =>
    constructor
    · rintro ⟨rfl, rfl⟩
      exact .inl ⟨e, ⟨rfl, rfl⟩, rfl⟩
    · rintro (⟨_, ⟨rfl, he⟩, rfl⟩ | ⟨_, _, _, -, ⟨-, hb⟩, -⟩)
      · cases he
        exact ⟨rfl, rfl⟩
      · cases hb
  | call c next ih =>
    simp only [call_bind, answers_call]
    constructor
    · rintro ⟨r, rest, rfl, hrest⟩
      obtain ⟨e, hp, rfl⟩ | ⟨b, before, after, rfl, hp, hf⟩ := (ih r).mp hrest
      · exact .inl ⟨e, ⟨r, rest, rfl, hp⟩, rfl⟩
      · exact .inr ⟨b, ⟨c, r⟩ :: before, after, rfl, ⟨r, before, rfl, hp⟩, hf⟩
    · rintro (⟨e, ⟨r, rest, rfl, hp⟩, rfl⟩ | ⟨b, _, after, rfl, ⟨r, before, rfl, hp⟩, hf⟩)
      · exact ⟨r, rest, rfl, (ih r).mpr (.inl ⟨e, hp, rfl⟩)⟩
      · exact ⟨r, before ++ after, rfl, (ih r).mpr (.inr ⟨b, before, after, rfl, hp, hf⟩)⟩

/-- A handler takes over where the program fails. -/
theorem answers_handle {p : Program σ ε α} {handler : ε → Program σ ε α} :
    (p.handle handler).Answers h out ↔ (∃ a, p.Answers h (.ok a) ∧ out = .ok a) ∨
      ∃ e before after, h = before ++ after ∧ p.Answers before (.error e) ∧ (handler e).Answers after out := by
  induction p generalizing h with
  | ret a =>
    constructor
    · rintro ⟨rfl, rfl⟩
      exact .inl ⟨a, ⟨rfl, rfl⟩, rfl⟩
    · rintro (⟨_, ⟨rfl, ha⟩, rfl⟩ | ⟨_, _, _, -, ⟨-, he⟩, -⟩)
      · cases ha
        exact ⟨rfl, rfl⟩
      · cases he
  | fail e =>
    constructor
    · intro hh
      exact .inr ⟨e, [], h, rfl, ⟨rfl, rfl⟩, hh⟩
    · rintro (⟨_, ⟨-, ha⟩, -⟩ | ⟨_, _, after, rfl, ⟨rfl, he⟩, hh⟩)
      · cases ha
      · cases he
        exact hh
  | call c next ih =>
    simp only [handle_call, answers_call]
    constructor
    · rintro ⟨r, rest, rfl, hrest⟩
      obtain ⟨a, hp, rfl⟩ | ⟨e, before, after, rfl, hp, hh⟩ := (ih r).mp hrest
      · exact .inl ⟨a, ⟨r, rest, rfl, hp⟩, rfl⟩
      · exact .inr ⟨e, ⟨c, r⟩ :: before, after, rfl, ⟨r, before, rfl, hp⟩, hh⟩
    · rintro (⟨a, ⟨r, rest, rfl, hp⟩, rfl⟩ | ⟨e, _, after, rfl, ⟨r, before, rfl, hp⟩, hh⟩)
      · exact ⟨r, rest, rfl, (ih r).mpr (.inl ⟨a, hp, rfl⟩)⟩
      · exact ⟨r, before ++ after, rfl, (ih r).mpr (.inr ⟨e, before, after, rfl, hp, hh⟩)⟩

theorem answers_swallow {p : Program σ ε Unit} {out : Except ε Unit} :
    (p.handle fun _ => .ret ()).Answers h out ↔ out = .ok () ∧ ∃ r, p.Answers h r := by
  rw [answers_handle]
  constructor
  · rintro (⟨a, hp, rfl⟩ | ⟨e, before, _, rfl, hp, rfl, rfl⟩)
    · exact ⟨rfl, _, hp⟩
    · exact ⟨rfl, .error e, by simpa using hp⟩
  · rintro ⟨rfl, e | a, hp⟩
    · exact .inr ⟨e, h, [], (List.append_nil h).symm, hp, rfl, rfl⟩
    · exact .inl ⟨a, hp, rfl⟩

theorem Runs.answers {S : Type} {sem : Semantics σ ε S} {p : Program σ ε α} {s s' : S}
    (hrun : p.Runs sem s out s') : ∃ h, p.Answers h out := by
  induction p generalizing s with
  | ret a => exact ⟨[], rfl, hrun.1⟩
  | fail e => exact ⟨[], rfl, hrun.1⟩
  | call c next ih =>
    obtain ⟨r, s₁, -, hrest⟩ := hrun
    obtain ⟨rest, hanswers⟩ := ih r hrest
    exact ⟨⟨c, r⟩ :: rest, r, rest, rfl, hanswers⟩

section Raises

/-- Whatever its calls are answered, each error that the program raises is one of these. -/
def Raises (D : List (Answered σ ε) → ε → Prop) (p : Program σ ε α) : Prop :=
  ∀ h e, p.Answers h (.error e) → D h e

/-- A call was answered with the error. -/
def Relayed (h : List (Answered σ ε)) (e : ε) : Prop := ∃ c, (⟨c, .error e⟩ : Answered σ ε) ∈ h

/-- Errors that are told from the last answers on: earlier ones make no difference. -/
class Lasting (D : List (Answered σ ε) → ε → Prop) : Prop where
  append : ∀ before h e, D h e → D (before ++ h) e

variable {D D' : List (Answered σ ε) → ε → Prop}

instance : Lasting (Relayed : List (Answered σ ε) → ε → Prop) where
  append := by
    rintro before h e ⟨c, hc⟩
    exact ⟨c, List.mem_append_right before hc⟩

theorem Raises.mono {p : Program σ ε α} (hp : p.Raises D) (hD : ∀ h e, D h e → D' h e) : p.Raises D' :=
  fun h e hraised => hD h e (hp h e hraised)

theorem Raises.ret (a : α) : (.ret a : Program σ ε α).Raises D := by
  rintro h e ⟨-, he⟩
  cases he

theorem Raises.fail {e : ε} (hD : D [] e) : (.fail e : Program σ ε α).Raises D := by
  rintro h e' ⟨rfl, he⟩
  cases he
  exact hD

theorem Raises.perform {c : σ.Call} (hD : ∀ e, D [⟨c, .error e⟩] e) :
    (perform c : Program σ ε (σ.Value c)).Raises D := by
  intro h e hraised
  rw [answers_perform.mp hraised]
  exact hD e

theorem relayed_perform (c : σ.Call) : (perform c : Program σ ε (σ.Value c)).Raises Relayed :=
  .perform fun _ => ⟨c, List.mem_singleton_self _⟩

theorem Raises.bind_after {p : Program σ ε β} {f : β → Program σ ε α} (hp : p.Raises D)
    (hf : ∀ before b, p.Answers before (.ok b) → ∀ after e, (f b).Answers after (.error e) → D (before ++ after) e) :
    (p >>= f).Raises D := by
  intro h e hraised
  obtain ⟨e', hfirst, he⟩ | ⟨b, before, after, rfl, hfirst, hsecond⟩ := answers_bind.mp hraised
  · cases he
    exact hp h e hfirst
  · exact hf before b hfirst after e hsecond

theorem Raises.bind [Lasting D] {p : Program σ ε β} {f : β → Program σ ε α} (hp : p.Raises D)
    (hf : ∀ b, (f b).Raises D) : (p >>= f).Raises D :=
  hp.bind_after fun before b _ after e hraised => Lasting.append before after e (hf b after e hraised)

theorem Raises.handle {p : Program σ ε α} {handler : ε → Program σ ε α} (hp : p.Raises D')
    (hh : ∀ before e, D' before e → ∀ after e', (handler e).Answers after (.error e') → D (before ++ after) e') :
    (p.handle handler).Raises D := by
  intro h e hraised
  obtain ⟨a, -, ha⟩ | ⟨e', before, after, rfl, hfirst, hhandler⟩ := answers_handle.mp hraised
  · cases ha
  · exact hh before e' (hp before e' hfirst) after e hhandler

theorem Raises.handle_some [Lasting D] {p : Program σ ε α} {handler : ε → Program σ ε α} (hp : p.Raises D)
    (hh : ∀ e, handler e = .fail e ∨ (handler e).Raises D) : (p.handle handler).Raises D := by
  refine hp.handle fun before e hD after e' hraised => ?_
  rcases hh e with hfail | hraises
  · rw [hfail] at hraised
    obtain ⟨rfl, he⟩ := hraised
    cases he
    rw [List.append_nil]
    exact hD
  · exact Lasting.append before after e' (hraises after e' hraised)

theorem raises_swallow {p : Program σ ε Unit} : (p.handle fun _ => .ret ()).Raises D := by
  intro h e hraised
  cases (answers_swallow.mp hraised).1

theorem answers_lift {τ : Signature} {i : Embedding τ σ} {p : Program τ ε α} (hp : (p.lift i).Answers h out) :
    ∃ own, h = own.map (.lift i) ∧ p.Answers own out := by
  induction p generalizing h with
  | ret a =>
    obtain ⟨rfl, rfl⟩ := hp
    exact ⟨[], rfl, rfl, rfl⟩
  | fail e =>
    obtain ⟨rfl, rfl⟩ := hp
    exact ⟨[], rfl, rfl, rfl⟩
  | call c next ih =>
    obtain ⟨r, rest, rfl, hrest⟩ := hp
    obtain ⟨own, rfl, hown⟩ := ih _ hrest
    refine ⟨⟨c, r.map (i.value c)⟩ :: own, ?_, _, own, rfl, hown⟩
    cases r <;> simp [Answered.lift, Except.map]

theorem Raises.lift {τ : Signature} {i : Embedding τ σ} {p : Program τ ε α} (hp : p.Raises Relayed) :
    (p.lift i).Raises Relayed := by
  intro h e hraised
  obtain ⟨own, rfl, hown⟩ := answers_lift hraised
  obtain ⟨c, hc⟩ := hp own e hown
  exact ⟨i.call c, List.mem_map.mpr ⟨_, hc, rfl⟩⟩

theorem Answers.follows {p : Program σ ε α} (hp : p.Answers h out) : p.Follows h (.ofExcept out) := by
  induction p generalizing h with
  | ret a =>
    obtain ⟨rfl, rfl⟩ := hp
    exact .nil _
  | fail e =>
    obtain ⟨rfl, rfl⟩ := hp
    exact .nil _
  | call c next ih =>
    obtain ⟨r, rest, rfl, hrest⟩ := hp
    exact .cons (ih r hrest)

theorem always_answers {S : Type} {sem : Semantics σ ε S} (p : Program σ ε α) (s : S × List (Answered σ ε)) :
    p.Always sem.recorded (fun _ _ => True) (fun out s' => ∃ own, p.Answers own out ∧ s'.2 = s.2 ++ own) s := by
  induction p generalizing s with
  | ret a => exact ⟨[], ⟨rfl, rfl⟩, (List.append_nil _).symm⟩
  | fail e => exact ⟨[], ⟨rfl, rfl⟩, (List.append_nil _).symm⟩
  | call c next ih =>
    refine ⟨trivial, fun r s' hstep => (ih r s').mono (fun _ _ h => h) fun out s'' hown => ?_⟩
    obtain ⟨own, hanswers, hrecord⟩ := hown
    refine ⟨⟨c, r⟩ :: own, ⟨r, own, rfl, hanswers⟩, ?_⟩
    rw [hrecord, hstep.2, List.append_assoc, List.singleton_append]

theorem Raises.always {S : Type} {sem : Semantics σ ε S} [Lasting D] {p : Program σ ε α} (hp : p.Raises D)
    (s : S × List (Answered σ ε)) :
    p.Always sem.recorded (fun _ _ => True) (fun out s' => ∀ e, out = .error e → D s'.2 e) s := by
  refine (always_answers p s).mono (fun _ _ h => h) fun out s' hown e he => ?_
  obtain ⟨own, hanswers, hrecord⟩ := hown
  subst he
  rw [hrecord]
  exact Lasting.append s.2 own e (hp own e hanswers)

theorem Reaches.answers {S : Type} {sem : Semantics σ ε S} {p : Program σ ε α} {s s' : S}
    (hreaches : p.Reaches sem s h (.ofExcept out) s') : p.Answers h out := by
  generalize hq : (ofExcept out : Program σ ε α) = q at hreaches
  induction hreaches with
  | here p s =>
    subst hq
    cases out <;> exact ⟨rfl, rfl⟩
  | call step rest ih => exact ⟨_, _, rfl, ih hq⟩

end Raises

section Series

/-- The programs of a list, one after another, to the first that fails. -/
def each (f : β → Program σ ε Unit) : List β → Program σ ε Unit
  | [] => return ()
  | b :: bs => do
    f b
    each f bs

/-- Items with the traces of their programs, all of which succeed. -/
def AllDone (f : β → Program σ ε Unit) (done : List (β × List (Answered σ ε))) : Prop :=
  ∀ item ∈ done, (f item.1).Answers item.2 (.ok ())

/-- A series ends well with the traces of all its items, or fails in one of them, and then none of the later
ones has been begun. -/
theorem answers_each {f : β → Program σ ε Unit} {bs : List β} {out : Except ε Unit} :
    (each f bs).Answers h out ↔ ∃ done, AllDone f done ∧
      (out = .ok () ∧ bs = done.map Prod.fst ∧ h = (done.map Prod.snd).flatten ∨
        ∃ b rest last e, out = .error e ∧ bs = done.map Prod.fst ++ b :: rest ∧
          h = (done.map Prod.snd).flatten ++ last ∧ (f b).Answers last (.error e)) := by
  induction bs generalizing h with
  | nil =>
    constructor
    · rintro ⟨rfl, rfl⟩
      exact ⟨[], List.forall_mem_nil _, .inl ⟨rfl, rfl, rfl⟩⟩
    · rintro ⟨done, -, ⟨rfl, hbs, rfl⟩ | ⟨b, rest, last, e, -, hbs, -⟩⟩
      · rw [List.map_eq_nil_iff.mp hbs.symm]
        exact ⟨rfl, rfl⟩
      · simp at hbs
  | cons b bs ih =>
    rw [each, answers_bind]
    constructor
    · rintro (⟨e, hb, rfl⟩ | ⟨_, before, after, rfl, hb, hrest⟩)
      · exact ⟨[], List.forall_mem_nil _, .inr ⟨b, bs, h, e, rfl, rfl, rfl, hb⟩⟩
      · obtain ⟨done, hdone, hout⟩ := ih.mp hrest
        refine ⟨(b, before) :: done, List.forall_mem_cons.mpr ⟨hb, hdone⟩, ?_⟩
        obtain ⟨rfl, rfl, rfl⟩ | ⟨c, rest, last, e, rfl, rfl, rfl, hc⟩ := hout
        · exact .inl ⟨rfl, rfl, rfl⟩
        · exact .inr ⟨c, rest, last, e, rfl, rfl, by simp, hc⟩
    · rintro ⟨done, hdone, hout⟩
      cases done with
      | nil =>
        obtain ⟨-, hbs, -⟩ | ⟨c, rest, last, e, rfl, hbs, rfl, hc⟩ := hout
        · simp at hbs
        · cases hbs
          exact .inl ⟨e, hc, rfl⟩
      | cons item done =>
        obtain ⟨hitem, hdone⟩ := List.forall_mem_cons.mp hdone
        obtain ⟨rfl, hbs, rfl⟩ | ⟨c, rest, last, e, rfl, hbs, rfl, hc⟩ := hout
        · cases hbs
          exact .inr ⟨(), _, _, rfl, hitem, ih.mpr ⟨done, hdone, .inl ⟨rfl, rfl, rfl⟩⟩⟩
        · cases hbs
          refine .inr ⟨(), item.2, (done.map Prod.snd).flatten ++ last, by simp, hitem, ih.mpr ?_⟩
          exact ⟨done, hdone, .inr ⟨c, rest, last, e, rfl, rfl, rfl, hc⟩⟩

/-- A program tried so many times, until it succeeds; what the last try raises is raised. -/
def tried (p : Program σ ε Unit) : Nat → Program σ ε Unit
  | 0 => return ()
  | 1 => p
  | n + 2 => p.handle fun _ => tried p (n + 1)

/-- The tries before the last have failed, and all of them have been made if the last fails too. -/
theorem answers_tried {p : Program σ ε Unit} {n : Nat} {out : Except ε Unit} :
    (tried p (n + 1)).Answers h out ↔ ∃ fails last, h = List.flatten fails ++ last ∧ fails.length ≤ n ∧
      (∀ failed ∈ fails, ∃ e, p.Answers failed (.error e)) ∧ p.Answers last out ∧
        (out ≠ .ok () → fails.length = n) := by
  induction n generalizing h with
  | zero =>
    constructor
    · intro hp
      exact ⟨[], h, rfl, Nat.le_refl 0, List.forall_mem_nil _, hp, fun _ => rfl⟩
    · rintro ⟨fails, last, rfl, hlen, -, hp, -⟩
      rw [List.length_eq_zero_iff.mp (Nat.le_zero.mp hlen)]
      exact hp
  | succ n ih =>
    rw [tried, answers_handle]
    constructor
    · rintro (⟨a, hp, rfl⟩ | ⟨e, before, after, rfl, hp, hrest⟩)
      · exact ⟨[], h, rfl, Nat.zero_le _, List.forall_mem_nil _, hp, fun hout => absurd rfl hout⟩
      · obtain ⟨fails, last, rfl, hlen, hfails, hlast, hall⟩ := ih.mp hrest
        refine ⟨before :: fails, last, by simp, Nat.succ_le_succ hlen, ?_, hlast, fun hout => ?_⟩
        · exact List.forall_mem_cons.mpr ⟨⟨e, hp⟩, hfails⟩
        · rw [List.length_cons, hall hout]
    · rintro ⟨fails, last, rfl, hlen, hfails, hlast, hall⟩
      cases fails with
      | nil =>
        cases out with
        | ok a => exact .inl ⟨a, hlast, rfl⟩
        | error e =>
          have hzero := hall (by simp)
          simp at hzero
      | cons failed fails =>
        obtain ⟨⟨e, hfailed⟩, hfails⟩ := List.forall_mem_cons.mp hfails
        refine .inr ⟨e, failed, fails.flatten ++ last, by simp, hfailed, ih.mpr ?_⟩
        refine ⟨fails, last, rfl, Nat.le_of_succ_le_succ hlen, hfails, hlast, fun hout => ?_⟩
        simpa using hall hout

end Series

end Program

end Effects

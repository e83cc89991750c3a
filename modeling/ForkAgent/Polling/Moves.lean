import ForkAgent.Polling.Cap

/-!
# Moves of a run

A status update is refused when the run it reads cannot make the transition. A program moves a run
from one status to another when, started with the run in the first, no update of it is refused and
the run ends in the second. Such programs compose.
-/

namespace ForkAgent.Polling

open Effects Storage Launch

variable {H : Fpel.Hashing}

abbrev Answers (H : Fpel.Hashing) := List (Answered (worldSignature H) Exn)

/-- The answer of a read that found the run. -/
def foundRun (id : String) (run : PollRun) : Answered (worldSignature H) Exn :=
  .ok (.inl (.getById id)) (some run)

/-- The last answer is a read that found a run, and the error says that the run cannot make a
transition: an update was refused. -/
def RefusedWith (answers : Answers H) (e : Exn) : Prop :=
  ∃ id run status, answers.getLast? = some (foundRun id run) ∧ e = invalidTransition run status

/-- The operation stands at the error of a refused update. -/
def RefusedUpdate {α : Type} (answers : Answers H) (rest : PollingProgram H α) : Prop :=
  ∃ e, rest = .fail e ∧ RefusedWith answers e

/-- The last answer is none that an update is refused after. -/
def Clean (answers : Answers H) : Prop := ∀ e, ¬ RefusedWith answers e

theorem clean_append {a : Answered (worldSignature H) Exn} (ha : ∀ id run, a ≠ foundRun id run)
    (answers : Answers H) : Clean (answers ++ [a]) := by
  rintro e ⟨id, run, status, hlast, -⟩
  rw [List.getLast?_concat] at hlast
  exact ha _ _ (Option.some.inj hlast)

theorem clean_append_error (c : (worldSignature H).Call) (e : Exn) (answers : Answers H) :
    Clean (answers ++ [⟨c, .error e⟩]) := by
  refine clean_append (fun id run h => ?_) answers
  cases h

section Moves

variable {S : Type} {sem : Semantics (worldSignature H) Exn S} {runs : S → PollStore} {α β : Type}

/-- The row of the run, if it is there, has this status. -/
def At (id : String) (status : PollRunStatus) (s : PollStore) : Prop :=
  ∀ r ∈ s.pollRuns, r.id = id → r.status = status

/-- If the answers meet the condition, no update of the program was refused. -/
def Unrefused (sem : Semantics (worldSignature H) Exn S) (C : Answers H → Prop)
    (p : PollingProgram H α) (s : S × Answers H) : Prop :=
  p.Always sem.recorded (fun _ _ => True)
    (fun out s' => ∀ e, out = .error e → C s'.2 → ¬ RefusedWith s'.2 e) s

/-- From this state the program has no update refused, and it leaves the run in the status. -/
def Lands (sem : Semantics (worldSignature H) Exn S) (runs : S → PollStore) (id : String)
    (b : PollRunStatus) (p : PollingProgram H α) (s : S × Answers H) : Prop :=
  p.Always sem.recorded (fun _ _ => True)
    (fun out s' => (∀ v, out = .ok v → At id b (runs s'.1)) ∧ ∀ e, out = .error e → Clean s'.2) s

/-- Started with the run in the first status, the program has no update refused and leaves the run
in the second status. -/
def Moves (sem : Semantics (worldSignature H) Exn S) (runs : S → PollStore) (id : String)
    (a b : PollRunStatus) (p : PollingProgram H α) : Prop :=
  ∀ s : S × Answers H, At id a (runs s.1) → Lands sem runs id b p s

variable {id : String} {a b c : PollRunStatus} {C : Answers H → Prop} {s : S × Answers H}

theorem Moves.unrefused {p : PollingProgram H α} (hp : Moves sem runs id a b p)
    (hs : At id a (runs s.1)) : Unrefused sem C p s :=
  (hp s hs).mono (fun _ _ h => h) fun _ _ h e he _ => h.2 e he e

theorem Moves.bind {p : PollingProgram H β} {f : β → PollingProgram H α}
    (hp : Moves sem runs id a b p) (hf : ∀ v, Moves sem runs id b c (f v)) :
    Moves sem runs id a c (p >>= f) := by
  intro s hs
  refine (hp s hs).bind (fun v s' h => hf v s' (h.1 v rfl)) fun e s' h => ⟨nofun, ?_⟩
  rintro _ ⟨rfl⟩
  exact h.2 e rfl

theorem Moves.ret (v : α) : Moves sem runs id a a (.ret v : PollingProgram H α) :=
  fun _ hs => ⟨fun _ _ => hs, nofun⟩

theorem Unrefused.ret (v : α) : Unrefused sem C (.ret v : PollingProgram H α) s := nofun

theorem Unrefused.always_bind {Q : Except Exn β → S × Answers H → Prop} {p : PollingProgram H β}
    {f : β → PollingProgram H α} (hp : p.Always sem.recorded (fun _ _ => True) Q s)
    (hok : ∀ v s', Q (.ok v) s' → Unrefused sem C (f v) s')
    (herror : ∀ e s', Q (.error e) s' → C s'.2 → ¬ RefusedWith s'.2 e) :
    Unrefused sem C (p >>= f) s := by
  refine Program.Always.bind hp hok fun e s' h => ?_
  rintro _ ⟨rfl⟩
  exact herror e s' h

theorem Moves.then {p : PollingProgram H β} {f : β → PollingProgram H α}
    (hp : Moves sem runs id a b p) (hs : At id a (runs s.1))
    (hf : ∀ v s, At id b (runs s.1) → Unrefused sem C (f v) s) : Unrefused sem C (p >>= f) s :=
  .always_bind (hp s hs) (fun v s' h => hf v s' (h.1 v rfl)) fun e _ h _ => h.2 e rfl e

theorem Unrefused.bind {p : PollingProgram H β} {f : β → PollingProgram H α}
    (hp : Unrefused sem C p s) (hf : ∀ v s, Unrefused sem C (f v) s) :
    Unrefused sem C (p >>= f) s := by
  exact .always_bind hp (fun v s' _ => hf v s') fun e s' h => h e rfl

theorem Unrefused.pollCall_bind {c : PollCall} (hc : ∀ id, c ≠ .getById id)
    {f : c.Value → PollingProgram H α}
    (hf : ∀ v s', sem ⟨.inl c, .ok v⟩ s.1 s'.1 → s'.2 = s.2 ++ [⟨.inl c, .ok v⟩] →
      Clean s'.2 → Unrefused sem C (f v) s') :
    Unrefused sem C (Polling.pollCall c >>= f) s := by
  refine (always_pollCall_bind _ _).mpr ⟨trivial, fun v s' h => hf v s' h.1 h.2 ?_, ?_⟩
  · rw [h.2]
    refine clean_append (fun id run heq => ?_) _
    cases heq
    exact hc _ rfl
  · intro e s' h e' _ _
    rw [h.2]
    exact clean_append_error _ _ _ e'

theorem unrefused_pollCall (c : PollCall) : Unrefused sem C (pollCall c) s := by
  refine always_pollCall.mpr ⟨trivial, fun answer s' h => ?_⟩
  rintro e rfl -
  rw [h.2]
  exact clean_append_error _ _ _ e

theorem quiet_clean {p : PollingProgram H α} (hp : p.OnlyCalls Quiet) (hs : Clean s.2) :
    p.Always sem.recorded (fun _ _ => True) (fun _ s' => Clean s'.2) s := by
  have hkept : p.Respects sem.recorded fun s s' => Clean s.2 → Clean s'.2 := by
    refine hp.respects (fun _ h => h) (fun _ _ _ h h' hs => h' (h hs)) ?_
    intro c r s s' hc h _
    rw [h.2]
    refine clean_append (fun id run heq => ?_) _
    cases heq
    cases hc
  exact hkept.always s (fun _ _ _ => trivial) fun _ _ h => h hs

theorem Unrefused.quiet_bind {p : PollingProgram H β} {f : β → PollingProgram H α}
    (hp : p.OnlyCalls Quiet) (hs : Clean s.2)
    (hf : ∀ v s', Clean s'.2 → Unrefused sem C (f v) s') : Unrefused sem C (p >>= f) s :=
  .always_bind (quiet_clean hp hs) (fun v s' h => hf v s' h) fun e _ h _ => h e

theorem Unrefused.ofExcept_bind {x : Except Exn β} {f : β → PollingProgram H α} (hs : Clean s.2)
    (hf : ∀ v, x = .ok v → Unrefused sem C (f v) s) : Unrefused sem C (.ofExcept x >>= f) s :=
  (Program.always_ofExcept_bind _ _).mpr ⟨hf, fun _ _ e _ _ => hs e⟩

theorem quiet_recorded (hsem : RunTable sem runs) {p : PollingProgram H α} (hp : p.OnlyCalls Quiet)
    (hfail : ∀ e, p ≠ .fail e) :
    p.Always sem.recorded (fun _ _ => True)
      (fun out s' => runs s'.1 = runs s.1 ∧ ∀ e, out = .error e → Clean s'.2) s := by
  have hclean : p.Always sem.recorded (fun _ _ => True)
      (fun out s' => ∀ e, out = .error e → Clean s'.2) s := by
    cases p with
    | ret v => exact nofun
    | fail e => exact absurd rfl (hfail e)
    | call c next =>
      refine ⟨trivial, fun r s₁ hstep => ?_⟩
      refine (quiet_clean (hp.2 r) ?_).mono (fun _ _ h => h) fun _ _ h _ _ => h
      rw [hstep.2]
      refine clean_append (fun id run heq => ?_) _
      cases heq
      exact nomatch hp.1
  exact ((quiet_same hsem.recorded hp s).and hclean).mono (fun _ _ _ => trivial) fun _ _ h => h

theorem appendStamped_ne_fail (id : String) (event : Int → Fields) (e : Exn) :
    (appendStamped id event : PollingProgram H Unit) ≠ .fail e := nofun

theorem terminateLaunchHandle_ne_fail (handle : LaunchHandle) (e : Exn) :
    (terminateLaunchHandle handle : PollingProgram H Unit) ≠ .fail e := by
  unfold terminateLaunchHandle
  split
  · split_ifs
    · nofun
    · nofun
  · nofun
  · nofun
  · nofun

section Table

variable (hsem : RunTable sem runs)
include hsem

theorem Moves.quiet {p : PollingProgram H α} (hp : p.OnlyCalls Quiet) (hfail : ∀ e, p ≠ .fail e) :
    Moves sem runs id a a p := by
  intro s hs
  refine (quiet_recorded hsem hp hfail).mono (fun _ _ h => h) fun out s' h => ⟨fun _ _ => ?_, h.2⟩
  rw [h.1]
  exact hs

theorem Moves.surroundings {p : PollingProgram H α} (hp : p.OnlyCalls Surroundings)
    (hfail : ∀ e, p ≠ .fail e) : Moves sem runs id a a p :=
  .quiet hsem (quiet_of_surroundings hp) hfail

theorem Moves.pollCall {c : PollCall} (hc : c.isWrite = false) :
    Moves sem runs id a a (Polling.pollCall c) := by
  intro s hs
  refine always_pollCall.mpr ⟨trivial, fun answer s' h => ⟨fun _ _ => ?_, ?_⟩⟩
  · rw [PollStore.step_eq (hsem.poll h.1) hc]
    exact hs
  · rintro e rfl
    rw [h.2]
    exact clean_append_error _ _ _

theorem Moves.getById_bind {f : Option PollRun → PollingProgram H α}
    (hsome : ∀ run, run.val.id = id → run.val.status = a → Moves sem runs id a b (f (some run)))
    (hnone : ∀ s : S × Answers H, At id b (runs s.1) → Clean s.2 → Lands sem runs id b (f none) s) :
    Moves sem runs id a b (Polling.pollCall (.getById id) >>= f) := by
  intro s hs
  refine (always_pollCall_bind _ _).mpr ⟨trivial, fun current s₁ h => ?_, fun e s₁ h => ⟨nofun, ?_⟩⟩
  swap
  · intro _ _
    rw [h.2]
    exact clean_append_error _ _ _
  cases current with
  | none =>
    obtain ⟨hstore, habsent⟩ := PollStore.getById_none (hsem.poll h.1)
    refine hnone s₁ ?_ ?_
    · rw [hstore]
      exact fun r hr hid => absurd hid (habsent r hr)
    · rw [h.2]
      exact clean_append (fun id run heq => by cases heq) _
  | some run =>
    obtain ⟨hstore, hmem, hid⟩ := PollStore.getById_some (hsem.poll h.1)
    refine hsome run hid (hs _ hmem hid) s₁ ?_
    rw [hstore]
    exact hs

theorem write_moves (errorMessage : Option String) :
    Moves sem runs id a b (Polling.pollCall .timeMs >>= fun now =>
      Polling.pollCall (.updateRow id b (Int.ofNat now) errorMessage)) := by
  refine .bind (.pollCall hsem rfl) fun now s hs => ?_
  refine (always_pollCall (c := .updateRow id b (Int.ofNat now) errorMessage)).mpr
    ⟨trivial, fun answer s₁ h => ⟨?_, ?_⟩⟩
  swap
  · rintro e rfl
    rw [h.2]
    exact clean_append_error _ _ _
  rintro ⟨⟩ rfl
  rcases PollStore.updateRow_cases (hsem.poll h.1) with ⟨hstore, -⟩ | ⟨-, e, he⟩
  swap
  · cases he
  rw [hstore]
  intro r hr hid
  obtain ⟨r₀, -, rfl⟩ := List.mem_map.mp hr
  by_cases h₀ : r₀.id = id
  · simp [h₀]
  · simp [h₀] at hid

theorem updateStatus_moves (h : b ∈ a.validTransitions) (errorMessage : Option String) :
    Moves sem runs id a b (updateStatus id b errorMessage) := by
  refine .getById_bind hsem (fun run _ hstatus => ?_)
    fun s hs _ => write_moves hsem errorMessage s hs
  have hvalid : validateTransition (some run) b = .ok () := by
    simp [validateTransition, require, PollRun.canTransitionTo, hstatus, h]
  simp only [hvalid]
  exact write_moves hsem errorMessage

theorem recordLaunchMetadata_moves (handle : LaunchHandle) (launchId : Option String) :
    Moves sem runs id a a (recordLaunchMetadata id handle launchId) := by
  refine .bind (.pollCall hsem rfl) fun now s hs => ?_
  refine (always_pollCall (c := .recordLaunchMetadata id handle (Int.ofNat now) launchId)).mpr
    ⟨trivial, fun answer s₁ h => ⟨fun _ _ => ?_, ?_⟩⟩
  swap
  · rintro e rfl
    rw [h.2]
    exact clean_append_error _ _ _
  rcases hsem.poll h.1 with ⟨-, hstore⟩ | ⟨hstore, -⟩
  swap
  · rw [hstore]
    exact hs
  rw [hstore]
  intro r hr hid
  obtain ⟨r₀, hr₀, rfl⟩ := List.mem_map.mp hr
  split_ifs at hid ⊢ <;> exact hs r₀ hr₀ hid

theorem requireRun_moves (gone : String) : Moves sem runs id a a (requireRun id gone) := by
  refine .getById_bind hsem (fun run _ _ => .ret run) fun s _ hclean => ?_
  dsimp only
  exact ⟨fun _ h => (by cases h), fun _ _ => hclean⟩

theorem updateStatusTo_moves {target : Option PollRunStatus}
    (h : ∀ status ∈ target, status ∈ a.validTransitions) :
    Moves sem runs id a (target.getD a) (updateStatusTo id target) := by
  cases target with
  | none => exact .ret ()
  | some status => exact updateStatus_moves hsem (h status rfl) none

/-- The cleanup moves a run unless it is spawning: that move is not one of its transitions. -/
theorem terminateSpawnedAgent_moves
    (h : ∀ status ∈ terminationStatus a, status ∈ a.validTransitions) :
    Moves sem runs id a ((terminationStatus a).getD a) (terminateSpawnedAgent id) := by
  refine .getById_bind hsem (fun run _ hstatus => ?_)
    fun s hs _ => Moves.surroundings hsem (terminateFromEvents_surroundings id) nofun s hs
  dsimp only
  rw [hstatus]
  refine .bind (updateStatusTo_moves hsem h) fun _ => ?_
  cases launchHandleFromRun run with
  | none => exact .surroundings hsem (terminateFromEvents_surroundings id) nofun
  | some handle =>
    exact .surroundings hsem (terminateLaunchHandle_surroundings handle)
      (terminateLaunchHandle_ne_fail handle)

end Table

end Moves

end ForkAgent.Polling

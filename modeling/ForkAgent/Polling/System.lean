import ForkAgent.Effects.Serial
import ForkAgent.Polling.Service

/-!
# One poller

The poller against the world: other services use the launch registry and the task board between
any two of its calls, and no one else writes poll runs. What a helper of the service does to the
table is one relation: each row moves along the transitions of its status, and only the row of
the run that the helper is about moves at all.
-/

namespace ForkAgent.Polling

open Effects Storage Launch

inductive PollingOp where
  | pollOnce
  | checkRuns
  | cancelRun (runId : String)

def PollingOp.Result : PollingOp → Type
  | pollOnce => List PollRun
  | checkRuns => List (Option PollRun)
  | cancelRun _ => PollRun

section System

variable (H : Fpel.Hashing) (svc : AgentPollingService)

def PollingOp.program : (o : PollingOp) → PollingProgram H o.Result
  | pollOnce => Polling.pollOnce svc
  | checkRuns => Polling.checkRuns svc
  | cancelRun runId => Polling.cancelRun runId

/-- A call of another service, or the report of a checker. -/
def others (w w' : World) : Prop :=
  w'.1 = w.1 ∧
    ((∃ a, Semantics.sum LaunchStore.step
        (Semantics.sum TaskBoard.TaskStore.step (Fpel.FpelStore.step H)) a w.2 w'.2) ∨
      w'.2.1 = w.2.1 ∧ w'.2.2.1 = w.2.2.1 ∧
        ∃ report, w.2.2.2.insertReport report = .ok w'.2.2.2)

def pollingSystem : System (worldSignature H) Exn (World) where
  Op := PollingOp
  Result := PollingOp.Result
  program := PollingOp.program H svc
  step := step H
  outside := others H
  initial w := w = ({}, {}, {}, {})

end System

variable {H : Fpel.Hashing} {S : Type}

/-- The table of poll runs as a part of a larger state, which only the calls on it change. -/
structure RunTable (sem : Semantics (worldSignature H) Exn S) (runs : S → PollStore) : Prop where
  poll : ∀ {c r s s'}, sem ⟨.inl c, r⟩ s s' → PollStore.step ⟨c, r⟩ (runs s) (runs s')
  other : ∀ {c r s s'}, sem ⟨.inr c, r⟩ s s' → runs s' = runs s

theorem runs_of_others {w w' : World} (h : Relation.ReflTransGen (others H) w w') :
    w'.1 = w.1 := by
  induction h with
  | refl => rfl
  | tail _ hstep ih => rw [hstep.1, ih]

theorem RunTable.step : RunTable (Polling.step H) (·.1) where
  poll h := h.1
  other h := h.2

theorem RunTable.disturbed {svc : AgentPollingService} :
    RunTable (pollingSystem H svc).disturbed (·.1) where
  poll := by
    rintro c r w w' ⟨w₁, houtside, hstep⟩
    rw [← runs_of_others houtside]
    exact hstep.1
  other := by
    rintro c r w w' ⟨w₁, houtside, hstep⟩
    rw [← runs_of_others houtside]
    exact hstep.2

theorem RunTable.recorded {sem : Semantics (worldSignature H) Exn S} {runs : S → PollStore}
    (h : RunTable sem runs) : RunTable sem.recorded (fun s => runs s.1) where
  poll hstep := h.poll hstep.1
  other hstep := h.other hstep.1

/-- The calls that write the table. -/
def PollCall.isWrite : PollCall → Bool
  | .save _ | .updateRow .. | .recordLaunchMetadata .. => true
  | _ => false

theorem PollStore.step_eq {c : PollCall} {r : Except Exn c.Value} {s s' : PollStore}
    (h : PollStore.step ⟨c, r⟩ s s') (hc : c.isWrite = false) : s' = s := by
  rcases h with h | ⟨rfl, -⟩
  · cases c <;> first | exact h | exact h.1 | cases hc
  · rfl

theorem PollStore.save_unique {s : PollStore} (hs : UniqueOn runId s.pollRuns) (run : PollRun) :
    UniqueOn runId (s.save run).pollRuns := by
  refine (hs.filter _).insert (conflicts_eq_false.mpr fun r hr k hk => ?_)
  have hconflict := (List.mem_filter.mp hr).2
  simp only [Bool.not_or, Bool.and_eq_true, Bool.not_eq_true'] at hconflict
  exact conflicts_eq_false.mp hconflict.1 r (List.mem_singleton_self r) k hk

/-- The statuses that a run can get from a status. -/
def Advances : PollRunStatus → PollRunStatus → Prop :=
  Relation.ReflTransGen fun a b => b ∈ a.validTransitions

theorem Advances.isLaunchBlocking {a b : PollRunStatus} (h : Advances a b)
    (hb : b.isLaunchBlocking = true) : a.isLaunchBlocking = true := by
  induction h with
  | refl => exact hb
  | tail _ hstep ih => exact ih (PollRunStatus.isLaunchBlocking_of_transition hstep)

/-- Every row keeps its run and its task and moves along the transitions; only the row of the one
run moves. -/
def Evolves (id : String) (s s' : PollStore) : Prop :=
  UniqueOn PollStore.runId s.pollRuns → ∃ f, s'.pollRuns = s.pollRuns.map f ∧
    ∀ r ∈ s.pollRuns, (f r).id = r.id ∧ (f r).taskId = r.taskId ∧
      Advances r.status (f r).status ∧ (r.id ≠ id → f r = r)

theorem Evolves.refl (id : String) (s : PollStore) : Evolves id s s :=
  fun _ => ⟨fun r => r, by simp, fun _ _ => ⟨rfl, rfl, .refl, fun _ => rfl⟩⟩

theorem Evolves.of_eq {id : String} {s s' : PollStore} (h : s' = s) : Evolves id s s' := by
  rw [h]
  exact .refl id s

theorem Evolves.unique {id : String} {s s' : PollStore} (h : Evolves id s s')
    (hs : UniqueOn PollStore.runId s.pollRuns) : UniqueOn PollStore.runId s'.pollRuns := by
  obtain ⟨f, hf, hrows⟩ := h hs
  rw [hf]
  exact hs.map fun r hr => by simp only [PollStore.runId, (hrows r hr).1]

theorem Evolves.trans {id : String} {a b c : PollStore} (h : Evolves id a b) (h' : Evolves id b c) :
    Evolves id a c := by
  intro ha
  obtain ⟨f, hf, hrows⟩ := h ha
  obtain ⟨g, hg, hrows'⟩ := h' (h.unique ha)
  refine ⟨g ∘ f, by rw [hg, hf, List.map_map], fun r hr => ?_⟩
  obtain ⟨hid, htask, hstatus, hother⟩ := hrows r hr
  obtain ⟨hid', htask', hstatus', hother'⟩ := hrows' (f r) (by rw [hf]; exact List.mem_map_of_mem hr)
  refine ⟨hid'.trans hid, htask'.trans htask, hstatus.trans hstatus', fun hne => ?_⟩
  have hfr := hother hne
  simp only [Function.comp_apply, hfr]
  rw [hfr] at hother'
  exact hother' hne

theorem Evolves.withStatus {s : PollStore} {run : PollRunFields} {status : PollRunStatus}
    (hrun : run ∈ s.pollRuns) (hstatus : status ∈ run.status.validTransitions) (now : Int)
    (errorMessage : Option String) : Evolves run.id s (s.withStatus run.id status now errorMessage) := by
  intro hunique
  refine ⟨fun r => if r.id == run.id then PollStore.set status now errorMessage r else r, rfl, ?_⟩
  intro r hr
  by_cases hid : r.id = run.id
  · have heq : r = run := hunique.eq_of_mem hr hrun rfl (by simp [PollStore.runId, hid])
    subst heq
    simp only [beq_self_eq_true, if_true, PollStore.set_id, PollStore.set_taskId,
      PollStore.set_status, ne_eq, not_true_eq_false, false_implies, and_true, true_and]
    exact .single hstatus
  · have hsame : (r.id == run.id) = false := by simp [hid]
    simp only [hsame, Bool.false_eq_true, if_false]
    exact ⟨trivial, trivial, .refl, fun _ => trivial⟩

theorem PollStore.withStatus_of_not_mem {s : PollStore} {id : String}
    (h : ∀ r ∈ s.pollRuns, r.id ≠ id) (status : PollRunStatus) (now : Int)
    (errorMessage : Option String) : s.withStatus id status now errorMessage = s := by
  have hrows : updateWhere (fun r => r.id == id) (set status now errorMessage) s.pollRuns =
      s.pollRuns := by
    unfold updateWhere
    conv_rhs => rw [← List.map_id s.pollRuns]
    exact List.map_congr_left fun r hr => by simp [h r hr]
  unfold withStatus
  rw [hrows]

theorem Evolves.recordLaunchMetadata (s : PollStore) (id : String) (handle : LaunchHandle)
    (now : Int) (launchId : Option String) :
    Evolves id s (s.recordLaunchMetadata id handle now launchId) := by
  intro _
  refine ⟨fun r => if r.id == id then PollStore.setMetadata handle now launchId r else r, rfl, ?_⟩
  intro r hr
  by_cases hid : r.id = id
  · simp only [hid, beq_self_eq_true, if_true, ne_eq, not_true_eq_false, false_implies, and_true]
    exact ⟨hid, rfl, .refl⟩
  · have hsame : (r.id == id) = false := by simp [hid]
    simp only [hsame, Bool.false_eq_true, if_false]
    exact ⟨trivial, trivial, .refl, fun _ => trivial⟩

theorem PollStore.getById_ok {id : String} {current : Option PollRun} {s s' : PollStore}
    (h : PollStore.step (.ok (.getById id) current) s s') :
    s' = s ∧ current.map (·.val) = s.pollRuns.find? fun r => r.id == id := by
  rcases h with ⟨rfl, hanswer⟩ | ⟨-, m, hm⟩
  swap
  · cases hm
  refine ⟨rfl, ?_⟩
  cases hfind : s'.pollRuns.find? fun r => r.id == id with
  | none =>
    rw [hfind] at hanswer
    cases Except.ok.inj hanswer
    rfl
  | some row =>
    rw [hfind] at hanswer
    cases current with
    | none =>
      cases hc : construct PollRunFields.postInit row with
      | error e => simp [hc] at hanswer
      | ok v =>
        simp only [Option.mapM_some, hc] at hanswer
        exact nomatch hanswer
    | some run =>
      obtain ⟨_, heq, hval⟩ := mapM_construct_eq_some.mp hanswer.symm
      cases heq
      exact congrArg some hval

theorem PollStore.getById_some {id : String} {run : PollRun} {s s' : PollStore}
    (h : PollStore.step (.ok (.getById id) (some run)) s s') :
    s' = s ∧ run.val ∈ s.pollRuns ∧ run.val.id = id := by
  obtain ⟨rfl, hfind⟩ := getById_ok h
  have hfound : (s'.pollRuns.find? fun r => r.id == id) = some run.val := hfind.symm
  exact ⟨rfl, List.mem_of_find?_eq_some hfound, by simpa using List.find?_some hfound⟩

theorem PollStore.getById_none {id : String} {s s' : PollStore}
    (h : PollStore.step (.ok (.getById id) none) s s') : s' = s ∧ ∀ r ∈ s.pollRuns, r.id ≠ id := by
  obtain ⟨rfl, hfind⟩ := getById_ok h
  have hnone : (s'.pollRuns.find? fun r => r.id == id) = none := hfind.symm
  exact ⟨rfl, fun r hr => by simpa using List.find?_eq_none.mp hnone r hr⟩

theorem PollStore.updateRow_cases {id : String} {status : PollRunStatus} {now : Int}
    {errorMessage : Option String} {answer : Except Exn Unit} {s s' : PollStore}
    (h : PollStore.step ⟨.updateRow id status now errorMessage, answer⟩ s s') :
    s' = s.withStatus id status now errorMessage ∧ answer = .ok () ∨
      s' = s ∧ ∃ e, answer = .error e := by
  rcases h with h | ⟨rfl, m, hm⟩
  swap
  · exact .inr ⟨rfl, _, hm⟩
  simp only [serve, Transaction, updateRow] at h
  split_ifs at h
  · exact .inr ⟨h.2, _, h.1⟩
  · exact .inl ⟨h.2, h.1⟩

/-- The calls that leave every table alone: the run directory, tmux, processes, clock and ids. -/
def PollCall.isSurroundings : PollCall → Bool
  | .save _ | .getById _ | .listActive | .listLaunchBlocking | .updateRow .. |
    .recordLaunchMetadata .. => false
  | _ => true

def Surroundings (c : (worldSignature H).Call) : Prop := ∃ c', c = .inl c' ∧ c'.isSurroundings = true

section Surroundings

open Program

theorem pollCall_surroundings {c : PollCall} (hc : c.isSurroundings = true) :
    (pollCall c : PollingProgram H c.Value).OnlyCalls Surroundings := .perform ⟨c, rfl, hc⟩

theorem suppressProcessLookup_surroundings {p : PollingProgram H Unit}
    (hp : p.OnlyCalls Surroundings) : (suppressProcessLookup p).OnlyCalls Surroundings := by
  refine .handle hp fun e => ?_
  cases e <;> trivial

theorem terminateProcess_surroundings (target : Int) (group : Bool) :
    (terminateProcess target group : PollingProgram H Unit).OnlyCalls Surroundings := by
  refine .bind (suppressProcessLookup_surroundings (pollCall_surroundings rfl)) fun _ => ?_
  refine .bind (pollCall_surroundings rfl) fun gone => ?_
  cases gone
  · exact suppressProcessLookup_surroundings (pollCall_surroundings rfl)
  · trivial

theorem killPane_surroundings (paneId : String) :
    (killPane paneId : PollingProgram H Unit).OnlyCalls Surroundings := by
  refine .handle (pollCall_surroundings rfl) fun e => ?_
  cases e <;> trivial

theorem terminateLaunchHandle_surroundings (handle : LaunchHandle) :
    (terminateLaunchHandle handle : PollingProgram H Unit).OnlyCalls Surroundings := by
  unfold terminateLaunchHandle
  split
  · split_ifs
    · exact killPane_surroundings _
    · trivial
  · exact terminateProcess_surroundings ..
  · exact terminateProcess_surroundings ..
  · trivial

theorem terminateFromEvents_surroundings (id : String) :
    (terminateFromEvents id : PollingProgram H Unit).OnlyCalls Surroundings := by
  refine .bind (pollCall_surroundings rfl) fun events => ?_
  split
  · trivial
  refine .bind (.ofExcept _) fun handle => ?_
  cases handle with
  | none => trivial
  | some handle => exact terminateLaunchHandle_surroundings handle

theorem spawnPane_surroundings (runDir : String) :
    (spawnPane runDir : PollingProgram H _).OnlyCalls Surroundings := by
  refine .bind (pollCall_surroundings rfl) fun inTmux => ?_
  cases inTmux
  · trivial
  · refine .handle (.bind (pollCall_surroundings rfl) fun _ => trivial) fun e => ?_
    cases e <;> trivial

theorem spawnSubprocess_surroundings (runDir : String) :
    (spawnSubprocess runDir : PollingProgram H _).OnlyCalls Surroundings := by
  refine .bind (.handle (.bind (pollCall_surroundings rfl) fun _ => trivial) fun e => ?_) fun pid => ?_
  · split_ifs <;> trivial
  cases pid with
  | none => trivial
  | some pid =>
    refine .bind (.handle (.bind (pollCall_surroundings rfl) fun _ => trivial) fun e => ?_)
      fun pgid => ?_
    · cases e with
      | processLookupError m =>
        refine .bind (suppressProcessLookup_surroundings (pollCall_surroundings rfl)) fun _ => trivial
      | _ => trivial
    · cases pgid <;> trivial

theorem spawnAgent_surroundings (svc : AgentPollingService) (run : PollRun)
    (taskSubject runDir : String) :
    (spawnAgent svc run taskSubject runDir : PollingProgram H _).OnlyCalls Surroundings := by
  refine .bind (pollCall_surroundings rfl) fun dirExists => ?_
  cases dirExists
  · trivial
  refine .bind (pollCall_surroundings rfl) fun _ => .bind (spawnPane_surroundings runDir) fun handle => ?_
  cases handle with
  | some handle => trivial
  | none =>
    dsimp only
    split_ifs
    · exact spawnSubprocess_surroundings runDir
    · trivial

end Surroundings

/-- The calls that leave the table of poll runs alone. -/
def Quiet : (worldSignature H).Call → Prop
  | .inl c => c.isSurroundings = true
  | .inr _ => True

section Quiet

open Program

variable {α : Type}

theorem quiet_of_surroundings {p : PollingProgram H α} (hp : p.OnlyCalls Surroundings) :
    p.OnlyCalls Quiet := by
  refine hp.mono ?_
  rintro _ ⟨c, rfl, hc⟩
  exact hc

theorem launches_quiet (p : LaunchProgram α) : (launches p : PollingProgram H α).OnlyCalls Quiet := by
  induction p with
  | ret a => trivial
  | fail e => trivial
  | call c next ih => exact ⟨trivial, fun r => ih _⟩

theorem tasks_quiet (p : TaskBoard.BoardProgram H α) : (tasks p).OnlyCalls Quiet := by
  induction p with
  | ret a => trivial
  | fail e => trivial
  | call c next ih => exact ⟨trivial, fun r => ih _⟩

theorem appendStamped_surroundings (id : String) (event : Int → Fields) :
    (appendStamped id event : PollingProgram H Unit).OnlyCalls Surroundings :=
  .bind (pollCall_surroundings rfl) fun _ => pollCall_surroundings rfl

theorem withLaunch_quiet (launchId : Option String) (f : String → LaunchProgram Bool) :
    (withLaunch launchId f : PollingProgram H Unit).OnlyCalls Quiet := by
  cases launchId with
  | none => trivial
  | some launchId => exact .bind (launches_quiet _) fun _ => trivial

theorem suppressValueError_quiet (p : TaskBoard.BoardProgram H TaskBoard.OrchestrationTask) :
    (suppressValueError (tasks p)).OnlyCalls Quiet := by
  refine .handle (.bind (tasks_quiet p) fun _ => trivial) fun e => ?_
  split_ifs <;> trivial

theorem retryTask_quiet (taskId : String) : (retryTask taskId : PollingProgram H Unit).OnlyCalls Quiet := by
  unfold retryTask
  split_ifs
  · exact suppressValueError_quiet _
  · trivial

variable (svc : AgentPollingService)

theorem startTask_quiet (taskId : String) :
    (startTask svc taskId : PollingProgram H _).OnlyCalls Quiet := by
  refine .handle (.bind (tasks_quiet _) fun _ => trivial) fun e => ?_
  cases e <;> trivial

theorem finalizeIfSome_quiet (run : Option PollRun) (error : Option String) :
    (finalizeIfSome svc run error : PollingProgram H Unit).OnlyCalls Quiet := by
  cases run with
  | none => trivial
  | some run =>
    unfold finalizeIfSome finalizeLaunch
    split_ifs
    · exact .handle (launches_quiet _) fun _ => trivial
    · trivial

theorem spawnCurrent_quiet (current : Option PollRun) (taskSubject runDir : String) :
    (spawnCurrent svc current taskSubject runDir : PollingProgram H _).OnlyCalls Quiet := by
  cases current with
  | none => trivial
  | some run => exact quiet_of_surroundings (spawnAgent_surroundings svc run taskSubject runDir)

theorem reconcile_quiet : (reconcile svc : PollingProgram H Unit).OnlyCalls Quiet := by
  unfold reconcile
  split_ifs
  · exact .bind (launches_quiet _) fun _ => trivial
  · trivial

theorem hasActiveLaunch_quiet (taskId : String) :
    (hasActiveLaunch svc taskId : PollingProgram H Bool).OnlyCalls Quiet := by
  unfold hasActiveLaunch
  split_ifs
  · exact .bind (launches_quiet _) fun _ => trivial
  · trivial

theorem candidates_quiet (ids : List String) (approved : List TaskBoard.OrchestrationTask) :
    (candidates svc ids approved : PollingProgram H _).OnlyCalls Quiet := by
  induction approved with
  | nil => trivial
  | cons task rest ih =>
    unfold candidates
    split_ifs
    · exact ih
    · exact .bind (hasActiveLaunch_quiet svc _) fun _ => .bind ih fun _ => trivial

end Quiet

section Rules

variable {α : Type} {sem : Semantics (worldSignature H) Exn S} {s : S}
variable {Φ : S → (worldSignature H).Call → Prop}

theorem always_pollCall_bind {Q : Except Exn α → S → Prop} (c : PollCall)
    (f : c.Value → PollingProgram H α) :
    (pollCall c >>= f).Always sem Φ Q s ↔
      Φ s (.inl c) ∧ (∀ (v : c.Value) s', sem ⟨.inl c, .ok v⟩ s s' → (f v).Always sem Φ Q s') ∧
        ∀ e s', sem ⟨.inl c, .error e⟩ s s' → Q (.error e) s' :=
  Program.always_perform_bind _ _

theorem always_pollCall {c : PollCall} {Q : Except Exn c.Value → S → Prop} :
    (pollCall c : PollingProgram H c.Value).Always sem Φ Q s ↔
      Φ s (.inl c) ∧ ∀ (r : Except Exn c.Value) s', sem ⟨.inl c, r⟩ s s' → Q r s' :=
  Program.always_perform (σ := worldSignature H) (.inl c) Q

end Rules

section Helpers

variable {sem : Semantics (worldSignature H) Exn S} {runs : S → PollStore} {α β : Type}

/-- A program that is about one run. -/
def About (sem : Semantics (worldSignature H) Exn S) (runs : S → PollStore) (id : String)
    (p : PollingProgram H α) : Prop := p.Respects sem fun s s' => Evolves id (runs s) (runs s')

variable {id : String}

theorem about_trans (a b c : S) (h : Evolves id (runs a) (runs b)) (h' : Evolves id (runs b) (runs c)) :
    Evolves id (runs a) (runs c) := h.trans h'

theorem About.bind {p : PollingProgram H β} {f : β → PollingProgram H α}
    (hp : About sem runs id p) (hf : ∀ b, About sem runs id (f b)) :
    About sem runs id (p >>= f) := Program.Respects.bind about_trans hp hf

theorem About.handle {p : PollingProgram H α} {handler : Exn → PollingProgram H α}
    (hp : About sem runs id p) (hh : ∀ e, About sem runs id (handler e)) :
    About sem runs id (p.handle handler) := Program.Respects.handle about_trans hp hh

theorem About.ret (a : α) : About sem runs id (.ret a : PollingProgram H α) :=
  Program.Respects.ret (fun s => .refl id (runs s)) a

theorem About.fail (e : Exn) : About sem runs id (.fail e : PollingProgram H α) :=
  Program.Respects.fail (fun s => .refl id (runs s)) e

theorem About.ofExcept (x : Except Exn α) : About sem runs id (.ofExcept x : PollingProgram H α) :=
  Program.Respects.ofExcept (fun s => .refl id (runs s)) x

variable (hsem : RunTable sem runs)
include hsem

theorem About.pollCall {c : PollCall} (hc : c.isWrite = false) :
    About sem runs id (Polling.pollCall c) :=
  Program.Respects.perform (fun s => .refl id (runs s)) fun _ _ _ h =>
    .of_eq (PollStore.step_eq (hsem.poll h) hc)

theorem quiet_same {p : PollingProgram H α} (hp : p.OnlyCalls Quiet) :
    p.Respects sem fun s s' => runs s' = runs s := by
  refine hp.respects (K := fun s s' => runs s' = runs s) (fun _ => rfl) (fun _ _ _ h h' => h'.trans h) ?_
  rintro (c | c) r s s' hc h
  · refine PollStore.step_eq (hsem.poll h) ?_
    cases c <;> first | rfl | cases hc
  · exact hsem.other h

theorem About.quiet {p : PollingProgram H α} (hp : p.OnlyCalls Quiet) : About sem runs id p :=
  fun s => (quiet_same hsem hp s).mono (fun _ _ h => .of_eq h) fun _ _ h => .of_eq h

/-- A status update moves the row along a transition that it has checked. -/
theorem updateStatus_about (status : PollRunStatus) (errorMessage : Option String) :
    About sem runs id (updateStatus id status errorMessage) := by
  intro s
  refine (always_pollCall_bind _ _).mpr
    ⟨Evolves.refl id (runs s), fun current s₁ hread => ?_, ?_⟩
  swap
  · exact fun e s₁ h => Evolves.of_eq (PollStore.step_eq (hsem.poll h) rfl)
  have hruns : runs s₁ = runs s := PollStore.step_eq (hsem.poll hread) rfl
  refine (Program.always_ofExcept_bind _ _).mpr ⟨fun _ hvalid => ?_, fun _ _ => Evolves.of_eq hruns⟩
  refine (always_pollCall_bind _ _).mpr ⟨Evolves.of_eq hruns, fun now s₂ hnow => ?_, ?_⟩
  swap
  · exact fun e s₂ h => Evolves.of_eq ((PollStore.step_eq (hsem.poll h) rfl).trans hruns)
  have hruns₂ : runs s₂ = runs s := (PollStore.step_eq (hsem.poll hnow) rfl).trans hruns
  refine (always_pollCall (c := .updateRow id status (Int.ofNat now) errorMessage)).mpr
    ⟨Evolves.of_eq hruns₂, fun answer s₃ hupdate => ?_⟩
  rcases PollStore.updateRow_cases (hsem.poll hupdate) with ⟨hstore, -⟩ | ⟨hstore, -⟩
  swap
  · exact Evolves.of_eq (hstore.trans hruns₂)
  rw [hstore, hruns₂]
  cases current with
  | none =>
    obtain ⟨-, habsent⟩ := PollStore.getById_none (hsem.poll hread)
    exact Evolves.of_eq (PollStore.withStatus_of_not_mem habsent ..)
  | some run =>
    obtain ⟨-, hmem, hid⟩ := PollStore.getById_some (hsem.poll hread)
    have hstatus : status ∈ run.val.status.validTransitions := by
      by_contra hnot
      simp [validateTransition, require, PollRun.canTransitionTo, hnot] at hvalid
    subst hid
    exact Evolves.withStatus hmem hstatus _ _

theorem recordLaunchMetadata_about (handle : LaunchHandle) (launchId : Option String) :
    About sem runs id (recordLaunchMetadata id handle launchId) := by
  refine .bind (.pollCall hsem rfl) fun now => ?_
  refine Program.Respects.perform (fun s => .refl id (runs s)) fun r s s' h => ?_
  rcases hsem.poll h with ⟨-, hstore⟩ | ⟨hstore, -⟩
  · rw [hstore]
    exact Evolves.recordLaunchMetadata (runs s) id handle _ launchId
  · exact Evolves.of_eq hstore

theorem requireRun_about (gone : String) : About sem runs id (requireRun id gone) := by
  refine .bind (.pollCall hsem rfl) fun current => ?_
  cases current with
  | none => exact .fail _
  | some run => exact .ret run

theorem updateStatusTo_about (status : Option PollRunStatus) :
    About sem runs id (updateStatusTo id status) := by
  cases status with
  | none => exact .ret ()
  | some status => exact updateStatus_about hsem status none

theorem terminateSpawnedAgent_about : About sem runs id (terminateSpawnedAgent id) := by
  refine .bind (.pollCall hsem rfl) fun current => ?_
  cases current with
  | none => exact .quiet hsem (quiet_of_surroundings <| terminateFromEvents_surroundings id)
  | some run =>
    refine .bind (updateStatusTo_about hsem _) fun _ => ?_
    cases launchHandleFromRun run with
    | none => exact .quiet hsem (quiet_of_surroundings <| terminateFromEvents_surroundings id)
    | some handle => exact .quiet hsem (quiet_of_surroundings <| terminateLaunchHandle_surroundings handle)

theorem quarantineRun_about (taskId : String) (launchId : Option String)
    (message launchReason reason : String) :
    About sem runs id (quarantineRun id taskId launchId message launchReason reason) := by
  refine .bind (updateStatus_about hsem _ _) fun _ => ?_
  refine .bind (.quiet hsem (withLaunch_quiet _ _)) fun _ => ?_
  exact .bind (.quiet hsem (quiet_of_surroundings (appendStamped_surroundings _ _))) fun _ => requireRun_about hsem _

theorem recordSpawn_about (taskId taskSubject : String) (nowMs : Nat) (launchId : Option String)
    (handle : LaunchHandle) :
    About sem runs id (recordSpawn id taskId taskSubject nowMs launchId handle) := by
  refine .bind (recordLaunchMetadata_about hsem _ _) fun saved => ?_
  cases saved
  · refine .bind (.quiet hsem (quiet_of_surroundings <| terminateLaunchHandle_surroundings handle)) fun _ => ?_
    exact quarantineRun_about hsem _ _ _ _ _
  · refine .bind (.pollCall hsem rfl) fun _ => .bind (.quiet hsem (withLaunch_quiet _ _)) fun _ => ?_
    refine .bind (updateStatus_about hsem _ _) fun _ => .bind (.pollCall hsem rfl) fun _ => ?_
    exact .bind (.pollCall hsem rfl) fun _ => requireRun_about hsem _

variable (svc : AgentPollingService)

theorem spawnStarted_about (taskId taskSubject runDir : String) (nowMs : Nat)
    (launchId : Option String) :
    About sem runs id (spawnStarted svc id taskId taskSubject runDir nowMs launchId) := by
  refine .bind (updateStatus_about hsem _ _) fun _ => .bind (.quiet hsem (withLaunch_quiet _ _)) fun _ => ?_
  refine .bind (.pollCall hsem rfl) fun current => ?_
  refine .bind (.quiet hsem (spawnCurrent_quiet svc current _ _)) fun handle => ?_
  cases handle with
  | none => exact quarantineRun_about hsem _ _ _ _ _
  | some handle => exact recordSpawn_about hsem _ _ _ _ _

theorem refuseRun_about (message : String) (launchId : Option String) :
    About sem runs id (refuseRun id message launchId) := by
  refine .bind (updateStatus_about hsem _ _) fun _ => .bind (.quiet hsem (withLaunch_quiet _ _)) fun _ => ?_
  exact requireRun_about hsem _

theorem completeRun_about (taskId : String) : About sem runs id (completeRun svc id taskId) := by
  refine .bind (terminateSpawnedAgent_about hsem) fun _ => ?_
  refine .bind (.quiet hsem (suppressValueError_quiet _)) fun _ => .bind (updateStatus_about hsem _ _) fun _ => ?_
  refine .bind (.pollCall hsem rfl) fun run => .bind (.quiet hsem (finalizeIfSome_quiet svc _ _)) fun _ => ?_
  exact .quiet hsem (quiet_of_surroundings (appendStamped_surroundings _ _))

theorem failRun_about (error : String) : About sem runs id (failRun svc id error) := by
  refine .bind (.pollCall hsem rfl) fun run => .bind (terminateSpawnedAgent_about hsem) fun _ => ?_
  refine .bind (updateStatus_about hsem _ _) fun _ => ?_
  refine .bind (.quiet hsem (finalizeIfSome_quiet svc _ _)) fun _ => .bind (.quiet hsem (quiet_of_surroundings (appendStamped_surroundings _ _))) fun _ => ?_
  cases run with
  | none => exact .ret ()
  | some run => exact .quiet hsem (retryTask_quiet _)

omit svc in
theorem quarantineTimedOut_about (run : PollRun) (reason : String) :
    About sem runs run.val.id (quarantineTimedOut run reason) := by
  unfold quarantineTimedOut
  split_ifs
  swap
  · exact .ret false
  refine .bind (.pollCall hsem rfl) fun now => ?_
  dsimp only
  split_ifs
  swap
  · exact .ret false
  refine .bind (updateStatus_about hsem _ _) fun _ => ?_
  exact .bind (.quiet hsem (quiet_of_surroundings (appendStamped_surroundings _ _))) fun _ => .ret true

theorem checkMissing_about (run : PollRun) : About sem runs run.val.id (checkMissing svc run) := by
  unfold checkMissing
  split_ifs
  · exact .bind (quarantineTimedOut_about hsem run _) fun _ => .ret ()
  · exact failRun_about hsem svc _

theorem checkReported_about (run : PollRun) (status error : Option String) :
    About sem runs run.val.id (checkReported svc run status error) := by
  unfold checkReported
  split_ifs
  · exact .bind (completeRun_about hsem svc _) fun _ => .ret false
  · exact .bind (failRun_about hsem svc _) fun _ => .ret false
  · exact quarantineTimedOut_about hsem run _

theorem checkRun_about (run : PollRun) : About sem runs run.val.id (checkRun svc run) := by
  refine .bind (.pollCall hsem rfl) fun file => ?_
  cases file with
  | absent =>
    refine .bind (checkMissing_about hsem svc run) fun _ => ?_
    exact .bind (.pollCall hsem rfl) fun _ => .ret _
  | notObject typeName => exact .fail _
  | object status error =>
    refine .bind (checkReported_about hsem svc run status error) fun _ => ?_
    exact .bind (.pollCall hsem rfl) fun _ => .ret _

theorem cancelRun_about : About sem runs id (cancelRun id) := by
  refine .bind (.pollCall hsem rfl) fun current => ?_
  cases current with
  | none => exact .fail _
  | some run =>
    dsimp only
    split_ifs
    · refine .bind (updateStatus_about hsem _ _) fun _ => .bind (.quiet hsem (quiet_of_surroundings (appendStamped_surroundings _ _))) fun _ => ?_
      refine .bind (terminateSpawnedAgent_about hsem) fun _ => .bind (.quiet hsem (retryTask_quiet _)) fun _ => ?_
      exact requireRun_about hsem _
    · exact .fail _

end Helpers

end ForkAgent.Polling

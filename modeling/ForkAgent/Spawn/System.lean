import ForkAgent.Spawn.Poller
import ForkAgent.Spawn.Surfaces

/-!
# Spawns side by side

Any number of spawns of the poller, the workflow executor and the agent manager on one registry,
with the operations of the lifecycle service; every spawn has a lifecycle service. The other
operations of the poller make no run RUNNING, and of the registry they use only the lifecycle
service.
-/

namespace ForkAgent.Spawn

open Effects Launch Polling Program

variable {H : Fpel.Hashing}

/-- One spawn of a surface, or an operation of the lifecycle service. -/
inductive SpawnOp where
  | polling (taskId taskSubject : String)
  | workflow (task : WorkflowTask) (model : String) (sessionName runId : Option String)
  | manager (config : AgentConfig)
  | lifecycle (op : LaunchOp)

def SpawnOp.Result : SpawnOp → Type
  | polling .. => PollRun
  | workflow .. => TaskExecutionResult
  | manager _ => Option TmuxAgent
  | lifecycle op => op.Result

def SpawnOp.program (svc : AgentPollingService) : (o : SpawnOp) → SpawnProgram H o.Result
  | polling taskId taskSubject =>
    (spawnRun { svc with lifecycleService := true } taskId taskSubject).lift (.inr _ _)
  | workflow task model sessionName runId =>
    executeTask (some svc.leaseDurationMs) task model sessionName runId
  | manager config => spawnAgent (some svc.leaseDurationMs) config
  | lifecycle op => registry op.program

/-- A row of this run is RUNNING. -/
def Running (runId : String) (s : PollStore) : Prop :=
  ∃ r ∈ s.pollRuns, r.id = runId ∧ r.status = .running

/-- From outside, the tasks and their proposals change at will, and poll runs as long as none is
made RUNNING. -/
def spawnSystem (H : Fpel.Hashing) (svc : AgentPollingService) :
    System (spawnSignature H) Exn (Unit × World) where
  Op := SpawnOp
  Result := SpawnOp.Result
  program := SpawnOp.program svc
  step := Semantics.sum (fun _ _ _ => True) (Polling.step H)
  outside s s' := s'.2.2.1 = s.2.2.1 ∧ ∀ runId, Running runId s'.2.1 → Running runId s.2.1
  initial s := s.2 = ({}, {}, {}, {})

/-- The answers of the registry among those of a spawn. -/
def seenSpawn : Answered (spawnSignature H) Exn → Option (Answered launchSignature Exn)
  | ⟨.inr c, r⟩ => seenWorld ⟨c, r⟩
  | ⟨.inl _, _⟩ => none

theorem seenSpawn_lift (a : Answered launchSignature Exn) :
    seenSpawn (.lift (registryEmbedding H) a) = some a := by
  obtain ⟨c, e | v⟩ := a <;> rfl

/-- The calls that create the process of an agent. -/
def createsProcess : (spawnSignature H).Call → Bool
  | .inl (.createSession _) | .inl (.launchAgent ..) | .inl (.newSession ..) => true
  | .inl _ => false
  | .inr c => startsProcess c

/-- The launch was tried as spawning, and nothing else since its claim. -/
def processGuard (h : List (Answered (spawnSignature H) Exn)) (c : (spawnSignature H).Call) : Prop :=
  createsProcess c = true → ∃ launchId, Owns seenSpawn launchId [(.reserved, .spawning)] h

/-- Off the table of poll runs besides. -/
def surfaceGuard (h : List (Answered (spawnSignature H) Exn)) (c : (spawnSignature H).Call) : Prop :=
  processGuard h c ∧ ∀ c', c ≠ .inr (.inl c')

/-- The launch was tried as spawning and then as active. -/
def Confirmed (h : List (Answered (spawnSignature H) Exn)) : Prop :=
  ∃ launchId, Owns seenSpawn launchId [(.reserved, .spawning), (.spawning, .active)] h

section Aside

variable {α : Type} {launchId : Option String} {edges : List (LaunchStatus × LaunchStatus)}
variable {h : List (Answered (spawnSignature H) Exn)}

/-- The calls beside the registry that create no process. -/
def Aside (c : (spawnSignature H).Call) : Prop := ∃ c', c = .inl c' ∧ createsProcess (H := H) (.inl c') = false

theorem surfaceGuard_of_aside {c : (spawnSignature H).Call} (hc : Aside c) : surfaceGuard h c := by
  obtain ⟨c', rfl, hfalse⟩ := hc
  refine ⟨fun hcreates => ?_, fun _ heq => ?_⟩
  · rw [hfalse] at hcreates
    cases hcreates
  · cases heq

theorem surfaceGuard_of_owns (hown : Owns seenSpawn launchId [(.reserved, .spawning)] h)
    {c : SurfaceCall} : surfaceGuard h (.inl c) :=
  ⟨fun _ => ⟨launchId, hown⟩, fun _ heq => nomatch heq⟩

theorem surface_aside {c : SurfaceCall} (hc : createsProcess (H := H) (.inl c) = false) :
    (surface c : SpawnProgram H c.Value).OnlyCalls Aside := .perform ⟨c, rfl, hc⟩

theorem logged_aside {p : SpawnProgram H Unit} (hp : p.OnlyCalls Aside) :
    (logged p).OnlyCalls Aside := .handle hp fun _ => trivial

theorem logged_ok (p : SpawnProgram H Unit) (h : List (Answered (spawnSignature H) Exn)) :
    (logged p).Ensures (fun _ _ => True) (fun _ r => ∀ e, r ≠ .error e) h :=
  (p.ensures_true h).handle (fun _ _ _ _ he => nomatch he) fun _ _ _ _ he => nomatch he

theorem owns_surface (hown : Owns seenSpawn launchId edges h) {c : SurfaceCall}
    (r : Except Exn c.Value) : Owns seenSpawn launchId edges (h ++ [⟨.inl c, r⟩]) :=
  hown.concat fun _ ha => nomatch ha

theorem owns_keeps (hown : Owns seenSpawn launchId edges h) {p : SpawnProgram H α}
    (hp : p.OnlyCalls Aside) :
    p.Ensures surfaceGuard (fun h _ => Owns seenSpawn launchId edges h) h := by
  refine hp.keeps (fun h a ha hown => ?_) (fun _ _ _ => surfaceGuard_of_aside) hown
  obtain ⟨c | c, r⟩ := a
  · exact owns_surface hown r
  · obtain ⟨c', hc', -⟩ := ha
    cases hc'

theorem registry_guarded (p : LaunchProgram α) (h : List (Answered (spawnSignature H) Exn)) :
    (registry p : SpawnProgram H α).Ensures surfaceGuard (fun _ _ => True) h := by
  refine (onlyCalls_lift (i := registryEmbedding H) p).ensures ?_ fun _ _ => trivial
  rintro h _ ⟨c, rfl⟩
  exact ⟨fun hcreates => (by cases hcreates), fun _ heq => (by cases heq)⟩

theorem notify_owns (hown : Owns seenSpawn launchId edges h) (expected new : LaunchStatus)
    (columns : String → CasColumns) :
    (notify launchId fun id => casUpdateStatus id expected new (columns id)).Ensures surfaceGuard
      (fun h r => r = .ok () → Owns seenSpawn launchId (edges ++ [(expected, new)]) h) h := by
  cases launchId with
  | none => exact fun _ => hown.none _
  | some id =>
    have howns := casUpdateStatus_owns seenSpawn_lift hown expected new (columns id)
    refine (((registry_guarded _ h).and howns).mono (fun _ _ hc => hc.1) fun _ _ hr => hr.2).bind ?_ ?_
    · exact fun h ok hr _ => hr ok rfl
    · exact fun h e _ hr => nomatch hr

theorem notify_guarded (launchId : Option String) (f : String → LaunchProgram Bool)
    (h : List (Answered (spawnSignature H) Exn)) :
    (notify launchId f : SpawnProgram H Unit).Ensures surfaceGuard (fun _ _ => True) h := by
  cases launchId with
  | none => trivial
  | some id => exact (registry_guarded _ h).bind (fun _ _ _ => trivial) fun _ _ _ => trivial

end Aside

section Workflow

variable (x : Execution) {h : List (Answered (spawnSignature H) Exn)}

/-- The answers that leave a session without an agent whose launch is confirmed. -/
def Misfires : Answered (spawnSignature H) Exn → Prop
  | ⟨.inl .getDefaultBackend, r⟩ => ∀ backend, r ≠ .ok (some backend)
  | ⟨.inl (.launchAgent ..), r⟩ => r ≠ .ok true
  | ⟨.inr (.inr (.inl _)), r⟩ => ∃ e, r = .error e
  | _ => False

/-- The session was created, but its agent was not launched or not confirmed; or the launch was
suppressed by one that has a session. -/
def Agentless (h : List (Answered (spawnSignature H) Exn)) : Prop :=
  (∃ name a, Misfires a ∧ List.Sublist [.ok (.inl (.createSession name)) true, a] h) ∨
    ∃ canonicalKey, ∃ existing : AgentLaunch, existing.val.tmuxSession ≠ none ∧
      .ok (.findActiveByCanonicalKey canonicalKey) (some existing) ∈ h.filterMap seenSpawn

theorem Agentless.of_prefix {h' : List (Answered (spawnSignature H) Exn)} (hbad : Agentless h)
    (hle : h <+: h') : Agentless h' := by
  rcases hbad with ⟨name, a, ha, hsub⟩ | ⟨canonicalKey, existing, hsession, hmem⟩
  · exact .inl ⟨name, a, ha, hsub.trans hle.sublist⟩
  · exact .inr ⟨canonicalKey, existing, hsession, (hle.sublist.filterMap seenSpawn).subset hmem⟩

theorem agentless_concat {name : String} {a : Answered (spawnSignature H) Exn}
    (hcreated : .ok (.inl (.createSession name)) true ∈ h) (ha : Misfires a) : Agentless (h ++ [a]) :=
  .inl ⟨name, a, ha, (List.singleton_sublist.mpr hcreated).append (List.Sublist.refl [a])⟩

theorem agentless_backend {name : String} (hcreated : .ok (.inl (.createSession name)) true ∈ h)
    {r : Except Exn (Option String)} (hr : ∀ backend, r ≠ .ok (some backend)) :
    Agentless (h ++ [⟨.inl .getDefaultBackend, r⟩]) := agentless_concat hcreated hr

theorem agentless_launch {name : String} (hcreated : .ok (.inl (.createSession name)) true ∈ h)
    {session backend prompt model : String} {window : Nat} {r : Except Exn Bool} (hr : r ≠ .ok true) :
    Agentless (h ++ [⟨.inl (.launchAgent session window backend prompt model), r⟩]) :=
  agentless_concat hcreated hr

theorem notify_misfires {name : String} (hcreated : .ok (.inl (.createSession name)) true ∈ h)
    (launchId : Option String) (columns : String → CasColumns) :
    (notify launchId fun id => casUpdateStatus id .spawning .active (columns id)).Ensures
      (fun _ _ => True) (fun h r => ∀ e, r = .error e → Agentless h) h := by
  cases launchId with
  | none => exact fun e he => nomatch he
  | some id =>
    refine ⟨trivial, ?_⟩
    rintro (e | now)
    · exact fun _ _ => agentless_concat hcreated ⟨e, rfl⟩
    refine ⟨trivial, ?_⟩
    rintro (e | set)
    · exact fun _ _ => agentless_concat (List.mem_append_left _ hcreated) ⟨e, rfl⟩
    · exact fun e he => nomatch he

/-- A session that was created has a confirmed launch, or no agent. -/
def sessionOutcome (h : List (Answered (spawnSignature H) Exn))
    (r : Except Exn (Option String × List String)) : Prop :=
  ∀ session errors, r = .ok (session, errors) → session ≠ none →
    errors = [] ∧ Confirmed h ∨ errors ≠ [] ∧ Agentless h

/-- An agent that was launched without errors has a confirmed launch; otherwise there is none. -/
def agentLaunched (h : List (Answered (spawnSignature H) Exn)) (r : Except Exn (List String)) : Prop :=
  (r = .ok [] → Confirmed h) ∧ (r ≠ .ok [] → Agentless h)

theorem agentLaunched_of_agentless {r : Except Exn (List String)} (hr : r ≠ .ok []) (hbad : Agentless h) :
    agentLaunched h r := ⟨fun he => absurd he hr, fun _ => hbad⟩

theorem launchInSession_ensures (hown : Owns seenSpawn x.launchId [(.reserved, .spawning)] h)
    {name : String} (hcreated : .ok (.inl (.createSession name)) true ∈ h) :
    (launchInSession x).Ensures surfaceGuard agentLaunched h := by
  refine (ensures_perform_bind _ _).mpr ⟨surfaceGuard_of_aside ⟨_, rfl, rfl⟩, fun backend => ?_,
    fun e => agentLaunched_of_agentless nofun (agentless_backend hcreated nofun)⟩
  have hown' := owns_surface hown (c := .getDefaultBackend) (.ok backend)
  obtain _ | backend := backend
  · exact agentLaunched_of_agentless nofun (agentless_backend hcreated nofun)
  have hcreated' := List.mem_append_left [.ok (.inl .getDefaultBackend) (some backend)] hcreated
  refine (ensures_perform_bind _ _).mpr ⟨surfaceGuard_of_owns hown', fun launched => ?_,
    fun e => agentLaunched_of_agentless nofun (agentless_launch hcreated' nofun)⟩
  have hlaunched := owns_surface hown' (c := .launchAgent x.sessionName 0 backend
    ("Execute task: " ++ x.task.description) x.model) (.ok launched)
  obtain _ | _ := launched
  · exact agentLaunched_of_agentless nofun (agentless_launch hcreated' nofun)
  refine (((notify_owns hlaunched .spawning .active _).and
    (notify_misfires (List.mem_append_left _ hcreated') x.launchId _)).mono (fun _ _ hc => hc.1)
      fun _ _ hr => hr).bind (fun h _ hok => ?_) fun h e herror => ?_
  · refine (((owns_keeps (hok.1 rfl) (logged_aside (surface_aside rfl))).and (logged_ok _ h)).mono
      (fun _ _ hc => hc.1) fun _ _ hr => hr).bind (fun h _ hown => ?_) fun h e hown => absurd rfl (hown.2 e)
    exact ⟨fun _ => ⟨_, hown.1⟩, fun hne => absurd rfl hne⟩
  · exact agentLaunched_of_agentless nofun (herror.2 e rfl)

theorem createSession_ensures (hown : Owns seenSpawn x.launchId [(.reserved, .spawning)] h) :
    (createSession x).Ensures surfaceGuard sessionOutcome h := by
  refine Program.Ensures.handle (Q := sessionOutcome) ?_ (fun _ _ hok => hok) fun h e _ => ?_
  swap
  · rintro session errors hr hsession
    cases hr
    exact absurd rfl hsession
  refine (ensures_perform_bind _ _).mpr
    ⟨surfaceGuard_of_owns hown, fun success => ?_, fun e session errors he => nomatch he⟩
  have hcreated := owns_surface hown (c := .createSession x.sessionName) (.ok success)
  obtain _ | _ := success
  · rintro session errors hr hsession
    cases hr
    exact absurd rfl hsession
  have hlaunch : ((launchInSession x).handle fun e => return [sessionError e]).Ensures surfaceGuard
      (fun h r => ∀ errors, r = .ok errors →
        errors = [] ∧ Confirmed h ∨ errors ≠ [] ∧ Agentless h)
      (h ++ [.ok (.inl (.createSession x.sessionName)) true]) := by
    refine (launchInSession_ensures x hcreated (List.mem_append_right h (List.mem_singleton_self _))).handle (fun h errors hok => ?_) fun h e herror => ?_
    · rintro _ ⟨⟩
      by_cases hnone : errors = []
      · exact .inl ⟨hnone, hok.1 (by rw [hnone])⟩
      · exact .inr ⟨hnone, hok.2 fun heq => hnone (Except.ok.inj heq)⟩
    · rintro _ ⟨⟩
      exact .inr ⟨by simp, herror.2 fun he => nomatch he⟩
  refine hlaunch.bind (fun h errors herrors => ?_) fun h e _ session errors he => nomatch he
  rintro session errors' hr _
  cases hr
  exact herrors _ rfl

/-- A result that names a session has a confirmed launch, or no agent. -/
def resultOutcome (h : List (Answered (spawnSignature H) Exn)) (r : Except Exn TaskExecutionResult) :
    Prop := ∀ result, r = .ok result → result.sessionName ≠ none → Confirmed h ∨ Agentless h

theorem resultOutcome_error {e : Exn} : resultOutcome h (.error e) := by
  intro result hr
  cases hr

theorem createWorktree_aside : (createWorktree x : SpawnProgram H _).OnlyCalls Aside := by
  refine .bind (.handle (.bind (surface_aside rfl) fun _ => trivial) fun e => ?_) fun created => ?_
  · split_ifs
    · exact .bind (surface_aside rfl) fun _ => .bind (surface_aside rfl) fun _ => trivial
    · trivial
  · exact .bind (logged_aside (surface_aside rfl)) fun _ => trivial

theorem addWorktree_aside (errors : List String) :
    (addWorktree x errors : SpawnProgram H _).OnlyCalls Aside :=
  .handle (.bind (createWorktree_aside x) fun _ => trivial) fun _ => trivial

theorem Agentless.keeps {α : Type} {Ψ : List (Answered (spawnSignature H) Exn) → Except Exn α → Prop}
    (hbad : Agentless h) {p : SpawnProgram H α} (hp : p.Ensures surfaceGuard Ψ h) :
    p.Ensures surfaceGuard (fun h _ => Agentless h) h :=
  hp.extends.mono (fun _ _ hc => hc) fun _ _ hr => hbad.of_prefix hr.2

theorem outcome_keeps {α : Type} {P : Prop} (hc : P → Confirmed h ∨ Agentless h)
    {p : SpawnProgram H α} (hp : p.OnlyCalls Aside) :
    p.Ensures surfaceGuard (fun h _ => P → Confirmed h ∨ Agentless h) h := by
  refine hp.keeps (fun h a ha hc hP => ?_) (fun _ _ _ => surfaceGuard_of_aside) hc
  obtain ⟨c, hcall, -⟩ := ha
  rcases hc hP with ⟨launchId, hown⟩ | hbad
  · refine .inl ⟨launchId, hown.concat fun a' ha' => ?_⟩
    obtain ⟨c', r⟩ := a
    cases hcall
    cases ha'
  · exact .inr (hbad.of_prefix (List.prefix_append _ _))

theorem executeClaimed_ensures (hown : Owns seenSpawn x.launchId [] h) :
    (executeClaimed x).Ensures surfaceGuard resultOutcome h := by
  refine (owns_keeps hown (logged_aside (surface_aside rfl))).bind (fun h _ hown => ?_)
    fun h e _ => resultOutcome_error
  refine (notify_owns hown .reserved .spawning _).bind (fun h _ hown => ?_)
    fun h e _ => resultOutcome_error
  refine (createSession_ensures x (hown rfl)).bind (fun h created hcreated => ?_)
    fun h e _ => resultOutcome_error
  -- a launch is marked as failed only where the session has no agent
  have hmarked : (failLaunch x created.2 : SpawnProgram H Unit).Ensures surfaceGuard
      (fun h _ => created.1 ≠ none → Confirmed h ∨ Agentless h) h := by
    unfold failLaunch
    split_ifs with hnone
    · intro hsession
      rcases hcreated _ _ rfl hsession with ⟨-, hconfirmed⟩ | ⟨hne, -⟩
      · exact .inl hconfirmed
      · exact absurd hnone hne
    · have hguarded := notify_guarded x.launchId (markFailed · ("; ".intercalate created.2)) h
      by_cases hsession : created.1 = none
      · exact hguarded.mono (fun _ _ hc => hc) fun _ _ _ hne => absurd hsession hne
      · rcases hcreated _ _ rfl hsession with ⟨heq, -⟩ | ⟨-, hbad⟩
        · exact absurd heq hnone
        · exact (hbad.keeps hguarded).mono (fun _ _ hc => hc) fun _ _ hbad _ => .inr hbad
  refine hmarked.bind (fun h _ hc => ?_) fun h e _ => resultOutcome_error
  refine (outcome_keeps hc (addWorktree_aside x created.2)).bind (fun h added hc => ?_)
    fun h e _ => resultOutcome_error
  refine (outcome_keeps hc (logged_aside (surface_aside rfl))).bind (fun h _ hc => ?_)
    fun h e _ => resultOutcome_error
  intro result hr hsession
  cases hr
  exact hc hsession

variable {x}

theorem nameOr_aside (given : Option String) (fresh : String → String) :
    (nameOr given fresh : SpawnProgram H String).OnlyCalls Aside := by
  cases given with
  | none => exact .bind (surface_aside rfl) fun _ => trivial
  | some name => trivial

theorem executeTask_ensures (leaseDurationMs : Int) (task : WorkflowTask) (model : String)
    (sessionName runId : Option String) :
    (executeTask (some leaseDurationMs) task model sessionName runId : SpawnProgram H _).Ensures
      surfaceGuard resultOutcome [] := by
  refine ((nameOr_aside sessionName _).ensures (fun _ _ => surfaceGuard_of_aside) fun _ _ => trivial).bind
    (fun h sessionName (_ : True) => ?_) fun h e _ => resultOutcome_error
  refine ((nameOr_aside runId _).ensures (fun _ _ => surfaceGuard_of_aside) fun _ _ => trivial).bind
    (fun h runId (_ : True) => ?_) fun h e _ => resultOutcome_error
  refine (((registry_guarded _ h).and ((requestLaunch_owns seenSpawn_lift _ h).and
    (requestLaunch_existing_seen seenSpawn_lift _ h))).mono (fun _ _ hc => hc.1) fun _ _ hr => hr.2).bind
      (fun h attempt hattempt => ?_) fun h e _ => resultOutcome_error
  cases hdecision : attempt.decision with
  | claimed => exact executeClaimed_ensures _ (hattempt.1 attempt rfl hdecision)
  | suppressed =>
    intro result hr hsession
    cases hr
    obtain ⟨session, hsome⟩ := Option.ne_none_iff_exists'.mp hsession
    obtain ⟨existing, hexisting, hnamed⟩ := Option.bind_eq_some_iff.mp hsome
    exact .inr (.inr ⟨_, existing, by simp [hnamed], hattempt.2 attempt existing rfl hexisting⟩)
  | error =>
    intro result hr hsession
    cases hr
    exact absurd rfl hsession

end Workflow

section Manager

variable {h : List (Answered (spawnSignature H) Exn)}

/-- An agent that is returned has a confirmed launch. -/
def agentOutcome (h : List (Answered (spawnSignature H) Exn)) (r : Except Exn (Option TmuxAgent)) :
    Prop := ∀ agent, r = .ok (some agent) → Confirmed h

theorem agentOutcome_error {e : Exn} : agentOutcome h (.error e) := by
  intro agent hr
  cases hr

theorem tmuxAgent_aside (config : AgentConfig) :
    (tmuxAgent config : SpawnProgram H TmuxAgent).OnlyCalls Aside := by
  unfold tmuxAgent
  split
  · trivial
  · exact .bind (surface_aside rfl) fun _ => trivial

theorem spawn_ensures {launchId : Option String}
    (hown : Owns seenSpawn launchId [(.reserved, .spawning)] h) (agent : TmuxAgent) :
    (agent.spawn : SpawnProgram H Bool).Ensures surfaceGuard
      (fun h _ => Owns seenSpawn launchId [(.reserved, .spawning)] h) h := by
  refine Program.Ensures.handle (Q := fun h _ => Owns seenSpawn launchId [(.reserved, .spawning)] h)
    ?_ (fun _ _ hok => hok) fun h e hown => hown
  refine (ensures_perform_bind _ _).mpr
    ⟨surfaceGuard_of_owns hown, fun (returnCode : Int) => ?_, fun e => owns_surface hown _⟩
  have hown := owns_surface hown (c := .newSession agent.tmuxSession agent.config.workingDir)
    (.ok returnCode)
  refine owns_keeps hown ?_
  split_ifs
  · trivial
  · refine .bind (surface_aside rfl) fun (ready : Bool) => ?_
    split_ifs
    · trivial
    · exact .bind (logged_aside (surface_aside rfl)) fun _ => trivial

theorem spawnClaimed_ensures {launchId : Option String} (hown : Owns seenSpawn launchId [] h)
    (config : AgentConfig) :
    (spawnClaimed config launchId : SpawnProgram H _).Ensures surfaceGuard agentOutcome h := by
  refine (owns_keeps hown (tmuxAgent_aside config)).bind (fun h agent hown => ?_)
    fun h e _ => agentOutcome_error
  refine (notify_owns hown .reserved .spawning _).bind (fun h _ hown => ?_)
    fun h e _ => agentOutcome_error
  refine (spawn_ensures (hown rfl) agent).bind (fun h spawned hown => ?_)
    fun h e _ => agentOutcome_error
  obtain _ | _ := spawned
  · refine (notify_guarded launchId _ h).bind (fun h _ _ agent hr => ?_) fun h e _ => agentOutcome_error
    cases hr
  · refine (owns_keeps hown (surface_aside rfl)).bind (fun h _ hown => ?_)
      fun h e _ => agentOutcome_error
    refine (notify_owns hown .spawning .active _).bind (fun h _ hown => ?_)
      fun h e _ => agentOutcome_error
    exact fun _ _ => ⟨launchId, hown rfl⟩

theorem spawnAgent_ensures (leaseDurationMs : Int) (config : AgentConfig) :
    (spawnAgent (some leaseDurationMs) config : SpawnProgram H _).Ensures surfaceGuard agentOutcome
      [] := by
  refine (ensures_perform_bind _ _).mpr
    ⟨surfaceGuard_of_aside ⟨_, rfl, rfl⟩, fun known => ?_, fun e => agentOutcome_error⟩
  obtain _ | _ := known
  swap
  · intro agent hr
    cases hr
  refine (((registry_guarded _ _).and (requestLaunch_owns seenSpawn_lift _ _)).mono
    (fun _ _ hc => hc.1) fun _ _ hr => hr.2).bind (fun h attempt hclaimed => ?_)
      fun h e _ => agentOutcome_error
  split_ifs with hdecision
  · exact spawnClaimed_ensures (hclaimed attempt rfl hdecision) config
  · intro agent hr
    cases hr

end Manager

section Operations

variable (svc : AgentPollingService)

/-- What a spawn of the poller has read, as the poller sees it. -/
def ofPoller (h : List (Answered (spawnSignature H) Exn)) (own : List (Answered (worldSignature H) Exn)) :
    Prop := h = own.map (.lift (.inr surfaceSignature _))

/-- What holds before each call of an operation: no process without a launch that was tried as
spawning, and a poll run is written only as a spawn of the poller may. -/
def callGuard (h : List (Answered (spawnSignature H) Exn)) (c : (spawnSignature H).Call) : Prop :=
  processGuard h c ∧ ∀ c', c = .inr (.inl c') → ∃ own, ofPoller h own ∧ spawnGuard own (.inl c')

/-- What holds at the end of an operation: a success has a confirmed launch. -/
def success : (o : SpawnOp) → List (Answered (spawnSignature H) Exn) → Except Exn o.Result → Prop
  | .polling .., h, r => ∃ own, ofPoller h own ∧ spawnOutcome own r
  | .workflow .., h, r => resultOutcome h r
  | .manager _, h, r => agentOutcome h r
  | .lifecycle _, _, _ => True

theorem seenSpawn_of_poller {h : List (Answered (spawnSignature H) Exn)}
    {own : List (Answered (worldSignature H) Exn)} (hown : ofPoller h own) :
    h.filterMap seenSpawn = own.filterMap seenWorld := by
  rw [hown, List.filterMap_map]
  refine List.filterMap_congr fun a _ => ?_
  obtain ⟨c, e | v⟩ := a <;> rfl

theorem owns_of_poller {h : List (Answered (spawnSignature H) Exn)}
    {own : List (Answered (worldSignature H) Exn)} (hown : ofPoller h own) {launchId : Option String}
    {edges : List (LaunchStatus × LaunchStatus)} (howns : Owns seenWorld launchId edges own) :
    Owns seenSpawn launchId edges h := by
  unfold Owns
  rw [seenSpawn_of_poller hown]
  exact howns

theorem processGuard_of_poller {h : List (Answered (spawnSignature H) Exn)}
    {own : List (Answered (worldSignature H) Exn)} (hown : ofPoller h own)
    {c : (worldSignature H).Call} (hc : spawnGuard own c) : processGuard h (.inr c) := by
  intro hcreates
  obtain c | c := c
  · cases c with
    | splitWindow =>
      obtain ⟨launchId, howns⟩ := hc
      exact ⟨launchId, owns_of_poller hown howns⟩
    | popen =>
      obtain ⟨launchId, howns⟩ := hc
      exact ⟨launchId, owns_of_poller hown howns⟩
    | _ => cases hcreates
  · cases hcreates

theorem callGuard_of_surface {α : Type} {p : SpawnProgram H α}
    {Ψ : List (Answered (spawnSignature H) Exn) → Except Exn α → Prop}
    (hp : p.Ensures surfaceGuard Ψ []) : p.Ensures callGuard Ψ [] := by
  refine hp.mono (fun h c hc => ⟨hc.1, ?_⟩) fun _ _ hr => hr
  intro c' hc'
  exact absurd hc' (hc.2 c')

theorem program_guarded (o : SpawnOp) :
    (o.program svc : SpawnProgram H o.Result).Ensures callGuard (success o) [] := by
  cases o with
  | polling taskId taskSubject =>
    refine Program.Ensures.lift (h := []) (k := []) (.inr _ _)
      ((spawnRun_ensures { svc with lifecycleService := true } rfl taskId taskSubject).mono ?_ ?_)
    · intro own c hc
      refine ⟨processGuard_of_poller rfl hc, ?_⟩
      rintro c' hc'
      cases hc'
      exact ⟨own, rfl, hc⟩
    · exact fun own r hr => ⟨own, rfl, hr⟩
  | workflow task model sessionName runId =>
    exact callGuard_of_surface (executeTask_ensures _ task model sessionName runId)
  | manager config => exact callGuard_of_surface (spawnAgent_ensures _ config)
  | lifecycle op => exact callGuard_of_surface (registry_guarded op.program [])

end Operations

end ForkAgent.Spawn

import ForkAgent.Launch.Ownership
import ForkAgent.Polling.System

/-!
# What a spawn of the poller has done

A spawn starts processes only after it has tried to confirm its launch as spawning, and it updates
its run to RUNNING only after it has tried to confirm it as active.
-/

namespace ForkAgent.Polling

open Effects Launch Program

variable {H : Fpel.Hashing}

/-- The answers of the registry among those of the world. -/
def seenWorld : Answered (worldSignature H) Exn → Option (Answered launchSignature Exn)
  | ⟨.inr (.inl c), r⟩ => some ⟨c, r⟩
  | _ => none

theorem seenWorld_lift (a : Answered launchSignature Exn) :
    seenWorld (.lift (launchEmbedding H) a) = some a := by
  obtain ⟨c, e | v⟩ := a <;> rfl

/-- The calls that start a process. -/
def startsProcess : (worldSignature H).Call → Bool
  | .inl (.splitWindow _) | .inl (.popen ..) => true
  | _ => false

/-- The calls that make a run RUNNING, and those that save one. -/
def writesRun : (worldSignature H).Call → Bool
  | .inl (.updateRow _ .running _ _) | .inl (.save _) => true
  | _ => false

def writesRegistry : (worldSignature H).Call → Bool
  | .inr (.inl c) => claimsOrSets c
  | _ => false

/-- What a spawn has read when it makes a call. -/
def spawnGuard (h : List (Answered (worldSignature H) Exn)) : (worldSignature H).Call → Prop
  | .inl (.splitWindow _) | .inl (.popen ..) =>
    ∃ launchId, Owns seenWorld launchId [(.reserved, .spawning)] h
  | .inl (.updateRow id .running _ _) => .ok (.inl .uuid4Hex) id ∈ h
  | .inl (.save run) => run.val.status ≠ .running
  | _ => True

/-- A run that is answered as RUNNING was read last; and once a run has been made RUNNING the
launch was confirmed as active. -/
def spawnOutcome (h : List (Answered (worldSignature H) Exn)) (r : Except Exn PollRun) : Prop :=
  ∀ run, r = .ok run →
    (run.val.status = .running → ∃ runId h', .ok (.inl .uuid4Hex) runId ∈ h ∧
      h = h' ++ [.ok (.inl (.getById runId)) (some run)]) ∧
    ((∃ a ∈ h, ∃ id now message, a.call = .inl (.updateRow id .running now message)) →
      ∃ launchId, Owns seenWorld launchId [(.reserved, .spawning), (.spawning, .active)] h)

theorem spawnOutcome_error {h : List (Answered (worldSignature H) Exn)} {e : Exn} :
    spawnOutcome h (.error e) := by
  intro run hrun
  cases hrun

/-- Neither starts a process, nor makes a run RUNNING, nor writes the registry. -/
def Plain (c : (worldSignature H).Call) : Prop :=
  startsProcess c = false ∧ writesRun c = false ∧ writesRegistry c = false

section Plain

variable {α : Type}

theorem pollCall_plain {c : PollCall} (h : Plain (H := H) (.inl c)) :
    (pollCall c : PollingProgram H c.Value).OnlyCalls Plain := .perform h

theorem updateStatus_plain (id : String) {status : PollRunStatus} (hstatus : status ≠ .running)
    (message : Option String) :
    (updateStatus id status message : PollingProgram H Unit).OnlyCalls Plain := by
  refine .bind (pollCall_plain ⟨rfl, rfl, rfl⟩) fun current => ?_
  refine .bind (.ofExcept _) fun _ => .bind (pollCall_plain ⟨rfl, rfl, rfl⟩) fun now => ?_
  refine pollCall_plain ⟨rfl, ?_, rfl⟩
  cases status <;> first | rfl | exact absurd rfl hstatus

theorem tasks_plain (p : TaskBoard.BoardProgram H α) : (tasks p).OnlyCalls Plain := by
  refine .mono (onlyCalls_lift (i := boardEmbedding H) p) ?_
  rintro _ ⟨c, rfl⟩
  exact ⟨rfl, rfl, rfl⟩

theorem startTask_plain (svc : AgentPollingService) (taskId : String) :
    (startTask svc taskId : PollingProgram H _).OnlyCalls Plain := by
  refine .handle (.bind (tasks_plain _) fun _ => trivial) fun e => ?_
  cases e <;> trivial

theorem appendStamped_plain (id : String) (event : Int → Fields) :
    (appendStamped id event : PollingProgram H Unit).OnlyCalls Plain :=
  .bind (pollCall_plain ⟨rfl, rfl, rfl⟩) fun _ => pollCall_plain ⟨rfl, rfl, rfl⟩

end Plain

/-- No run has been made RUNNING. -/
def Calm (h : List (Answered (worldSignature H) Exn)) : Prop :=
  ∀ a ∈ h, ∀ id now message, a.call ≠ .inl (.updateRow id .running now message)

theorem Calm.concat {h : List (Answered (worldSignature H) Exn)} (hcalm : Calm h)
    {a : Answered (worldSignature H) Exn}
    (ha : ∀ id now message, a.call ≠ .inl (.updateRow id .running now message)) : Calm (h ++ [a]) := by
  intro b hb
  rcases List.mem_append.mp hb with hb | hb
  · exact hcalm b hb
  · rw [List.mem_singleton.mp hb]
    exact ha

theorem not_running {c : (worldSignature H).Call} (hc : writesRun c = false) (id : String) (now : Int)
    (message : Option String) : c ≠ .inl (.updateRow id .running now message) := by
  rintro rfl
  cases hc

/-- The run has an id and has not been made RUNNING. -/
structure Unspawned (runId : String) (h : List (Answered (worldSignature H) Exn)) : Prop where
  drawn : .ok (.inl .uuid4Hex) runId ∈ h
  calm : Calm h

/-- Besides, these edges have been tried on the launch. -/
structure Midway (runId : String) (launchId : Option String)
    (edges : List (LaunchStatus × LaunchStatus)) (h : List (Answered (worldSignature H) Exn)) : Prop
    extends Unspawned runId h where
  owns : Owns seenWorld launchId edges h

section Keeps

variable {α : Type} {runId : String} {launchId : Option String}
variable {edges : List (LaunchStatus × LaunchStatus)} {h : List (Answered (worldSignature H) Exn)}

theorem spawnGuard_of_mild {c : (worldSignature H).Call} (hstarts : startsProcess c = false)
    (hwrites : writesRun c = false) : spawnGuard h c := by
  obtain c | c := c
  · cases c with
    | splitWindow => cases hstarts
    | popen => cases hstarts
    | save => cases hwrites
    | updateRow id status =>
      cases status with
      | running => cases hwrites
      | _ => trivial
    | _ => trivial
  · trivial

theorem Unspawned.concat (hu : Unspawned runId h) {a : Answered (worldSignature H) Exn}
    (ha : ∀ id now message, a.call ≠ .inl (.updateRow id .running now message)) :
    Unspawned runId (h ++ [a]) := ⟨List.mem_append_left _ hu.drawn, hu.calm.concat ha⟩

theorem Unspawned.keeps {p : PollingProgram H α} (hu : Unspawned runId h)
    (hp : p.OnlyCalls fun c => startsProcess c = false ∧ writesRun c = false) :
    p.Ensures spawnGuard (fun h _ => Unspawned runId h) h :=
  hp.keeps (fun _ _ ha hu => hu.concat (not_running ha.2)) (fun _ _ _ hc => spawnGuard_of_mild hc.1 hc.2) hu

theorem Midway.concat (hm : Midway runId launchId edges h) {a : Answered (worldSignature H) Exn}
    (ha : ∀ id now message, a.call ≠ .inl (.updateRow id .running now message))
    (hregistry : writesRegistry a.call = false) : Midway runId launchId edges (h ++ [a]) := by
  refine ⟨hm.toUnspawned.concat ha, hm.owns.concat fun a' ha' => ?_⟩
  obtain ⟨c | c | c, r⟩ := a
  · cases ha'
  · cases ha'
    exact hregistry
  · cases ha'

theorem Midway.keeps {p : PollingProgram H α} (hm : Midway runId launchId edges h)
    (hp : p.OnlyCalls Plain) : p.Ensures spawnGuard (fun h _ => Midway runId launchId edges h) h :=
  hp.keeps (fun _ _ ha hm => hm.concat (not_running ha.2.1) ha.2.2) (fun _ _ _ hc => spawnGuard_of_mild hc.1 hc.2.1) hm

theorem Midway.keeps_surroundings {p : PollingProgram H α}
    (hm : Midway runId launchId [(.reserved, .spawning)] h) (hp : p.OnlyCalls Surroundings) :
    p.Ensures spawnGuard (fun h _ => Midway runId launchId [(.reserved, .spawning)] h) h := by
  refine hp.keeps (fun h a ha hm => ?_) (fun h c hm hc => ?_) hm
  · obtain ⟨c, hcall, hc⟩ := ha
    refine hm.concat (fun id now message heq => ?_) (by rw [hcall]; rfl)
    rw [hcall] at heq
    cases heq
    cases hc
  · obtain ⟨c, rfl, hc⟩ := hc
    cases c with
    | splitWindow => exact ⟨launchId, hm.owns⟩
    | popen => exact ⟨launchId, hm.owns⟩
    | save => cases hc
    | updateRow => cases hc
    | _ => trivial

theorem Midway.withLaunch (hm : Midway runId launchId edges h) (expected new : LaunchStatus)
    (columns : String → CasColumns) :
    (Polling.withLaunch launchId fun id => casUpdateStatus id expected new (columns id)).Ensures
      spawnGuard (fun h r => r = .ok () → Midway runId launchId (edges ++ [(expected, new)]) h) h := by
  cases launchId with
  | none => exact fun _ => ⟨hm.toUnspawned, hm.owns.none _⟩
  | some id =>
    have hunspawned : (launches (casUpdateStatus id expected new (columns id))).Ensures spawnGuard
        (fun h _ => Unspawned runId h) h := by
      refine hm.toUnspawned.keeps (.mono (onlyCalls_lift (i := launchEmbedding H) _) ?_)
      rintro _ ⟨c, rfl⟩
      exact ⟨rfl, rfl⟩
    have howns := casUpdateStatus_owns seenWorld_lift hm.owns expected new (columns id)
    refine ((hunspawned.and howns).mono (fun _ _ hc => hc.1) fun _ _ hr => hr).bind ?_ ?_
    · exact fun h ok hr _ => ⟨hr.1, hr.2 ok rfl⟩
    · exact fun h e _ hr => nomatch hr

/-- What is known when a spawn reads its run back. -/
structure Settled (runId : String) (h : List (Answered (worldSignature H) Exn)) : Prop where
  drawn : .ok (.inl .uuid4Hex) runId ∈ h
  confirmed : (∃ a ∈ h, ∃ id now message, a.call = .inl (.updateRow id .running now message)) →
    ∃ launchId, Owns seenWorld launchId [(.reserved, .spawning), (.spawning, .active)] h

theorem Unspawned.settled (hu : Unspawned runId h) : Settled runId h where
  drawn := hu.drawn
  confirmed := fun ⟨a, ha, id, now, message, hcall⟩ => absurd hcall (hu.calm a ha id now message)

theorem Settled.requireRun (hs : Settled runId h) (gone : String) :
    (requireRun runId gone : PollingProgram H PollRun).Ensures spawnGuard spawnOutcome h := by
  refine (ensures_perform_bind _ _).mpr ⟨trivial, fun run => ?_, fun e => spawnOutcome_error⟩
  obtain _ | run := run
  · exact spawnOutcome_error
  intro run' hrun
  cases hrun
  refine ⟨fun _ => ⟨runId, h, List.mem_append_left _ hs.drawn, rfl⟩, ?_⟩
  rintro ⟨a, ha, id, now, message, hcall⟩
  rcases List.mem_append.mp ha with ha | ha
  · obtain ⟨launchId, howns⟩ := hs.confirmed ⟨a, ha, id, now, message, hcall⟩
    refine ⟨launchId, howns.concat fun a' ha' => ?_⟩
    cases ha'
  · rw [List.mem_singleton.mp ha] at hcall
    cases hcall

end Keeps

section Spawn

variable (svc : AgentPollingService) {runId : String} {launchId : Option String}
variable {h : List (Answered (worldSignature H) Exn)}

theorem withLaunch_mild (f : String → LaunchProgram Bool) :
    (withLaunch launchId f : PollingProgram H Unit).OnlyCalls
      fun c => startsProcess c = false ∧ writesRun c = false := by
  cases launchId with
  | none => trivial
  | some id =>
    refine .bind (.mono (onlyCalls_lift (i := launchEmbedding H) _) ?_) fun _ => trivial
    rintro _ ⟨c, rfl⟩
    exact ⟨rfl, rfl⟩

theorem mild_of_plain {α : Type} {p : PollingProgram H α} (hp : p.OnlyCalls Plain) :
    p.OnlyCalls fun c => startsProcess c = false ∧ writesRun c = false :=
  hp.mono fun _ hc => ⟨hc.1, hc.2.1⟩

theorem quarantineRun_ensures (hu : Unspawned runId h) (taskId message launchReason reason : String) :
    (quarantineRun runId taskId launchId message launchReason reason : PollingProgram H _).Ensures
      spawnGuard spawnOutcome h := by
  refine (hu.keeps (mild_of_plain (updateStatus_plain runId (by decide) _))).bind (fun h _ hu => ?_)
    fun h e _ => spawnOutcome_error
  refine (hu.keeps (withLaunch_mild _)).bind (fun h _ hu => ?_) fun h e _ => spawnOutcome_error
  refine (hu.keeps (mild_of_plain (appendStamped_plain _ _))).bind (fun h _ hu => ?_)
    fun h e _ => spawnOutcome_error
  exact hu.settled.requireRun _

theorem refuseRun_ensures (hu : Unspawned runId h) (message : String) :
    (refuseRun runId message launchId : PollingProgram H _).Ensures spawnGuard spawnOutcome h := by
  refine (hu.keeps (mild_of_plain (updateStatus_plain runId (by decide) _))).bind (fun h _ hu => ?_)
    fun h e _ => spawnOutcome_error
  refine (hu.keeps (withLaunch_mild _)).bind (fun h _ hu => ?_) fun h e _ => spawnOutcome_error
  exact hu.settled.requireRun _

/-- The launch was confirmed as active. -/
structure Confirmed (runId : String) (launchId : Option String)
    (h : List (Answered (worldSignature H) Exn)) : Prop where
  drawn : .ok (.inl .uuid4Hex) runId ∈ h
  owns : Owns seenWorld launchId [(.reserved, .spawning), (.spawning, .active)] h

theorem Confirmed.settled (hc : Confirmed runId launchId h) : Settled runId h :=
  ⟨hc.drawn, fun _ => ⟨launchId, hc.owns⟩⟩

theorem Confirmed.concat (hc : Confirmed runId launchId h) {c : PollCall}
    (r : Except Exn c.Value) : Confirmed runId launchId (h ++ [⟨.inl c, r⟩]) := by
  refine ⟨List.mem_append_left _ hc.drawn, hc.owns.concat fun a' ha' => ?_⟩
  cases ha'

theorem Confirmed.perform (hc : Confirmed runId launchId h) {c : PollCall} {α : Type}
    {f : c.Value → PollingProgram H α} {Ψ : List (Answered (worldSignature H) Exn) → Except Exn α → Prop}
    (hguard : spawnGuard h (.inl c)) (hf : ∀ h v, Confirmed runId launchId h → (f v).Ensures spawnGuard Ψ h)
    (herror : ∀ h e, Ψ h (.error e)) : (pollCall c >>= f).Ensures spawnGuard Ψ h := by
  refine (ensures_perform_bind _ _).mpr ⟨hguard, fun v => hf _ v (hc.concat _), fun e => herror _ e⟩

theorem updateStatus_running (hc : Confirmed runId launchId h) :
    (updateStatus runId .running none : PollingProgram H Unit).Ensures spawnGuard
      (fun h r => r = .ok () → Confirmed runId launchId h) h := by
  refine hc.perform trivial (fun h current hc => ?_) fun h e he => nomatch he
  refine (ensures_ofExcept_bind _ _).mpr ⟨fun _ _ => ?_, fun e _ he => nomatch he⟩
  refine hc.perform trivial (fun h now hc => ?_) fun h e he => nomatch he
  refine ⟨hc.drawn, ?_⟩
  rintro (e | v) hv
  · cases hv
  · exact hc.concat _

theorem recordSpawn_ensures (hm : Midway runId launchId [(.reserved, .spawning)] h)
    (taskId taskSubject : String) (nowMs : Nat) (handle : LaunchHandle) :
    (recordSpawn runId taskId taskSubject nowMs launchId handle : PollingProgram H _).Ensures
      spawnGuard spawnOutcome h := by
  have hrecord : (recordLaunchMetadata runId handle launchId : PollingProgram H Bool).OnlyCalls Plain :=
    .bind (pollCall_plain ⟨rfl, rfl, rfl⟩) fun _ => pollCall_plain ⟨rfl, rfl, rfl⟩
  refine (hm.keeps hrecord).bind (fun h saved hm => ?_) fun h e _ => spawnOutcome_error
  obtain _ | _ := saved
  · refine (hm.keeps_surroundings (terminateLaunchHandle_surroundings handle)).bind
      (fun h _ hm => ?_) fun h e _ => spawnOutcome_error
    exact quarantineRun_ensures hm.toUnspawned _ _ _ _
  have happend : (pollCall (.appendEvent runId (spawnedEvent handle)) : PollingProgram H _).OnlyCalls
      Plain := pollCall_plain ⟨rfl, rfl, rfl⟩
  refine (hm.keeps happend).bind (fun h _ hm => ?_) fun h e _ => spawnOutcome_error
  refine (hm.withLaunch .spawning .active _).bind (fun h _ hm => ?_) fun h e _ => spawnOutcome_error
  have hc : Confirmed runId launchId h := ⟨(hm rfl).drawn, (hm rfl).owns⟩
  refine (updateStatus_running hc).bind (fun h _ hc => ?_) fun h e _ => spawnOutcome_error
  refine (hc rfl).perform trivial (fun h _ hc => ?_) fun h e => spawnOutcome_error
  refine hc.perform trivial (fun h _ hc => ?_) fun h e => spawnOutcome_error
  exact hc.settled.requireRun _

theorem spawnStarted_ensures (hm : Midway runId launchId [] h) (taskId taskSubject runDir : String)
    (nowMs : Nat) :
    (spawnStarted svc runId taskId taskSubject runDir nowMs launchId : PollingProgram H _).Ensures
      spawnGuard spawnOutcome h := by
  refine (hm.keeps (updateStatus_plain runId (by decide) none)).bind (fun h _ hm => ?_)
    fun h e _ => spawnOutcome_error
  refine (hm.withLaunch .reserved .spawning _).bind (fun h _ hm => ?_) fun h e _ => spawnOutcome_error
  have hread : (pollCall (.getById runId) : PollingProgram H _).OnlyCalls Plain :=
    pollCall_plain ⟨rfl, rfl, rfl⟩
  refine ((hm rfl).keeps hread).bind (fun h current hm => ?_) fun h e _ => spawnOutcome_error
  have hspawn : (spawnCurrent svc current taskSubject runDir : PollingProgram H _).OnlyCalls
      Surroundings := by
    cases current with
    | none => trivial
    | some run => exact spawnAgent_surroundings svc run taskSubject runDir
  refine (hm.keeps_surroundings hspawn).bind (fun h handle hm => ?_) fun h e _ => spawnOutcome_error
  obtain _ | handle := handle
  · exact quarantineRun_ensures hm.toUnspawned _ _ _ _
  · exact recordSpawn_ensures hm _ _ _ _

theorem spawnClaimed_ensures (hm : Midway runId launchId [] h) (taskId taskSubject : String)
    (nowMs : Nat) :
    (spawnClaimed svc runId taskId taskSubject nowMs launchId : PollingProgram H _).Ensures
      spawnGuard spawnOutcome h := by
  have hdir : (pollCall (.createRunDir runId) : PollingProgram H _).OnlyCalls Plain :=
    pollCall_plain ⟨rfl, rfl, rfl⟩
  refine (hm.keeps hdir).bind (fun h runDir hm => ?_) fun h e _ => spawnOutcome_error
  refine (ensures_ofExcept_bind _ _).mpr ⟨fun run hrun => ?_, fun e _ => spawnOutcome_error⟩
  have hqueued : run.val.status = .queued := by
    rw [construct_eq_ok.mp hrun]
    rfl
  refine (ensures_perform_bind _ _).mpr
    ⟨fun hrunning => ?_, fun saved => ?_, fun e => spawnOutcome_error⟩
  · rw [hqueued] at hrunning
    cases hrunning
  have hsaved := hm.concat (a := .ok (.inl (.save run)) saved) (fun id now message heq => nomatch heq) rfl
  refine (hsaved.keeps (startTask_plain svc taskId)).bind (fun h refusal hm => ?_)
    fun h e _ => spawnOutcome_error
  obtain _ | message := refusal
  · exact spawnStarted_ensures svc hm _ _ _ _
  · exact refuseRun_ensures hm.toUnspawned _

/-- What a spawn of a poller with a lifecycle service has done at each call and at its end. -/
theorem spawnRun_ensures (hlifecycle : svc.lifecycleService = true) (taskId taskSubject : String) :
    (spawnRun svc taskId taskSubject : PollingProgram H _).Ensures spawnGuard spawnOutcome [] := by
  refine (ensures_perform_bind _ _).mpr ⟨trivial, fun now => ?_, fun e => spawnOutcome_error⟩
  refine (ensures_perform_bind _ _).mpr
    ⟨trivial, fun (runId : String) => ?_, fun e => spawnOutcome_error⟩
  have hu : Unspawned (H := H) runId [.ok (.inl .timeMs) now, .ok (.inl .uuid4Hex) runId] := by
    refine ⟨by simp, fun a ha id now message hcall => ?_⟩
    simp only [List.mem_cons, List.not_mem_nil, or_false] at ha
    rcases ha with rfl | rfl <;> cases hcall
  rw [if_pos hlifecycle]
  have hmild : (launches (requestLaunch (launchRequest svc taskId)) : PollingProgram H _).OnlyCalls
      fun c => startsProcess c = false ∧ writesRun c = false := by
    refine .mono (onlyCalls_lift (i := launchEmbedding H) _) ?_
    rintro _ ⟨c, rfl⟩
    exact ⟨rfl, rfl⟩
  refine (((hu.keeps hmild).and (requestLaunch_owns seenWorld_lift _ _)).mono (fun _ _ hc => hc.1)
    fun _ _ hr => hr).bind (fun h attempt hr => ?_) fun h e _ => spawnOutcome_error
  obtain ⟨hu, howns⟩ := hr
  split_ifs with hdecision
  · exact spawnClaimed_ensures svc ⟨hu, howns attempt rfl hdecision⟩ _ _ _
  refine (ensures_ofExcept_bind _ _).mpr ⟨fun run hrun => ?_, fun e _ => spawnOutcome_error⟩
  have hcancelled : run.val.status = .cancelled := by
    rw [construct_eq_ok.mp hrun]
    rfl
  have hne : run.val.status ≠ .running := by
    rw [hcancelled]
    decide
  refine (ensures_perform_bind _ _).mpr ⟨hne, fun saved => ?_, fun e => spawnOutcome_error⟩
  intro run' hrun'
  cases hrun'
  have hcalm := hu.calm.concat (a := .ok (.inl (.save run)) saved) fun id now message heq => nomatch heq
  exact ⟨fun hrunning => absurd hrunning hne,
    fun ⟨a, ha, id, now, message, hcall⟩ => absurd hcall (hcalm a ha id now message)⟩

end Spawn

end ForkAgent.Polling

import ForkAgent.Polling.Pollers
import ForkAgent.Polling.Transitions

/-!
# Spawning and timing out

A spawn saves its run without a time and moves it to `SPAWNING` once, with the time that it has just read. A check
moves a run to `QUARANTINED` only if it listed the run unresolved and then found it too old, by the clock as it was
read after the status file of the run.
-/

namespace ForkAgent.Polling

open Effects Storage Launch

variable {H : Fpel.Hashing}

def PollRunStatus.IsUnresolved (status : PollRunStatus) : Prop := status = .queued ∨ status = .spawning

section KeepsOut

open Program

variable {α : Type} {statuses : List PollRunStatus}

/-- The calls that neither save a run nor move one to one of the statuses. -/
def KeepsOut (statuses : List PollRunStatus) : (worldSignature H).Call → Prop
  | .inl (.save _) => False
  | .inl (.updateRow _ status ..) => status ∉ statuses
  | _ => True

theorem keepsOut_of_quiet {p : PollingProgram H α} (hp : p.OnlyCalls Quiet) : p.OnlyCalls (KeepsOut statuses) := by
  apply hp.mono
  intro c hc
  cases c with
  | inr c => trivial
  | inl c =>
    cases c with
    | save run => cases hc
    | updateRow id status now errorMessage => cases hc
    | _ => trivial

theorem keepsOut_of_surroundings {p : PollingProgram H α} (hp : p.OnlyCalls Surroundings) :
    p.OnlyCalls (KeepsOut statuses) := keepsOut_of_quiet (quiet_of_surroundings hp)

theorem pollCall_keepsOut {c : PollCall} (hc : KeepsOut (H := H) statuses (.inl c)) :
    (pollCall c : PollingProgram H c.Value).OnlyCalls (KeepsOut statuses) := .perform hc

theorem updateStatus_keepsOut {status : PollRunStatus} (hstatus : status ∉ statuses) (id : String)
    (errorMessage : Option String) :
    (updateStatus id status errorMessage : PollingProgram H Unit).OnlyCalls (KeepsOut statuses) := by
  refine .bind (pollCall_keepsOut trivial) fun current => .bind (.ofExcept _) fun _ => ?_
  exact .bind (pollCall_keepsOut trivial) fun now => pollCall_keepsOut hstatus

theorem requireRun_keepsOut (id gone : String) :
    (requireRun id gone : PollingProgram H PollRun).OnlyCalls (KeepsOut statuses) := by
  refine .bind (pollCall_keepsOut trivial) fun run => ?_
  cases run with
  | none => trivial
  | some run => trivial

theorem terminateSpawnedAgent_keepsOut (hterminating : .terminating ∉ statuses) (hcancelled : .cancelled ∉ statuses)
    (id : String) : (terminateSpawnedAgent id : PollingProgram H Unit).OnlyCalls (KeepsOut statuses) := by
  refine .bind (pollCall_keepsOut trivial) fun current => ?_
  cases current with
  | none => exact keepsOut_of_surroundings (terminateFromEvents_surroundings id)
  | some run =>
    refine .bind ?_ fun _ => ?_
    · cases run.val.status with
      | queued => exact updateStatus_keepsOut hcancelled _ _
      | spawning => exact updateStatus_keepsOut hterminating _ _
      | running => exact updateStatus_keepsOut hterminating _ _
      | quarantined => exact updateStatus_keepsOut hcancelled _ _
      | _ => trivial
    · cases launchHandleFromRun run with
      | none => exact keepsOut_of_surroundings (terminateFromEvents_surroundings id)
      | some handle => exact keepsOut_of_surroundings (terminateLaunchHandle_surroundings handle)

variable (svc : AgentPollingService)

/-- What a run that ends goes through. -/
structure SparesEnds (statuses : List PollRunStatus) : Prop where
  terminating : .terminating ∉ statuses
  cancelled : .cancelled ∉ statuses
  completed : .completed ∉ statuses
  failed : .failed ∉ statuses

theorem completeRun_keepsOut (hends : SparesEnds statuses) (id taskId : String) :
    (completeRun svc id taskId : PollingProgram H Unit).OnlyCalls (KeepsOut statuses) := by
  refine .bind (terminateSpawnedAgent_keepsOut hends.terminating hends.cancelled id) fun _ => ?_
  refine .bind (keepsOut_of_quiet (suppressValueError_quiet _)) fun _ => ?_
  refine .bind (updateStatus_keepsOut hends.completed _ _) fun _ => .bind (pollCall_keepsOut trivial) fun run => ?_
  refine .bind (keepsOut_of_quiet (finalizeIfSome_quiet svc _ _)) fun _ => ?_
  exact keepsOut_of_surroundings (appendStamped_surroundings _ _)

theorem failRun_keepsOut (hends : SparesEnds statuses) (id error : String) :
    (failRun svc id error : PollingProgram H Unit).OnlyCalls (KeepsOut statuses) := by
  refine .bind (pollCall_keepsOut trivial) fun run => ?_
  refine .bind (terminateSpawnedAgent_keepsOut hends.terminating hends.cancelled id) fun _ => ?_
  refine .bind (updateStatus_keepsOut hends.failed _ _) fun _ => ?_
  refine .bind (keepsOut_of_quiet (finalizeIfSome_quiet svc _ _)) fun _ => ?_
  refine .bind (keepsOut_of_surroundings (appendStamped_surroundings _ _)) fun _ => ?_
  cases run with
  | none => trivial
  | some run => exact keepsOut_of_quiet (retryTask_quiet _)

theorem quarantineTimedOut_keepsOut (hquarantined : .quarantined ∉ statuses) (run : PollRun) (reason : String) :
    (quarantineTimedOut run reason : PollingProgram H Bool).OnlyCalls (KeepsOut statuses) := by
  unfold quarantineTimedOut
  split_ifs
  swap
  · trivial
  refine .bind (pollCall_keepsOut trivial) fun now => ?_
  dsimp only
  split_ifs
  · refine .bind (updateStatus_keepsOut hquarantined _ _) fun _ => ?_
    exact .bind (keepsOut_of_surroundings (appendStamped_surroundings _ _)) fun _ => trivial
  · trivial

theorem checkRun_keepsOut (hends : SparesEnds statuses) (hquarantined : .quarantined ∉ statuses) (run : PollRun) :
    (checkRun svc run : PollingProgram H _).OnlyCalls (KeepsOut statuses) := by
  refine .bind (pollCall_keepsOut trivial) fun file => ?_
  cases file with
  | absent =>
    refine .bind ?_ fun _ => .bind (pollCall_keepsOut trivial) fun _ => trivial
    unfold checkMissing
    split_ifs
    · exact .bind (quarantineTimedOut_keepsOut hquarantined run _) fun _ => trivial
    · exact failRun_keepsOut svc hends _ _
  | notObject typeName => trivial
  | object status error =>
    refine .bind ?_ fun _ => .bind (pollCall_keepsOut trivial) fun _ => trivial
    unfold checkReported
    split_ifs
    · exact .bind (completeRun_keepsOut svc hends _ _) fun _ => trivial
    · exact .bind (failRun_keepsOut svc hends _ _) fun _ => trivial
    · exact quarantineTimedOut_keepsOut hquarantined run _

theorem checkRuns_keepsOut (hends : SparesEnds statuses) (hquarantined : .quarantined ∉ statuses) :
    (checkRuns svc : PollingProgram H _).OnlyCalls (KeepsOut statuses) := by
  refine .bind (pollCall_keepsOut trivial) fun active => ?_
  induction active with
  | nil => trivial
  | cons run rest ih => exact .bind (checkRun_keepsOut svc hends hquarantined run) fun _ => .bind ih fun _ => trivial

theorem cancelRun_keepsOut (hends : SparesEnds statuses) (id : String) :
    (cancelRun id : PollingProgram H PollRun).OnlyCalls (KeepsOut statuses) := by
  refine .bind (pollCall_keepsOut trivial) fun current => ?_
  cases current with
  | none => trivial
  | some run =>
    dsimp only
    split_ifs
    · refine .bind (updateStatus_keepsOut hends.cancelled _ _) fun _ => ?_
      refine .bind (keepsOut_of_surroundings (appendStamped_surroundings _ _)) fun _ => ?_
      refine .bind (terminateSpawnedAgent_keepsOut hends.terminating hends.cancelled id) fun _ => ?_
      exact .bind (keepsOut_of_quiet (retryTask_quiet _)) fun _ => requireRun_keepsOut _ _
    · trivial

theorem quarantineRun_keepsOut (hquarantined : .quarantined ∉ statuses) (id taskId : String)
    (launchId : Option String) (message launchReason reason : String) :
    (quarantineRun id taskId launchId message launchReason reason : PollingProgram H _).OnlyCalls
      (KeepsOut statuses) := by
  refine .bind (updateStatus_keepsOut hquarantined _ _) fun _ => ?_
  refine .bind (keepsOut_of_quiet (withLaunch_quiet _ _)) fun _ => ?_
  refine .bind (keepsOut_of_surroundings (appendStamped_surroundings _ _)) fun _ => ?_
  exact requireRun_keepsOut _ _

theorem refuseRun_keepsOut (hfailed : .failed ∉ statuses) (id message : String) (launchId : Option String) :
    (refuseRun id message launchId : PollingProgram H _).OnlyCalls (KeepsOut statuses) := by
  refine .bind (updateStatus_keepsOut hfailed _ _) fun _ => ?_
  exact .bind (keepsOut_of_quiet (withLaunch_quiet _ _)) fun _ => requireRun_keepsOut _ _

theorem recordSpawn_keepsOut (hrunning : .running ∉ statuses) (hquarantined : .quarantined ∉ statuses)
    (id taskId taskSubject : String) (nowMs : Nat) (launchId : Option String) (handle : LaunchHandle) :
    (recordSpawn id taskId taskSubject nowMs launchId handle : PollingProgram H _).OnlyCalls
      (KeepsOut statuses) := by
  refine .bind (.bind (pollCall_keepsOut trivial) fun now => pollCall_keepsOut trivial) fun found => ?_
  cases found
  · refine .bind (keepsOut_of_surroundings (terminateLaunchHandle_surroundings handle)) fun _ => ?_
    exact quarantineRun_keepsOut hquarantined _ _ _ _ _ _
  · refine .bind (pollCall_keepsOut trivial) fun _ => .bind (keepsOut_of_quiet (withLaunch_quiet _ _)) fun _ => ?_
    refine .bind (updateStatus_keepsOut hrunning _ _) fun _ => .bind (pollCall_keepsOut trivial) fun _ => ?_
    exact .bind (pollCall_keepsOut trivial) fun _ => requireRun_keepsOut _ _

end KeepsOut

section Spawn

open Program

variable {α : Type} {h : Answers H} {id : String} {a : Answered (worldSignature H) Exn}

/-- The id of the run that was saved. -/
def savedId : Answered (worldSignature H) Exn → Option String
  | ⟨.inl (.save run), .ok _⟩ => some run.val.id
  | _ => none

/-- A move of the run to `SPAWNING`, whether it is done or not. -/
def SpawnsRun (id : String) (a : Answered (worldSignature H) Exn) : Prop :=
  ∃ now errorMessage, a.call = .inl (.updateRow id .spawning now errorMessage)

/-- The run was saved, and no move of it to `SPAWNING` was tried since. -/
def SavedUnspawned (id : String) (h : Answers H) : Prop :=
  ∃ before a after, h = before ++ a :: after ∧ savedId a = some id ∧ ∀ b ∈ after, ¬ SpawnsRun id b

/-- A run is saved without a time and never as `SPAWNING`. No run is moved back to `QUEUED`, and one that was
saved is moved to `SPAWNING` once, with the time as it was just read. -/
def timeGuard (h : Answers H) : (worldSignature H).Call → Prop
  | .inl (.save run) => run.val.startedAt = none ∧ run.val.status ≠ .spawning
  | .inl (.updateRow id status now _) => status ≠ .queued ∧ (status = .spawning →
      ∃ before n, h = before ++ [.ok (.inl .timeMs) n] ∧ now = Int.ofNat n ∧ SavedUnspawned id before)
  | _ => True

abbrev spawnStatuses : List PollRunStatus := [.queued, .spawning]

theorem timeGuard_of_keepsOut {c : (worldSignature H).Call} (hc : KeepsOut spawnStatuses c) : timeGuard h c := by
  cases c with
  | inr c => trivial
  | inl c =>
    cases c with
    | save run => cases hc
    | updateRow id status now errorMessage =>
      simp only [KeepsOut, List.mem_cons, List.not_mem_nil, or_false, not_or] at hc
      exact ⟨hc.1, fun hspawning => absurd hspawning hc.2⟩
    | _ => trivial

theorem SavedUnspawned.concat (hu : SavedUnspawned id h) (ha : ¬ SpawnsRun id a) : SavedUnspawned id (h ++ [a]) := by
  obtain ⟨before, b, after, rfl, hsaved, hafter⟩ := hu
  refine ⟨before, b, after ++ [a], by simp, hsaved, ?_⟩
  intro c hc
  cases List.mem_append.mp hc with
  | inl hc => exact hafter c hc
  | inr hc =>
    rw [List.mem_singleton.mp hc]
    exact ha

theorem not_spawnsRun_of_keepsOut (ha : KeepsOut spawnStatuses a.call) : ¬ SpawnsRun id a := by
  intro h
  obtain ⟨now, errorMessage, hcall⟩ := h
  rw [hcall] at ha
  simp [KeepsOut] at ha

theorem SavedUnspawned.keeps (hu : SavedUnspawned id h) {p : PollingProgram H α}
    (hp : p.OnlyCalls (KeepsOut spawnStatuses)) :
    p.Ensures timeGuard (fun h' _ => SavedUnspawned id h') h :=
  hp.keeps (fun _ _ ha hu => hu.concat (not_spawnsRun_of_keepsOut ha)) (fun _ _ _ hc => timeGuard_of_keepsOut hc) hu

theorem timed_of_keepsOut {p : PollingProgram H α} (hp : p.OnlyCalls (KeepsOut spawnStatuses)) :
    p.Ensures timeGuard (fun _ _ => True) h :=
  hp.ensures (fun _ _ hc => timeGuard_of_keepsOut hc) fun _ _ => trivial

theorem updateStatus_timed (hu : SavedUnspawned id h) (errorMessage : Option String) :
    (updateStatus id .spawning errorMessage : PollingProgram H Unit).Ensures timeGuard (fun _ _ => True) h := by
  refine (hu.keeps (pollCall_keepsOut (c := .getById id) trivial)).bind (fun h₁ current hu₁ => ?_) fun _ _ _ => trivial
  refine (ensures_ofExcept_bind _ _).mpr ⟨fun _ _ => ?_, fun _ _ => trivial⟩
  refine (ensures_perform_bind _ _).mpr ⟨trivial, fun n => ?_, fun _ => trivial⟩
  refine ⟨⟨by decide, fun _ => ⟨h₁, n, rfl, rfl, hu₁⟩⟩, fun r => ?_⟩
  cases r with
  | error e => trivial
  | ok u => trivial

variable (svc : AgentPollingService)

theorem spawnStarted_timed (hu : SavedUnspawned id h) (taskId taskSubject runDir : String) (nowMs : Nat)
    (launchId : Option String) :
    (spawnStarted svc id taskId taskSubject runDir nowMs launchId).Ensures timeGuard (fun _ _ => True) h := by
  refine (updateStatus_timed hu none).bind (fun h₁ _ _ => ?_) fun _ _ _ => trivial
  apply timed_of_keepsOut
  refine .bind (keepsOut_of_quiet (withLaunch_quiet _ _)) fun _ => .bind (pollCall_keepsOut trivial) fun current => ?_
  refine .bind (keepsOut_of_quiet (spawnCurrent_quiet svc current _ _)) fun handle => ?_
  cases handle with
  | none => exact quarantineRun_keepsOut (by decide) _ _ _ _ _ _
  | some handle => exact recordSpawn_keepsOut (by decide) (by decide) _ _ _ _ _ _

theorem spawnClaimed_timed (id taskId taskSubject : String) (nowMs : Nat) (launchId : Option String) :
    (spawnClaimed svc id taskId taskSubject nowMs launchId : PollingProgram H _).Ensures timeGuard
      (fun _ _ => True) h := by
  refine (ensures_perform_bind _ _).mpr ⟨trivial, fun runDir => ?_, fun _ => trivial⟩
  refine (ensures_ofExcept_bind _ _).mpr ⟨fun run hrun => ?_, fun _ _ => trivial⟩
  have hval : run.val = queuedRun id taskId runDir launchId := construct_eq_ok.mp hrun
  have hguard : timeGuard (h ++ [.ok (.inl (.createRunDir id)) runDir]) (.inl (.save run)) := by
    rw [timeGuard, hval]
    exact ⟨rfl, nofun⟩
  refine (ensures_perform_bind _ _).mpr ⟨hguard, fun u => ?_, fun _ => trivial⟩
  have hu : SavedUnspawned id (h ++ [.ok (.inl (.createRunDir id)) runDir] ++ [.ok (.inl (.save run)) u]) := by
    refine ⟨_, _, [], rfl, ?_, by simp⟩
    rw [savedId, hval]
    rfl
  refine (hu.keeps (keepsOut_of_quiet (startTask_quiet svc taskId))).bind (fun h₁ refusal hu₁ => ?_)
    fun _ _ _ => trivial
  cases refusal with
  | some message => exact timed_of_keepsOut (refuseRun_keepsOut (by decide) _ _ _)
  | none => exact spawnStarted_timed svc hu₁ _ _ _ _ _

theorem spawnRun_timed (taskId taskSubject : String) :
    (spawnRun svc taskId taskSubject : PollingProgram H _).Ensures timeGuard (fun _ _ => True) h := by
  refine (ensures_perform_bind _ _).mpr ⟨trivial, fun now => ?_, fun _ => trivial⟩
  refine (ensures_perform_bind _ _).mpr ⟨trivial, fun id => ?_, fun _ => trivial⟩
  split_ifs
  swap
  · exact spawnClaimed_timed svc _ _ _ _ _
  refine (timed_of_keepsOut (keepsOut_of_quiet (launches_quiet _))).bind (fun h₁ attempt _ => ?_) fun _ _ _ => trivial
  split_ifs
  · exact spawnClaimed_timed svc _ _ _ _ _
  -- a launch that was refused is recorded as cancelled
  refine (ensures_ofExcept_bind _ _).mpr ⟨fun run hrun => ?_, fun _ _ => trivial⟩
  have hval : run.val = suppressedRun id taskId attempt := construct_eq_ok.mp hrun
  refine (ensures_perform_bind _ _).mpr ⟨?_, fun u => trivial, fun _ => trivial⟩
  rw [timeGuard, hval]
  exact ⟨rfl, nofun⟩

theorem spawnEach_timed (found : List TaskBoard.OrchestrationTask) :
    (spawnEach svc found : PollingProgram H _).Ensures timeGuard (fun _ _ => True) h := by
  induction found generalizing h with
  | nil => trivial
  | cons task rest ih =>
    refine (spawnRun_timed svc _ _).bind (fun h₁ run _ => ?_) fun _ _ _ => trivial
    exact ih.bind (fun _ _ _ => trivial) fun _ _ _ => trivial

theorem sparesEnds_spawnStatuses : SparesEnds spawnStatuses := ⟨by decide, by decide, by decide, by decide⟩

theorem program_timed (o : PollingOp) : (o.program H svc).Ensures timeGuard (fun _ _ => True) h := by
  cases o with
  | checkRuns => exact timed_of_keepsOut (checkRuns_keepsOut svc sparesEnds_spawnStatuses (by decide))
  | cancelRun id => exact timed_of_keepsOut (cancelRun_keepsOut sparesEnds_spawnStatuses id)
  | pollOnce =>
    refine (timed_of_keepsOut (keepsOut_of_quiet (reconcile_quiet svc))).bind (fun h₁ _ _ => ?_)
      fun _ _ _ => trivial
    refine (ensures_perform_bind _ _).mpr ⟨trivial, fun blocking => ?_, fun _ => trivial⟩
    dsimp only
    split_ifs
    · trivial
    refine (timed_of_keepsOut (keepsOut_of_quiet (tasks_quiet _))).bind (fun h₃ approved _ => ?_)
      fun _ _ _ => trivial
    refine (timed_of_keepsOut (keepsOut_of_quiet (candidates_quiet svc _ _))).bind (fun h₄ found _ => ?_)
      fun _ _ _ => trivial
    exact spawnEach_timed svc _

end Spawn

section Check

open Program

variable {α : Type} {h : Answers H} {id : String} {active : List PollRun} {run : PollRun}

/-- The status file says that the run has ended. -/
def StatusFile.ReportsEnd : StatusFile → Prop
  | .object status _ => status = some "COMPLETED" ∨ status = some "FAILED"
  | _ => False

/-- The age of a listed run in milliseconds is over the timeout. -/
def IsOverdue (run : PollRun) (now : Nat) : Prop :=
  1000 * Int.ofNat queuedTimeoutS < Int.ofNat now - run.val.startedAt.getD 0

/-- The run was listed unresolved, and after its status file was read it was found overdue. -/
def TimedOut (id : String) (h : Answers H) : Prop :=
  ∃ before file now after active run,
    h = before ++ readStatus id file :: .ok (.inl .timeMs) now :: after ∧ listedActive active ∈ before ∧
      run ∈ active ∧ run.val.id = id ∧ run.val.status.IsUnresolved ∧ IsOverdue run now

/-- A check quarantines no run that has not timed out. -/
def checkGuard (h : Answers H) : (worldSignature H).Call → Prop
  | .inl (.updateRow id status ..) => status = .quarantined → TimedOut id h
  | _ => True

/-- The run was moved to `QUARANTINED`. -/
def QuarantinesRun (id : String) (a : Answered (worldSignature H) Exn) : Prop :=
  ∃ now errorMessage, a = .ok (.inl (.updateRow id .quarantined now errorMessage)) ()

/-- The status file of the run was read. If it did not say that the run has ended the clock was read next, and if
the run was overdue then, it was quarantined. -/
def TurnDone (run : PollRun) (h : Answers H) : Prop :=
  ∃ before file after, h = before ++ readStatus run.val.id file :: after ∧ (file.ReportsEnd ∨
    ∃ now rest, after = .ok (.inl .timeMs) now :: rest ∧
      (IsOverdue run now → ∃ a ∈ rest, QuarantinesRun run.val.id a))

theorem TimedOut.append (ht : TimedOut id h) (later : Answers H) : TimedOut id (h ++ later) := by
  obtain ⟨before, file, now, after, active, run, rfl, hrest⟩ := ht
  exact ⟨before, file, now, after ++ later, active, run, by simp, hrest⟩

theorem TurnDone.append (ht : TurnDone run h) (later : Answers H) : TurnDone run (h ++ later) := by
  obtain ⟨before, file, after, rfl, hdone⟩ := ht
  refine ⟨before, file, after ++ later, by simp, hdone.imp_right ?_⟩
  intro hquarantined
  obtain ⟨now, rest, rfl, hoverdue⟩ := hquarantined
  refine ⟨now, rest ++ later, rfl, fun ho => ?_⟩
  obtain ⟨a, ha, hmoves⟩ := hoverdue ho
  exact ⟨a, List.mem_append_left _ ha, hmoves⟩

theorem checkGuard_of_keepsOut {c : (worldSignature H).Call} (hc : KeepsOut [.quarantined] c) :
    checkGuard h c := by
  cases c with
  | inr c => trivial
  | inl c =>
    cases c with
    | updateRow id status now errorMessage =>
      intro hstatus
      exact absurd (List.mem_singleton.mpr hstatus) hc
    | _ => trivial

theorem checked_of_keepsOut {p : PollingProgram H α} (hp : p.OnlyCalls (KeepsOut [.quarantined])) :
    p.Ensures checkGuard (fun _ _ => True) h :=
  hp.ensures (fun _ _ hc => checkGuard_of_keepsOut hc) fun _ _ => trivial

theorem TurnDone.keeps (ht : TurnDone run h) {p : PollingProgram H α} (hp : p.OnlyCalls (KeepsOut [.quarantined])) :
    p.Ensures checkGuard (fun h' _ => TurnDone run h') h :=
  hp.keeps (fun _ _ _ ht => ht.append _) (fun _ _ _ hc => checkGuard_of_keepsOut hc) ht

theorem updateStatus_quarantines (ht : TimedOut id h) (errorMessage : Option String) :
    (updateStatus id .quarantined errorMessage : PollingProgram H Unit).Ensures checkGuard
      (fun h' out => ∀ u, out = .ok u → ∃ later a, h' = h ++ later ∧ a ∈ later ∧ QuarantinesRun id a) h := by
  refine (ensures_perform_bind _ _).mpr ⟨trivial, fun current => ?_, nofun⟩
  refine (ensures_ofExcept_bind _ _).mpr ⟨fun _ _ => ?_, nofun⟩
  refine (ensures_perform_bind _ _).mpr ⟨trivial, fun n => ?_, nofun⟩
  refine ⟨fun _ => (ht.append _).append _, fun r => ?_⟩
  cases r with
  | error e => exact nofun
  | ok u =>
    intro _ _
    refine ⟨_, .ok (.inl (.updateRow id .quarantined (Int.ofNat n) errorMessage)) (),
      by rw [List.append_assoc, List.append_assoc], ?_, _, _, rfl⟩
    exact List.mem_append_right _ (List.mem_append_right _ (List.mem_singleton.mpr rfl))

/-- The turn of an unresolved run whose file does not say that it has ended. -/
theorem quarantineTimedOut_done {file : StatusFile} (hlisted : listedActive active ∈ h) (hrun : run ∈ active)
    (hstatus : run.val.status.IsUnresolved) (reason : String) :
    (quarantineTimedOut run reason : PollingProgram H Bool).Ensures checkGuard
      (fun h' out => ∀ v, out = .ok v → TurnDone run h') (h ++ [readStatus run.val.id file]) := by
  unfold quarantineTimedOut
  split_ifs with hunresolved
  swap
  · exact absurd hstatus hunresolved
  refine (ensures_perform_bind _ _).mpr ⟨trivial, fun now => ?_, nofun⟩
  dsimp only
  have hclock : h ++ [readStatus run.val.id file] ++ [.ok (.inl .timeMs) now] =
      h ++ readStatus run.val.id file :: .ok (.inl .timeMs) now :: [] := by simp
  split_ifs with hoverdue
  · have htimedOut : TimedOut run.val.id (h ++ [readStatus run.val.id file] ++ [.ok (.inl .timeMs) now]) :=
      ⟨h, file, now, [], active, run, hclock, hlisted, hrun, rfl, hstatus, hoverdue⟩
    refine (updateStatus_quarantines htimedOut _).bind (fun h₁ u hmoved => ?_) fun _ _ _ => nofun
    obtain ⟨later, a, rfl, ha, hmoves⟩ := hmoved u rfl
    have hdone : TurnDone run (h ++ [readStatus run.val.id file] ++ [.ok (.inl .timeMs) now] ++ later) := by
      rw [hclock, List.append_assoc]
      exact ⟨h, file, _, rfl, .inr ⟨now, later, rfl, fun _ => ⟨a, ha, hmoves⟩⟩⟩
    refine (hdone.keeps (keepsOut_of_surroundings (appendStamped_surroundings _ _))).bind
      (fun _ _ hdone' => ?_) fun _ _ _ => nofun
    intro _ _
    exact hdone'
  · intro _ _
    rw [hclock]
    exact ⟨h, file, _, rfl, .inr ⟨now, [], rfl, fun ho => absurd ho hoverdue⟩⟩

variable (svc : AgentPollingService)

theorem sparesEnds_quarantined : SparesEnds [.quarantined] := ⟨by decide, by decide, by decide, by decide⟩

theorem checkMissing_done (hlisted : listedActive active ∈ h) (hrun : run ∈ active) {file : StatusFile} :
    (checkMissing svc run : PollingProgram H Unit).Ensures checkGuard
      (fun h' out => ∀ v, out = .ok v → run.val.status.IsUnresolved → TurnDone run h')
      (h ++ [readStatus run.val.id file]) := by
  unfold checkMissing
  split_ifs with hstatus
  · refine (quarantineTimedOut_done hlisted hrun hstatus _).bind (fun h₁ v hdone => ?_) fun _ _ _ => nofun
    intro _ _ _
    exact hdone v rfl
  · refine (checked_of_keepsOut (failRun_keepsOut svc sparesEnds_quarantined _ _)).mono (fun _ _ h => h) ?_
    intro _ _ _ _ _ hunresolved
    exact absurd hunresolved hstatus

theorem checkReported_done (hlisted : listedActive active ∈ h) (hrun : run ∈ active) (status error : Option String) :
    (checkReported svc run status error : PollingProgram H Bool).Ensures checkGuard
      (fun h' out => ∀ v, out = .ok v → run.val.status.IsUnresolved → TurnDone run h')
      (h ++ [readStatus run.val.id (.object status error)]) := by
  have hreported (hends : (StatusFile.object status error).ReportsEnd) :
      TurnDone run (h ++ [readStatus run.val.id (.object status error)]) := ⟨h, _, [], rfl, .inl hends⟩
  unfold checkReported
  split_ifs with hcompleted hfailed
  · refine ((hreported (.inl hcompleted)).keeps (completeRun_keepsOut svc sparesEnds_quarantined _ _)).bind
      (fun h₁ _ hdone => ?_) fun _ _ _ => nofun
    intro _ _ _
    exact hdone
  · refine ((hreported (.inr hfailed)).keeps (failRun_keepsOut svc sparesEnds_quarantined _ _)).bind
      (fun h₁ _ hdone => ?_) fun _ _ _ => nofun
    intro _ _ _
    exact hdone
  · by_cases hstatus : run.val.status.IsUnresolved
    · refine (quarantineTimedOut_done hlisted hrun hstatus _).mono (fun _ _ h => h) ?_
      intro _ _ hdone v hv _
      exact hdone v hv
    · unfold quarantineTimedOut
      rw [if_neg (show ¬ (run.val.status = .queued ∨ run.val.status = .spawning) from hstatus)]
      intro _ _ hunresolved
      exact absurd hunresolved hstatus

theorem checkRun_done (hlisted : listedActive active ∈ h) (hrun : run ∈ active) :
    (checkRun svc run : PollingProgram H _).Ensures checkGuard
      (fun h' out => ∀ v, out = .ok v → run.val.status.IsUnresolved → TurnDone run h') h := by
  refine (ensures_perform_bind _ _).mpr ⟨trivial, fun file => ?_, nofun⟩
  cases file with
  | notObject typeName => exact nofun
  | absent =>
    refine (checkMissing_done svc hlisted hrun).bind (fun h₁ u hdone => ?_) fun _ _ _ => nofun
    refine (ensures_perform_bind _ _).mpr ⟨trivial, fun current => ?_, nofun⟩
    intro _ _ hunresolved
    exact (hdone u rfl hunresolved).append _
  | object status error =>
    refine (checkReported_done svc hlisted hrun status error).bind (fun h₁ u hdone => ?_) fun _ _ _ => nofun
    refine (ensures_perform_bind _ _).mpr ⟨trivial, fun current => ?_, nofun⟩
    intro _ _ hunresolved
    exact (hdone u rfl hunresolved).append _

theorem checkEach_done {rest : List PollRun} (hsub : rest ⊆ active) (hlisted : listedActive active ∈ h) :
    (checkEach svc rest : PollingProgram H _).Ensures checkGuard
      (fun h' out => ∀ v, out = .ok v → ∀ run ∈ rest, run.val.status.IsUnresolved → TurnDone run h') h := by
  induction rest generalizing h with
  | nil =>
    intro _ _ run hrun
    cases hrun
  | cons run rest ih =>
    obtain ⟨hrun, hrest⟩ := List.cons_subset.mp hsub
    refine (checkRun_done svc hlisted hrun).extends.bind (fun h₁ updated hturn => ?_) fun _ _ _ => nofun
    obtain ⟨hdone, later, rfl⟩ := hturn
    refine (ih hrest (List.mem_append_left _ hlisted)).extends.bind (fun h₂ others hturns => ?_) fun _ _ _ => nofun
    obtain ⟨hdones, later', rfl⟩ := hturns
    intro _ _ other hother hunresolved
    cases hother with
    | head => exact (hdone updated rfl hunresolved).append later'
    | tail _ hother => exact hdones others rfl other hother hunresolved

theorem checkRuns_done :
    (checkRuns svc : PollingProgram H _).Ensures checkGuard (fun h out => ∀ v, out = .ok v →
      ∃ active rest, h = listedActive active :: rest ∧
        ∀ run ∈ active, run.val.status.IsUnresolved → TurnDone run h) [] := by
  refine (ensures_perform_bind _ _).mpr ⟨trivial, fun active => ?_, nofun⟩
  have hlisted : listedActive active ∈ ([] ++ [listedActive active] : Answers H) := by simp
  refine (checkEach_done svc (List.Subset.refl active) hlisted).extends.mono (fun _ _ h => h) ?_
  intro _ out hdone v hv
  obtain ⟨hdone, later, rfl⟩ := hdone
  exact ⟨active, later, rfl, hdone v hv⟩

end Check

end ForkAgent.Polling

import ForkAgent.Polling.Served
import ForkAgent.Effects.Schedule

/-!
# Several pollers

Any number of pollers, each built as it is, on one task board. A run is saved with an insert or
replace, and a replace takes away every row that shares a key with the new one. Where a save meets
no such row, rows stay and a recorded handle stays with its run.
-/

namespace ForkAgent.Polling

open Effects Storage Launch

variable {H : Fpel.Hashing}

/-- Pollers with and without a lifecycle service, among the other services. -/
def pollersSystem (H : Fpel.Hashing) : System (worldSignature H) Exn World where
  Op := AgentPollingService × PollingOp
  Result o := o.2.Result
  program o := o.2.program H o.1
  step := step H
  outside := others H
  initial w := w = ({}, {}, {}, {})

section Rows

variable {s s' : PollStore}

/-- The later row is of the same run. -/
structure SameRun (r r' : PollRunFields) : Prop where
  id : r'.id = r.id
  taskId : r'.taskId = r.taskId
  agentName : r'.agentName = r.agentName
  pollRunDir : r'.pollRunDir = r.pollRunDir
  canonicalKey : r'.canonicalKey = r.canonicalKey

theorem SameRun.refl (r : PollRunFields) : SameRun r r := ⟨rfl, rfl, rfl, rfl, rfl⟩

theorem SameRun.trans {r₁ r₂ r₃ : PollRunFields} (h : SameRun r₁ r₂) (h' : SameRun r₂ r₃) :
    SameRun r₁ r₃ where
  id := h'.id.trans h.id
  taskId := h'.taskId.trans h.taskId
  agentName := h'.agentName.trans h.agentName
  pollRunDir := h'.pollRunDir.trans h.pollRunDir
  canonicalKey := h'.canonicalKey.trans h.canonicalKey

/-- The row holds what terminates the agent. -/
structure HoldsHandle (handle : LaunchHandle) (r : PollRunFields) : Prop where
  method : r.launchMethod = some handle.method
  paneId : r.launchPaneId = handle.paneId
  pid : r.launchPid = handle.pid
  pgid : r.launchPgid = handle.pgid

/-- Every run of the first table is still in the second. -/
def RunsKept (s s' : PollStore) : Prop :=
  ∀ r ∈ s.pollRuns, ∃ r' ∈ s'.pollRuns, SameRun r r'

theorem RunsKept.refl (s : PollStore) : RunsKept s s := fun r hr => ⟨r, hr, .refl r⟩

theorem RunsKept.trans {s₁ s₂ s₃ : PollStore} (h : RunsKept s₁ s₂) (h' : RunsKept s₂ s₃) :
    RunsKept s₁ s₃ := by
  intro r hr
  obtain ⟨r₂, hr₂, hsame⟩ := h r hr
  obtain ⟨r₃, hr₃, hsame'⟩ := h' r₂ hr₂
  exact ⟨r₃, hr₃, hsame.trans hsame'⟩

/-- The id of the run is new and, if the index on the task covers the run, it covers no other run
of the task. -/
structure SavesAlone (s : PollStore) (run : PollRun) : Prop where
  fresh : ∀ r ∈ s.pollRuns, r.id ≠ run.val.id
  alone : run.val.status.isIndexed = true →
    ∀ r ∈ s.pollRuns, r.status.isIndexed = true → r.taskId ≠ run.val.taskId

theorem SavesAlone.mem_save {run : PollRun} (h : SavesAlone s run) {r : PollRunFields}
    (hr : r ∈ s.pollRuns) : r ∈ (s.save run).pollRuns := by
  have hid : conflicts PollStore.runId [r] run.val = false := by
    rw [conflicts_eq_false]
    intro x hx k hk hk'
    rw [List.mem_singleton.mp hx] at hk'
    cases hk
    exact h.fresh r hr (Option.some.inj hk')
  have htask : conflicts PollStore.activeTask [r] run.val = false := by
    rw [conflicts_eq_false]
    intro x hx k hk hk'
    rw [List.mem_singleton.mp hx] at hk'
    unfold PollStore.activeTask at hk hk'
    split_ifs at hk hk' with hrun hrow
    cases hk
    exact h.alone hrun r hr hrow (Option.some.inj hk')
  exact List.mem_append_left _ (List.mem_filter.mpr ⟨hr, by simp [hid, htask]⟩)

theorem sameRun_set (status : PollRunStatus) (now : Int) (errorMessage : Option String)
    (r : PollRunFields) : SameRun r (PollStore.set status now errorMessage r) := by
  unfold PollStore.set
  split_ifs
  · exact ⟨rfl, rfl, rfl, rfl, rfl⟩
  · exact ⟨rfl, rfl, rfl, rfl, rfl⟩

theorem HoldsHandle.set {handle : LaunchHandle} {r : PollRunFields} (h : HoldsHandle handle r)
    (status : PollRunStatus) (now : Int) (errorMessage : Option String) :
    HoldsHandle handle (PollStore.set status now errorMessage r) := by
  unfold PollStore.set
  split_ifs
  · exact ⟨h.method, h.paneId, h.pid, h.pgid⟩
  · exact ⟨h.method, h.paneId, h.pid, h.pgid⟩

/-- What a call makes of a row that it does not take away: the row of the same run, with the handle
it held unless the call records one for this run. -/
theorem row_step {c : PollCall} {answer : Except Exn c.Value} (h : PollStore.step ⟨c, answer⟩ s s')
    (hsave : ∀ run, c = .save run → SavesAlone s run) {r : PollRunFields} (hr : r ∈ s.pollRuns) :
    ∃ r' ∈ s'.pollRuns, SameRun r r' ∧ ∀ handle, HoldsHandle handle r →
      (∀ recorded now launchId, c ≠ .recordLaunchMetadata r.id recorded now launchId) →
      HoldsHandle handle r' := by
  have hstays : s' = s → ∃ r' ∈ s'.pollRuns, SameRun r r' ∧ ∀ handle, HoldsHandle handle r →
      (∀ recorded now launchId, c ≠ .recordLaunchMetadata r.id recorded now launchId) →
      HoldsHandle handle r' := by
    rintro rfl
    exact ⟨r, hr, .refl r, fun _ hholds _ => hholds⟩
  by_cases hwrite : c.isWrite = true
  swap
  · exact hstays (PollStore.step_eq h (by simpa using hwrite))
  cases c with
  | save run =>
    rcases h with ⟨-, rfl⟩ | ⟨hsame, -⟩
    · exact ⟨r, (hsave run rfl).mem_save hr, .refl r, fun _ hholds _ => hholds⟩
    · exact hstays hsame
  | updateRow id status now errorMessage =>
    rcases PollStore.updateRow_cases h with ⟨rfl, -⟩ | ⟨hsame, -⟩
    · refine ⟨_, updateWhere_of_mem hr, ?_, fun handle hholds _ => ?_⟩
      · split_ifs
        · exact sameRun_set _ _ _ r
        · exact .refl r
      · split_ifs
        · exact hholds.set _ _ _
        · exact hholds
    · exact hstays hsame
  | recordLaunchMetadata id recorded now launchId =>
    rcases h with ⟨-, rfl⟩ | ⟨hsame, -⟩
    · refine ⟨_, updateWhere_of_mem hr, ?_, fun handle hholds hother => ?_⟩
      · split_ifs
        · exact ⟨rfl, rfl, rfl, rfl, rfl⟩
        · exact .refl r
      · have hne : ¬ (r.id == id) = true := by
          intro heq
          rw [beq_iff_eq] at heq
          subst heq
          exact hother recorded now launchId rfl
        rw [if_neg hne]
        exact hholds
    · exact hstays hsame
  | _ => cases hwrite

end Rows

section Guard

variable {α : Type} {h : List (Answered (worldSignature H) Exn)}

/-- The answers that save a run under the id. -/
def savesRunOf (id : String) : Answered (worldSignature H) Exn → Bool
  | ⟨.inl (.save run), .ok _⟩ => run.val.id == id
  | _ => false

/-- The calls that record a handle for the id. -/
def recordsRunOf (id : String) (a : Answered (worldSignature H) Exn) : Bool :=
  match a.call with
  | .inl (.recordLaunchMetadata runId ..) => runId == id
  | _ => false

/-- No more handles recorded for an id than runs saved under it. -/
def Balanced (h : List (Answered (worldSignature H) Exn)) : Prop :=
  ∀ id, h.countP (recordsRunOf id) ≤ h.countP (savesRunOf id)

/-- Besides, the last run saved under the id has no handle yet. -/
structure Unrecorded (id : String) (h : List (Answered (worldSignature H) Exn)) : Prop where
  balanced : Balanced h
  pending : h.countP (recordsRunOf id) < h.countP (savesRunOf id)

/-- A handle is recorded for a run that the caller has saved and not recorded one for. -/
def recordGuard (h : List (Answered (worldSignature H) Exn)) : (worldSignature H).Call → Prop
  | .inl (.recordLaunchMetadata id ..) => h.countP (recordsRunOf id) < h.countP (savesRunOf id)
  | _ => True

/-- The calls that neither save a run nor record a handle. -/
def Neutral : (worldSignature H).Call → Prop
  | .inl (.save _) => False
  | .inl (.recordLaunchMetadata ..) => False
  | _ => True

theorem counts_neutral {a : Answered (worldSignature H) Exn} (ha : Neutral a.call) (id : String) :
    (h ++ [a]).countP (recordsRunOf id) = h.countP (recordsRunOf id) ∧
      (h ++ [a]).countP (savesRunOf id) = h.countP (savesRunOf id) := by
  obtain ⟨c | c, r⟩ := a
  · cases c with
    | save run => cases ha
    | recordLaunchMetadata => cases ha
    | _ => simp [recordsRunOf, savesRunOf]
  · simp [recordsRunOf, savesRunOf]

theorem Balanced.neutral (hb : Balanced h) {a : Answered (worldSignature H) Exn}
    (ha : Neutral a.call) : Balanced (h ++ [a]) := by
  intro id
  obtain ⟨hrecords, hsaves⟩ := counts_neutral (h := h) ha id
  rw [hrecords, hsaves]
  exact hb id

theorem Unrecorded.neutral {id : String} (hu : Unrecorded id h) {a : Answered (worldSignature H) Exn}
    (ha : Neutral a.call) : Unrecorded id (h ++ [a]) := by
  refine ⟨hu.balanced.neutral ha, ?_⟩
  obtain ⟨hrecords, hsaves⟩ := counts_neutral (h := h) ha id
  rw [hrecords, hsaves]
  exact hu.pending

theorem recordGuard_of_neutral {c : (worldSignature H).Call} (hc : Neutral c) : recordGuard h c := by
  obtain c | c := c
  · cases c with
    | recordLaunchMetadata => cases hc
    | _ => trivial
  · trivial

theorem Balanced.keeps (hb : Balanced h) {p : PollingProgram H α} (hp : p.OnlyCalls Neutral) :
    p.Ensures recordGuard (fun h' _ => Balanced h') h :=
  hp.keeps (fun _ _ ha hb => hb.neutral ha) (fun _ _ _ hc => recordGuard_of_neutral hc) hb

theorem Unrecorded.keeps {id : String} (hu : Unrecorded id h) {p : PollingProgram H α}
    (hp : p.OnlyCalls Neutral) : p.Ensures recordGuard (fun h' _ => Unrecorded id h') h :=
  hp.keeps (fun _ _ ha hu => hu.neutral ha) (fun _ _ _ hc => recordGuard_of_neutral hc) hu

theorem Balanced.saved (hb : Balanced h) (run : PollRun) (u : Unit) :
    Unrecorded run.val.id (h ++ [⟨.inl (.save run), .ok u⟩]) := by
  have hrecords : ∀ id, (h ++ [(⟨.inl (.save run), .ok u⟩ : Answered (worldSignature H) Exn)]).countP
      (recordsRunOf id) = h.countP (recordsRunOf id) := fun id => by simp [recordsRunOf]
  refine ⟨fun id => ?_, ?_⟩
  · rw [hrecords, List.countP_append]
    exact (hb id).trans (Nat.le_add_right _ _)
  · have hsaves : (h ++ [(⟨.inl (.save run), .ok u⟩ : Answered (worldSignature H) Exn)]).countP
        (savesRunOf run.val.id) = h.countP (savesRunOf run.val.id) + 1 := by simp [savesRunOf]
    rw [hrecords, hsaves]
    exact Nat.lt_succ_of_le (hb run.val.id)

theorem Balanced.save_failed (hb : Balanced h) (run : PollRun) (e : Exn) :
    Balanced (h ++ [⟨.inl (.save run), .error e⟩]) := by
  intro id
  simpa [recordsRunOf, savesRunOf] using hb id

theorem Unrecorded.recorded {id : String} (hu : Unrecorded id h) (handle : LaunchHandle) (now : Int)
    (launchId : Option String) (r : Except Exn Bool) :
    Balanced (h ++ [⟨.inl (.recordLaunchMetadata id handle now launchId), r⟩]) := by
  intro id'
  by_cases hid : id = id'
  · subst hid
    have := hu.pending
    simp [recordsRunOf, savesRunOf]
    omega
  · simpa [recordsRunOf, savesRunOf, hid] using hu.balanced id'

end Guard

section Neutral

open Program

variable {α : Type}

theorem neutral_of_quiet {p : PollingProgram H α} (hp : p.OnlyCalls Quiet) : p.OnlyCalls Neutral := by
  refine hp.mono ?_
  rintro (c | c) hc
  · cases c with
    | save run => cases hc
    | recordLaunchMetadata => cases hc
    | _ => trivial
  · trivial

theorem neutral_of_surroundings {p : PollingProgram H α} (hp : p.OnlyCalls Surroundings) :
    p.OnlyCalls Neutral := neutral_of_quiet (quiet_of_surroundings hp)

theorem pollCall_neutral {c : PollCall} (hc : Neutral (H := H) (.inl c)) :
    (pollCall c : PollingProgram H c.Value).OnlyCalls Neutral := .perform hc

theorem updateStatus_neutral (id : String) (status : PollRunStatus) (errorMessage : Option String) :
    (updateStatus id status errorMessage : PollingProgram H Unit).OnlyCalls Neutral := by
  refine .bind (pollCall_neutral trivial) fun current => .bind (.ofExcept _) fun _ => ?_
  exact .bind (pollCall_neutral trivial) fun now => pollCall_neutral trivial

theorem requireRun_neutral (id gone : String) :
    (requireRun id gone : PollingProgram H PollRun).OnlyCalls Neutral := by
  refine .bind (pollCall_neutral trivial) fun run => ?_
  cases run <;> trivial

theorem quarantineRun_neutral (id taskId : String) (launchId : Option String)
    (message launchReason reason : String) :
    (quarantineRun id taskId launchId message launchReason reason : PollingProgram H _).OnlyCalls
      Neutral := by
  refine .bind (updateStatus_neutral _ _ _) fun _ => ?_
  refine .bind (neutral_of_quiet (withLaunch_quiet _ _)) fun _ => ?_
  refine .bind (neutral_of_surroundings (appendStamped_surroundings _ _)) fun _ => ?_
  exact requireRun_neutral _ _

theorem refuseRun_neutral (id message : String) (launchId : Option String) :
    (refuseRun id message launchId : PollingProgram H _).OnlyCalls Neutral := by
  refine .bind (updateStatus_neutral _ _ _) fun _ => ?_
  exact .bind (neutral_of_quiet (withLaunch_quiet _ _)) fun _ => requireRun_neutral _ _

theorem terminateSpawnedAgent_neutral (id : String) :
    (terminateSpawnedAgent id : PollingProgram H Unit).OnlyCalls Neutral := by
  refine .bind (pollCall_neutral trivial) fun current => ?_
  cases current with
  | none => exact neutral_of_surroundings (terminateFromEvents_surroundings id)
  | some run =>
    refine .bind ?_ fun _ => ?_
    · cases terminationStatus run.val.status with
      | none => trivial
      | some status => exact updateStatus_neutral _ _ _
    · cases launchHandleFromRun run with
      | none => exact neutral_of_surroundings (terminateFromEvents_surroundings id)
      | some handle => exact neutral_of_surroundings (terminateLaunchHandle_surroundings handle)

variable (svc : AgentPollingService)

theorem completeRun_neutral (id taskId : String) :
    (completeRun svc id taskId : PollingProgram H Unit).OnlyCalls Neutral := by
  refine .bind (terminateSpawnedAgent_neutral id) fun _ => ?_
  refine .bind (neutral_of_quiet (suppressValueError_quiet _)) fun _ => ?_
  refine .bind (updateStatus_neutral _ _ _) fun _ => .bind (pollCall_neutral trivial) fun run => ?_
  refine .bind (neutral_of_quiet (finalizeIfSome_quiet svc _ _)) fun _ => ?_
  exact neutral_of_surroundings (appendStamped_surroundings _ _)

theorem failRun_neutral (id error : String) :
    (failRun svc id error : PollingProgram H Unit).OnlyCalls Neutral := by
  refine .bind (pollCall_neutral trivial) fun run => ?_
  refine .bind (terminateSpawnedAgent_neutral id) fun _ => .bind (updateStatus_neutral _ _ _) fun _ => ?_
  refine .bind (neutral_of_quiet (finalizeIfSome_quiet svc _ _)) fun _ => ?_
  refine .bind (neutral_of_surroundings (appendStamped_surroundings _ _)) fun _ => ?_
  cases run with
  | none => trivial
  | some run => exact neutral_of_quiet (retryTask_quiet _)

theorem quarantineTimedOut_neutral (run : PollRun) (reason : String) :
    (quarantineTimedOut run reason : PollingProgram H Bool).OnlyCalls Neutral := by
  unfold quarantineTimedOut
  split_ifs
  swap
  · trivial
  refine .bind (pollCall_neutral trivial) fun now => ?_
  dsimp only
  split_ifs
  · refine .bind (updateStatus_neutral _ _ _) fun _ => ?_
    exact .bind (neutral_of_surroundings (appendStamped_surroundings _ _)) fun _ => trivial
  · trivial

theorem checkRun_neutral (run : PollRun) :
    (checkRun svc run : PollingProgram H _).OnlyCalls Neutral := by
  refine .bind (pollCall_neutral trivial) fun file => ?_
  cases file with
  | absent =>
    refine .bind ?_ fun _ => .bind (pollCall_neutral trivial) fun _ => trivial
    unfold checkMissing
    split_ifs
    · exact .bind (quarantineTimedOut_neutral run _) fun _ => trivial
    · exact failRun_neutral svc _ _
  | notObject typeName => trivial
  | object status error =>
    refine .bind ?_ fun _ => .bind (pollCall_neutral trivial) fun _ => trivial
    unfold checkReported
    split_ifs
    · exact .bind (completeRun_neutral svc _ _) fun _ => trivial
    · exact .bind (failRun_neutral svc _ _) fun _ => trivial
    · exact quarantineTimedOut_neutral run _

theorem checkRuns_neutral : (checkRuns svc : PollingProgram H _).OnlyCalls Neutral := by
  refine .bind (pollCall_neutral trivial) fun active => ?_
  induction active with
  | nil => trivial
  | cons run rest ih => exact .bind (checkRun_neutral svc run) fun _ => .bind ih fun _ => trivial

theorem cancelRun_neutral (id : String) :
    (cancelRun id : PollingProgram H PollRun).OnlyCalls Neutral := by
  refine .bind (pollCall_neutral trivial) fun current => ?_
  cases current with
  | none => trivial
  | some run =>
    dsimp only
    split_ifs
    · refine .bind (updateStatus_neutral _ _ _) fun _ => ?_
      refine .bind (neutral_of_surroundings (appendStamped_surroundings _ _)) fun _ => ?_
      refine .bind (terminateSpawnedAgent_neutral id) fun _ => ?_
      exact .bind (neutral_of_quiet (retryTask_quiet _)) fun _ => requireRun_neutral _ _
    · trivial

end Neutral

section Records

variable {h : List (Answered (worldSignature H) Exn)} (svc : AgentPollingService)

omit svc in
theorem recordSpawn_balanced {id : String} (hu : Unrecorded id h) (taskId taskSubject : String)
    (nowMs : Nat) (launchId : Option String) (handle : LaunchHandle) :
    (recordSpawn id taskId taskSubject nowMs launchId handle).Ensures recordGuard
      (fun h' _ => Balanced h') h := by
  have hrecord : (recordLaunchMetadata id handle launchId : PollingProgram H Bool).Ensures
      recordGuard (fun h' _ => Balanced h') h := by
    refine (hu.keeps (pollCall_neutral (c := .timeMs) trivial)).bind (fun h₁ now hu₁ => ?_) fun _ _ hu₁ => hu₁.balanced
    refine ⟨hu₁.pending, ?_⟩
    rintro (e | found)
    · exact hu₁.recorded handle (Int.ofNat now) launchId (.error e)
    · exact hu₁.recorded handle (Int.ofNat now) launchId (.ok found)
  refine hrecord.bind (fun h₁ found hb => hb.keeps ?_) fun _ _ hb => hb
  cases found
  · refine .bind (neutral_of_surroundings (terminateLaunchHandle_surroundings handle)) fun _ => ?_
    exact quarantineRun_neutral _ _ _ _ _ _
  · refine .bind (pollCall_neutral trivial) fun _ => .bind (neutral_of_quiet (withLaunch_quiet _ _)) fun _ => ?_
    refine .bind (updateStatus_neutral _ _ _) fun _ => .bind (pollCall_neutral trivial) fun _ => ?_
    exact .bind (pollCall_neutral trivial) fun _ => requireRun_neutral _ _

theorem spawnStarted_balanced {id : String} (hu : Unrecorded id h) (taskId taskSubject runDir : String)
    (nowMs : Nat) (launchId : Option String) :
    (spawnStarted svc id taskId taskSubject runDir nowMs launchId).Ensures recordGuard
      (fun h' _ => Balanced h') h := by
  refine (hu.keeps (updateStatus_neutral _ _ _)).bind (fun h₁ _ hu₁ => ?_) fun _ _ hu₁ => hu₁.balanced
  refine (hu₁.keeps (neutral_of_quiet (withLaunch_quiet _ _))).bind (fun h₂ _ hu₂ => ?_)
    fun _ _ hu₂ => hu₂.balanced
  refine (hu₂.keeps (pollCall_neutral (c := .getById id) trivial)).bind (fun h₃ current hu₃ => ?_)
    fun _ _ hu₃ => hu₃.balanced
  refine (hu₃.keeps (neutral_of_quiet (spawnCurrent_quiet svc current _ _))).bind
    (fun h₄ handle hu₄ => ?_) fun _ _ hu₄ => hu₄.balanced
  cases handle with
  | none => exact hu₄.balanced.keeps (quarantineRun_neutral _ _ _ _ _ _)
  | some handle => exact recordSpawn_balanced hu₄ _ _ _ _ _

theorem save_balanced {α : Type} (hb : Balanced h) (run : PollRun) {f : Unit → PollingProgram H α}
    (hf : ∀ h' u, Unrecorded run.val.id h' →
      (f u).Ensures recordGuard (fun h' _ => Balanced h') h') :
    (pollCall (.save run) >>= f).Ensures recordGuard (fun h' _ => Balanced h') h := by
  refine (Program.ensures_perform_bind _ _).mpr ⟨trivial, fun u => ?_, fun e => ?_⟩
  · exact hf _ u (hb.saved run u)
  · exact hb.save_failed run e

theorem spawnClaimed_balanced (hb : Balanced h) (id taskId taskSubject : String) (nowMs : Nat)
    (launchId : Option String) :
    (spawnClaimed svc id taskId taskSubject nowMs launchId).Ensures recordGuard
      (fun h' _ => Balanced h') h := by
  refine (hb.keeps (pollCall_neutral (c := .createRunDir id) trivial)).bind (fun h₁ runDir hb₁ => ?_) fun _ _ hb₁ => hb₁
  refine (Program.ensures_ofExcept_bind _ _).mpr ⟨fun run hrun => ?_, fun _ _ => hb₁⟩
  have hid : run.val.id = id := by rw [construct_eq_ok.mp hrun]; rfl
  refine save_balanced hb₁ run fun h₂ _ hu => ?_
  rw [hid] at hu
  refine (hu.keeps (neutral_of_quiet (startTask_quiet svc taskId))).bind (fun h₃ refusal hu₃ => ?_)
    fun _ _ hu₃ => hu₃.balanced
  cases refusal with
  | some message => exact hu₃.balanced.keeps (refuseRun_neutral _ _ _)
  | none => exact spawnStarted_balanced svc hu₃ _ _ _ _ _

theorem spawnRun_balanced (hb : Balanced h) (taskId taskSubject : String) :
    (spawnRun svc taskId taskSubject).Ensures recordGuard (fun h' _ => Balanced h') h := by
  refine (hb.keeps (pollCall_neutral (c := .timeMs) trivial)).bind (fun h₁ now hb₁ => ?_) fun _ _ hb₁ => hb₁
  refine (hb₁.keeps (pollCall_neutral (c := .uuid4Hex) trivial)).bind (fun h₂ id hb₂ => ?_) fun _ _ hb₂ => hb₂
  split_ifs
  swap
  · exact spawnClaimed_balanced svc hb₂ _ _ _ _ _
  refine (hb₂.keeps (neutral_of_quiet (launches_quiet _))).bind (fun h₃ attempt hb₃ => ?_)
    fun _ _ hb₃ => hb₃
  split_ifs
  · exact spawnClaimed_balanced svc hb₃ _ _ _ _ _
  refine (Program.ensures_ofExcept_bind _ _).mpr ⟨fun run _ => ?_, fun _ _ => hb₃⟩
  exact save_balanced hb₃ run fun h₄ _ hu => hu.balanced

theorem spawnEach_balanced (hb : Balanced h) (found : List TaskBoard.OrchestrationTask) :
    (spawnEach svc found).Ensures recordGuard (fun h' _ => Balanced h') h := by
  induction found generalizing h with
  | nil => exact hb
  | cons task rest ih =>
    refine (spawnRun_balanced svc hb _ _).bind (fun h₁ run hb₁ => ?_) fun _ _ hb₁ => hb₁
    exact (ih hb₁).bind (fun _ _ hb₂ => hb₂) fun _ _ hb₂ => hb₂

theorem program_balanced (o : PollingOp) :
    (o.program H svc).Ensures recordGuard (fun h' _ => Balanced h') [] := by
  have hb : Balanced ([] : List (Answered (worldSignature H) Exn)) := fun id => Nat.le_refl _
  cases o with
  | checkRuns => exact hb.keeps (checkRuns_neutral svc)
  | cancelRun id => exact hb.keeps (cancelRun_neutral id)
  | pollOnce =>
    refine (hb.keeps (neutral_of_quiet (reconcile_quiet svc))).bind (fun h₁ _ hb₁ => ?_)
      fun _ _ hb₁ => hb₁
    refine (hb₁.keeps (pollCall_neutral (c := .listLaunchBlocking) trivial)).bind (fun h₂ blocking hb₂ => ?_) fun _ _ hb₂ => hb₂
    dsimp only
    split_ifs
    · exact hb₂
    refine (hb₂.keeps (neutral_of_quiet (tasks_quiet _))).bind (fun h₃ approved hb₃ => ?_)
      fun _ _ hb₃ => hb₃
    refine (hb₃.keeps (neutral_of_quiet (candidates_quiet svc _ _))).bind (fun h₄ found hb₄ => ?_)
      fun _ _ hb₄ => hb₄
    exact spawnEach_balanced svc hb₄ _

end Records

section Run

variable {tr : List (pollersSystem H).Event} {cfg : (pollersSystem H).Config}

/-- Whatever run the event saves, it saves alone. -/
def SaveIsAlone (e : (pollersSystem H).Event) : Prop :=
  ∀ run, e.answered.call = .inl (.save run) → SavesAlone e.before.1 run

/-- The saved runs are still there, and each run for which a handle was recorded was found and
still holds it. -/
structure RecordsKept (tr : List (pollersSystem H).Event) (cfg : (pollersSystem H).Config) :
    Prop where
  saved : ∀ e ∈ tr, ∀ run, e.answered = .ok (.inl (.save run)) () →
    ∃ r ∈ cfg.store.1.pollRuns, SameRun run.val r
  handles : ∀ e ∈ tr, ∀ id handle now launchId found,
    e.answered = .ok (.inl (.recordLaunchMetadata id handle now launchId)) found →
    found = true ∧ ∃ r ∈ cfg.store.1.pollRuns, r.id = id ∧ HoldsHandle handle r

theorem runs_of_outside {w w' : World} (h : (pollersSystem H).outside w w') : w'.1 = w.1 := h.1

theorem row_event {e : (pollersSystem H).Event} (hstep : step H e.answered e.before e.after)
    (halone : SaveIsAlone e) {r : PollRunFields} (hr : r ∈ e.before.1.pollRuns) :
    ∃ r' ∈ e.after.1.pollRuns, SameRun r r' ∧ ∀ handle, HoldsHandle handle r →
      recordsRunOf r.id e.answered = false → HoldsHandle handle r' := by
  obtain ⟨i, o, ⟨c, answer⟩, w, w'⟩ := e
  obtain c | c := c
  · have hsave : ∀ run, c = .save run → SavesAlone w.1 run := fun run hc => halone run (congrArg Sum.inl hc)
    obtain ⟨r', hr', hsame, hkept⟩ := row_step hstep.1 hsave hr
    refine ⟨r', hr', hsame, fun handle hholds hother => hkept handle hholds ?_⟩
    rintro recorded now launchId rfl
    simp [recordsRunOf] at hother
  · have hruns : w'.1 = w.1 := hstep.2
    exact ⟨r, by rw [hruns]; exact hr, .refl r, fun handle hholds _ => hholds⟩

theorem runsKept_of_run (run : (pollersSystem H).Run tr cfg) (halone : ∀ e ∈ tr, SaveIsAlone e) :
    tr.Pairwise (fun d e => RunsKept d.after.1 e.before.1) ∧
      ∀ e ∈ tr, RunsKept e.after.1 cfg.store.1 := by
  refine run.grows (R := fun w w' => RunsKept w.1 w'.1) (fun _ => .refl _)
    (fun _ _ _ h h' => h.trans h') (fun e he r hr => ?_) fun w w' h => ?_
  · obtain ⟨r', hr', hsame, -⟩ := row_event (run.step_of_mem he) (halone e he) hr
    exact ⟨r', hr', hsame⟩
  · rw [runs_of_outside h]
    exact .refl _

theorem saved_after (run : (pollersSystem H).Run tr cfg) {e : (pollersSystem H).Event} (he : e ∈ tr)
    {r : PollRun} {u : Unit} (hsave : e.answered = .ok (.inl (.save r)) u) :
    r.val ∈ e.after.1.pollRuns := by
  have hstep := run.step_of_mem he
  rw [hsave] at hstep
  rcases hstep.1 with ⟨-, hstore⟩ | ⟨-, m, hm⟩
  · have hstore : e.after.1 = e.before.1.save r := hstore
    rw [hstore]
    exact List.mem_append_right _ (List.mem_singleton_self _)
  · cases hm

theorem exists_of_savesRunOf {id : String} {a : Answered (worldSignature H) Exn}
    (h : savesRunOf id a = true) : ∃ run u, a = .ok (.inl (.save run)) u ∧ run.val.id = id := by
  obtain ⟨c | c, r⟩ := a
  · cases c with
    | save run =>
      cases r with
      | ok u => exact ⟨run, u, rfl, by simpa [savesRunOf] using h⟩
      | error e => simp [savesRunOf] at h
    | _ => simp [savesRunOf] at h
  · simp [savesRunOf] at h

theorem saves_once (run : (pollersSystem H).Run tr cfg) (halone : ∀ e ∈ tr, SaveIsAlone e)
    (id : String) : (tr.filter fun e => savesRunOf id e.answered).length ≤ 1 := by
  have hkept := (runsKept_of_run run halone).1.sublist
    (List.filter_sublist (p := fun e => savesRunOf id e.answered))
  have hall : ∀ e ∈ tr.filter (fun e => savesRunOf id e.answered),
      e ∈ tr ∧ savesRunOf id e.answered = true := fun e he => List.mem_filter.mp he
  match hevents : tr.filter fun e => savesRunOf id e.answered with
  | [] => simp [hevents]
  | [e] => simp [hevents]
  | d :: e :: rest =>
    rw [hevents] at hkept hall
    obtain ⟨hd, hdsaves⟩ := hall d (by simp)
    obtain ⟨he, hesaves⟩ := hall e (by simp)
    obtain ⟨r, u, hsave, hid⟩ := exists_of_savesRunOf hdsaves
    obtain ⟨r', u', hsave', hid'⟩ := exists_of_savesRunOf hesaves
    obtain ⟨row, hrow, hsame⟩ :=
      List.rel_of_pairwise_cons hkept (by simp : e ∈ e :: rest) _ (saved_after run hd hsave)
    have hfresh := (halone e he r' (by rw [hsave'])).fresh row hrow
    exact absurd (by rw [hsame.id, hid, hid']) hfresh

theorem countP_history_le (p : Answered (worldSignature H) Exn → Bool) (i : Nat)
    {pre : List (pollersSystem H).Event} (hpre : pre.Sublist tr) :
    (System.Run.history i pre).countP p ≤ (tr.filter fun e => p e.answered).length := by
  rw [System.Run.history, List.countP_map, List.countP_eq_length_filter]
  exact (((System.Run.own_sublist i pre).trans hpre).filter _).length_le

theorem mem_of_countP_history {p : Answered (worldSignature H) Exn → Bool} {i : Nat}
    {pre : List (pollersSystem H).Event} (h : 0 < (System.Run.history i pre).countP p) :
    ∃ e ∈ pre, e.caller = i ∧ p e.answered = true := by
  obtain ⟨a, ha, hp⟩ := List.countP_pos_iff.mp h
  obtain ⟨e, he, rfl⟩ := List.mem_map.mp ha
  obtain ⟨hmem, hcaller⟩ := System.Run.mem_own.mp he
  exact ⟨e, hmem, hcaller, hp⟩

theorem eq_of_filter_length {α : Type} {p : α → Bool} {l : List α} (h : (l.filter p).length ≤ 1)
    {x y : α} (hx : x ∈ l) (hpx : p x = true) (hy : y ∈ l) (hpy : p y = true) : x = y := by
  have hx' : x ∈ l.filter p := List.mem_filter.mpr ⟨hx, hpx⟩
  have hy' : y ∈ l.filter p := List.mem_filter.mpr ⟨hy, hpy⟩
  match hl : l.filter p with
  | [] => rw [hl] at hx'; cases hx'
  | [z] =>
    rw [hl] at hx' hy'
    rw [List.mem_singleton.mp hx', List.mem_singleton.mp hy']
  | _ :: _ :: _ => rw [hl] at h; simp at h

theorem save_before_record (run : (pollersSystem H).Run tr cfg)
    {pre post : List (pollersSystem H).Event} {e : (pollersSystem H).Event}
    (htr : tr = pre ++ e :: post) {id : String} (he : recordsRunOf id e.answered = true) :
    (System.Run.history e.caller pre).countP (recordsRunOf id) <
      (System.Run.history e.caller pre).countP (savesRunOf id) := by
  have hguard := run.ensures_event htr (program_balanced e.op.1 e.op.2)
  revert hguard he
  unfold recordsRunOf
  cases hcall : e.answered.call with
  | inr c => simp
  | inl c =>
    cases c with
    | recordLaunchMetadata runId handle now launchId =>
      intro he hguard
      have hid : runId = id := by simpa using he
      rw [← hid]
      exact hguard
    | _ => simp

theorem records_once (run : (pollersSystem H).Run tr cfg) (halone : ∀ e ∈ tr, SaveIsAlone e)
    {pre mid post : List (pollersSystem H).Event} {d e : (pollersSystem H).Event}
    (htr : tr = pre ++ d :: mid ++ e :: post) {id : String} (hd : recordsRunOf id d.answered = true)
    (he : recordsRunOf id e.answered = true) : False := by
  have honce := saves_once run halone id
  have hdsave := save_before_record run (by rw [htr, List.append_assoc, List.cons_append]) hd
  have hesave := save_before_record run htr he
  obtain ⟨x, hx, hxcaller, hxsaves⟩ := mem_of_countP_history (Nat.zero_lt_of_lt hdsave)
  obtain ⟨y, hy, hycaller, hysaves⟩ := mem_of_countP_history (Nat.zero_lt_of_lt hesave)
  -- one event saved the run, so one caller records its handles
  have hxy : x = y := by
    refine eq_of_filter_length honce ?_ hxsaves ?_ hysaves
    · rw [htr]
      exact List.mem_append_left _ (List.mem_append_left _ hx)
    · rw [htr]
      exact List.mem_append_left _ hy
  have hcaller : d.caller = e.caller := by rw [← hxcaller, hxy, hycaller]
  have hrecorded : 0 < (System.Run.history e.caller (pre ++ d :: mid)).countP (recordsRunOf id) := by
    refine List.countP_pos_iff.mpr ⟨d.answered, ?_, hd⟩
    exact List.mem_map.mpr ⟨d, System.Run.mem_own.mpr ⟨by simp, hcaller⟩, rfl⟩
  have hsaved := countP_history_le (savesRunOf id) e.caller
    (by rw [htr]; exact List.sublist_append_left _ _ : (pre ++ d :: mid).Sublist tr)
  omega

/-- Pollers whose saves meet no row of the same id, and for a queued run no queued or running row
of the same task, never lose a run that was saved: it is still there whatever the others do, and
once its agent is spawned the run is found and holds what terminates the agent. -/
theorem records_kept_of_alone (run : (pollersSystem H).Run tr cfg)
    (halone : ∀ e ∈ tr, SaveIsAlone e) : RecordsKept tr cfg := by
  obtain ⟨hbetween, hend⟩ := runsKept_of_run run halone
  refine ⟨fun e he r hsave => hend e he r.val (saved_after run he hsave), ?_⟩
  intro d hd id handle now launchId found hrecord
  obtain ⟨pre, post, htr⟩ := List.append_of_mem hd
  have hrecords : recordsRunOf id d.answered = true := by rw [hrecord]; simp [recordsRunOf]
  -- the run was saved by the same caller, and no save has taken it away since
  obtain ⟨x, hx, -, hxsaves⟩ :=
    mem_of_countP_history (Nat.zero_lt_of_lt (save_before_record run htr hrecords))
  obtain ⟨r, u, hsave, hid⟩ := exists_of_savesRunOf hxsaves
  have horder : [x, d].Sublist tr := by
    rw [htr]
    exact (List.singleton_sublist.mpr hx).append (List.singleton_sublist.mpr List.mem_cons_self)
  have hkept : RunsKept x.after.1 d.before.1 :=
    List.rel_of_pairwise_cons (hbetween.sublist horder) (by simp)
  obtain ⟨row, hrow, hsame⟩ := hkept r.val (saved_after run (horder.subset (by simp)) hsave)
  have hrowId : row.id = id := hsame.id.trans hid
  have hstep := run.step_of_mem hd
  rw [hrecord] at hstep
  obtain ⟨hfound, hstore⟩ : found = (d.before.1.pollRuns.any fun row => row.id == id) ∧
      d.after.1 = d.before.1.recordLaunchMetadata id handle now launchId := by
    rcases hstep.1 with ⟨hanswer, hstore⟩ | ⟨-, m, hm⟩
    · exact ⟨Except.ok.inj hanswer, hstore⟩
    · cases hm
  have hmatch : (row.id == id) = true := by simp [hrowId]
  refine ⟨?_, ?_⟩
  · rw [hfound]
    exact List.any_eq_true.mpr ⟨row, hrow, hmatch⟩
  have hafter : ∃ r ∈ d.after.1.pollRuns, r.id = id ∧ HoldsHandle handle r := by
    rw [hstore]
    refine ⟨_, updateWhere_of_mem hrow, ?_⟩
    rw [if_pos hmatch]
    exact ⟨hrowId, rfl, rfl, rfl, rfl⟩
  by_contra hlost
  obtain ⟨e, he, ⟨r₁, hr₁, hr₁id, hholds⟩, hundone⟩ := run.undone
    (P := fun w => ∃ r ∈ w.1.pollRuns, r.id = id ∧ HoldsHandle handle r)
    (fun w w' hout hw => by rw [runs_of_outside hout]; exact hw) htr hafter hlost
  obtain ⟨mid, rest, hpost⟩ := List.append_of_mem he
  have hmem : e ∈ tr := by simp [htr, hpost]
  obtain ⟨r₂, hr₂, hsame₂, hstill⟩ := row_event (run.step_of_mem hmem) (halone e hmem) hr₁
  by_cases hagain : recordsRunOf id e.answered = true
  · have hsplit : tr = pre ++ d :: mid ++ e :: rest := by
      rw [htr, hpost, List.append_assoc, List.cons_append]
    exact records_once run halone hsplit hrecords hagain
  · refine hundone ⟨r₂, hr₂, hsame₂.id.trans hr₁id, hstill handle hholds ?_⟩
    rw [hr₁id]
    simpa using hagain

end Run

section Sample

/-- A poller without a lifecycle service. -/
def unregistered : AgentPollingService where
  lifecycleService := false
  fpelPort := false

theorem respond_pollers (o : Oracle) (c : (worldSignature plainHashing).Call) (w : World)
    (r : Except Exn ((worldSignature plainHashing).Value c)) (w' : World)
    (h : respond o plainHashing c w = some (r, w')) :
    (pollersSystem plainHashing).step ⟨c, r⟩ w w' := step_of_serve (respond_serve c w r w' h)

/-- The schedule, from one approved task and nothing else. -/
def playPollers (moves : List ((pollersSystem plainHashing).Move Oracle)) :
    Option (List (pollersSystem plainHashing).Event × (pollersSystem plainHashing).Config) :=
  (pollersSystem plainHashing).play (fun o => respond o plainHashing) moves
    ⟨approvedWorld, fun _ => none⟩

theorem run_of_playPollers {moves : List ((pollersSystem plainHashing).Move Oracle)}
    {tr : List (pollersSystem plainHashing).Event} {cfg : (pollersSystem plainHashing).Config}
    (h : playPollers moves = some (tr, cfg)) : (pollersSystem plainHashing).Run tr cfg := by
  have hinitial : (pollersSystem plainHashing).Run [] ⟨({}, {}, {}, {}), fun _ => none⟩ :=
    .initial rfl
  have hsaved : (pollersSystem plainHashing).outside ({}, {}, {}, {}) approvedWorld :=
    ⟨rfl, .inl ⟨⟨.inr (.inl (.save approvedTask)), .ok ()⟩, ⟨⟨.inl ⟨rfl, rfl⟩, rfl⟩, rfl⟩⟩⟩
  exact (hinitial.outside hsaved).play respond_pollers h

/-- The next `n` calls of a caller that draws the run id. -/
def callsOf (i n : Nat) (runId : String) : List ((pollersSystem plainHashing).Move Oracle) :=
  List.replicate n (.call i { runId })

/-- Both list the task; the first spawns its agent and the second then saves a run of its own. -/
def takeoverMoves : List ((pollersSystem plainHashing).Move Oracle) :=
  .invoke 0 (unregistered, .pollOnce) :: .invoke 1 (unregistered, .pollOnce) ::
    (callsOf 0 2 "a" ++ callsOf 1 5 "b" ++ callsOf 0 23 "a" ++ callsOf 1 1 "b")

/-- The handle that the trace records for a run. -/
def recordedHandle (runId : String) (tr : List (pollersSystem plainHashing).Event) :
    Option LaunchHandle :=
  tr.findSome? fun e =>
    match e.answered with
    | ⟨.inl (.recordLaunchMetadata id handle ..), .ok _⟩ => if id = runId then some handle else none
    | _ => none

/-- The claim fails: the agent that runs has lost its row to the queued run of the other poller. -/
theorem running_run_replaced :
    ¬ ∀ (tr : List (pollersSystem plainHashing).Event) (cfg : (pollersSystem plainHashing).Config),
      (pollersSystem plainHashing).Run tr cfg → RecordsKept tr cfg := by
  intro h
  obtain ⟨tr, cfg, hplay, hrows, hsaved⟩ : ∃ tr cfg, playPollers takeoverMoves = some (tr, cfg) ∧
      cfg.store.1.pollRuns.map (·.id) = ["b"] ∧
      tr.any (fun e => savesRunOf "a" e.answered) = true := ⟨_, _, rfl, rfl, rfl⟩
  obtain ⟨e, he, hsaves⟩ := List.any_eq_true.mp hsaved
  obtain ⟨r, u, hanswered, hid⟩ := exists_of_savesRunOf hsaves
  obtain ⟨row, hrow, hsame⟩ := (h tr cfg (run_of_playPollers hplay)).saved e he r hanswered
  have hmem : row.id ∈ cfg.store.1.pollRuns.map (·.id) := List.mem_map_of_mem hrow
  rw [hrows, hsame.id, hid] at hmem
  exact absurd hmem (by decide)

example : ((playPollers takeoverMoves).bind fun played => recordedHandle "a" played.1) =
    some { method := "tmux", paneId := some "%1" } := rfl

/-- Whether the saves of a trace all meet an empty table. -/
def savesIntoEmpty (tr : List (pollersSystem plainHashing).Event) : Bool :=
  tr.all fun e =>
    match e.answered.call with
    | .inl (.save _) => e.before.1.pollRuns.isEmpty
    | _ => true

theorem alone_of_savesIntoEmpty {tr : List (pollersSystem plainHashing).Event}
    (h : savesIntoEmpty tr = true) : ∀ e ∈ tr, SaveIsAlone e := by
  intro e he run hcall
  have hempty := List.all_eq_true.mp h e he
  rw [hcall] at hempty
  have hnone : e.before.1.pollRuns = [] := List.isEmpty_iff.mp hempty
  refine ⟨fun r hr => ?_, fun _ r hr => ?_⟩
  · rw [hnone] at hr
    cases hr
  · rw [hnone] at hr
    cases hr

/-- The second poller lists after the first has spawned. -/
theorem records_kept_of_alone_after :
    ∃ (tr : List (pollersSystem plainHashing).Event) (cfg : (pollersSystem plainHashing).Config),
      (pollersSystem plainHashing).Run tr cfg ∧
      recordedHandle "a" tr = some { method := "tmux", paneId := some "%1" } ∧
      (cfg.store.1.pollRuns.map fun r => (r.id, r.status)) = [("a", .running)] ∧
      RecordsKept tr cfg := by
  obtain ⟨tr, cfg, hplay, hempty, hhandle, hrows⟩ : ∃ tr cfg,
      playPollers (.invoke 0 (unregistered, .pollOnce) :: callsOf 0 25 "a" ++
        .invoke 1 (unregistered, .pollOnce) :: callsOf 1 2 "b") = some (tr, cfg) ∧
      savesIntoEmpty tr = true ∧
      recordedHandle "a" tr = some { method := "tmux", paneId := some "%1" } ∧
      (cfg.store.1.pollRuns.map fun r => (r.id, r.status)) = [("a", .running)] :=
    ⟨_, _, rfl, rfl, rfl, rfl⟩
  have hrun := run_of_playPollers hplay
  exact ⟨tr, cfg, hrun, hhandle, hrows, records_kept_of_alone hrun (alone_of_savesIntoEmpty hempty)⟩

end Sample

end ForkAgent.Polling

import ForkAgent.Polling.Raised
import ForkAgent.Polling.Served

/-!
# Forbidden transitions

The poller moves its runs along the transition table, but for two slips: a run whose start was
refused is failed while it is queued, and a queued or spawning run whose agent has already
reported is ended as if it were running. In every other operation no status update is refused.
-/

namespace ForkAgent.Polling

open Effects Storage Launch

variable {H : Fpel.Hashing} {S : Type} {sem : Semantics (worldSignature H) Exn S}
variable {runs : S → PollStore} {id : String} {a b : PollRunStatus} {C : Answers H → Prop}
variable {s : S × Answers H}

section Spawn

variable (svc : AgentPollingService)

/-- The start of a task was refused as a forbidden transition of the task. -/
def StartRefused (H : Fpel.Hashing) (answers : Answers H) : Prop :=
  ∃ before own after taskId message, answers = before ++ own.map (.lift (boardEmbedding H)) ++ after ∧
    (TaskBoard.start H svc.fpelPort taskId pollAgentOwner none).Follows own
      (.fail (.taskTransitionError message))

theorem StartRefused.append {answers : Answers H} (h : StartRefused svc H answers)
    (later : Answers H) : StartRefused svc H (answers ++ later) := by
  obtain ⟨before, own, after, taskId, message, rfl, hfollows⟩ := h
  exact ⟨before, own, after ++ later, taskId, message, by simp, hfollows⟩

theorem unrefused_of_not {α : Type} {p : PollingProgram H α}
    (hC : ∀ later, ¬ C (s.2 ++ later)) : Unrefused sem C p s := by
  refine (Program.always_prefix p s).mono (fun _ _ h => h) fun out s' hgrown e _ hmeets => ?_
  obtain ⟨later, hlater⟩ := hgrown
  rw [← hlater] at hmeets
  exact absurd hmeets (hC later)

variable (hsem : RunTable sem runs)
include hsem

theorem quarantineRun_moves (h : .quarantined ∈ a.validTransitions) (taskId : String)
    (launchId : Option String) (message launchReason reason : String) :
    Moves sem runs id a .quarantined
      (quarantineRun id taskId launchId message launchReason reason) := by
  refine .bind (updateStatus_moves hsem h _) fun _ => .bind (.quiet hsem (withLaunch_quiet _ _) ?_) fun _ => ?_
  · cases launchId <;> nofun
  refine .bind (.surroundings hsem (appendStamped_surroundings _ _) (appendStamped_ne_fail _ _)) fun _ => ?_
  exact requireRun_moves hsem _

theorem recordSpawn_unrefused (hs : At id .spawning (runs s.1)) (taskId taskSubject : String)
    (nowMs : Nat) (launchId : Option String) (handle : LaunchHandle) :
    Unrefused sem C (recordSpawn id taskId taskSubject nowMs launchId handle) s := by
  refine (recordLaunchMetadata_moves hsem handle launchId).then hs fun saved s₁ h₁ => ?_
  cases saved
  · refine (Moves.surroundings hsem (terminateLaunchHandle_surroundings handle)
      (terminateLaunchHandle_ne_fail handle)).then h₁ fun _ s₂ h₂ => ?_
    exact (quarantineRun_moves hsem (by decide) _ _ _ _ _).unrefused h₂
  refine (Moves.pollCall hsem rfl).then h₁ fun _ s₂ h₂ => ?_
  refine (Moves.quiet hsem (withLaunch_quiet _ _) ?_).then h₂ fun _ s₃ h₃ => ?_
  · cases launchId <;> nofun
  refine (updateStatus_moves hsem (b := .running) (by decide) _).then h₃ fun _ s₄ h₄ => ?_
  refine (Moves.pollCall hsem rfl).then h₄ fun _ s₅ h₅ => ?_
  refine (Moves.pollCall hsem rfl).then h₅ fun _ s₆ h₆ => ?_
  exact (requireRun_moves hsem _).unrefused h₆

theorem spawnStarted_unrefused (hs : At id .queued (runs s.1)) (taskId taskSubject runDir : String)
    (nowMs : Nat) (launchId : Option String) :
    Unrefused sem C (spawnStarted svc id taskId taskSubject runDir nowMs launchId) s := by
  refine (updateStatus_moves hsem (b := .spawning) (by decide) _).then hs fun _ s₁ h₁ => ?_
  refine (Moves.quiet hsem (withLaunch_quiet _ _) ?_).then h₁ fun _ s₂ h₂ => ?_
  · cases launchId <;> nofun
  refine (Moves.pollCall hsem rfl).then h₂ fun current s₃ h₃ => ?_
  refine (Moves.quiet hsem (spawnCurrent_quiet svc current _ _) ?_).then h₃ fun handle s₄ h₄ => ?_
  · cases current <;> nofun
  cases handle with
  | none => exact (quarantineRun_moves hsem (by decide) _ _ _ _ _).unrefused h₄
  | some handle => exact recordSpawn_unrefused hsem h₄ _ _ _ _ _

/-- A start that answers a message was refused. -/
theorem startTask_recorded (taskId : String) :
    (startTask svc taskId).Always sem.recorded (fun _ _ => True)
      (fun out s' => runs s'.1 = runs s.1 ∧ (∀ e, out = .error e → Clean s'.2) ∧
        ∀ message, out = .ok (some message) → StartRefused svc H s'.2) s := by
  have hown : (tasks (TaskBoard.start H svc.fpelPort taskId pollAgentOwner none)).Always sem.recorded
      (fun _ _ => True) _ s := Program.always_lift_follows _ s
  have hrefused : (startTask svc taskId).Always sem.recorded (fun _ _ => True)
      (fun out s' => ∀ message, out = .ok (some message) → StartRefused svc H s'.2) s := by
    have hstarted : (tasks (TaskBoard.start H svc.fpelPort taskId pollAgentOwner none) >>=
        fun _ => (return none : PollingProgram H (Option String))).Always sem.recorded
        (fun _ _ => True) (fun out s' => (∀ v, out = .ok v → v = none) ∧
          ∀ e, out = .error e → ∃ own,
            (TaskBoard.start H svc.fpelPort taskId pollAgentOwner none).Follows own (.fail e) ∧
              s'.2 = s.2 ++ own.map (.lift (boardEmbedding H))) s := by
      refine hown.bind (fun _ _ _ => ⟨fun v h => ?_, nofun⟩) fun e s' h => ⟨nofun, ?_⟩
      · cases h
        rfl
      · rintro _ ⟨rfl⟩
        exact h
    refine Program.Always.handle hstarted (fun v s' h message heq => ?_) fun e s' h => ?_
    · cases h.1 v rfl
      cases heq
    · obtain ⟨own, hfollows, hrecord⟩ := h.2 e rfl
      cases e with
      | taskTransitionError message =>
        rintro _ -
        exact ⟨s.2, own, [], taskId, message, by rw [hrecord, List.append_nil], hfollows⟩
      | _ => exact nofun
  exact ((quiet_recorded hsem (startTask_quiet svc taskId) nofun).and hrefused).mono
    (fun _ _ _ => trivial) fun _ _ h => ⟨h.1.1, h.1.2, h.2⟩

theorem spawnClaimed_unrefused (runId taskId taskSubject : String) (nowMs : Nat)
    (launchId : Option String) :
    Unrefused sem (fun answers => ¬ StartRefused svc H answers)
      (spawnClaimed svc runId taskId taskSubject nowMs launchId) s := by
  refine Unrefused.pollCall_bind (by nofun) fun runDir s₁ _ _ hclean => ?_
  refine .ofExcept_bind hclean fun run hrun => ?_
  refine Unrefused.pollCall_bind (by nofun) fun _ s₂ hsave _ _ => ?_
  have hqueued : At runId .queued (runs s₂.1) := by
    rcases hsem.poll hsave with ⟨-, hstore⟩ | ⟨-, m, hm⟩
    swap
    · cases hm
    rw [hstore]
    intro r hr hid
    rcases List.mem_append.mp hr with hr | hr
    · have hkeep := (List.mem_filter.mp hr).2
      simp [conflicts, PollStore.runId, construct_eq_ok.mp hrun, queuedRun, hid] at hkeep
    · rw [List.mem_singleton.mp hr, construct_eq_ok.mp hrun]
      rfl
  refine .always_bind (startTask_recorded svc hsem taskId) (fun refusal s₃ h₃ => ?_)
    fun e _ h _ => h.2.1 e rfl e
  cases refusal with
  | some message =>
    have hrefused := h₃.2.2 message rfl
    exact unrefused_of_not fun later hmeets => hmeets (hrefused.append svc later)
  | none =>
    refine spawnStarted_unrefused svc hsem ?_ _ _ _ _ _
    rw [h₃.1]
    exact hqueued

theorem spawnRun_unrefused (taskId taskSubject : String) :
    Unrefused sem (fun answers => ¬ StartRefused svc H answers)
      (spawnRun svc taskId taskSubject) s := by
  refine Unrefused.pollCall_bind (by nofun) fun now s₁ _ _ _ => ?_
  refine Unrefused.pollCall_bind (by nofun) fun runId s₂ _ _ hclean => ?_
  split_ifs
  swap
  · exact spawnClaimed_unrefused svc hsem _ _ _ _ _
  refine .quiet_bind (launches_quiet _) hclean fun attempt s₃ hclean₃ => ?_
  split_ifs
  · exact spawnClaimed_unrefused svc hsem _ _ _ _ _
  refine .ofExcept_bind hclean₃ fun run _ => ?_
  exact Unrefused.pollCall_bind (by nofun) fun _ _ _ _ _ => .ret run

theorem spawnEach_unrefused (found : List TaskBoard.OrchestrationTask) :
    Unrefused sem (fun answers => ¬ StartRefused svc H answers) (spawnEach svc found) s := by
  induction found generalizing s with
  | nil => exact .ret []
  | cons task rest ih =>
    exact (spawnRun_unrefused svc hsem _ _).bind fun run _ => ih.bind fun runs _ => .ret (run :: runs)

theorem pollOnce_unrefused (hs : Clean s.2) :
    Unrefused sem (fun answers => ¬ StartRefused svc H answers) (pollOnce svc) s := by
  refine .quiet_bind (reconcile_quiet svc) hs fun _ s₁ _ => ?_
  refine Unrefused.pollCall_bind (by nofun) fun blocking s₂ _ _ hclean => ?_
  dsimp only
  split_ifs
  · exact .ret []
  refine .quiet_bind (tasks_quiet _) hclean fun approved s₃ hclean₃ => ?_
  refine .quiet_bind (candidates_quiet svc _ approved) hclean₃ fun found s₄ _ => ?_
  exact spawnEach_unrefused svc hsem _

end Spawn

section Check

variable (svc : AgentPollingService)

/-- A run that was listed as queued or spawning has reported its end. -/
def ReportedEarly (answers : Answers H) : Prop :=
  ∃ active run status error, listedActive active ∈ answers ∧ run ∈ active ∧
    (run.val.status = .queued ∨ run.val.status = .spawning) ∧
    readStatus run.val.id (.object status error) ∈ answers ∧
    (status = some "COMPLETED" ∨ status = some "FAILED")

omit svc in
theorem handle_ret_ne_fail (p : PollingProgram H Unit) (e : Exn) :
    (p.handle fun _ => return ()) ≠ .fail e := by
  cases p <;> nofun

theorem finalizeIfSome_ne_fail (run : Option PollRun) (error : Option String) (e : Exn) :
    (finalizeIfSome svc run error : PollingProgram H Unit) ≠ .fail e := by
  cases run with
  | none => nofun
  | some run =>
    unfold finalizeIfSome finalizeLaunch
    split_ifs
    · exact handle_ret_ne_fail _ e
    · nofun

theorem retryTask_ne_fail (taskId : String) (e : Exn) :
    (retryTask taskId : PollingProgram H Unit) ≠ .fail e := by
  unfold retryTask
  split_ifs
  · nofun
  · nofun

variable (hsem : RunTable sem runs)
include hsem

omit svc in
theorem terminateEnding_moves (ha : a = .running ∨ a = .terminating) :
    Moves sem runs id a .terminating (terminateSpawnedAgent (H := H) id) := by
  rcases ha with rfl | rfl
  · exact terminateSpawnedAgent_moves hsem (a := .running) (by decide)
  · exact terminateSpawnedAgent_moves hsem (a := .terminating) (by decide)

theorem completeRun_moves (ha : a = .running ∨ a = .terminating) (taskId : String) :
    Moves sem runs id a .completed (completeRun svc id taskId) := by
  refine .bind (terminateEnding_moves hsem ha) fun _ => ?_
  refine .bind (.quiet hsem (suppressValueError_quiet _) nofun) fun _ => ?_
  refine .bind (updateStatus_moves hsem (b := .completed) (by decide) _) fun _ => ?_
  refine .bind (.pollCall hsem rfl) fun run => ?_
  refine .bind (.quiet hsem (finalizeIfSome_quiet svc _ _) (finalizeIfSome_ne_fail svc _ _)) fun _ => ?_
  exact .surroundings hsem (appendStamped_surroundings _ _) (appendStamped_ne_fail _ _)

theorem failRun_moves (ha : a = .running ∨ a = .terminating) (error : String) :
    Moves sem runs id a .failed (failRun svc id error) := by
  refine .bind (.pollCall hsem rfl) fun run => .bind (terminateEnding_moves hsem ha) fun _ => ?_
  refine .bind (updateStatus_moves hsem (b := .failed) (by decide) _) fun _ => ?_
  refine .bind (.quiet hsem (finalizeIfSome_quiet svc _ _) (finalizeIfSome_ne_fail svc _ _)) fun _ => ?_
  refine .bind (.surroundings hsem (appendStamped_surroundings _ _) (appendStamped_ne_fail _ _)) fun _ => ?_
  cases run with
  | none => exact .ret ()
  | some run => exact .quiet hsem (retryTask_quiet _) (retryTask_ne_fail _)

omit svc in
theorem quarantineTimedOut_unrefused {run : PollRun}
    (hs : At run.val.id run.val.status (runs s.1)) (reason : String) :
    Unrefused sem C (quarantineTimedOut run reason) s := by
  unfold quarantineTimedOut
  split_ifs with hstatus
  swap
  · exact .ret false
  have hvalid : .quarantined ∈ run.val.status.validTransitions := by
    rcases hstatus with h | h <;> rw [h] <;> decide
  refine (Moves.pollCall hsem rfl).then hs fun now s₁ h₁ => ?_
  dsimp only
  split_ifs
  swap
  · exact .ret false
  refine (updateStatus_moves hsem hvalid _).then h₁ fun _ s₂ h₂ => ?_
  refine (Moves.surroundings hsem (appendStamped_surroundings _ _) (appendStamped_ne_fail _ _)).then h₂ fun _ s₃ _ => ?_
  exact .ret true

omit hsem svc in
theorem running_or_terminating (ha : a.isActive = true) (hqueued : ¬ (a = .queued ∨ a = .spawning)) :
    a = .running ∨ a = .terminating := by
  cases a <;> simp_all [PollRunStatus.isActive]

theorem checkMissing_unrefused {run : PollRun} (hactive : run.val.status.isActive = true)
    (hs : At run.val.id run.val.status (runs s.1)) : Unrefused sem C (checkMissing svc run) s := by
  unfold checkMissing
  split_ifs with hstatus
  · exact (quarantineTimedOut_unrefused hsem hs _).bind fun _ _ => .ret ()
  · exact (failRun_moves svc hsem (running_or_terminating hactive hstatus) _).unrefused hs

theorem checkReported_unrefused {run : PollRun} (hactive : run.val.status.isActive = true)
    (hs : At run.val.id run.val.status (runs s.1)) {status error : Option String}
    (hreported : run.val.status = .queued ∨ run.val.status = .spawning →
      status = some "COMPLETED" ∨ status = some "FAILED" → ∀ later, ¬ C (s.2 ++ later)) :
    Unrefused sem C (checkReported svc run status error) s := by
  unfold checkReported
  by_cases hstatus : run.val.status = .queued ∨ run.val.status = .spawning
  · split_ifs with hcompleted hfailed
    · exact unrefused_of_not (hreported hstatus (.inl hcompleted))
    · exact unrefused_of_not (hreported hstatus (.inr hfailed))
    · exact quarantineTimedOut_unrefused hsem hs _
  have hending := running_or_terminating hactive hstatus
  split_ifs
  · exact (completeRun_moves svc hsem hending _).then hs fun _ _ _ => .ret false
  · exact (failRun_moves svc hsem hending _).then hs fun _ _ _ => .ret false
  · exact quarantineTimedOut_unrefused hsem hs _

theorem checkRun_unrefused {active : List PollRun} {run : PollRun} (hrun : run ∈ active)
    (hlisted : listedActive active ∈ s.2) (hactive : run.val.status.isActive = true)
    (hs : At run.val.id run.val.status (runs s.1)) :
    Unrefused sem (fun answers => ¬ ReportedEarly answers) (checkRun svc run) s := by
  refine Unrefused.pollCall_bind (by nofun) fun file s₁ hstep hrecord hclean => ?_
  have hs₁ : At run.val.id run.val.status (runs s₁.1) := by
    rw [PollStore.step_eq (hsem.poll hstep) rfl]
    exact hs
  have hlisted₁ : listedActive active ∈ s₁.2 := by
    rw [hrecord]
    exact List.mem_append_left _ hlisted
  cases file with
  | absent =>
    refine (checkMissing_unrefused svc hsem hactive hs₁).bind fun _ s₂ => ?_
    exact (unrefused_pollCall _).bind fun current _ => .ret [current]
  | notObject typeName => exact fun e _ _ => hclean e
  | object status error =>
    have hfile : readStatus run.val.id (.object status error) ∈ s₁.2 := by
      rw [hrecord]
      exact List.mem_append_right _ (List.mem_singleton.mpr rfl)
    refine (checkReported_unrefused svc hsem hactive hs₁ ?_).bind fun quarantined s₂ => ?_
    · rintro hstatus hreported later hmeets
      exact hmeets ⟨active, run, status, error, List.mem_append_left _ hlisted₁, hrun, hstatus,
        List.mem_append_left _ hfile, hreported⟩
    · exact (unrefused_pollCall _).bind fun current _ => .ret _

/-- Every listed run has a status in which it is listed, and the run has it in the table. -/
def Listed (active : List PollRun) (s : PollStore) : Prop :=
  ∀ run ∈ active, run.val.status.isActive = true ∧ At run.val.id run.val.status s

omit hsem in
theorem Listed.of_evolves {active : List PollRun} {s s' : PollStore} {run : PollRun}
    (hs : Listed active s) (hunique : UniqueOn PollStore.runId s.pollRuns)
    (h : Evolves run.val.id s s') (hne : ∀ other ∈ active, other.val.id ≠ run.val.id) :
    Listed active s' := by
  obtain ⟨f, hf, hrows⟩ := h hunique
  refine fun other hother => ⟨(hs other hother).1, fun r hr hid => ?_⟩
  rw [hf] at hr
  obtain ⟨r₀, hr₀, rfl⟩ := List.mem_map.mp hr
  have hid₀ : r₀.id = other.val.id := (hrows r₀ hr₀).1.symm.trans hid
  have hsame : f r₀ = r₀ := (hrows r₀ hr₀).2.2.2 (by rw [hid₀]; exact hne other hother)
  rw [hsame]
  exact (hs other hother).2 r₀ hr₀ hid₀

theorem checkEach_unrefused {active rest : List PollRun} (hsub : rest ⊆ active)
    (hids : (rest.map (·.val.id)).Nodup) (hlisted : listedActive active ∈ s.2)
    (hunique : UniqueOn PollStore.runId (runs s.1).pollRuns) (hs : Listed rest (runs s.1)) :
    Unrefused sem (fun answers => ¬ ReportedEarly answers) (checkEach svc rest) s := by
  induction rest generalizing s with
  | nil => exact .ret []
  | cons run rest ih =>
    obtain ⟨hactive, hat⟩ := hs run (List.mem_cons_self ..)
    obtain ⟨hfresh, hids⟩ := List.nodup_cons.mp hids
    have hturn := checkRun_unrefused svc hsem (hsub (List.mem_cons_self ..)) hlisted hactive hat
    have habout := checkRun_about hsem.recorded svc run s
    refine .always_bind ((Program.Always.and hturn habout).and (Program.always_prefix _ s) |>.mono
      (fun _ _ _ => trivial) fun _ _ h => h) (fun updated s₁ h₁ => ?_) fun e _ h => h.1.1 e rfl
    obtain ⟨⟨-, hevolves⟩, hgrown⟩ := h₁
    refine (ih (fun _ h => hsub (List.mem_cons_of_mem _ h)) hids (hgrown.subset hlisted)
      (hevolves.unique hunique) ?_).bind fun others _ => .ret _
    have hrest : Listed rest (runs s.1) := fun other hother => hs other (List.mem_cons_of_mem _ hother)
    refine hrest.of_evolves hunique hevolves fun other hother heq => hfresh ?_
    exact List.mem_map.mpr ⟨other, hother, heq⟩

omit hsem in
theorem listed_of_listActive {s s' : PollStore} {active : List PollRun}
    (h : PollStore.step (.ok .listActive active) s s')
    (hunique : UniqueOn PollStore.runId s.pollRuns) :
    (active.map (·.val.id)).Nodup ∧ Listed active s := by
  rcases h with ⟨-, rows, hordered, hanswer⟩ | ⟨-, m, hm⟩
  swap
  · cases hm
  have hrows : (active.map (·.val)).Perm s.activeRows := by
    rw [listMapM_construct_eq_ok hanswer.symm]
    exact hordered.1
  constructor
  · have hids : (active.map (·.val.id)).Perm (s.activeRows.map (·.id)) := by
      have hmap := hrows.map (·.id)
      rwa [List.map_map] at hmap
    refine hids.nodup_iff.mpr (List.pairwise_map.mpr ?_)
    refine (hunique.filter _).imp fun h heq => ?_
    exact h _ rfl (by rw [PollStore.runId, heq])
  · intro run hrun
    obtain ⟨hmem, hactive⟩ := List.mem_filter.mp (hrows.subset (List.mem_map_of_mem hrun))
    refine ⟨hactive, fun r hr hid => ?_⟩
    rw [hunique.eq_of_mem hr hmem rfl (by simp [PollStore.runId, hid])]

theorem checkRuns_unrefused (hunique : UniqueOn PollStore.runId (runs s.1).pollRuns) :
    Unrefused sem (fun answers => ¬ ReportedEarly answers) (checkRuns svc) s := by
  refine Unrefused.pollCall_bind (by nofun) fun active s₁ hstep hrecord _ => ?_
  obtain ⟨hids, hlisted⟩ := listed_of_listActive (hsem.poll hstep) hunique
  have hstore : runs s₁.1 = runs s.1 := PollStore.step_eq (hsem.poll hstep) rfl
  refine checkEach_unrefused svc hsem (List.Subset.refl _) hids ?_ ?_ ?_
  · rw [hrecord]
    exact List.mem_append_right _ (List.mem_singleton.mpr rfl)
  · rw [hstore]
    exact hunique
  · rw [hstore]
    exact hlisted

end Check

section Cancel

theorem cannotCancel_ne (id : String) (run run' : PollRun) (status : PollRunStatus) :
    Exn.valueError s!"Cannot cancel run '{id}' in status {run.val.status.value}" ≠
      invalidTransition run' status := by
  intro h
  have htext := congrArg (fun s => s.toList.head?) (Exn.valueError.inj h)
  simp [String.toList_append, toString] at htext

variable (hsem : RunTable sem runs)
include hsem

theorem cancelRun_unrefused (hunique : UniqueOn PollStore.runId (runs s.1).pollRuns) :
    Unrefused sem C (cancelRun (H := H) id) s := by
  refine (always_pollCall_bind _ _).mpr ⟨trivial, fun current s₁ h => ?_, fun e s₁ h e' _ _ => ?_⟩
  swap
  · rw [h.2]
    exact clean_append_error _ _ _ e'
  cases current with
  | none =>
    rintro e - -
    rw [h.2]
    exact clean_append (fun id run heq => by cases heq) _ e
  | some run =>
    obtain ⟨hstore, hmem, hid⟩ := PollStore.getById_some (hsem.poll h.1)
    dsimp only
    split_ifs with hcancel
    swap
    · rintro _ ⟨rfl⟩ - ⟨_, run', status, -, heq⟩
      exact cannotCancel_ne id run run' status heq
    have hs : At id run.val.status (runs s₁.1) := by
      rw [hstore]
      intro r hr hr'
      rw [hunique.eq_of_mem hr hmem rfl (by simp [PollStore.runId, hid, hr'])]
    have hvalid : .cancelled ∈ run.val.status.validTransitions := by
      simpa [PollRun.canTransitionTo] using hcancel
    refine (updateStatus_moves hsem hvalid _).then hs fun _ s₂ h₂ => ?_
    refine (Moves.surroundings hsem (appendStamped_surroundings _ _) (appendStamped_ne_fail _ _)).then h₂ fun _ s₃ h₃ => ?_
    refine (terminateSpawnedAgent_moves hsem (a := .cancelled) (by decide)).then h₃ fun _ s₄ h₄ => ?_
    refine (Moves.quiet hsem (retryTask_quiet _) (retryTask_ne_fail _)).then h₄ fun _ s₅ h₅ => ?_
    exact (requireRun_moves hsem _).unrefused h₅

end Cancel

section Sound

/-- The program keeps run ids unique, and raises nothing but what breaks an operation off. -/
def Sound {α : Type} (sem : Semantics (worldSignature H) Exn S) (runs : S → PollStore) (C : Answers H → Prop)
    (p : PollingProgram H α) (s : S × Answers H) : Prop :=
  p.Always sem.recorded (fun _ _ => True)
    (fun out s' => UniqueOn PollStore.runId (runs s'.1).pollRuns ∧ ∀ e, out = .error e → Broken C s'.2 e) s

/-- The run is in a table whose run ids are unique. -/
def Present (id : String) (s : PollStore) : Prop :=
  UniqueOn PollStore.runId s.pollRuns ∧ ∃ r ∈ s.pollRuns, r.id = id

theorem Present.evolves {id other : String} {s s' : PollStore} (hs : Present id s) (h : Evolves other s s') :
    Present id s' := by
  obtain ⟨hunique, r, hr, hid⟩ := hs
  obtain ⟨f, hf, hrows⟩ := h hunique
  refine ⟨h.unique hunique, f r, ?_, (hrows r hr).1.trans hid⟩
  rw [hf]
  exact List.mem_map_of_mem hr

variable {α β : Type} {p : PollingProgram H α}

theorem Sound.bind {p : PollingProgram H β} {f : β → PollingProgram H α} (hp : Sound sem runs C p s)
    (hf : ∀ v s', UniqueOn PollStore.runId (runs s'.1).pollRuns → Sound sem runs C (f v) s') :
    Sound sem runs C (p >>= f) s := by
  refine Program.Always.bind hp (fun v s' h => hf v s' h.1) fun e s' h => ⟨h.1, ?_⟩
  rintro _ ⟨rfl⟩
  exact h.2 e rfl

theorem Sound.ret (v : α) (hs : UniqueOn PollStore.runId (runs s.1).pollRuns) :
    Sound sem runs C (.ret v : PollingProgram H α) s := ⟨hs, nofun⟩

theorem Sound.about [Cause C] (hp : p.Raises (Broken C)) (habout : About sem.recorded (fun s => runs s.1) id p)
    (hs : UniqueOn PollStore.runId (runs s.1).pollRuns) : Sound sem runs C p s :=
  ((hp.always s).and (Program.Respects.always habout s (fun _ _ _ => trivial) fun _ _ h => h)).mono
    (fun _ _ _ => trivial) fun _ _ h => ⟨h.2.unique hs, h.1⟩

theorem Present.bind [Cause C] {other : String} {p : PollingProgram H β} {f : β → PollingProgram H α}
    (hs : Present id (runs s.1)) (hp : p.Raises (Broken C))
    (habout : About sem.recorded (fun s => runs s.1) other p)
    (hf : ∀ v s', Present id (runs s'.1) → Sound sem runs C (f v) s') : Sound sem runs C (p >>= f) s := by
  refine Program.Always.bind ((hp.always s).and (Program.Respects.always habout s (fun _ _ _ => trivial)
    fun _ _ h => h) |>.mono (fun _ _ _ => trivial) fun _ _ h => h) (fun v s' h => ?_) fun e s' h => ?_
  · exact hf v s' (hs.evolves h.2)
  · refine ⟨(hs.evolves h.2).1, ?_⟩
    rintro _ ⟨rfl⟩
    exact h.1 e rfl

variable (hsem : RunTable sem runs)
include hsem

theorem requireRun_sound (hs : Present id (runs s.1)) (gone : String) :
    Sound sem runs C (requireRun id gone) s := by
  refine (always_pollCall_bind _ _).mpr ⟨trivial, fun current s₁ hstep => ?_, fun e s₁ hstep => ?_⟩
  · obtain ⟨hunique, r, hr, hid⟩ := hs
    cases current with
    | none => exact absurd hid ((PollStore.getById_none (hsem.poll hstep.1)).2 r hr)
    | some run =>
      refine Sound.ret run ?_
      rw [(PollStore.getById_some (hsem.poll hstep.1)).1]
      exact hunique
  · refine ⟨?_, ?_⟩
    · rw [PollStore.step_eq (hsem.poll hstep.1) rfl]
      exact hs.1
    · rintro _ ⟨rfl⟩
      rw [hstep.2]
      exact .inl ⟨_, List.mem_append_right _ (List.mem_singleton_self _)⟩

variable [Cause C]

theorem Present.quiet_bind {p : PollingProgram H β} {f : β → PollingProgram H α} (hs : Present id (runs s.1))
    (hp : p.Raises (Broken C)) (hquiet : p.OnlyCalls Quiet)
    (hf : ∀ v s', Present id (runs s'.1) → Sound sem runs C (f v) s') : Sound sem runs C (p >>= f) s :=
  hs.bind hp (About.quiet hsem.recorded hquiet : About _ _ id p) hf

theorem Present.pollCall_bind {c : PollCall} {f : c.Value → PollingProgram H α} (hc : c.isWrite = false)
    (hs : Present id (runs s.1)) (hf : ∀ v s', Present id (runs s'.1) → Sound sem runs C (f v) s') :
    Sound sem runs C (pollCall c >>= f) s :=
  hs.bind (pollCall_raises c) (About.pollCall hsem.recorded hc : About _ _ id _) hf

theorem quarantineRun_sound (hs : Present id (runs s.1)) (taskId : String) (launchId : Option String)
    (message launchReason reason : String) :
    Sound sem runs C (quarantineRun id taskId launchId message launchReason reason) s := by
  refine hs.bind (updateStatus_raises _ _ _) (updateStatus_about hsem.recorded _ _) fun _ s₁ h₁ => ?_
  refine h₁.quiet_bind hsem (withLaunch_raises (fun _ => quarantine_raises _ _) _) (withLaunch_quiet _ _) fun _ s₂ h₂ => ?_
  refine h₂.quiet_bind hsem (appendStamped_raises _ _) (quiet_of_surroundings (appendStamped_surroundings _ _))
    fun _ s₃ h₃ => ?_
  exact requireRun_sound hsem h₃ _

theorem recordSpawn_sound (hs : Present id (runs s.1)) (taskId taskSubject : String) (nowMs : Nat)
    (launchId : Option String) (handle : LaunchHandle) :
    Sound sem runs C (recordSpawn id taskId taskSubject nowMs launchId handle) s := by
  refine hs.bind (recordLaunchMetadata_raises _ _ _) (recordLaunchMetadata_about hsem.recorded _ _) fun saved s₁ h₁ => ?_
  cases saved
  · refine h₁.quiet_bind hsem (terminateLaunchHandle_raises handle)
      (quiet_of_surroundings (terminateLaunchHandle_surroundings handle)) fun _ s₂ h₂ => ?_
    exact quarantineRun_sound hsem h₂ _ _ _ _ _
  refine h₁.pollCall_bind hsem rfl fun _ s₂ h₂ => ?_
  refine h₂.quiet_bind hsem (withLaunch_raises (fun _ => casUpdateStatus_raises _ _ _ _) _) (withLaunch_quiet _ _)
    fun _ s₃ h₃ => ?_
  refine h₃.bind (updateStatus_raises _ _ _) (updateStatus_about hsem.recorded _ _) fun _ s₄ h₄ => ?_
  refine h₄.pollCall_bind hsem rfl fun _ s₅ h₅ => h₅.pollCall_bind hsem rfl fun _ s₆ h₆ => ?_
  exact requireRun_sound hsem h₆ _

theorem refuseRun_sound (hs : Present id (runs s.1)) (message : String) (launchId : Option String) :
    Sound sem runs C (refuseRun id message launchId) s := by
  refine hs.bind (updateStatus_raises _ _ _) (updateStatus_about hsem.recorded _ _) fun _ s₁ h₁ => ?_
  refine h₁.quiet_bind hsem (withLaunch_raises (fun _ => markFailed_raises _ _) _) (withLaunch_quiet _ _) fun _ s₂ h₂ => ?_
  exact requireRun_sound hsem h₂ _

/-- The run was found, in a status from which it can be cancelled. -/
def Cancellable (id : String) (answers : Answers H) : Prop :=
  ∀ current, answers.head? = some (.ok (.inl (.getById id)) current) →
    ∃ run, current = some run ∧ run.canTransitionTo .cancelled = true

omit [Cause C] in
/-- Only its event log breaks off the cancellation of a run that can be cancelled. -/
theorem cancelRun_raises {t : S} (hunique : UniqueOn PollStore.runId (runs t).pollRuns) :
    (cancelRun (H := H) id).Always sem.recorded (fun _ _ => True)
      (fun out s' => ∀ e, out = .error e → Cancellable id s'.2 → Broken Unreadable s'.2 e) (t, []) := by
  refine (always_pollCall_bind _ _).mpr ⟨trivial, fun current s₁ hstep => ?_, fun e s₁ hstep => ?_⟩
  swap
  · rintro _ ⟨rfl⟩ -
    rw [hstep.2]
    exact .inl ⟨_, List.mem_singleton_self _⟩
  cases current with
  | none =>
    rintro e - hcancellable
    rw [hstep.2] at hcancellable
    obtain ⟨run, hrun, -⟩ := hcancellable none rfl
    cases hrun
  | some run =>
    obtain ⟨hstore, hmem, hid⟩ := PollStore.getById_some (hsem.poll hstep.1)
    dsimp only
    split_ifs with hcancel
    swap
    · rintro e - hcancellable
      rw [hstep.2] at hcancellable
      obtain ⟨_, ⟨rfl⟩, hcan⟩ := hcancellable (some run) rfl
      exact absurd hcan hcancel
    have h₁ : Present id (runs s₁.1) := by
      rw [hstore]
      exact ⟨hunique, run.val, hmem, hid⟩
    have hrest : Sound sem runs Unreadable (do
        updateStatus id .cancelled none
        appendStamped id fun now => [("type", .str "cancelled"), ("timestamp", .int now)]
        terminateSpawnedAgent id
        retryTask run.val.taskId
        requireRun id "disappeared after update" : PollingProgram H PollRun) s₁ := by
      refine h₁.bind (updateStatus_raises _ _ _) (updateStatus_about hsem.recorded _ _) fun _ s₂ h₂ => ?_
      refine h₂.quiet_bind hsem (appendStamped_raises _ _) (quiet_of_surroundings (appendStamped_surroundings _ _))
        fun _ s₃ h₃ => ?_
      refine h₃.bind (terminateSpawnedAgent_raises id) (terminateSpawnedAgent_about hsem.recorded) fun _ s₄ h₄ => ?_
      refine h₄.quiet_bind hsem (retryTask_raises _) (retryTask_quiet _) fun _ s₅ h₅ => ?_
      exact requireRun_sound hsem h₅ _
    exact hrest.mono (fun _ _ h => h) fun _ _ h e he _ => h.2 e he

variable (svc : AgentPollingService)

theorem spawnStarted_sound (hs : Present id (runs s.1)) (taskId taskSubject runDir : String) (nowMs : Nat)
    (launchId : Option String) :
    Sound sem runs C (spawnStarted svc id taskId taskSubject runDir nowMs launchId) s := by
  refine hs.bind (updateStatus_raises _ _ _) (updateStatus_about hsem.recorded _ _) fun _ s₁ h₁ => ?_
  refine h₁.quiet_bind hsem (withLaunch_raises (fun _ => casUpdateStatus_raises _ _ _ _) _) (withLaunch_quiet _ _)
    fun _ s₂ h₂ => ?_
  refine h₂.pollCall_bind hsem rfl fun current s₃ h₃ => ?_
  refine h₃.quiet_bind hsem (spawnCurrent_raises svc current _ _) (spawnCurrent_quiet svc current _ _)
    fun handle s₄ h₄ => ?_
  cases handle with
  | none => exact quarantineRun_sound hsem h₄ _ _ _ _ _
  | some handle => exact recordSpawn_sound hsem h₄ _ _ _ _ _

omit hsem [Cause C] svc in
theorem queuedRun_accepted {runId taskId runDir : String} {launchId : Option String} (hrun : runId ≠ "")
    (htask : taskId ≠ "") (hlaunch : ∀ id ∈ launchId, strip id ≠ "") :
    (queuedRun runId taskId runDir launchId).postInit = .ok () := by
  have hid : PollRunFields.requireLaunchId launchId = .ok () := by
    cases launchId with
    | none => rfl
    | some id => simp [PollRunFields.requireLaunchId, require, hlaunch id rfl]
  refine bind_eq_ok.mpr ⟨(), require_eq_ok.mpr (decide_eq_true hrun), ?_⟩
  exact bind_eq_ok.mpr ⟨(), require_eq_ok.mpr (decide_eq_true htask), hid⟩

omit hsem [Cause C] svc in
theorem suppressedRun_accepted {runId taskId : String} (attempt : LaunchAttempt) (hrun : runId ≠ "")
    (htask : taskId ≠ "") : (suppressedRun runId taskId attempt).postInit = .ok () := by
  refine bind_eq_ok.mpr ⟨(), require_eq_ok.mpr (decide_eq_true hrun), ?_⟩
  exact bind_eq_ok.mpr ⟨(), require_eq_ok.mpr (decide_eq_true htask), rfl⟩

omit hsem [Cause C] svc in
theorem BlankId.later {h : Answers H} (hblank : BlankId h) {later : Answers H} (hlater : h <+: later) :
    BlankId later := by
  obtain ⟨more, rfl⟩ := hlater
  obtain hmem | ⟨before, own, after, request, attempt, launch, rfl, hfollows⟩ := hblank
  · exact .inl (List.mem_append_left more hmem)
  · exact .inr ⟨before, own, after ++ more, request, attempt, launch, by simp, hfollows⟩

omit [Cause C] in
theorem Sound.pollCall_bind {c : PollCall} {f : c.Value → PollingProgram H α} (hc : c.isWrite = false)
    (hs : UniqueOn PollStore.runId (runs s.1).pollRuns)
    (hf : ∀ v s', UniqueOn PollStore.runId (runs s'.1).pollRuns → s'.2 = s.2 ++ [.ok (.inl c) v] →
      Sound sem runs C (f v) s') : Sound sem runs C (pollCall c >>= f) s := by
  refine (always_pollCall_bind _ _).mpr ⟨trivial, fun v s₁ hstep => ?_, fun e s₁ hstep => ?_⟩
  · refine hf v s₁ ?_ hstep.2
    rw [PollStore.step_eq (hsem.poll hstep.1) hc]
    exact hs
  · constructor
    · rw [PollStore.step_eq (hsem.poll hstep.1) hc]
      exact hs
    · rintro _ ⟨rfl⟩
      rw [hstep.2]
      exact .inl ⟨_, List.mem_append_right _ (List.mem_singleton_self _)⟩

theorem Sound.quiet (hp : p.Raises (Broken C)) (hquiet : p.OnlyCalls Quiet)
    (hs : UniqueOn PollStore.runId (runs s.1).pollRuns) : Sound sem runs C p s :=
  .about hp (About.quiet hsem.recorded hquiet : About _ _ "" p) hs

theorem present_save {run : PollRun} {t t' : S} {u : Unit} (hs : UniqueOn PollStore.runId (runs t).pollRuns)
    (hstep : sem ⟨.inl (.save run), .ok u⟩ t t') : Present run.val.id (runs t') := by
  rcases hsem.poll hstep with ⟨-, hstore⟩ | ⟨-, m, hm⟩
  swap
  · cases hm
  rw [hstore]
  exact ⟨PollStore.save_unique hs run, run.val, List.mem_append_right _ (List.mem_singleton_self _), rfl⟩

omit [Cause C] in
theorem Sound.save_bind {x : Except Exn PollRun} {f : PollRun → PollingProgram H α} {fields : PollRunFields}
    (hx : x = construct PollRunFields.postInit fields) (haccepted : fields.postInit ≠ .ok () → C s.2)
    (hs : UniqueOn PollStore.runId (runs s.1).pollRuns)
    (hf : ∀ run s', run.val = fields → Present fields.id (runs s'.1) → Sound sem runs C (f run) s') :
    Sound sem runs C (.ofExcept x >>= fun run => pollCall (.save run) >>= fun _ => f run) s := by
  refine (Program.always_ofExcept_bind _ _).mpr ⟨fun run hrun => ?_, fun e he => ⟨hs, ?_⟩⟩
  · have hval : run.val = fields := construct_eq_ok.mp (hx.symm.trans hrun)
    refine (always_pollCall_bind _ _).mpr ⟨trivial, fun _ s₁ hstep => ?_, fun e s₁ hstep => ?_⟩
    · have hpresent := present_save hsem hs hstep.1
      rw [hval] at hpresent
      exact hf run s₁ hval hpresent
    · constructor
      · rcases hsem.poll hstep.1 with ⟨hanswer, -⟩ | ⟨hstore, -⟩
        · cases hanswer
        · rw [hstore]
          exact hs
      · rintro _ ⟨rfl⟩
        rw [hstep.2]
        exact .inl ⟨_, List.mem_append_right _ (List.mem_singleton_self _)⟩
  · rintro _ ⟨rfl⟩
    refine .inr (.inr (haccepted fun hok => ?_))
    rw [hx, construct_of_postInit hok] at he
    cases he

omit [Cause C] in
theorem spawnClaimed_sound {runId taskId : String} {launchId : Option String} (htask : taskId ≠ "")
    (hrun : runId = "" → BlankId s.2) (hlaunch : ∀ id ∈ launchId, strip id = "" → BlankId s.2)
    (hs : UniqueOn PollStore.runId (runs s.1).pollRuns) (taskSubject : String) (nowMs : Nat) :
    Sound sem runs (Hindered svc) (spawnClaimed svc runId taskId taskSubject nowMs launchId) s := by
  refine .pollCall_bind hsem rfl hs fun runDir s₁ h₁ hrecord => ?_
  refine .save_bind hsem rfl (fun hrefused => .inr ?_) h₁ fun run s₂ _ h₂ => ?_
  · rw [hrecord]
    by_contra hblank
    refine hrefused (queuedRun_accepted ?_ htask ?_)
    · exact fun h => hblank ((hrun h).later (List.prefix_append _ _))
    · exact fun id hid h => hblank ((hlaunch id hid h).later (List.prefix_append _ _))
  refine h₂.quiet_bind hsem (startTask_raises svc taskId) (startTask_quiet svc taskId) fun refusal s₃ h₃ => ?_
  cases refusal with
  | some message => exact refuseRun_sound hsem h₃ _ _
  | none => exact spawnStarted_sound hsem svc h₃ _ _ _ _ _

omit [Cause C] in
theorem spawnRun_sound {taskId : String} (htask : taskId ≠ "")
    (hs : UniqueOn PollStore.runId (runs s.1).pollRuns) (taskSubject : String) :
    Sound sem runs (Hindered svc) (spawnRun svc taskId taskSubject) s := by
  refine .pollCall_bind hsem rfl hs fun now s₁ h₁ _ => .pollCall_bind hsem rfl h₁ fun runId s₂ h₂ hrecord => ?_
  have hrun : runId = "" → BlankId s₂.2 := by
    rintro rfl
    rw [hrecord]
    exact .inl (List.mem_append_right _ (List.mem_singleton_self _))
  split_ifs
  swap
  · exact spawnClaimed_sound hsem svc htask hrun (fun _ h => by cases h) h₂ _ _
  have hrequest : (launches (requestLaunch (launchRequest svc taskId))).Always sem.recorded (fun _ _ => True)
      (fun out s' => (runs s'.1 = runs s₂.1 ∧ ∀ e, out = .error e → Broken (Hindered svc) s'.2 e) ∧
        ∃ own, (requestLaunch (launchRequest svc taskId)).Follows own (.ofExcept out) ∧
          s'.2 = s₂.2 ++ own.map (.lift (launchEmbedding H))) s₂ :=
    (((quiet_same hsem.recorded (launches_quiet _) s₂).and
      ((launches_raises (requestLaunch_raises _)).always s₂)).and (Program.always_lift_follows _ s₂)).mono
        (fun _ _ _ => trivial) fun _ _ h => h
  refine Program.Always.bind hrequest (fun attempt s₃ h => ?_) fun e s₃ h => ⟨?_, ?_⟩
  rotate_left
  · rw [h.1.1]
    exact h₂
  · rintro _ ⟨rfl⟩
    exact h.1.2 e rfl
  obtain ⟨⟨hstore, -⟩, own, hfollows, hrecord₃⟩ := h
  have h₃ : UniqueOn PollStore.runId (runs s₃.1).pollRuns := by
    rw [hstore]
    exact h₂
  have hrun₃ : runId = "" → BlankId s₃.2 := by
    intro h
    rw [hrecord₃]
    exact (hrun h).later (List.prefix_append _ _)
  split_ifs
  · refine spawnClaimed_sound hsem svc htask hrun₃ (fun id hid hblank => ?_) h₃ _ _
    obtain ⟨launch, hlaunch, rfl⟩ := Option.map_eq_some_iff.mp hid
    exact .inr ⟨s₂.2, own, [], _, attempt, launch, by rw [hrecord₃, List.append_nil], hfollows, hlaunch, hblank⟩
  · refine Sound.save_bind (f := fun run => .ret run) hsem rfl (fun hrefused => .inr ?_) h₃
      fun run s₄ _ h₄ => .ret run h₄.1
    by_contra hblank
    exact hrefused (suppressedRun_accepted attempt (fun h => hblank (hrun₃ h)) htask)

omit [Cause C] in
theorem spawnEach_sound (hs : UniqueOn PollStore.runId (runs s.1).pollRuns)
    (found : List TaskBoard.OrchestrationTask) : Sound sem runs (Hindered svc) (spawnEach svc found) s := by
  induction found generalizing s with
  | nil => exact .ret [] hs
  | cons task rest ih =>
    have htask : task.val.id ≠ "" := by
      obtain ⟨_, hid, -⟩ := bind_eq_ok.mp task.property
      exact of_decide_eq_true (require_eq_ok.mp hid)
    refine (spawnRun_sound hsem svc htask hs _).bind fun run s₁ h₁ => ?_
    exact (ih h₁).bind fun runs s₂ h₂ => .ret _ h₂

omit [Cause C] in
theorem pollOnce_sound (hs : UniqueOn PollStore.runId (runs s.1).pollRuns) :
    Sound sem runs (Hindered svc) (pollOnce svc) s := by
  refine (Sound.quiet hsem (reconcile_raises svc) (reconcile_quiet svc) hs).bind fun _ s₁ h₁ => ?_
  refine .pollCall_bind hsem rfl h₁ fun blocking s₂ h₂ _ => ?_
  dsimp only
  split_ifs
  · exact .ret [] h₂
  refine (Sound.quiet hsem ?_ (tasks_quiet _) h₂).bind fun approved s₃ h₃ => ?_
  · exact (Program.Raises.lift (Program.relayed_perform _)).mono fun _ _ => .inl
  refine (Sound.quiet hsem (candidates_raises svc _ approved) (candidates_quiet svc _ approved) h₃).bind
    fun found s₄ h₄ => ?_
  exact spawnEach_sound hsem svc h₄ _

end Sound

/-- The inputs on which an operation keeps to the transition table: no start is refused, no run
that is queued or spawning has reported its end. -/
def Meets (svc : AgentPollingService) : PollingOp → Answers H → Prop
  | .pollOnce, answers => ¬ StartRefused svc H answers
  | .checkRuns, answers => ¬ ReportedEarly answers
  | .cancelRun _, _ => True

/-- The inputs that do not hinder an operation: a cycle gets every task started that it takes and gets ids that
are texts, a check finds each status file to be an object and each spawn in an event log to be readable, and a
cancellation finds its run in a status that allows it. -/
def Unhindered (svc : AgentPollingService) : PollingOp → Answers H → Prop
  | .pollOnce, answers => ¬ Hindered svc answers
  | .checkRuns, answers => ¬ Unreadable answers
  | .cancelRun id, answers => ¬ Unreadable answers ∧ Cancellable id answers

/-- A check has come to every run that it listed. -/
def Attended : PollingOp → Answers H → Prop
  | .checkRuns, answers => ∃ active more, answers = listedActive active :: more ∧
      ∀ run ∈ active, ∃ file, readStatus run.val.id file ∈ more
  | _, _ => True

/-- Nothing breaks the operation off but the error of one of its calls. -/
structure CarriesOn (op : PollingOp) (answers : Answers H) (rest : PollingProgram H op.Result) : Prop where
  raises : ∀ e, rest = .fail e → Program.Relayed answers e
  attends : ∀ v, rest = .ret v → Attended op answers

theorem relayed_of_broken {C : Answers H → Prop} {answers : Answers H} {α : Type} {e : Exn}
    (hrefused : ¬ RefusedUpdate answers (.fail e : PollingProgram H α)) (hC : ¬ C answers)
    (hbroken : Broken C answers e) : Program.Relayed answers e := by
  obtain hrelayed | hupdate | hcause := hbroken
  · exact hrelayed
  · exact absurd ⟨e, rfl, hupdate⟩ hrefused
  · exact absurd hcause hC

theorem attended_of_returns {svc : AgentPollingService} {op : PollingOp} {answers : Answers H} {v : op.Result}
    (hreturns : (op.program H svc).Answers answers (.ok v)) : Attended op answers := by
  cases op with
  | checkRuns =>
    obtain ⟨e, -, he⟩ | ⟨active, before, more, rfl, hlisted, hchecked⟩ := Program.answers_bind.mp hreturns
    · cases he
    rw [Program.answers_perform.mp hlisted]
    exact ⟨active, more, rfl, checkEach_reads svc hchecked⟩
  | _ => trivial

/-- A start that the gate refuses: the run is still queued when the poller fails it. -/
theorem refused_update_after_refused_start :
    ¬ ∀ (svc : AgentPollingService) (w w' : World) (op : PollingOp) (answers : Answers plainHashing)
      (rest : PollingProgram plainHashing op.Result), (pollingSystem plainHashing svc).Serial w →
      (op.program plainHashing svc).Reaches (pollingSystem plainHashing svc).disturbed w answers
        rest w' → ¬ RefusedUpdate answers rest := by
  intro h
  have hexec : ∃ e answers w, (PollingOp.pollOnce.program plainHashing {}).exec
      (respond {} plainHashing) approvedWorld = some (.error e, answers, w) ∧
      ∃ run, answers.getLast? = some (foundRun run.val.id run) ∧ e = invalidTransition run .failed :=
    ⟨_, _, _, rfl, _, rfl, rfl⟩
  obtain ⟨e, answers, w, hexec, run, hlast, he⟩ := hexec
  exact h {} _ _ .pollOnce _ _ (serial_approvedWorld plainHashing {}) (reaches_of_exec hexec)
    ⟨e, rfl, run.val.id, run, .failed, hlast, he⟩

theorem unrefused_of_meets {svc : AgentPollingService} {w w' : World} {op : PollingOp} {answers : Answers H}
    {rest : PollingProgram H op.Result} (hunique : UniqueOn PollStore.runId w.1.pollRuns)
    (hreaches : (op.program H svc).Reaches (pollingSystem H svc).disturbed w answers rest w')
    (hmeets : Meets svc op answers) : ¬ RefusedUpdate answers rest := by
  have hclean : Clean ([] : Answers H) := by
    rintro e ⟨id, run, status, hlast, -⟩
    cases hlast
  have hunrefused : Unrefused (pollingSystem H svc).disturbed (Meets svc op) (op.program H svc)
      (w, []) := by
    cases op with
    | pollOnce => exact pollOnce_unrefused svc RunTable.disturbed hclean
    | checkRuns => exact checkRuns_unrefused svc RunTable.disturbed hunique
    | cancelRun runId => exact cancelRun_unrefused RunTable.disturbed hunique
  rintro ⟨e, rfl, hrefused⟩
  exact (hreaches.recorded []).always hunrefused e rfl hmeets hrefused

/-- Forbidden transitions: in any world that one poller reaches, with other services at work
between its calls, no operation whose inputs keep to the table has a status update refused; and where nothing
else in its inputs hinders it, it goes through its runs unless a call of it fails. -/
theorem no_refused_update {svc : AgentPollingService} {w w' : World} {op : PollingOp}
    {answers : Answers H} {rest : PollingProgram H op.Result}
    (hw : (pollingSystem H svc).Serial w)
    (hreaches : (op.program H svc).Reaches (pollingSystem H svc).disturbed w answers rest w')
    (hmeets : Meets svc op answers) :
    ¬ RefusedUpdate answers rest ∧ (Unhindered svc op answers → CarriesOn op answers rest) := by
  have hunique : UniqueOn PollStore.runId w.1.pollRuns := (serial_room hw).2.unique
  have hrefused := unrefused_of_meets hunique hreaches hmeets
  refine ⟨hrefused, fun hunhindered => ⟨?_, ?_⟩⟩
  · rintro e rfl
    have hrecorded := hreaches.recorded []
    cases op with
    | pollOnce =>
      exact relayed_of_broken hrefused hunhindered ((hrecorded.always (pollOnce_sound RunTable.disturbed svc hunique)).2 e rfl)
    | checkRuns =>
      exact relayed_of_broken hrefused hunhindered (hrecorded.always ((checkRuns_raises svc).always (w, [])) e rfl)
    | cancelRun id =>
      have hbroken := hrecorded.always (cancelRun_raises RunTable.disturbed hunique) e rfl hunhindered.2
      exact relayed_of_broken hrefused hunhindered.1 hbroken
  · rintro v rfl
    exact attended_of_returns (Program.Reaches.answers hreaches : Program.Answers _ _ (.ok v))

/-- The calls whose answers a check and its cleanup depend on. -/
def asks : (worldSignature H).Call → Bool
  | .inl .listActive | .inl (.readStatus _) | .inl (.readEvents _) => true
  | _ => false

theorem smooth_check {run : PollRun} {id : String} {status error : Option String} {more : Answers H}
    (hrunning : run.val.status = .running) (hmore : more.all (fun a => !asks a.call) = true) :
    ¬ ReportedEarly (listedActive [run] :: readStatus id (.object status error) :: more) ∧
      ¬ Unreadable (listedActive [run] :: readStatus id (.object status error) :: more) := by
  have hasks : ∀ a ∈ more, asks a.call = false := by simpa using hmore
  constructor
  · rintro ⟨active, listed, _, _, hlisted, hmem, hstatus, -⟩
    obtain heq | hlisted := List.mem_cons.mp hlisted
    · cases heq
      rw [List.mem_singleton.mp hmem, hrunning] at hstatus
      simp at hstatus
    obtain heq | hlisted := List.mem_cons.mp hlisted
    · cases heq
    · cases hasks _ hlisted
  · rintro (⟨_, typeName, hread⟩ | ⟨_, events, _, _, hread, -⟩)
    · obtain heq | hread := List.mem_cons.mp hread
      · cases heq
      obtain heq | hread := List.mem_cons.mp hread
      · cases heq
      · cases hasks _ hread
    · obtain heq | hread := List.mem_cons.mp hread
      · cases heq
      obtain heq | hread := List.mem_cons.mp hread
      · cases heq
      · cases hasks _ hread

/-- The check of a run that was spawned and whose agent has reported its end. -/
theorem no_refused_update_completed : ∃ (answers : Answers plainHashing) (runs : List (Option PollRun)),
    runs.map (fun run => run.map (·.val.status)) = [some .completed] ∧
      ¬ RefusedUpdate answers (.ret runs : PollingProgram plainHashing (List (Option PollRun))) ∧
        CarriesOn .checkRuns answers (.ret runs) := by
  have hexec : ∃ out spawned w run id more runs w',
      (PollingOp.pollOnce.program plainHashing plainService).exec (respond {} plainHashing)
        approvedWorld = some (out, spawned, w) ∧
      (PollingOp.checkRuns.program plainHashing plainService).exec
        (respond { statusFile := fun _ => .object (some "COMPLETED") none } plainHashing) w =
          some (.ok runs, listedActive [run] :: readStatus id (.object (some "COMPLETED") none) :: more, w') ∧
      run.val.status = .running ∧ more.all (fun a => !asks a.call) = true ∧
      runs.map (fun run => run.map (·.val.status)) = [some .completed] :=
    ⟨_, _, _, _, _, _, _, _, rfl, rfl, rfl, rfl, rfl⟩
  obtain ⟨out, spawned, w, run, id, more, runs, w', hspawned, hchecked, hrunning, hmore, hstatus⟩ := hexec
  have hw := serial_of_exec (serial_approvedWorld plainHashing plainService) hspawned
  obtain ⟨hearly, hunreadable⟩ := smooth_check hrunning hmore
  obtain ⟨hrefused, hcarries⟩ := no_refused_update hw (reaches_of_exec hchecked) hearly
  exact ⟨_, runs, hstatus, hrefused, hcarries hunreadable⟩

end ForkAgent.Polling

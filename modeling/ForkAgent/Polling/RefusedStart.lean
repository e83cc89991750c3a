import ForkAgent.Polling.Unresolved

/-!
# A start that raises

A cycle saves a queued run before it starts the task. Where the start is refused the poller fails the run, which a
queued run cannot be moved to, and any other error it does not catch. Either way the cycle raises, and the run and
its launch stay where they block the task.
-/

namespace ForkAgent.Polling

open Effects Storage Launch

variable {H : Fpel.Hashing} {S : Type} {sem : Semantics (worldSignature H) Exn S}
variable {runs : S → PollStore} {s : S × Answers H} {h : Answers H}

/-- The start of the task, as the poller asks for it. -/
abbrev pollerStart (H : Fpel.Hashing) (svc : AgentPollingService) (taskId : String) :
    TaskBoard.BoardProgram H TaskBoard.OrchestrationTask :=
  TaskBoard.start H svc.fpelPort taskId pollAgentOwner none

/-- After the run was saved as queued, the start of its task ended so. -/
def StartEnded (svc : AgentPollingService) (run : PollRun) (out : Except Exn TaskBoard.OrchestrationTask)
    (rest : Answers H) : Prop :=
  ∃ own after, rest = own.map (.lift (boardEmbedding H)) ++ after ∧
    (pollerStart H svc run.val.taskId).Follows own (.ofExcept out)

/-- A run was saved as queued, and the start of its task raised. -/
def StartRaised (svc : AgentPollingService) (run : PollRun) (e : Exn) (answers : Answers H) : Prop :=
  ∃ before rest, answers = before ++ .ok (.inl (.save run)) () :: rest ∧ run.val.status = .queued ∧
    StartEnded svc run (.error e) rest

/-- The cycle goes on to its end, and neither a run nor a launch blocks the task. -/
structure Contained (taskId : String) (out : Except Exn (List PollRun)) (w : World) : Prop where
  returns : ∃ runs, out = .ok runs
  runs : ∀ r ∈ w.1.pollRuns, r.taskId = taskId → r.status.isLaunchBlocking = false
  launches : ∀ l ∈ w.2.1.agentLaunchRegistry, l.canonicalKey = buildTaskKey taskId → l.status.isBlocking = false

section Started

variable (svc : AgentPollingService)

/-- Every start that followed a save came to its end. -/
def AllStarted (answers : Answers H) : Prop :=
  ∀ before run rest, answers = before ++ .ok (.inl (.save run)) () :: rest → run.val.status = .queued →
    ∃ task, StartEnded svc run (.ok task) rest

/-- Not the save of a queued run. -/
def SavesNoQueued (a : Answered (worldSignature H) Exn) : Prop :=
  ∀ run, a = .ok (.inl (.save run)) () → run.val.status ≠ .queued

variable {svc}

theorem StartEnded.append {run : PollRun} {out : Except Exn TaskBoard.OrchestrationTask} {rest : Answers H}
    (hended : StartEnded svc run out rest) (later : Answers H) : StartEnded svc run out (rest ++ later) := by
  obtain ⟨own, after, rfl, hfollows⟩ := hended
  exact ⟨own, after ++ later, by simp, hfollows⟩

theorem AllStarted.concat (hs : AllStarted svc h) {a : Answered (worldSignature H) Exn} (ha : SavesNoQueued a) :
    AllStarted svc (h ++ [a]) := by
  intro before run rest hsplit hqueued
  rcases List.eq_nil_or_concat rest with rfl | ⟨init, last, rfl⟩
  · have hlast := List.append_inj_right' hsplit rfl
    exact absurd hqueued (ha run (List.singleton_inj.mp hlast))
  · have hinit : h = before ++ .ok (.inl (.save run)) () :: init := by
      rw [List.concat_eq_append, ← List.cons_append, ← List.append_assoc] at hsplit
      exact List.append_inj_left' hsplit rfl
    obtain ⟨task, hended⟩ := hs before run init hinit hqueued
    refine ⟨task, ?_⟩
    rw [List.concat_eq_append]
    exact hended.append _

theorem savesNoQueued_of_keepsOut {a : Answered (worldSignature H) Exn} (ha : KeepsOut [] a.call) :
    SavesNoQueued a := by
  intro run hsave
  rw [hsave] at ha
  cases ha

variable {α : Type} {p : PollingProgram H α}

/-- A program that saves no run leaves it so that every start has ended. -/
theorem keepsOut_allStarted (hp : p.OnlyCalls (KeepsOut [])) (hs : AllStarted svc s.2) :
    p.Always sem.recorded (fun _ _ => True) (fun _ s' => AllStarted svc s'.2) s := by
  have hkept : p.Respects sem.recorded fun s s' => AllStarted svc s.2 → AllStarted svc s'.2 := by
    refine hp.respects (fun _ h => h) (fun _ _ _ h h' hs => h' (h hs)) ?_
    intro c r s s' hc hstep hs
    rw [hstep.2]
    exact hs.concat (savesNoQueued_of_keepsOut hc)
  exact hkept.always s (fun _ _ _ => trivial) fun _ _ h => h hs

/-- A start that ended well, right after its run was saved. -/
theorem AllStarted.started {run : PollRun} {own : List (Answered (TaskBoard.boardSignature H) Exn)}
    {task : TaskBoard.OrchestrationTask} (hs : AllStarted svc h)
    (hfollows : (pollerStart H svc run.val.taskId).Follows own (.ret task)) :
    AllStarted svc (h ++ [.ok (.inl (.save run)) ()] ++ own.map (.lift (boardEmbedding H))) := by
  have hboard (saved : PollRun) : (⟨.inl (.save saved), .ok ()⟩ : Answered (worldSignature H) Exn) ∉
      own.map (.lift (boardEmbedding H)) := by
    intro hmem
    obtain ⟨a, -, heq⟩ := List.mem_map.mp hmem
    cases congrArg Answered.call heq
  intro before saved rest hsplit hqueued
  rw [List.append_assoc] at hsplit
  rcases List.append_eq_append_iff.mp hsplit with ⟨mid, hbefore, hmid⟩ | ⟨mid, hbefore, hmid⟩
  · cases mid with
    | nil =>
      obtain ⟨hsaved, hrest⟩ := List.cons.inj hmid
      cases hsaved
      exact ⟨task, own, [], by rw [List.append_nil]; exact hrest.symm, hfollows⟩
    | cons a mid =>
      have hown : own.map (.lift (boardEmbedding H)) = mid ++ .ok (.inl (.save saved)) () :: rest :=
        (List.cons.inj hmid).2
      exact absurd (by rw [hown]; simp) (hboard saved)
  · cases mid with
    | nil =>
      obtain ⟨hsaved, hrest⟩ := List.cons.inj hmid
      cases hsaved
      exact ⟨task, own, [], by rw [List.append_nil]; exact hrest, hfollows⟩
    | cons a mid =>
      obtain ⟨rfl, hrest⟩ := List.cons.inj hmid
      obtain ⟨task', hended⟩ := hs before saved mid hbefore hqueued
      exact ⟨task', by rw [hrest]; exact hended.append _⟩

/-- In what returns, every start came to its end. -/
def StartedIfReturns (svc : AgentPollingService) (out : Except Exn α) (answers : Answers H) : Prop :=
  ∀ v, out = .ok v → AllStarted svc answers

theorem StartedIfReturns.error (e : Exn) : StartedIfReturns svc (.error e : Except Exn α) h := by
  intro v hv
  cases hv

theorem StartedIfReturns.of_started {out : Except Exn α} (hs : AllStarted svc h) : StartedIfReturns svc out h :=
  fun _ _ => hs

end Started

section Refused

open Program

variable {svc : AgentPollingService} {id : String}

/-- The run is in the table, and queued. -/
def IsQueued (id : String) (s : PollStore) : Prop := (∃ r ∈ s.pollRuns, r.id = id) ∧ At id .queued s

variable (hsem : RunTable sem runs)
include hsem

theorem save_isQueued {run : PollRun} (hqueued : run.val.status = .queued) {s s' : S} {u : Unit}
    (hstep : sem ⟨.inl (.save run), .ok u⟩ s s') : IsQueued run.val.id (runs s') := by
  rcases hsem.poll hstep with ⟨-, hstore⟩ | ⟨-, m, hm⟩
  swap
  · cases hm
  rw [hstore]
  refine ⟨⟨run.val, List.mem_append_right _ (List.mem_singleton.mpr rfl), rfl⟩, ?_⟩
  intro r hr hid
  cases List.mem_append.mp hr with
  | inl hr =>
    have hkeep := (List.mem_filter.mp hr).2
    simp [conflicts, PollStore.runId, hid] at hkeep
  | inr hr =>
    rw [List.mem_singleton.mp hr]
    exact hqueued

theorem refuseRun_raises (hs : IsQueued id (runs s.1)) (message : String) (launchId : Option String) :
    (refuseRun id message launchId).Always sem.recorded (fun _ _ => True) (fun out _ => ∃ e, out = .error e) s := by
  have hraises : (updateStatus id .failed (some message)).Always sem.recorded (fun _ _ => True)
      (fun out _ => ∃ e, out = .error e) s := by
    refine (always_pollCall_bind _ _).mpr ⟨trivial, fun current s₁ hstep => ?_, fun e _ _ => ⟨e, rfl⟩⟩
    cases current with
    | none =>
      obtain ⟨⟨r, hr, hid⟩, -⟩ := hs
      exact absurd hid ((PollStore.getById_none (hsem.poll hstep.1)).2 r hr)
    | some run =>
      obtain ⟨-, hmem, hid⟩ := PollStore.getById_some (hsem.poll hstep.1)
      have hrefused : validateTransition (some run) .failed = .error (invalidTransition run .failed) := by
        simp [validateTransition, require, PollRun.canTransitionTo, hs.2 _ hmem hid, PollRunStatus.validTransitions]
      simp only [hrefused]
      exact ⟨_, rfl⟩
  refine hraises.bind (fun v _ hv => ?_) fun e _ _ => ⟨e, rfl⟩
  obtain ⟨e, he⟩ := hv
  cases he

theorem startTask_follows (taskId : String) :
    (startTask svc taskId).Always sem.recorded (fun _ _ => True)
      (fun out s' => runs s'.1 = runs s.1 ∧ (out = .ok none → ∃ own task,
        (pollerStart H svc taskId).Follows own (.ret task) ∧
          s'.2 = s.2 ++ own.map (.lift (boardEmbedding H)))) s := by
  have hown : (tasks (pollerStart H svc taskId)).Always sem.recorded (fun _ _ => True) _ s :=
    always_lift_follows _ s
  have hstarted : (tasks (pollerStart H svc taskId) >>=
      fun _ => (return none : PollingProgram H (Option String))).Always sem.recorded (fun _ _ => True)
      (fun out s' => out = .ok none → ∃ own task, (pollerStart H svc taskId).Follows own (.ret task) ∧
        s'.2 = s.2 ++ own.map (.lift (boardEmbedding H))) s := by
    refine hown.bind (fun task s' h => ?_) fun e s' _ => nofun
    obtain ⟨own, hfollows, hrecord⟩ := h
    exact fun _ => ⟨own, task, hfollows, hrecord⟩
  have hnone : (startTask svc taskId).Always sem.recorded (fun _ _ => True)
      (fun out s' => out = .ok none → ∃ own task, (pollerStart H svc taskId).Follows own (.ret task) ∧
        s'.2 = s.2 ++ own.map (.lift (boardEmbedding H))) s := by
    refine hstarted.handle (fun v s' h hv => h hv) fun e s' _ => ?_
    cases e with
    | taskTransitionError message => exact nofun
    | _ => exact nofun
  exact ((quiet_same hsem.recorded (startTask_quiet svc taskId) s).and hnone).mono (fun _ _ _ => trivial)
    fun _ _ h => h

variable (svc)

theorem spawnClaimed_started (hs : AllStarted svc s.2) (runId taskId taskSubject : String) (nowMs : Nat)
    (launchId : Option String) :
    (spawnClaimed svc runId taskId taskSubject nowMs launchId).Always sem.recorded (fun _ _ => True)
      (fun out s' => StartedIfReturns svc out s'.2) s := by
  refine (always_pollCall_bind _ _).mpr ⟨trivial, fun runDir s₁ hstep₁ => ?_, fun e _ _ => .error e⟩
  have hs₁ : AllStarted svc s₁.2 := by
    rw [hstep₁.2]
    exact hs.concat (savesNoQueued_of_keepsOut trivial)
  refine (always_ofExcept_bind _ _).mpr ⟨fun run hrun => ?_, fun e _ => .error e⟩
  have hval : run.val = queuedRun runId taskId runDir launchId := construct_eq_ok.mp hrun
  have hid : run.val.id = runId := by rw [hval]; rfl
  have htask : run.val.taskId = taskId := by rw [hval]; rfl
  refine (always_pollCall_bind _ _).mpr ⟨trivial, fun u s₂ hstep₂ => ?_, fun e _ _ => .error e⟩
  have hqueued := save_isQueued hsem (by rw [hval]; rfl) hstep₂.1
  refine (startTask_follows hsem taskId).bind (fun refusal s₃ h₃ => ?_) fun e _ _ => .error e
  obtain ⟨hstore, hstarted⟩ := h₃
  cases refusal with
  | some message =>
    rw [← hstore, hid] at hqueued
    refine (refuseRun_raises hsem hqueued message launchId).mono (fun _ _ _ => trivial) fun out _ hraised => ?_
    obtain ⟨e, rfl⟩ := hraised
    exact .error e
  | none =>
    obtain ⟨own, task, hfollows, hrecord⟩ := hstarted rfl
    have hs₃ : AllStarted svc s₃.2 := by
      rw [hrecord, hstep₂.2]
      rw [← htask] at hfollows
      exact hs₁.started hfollows
    have hkeeps : (spawnStarted svc runId taskId taskSubject runDir nowMs launchId : PollingProgram H _).OnlyCalls
        (KeepsOut []) := by
      refine .bind (updateStatus_keepsOut (by simp) _ _) fun _ => ?_
      refine .bind (keepsOut_of_quiet (withLaunch_quiet _ _)) fun _ => ?_
      refine .bind (pollCall_keepsOut trivial) fun current => ?_
      refine .bind (keepsOut_of_quiet (spawnCurrent_quiet svc current _ _)) fun handle => ?_
      cases handle with
      | none => exact quarantineRun_keepsOut (by simp) _ _ _ _ _ _
      | some handle => exact recordSpawn_keepsOut (by simp) (by simp) _ _ _ _ _ _
    exact (keepsOut_allStarted hkeeps hs₃).mono (fun _ _ _ => trivial) fun _ _ h => .of_started h

theorem spawnRun_started (hs : AllStarted svc s.2) (taskId taskSubject : String) :
    (spawnRun svc taskId taskSubject).Always sem.recorded (fun _ _ => True)
      (fun out s' => StartedIfReturns svc out s'.2) s := by
  refine (always_pollCall_bind _ _).mpr ⟨trivial, fun now s₁ hstep₁ => ?_, fun e _ _ => .error e⟩
  refine (always_pollCall_bind _ _).mpr ⟨trivial, fun runId s₂ hstep₂ => ?_, fun e _ _ => .error e⟩
  have hs₁ : AllStarted svc s₁.2 := by
    rw [hstep₁.2]
    exact hs.concat (savesNoQueued_of_keepsOut trivial)
  have hs₂ : AllStarted svc s₂.2 := by
    rw [hstep₂.2]
    exact hs₁.concat (savesNoQueued_of_keepsOut trivial)
  split_ifs
  swap
  · exact spawnClaimed_started svc hsem hs₂ _ _ _ _ _
  refine (keepsOut_allStarted (keepsOut_of_quiet (launches_quiet _)) hs₂).bind (fun attempt s₃ hs₃ => ?_)
    fun e _ _ => .error e
  split_ifs
  · exact spawnClaimed_started svc hsem hs₃ _ _ _ _ _
  refine (always_ofExcept_bind _ _).mpr ⟨fun run hrun => ?_, fun e _ => .error e⟩
  refine (always_pollCall_bind _ _).mpr ⟨trivial, fun u s₄ hstep₄ => ?_, fun e _ _ => .error e⟩
  apply StartedIfReturns.of_started
  rw [hstep₄.2]
  apply hs₃.concat
  intro saved hsaved
  cases hsaved
  rw [construct_eq_ok.mp hrun]
  exact nofun

theorem spawnEach_started (hs : AllStarted svc s.2) (found : List TaskBoard.OrchestrationTask) :
    (spawnEach svc found).Always sem.recorded (fun _ _ => True)
      (fun out s' => StartedIfReturns svc out s'.2) s := by
  induction found generalizing s with
  | nil =>
    exact .of_started hs
  | cons task rest ih =>
    refine (spawnRun_started svc hsem hs _ _).bind (fun run s₁ hs₁ => ?_) fun e _ _ => .error e
    refine (ih (hs₁ run rfl)).bind (fun others s₂ hs₂ => ?_) fun e _ _ => .error e
    exact .of_started (hs₂ others rfl)

theorem pollOnce_started : (pollOnce svc).Always sem.recorded (fun _ _ => True)
    (fun out s' => StartedIfReturns svc out s'.2) (s.1, []) := by
  have hnone : AllStarted (H := H) svc [] := by
    intro before run rest hsplit
    simp at hsplit
  refine (keepsOut_allStarted (s := (s.1, [])) (keepsOut_of_quiet (reconcile_quiet svc)) hnone).bind
    (fun _ s₁ hs₁ => ?_) fun e _ _ => .error e
  refine (always_pollCall_bind _ _).mpr ⟨trivial, fun blocking s₂ hstep₂ => ?_, fun e _ _ => .error e⟩
  have hs₂ : AllStarted svc s₂.2 := by
    rw [hstep₂.2]
    exact hs₁.concat (savesNoQueued_of_keepsOut trivial)
  dsimp only
  split_ifs
  · exact .of_started hs₂
  refine (keepsOut_allStarted (keepsOut_of_quiet (tasks_quiet _)) hs₂).bind (fun approved s₃ hs₃ => ?_)
    fun e _ _ => .error e
  refine (keepsOut_allStarted (keepsOut_of_quiet (candidates_quiet svc _ approved)) hs₃).bind (fun found s₄ hs₄ => ?_)
    fun e _ _ => .error e
  exact spawnEach_started svc hsem hs₄ _

end Refused

section Contained

variable {svc : AgentPollingService}

theorem StartEnded.unique {run : PollRun} {out out' : Except Exn TaskBoard.OrchestrationTask} {rest : Answers H}
    (hended : StartEnded svc run out rest) (hended' : StartEnded svc run out' rest) : out = out' := by
  obtain ⟨own, after, hrest, hfollows⟩ := hended
  obtain ⟨own', after', hrest', hfollows'⟩ := hended'
  exact hfollows.unique hfollows' (hrest.symm.trans hrest')

/-- Whatever start a cycle has raise for it, in any world and with other services at work between its calls, it is
not contained. -/
theorem refused_start_not_contained {w w' : World} {answers : Answers H} {out : Except Exn (List PollRun)}
    {run : PollRun} {e : Exn}
    (hreaches : (PollingOp.pollOnce.program H svc).Reaches (pollingSystem H svc).disturbed w answers (.ofExcept out) w')
    (hraised : StartRaised svc run e answers) : ¬ Contained run.val.taskId out w' := by
  intro hcontained
  obtain ⟨runs, rfl⟩ := hcontained.returns
  obtain ⟨before, rest, hsplit, hqueued, hended⟩ := hraised
  have hrecorded := hreaches.recorded []
  have hstarted := hrecorded.always (pollOnce_started (s := (w, [])) svc RunTable.disturbed) runs rfl
  obtain ⟨task, hended'⟩ := hstarted before run rest (by simpa using hsplit) hqueued
  cases hended.unique hended'

end Contained

section Sample

/-- The run of the only task. -/
def refusedRun : PollRun := ⟨queuedRun "run" "q" "/runs/run" (some "launch"), by decide⟩

/-- The start finds the task, and no proposal that is active for it. -/
def gateAnswers : List (Answered (TaskBoard.boardSignature plainHashing) Exn) :=
  [⟨.inl (.getById "q"), .ok (some approvedTask)⟩, ⟨.inr (.getActiveFrozenProposal "q"), .ok none⟩]

theorem start_refused : ∃ e, (pollerStart plainHashing {} refusedRun.val.taskId).Follows gateAnswers (.fail e) :=
  ⟨_, .cons (.cons (.nil _))⟩

theorem pollOnce_refused : ∃ out answers w before after,
    (PollingOp.pollOnce.program plainHashing {}).exec (respond {} plainHashing) approvedWorld =
      some (.error out, answers, w) ∧ answers = before ++ .ok (.inl (.save refusedRun)) () ::
        (gateAnswers.map (.lift (boardEmbedding plainHashing)) ++ after) ∧
      w.1.pollRuns.map (·.status) = [.queued] :=
  ⟨_, _, _, [_, _, _, _, _, _, _, _, _, _, _, _, _, _], _, rfl, rfl, rfl⟩

theorem refused_start_not_contained_gate : ∃ (out : Exn) (w : World),
    ¬ Contained "q" (.error out) w ∧ w.1.pollRuns.map (·.status) = [.queued] := by
  obtain ⟨e, hfollows⟩ := start_refused
  obtain ⟨out, answers, w, before, after, hexec, hanswers, hstays⟩ := pollOnce_refused
  have hraised : StartRaised {} refusedRun e answers := ⟨before, _, hanswers, rfl, gateAnswers, after, rfl, hfollows⟩
  exact ⟨out, w, refused_start_not_contained (reaches_of_exec hexec) hraised, hstays⟩

/-- The gate refuses the start of the only task: nothing was sealed for it. -/
theorem refused_start_escapes : ¬ ∀ (svc : AgentPollingService) (w w' : World) (answers : Answers plainHashing)
    (out : Except Exn (List PollRun)) (run : PollRun) (e : Exn),
    (PollingOp.pollOnce.program plainHashing svc).Reaches (pollingSystem plainHashing svc).disturbed w answers
      (.ofExcept out) w' → StartRaised svc run e answers → Contained run.val.taskId out w' := by
  intro h
  obtain ⟨e, hfollows⟩ := start_refused
  obtain ⟨out, answers, w, before, after, hexec, hanswers, -⟩ := pollOnce_refused
  have hraised : StartRaised {} refusedRun e answers := ⟨before, _, hanswers, rfl, gateAnswers, after, rfl, hfollows⟩
  obtain ⟨runs, hreturns⟩ := (h {} _ _ _ _ refusedRun e (reaches_of_exec hexec) hraised).returns
  cases hreturns

end Sample

end ForkAgent.Polling

import ForkAgent.Effects.Traces
import ForkAgent.Polling.Moves

/-!
# What an operation raises

An operation relays what its calls raise. Of its own it raises where a status update is refused, where a task
cannot be started, and where a status file or an event log is not what the service expects.
-/

namespace ForkAgent.Polling

open Effects Storage Launch Program

section Lifecycle

theorem nowWhen_raises (condition : Bool) : (nowWhen condition).Raises Relayed := by
  cases condition
  · exact .ret none
  · exact .bind (relayed_perform _) fun now => .ret (some now)

theorem casUpdateStatus_raises (launchId : String) (expected new : LaunchStatus) (columns : CasColumns) :
    (casUpdateStatus launchId expected new columns).Raises Relayed := by
  refine .bind (nowWhen_raises _) fun _ => .bind (nowWhen_raises _) fun _ => .bind (nowWhen_raises _) fun _ => ?_
  exact relayed_perform _

theorem quarantine_raises (launchId reason : String) : (quarantine launchId reason).Raises Relayed := by
  refine .bind (relayed_perform _) fun launch => ?_
  cases launch with
  | none => exact .ret false
  | some launch =>
    dsimp only
    split_ifs
    · exact .ret false
    · exact casUpdateStatus_raises _ _ _ _
    · exact .ret false

theorem markFailed_raises (launchId error : String) : (markFailed launchId error).Raises Relayed := by
  refine .bind (relayed_perform _) fun launch => ?_
  cases launch with
  | none => exact .ret false
  | some launch =>
    dsimp only
    split_ifs
    · exact .ret false
    · exact casUpdateStatus_raises _ _ _ _
    · exact .ret false

theorem quarantineEach_raises (reason : AgentLaunch → String) (launches : List AgentLaunch) :
    (quarantineEach reason launches).Raises Relayed := by
  induction launches with
  | nil => exact .ret []
  | cons launch rest ih => exact .bind (quarantine_raises _ _) fun _ => .bind ih fun _ => .ret _

theorem reconcileExpiredLeases_raises : reconcileExpiredLeases.Raises Relayed :=
  .bind (relayed_perform _) fun _ => .bind (relayed_perform _) fun _ => quarantineEach_raises _ _

theorem requestLaunch_raises (request : LaunchRequest) : (requestLaunch request).Raises Relayed := by
  intro h e hraised
  obtain ⟨_, -, he⟩ | ⟨_, _, _, -, -, -, he⟩ := answers_handle.mp hraised
  · cases he
  · cases he

end Lifecycle

variable {H : Fpel.Hashing} {α : Type}

section Board

/-- The error of a call, or one that the service suppresses. -/
def Suppressible {σ : Signature} (h : List (Answered σ Exn)) (e : Exn) : Prop :=
  Relayed h e ∨ e.isValueError = true

instance {σ : Signature} : Lasting (Suppressible : List (Answered σ Exn) → Exn → Prop) where
  append before h e := Or.imp_left (Lasting.append before h e)

theorem suppressible_call (c : (TaskBoard.boardSignature H).Call) :
    (perform c : TaskBoard.BoardProgram H _).Raises Suppressible := (relayed_perform c).mono fun _ _ => .inl

theorem suppressible_fail {e : Exn} (he : e.isValueError = true) :
    (.fail e : TaskBoard.BoardProgram H α).Raises Suppressible := .fail (.inr he)

theorem suppressible_ofExcept {x : Except Exn α} (hx : ∀ e, x = .error e → e.isValueError = true) :
    (.ofExcept x : TaskBoard.BoardProgram H α).Raises Suppressible := by
  cases x with
  | ok a => exact .ret a
  | error e => exact suppressible_fail (hx e rfl)

theorem isValueError_of_postInit {f : TaskBoard.OrchestrationTaskFields} {e : Exn} (h : f.postInit = .error e) :
    e.isValueError = true := by
  have hrequire : ∀ {condition : Bool} {m : String}, require condition (.valueError m) = .error e →
      e.isValueError = true := by
    intro condition m hm
    rw [eq_of_require_eq_error hm]
    rfl
  obtain h | ⟨_, -, h⟩ := bind_eq_error.mp h
  · exact hrequire h
  obtain h | ⟨_, -, h⟩ := bind_eq_error.mp h
  · exact hrequire h
  obtain h | ⟨_, -, h⟩ := bind_eq_error.mp h
  · exact hrequire h
  obtain h | ⟨_, -, h⟩ := bind_eq_error.mp h
  · exact hrequire h
  obtain h | ⟨_, -, h⟩ := bind_eq_error.mp h
  · exact hrequire h
  · exact hrequire h

theorem replaceTask_raises (fields : TaskBoard.OrchestrationTaskFields) :
    (TaskBoard.replaceTask H fields).Raises Suppressible := by
  refine suppressible_ofExcept fun e he => ?_
  cases hf : fields.postInit with
  | ok u => rw [construct_of_postInit hf] at he; cases he
  | error e' =>
    rw [construct_of_error hf] at he
    cases he
    exact isValueError_of_postInit hf

theorem requireTask_raises (taskId : String) : (TaskBoard.requireTask H taskId).Raises Suppressible := by
  refine .bind (suppressible_call _) fun task => ?_
  cases task with
  | none => exact suppressible_fail rfl
  | some task => exact .ret task

theorem validateTransition_raises (task : TaskBoard.OrchestrationTask) (target : TaskBoard.OrchestrationTaskStatus) :
    (.ofExcept (TaskBoard.validateTransition task target) : TaskBoard.BoardProgram H Unit).Raises Suppressible := by
  refine suppressible_ofExcept fun e he => ?_
  rw [eq_of_require_eq_error he]
  rfl

theorem storeTask_raises (updated : TaskBoard.OrchestrationTask) (expected : TaskBoard.OrchestrationTaskStatus)
    (conflict : String) : (TaskBoard.storeTask H updated expected conflict).Raises Suppressible := by
  refine .bind (suppressible_call _) fun saved => ?_
  cases saved
  · exact suppressible_fail rfl
  · exact .ret updated

theorem unblockedBy_raises (taskId : String) (candidates : List TaskBoard.OrchestrationTask) :
    (TaskBoard.unblockedBy H taskId candidates).Raises Suppressible := by
  induction candidates with
  | nil => exact .ret []
  | cons candidate rest ih =>
    unfold TaskBoard.unblockedBy
    split_ifs
    · exact .bind (suppressible_call _) fun _ => .bind ih fun _ => .ret _
    · exact ih

theorem complete_raises (taskId : String) : (TaskBoard.complete H taskId none).Raises Suppressible := by
  refine .bind (requireTask_raises _) fun _ => .bind (validateTransition_raises _ _) fun _ => ?_
  refine .bind (suppressible_call _) fun _ => .bind (replaceTask_raises _) fun _ => ?_
  refine .bind (storeTask_raises _ _ _) fun updated => .bind ?_ fun _ => .ret updated
  exact .bind (suppressible_call _) fun _ => unblockedBy_raises _ _

theorem retry_raises (taskId : String) : (TaskBoard.retry H taskId).Raises Suppressible := by
  refine .bind (requireTask_raises _) fun task => ?_
  split_ifs
  · exact .bind (replaceTask_raises _) fun _ => storeTask_raises _ _ _
  · exact suppressible_fail rfl

end Board

section Causes

/-- The answer of the listing of active runs. -/
def listedActive (active : List PollRun) : Answered (worldSignature H) Exn :=
  .ok (.inl .listActive) active

/-- The answer of the read of a status file. -/
def readStatus (id : String) (file : StatusFile) : Answered (worldSignature H) Exn :=
  .ok (.inl (.readStatus id)) file

/-- The answer of the read of an event log. -/
def readEvents (id : String) (events : List Fields) : Answered (worldSignature H) Exn :=
  .ok (.inl (.readEvents id)) events

/-- A status file is JSON but no object, or the last spawn of an event log has a process id that is no number. -/
def Unreadable (answers : Answers H) : Prop :=
  (∃ id typeName, readStatus id (.notObject typeName) ∈ answers) ∨
    ∃ id events event e, readEvents id events ∈ answers ∧ events.reverse.find? isSpawned = some event ∧
      launchHandleFromEvent event = .error e

/-- A cause of which earlier answers say nothing. -/
class Cause (C : Answers H → Prop) : Prop where
  append : ∀ before h, C h → C (before ++ h)

/-- What breaks an operation off: the error of a call, a refused update, or a cause of this kind. -/
def Broken (C : Answers H → Prop) (answers : Answers H) (e : Exn) : Prop :=
  Relayed answers e ∨ RefusedWith answers e ∨ C answers

instance : Cause (Unreadable (H := H)) where
  append := by
    rintro before h (⟨id, typeName, hmem⟩ | ⟨id, events, event, e, hmem, hevent⟩)
    · exact .inl ⟨id, typeName, List.mem_append_right before hmem⟩
    · exact .inr ⟨id, events, event, e, List.mem_append_right before hmem, hevent⟩

theorem RefusedWith.append {h : Answers H} {e : Exn} (hrefused : RefusedWith h e) (before : Answers H) :
    RefusedWith (before ++ h) e := by
  obtain ⟨id, run, status, hlast, he⟩ := hrefused
  exact ⟨id, run, status, by rw [List.getLast?_append, hlast]; rfl, he⟩

instance {C : Answers H → Prop} [Cause C] : Lasting (Broken C) where
  append before h e := by
    rintro (hrelayed | hrefused | hcause)
    · exact .inl (Lasting.append before h e hrelayed)
    · exact .inr (.inl (hrefused.append before))
    · exact .inr (.inr (Cause.append before h hcause))

end Causes

section Helpers

variable {C : Answers H → Prop}

theorem pollCall_raises (c : PollCall) : (pollCall c : PollingProgram H c.Value).Raises (Broken C) :=
  (relayed_perform (σ := worldSignature H) _).mono fun _ _ => .inl

theorem launches_raises {p : LaunchProgram α} (hp : p.Raises Relayed) :
    (launches p : PollingProgram H α).Raises (Broken C) := hp.lift.mono fun _ _ => .inl

theorem suppressValueError_raises {p : TaskBoard.BoardProgram H TaskBoard.OrchestrationTask}
    (hp : p.Raises Suppressible) : (suppressValueError (tasks p)).Raises (Broken C) := by
  have hlifted : (tasks p : PollingProgram H _).Raises Suppressible := by
    intro h e hraised
    obtain ⟨own, rfl, hown⟩ := answers_lift hraised
    refine (hp own e hown).imp_left fun ⟨c, hc⟩ => ?_
    exact ⟨(boardEmbedding H).call c, List.mem_map.mpr ⟨_, hc, rfl⟩⟩
  refine (hlifted.bind fun _ => .ret ()).handle fun before e hsuppressible after e' hraised => ?_
  split_ifs at hraised with hvalue
  · cases hraised.2
  · obtain ⟨rfl, he⟩ := hraised
    cases he
    rw [List.append_nil]
    exact .inl (hsuppressible.resolve_right hvalue)

theorem retryTask_raises (taskId : String) : (retryTask taskId : PollingProgram H Unit).Raises (Broken C) := by
  unfold retryTask
  split_ifs
  · exact suppressValueError_raises (retry_raises _)
  · exact .ret ()

theorem finalizeIfSome_raises (svc : AgentPollingService) (run : Option PollRun) (error : Option String) :
    (finalizeIfSome svc run error : PollingProgram H Unit).Raises (Broken C) := by
  cases run with
  | none => exact .ret ()
  | some run =>
    unfold finalizeIfSome finalizeLaunch
    split_ifs
    · exact raises_swallow
    · exact .ret ()

variable [Cause C]

theorem withLaunch_raises {f : String → LaunchProgram Bool} (hf : ∀ id, (f id).Raises Relayed)
    (launchId : Option String) : (withLaunch launchId f : PollingProgram H Unit).Raises (Broken C) := by
  cases launchId with
  | none => exact .ret ()
  | some id => exact .bind (launches_raises (hf id)) fun _ => .ret ()

theorem appendStamped_raises (id : String) (event : Int → Fields) :
    (appendStamped id event : PollingProgram H Unit).Raises (Broken C) :=
  .bind (pollCall_raises _) fun _ => pollCall_raises _

theorem updateStatus_raises (id : String) (status : PollRunStatus) (errorMessage : Option String) :
    (updateStatus id status errorMessage : PollingProgram H Unit).Raises (Broken C) := by
  refine (pollCall_raises (.getById id)).bind_after fun before current hread after e hraised => ?_
  rw [answers_perform.mp hread]
  cases hvalid : validateTransition current status with
  | ok u =>
    rw [hvalid] at hraised
    have hrest : (pollCall .timeMs >>= fun now => pollCall (.updateRow id status (Int.ofNat now) errorMessage) :
        PollingProgram H Unit).Raises (Broken C) := .bind (pollCall_raises _) fun _ => pollCall_raises _
    exact Lasting.append _ after e (hrest after e hraised)
  | error e' =>
    rw [hvalid] at hraised
    obtain ⟨rfl, he⟩ := hraised
    cases he
    cases current with
    | none => cases hvalid
    | some run => exact .inr (.inl ⟨id, run, status, rfl, eq_of_require_eq_error hvalid⟩)

theorem suppressProcessLookup_raises {p : PollingProgram H Unit} (hp : p.Raises (Broken C)) :
    (suppressProcessLookup p).Raises (Broken C) := by
  refine hp.handle_some fun e => ?_
  cases e with
  | processLookupError m => exact .inr (.ret ())
  | _ => exact .inl rfl

theorem terminateProcess_raises (target : Int) (group : Bool) :
    (terminateProcess target group : PollingProgram H Unit).Raises (Broken C) := by
  refine .bind (suppressProcessLookup_raises (pollCall_raises _)) fun _ => .bind (pollCall_raises _) fun gone => ?_
  cases gone
  · exact suppressProcessLookup_raises (pollCall_raises _)
  · exact .ret ()

theorem killPane_raises (paneId : String) : (killPane paneId : PollingProgram H Unit).Raises (Broken C) := by
  refine Raises.handle_some (pollCall_raises _) fun e => ?_
  cases e with
  | timeoutExpired m | fileNotFoundError m => exact .inr (.ret ())
  | _ => exact .inl rfl

theorem terminateLaunchHandle_raises (handle : LaunchHandle) :
    (terminateLaunchHandle handle : PollingProgram H Unit).Raises (Broken C) := by
  unfold terminateLaunchHandle
  split
  · split_ifs
    · exact killPane_raises _
    · exact .ret ()
  · exact terminateProcess_raises _ _
  · exact terminateProcess_raises _ _
  · exact .ret ()

end Helpers

section Check

theorem terminateFromEvents_raises (id : String) :
    (terminateFromEvents id : PollingProgram H Unit).Raises (Broken Unreadable) := by
  refine (pollCall_raises (.readEvents id)).bind_after fun before events hread after e hraised => ?_
  rw [answers_perform.mp hread]
  cases hfind : events.reverse.find? isSpawned with
  | none =>
    simp only [hfind] at hraised
    cases hraised.2
  | some event =>
    simp only [hfind] at hraised
    cases hhandle : launchHandleFromEvent event with
    | error e' =>
      exact .inr (.inr (.inr ⟨id, events, event, e', List.mem_append_left _ (List.mem_singleton_self _), hfind, hhandle⟩))
    | ok handle =>
      rw [hhandle] at hraised
      cases handle with
      | none => cases hraised.2
      | some handle => exact Lasting.append _ after e (terminateLaunchHandle_raises handle after e hraised)

theorem terminateSpawnedAgent_raises (id : String) :
    (terminateSpawnedAgent id : PollingProgram H Unit).Raises (Broken Unreadable) := by
  refine .bind (pollCall_raises _) fun current => ?_
  cases current with
  | none => exact terminateFromEvents_raises id
  | some run =>
    refine .bind ?_ fun _ => ?_
    · cases terminationStatus run.val.status with
      | none => exact .ret ()
      | some status => exact updateStatus_raises _ _ _
    · cases launchHandleFromRun run with
      | none => exact terminateFromEvents_raises id
      | some handle => exact terminateLaunchHandle_raises handle

variable (svc : AgentPollingService)

theorem completeRun_raises (id taskId : String) :
    (completeRun svc id taskId : PollingProgram H Unit).Raises (Broken Unreadable) := by
  refine .bind (terminateSpawnedAgent_raises id) fun _ => ?_
  refine .bind (suppressValueError_raises (complete_raises taskId)) fun _ => ?_
  refine .bind (updateStatus_raises _ _ _) fun _ => .bind (pollCall_raises _) fun run => ?_
  exact .bind (finalizeIfSome_raises svc run none) fun _ => appendStamped_raises _ _

theorem failRun_raises (id error : String) :
    (failRun svc id error : PollingProgram H Unit).Raises (Broken Unreadable) := by
  refine .bind (pollCall_raises _) fun run => .bind (terminateSpawnedAgent_raises id) fun _ => ?_
  refine .bind (updateStatus_raises _ _ _) fun _ => .bind (finalizeIfSome_raises svc run _) fun _ => ?_
  refine .bind (appendStamped_raises _ _) fun _ => ?_
  cases run with
  | none => exact .ret ()
  | some run => exact retryTask_raises _

theorem quarantineTimedOut_raises (run : PollRun) (reason : String) :
    (quarantineTimedOut run reason : PollingProgram H Bool).Raises (Broken Unreadable) := by
  unfold quarantineTimedOut
  split_ifs
  swap
  · exact .ret false
  refine .bind (pollCall_raises _) fun now => ?_
  dsimp only
  split_ifs
  · exact .bind (updateStatus_raises _ _ _) fun _ => .bind (appendStamped_raises _ _) fun _ => .ret true
  · exact .ret false

theorem checkMissing_raises (run : PollRun) :
    (checkMissing svc run : PollingProgram H Unit).Raises (Broken Unreadable) := by
  unfold checkMissing
  split_ifs
  · exact .bind (quarantineTimedOut_raises run _) fun _ => .ret ()
  · exact failRun_raises svc _ _

theorem checkReported_raises (run : PollRun) (status error : Option String) :
    (checkReported svc run status error : PollingProgram H Bool).Raises (Broken Unreadable) := by
  unfold checkReported
  split_ifs
  · exact .bind (completeRun_raises svc _ _) fun _ => .ret false
  · exact .bind (failRun_raises svc _ _) fun _ => .ret false
  · exact quarantineTimedOut_raises run _

theorem checkRun_raises (run : PollRun) :
    (checkRun svc run : PollingProgram H _).Raises (Broken Unreadable) := by
  refine (pollCall_raises (.readStatus run.val.id)).bind_after fun before file hread after e hraised => ?_
  rw [answers_perform.mp hread]
  cases file with
  | notObject typeName =>
    exact .inr (.inr (.inl ⟨_, typeName, List.mem_append_left _ (List.mem_singleton_self _)⟩))
  | absent =>
    have hrest : (checkMissing svc run >>= fun _ => pollCall (.getById run.val.id) >>= fun current =>
        (.ret [current] : PollingProgram H _)).Raises (Broken Unreadable) :=
      .bind (checkMissing_raises svc run) fun _ => .bind (pollCall_raises _) fun current => .ret [current]
    exact Lasting.append _ after e (hrest after e hraised)
  | object status error =>
    have hrest : (checkReported svc run status error >>= fun quarantined => pollCall (.getById run.val.id) >>=
        fun current => (.ret (if quarantined || current.isSome then [current] else []) :
          PollingProgram H _)).Raises (Broken Unreadable) :=
      .bind (checkReported_raises svc run status error) fun _ => .bind (pollCall_raises _) fun _ => .ret _
    exact Lasting.append _ after e (hrest after e hraised)

theorem checkEach_raises (active : List PollRun) :
    (checkEach svc active : PollingProgram H _).Raises (Broken Unreadable) := by
  induction active with
  | nil => exact .ret []
  | cons run rest ih => exact .bind (checkRun_raises svc run) fun _ => .bind ih fun _ => .ret _

theorem checkRuns_raises : (checkRuns svc : PollingProgram H _).Raises (Broken Unreadable) :=
  .bind (pollCall_raises _) fun active => checkEach_raises svc active

theorem checkEach_reads {active : List PollRun} {h : Answers H} {updated : List (Option PollRun)}
    (hchecked : (checkEach svc active).Answers h (.ok updated)) :
    ∀ run ∈ active, ∃ file, readStatus run.val.id file ∈ h := by
  induction active generalizing h updated with
  | nil => exact List.forall_mem_nil _
  | cons run rest ih =>
    obtain ⟨e, -, he⟩ | ⟨_, own, others, rfl, hrun, hothers⟩ := answers_bind.mp hchecked
    · cases he
    obtain ⟨e, -, he⟩ | ⟨_, checked, last, rfl, hrest, -⟩ := answers_bind.mp hothers
    · cases he
    refine List.forall_mem_cons.mpr ⟨?_, fun other hother => ?_⟩
    · obtain ⟨e, -, he⟩ | ⟨file, before, after, rfl, hread, -⟩ := answers_bind.mp hrun
      · cases he
      rw [answers_perform.mp hread]
      exact ⟨file, List.mem_append_left _ (List.mem_append_left _ (List.mem_singleton_self _))⟩
    · obtain ⟨file, hfile⟩ := ih hrest other hother
      exact ⟨file, List.mem_append_right _ (List.mem_append_left _ hfile)⟩

end Check

section Spawn

variable (svc : AgentPollingService)

/-- The start of a task raised. -/
def StartFailed (H : Fpel.Hashing) (answers : Answers H) : Prop :=
  ∃ before own after taskId e, answers = before ++ own.map (.lift (boardEmbedding H)) ++ after ∧
    (TaskBoard.start H svc.fpelPort taskId pollAgentOwner none).Follows own (.fail e)

/-- The fresh id of a run is empty, or the id of the launch that was claimed for it is blank. -/
def BlankId (answers : Answers H) : Prop :=
  .ok (.inl .uuid4Hex) "" ∈ answers ∨
    ∃ before own after request attempt launch, answers = before ++ own.map (.lift (launchEmbedding H)) ++ after ∧
      (requestLaunch request).Follows own (.ret attempt) ∧ attempt.launch = some launch ∧
        strip launch.val.launchId = ""

/-- What can break a cycle off besides its calls and a refused update. -/
def Hindered (answers : Answers H) : Prop := StartFailed svc H answers ∨ BlankId answers

theorem BlankId.append {h : Answers H} (hblank : BlankId h) (before : Answers H) : BlankId (before ++ h) := by
  obtain hmem | ⟨first, own, after, request, attempt, launch, rfl, hfollows⟩ := hblank
  · exact .inl (List.mem_append_right before hmem)
  · exact .inr ⟨before ++ first, own, after, request, attempt, launch, by simp, hfollows⟩

instance : Cause (Hindered (H := H) svc) where
  append := by
    rintro before h (⟨first, own, after, taskId, e, rfl, hfollows⟩ | hblank)
    · exact .inl ⟨before ++ first, own, after, taskId, e, by simp, hfollows⟩
    · exact .inr (hblank.append before)

theorem startTask_raises (taskId : String) :
    (startTask svc taskId : PollingProgram H _).Raises (Broken (Hindered svc)) := by
  have hstarted : (tasks (TaskBoard.start H svc.fpelPort taskId pollAgentOwner none) >>=
      fun _ => (return none : PollingProgram H (Option String))).Raises fun h e => ∃ own,
        h = own.map (.lift (boardEmbedding H)) ∧
          (TaskBoard.start H svc.fpelPort taskId pollAgentOwner none).Follows own (.fail e) := by
    intro h e hraised
    obtain ⟨e', hfirst, he⟩ | ⟨_, _, _, -, -, -, he⟩ := answers_bind.mp hraised
    · cases he
      obtain ⟨own, rfl, hown⟩ := answers_lift hfirst
      exact ⟨own, rfl, hown.follows⟩
    · cases he
  refine hstarted.handle ?_
  rintro _ e ⟨own, rfl, hfollows⟩ after e' hraised
  cases e with
  | taskTransitionError message => cases hraised.2
  | _ =>
    obtain ⟨rfl, he⟩ := hraised
    exact .inr (.inr (.inl ⟨[], own, [], taskId, _, by simp, hfollows⟩))

variable {C : Answers H → Prop} [Cause C]

theorem spawnPane_raises (runDir : String) : (spawnPane runDir : PollingProgram H _).Raises (Broken C) := by
  refine .bind (pollCall_raises _) fun inTmux => ?_
  cases inTmux
  · exact .ret none
  refine Raises.handle_some (.bind (pollCall_raises _) fun output => .ret _) fun e => ?_
  cases e with
  | timeoutExpired m | fileNotFoundError m => exact .inr (.ret none)
  | _ => exact .inl rfl

theorem spawnSubprocess_raises (runDir : String) :
    (spawnSubprocess runDir : PollingProgram H _).Raises (Broken C) := by
  refine .bind (Raises.handle_some (.bind (pollCall_raises _) fun pid => .ret (some pid)) fun e => ?_) fun pid => ?_
  · split_ifs
    · exact .inr (.ret none)
    · exact .inl rfl
  cases pid with
  | none => exact .ret none
  | some pid =>
    refine .bind (Raises.handle_some (.bind (pollCall_raises _) fun pgid => .ret (some pgid)) fun e => ?_)
      fun pgid => ?_
    · cases e with
      | processLookupError m =>
        exact .inr (.bind (suppressProcessLookup_raises (pollCall_raises _)) fun _ => .ret none)
      | _ => exact .inl rfl
    · cases pgid with
      | none => exact .ret none
      | some pgid => exact .ret _

theorem spawnCurrent_raises (current : Option PollRun) (taskSubject runDir : String) :
    (spawnCurrent svc current taskSubject runDir : PollingProgram H _).Raises (Broken C) := by
  cases current with
  | none => exact .ret none
  | some run =>
    refine .bind (pollCall_raises _) fun dirExists => ?_
    cases dirExists
    · exact .ret none
    refine .bind (pollCall_raises _) fun _ => .bind (spawnPane_raises runDir) fun handle => ?_
    cases handle with
    | some handle => exact .ret _
    | none =>
      dsimp only
      split_ifs
      · exact spawnSubprocess_raises runDir
      · exact .ret none

theorem recordLaunchMetadata_raises (id : String) (handle : LaunchHandle) (launchId : Option String) :
    (recordLaunchMetadata id handle launchId : PollingProgram H Bool).Raises (Broken C) :=
  .bind (pollCall_raises _) fun _ => pollCall_raises _

theorem hasActiveLaunch_raises (taskId : String) :
    (hasActiveLaunch svc taskId : PollingProgram H Bool).Raises (Broken C) := by
  unfold hasActiveLaunch
  split_ifs
  · exact .bind (launches_raises (relayed_perform _)) fun _ => .ret _
  · exact .ret false

theorem candidates_raises (ids : List String) (approved : List TaskBoard.OrchestrationTask) :
    (candidates svc ids approved : PollingProgram H _).Raises (Broken C) := by
  induction approved with
  | nil => exact .ret []
  | cons task rest ih =>
    unfold candidates
    split_ifs
    · exact ih
    · exact .bind (hasActiveLaunch_raises svc _) fun _ => .bind ih fun _ => .ret _

theorem reconcile_raises : (reconcile svc : PollingProgram H Unit).Raises (Broken C) := by
  unfold reconcile
  split_ifs
  · exact .bind (launches_raises reconcileExpiredLeases_raises) fun _ => .ret ()
  · exact .ret ()

end Spawn

end ForkAgent.Polling

import ForkAgent.Launch.Served
import ForkAgent.Polling.System

/-!
# A world that answers

The tables answer by themselves; what the surroundings answer is fixed by an `Oracle`. Running a
program against it is a computation, and every such run is a run of the semantics.
-/

namespace ForkAgent.Polling

open Effects Storage Launch

/-- What the surroundings answer: the time, the fresh ids, a status file for each run, and what
tmux and the processes say. -/
structure Oracle where
  now : Nat := 0
  runId : String := "run"
  launchId : String := "launch"
  statusFile : String → StatusFile := fun _ => .absent
  inTmux : Bool := true
  pane : String := "%1"

variable (o : Oracle)

def answerOf {β S : Type} (result : Except Exn S) (value : β) (s : S) : Except Exn β × S :=
  match result with
  | .ok s' => (.ok value, s')
  | .error e => (.error e, s)

def respondPoll : (c : PollCall) → PollStore → Except Exn c.Value × PollStore
  | .save run, s => (.ok (), s.save run)
  | .getById id, s => ((s.pollRuns.find? fun r => r.id == id).mapM (construct _), s)
  | .listActive, s => ((orderDesc PollStore.startedAt s.activeRows).mapM (construct _), s)
  | .listLaunchBlocking, s =>
    ((orderDesc PollStore.startedAt s.launchBlockingRows).mapM (construct _), s)
  | .updateRow id status now errorMessage, s =>
    answerOf (s.updateRow id status now errorMessage) () s
  | .recordLaunchMetadata id handle now launchId, s =>
    (.ok (s.pollRuns.any fun r => r.id == id), s.recordLaunchMetadata id handle now launchId)
  | .timeMs, s => (.ok o.now, s)
  | .uuid4Hex, s => (.ok o.runId, s)
  | .createRunDir id, s => (.ok ("/runs/" ++ id), s)
  | .readStatus id, s => (.ok (o.statusFile id), s)
  | .readEvents _, s => (.ok [], s)
  | .pathExists _, s => (.ok true, s)
  | .inTmux, s => (.ok o.inTmux, s)
  | .splitWindow _, s => (.ok o.pane, s)
  | .popen .., s => (.ok (1 : Nat), s)
  | .getpgid _, s => (.ok (1 : Nat), s)
  | .awaitExit .., s => (.ok true, s)
  | .writeStatus .., s | .appendEvent .., s | .writeText .., s | .killPane _, s | .terminate .., s |
    .kill .., s => (.ok (), s)

def respondLaunch : (c : LaunchCall) → LaunchStore → Except Exn c.Value × LaunchStore :=
  Launch.respondLaunch ⟨o.now, o.launchId⟩

def respondTask : (c : TaskBoard.TaskCall) → TaskBoard.TaskStore →
    Except Exn c.Value × TaskBoard.TaskStore
  | .save task, s => (.ok (), s.save task)
  | .casSave task expected, s =>
    (.ok (s.orchestrationTasks.any (TaskBoard.TaskStore.guarded task expected)),
      s.casSave task expected)
  | .getById taskId, s => (.ok (s.orchestrationTasks.find? fun t => t.val.id == taskId), s)
  | .getByIds taskIds, s => (.ok (s.orchestrationTasks.filter fun t => t.val.id ∈ taskIds), s)
  | .listByStatus status, s =>
    (.ok (orderDesc (·.val.createdAt) (s.orchestrationTasks.filter fun t => t.val.status == status)), s)
  | .listBlocked, s =>
    (.ok (orderDesc (·.val.createdAt) (s.orchestrationTasks.filter fun t => t.val.blockedBy ≠ [])), s)
  | .uuid4Hex, s => (.ok "task", s)
  | .nowMs, s => (.ok (o.now : Int), s)

/-- The gate asks no further when no proposal is active. -/
def respondFpel (H : Fpel.Hashing) : (c : Fpel.FpelCall H) → Fpel.FpelStore →
    Option (Except Exn c.Value × Fpel.FpelStore)
  | .getActiveFrozenProposal targetId, s =>
    some ((orderDesc (·.createdAt) (s.activeRows targetId)).head?.mapM fun row =>
      construct _ row.toFrozenProposalFields, s)
  | _, _ => none

def respond (H : Fpel.Hashing) : (c : (worldSignature H).Call) → World →
    Option (Except Exn ((worldSignature H).Value c) × World)
  | .inl c, w => let answer := respondPoll o c w.1; some (answer.1, answer.2, w.2)
  | .inr (.inl c), w =>
    let answer := respondLaunch o c w.2.1; some (answer.1, w.1, answer.2, w.2.2)
  | .inr (.inr (.inl c)), w =>
    let answer := respondTask o c w.2.2.1; some (answer.1, w.1, w.2.1, answer.2, w.2.2.2)
  | .inr (.inr (.inr c)), w =>
    (respondFpel H c w.2.2.2).map fun answer => (answer.1, w.1, w.2.1, w.2.2.1, answer.2)

theorem respondPoll_serve (c : PollCall) (s : PollStore) :
    PollStore.serve ⟨c, (respondPoll o c s).1⟩ s (respondPoll o c s).2 := by
  cases c with
  | listActive => exact ⟨rfl, _, orderDesc_ordered _ _, rfl⟩
  | listLaunchBlocking => exact ⟨rfl, _, orderDesc_ordered _ _, rfl⟩
  | updateRow id status now errorMessage =>
    simp only [PollStore.serve, respondPoll, answerOf, Transaction]
    cases s.updateRow id status now errorMessage <;> exact ⟨rfl, rfl⟩
  | timeMs => exact ⟨rfl, _, rfl⟩
  | uuid4Hex => exact ⟨rfl, _, rfl⟩
  | save run => exact ⟨rfl, rfl⟩
  | getById id => exact ⟨rfl, rfl⟩
  | recordLaunchMetadata id handle now launchId => exact ⟨rfl, rfl⟩
  | _ => exact rfl

theorem respondTask_serve (c : TaskBoard.TaskCall) (s : TaskBoard.TaskStore) :
    TaskBoard.TaskStore.serve ⟨c, (respondTask o c s).1⟩ s (respondTask o c s).2 := by
  cases c with
  | save task => exact ⟨rfl, rfl⟩
  | casSave task expected => exact ⟨rfl, rfl⟩
  | getById taskId => exact ⟨rfl, rfl⟩
  | getByIds taskIds => exact ⟨rfl, _, rfl, .refl _⟩
  | listByStatus status => exact ⟨rfl, _, rfl, orderDesc_ordered _ _⟩
  | listBlocked => exact ⟨rfl, _, rfl, orderDesc_ordered _ _⟩
  | uuid4Hex => exact ⟨rfl, _, rfl⟩
  | nowMs => exact ⟨rfl, _, rfl⟩

theorem respondFpel_serve {H : Fpel.Hashing} {c : Fpel.FpelCall H} {s : Fpel.FpelStore}
    {answer : Except Exn c.Value × Fpel.FpelStore} (h : respondFpel H c s = some answer) :
    Fpel.FpelStore.serve H ⟨c, answer.1⟩ s answer.2 := by
  cases c with
  | getActiveFrozenProposal targetId =>
    cases h
    exact ⟨rfl, _, head?_latest (orderDesc_ordered _ _), rfl⟩
  | _ => cases h

variable {o} {H : Fpel.Hashing}

theorem respond_serve (c : (worldSignature H).Call) (w : World)
    (r : Except Exn ((worldSignature H).Value c)) (w' : World)
    (h : respond o H c w = some (r, w')) : serve H ⟨c, r⟩ w w' := by
  obtain c | c | c | c := c
  · cases h
    exact ⟨respondPoll_serve o c w.1, rfl⟩
  · cases h
    exact ⟨⟨respondLaunch_serve _ c w.2.1, rfl⟩, rfl⟩
  · cases h
    exact ⟨⟨⟨respondTask_serve o c w.2.2.1, rfl⟩, rfl⟩, rfl⟩
  · obtain ⟨answer, hanswer, heq⟩ := Option.map_eq_some_iff.mp h
    cases heq
    exact ⟨⟨⟨respondFpel_serve hanswer, rfl⟩, rfl⟩, rfl⟩

theorem step_of_serve {a : Answered (worldSignature H) Exn} {w w' : World} (h : serve H a w w') :
    step H a w w' := by
  obtain ⟨c | c | c | c, r⟩ := a
  · exact ⟨.inl h.1, h.2⟩
  · exact ⟨⟨.inl h.1.1, h.1.2⟩, h.2⟩
  · exact ⟨⟨⟨.inl h.1.1.1, h.1.1.2⟩, h.1.2⟩, h.2⟩
  · exact ⟨⟨⟨.inl h.1.1.1, h.1.1.2⟩, h.1.2⟩, h.2⟩

variable {svc : AgentPollingService} {w w' : World} {op : PollingOp}
variable {out : Except Exn op.Result} {answers : List (Answered (worldSignature H) Exn)}

theorem reaches_of_exec (h : (op.program H svc).exec (respond o H) w = some (out, answers, w')) :
    (op.program H svc).Reaches (pollingSystem H svc).disturbed w answers (.ofExcept out) w' :=
  (Program.exec_reaches (fun c s r s' h => step_of_serve (respond_serve c s r s' h)) h).disturbed

theorem runs_of_exec (h : (op.program H svc).exec (respond o H) w = some (out, answers, w')) :
    (op.program H svc).Runs (serve H) w out w' :=
  (Program.exec_reaches respond_serve h).runs

theorem serial_of_exec (hw : (pollingSystem H svc).Serial w)
    (h : (op.program H svc).exec (respond o H) w = some (out, answers, w')) :
    (pollingSystem H svc).Serial w' := .operation hw op (reaches_of_exec h)

theorem serial_saveTask (hw : (pollingSystem H svc).Serial w) (task : TaskBoard.OrchestrationTask) :
    (pollingSystem H svc).Serial (w.1, w.2.1, w.2.2.1.save task, w.2.2.2) :=
  .outside hw ⟨rfl, .inl ⟨⟨.inr (.inl (.save task)), .ok ()⟩, ⟨⟨.inl ⟨rfl, rfl⟩, rfl⟩, rfl⟩⟩⟩

section Sample

/-- No text is JSON, and a text is its own digest. -/
def plainHashing : Fpel.Hashing where
  loads := fun _ => .error (.jsonDecodeError "Expecting value")
  dumps := fun _ => .ok ""
  sha256Hex := id

def plainService : AgentPollingService where
  fpelPort := false

def approvedTask : TaskBoard.OrchestrationTask :=
  ⟨{ id := "q", subject := "subject", status := .approved }, by decide⟩

/-- One approved task, and nothing else. -/
def approvedWorld : World := ({}, {}, { orchestrationTasks := [approvedTask] }, {})

theorem serial_approvedWorld (H : Fpel.Hashing) (svc : AgentPollingService) :
    (pollingSystem H svc).Serial approvedWorld :=
  serial_saveTask (.initial rfl) approvedTask

theorem pollOnce_spawns : ∃ out answers w,
    (PollingOp.pollOnce.program plainHashing plainService).exec (respond {} plainHashing)
      approvedWorld = some (out, answers, w) ∧ w.1.pollRuns.map (·.status) = [.running] :=
  ⟨_, _, _, rfl, rfl⟩

end Sample

end ForkAgent.Polling

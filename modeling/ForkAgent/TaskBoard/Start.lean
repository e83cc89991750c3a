import ForkAgent.Fpel.Gate
import ForkAgent.TaskBoard.Service

/-!
# Starting a task

The task board and the FPEL service under any number of callers. A start reads the task, then
three FPEL tables, then writes the row it read; the row it leaves has the content it read first,
whatever was written in between.
-/

namespace ForkAgent.TaskBoard

open Effects Storage Fpel Fpel.FpelStore

inductive BoardOp where
  | create (subject : String) (description owner : Option String)
  | update (taskId : String) (subject description owner : Option (Option String))
  | submitPlan (taskId planText : String) (requestedBy : Option String)
  | approve (taskId approvedBy : String) (requestedBy : Option String)
  | reject (taskId : String) (requestedBy : Option String)
  | start (taskId owner : String) (requestedBy : Option String)
  | complete (taskId : String) (requestedBy : Option String)
  | retry (taskId : String)
  | delete (taskId : String) (requestedBy : Option String)
  | fpel (op : FpelOp)

namespace BoardOp

variable (H : Hashing)

def Result : BoardOp → Type
  | fpel op => op.Result H
  | _ => OrchestrationTask

/-- The operations of a service with an FPEL port, and those of the FPEL service. -/
def program : (o : BoardOp) → BoardProgram H (o.Result H)
  | create subject description owner => TaskBoard.create H subject description owner
  | update taskId subject description owner => TaskBoard.update H taskId subject description owner
  | submitPlan taskId planText requestedBy => TaskBoard.submitPlan H taskId planText requestedBy
  | approve taskId approvedBy requestedBy => TaskBoard.approve H taskId approvedBy requestedBy
  | reject taskId requestedBy => TaskBoard.reject H taskId requestedBy
  | start taskId owner requestedBy => TaskBoard.start H true taskId owner requestedBy
  | complete taskId requestedBy => TaskBoard.complete H taskId requestedBy
  | retry taskId => TaskBoard.retry H taskId
  | delete taskId requestedBy => TaskBoard.delete H taskId requestedBy
  | fpel op => (op.program H).lift (.inr _ _)

end BoardOp

def boardSystem (H : Hashing) : System (boardSignature H) Exn (TaskStore × FpelStore) where
  Op := BoardOp
  Result := BoardOp.Result H
  program := BoardOp.program H
  step := Semantics.sum TaskStore.step (FpelStore.step H)
  outside s s' := s'.1 = s.1 ∧ ∃ report, s.2.insertReport report = .ok s'.2
  initial s := s = ({}, {})

variable {H : Hashing}

/-- The answers behind an allowed gate. -/
def gateReads (targetId : String) (frozen : FrozenProposal H) (verdict : SealedVerdict) :
    List (Answered (fpelSignature H) Exn) :=
  [.ok (.getActiveFrozenProposal targetId) (some frozen),
    .ok (.isFailed frozen.val.frozenProposalId) false,
    .ok (.getSealedVerdict frozen.val.frozenProposalId) (some verdict)]

theorem checkSealed_ensures (targetId hash : String) :
    (checkSealed H targetId (some hash)).Ensures (fun _ _ => True)
      (fun h r => ∀ d, r = .ok d → d.allowed = true → ∃ frozen verdict,
        h = gateReads targetId frozen verdict ∧ verdict.val.contentHash = hash) [] := by
  refine (Program.ensures_perform_bind _ _).mpr ⟨trivial, fun frozen => ?_, fun e d h => nomatch h⟩
  obtain _ | frozen := frozen
  · rintro d hd hallowed
    cases hd
    cases hallowed
  refine (Program.ensures_perform_bind _ _).mpr ⟨trivial, fun failed => ?_, fun e d h => nomatch h⟩
  obtain _ | _ := failed
  swap
  · rintro d hd hallowed
    cases hd
    cases hallowed
  refine (Program.ensures_perform_bind _ _).mpr ⟨trivial, fun verdict => ?_, fun e d h => nomatch h⟩
  obtain _ | verdict := verdict
  · refine (Program.ensures_perform_bind _ _).mpr ⟨trivial, fun c => ?_, fun e d h => nomatch h⟩
    rintro d hd hallowed
    cases hd
    cases hallowed
  change (if _ then _ else _ : FpelProgram H _).Ensures _ _ _
  split_ifs with hdrift
  · rintro d hd hallowed
    cases hd
    cases hallowed
  · intro d hd hallowed
    refine ⟨frozen, verdict, rfl, ?_⟩
    simpa [detectScopeChange] using hdrift

theorem requireTask_ensures {Φ : List (Answered (boardSignature H) Exn) → (boardSignature H).Call → Prop}
    (taskId : String) (h : List (Answered (boardSignature H) Exn))
    (hΦ : Φ h (.inl (.getById taskId))) :
    (requireTask H taskId).Ensures Φ (fun h' r => ∀ task, r = .ok task →
      h' = h ++ [.ok (.inl (.getById taskId)) (some task)]) h := by
  refine (Program.ensures_perform_bind _ _).mpr ⟨hΦ, fun read => ?_, fun e task h => nomatch h⟩
  obtain _ | read := read
  · exact fun task h => nomatch h
  · rintro task htask
    cases htask
    rfl

/-- What a start has read when it writes a row. -/
def startGuard (taskId : String) (h : List (Answered (boardSignature H) Exn)) :
    (boardSignature H).Call → Prop
  | .inl (.casSave task _) =>
    task.val.status = .inProgress ∧ ∃ (read : OrchestrationTask) (hash : String)
      (frozen : FrozenProposal H) (verdict : SealedVerdict),
      List.Sublist (.ok (.inl (.getById taskId)) (some read) ::
        (gateReads taskId frozen verdict).map (.lift (.inr _ _))) h ∧
      task.val.id = read.val.id ∧ computeTaskHash H task = .ok hash ∧
      verdict.val.contentHash = hash
  | _ => True

theorem requireSealed_ensures (task : OrchestrationTask) (taskId : String)
    (h : List (Answered (boardSignature H) Exn)) :
    (requireSealed H true task taskId).Ensures (startGuard taskId)
      (fun h' r => r = .ok () → ∃ hash frozen verdict,
        h' = h ++ (gateReads taskId frozen verdict).map (.lift (.inr _ _)) ∧
        computeTaskHash H task = .ok hash ∧ verdict.val.contentHash = hash) h := by
  refine (Program.ensures_ofExcept_bind _ _).mpr ⟨fun hash hhash => ?_, fun e he h => nomatch h⟩
  have hgate : ((checkSealed H taskId (some hash)).lift (.inr taskSignature _)).Ensures
      (startGuard taskId) (fun h' r => ∀ d, r = .ok d → d.allowed = true → ∃ frozen verdict,
        h' = h ++ (gateReads taskId frozen verdict).map (.lift (.inr _ _)) ∧
        verdict.val.contentHash = hash) (h ++ List.map (.lift (.inr _ _)) []) := by
    refine ((checkSealed_ensures taskId hash).mono (fun own c _ => trivial) ?_).lift (.inr _ _)
    intro own r hr d hd hallowed
    obtain ⟨frozen, verdict, rfl, hverdict⟩ := hr d hd hallowed
    exact ⟨frozen, verdict, rfl, hverdict⟩
  rw [List.map_nil, List.append_nil] at hgate
  refine hgate.bind (fun h' d hd => ?_) fun h' e he h => nomatch h
  split_ifs with hallowed
  · intro _
    obtain ⟨frozen, verdict, hreads, hverdict⟩ := hd d rfl hallowed
    exact ⟨hash, frozen, verdict, hreads, hhash, hverdict⟩
  · exact fun h => nomatch h

/-- A start writes under its guard, and what it returns it has written. -/
theorem start_guarded (taskId owner : String) (requestedBy : Option String) :
    (TaskBoard.start H true taskId owner requestedBy).Ensures (startGuard taskId)
      (fun h r => ∀ task, r = .ok task → ∃ expected, .ok (.inl (.casSave task expected)) true ∈ h)
      [] := by
  refine (requireTask_ensures taskId [] trivial).bind (fun h read hread => ?_)
    fun _ _ _ _ h => nomatch h
  obtain rfl := hread read rfl
  split_ifs
  · exact fun _ h => nomatch h
  refine (Program.ensures_ofExcept_bind _ _).mpr ⟨fun _ _ => ?_, fun _ _ _ h => nomatch h⟩
  refine (requireSealed_ensures read taskId _).bind (fun h _ hgate => ?_) fun _ _ _ _ h => nomatch h
  obtain ⟨hash, frozen, verdict, rfl, hhash, hverdict⟩ := hgate rfl
  refine (Program.ensures_perform_bind _ _).mpr ⟨trivial, fun now => ?_, fun _ _ h => nomatch h⟩
  refine (Program.ensures_ofExcept_bind _ _).mpr ⟨fun updated hupdated => ?_,
    fun _ _ _ h => nomatch h⟩
  have hval := construct_eq_ok.mp hupdated
  refine (Program.ensures_perform_bind _ _).mpr ⟨?_, fun stored => ?_, fun _ _ h => nomatch h⟩
  · refine ⟨by rw [hval], read, hash, frozen, verdict, ?_, by rw [hval], ?_, hverdict⟩
    · rw [List.nil_append]
      exact List.sublist_append_left _ _
    · rw [← hhash, computeTaskHash, hval, computeTaskHash]
  · obtain _ | _ := stored
    · exact fun _ h => nomatch h
    · rintro task htask
      cases htask
      exact ⟨read.val.status, List.mem_append_right _ (List.mem_singleton_self _)⟩

variable {tr : List (boardSystem H).Event} {cfg : (boardSystem H).Config}

theorem board_grows (run : (boardSystem H).Run tr cfg) :
    tr.Pairwise (fun d e => Grows d.after.2 e.before.2) ∧
      ∀ e ∈ tr, Grows e.after.2 cfg.store.2 := by
  refine run.grows (R := fun s s' => Grows s.2 s'.2) (fun s => .refl s.2)
    (fun _ _ _ h h' => h.trans h') ?_ ?_
  · intro e he
    have hstep := run.step_of_mem he
    obtain ⟨i, o, ⟨c | c, r⟩, s, s'⟩ := e
    · rw [hstep.2]
      exact .refl _
    · exact .step hstep.1
  · rintro s s' ⟨-, report, hreport⟩
    exact .insertReport hreport

theorem board_indexed (run : (boardSystem H).Run tr cfg) : cfg.store.2.Indexed := by
  refine run.invariant (I := fun s => s.2.Indexed) ?_ ?_ ?_
  · rintro s rfl
    exact ⟨.nil _, .nil _, .nil _⟩
  · intro e he hs
    have hstep := run.step_of_mem he
    obtain ⟨i, o, ⟨c | c, r⟩, s, s'⟩ := e
    · rw [hstep.2]
      exact hs
    · exact hs.step hstep.1
  · rintro s s' hs ⟨-, report, hreport⟩
    exact hs.insertReport hreport

theorem getById_ok {taskId : String} {task : OrchestrationTask} {s s' : TaskStore}
    (h : TaskStore.step (.ok (.getById taskId) (some task)) s s') :
    s' = s ∧ task ∈ s.orchestrationTasks ∧ task.val.id = taskId := by
  rcases h with ⟨rfl, hanswer⟩ | ⟨-, m, hm⟩
  · have hfind := (Except.ok.inj hanswer).symm
    exact ⟨rfl, List.mem_of_find?_eq_some hfind, by simpa using List.find?_some hfind⟩
  · cases hm

theorem casSave_ok {task : OrchestrationTask} {expected : OrchestrationTaskStatus} {b : Bool}
    {s s' : TaskStore} (h : TaskStore.step (.ok (.casSave task expected) b) s s') :
    b = s.orchestrationTasks.any (TaskStore.guarded task expected) ∧
      s' = s.casSave task expected := by
  rcases h with ⟨hanswer, rfl⟩ | ⟨-, m, hm⟩
  · exact ⟨Except.ok.inj hanswer, rfl⟩
  · cases hm

/-- No task starts with content other than what was sealed: the row that a start writes hashes to
the verdict of a proposal of the task that was its one active proposal, and not a failed one, at
a moment after the start had read the task. -/
theorem start_writes_sealed_content (run : (boardSystem H).Run tr cfg)
    {e : (boardSystem H).Event} (he : e ∈ tr) {taskId owner : String} {requestedBy : Option String}
    (hop : e.op = .start taskId owner requestedBy) {task : OrchestrationTask}
    {expected : OrchestrationTaskStatus}
    (hcas : e.answered = .ok (.inl (.casSave task expected)) true) :
    task.val.status = .inProgress ∧ task.val.id = taskId ∧ task ∈ e.after.1.orchestrationTasks ∧
      ∃ (taskRead activeRead : (boardSystem H).Event) (read : OrchestrationTask) (hash : String)
        (row : ProposalRow) (v : SealedVerdictFields),
        [taskRead, activeRead, e].Sublist tr ∧ taskRead.caller = e.caller ∧
        activeRead.caller = e.caller ∧
        taskRead.answered = .ok (.inl (.getById taskId)) (some read) ∧
        activeRead.before.2.activeRows taskId = [row] ∧
        activeRead.before.2.failed row.frozenProposalId = false ∧
        v ∈ e.before.2.sealedVerdicts ∧ v.frozenProposalId = row.frozenProposalId ∧
        v.contentHash = hash ∧ computeTaskHash H task = .ok hash := by
  obtain ⟨pre, post, htr⟩ := List.append_of_mem he
  have hguard : startGuard taskId (System.Run.history e.caller pre) e.answered.call := by
    obtain ⟨i, o, a, before, after⟩ := e
    cases hop
    exact run.ensures_event htr (start_guarded taskId owner requestedBy)
  rw [hcas] at hguard
  obtain ⟨hstatus, read, hash, frozen, verdict, hread, hid, hhash, hverdict⟩ := hguard
  obtain ⟨es, hes, hcaller, hanswers⟩ := System.Run.events_of_history hread
  obtain ⟨t, es, rfl, ht, hanswers⟩ := List.map_eq_cons_iff.mp hanswers
  obtain ⟨a, es, rfl, ha, hanswers⟩ := List.map_eq_cons_iff.mp hanswers
  obtain ⟨f, es, rfl, hf, hanswers⟩ := List.map_eq_cons_iff.mp hanswers
  obtain ⟨v, es, rfl, hv, hanswers⟩ := List.map_eq_cons_iff.mp hanswers
  obtain rfl := List.map_eq_nil_iff.mp hanswers
  have horder : [t, a, f, v, e].Sublist tr := by
    rw [htr]
    exact hes.append (List.singleton_sublist.mpr List.mem_cons_self)
  have hgrow := (board_grows run).1.sublist horder
  simp only [List.pairwise_cons, List.mem_cons, List.not_mem_nil] at hgrow
  -- the task that was read and the row that is written have one id
  have htstep := run.step_of_mem (horder.subset (by simp : t ∈ _))
  rw [ht] at htstep
  obtain ⟨-, -, hreadid⟩ := getById_ok htstep.1
  have hestep := run.step_of_mem he
  rw [hcas] at hestep
  obtain ⟨hany, hafter⟩ := casSave_ok hestep.1
  -- the proposal was active when it was read and still unfailed a moment later
  have hamem : a ∈ tr := horder.subset (by simp)
  have hastep := run.step_of_mem hamem
  rw [ha] at hastep
  obtain ⟨haafter, row, hrow, hfields⟩ := getActiveFrozenProposal_ok hastep.1
  have haindexed : a.before.2.Indexed := by
    obtain ⟨pre', ss, hrun⟩ := run.reaches_before hamem
    exact board_indexed hrun
  have hfstep := run.step_of_mem (horder.subset (by simp : f ∈ _))
  rw [hf] at hfstep
  obtain ⟨-, hunfailed⟩ := isFailed_ok hfstep.1
  have hvstep := run.step_of_mem (horder.subset (by simp : v ∈ _))
  rw [hv] at hvstep
  obtain ⟨hvafter, hvmem, hvid⟩ := getSealedVerdict_ok hvstep.1
  have hfrozenid : frozen.val.frozenProposalId = row.frozenProposalId := by rw [← hfields]
  refine ⟨hstatus, by rw [hid, hreadid], ?_, t, a, read, hash, row, verdict.val, ?_,
    hcaller t (by simp), hcaller a (by simp), ht, haindexed.activeRows_eq hrow, ?_, ?_, ?_, hverdict,
    hhash⟩
  · obtain ⟨old, hold, hguarded⟩ := List.any_eq_true.mp hany.symm
    rw [hafter]
    exact mem_updateWhere.mpr (.inl ⟨old, hold, hguarded, rfl⟩)
  · refine List.Sublist.trans ?_ horder
    exact .cons_cons _ (.cons_cons _ (.cons _ (.cons _ (.cons_cons _ .slnil))))
  · by_contra hfailed
    have := (hgrow.2.1 f (by simp)).failures row.frozenProposalId
    rw [haafter] at this
    have hlater := this (by simpa using hfailed)
    rw [← hfrozenid, ← hunfailed] at hlater
    cases hlater
  · have := (hgrow.2.2.2.1 e (by simp)).verdicts verdict.val
    rw [hvafter] at this
    exact this hvmem
  · rw [hvid, hfrozenid]

/-- The task of a planned run, as it stands in each status. -/
private def planTask (status : OrchestrationTaskStatus) (planText approvedBy owner : Option String)
    (approvedAt : Option Int) : OrchestrationTask :=
  ⟨{ id := "task-1", subject := "subject", status, owner, planText, approvedBy, approvedAt },
    by simp [OrchestrationTaskFields.postInit, require, bind, Except.bind]⟩

private def boardOf (task : OrchestrationTask) : TaskStore := ⟨[task]⟩

private def pendingTask := planTask .pending none none none none
private def planningTask := planTask .planning (some "plan") none none none
private def approvedTask := planTask .approved (some "plan") (some "lead") none (some 0)
private def startedTask := planTask .inProgress (some "plan") (some "lead") (some "agent") (some 0)

private theorem create_plan :
    (create planHashing "subject" none none).Runs (boardSystem planHashing).step ({}, {})
      (.ok pendingTask) (boardOf pendingTask, {}) := by
  refine .perform_bind (v := (0 : Int)) (t := ({}, {})) ⟨.inl ⟨rfl, _, rfl⟩, rfl⟩ ?_
  refine .perform_bind (v := "task-1") (t := ({}, {})) ⟨.inl ⟨rfl, _, rfl⟩, rfl⟩ ?_
  refine .ofExcept_bind (b := pendingTask) (construct_eq_ok.mpr rfl) ?_
  exact .perform_bind (t := (boardOf pendingTask, {})) ⟨.inl ⟨rfl, rfl⟩, rfl⟩ ⟨rfl, rfl⟩

private theorem requireTask_plan {task : OrchestrationTask} (hid : task.val.id = "task-1")
    (s : FpelStore) :
    (requireTask planHashing "task-1").Runs (boardSystem planHashing).step (boardOf task, s)
      (.ok task) (boardOf task, s) := by
  refine .perform_bind (v := some task) (t := (boardOf task, s)) ⟨.inl ⟨rfl, ?_⟩, rfl⟩ ⟨rfl, rfl⟩
  simp [boardOf, hid]
  rfl

private theorem storeTask_plan {old new : OrchestrationTask} (hid : new.val.id = old.val.id)
    (s : FpelStore) (conflict : String) :
    (storeTask planHashing new old.val.status conflict).Runs (boardSystem planHashing).step
      (boardOf old, s) (.ok new) (boardOf new, s) := by
  refine .perform_bind (v := true) (t := (boardOf new, s)) ⟨.inl ⟨?_, ?_⟩, rfl⟩ ⟨rfl, rfl⟩
  · simp [boardOf, TaskStore.guarded, hid]
    rfl
  · simp [boardOf, TaskStore.casSave, updateWhere, TaskStore.guarded, hid]

private theorem submit_plan :
    (submitPlan planHashing "task-1" "plan" none).Runs (boardSystem planHashing).step
      (boardOf pendingTask, {}) (.ok planningTask) (boardOf planningTask, {}) := by
  refine .bind (requireTask_plan rfl {}) (.ofExcept_bind (b := ()) rfl ?_)
  refine .perform_bind (v := (0 : Int)) (t := (boardOf pendingTask, {})) ⟨.inl ⟨rfl, _, rfl⟩, rfl⟩ ?_
  refine .ofExcept_bind (b := planningTask) (construct_eq_ok.mpr rfl) ?_
  exact storeTask_plan (show planningTask.val.id = pendingTask.val.id from rfl) {} _

private theorem approve_plan :
    (approve planHashing "task-1" "lead" none).Runs (boardSystem planHashing).step
      (boardOf planningTask, {}) (.ok approvedTask) (boardOf approvedTask, {}) := by
  refine .bind (requireTask_plan rfl {}) (.ofExcept_bind (b := ()) rfl ?_)
  refine .perform_bind (v := (0 : Int)) (t := (boardOf planningTask, {})) ⟨.inl ⟨rfl, _, rfl⟩, rfl⟩ ?_
  refine .ofExcept_bind (b := approvedTask) (construct_eq_ok.mpr rfl) ?_
  exact storeTask_plan (show approvedTask.val.id = planningTask.val.id from rfl) {} _

private theorem start_plan :
    (start planHashing true "task-1" "agent" none).Runs (boardSystem planHashing).step
      (boardOf approvedTask, planStore) (.ok startedTask) (boardOf startedTask, planStore) := by
  refine .bind (requireTask_plan rfl planStore) (.ofExcept_bind (b := ()) rfl ?_)
  have hhash : computeTaskHash planHashing approvedTask = .ok (planHashing.sha256Hex "plan") := rfl
  refine .bind (b := ()) (t := (boardOf approvedTask, planStore)) ?_ ?_
  · exact .ofExcept_bind hhash (.bind check_plan.lift_inr ⟨rfl, rfl⟩)
  refine .perform_bind (v := (0 : Int)) (t := (boardOf approvedTask, planStore))
    ⟨.inl ⟨rfl, _, rfl⟩, rfl⟩ ?_
  refine .ofExcept_bind (b := startedTask) (construct_eq_ok.mpr rfl) ?_
  exact storeTask_plan (show startedTask.val.id = approvedTask.val.id from rfl) planStore _

theorem start_writes_sealed_content_plan :
    ∃ (tr : List (boardSystem planHashing).Event) (cfg : (boardSystem planHashing).Config)
      (e : (boardSystem planHashing).Event) (task : OrchestrationTask) (row : ProposalRow)
      (v : SealedVerdictFields) (hash : String),
      (boardSystem planHashing).Run tr cfg ∧ e ∈ tr ∧ task ∈ e.after.1.orchestrationTasks ∧
        task.val.status = .inProgress ∧ v ∈ e.before.2.sealedVerdicts ∧
        v.frozenProposalId = row.frozenProposalId ∧ v.contentHash = hash ∧
        computeTaskHash planHashing task = .ok hash := by
  have hinitial : (boardSystem planHashing).Run [] ⟨({}, {}), fun _ => none⟩ := .initial rfl
  obtain ⟨tr₁, h₁⟩ := hinitial.perform (i := 0) (o := .create "subject" none none) rfl create_plan
  obtain ⟨tr₂, h₂⟩ := h₁.perform (i := 1) (o := .submitPlan "task-1" "plan" none) rfl submit_plan
  obtain ⟨tr₃, h₃⟩ := h₂.perform (i := 2) (o := .approve "task-1" "lead" none) rfl approve_plan
  obtain ⟨tr₄, h₄⟩ := h₃.perform (i := 3)
    (o := .fpel (.snapshotLegacyTask "task-1" (some "plan") "subject" none)) rfl
    snapshot_plan.lift_inr
  obtain ⟨tr₅, h₅⟩ := h₄.perform (i := 4) (o := .start "task-1" "agent" none) rfl start_plan
  have hstart := start_guarded (H := planHashing) "task-1" "agent" none
  obtain ⟨expected, hwritten⟩ := h₅.ensures_outcome (o := .start "task-1" "agent" none)
    (Function.update_self ..) hstart startedTask rfl
  obtain ⟨e, he, hcas⟩ := List.mem_map.mp hwritten
  obtain ⟨hmem, hcaller⟩ := System.Run.mem_own.mp he
  obtain ⟨p, hp⟩ := h₅.session_of_mem hmem
  have hop : e.op = .start "task-1" "agent" none := by
    rw [hcaller] at hp
    simp only [Function.update_self, Option.some.injEq] at hp
    exact (congrArg (·.op) hp).symm
  obtain ⟨hstatus, -, hrow, -, -, -, hash, row, v, -, -, -, -, -, -, hv, hid, hhash, htask⟩ :=
    start_writes_sealed_content h₅ hmem hop hcas
  exact ⟨_, _, e, startedTask, row, v, hash, h₅, hmem, hrow, hstatus, hv, hid, hhash, htask⟩

end ForkAgent.TaskBoard

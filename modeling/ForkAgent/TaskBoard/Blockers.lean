import ForkAgent.TaskBoard.Served

/-!
# Blockers

Two notions of a blocked task. `resolve_blockers` asks the table about every blocker and takes one
that is completed, deleted or gone as resolved; `start` only asks whether the list of blockers is
empty. Here both run alone, on a table that answers and under a clock past the epoch.
-/

namespace ForkAgent.TaskBoard

open Effects Storage Fpel

/-- A table that answers, under a clock that is past the epoch. -/
def TaskStore.clocked : Semantics taskSignature Exn TaskStore := fun a s s' =>
  TaskStore.serve a s s' ∧ ∀ now : Int, a = .ok .nowMs now → 0 ≤ now

def clockedBoard (H : Hashing) : Semantics (boardSignature H) Exn (TaskStore × FpelStore) :=
  Semantics.sum TaskStore.clocked (FpelStore.step H)

/-- A blocker that is not stored is resolved. -/
def TaskStore.Resolved (s : TaskStore) (blockerId : String) : Prop :=
  ∀ blocker, s.row blockerId = some blocker → blocker.val.status ∈ [.completed, .deleted]

/-- A task that nothing unfinished blocks. -/
def TaskStore.Unblocked (s : TaskStore) (task : OrchestrationTask) : Prop :=
  ∀ blockerId ∈ task.val.blockedBy, s.Resolved blockerId

def blockedError (task : OrchestrationTask) : Exn :=
  let blockers := String.intercalate ", " task.val.blockedBy
  .valueError ("Task '" ++ task.val.id ++ "' is blocked by: " ++ blockers)

theorem OrchestrationTaskFields.postInit_eq_ok {f : OrchestrationTaskFields} :
    f.postInit = .ok () ↔ f.id ≠ "" ∧ f.subject ≠ "" ∧ f.id ∉ f.blockedBy ∧
      (∀ blockerId ∈ f.blockedBy, blockerId ≠ "") ∧ 0 ≤ f.createdAt ∧ 0 ≤ f.updatedAt := by
  simp [OrchestrationTaskFields.postInit, bind_eq_ok]

section Calls

variable {H : Hashing} {s : TaskStore} {t : FpelStore} {st' : TaskStore × FpelStore}
  {task : OrchestrationTask} {taskId : String}

theorem runs_requireTask (hrow : s.row taskId = some task) {out : Except Exn OrchestrationTask} :
    (requireTask H taskId).Runs (clockedBoard H) (s, t) out st' ↔ out = .ok task ∧ st' = (s, t) := by
  constructor
  · rintro ⟨r, ⟨s₁, t₁⟩, ⟨⟨⟨heq, hr⟩, -⟩, ht⟩, hrest⟩
    dsimp only at heq hr ht
    subst heq ht
    have hanswer : r = .ok (some task) := hr.trans (congrArg Except.ok hrow)
    subst hanswer
    exact hrest
  · rintro ⟨rfl, rfl⟩
    refine ⟨.ok (some task), (s, t), ⟨⟨⟨rfl, ?_⟩, ?_⟩, rfl⟩, rfl, rfl⟩
    · exact congrArg Except.ok hrow.symm
    · intro now hnow
      cases hnow

theorem start_of_isBlocked (hrow : s.row taskId = some task) (hblocked : task.isBlocked = true)
    (owner : String) (requestedBy : Option String) {out : Except Exn OrchestrationTask} :
    (start H false taskId owner requestedBy).Runs (clockedBoard H) (s, t) out st' ↔
      out = .error (blockedError task) ∧ st' = (s, t) := by
  have hid : task.val.id = taskId := by simpa using List.find?_some hrow
  rw [start, Program.runs_bind]
  simp only [runs_requireTask hrow]
  constructor
  · rintro (⟨e, ⟨he, -⟩, -⟩ | ⟨read, st₁, ⟨hread, rfl⟩, hrest⟩)
    · cases he
    · cases hread
      rw [if_pos hblocked] at hrest
      rw [blockedError, hid]
      exact hrest
  · rintro ⟨rfl, rfl⟩
    refine .inr ⟨task, _, ⟨rfl, rfl⟩, ?_⟩
    rw [if_pos hblocked, blockedError, hid]
    exact ⟨rfl, rfl⟩

/-- A start of an approved task with no blocker listed succeeds, and its row is under way. -/
theorem start_of_unlisted (hs : s.Keyed) (hrow : s.row taskId = some task)
    (hlisted : task.val.blockedBy = []) (happroved : task.val.status = .approved)
    (owner : String) (requestedBy : Option String) {out : Except Exn OrchestrationTask}
    (h : (start H false taskId owner requestedBy).Runs (clockedBoard H) (s, t) out st') :
    ∃ started, out = .ok started ∧ started.val.status = .inProgress ∧
      st'.1.row taskId = some started := by
  have hid : task.val.id = taskId := by simpa using List.find?_some hrow
  have hunblocked : task.isBlocked = false := by simp [OrchestrationTask.isBlocked, hlisted]
  have hvalid : validateTransition task .inProgress = .ok () := by
    simp [validateTransition, require, OrchestrationTask.canTransitionTo, happroved,
      OrchestrationTaskStatus.transitions]
  rw [start, Program.runs_bind] at h
  simp only [runs_requireTask hrow] at h
  obtain ⟨e, ⟨he, -⟩, -⟩ | ⟨read, st₁, ⟨hread, rfl⟩, h⟩ := h
  · cases he
  cases hread
  have hgate : requireSealed H false task taskId = .ret () := rfl
  rw [hunblocked, if_neg Bool.false_ne_true, hvalid, Program.ofExcept_ok, Program.ret_bind, hgate,
    Program.ret_bind] at h
  obtain ⟨e, hclock, -⟩ | ⟨now, ⟨s₁, t₁⟩, hclock, hrest⟩ := Program.runs_bind.mp h
  · obtain ⟨⟨⟨-, now, hnow⟩, -⟩, -⟩ := Program.runs_perform.mp hclock
    cases hnow
  obtain ⟨⟨⟨heq, -⟩, hpast⟩, ht⟩ := Program.runs_perform.mp hclock
  dsimp only at heq ht
  subst heq ht
  have hnow : (0 : Int) ≤ now := hpast now rfl
  -- no check of the entity looks at the fields that change, but for the time
  have hvalid' : OrchestrationTaskFields.postInit { task.val with
      status := .inProgress, owner := some owner, updatedAt := now, requestedBy } = .ok () := by
    obtain ⟨hid', hsubject, hself, hblockers, hcreated, -⟩ :=
      OrchestrationTaskFields.postInit_eq_ok.mp task.property
    exact OrchestrationTaskFields.postInit_eq_ok.mpr
      ⟨hid', hsubject, hself, hblockers, hcreated, hnow⟩
  obtain ⟨e, he, -⟩ | ⟨started, st₁, hstarted, hstore⟩ := Program.runs_bind.mp hrest
  · have hconstruct := (Program.runs_ofExcept.mp he).1
    rw [construct_of_postInit hvalid'] at hconstruct
    cases hconstruct
  obtain ⟨hconstruct, rfl⟩ := Program.runs_ofExcept.mp hstarted
  have hval := construct_eq_ok.mp hconstruct.symm
  obtain ⟨r, ⟨s₂, t₂⟩, ⟨⟨⟨hr, hwritten⟩, -⟩, ht⟩, hstored⟩ := hstore
  dsimp only at hr hwritten ht
  subst hr hwritten ht
  have hguard : s₁.orchestrationTasks.any (TaskStore.guarded started task.val.status) = true := by
    refine List.any_eq_true.mpr ⟨task, List.mem_of_find?_eq_some hrow, ?_⟩
    simp [TaskStore.guarded, hval]
  rw [hguard] at hstored
  obtain ⟨rfl, rfl⟩ := hstored
  refine ⟨started, rfl, by rw [hval], ?_⟩
  rw [hs.row_casSave hguard, hval, if_pos hid]

theorem start_runs (owner : String) (requestedBy : Option String) (st : TaskStore × FpelStore) :
    ∃ out st', (start H false taskId owner requestedBy).Runs (clockedBoard H) st out st' := by
  refine Program.exists_runs (fun c st => ?_) _ st
  obtain c | c := c
  · refine ⟨_, (_, st.2), ⟨respondTask_serve {} c st.1, ?_⟩, rfl⟩
    intro now hnow
    cases hnow
    exact le_refl _
  · exact ⟨.error (.operationalError ""), st, .inr ⟨rfl, "", rfl⟩, rfl⟩

/-- The blockers that a query finds are the stored ones, so the two readings of the table agree. -/
theorem unblocked_of_allResolved (hs : s.Keyed) {blockers : List OrchestrationTask}
    (hperm : blockers.Perm (s.orchestrationTasks.filter fun row => row.val.id ∈ task.val.blockedBy))
    (h : allResolved task blockers = true) : s.Unblocked task := by
  intro blockerId hlisted blocker hblocker
  obtain ⟨hmem, hid⟩ := hs.row_eq_some.mp hblocker
  have hfetched : blocker ∈ blockers := by
    rw [hperm.mem_iff, List.mem_filter, hid]
    exact ⟨hmem, by simpa using hlisted⟩
  obtain ⟨found, hfound⟩ := Option.isSome_iff_exists.mp
    (List.find?_isSome (p := fun b => b.val.id == blockerId).mpr ⟨blocker, hfetched, by simp [hid]⟩)
  have hstored := (List.mem_filter.mp (hperm.mem_iff.mp (List.mem_of_find?_eq_some hfound))).1
  have hfoundId : found.val.id = blockerId := by simpa using List.find?_some hfound
  have hsame : found = blocker :=
    UniqueOn.eq_of_mem hs hstored hmem (congrArg some hfoundId) (congrArg some hid)
  have hresolved := List.all_eq_true.mp h blockerId hlisted
  rw [hfound, hsame] at hresolved
  simpa using hresolved

theorem unblockedBy_reports (hs : s.Keyed) {candidates : List OrchestrationTask} {ids : List String}
    (h : (unblockedBy H taskId candidates).Runs (clockedBoard H) (s, t) (.ok ids) st') :
    st' = (s, t) ∧
      ∀ id ∈ ids, ∃ candidate ∈ candidates, candidate.val.id = id ∧ s.Unblocked candidate := by
  induction candidates generalizing ids with
  | nil =>
    obtain ⟨hids, rfl⟩ := h
    cases hids
    exact ⟨rfl, fun id hid => absurd hid List.not_mem_nil⟩
  | cons candidate rest ih =>
    rw [unblockedBy] at h
    by_cases hblocks : taskId ∉ candidate.val.blockedBy
    · rw [if_pos hblocks] at h
      obtain ⟨hst, hrest⟩ := ih h
      refine ⟨hst, fun id hid => ?_⟩
      obtain ⟨found, hfound, hreported⟩ := hrest id hid
      exact ⟨found, List.mem_cons_of_mem _ hfound, hreported⟩
    rw [if_neg hblocks] at h
    obtain ⟨e, -, he⟩ | ⟨blockers, ⟨s₁, t₁⟩, hread, hnext⟩ := Program.runs_bind.mp h
    · cases he
    obtain ⟨⟨⟨heq, fetched, hfetched, hperm⟩, -⟩, ht⟩ := Program.runs_perform.mp hread
    dsimp only at heq ht
    subst heq ht
    cases hfetched
    obtain ⟨e, -, he⟩ | ⟨unblocked, st₂, htail, hids, rfl⟩ := Program.runs_bind.mp hnext
    · cases he
    obtain ⟨hst, hrest⟩ := ih htail
    have hlater : ∀ id ∈ unblocked, ∃ found ∈ candidate :: rest,
        found.val.id = id ∧ s₁.Unblocked found := by
      intro id hid
      obtain ⟨found, hfound, hreported⟩ := hrest id hid
      exact ⟨found, List.mem_cons_of_mem _ hfound, hreported⟩
    refine ⟨hst, fun id hid => ?_⟩
    by_cases hresolved : allResolved candidate blockers = true
    · rw [if_pos hresolved] at hids
      cases hids
      rcases List.mem_cons.mp hid with rfl | hid
      · exact ⟨candidate, List.mem_cons_self, rfl, unblocked_of_allResolved hs hperm hresolved⟩
      · exact hlater id hid
    · rw [if_neg hresolved] at hids
      cases hids
      exact hlater id hid

theorem resolveBlockers_reports (hs : s.Keyed) {ids : List String}
    (h : (resolveBlockers H taskId).Runs (clockedBoard H) (s, t) (.ok ids) st') :
    st' = (s, t) ∧
      ∀ id ∈ ids, ∃ candidate, s.row id = some candidate ∧ s.Unblocked candidate := by
  obtain ⟨e, -, he⟩ | ⟨candidates, ⟨s₁, t₁⟩, hlist, hrest⟩ := Program.runs_bind.mp h
  · cases he
  obtain ⟨⟨⟨heq, listed, hlisted, hordered⟩, -⟩, ht⟩ := Program.runs_perform.mp hlist
  dsimp only at heq ht
  subst heq ht
  cases hlisted
  obtain ⟨hst, hreported⟩ := unblockedBy_reports hs hrest
  refine ⟨hst, fun id hid => ?_⟩
  obtain ⟨candidate, hmem, hcandidate, hunblocked⟩ := hreported id hid
  have hstored := (List.mem_filter.mp ((hordered.mem_iff candidate).mp hmem)).1
  exact ⟨candidate, hs.row_eq_some.mpr ⟨hstored, hcandidate⟩, hunblocked⟩

end Calls

variable (H : Hashing)

/-- Every start of the task succeeds and leaves it under way. -/
def Startable (st : TaskStore × FpelStore) (taskId owner : String) (requestedBy : Option String) :
    Prop :=
  ∀ out st', (start H false taskId owner requestedBy).Runs (clockedBoard H) st out st' →
    ∃ started, out = .ok started ∧ started.val.status = .inProgress ∧
      st'.1.row taskId = some started

/-- A start looks at what resolving looks at. -/
structure BlockersDecide (st : TaskStore × FpelStore) (task : OrchestrationTask) (owner : String)
    (requestedBy : Option String) : Prop where
  startable : st.1.Unblocked task → Startable H st task.val.id owner requestedBy
  refused : ¬ st.1.Unblocked task → ∀ out st',
    (start H false task.val.id owner requestedBy).Runs (clockedBoard H) st out st' →
      out = .error (blockedError task) ∧ st' = st
  reported : ∀ taskId ids st', (resolveBlockers H taskId).Runs (clockedBoard H) st (.ok ids) st' →
    task.val.id ∈ ids → Startable H st' task.val.id owner requestedBy

variable {H} {s : TaskStore} {t : FpelStore} {task : OrchestrationTask}

/-- The two notions agree on a task that lists no blocker and on one that is really blocked, and
on no other: a blocker that is done stays listed and still refuses the start. -/
theorem blockers_decide_iff (hs : s.Keyed) (htask : task ∈ s.orchestrationTasks)
    (happroved : task.val.status = .approved) (owner : String) (requestedBy : Option String) :
    BlockersDecide H (s, t) task owner requestedBy ↔
      task.val.blockedBy = [] ∨ ∃ blockerId ∈ task.val.blockedBy, ∃ blocker ∈ s.orchestrationTasks,
        blocker.val.id = blockerId ∧ blocker.val.status ∉ [.completed, .deleted] := by
  have hrow : s.row task.val.id = some task := hs.row_eq_some.mpr ⟨htask, rfl⟩
  constructor
  · intro hdecide
    by_cases hlisted : task.val.blockedBy = []
    · exact .inl hlisted
    right
    by_contra hnone
    have hunblocked : s.Unblocked task := by
      intro blockerId hblockerId blocker hblocker
      obtain ⟨hmem, hid⟩ := hs.row_eq_some.mp hblocker
      by_contra hopen
      exact hnone ⟨blockerId, hblockerId, blocker, hmem, hid, hopen⟩
    have hblocked : task.isBlocked = true := by
      simpa [OrchestrationTask.isBlocked, List.length_pos_iff] using hlisted
    obtain ⟨out, st', hrun⟩ : ∃ out st', (start H false task.val.id owner requestedBy).Runs
        (clockedBoard H) (s, t) out st' := start_runs owner requestedBy (s, t)
    obtain ⟨started, hstarted, -⟩ := hdecide.startable hunblocked out st' hrun
    obtain ⟨hrefused, -⟩ := (start_of_isBlocked hrow hblocked owner requestedBy).mp hrun
    rw [hrefused] at hstarted
    cases hstarted
  · rintro (hlisted | ⟨blockerId, hblockerId, blocker, hmem, hid, hopen⟩)
    · have hstart : Startable H (s, t) task.val.id owner requestedBy := fun out st' hrun =>
        start_of_unlisted hs hrow hlisted happroved owner requestedBy hrun
      refine ⟨fun _ => hstart, fun hblocked => absurd ?_ hblocked, ?_⟩
      · intro blockerId hblockerId
        rw [hlisted] at hblockerId
        cases hblockerId
      · intro taskId ids st' hrun _
        obtain ⟨rfl, -⟩ := resolveBlockers_reports hs hrun
        exact hstart
    · have hunresolved : ¬ s.Unblocked task := by
        intro hunblocked
        exact hopen (hunblocked blockerId hblockerId blocker (hs.row_eq_some.mpr ⟨hmem, hid⟩))
      have hblocked : task.isBlocked = true := by
        simpa [OrchestrationTask.isBlocked] using List.length_pos_of_mem hblockerId
      refine ⟨fun hunblocked => absurd hunblocked hunresolved, fun _ out st' hrun => ?_, ?_⟩
      · exact (start_of_isBlocked hrow hblocked owner requestedBy).mp hrun
      · intro taskId ids st' hrun hreported
        obtain ⟨-, hids⟩ := resolveBlockers_reports hs hrun
        obtain ⟨candidate, hcandidate, hunblocked⟩ := hids task.val.id hreported
        rw [hrow] at hcandidate
        cases hcandidate
        exact absurd hunblocked hunresolved

private def chainTask (id : String) (status : OrchestrationTaskStatus) (blockedBy : List String)
    (h : OrchestrationTaskFields.postInit { id, subject := "subject", status, blockedBy } = .ok ()) :
    OrchestrationTask := ⟨{ id, subject := "subject", status, blockedBy }, h⟩

private def doneTask := chainTask "task-1" .completed [] (by decide)
private def openTask := chainTask "task-1" .inProgress [] (by decide)
private def waitingTask := chainTask "task-2" .approved ["task-1"] (by decide)

private theorem chain_keyed {first : OrchestrationTask} (h : first.val.id = "task-1") :
    (TaskStore.mk [first, waitingTask]).Keyed := by
  refine UniqueOn.of_nodup ?_
  rw [show [first, waitingTask].filterMap (fun t => some t.val.id) = [first.val.id, "task-2"] from rfl,
    h]
  decide

/-- The task that a completed one blocked is reported as unblocked and is refused all the same. -/
theorem reported_task_refused :
    ∃ s : TaskStore, s.Keyed ∧ waitingTask ∈ s.orchestrationTasks ∧
      waitingTask.val.status = .approved ∧ s.Unblocked waitingTask ∧
      (resolveBlockers planHashing "task-1").Runs (clockedBoard planHashing) (s, {})
        (.ok ["task-2"]) (s, {}) ∧
      ∀ out st', (start planHashing false "task-2" "agent" none).Runs (clockedBoard planHashing)
        (s, {}) out st' → out = .error (.valueError "Task 'task-2' is blocked by: task-1") := by
  have hs : (TaskStore.mk [doneTask, waitingTask]).Keyed := chain_keyed rfl
  refine ⟨⟨[doneTask, waitingTask]⟩, hs, by simp, rfl, ?_, ?_, fun out st' hrun => ?_⟩
  · intro blockerId hblockerId blocker hblocker
    obtain rfl : blockerId = "task-1" := List.mem_singleton.mp hblockerId
    obtain rfl : doneTask = blocker := Option.some.inj hblocker
    decide
  · refine .perform_bind (v := [waitingTask]) (t := (⟨[doneTask, waitingTask]⟩, {})) ?_ ?_
    · refine ⟨⟨⟨rfl, [waitingTask], rfl, .refl _, List.pairwise_singleton _ _⟩, ?_⟩, rfl⟩
      intro now hnow
      cases hnow
    refine .perform_bind (v := [doneTask]) (t := (⟨[doneTask, waitingTask]⟩, {})) ?_ ⟨rfl, rfl⟩
    refine ⟨⟨⟨rfl, [doneTask], rfl, .refl _⟩, ?_⟩, rfl⟩
    intro now hnow
    cases hnow
  · exact ((start_of_isBlocked (show _ = some waitingTask from rfl) rfl "agent" none).mp hrun).1

theorem blockers_decide_iff_chain :
    BlockersDecide planHashing (⟨[openTask, waitingTask]⟩, {}) waitingTask "agent" none :=
  (blockers_decide_iff (chain_keyed rfl) (by simp) rfl "agent" none).mpr
    (.inr ⟨"task-1", by decide, openTask, by simp, rfl, by decide⟩)

end ForkAgent.TaskBoard

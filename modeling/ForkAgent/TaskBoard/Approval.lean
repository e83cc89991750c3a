import ForkAgent.TaskBoard.Served
import ForkAgent.TaskBoard.Writes

/-!
# Approval authority

`approve` and `retry` share the transitions to APPROVED. As long as each keeps to its own edge, a
task that is past its approval has been approved, out of PLANNING, since it was last created or
rejected.
-/

namespace ForkAgent.TaskBoard

open Effects Storage Fpel

def OrchestrationTaskStatus.pastApproval (status : OrchestrationTaskStatus) : Bool :=
  status ∈ [.approved, .inProgress, .completed]

variable {H : Hashing} {tr : List (boardSystem H).Event} {cfg : (boardSystem H).Config}

/-- An `approve` that writes has read a PLANNING task, and a `retry` one in progress. -/
def ownEdge (e : (boardSystem H).Event) : Bool :=
  match e.op, e.answered with
  | .approve .., ⟨.inl (.casSave _ expected), .ok true⟩ => expected = .planning
  | .retry _, ⟨.inl (.casSave _ expected), .ok true⟩ => expected = .inProgress
  | _, _ => true

/-- The event is the write of an `approve` of the task, out of PLANNING. -/
def Approves (taskId : String) (e : (boardSystem H).Event) : Prop :=
  ∃ (approvedBy : String) (requestedBy : Option String) (task : OrchestrationTask),
    e.op = .approve taskId approvedBy requestedBy ∧ task.val.id = taskId ∧
    e.answered = .ok (.inl (.casSave task .planning)) true

/-- The event is the write that creates the task, or the write of a `reject` of it. -/
def Restarts (taskId : String) (e : (boardSystem H).Event) : Prop :=
  ∃ task, committed e.answered = some task ∧ task.val.id = taskId ∧
    ((∃ subject description owner, e.op = .create subject description owner) ∨
      ∃ requestedBy, e.op = .reject taskId requestedBy)

/-- The task was approved, and neither created nor rejected since. -/
def ApprovedSince (tr : List (boardSystem H).Event) (taskId : String) : Prop :=
  ∃ pre e post, tr = pre ++ e :: post ∧ Approves taskId e ∧ ∀ d ∈ post, ¬ Restarts taskId d

theorem ApprovedSince.snoc {taskId : String} (h : ApprovedSince tr taskId)
    {e : (boardSystem H).Event} (he : ¬ Restarts taskId e) : ApprovedSince (tr ++ [e]) taskId := by
  obtain ⟨pre, a, post, rfl, happroves, hpost⟩ := h
  refine ⟨pre, a, post ++ [e], by simp, happroves, fun d hd => ?_⟩
  rcases List.mem_append.mp hd with hd | hd
  · exact hpost d hd
  · rw [List.mem_singleton.mp hd]
    exact he

theorem pastApproval_of_transition {status target : OrchestrationTaskStatus}
    (h : target ∈ status.transitions) (htarget : target = .inProgress ∨ target = .completed) :
    status.pastApproval = true := by
  rcases htarget with rfl | rfl <;> cases status <;> simp_all [OrchestrationTaskStatus.transitions] <;>
    decide

/-- An operation other than `approve` leaves a task past its approval only if it finds it there,
and leaves the approval as it is. -/
theorem BoardOp.applied_pastApproval {o : BoardOp} {now : Int} {row fields : OrchestrationTaskFields}
    (h : o.applied now row = some fields) (hfields : fields.status.pastApproval = true)
    (happrove : ∀ taskId approvedBy requestedBy, o ≠ .approve taskId approvedBy requestedBy)
    (hretry : ∀ taskId, o = .retry taskId → row.status = .inProgress) :
    row.status.pastApproval = true ∧ fields.approvedBy = row.approvedBy ∧
      fields.approvedAt = row.approvedAt ∧ ∀ taskId requestedBy, o ≠ .reject taskId requestedBy := by
  cases o with
  | create => cases h
  | fpel => cases h
  | approve taskId approvedBy requestedBy => exact absurd rfl (happrove taskId approvedBy requestedBy)
  | update taskId subject description owner =>
    simp only [applied] at h
    split_ifs at h
    cases h
    exact ⟨hfields, rfl, rfl, fun _ _ h => by cases h⟩
  | start taskId owner requestedBy =>
    simp only [applied] at h
    split_ifs at h with hallowed
    cases h
    exact ⟨pastApproval_of_transition hallowed.2 (.inl rfl), rfl, rfl, fun _ _ h => by cases h⟩
  | complete taskId requestedBy =>
    simp only [applied] at h
    split_ifs at h with hallowed
    cases h
    exact ⟨pastApproval_of_transition hallowed (.inr rfl), rfl, rfl, fun _ _ h => by cases h⟩
  | retry taskId =>
    simp only [applied] at h
    split_ifs at h
    cases h
    exact ⟨by rw [hretry taskId rfl]; rfl, rfl, rfl, fun _ _ h => by cases h⟩
  | _ =>
    -- `submit_plan`, `reject` and `delete` lead elsewhere
    simp only [applied] at h
    split_ifs at h
    cases h
    cases hfields

/-- A task is written back past its approval by an `approve` out of PLANNING, or it was there. -/
theorem WritesBack.pastApproval {pre : List (boardSystem H).Event} {e : (boardSystem H).Event}
    {read old task : OrchestrationTask} (h : WritesBack pre e read old task)
    (hown : ownEdge e = true) (htask : task.val.status.pastApproval = true) :
    (Approves task.val.id e ∧ task.val.approvedBy ≠ none ∧ task.val.approvedAt ≠ none) ∨
      read.val.status.pastApproval = true ∧ task.val.approvedBy = read.val.approvedBy ∧
        task.val.approvedAt = read.val.approvedAt ∧ ¬ Restarts task.val.id e := by
  have hnew : ∀ subject description owner, e.op ≠ .create subject description owner := by
    intro subject description owner hop
    have htaskId := h.taskId
    rw [hop] at htaskId
    cases htaskId
  by_cases happrove : ∃ taskId approvedBy requestedBy, e.op = .approve taskId approvedBy requestedBy
  · obtain ⟨taskId, approvedBy, requestedBy, hop⟩ := happrove
    have htaskId := h.taskId
    have happlied := h.applied
    rw [hop] at htaskId happlied
    cases htaskId
    have hplanning : read.val.status = .planning := by
      unfold ownEdge at hown
      rw [hop, h.answered] at hown
      simpa using hown
    simp only [BoardOp.applied] at happlied
    split_ifs at happlied
    have hfields := Option.some.inj happlied
    refine .inl ⟨⟨approvedBy, requestedBy, task, hop, rfl, ?_⟩, ?_, ?_⟩
    · rw [h.answered, hplanning]
    · rw [← hfields]
      exact Option.some_ne_none _
    · rw [← hfields]
      exact Option.some_ne_none _
  · have hretry : ∀ taskId, e.op = .retry taskId → read.val.status = .inProgress := by
      intro taskId hop
      unfold ownEdge at hown
      rw [hop, h.answered] at hown
      simpa using hown
    obtain ⟨hread, hby, hat, hreject⟩ := BoardOp.applied_pastApproval h.applied htask
      (fun taskId approvedBy requestedBy hop => happrove ⟨taskId, approvedBy, requestedBy, hop⟩) hretry
    refine .inr ⟨hread, hby, hat, ?_⟩
    rintro ⟨-, -, -, ⟨subject, description, owner, hop⟩ | ⟨requestedBy, hop⟩⟩
    · exact hnew subject description owner hop
    · exact hreject _ requestedBy hop

/-- Every task past its approval carries it. -/
def Signed (s : TaskStore × FpelStore) : Prop :=
  ∀ taskId task, s.1.row taskId = some task → task.val.status.pastApproval = true →
    task.val.approvedBy ≠ none ∧ task.val.approvedAt ≠ none

theorem signed_of_run (run : (boardSystem H).Run tr cfg) (hown : ∀ e ∈ tr, ownEdge e = true) :
    Signed cfg.store := by
  refine (run.invariant_reads (I := Signed) ?_ ?_ ?_).2
  · rintro s rfl taskId task hrow
    cases hrow
  · intro pre e post htr hreads hs taskId task hrow hpast
    have hmem : e ∈ tr := by simp [htr]
    have hstep := run.step_of_mem hmem
    obtain ⟨pre', ss, hbefore⟩ := run.reaches_before hmem
    cases hcommitted : committed e.answered with
    | none =>
      rw [tasks_eq_of_committed_none hstep hcommitted] at hrow
      exact hs taskId task hrow hpast
    | some written =>
      rw [row_of_committed (board_keyed hbefore) hstep hcommitted] at hrow
      split_ifs at hrow with hid
      · cases hrow
        rcases committed_cases run htr hcommitted with ⟨-, hpending⟩ | ⟨read, old, hback⟩
        · rw [hpending] at hpast
          cases hpast
        · rcases hback.pastApproval (hown e hmem) hpast with ⟨-, hsigned⟩ | ⟨hread, hby, hat, -⟩
          · exact hsigned
          · obtain ⟨d, hd, hdrow⟩ := hback.readFrom
            rw [hby, hat]
            exact hreads d hd _ read hdrow hread
      · exact hs taskId task hrow hpast
  · rintro s s' hs ⟨htasks, -⟩
    unfold Signed
    rw [htasks]
    exact hs

theorem approvedSince_of_run (run : (boardSystem H).Run tr cfg)
    (hown : ∀ e ∈ tr, ownEdge e = true) {taskId : String} {task : OrchestrationTask}
    (hrow : cfg.store.1.row taskId = some task) (hpast : task.val.status.pastApproval = true) :
    ApprovedSince tr taskId := by
  induction run generalizing task with
  | initial h =>
    cases h
    cases hrow
  | invoke run j fresh o ih => exact ih hown hrow hpast
  | @call tr s ss run j o c next running r s' step ih =>
    have hprev := fun e he => hown e (List.mem_append_left _ he)
    have hlast := hown _ (List.mem_append_right _ (List.mem_singleton_self _))
    have hrun := run.call running step
    cases hcommitted : committed ⟨c, r⟩ with
    | none =>
      have hsame : s'.1 = s.1 := tasks_eq_of_committed_none step hcommitted
      refine (ih hprev (hsame ▸ hrow) hpast).snoc ?_
      rintro ⟨written, hwritten, -⟩
      exact Option.some_ne_none _ (hwritten.symm.trans hcommitted)
    | some written =>
      have hafter := row_of_committed (board_keyed run) step hcommitted taskId
      rw [show s'.1.row taskId = some task from hrow] at hafter
      split_ifs at hafter with hid
      · cases hafter
        subst hid
        rcases committed_cases hrun rfl hcommitted with ⟨-, hpending⟩ | ⟨read, old, hback⟩
        · rw [hpending] at hpast
          cases hpast
        · rcases hback.pastApproval hlast hpast with ⟨happroves, -⟩ | ⟨hread, -, -, hrestarts⟩
          · exact ⟨tr, _, [], rfl, happroves, by simp⟩
          · refine (ih hprev hback.found ?_).snoc hrestarts
            rw [hback.status]
            exact hread
      · refine (ih hprev hafter.symm hpast).snoc ?_
        rintro ⟨t, ht, htid, -⟩
        have heq : t = written := Option.some.inj (ht.symm.trans hcommitted)
        exact hid (heq ▸ htid)
  | outside run h ih =>
    rw [h.1] at hrow
    exact ih hown hrow hpast

/-- Each task past its approval has been approved since it was last created or rejected, and no
`approve` touches a task in progress. -/
def Authorized (tr : List (boardSystem H).Event) (cfg : (boardSystem H).Config) : Prop :=
  (∀ task ∈ cfg.store.1.orchestrationTasks, task.val.status.pastApproval = true →
    ApprovedSince tr task.val.id ∧ task.val.approvedBy ≠ none ∧ task.val.approvedAt ≠ none) ∧
  ∀ e ∈ tr, (∃ taskId approvedBy requestedBy, e.op = .approve taskId approvedBy requestedBy) →
    ∀ task ∈ e.before.1.orchestrationTasks, task.val.status = .inProgress →
      task ∈ e.after.1.orchestrationTasks

/-- An `approve` on its own edge leaves every task in progress alone. -/
theorem inProgress_of_approve (run : (boardSystem H).Run tr cfg) {e : (boardSystem H).Event}
    (he : e ∈ tr) (hown : ownEdge e = true) {taskId approvedBy : String}
    {requestedBy : Option String} (hop : e.op = .approve taskId approvedBy requestedBy)
    {task : OrchestrationTask} (hmem : task ∈ e.before.1.orchestrationTasks)
    (hprogress : task.val.status = .inProgress) : task ∈ e.after.1.orchestrationTasks := by
  obtain ⟨pre, post, htr⟩ := List.append_of_mem he
  obtain ⟨pre', ss, hbefore⟩ := run.reaches_before he
  have hkeyed := board_keyed hbefore
  have hstep := run.step_of_mem he
  have hrow : e.before.1.row task.val.id = some task := hkeyed.row_eq_some.mpr ⟨hmem, rfl⟩
  suffices hafter : e.after.1.row task.val.id = some task from List.mem_of_find?_eq_some hafter
  cases hcommitted : committed e.answered with
  | none => rwa [tasks_eq_of_committed_none hstep hcommitted]
  | some written =>
    rw [row_of_committed hkeyed hstep hcommitted]
    split_ifs with hid
    swap
    · exact hrow
    rcases committed_cases run htr hcommitted with ⟨⟨subject, description, owner, hnew⟩, -⟩ |
      ⟨read, old, hback⟩
    · rw [hop] at hnew
      cases hnew
    · -- the row that is replaced was read, and found, in PLANNING
      have hread : read.val.status = .planning := by
        unfold ownEdge at hown
        rw [hop, hback.answered] at hown
        simpa using hown
      have hfound := hback.found
      rw [hid, hrow] at hfound
      cases hfound
      have hstatus := hback.status
      rw [hprogress, hread] at hstatus
      cases hstatus

/-- Approval authority: it holds in every run in which each `approve` and each `retry` keeps to its
own edge. -/
theorem approval_authority (run : (boardSystem H).Run tr cfg)
    (hown : ∀ e ∈ tr, ownEdge e = true) : Authorized tr cfg := by
  refine ⟨fun task hmem hpast => ?_, ?_⟩
  · have hrow := (board_keyed run).row_eq_some.mpr ⟨hmem, rfl⟩
    exact ⟨approvedSince_of_run run hown hrow hpast, signed_of_run run hown _ task hrow hpast⟩
  · rintro e he ⟨taskId, approvedBy, requestedBy, hop⟩ task hmem hprogress
    exact inProgress_of_approve run he (hown e he) hop hmem hprogress

theorem approval_authority_plan :
    ∃ tr cfg, (boardSystem planHashing).Run tr cfg ∧ Authorized tr cfg ∧
      cfg.store.1.orchestrationTasks.map (·.val.status) = [.approved] := by
  obtain ⟨tr, cfg, hplay, hown, hstatus⟩ : ∃ tr cfg,
      playBoard (perform 0 (.create "subject" none none) 3 ++
        perform 1 (.submitPlan "task-1" "plan" none) 3 ++
        perform 2 (.approve "task-1" "lead" none) 3) emptyBoard = some (tr, cfg) ∧
      tr.all ownEdge = true ∧
      cfg.store.1.orchestrationTasks.map (·.val.status) = [.approved] := ⟨_, _, rfl, rfl, rfl⟩
  have hrun := run_of_play (.initial rfl) hplay
  exact ⟨_, _, hrun, approval_authority hrun (List.all_eq_true.mp hown), hstatus⟩

/-- A task that `retry` took out of PLANNING is APPROVED without an approval. -/
theorem approved_without_approval :
    ¬ ∀ tr cfg, (boardSystem planHashing).Run tr cfg → Authorized tr cfg := by
  intro h
  obtain ⟨tr, cfg, hplay, hrows⟩ : ∃ tr cfg,
      playBoard (perform 0 (.create "subject" none none) 3 ++
        perform 1 (.submitPlan "task-1" "plan" none) 3 ++ perform 2 (.retry "task-1") 2)
        emptyBoard = some (tr, cfg) ∧
      cfg.store.1.orchestrationTasks.map (fun t => (t.val.status, t.val.approvedBy)) =
        [(.approved, none)] := ⟨_, _, rfl, rfl⟩
  have hrun := run_of_play (.initial rfl) hplay
  obtain ⟨task, rest, htasks, hfields, -⟩ := List.map_eq_cons_iff.mp hrows
  obtain ⟨hstatus, hby⟩ := Prod.mk.inj hfields
  obtain ⟨-, hsigned, -⟩ := (h _ _ hrun).1 task (by simp [htasks]) (by rw [hstatus]; rfl)
  exact hsigned hby

end ForkAgent.TaskBoard

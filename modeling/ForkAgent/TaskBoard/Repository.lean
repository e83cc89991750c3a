import ForkAgent.TaskBoard.Entity

/-!
# Task repository

The table of orchestration tasks. Its rows are only ever written from entities, so it holds
entities. The task board runs against this table and the FPEL tables side by side.
-/

namespace ForkAgent.TaskBoard

open Effects Storage

structure TaskStore where
  orchestrationTasks : List OrchestrationTask := []

namespace TaskStore

/-- `INSERT OR REPLACE`. -/
def save (s : TaskStore) (task : OrchestrationTask) : TaskStore :=
  { orchestrationTasks :=
      s.orchestrationTasks.filter (fun t => t.val.id ≠ task.val.id) ++ [task] }

/-- Whether the guard of a compare-and-save picks the row. -/
def guarded (task : OrchestrationTask) (expected : OrchestrationTaskStatus)
    (row : OrchestrationTask) : Bool :=
  row.val.id == task.val.id && row.val.status == expected

/-- `UPDATE ... WHERE id = ? AND status = ?`. -/
def casSave (s : TaskStore) (task : OrchestrationTask) (expected : OrchestrationTaskStatus) :
    TaskStore :=
  { orchestrationTasks := updateWhere (guarded task expected) (fun _ => task) s.orchestrationTasks }

end TaskStore

/-- The repository methods, the clock and the source of fresh ids. -/
inductive TaskCall where
  | save (task : OrchestrationTask)
  | casSave (task : OrchestrationTask) (expected : OrchestrationTaskStatus)
  | getById (taskId : String)
  | getByIds (taskIds : List String)
  | listByStatus (status : OrchestrationTaskStatus)
  | listBlocked
  | uuid4Hex
  | nowMs

def TaskCall.Value : TaskCall → Type
  | .save _ => Unit
  | .casSave .. => Bool
  | .getById _ => Option OrchestrationTask
  | .getByIds _ | .listByStatus _ | .listBlocked => List OrchestrationTask
  | .uuid4Hex => String
  | .nowMs => Int

def taskSignature : Signature := ⟨TaskCall, TaskCall.Value⟩

namespace TaskStore

/-- What a call answers and does when the database serves it. -/
def serve : Semantics taskSignature Exn TaskStore
  | ⟨.save task, r⟩, s, s' => r = .ok () ∧ s' = s.save task
  | ⟨.casSave task expected, r⟩, s, s' =>
    r = .ok (s.orchestrationTasks.any (guarded task expected)) ∧ s' = s.casSave task expected
  | ⟨.getById taskId, r⟩, s, s' =>
    s' = s ∧ r = .ok (s.orchestrationTasks.find? fun t => t.val.id == taskId)
  | ⟨.getByIds taskIds, r⟩, s, s' =>
    s' = s ∧ ∃ tasks : List OrchestrationTask, r = .ok tasks ∧
      tasks.Perm (s.orchestrationTasks.filter fun t => t.val.id ∈ taskIds)
  | ⟨.listByStatus status, r⟩, s, s' =>
    s' = s ∧ ∃ tasks, r = .ok tasks ∧
      Ordered (·.val.createdAt) (s.orchestrationTasks.filter fun t => t.val.status == status) tasks
  | ⟨.listBlocked, r⟩, s, s' =>
    s' = s ∧ ∃ tasks, r = .ok tasks ∧
      Ordered (·.val.createdAt) (s.orchestrationTasks.filter fun t => t.val.blockedBy ≠ []) tasks
  | ⟨.uuid4Hex, r⟩, s, s' => s' = s ∧ ∃ hex, r = .ok hex
  | ⟨.nowMs, r⟩, s, s' => s' = s ∧ ∃ now, r = .ok now

/-- Any call may instead fail in the database, which then rolls back. -/
def step : Semantics taskSignature Exn TaskStore := fun a s s' =>
  serve a s s' ∨ s' = s ∧ ∃ m, a.answer = .error (.repositoryError m)

/-- The primary key of the table. -/
def Keyed (s : TaskStore) : Prop := UniqueOn (fun t => some t.val.id) s.orchestrationTasks

theorem Keyed.step {a : Answered taskSignature Exn} {s s' : TaskStore} (hs : s.Keyed)
    (h : step a s s') : s'.Keyed := by
  rcases h with h | ⟨rfl, -⟩
  swap
  · exact hs
  obtain ⟨c, r⟩ := a
  unfold Keyed
  cases c with
  | save task =>
    rw [h.2]
    refine (hs.filter _).insert (conflicts_eq_false.mpr fun t ht k hk hk' => ?_)
    cases hk
    have hne := (List.mem_filter.mp ht).2
    simp only [ne_eq, decide_not, Bool.not_eq_true', decide_eq_false_iff_not] at hne
    exact hne (Option.some.inj hk')
  | casSave task expected =>
    rw [h.2]
    refine hs.updateWhere fun t ht hguarded => .inl ?_
    simp only [guarded, Bool.and_eq_true, beq_iff_eq] at hguarded
    rw [hguarded.1]
  | _ => rw [h.1]; exact hs

/-- The row of a task. -/
def row (s : TaskStore) (taskId : String) : Option OrchestrationTask :=
  s.orchestrationTasks.find? fun t => t.val.id == taskId

theorem Keyed.row_eq_some {s : TaskStore} (hs : s.Keyed) {taskId : String}
    {task : OrchestrationTask} :
    s.row taskId = some task ↔ task ∈ s.orchestrationTasks ∧ task.val.id = taskId := by
  constructor
  · intro h
    exact ⟨List.mem_of_find?_eq_some h, by simpa using List.find?_some h⟩
  · rintro ⟨hmem, hid⟩
    obtain ⟨found, hfound⟩ : ∃ found, s.row taskId = some found := by
      refine Option.isSome_iff_exists.mp (List.find?_isSome.mpr ⟨task, hmem, by simp [hid]⟩)
    have hkey : found.val.id = taskId := by simpa using List.find?_some hfound
    have heq : found = task :=
      UniqueOn.eq_of_mem hs (List.mem_of_find?_eq_some hfound) hmem (congrArg some hkey)
        (congrArg some hid)
    rw [hfound, heq]

theorem guarded_iff {task row : OrchestrationTask} {expected : OrchestrationTaskStatus} :
    guarded task expected row = true ↔ row.val.id = task.val.id ∧ row.val.status = expected := by
  simp [guarded]

theorem casSave_of_refused {s : TaskStore} {task : OrchestrationTask}
    {expected : OrchestrationTaskStatus}
    (h : s.orchestrationTasks.any (guarded task expected) = false) : s.casSave task expected = s := by
  have hrows : updateWhere (guarded task expected) (fun _ => task) s.orchestrationTasks =
      s.orchestrationTasks := by
    refine (List.map_congr_left fun row hrow => ?_).trans (List.map_id _)
    exact if_neg (List.any_eq_false.mp h row hrow)
  simp [casSave, hrows]

theorem row_of_replaced {s s' : TaskStore} (hs : s.Keyed) (hs' : s'.Keyed) {task : OrchestrationTask}
    (hrows : ∀ t, t ∈ s'.orchestrationTasks ↔
      t = task ∨ t ∈ s.orchestrationTasks ∧ t.val.id ≠ task.val.id) (taskId : String) :
    s'.row taskId = if task.val.id = taskId then some task else s.row taskId := by
  refine Option.ext fun t => ?_
  rw [hs'.row_eq_some, hrows]
  by_cases hid : task.val.id = taskId
  · rw [if_pos hid, Option.some.injEq, ← hid]
    constructor
    · rintro ⟨rfl | ⟨-, hne⟩, heq⟩
      · rfl
      · exact absurd heq hne
    · rintro rfl
      exact ⟨.inl rfl, rfl⟩
  · rw [if_neg hid, hs.row_eq_some]
    constructor
    · rintro ⟨rfl | ⟨hmem, -⟩, heq⟩
      · exact absurd heq hid
      · exact ⟨hmem, heq⟩
    · rintro ⟨hmem, heq⟩
      exact ⟨.inr ⟨hmem, by rw [heq]; exact Ne.symm hid⟩, heq⟩

theorem Keyed.row_save {s : TaskStore} (hs : s.Keyed) (task : OrchestrationTask)
    (taskId : String) :
    (s.save task).row taskId = if task.val.id = taskId then some task else s.row taskId := by
  have hs' : (s.save task).Keyed := hs.step (a := .ok (.save task) ()) (.inl ⟨rfl, rfl⟩)
  refine row_of_replaced hs hs' (fun t => ?_) taskId
  simp [save, or_comm]

theorem Keyed.row_casSave {s : TaskStore} (hs : s.Keyed) {task : OrchestrationTask}
    {expected : OrchestrationTaskStatus}
    (h : s.orchestrationTasks.any (guarded task expected) = true) (taskId : String) :
    (s.casSave task expected).row taskId =
      if task.val.id = taskId then some task else s.row taskId := by
  have hs' : (s.casSave task expected).Keyed :=
    hs.step (a := ⟨.casSave task expected, _⟩) (.inl ⟨rfl, rfl⟩)
  obtain ⟨old, hold, hguarded⟩ := List.any_eq_true.mp h
  refine row_of_replaced hs hs' (fun t => ?_) taskId
  rw [casSave, mem_updateWhere]
  constructor
  · rintro (⟨_, _, _, rfl⟩ | ⟨hmem, hkept⟩)
    · exact .inl rfl
    · refine .inr ⟨hmem, fun hid => ?_⟩
      -- two rows of one task are one row
      have heq : t = old :=
        UniqueOn.eq_of_mem hs hmem hold (congrArg some hid)
          (congrArg some (guarded_iff.mp hguarded).1)
      rw [heq, hguarded] at hkept
      cases hkept
  · rintro (rfl | ⟨hmem, hne⟩)
    · exact .inl ⟨old, hold, hguarded, rfl⟩
    · refine .inr ⟨hmem, ?_⟩
      simp [guarded, hne]

end TaskStore

/-- The calls a task board service makes: on its own table and, at the gate, on the FPEL tables. -/
def boardSignature (H : Fpel.Hashing) : Signature := taskSignature.sum (Fpel.fpelSignature H)

abbrev BoardProgram (H : Fpel.Hashing) := Program (boardSignature H) Exn

section Calls

variable {H : Fpel.Hashing}

def save (task : OrchestrationTask) : BoardProgram H Unit :=
  .perform (σ := boardSignature H) (.inl (.save task))

def casSave (task : OrchestrationTask) (expected : OrchestrationTaskStatus) : BoardProgram H Bool :=
  .perform (σ := boardSignature H) (.inl (.casSave task expected))

def getById (taskId : String) : BoardProgram H (Option OrchestrationTask) :=
  .perform (σ := boardSignature H) (.inl (.getById taskId))

def getByIds (taskIds : List String) : BoardProgram H (List OrchestrationTask) :=
  .perform (σ := boardSignature H) (.inl (.getByIds taskIds))

def listByStatus (status : OrchestrationTaskStatus) : BoardProgram H (List OrchestrationTask) :=
  .perform (σ := boardSignature H) (.inl (.listByStatus status))

def listBlocked : BoardProgram H (List OrchestrationTask) :=
  .perform (σ := boardSignature H) (.inl .listBlocked)

def uuid4Hex : BoardProgram H String := .perform (σ := boardSignature H) (.inl .uuid4Hex)

def nowMs : BoardProgram H Int := .perform (σ := boardSignature H) (.inl .nowMs)

end Calls

end ForkAgent.TaskBoard

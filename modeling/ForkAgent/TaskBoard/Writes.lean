import ForkAgent.TaskBoard.Start

/-!
# Writes of the task board

An operation reads one row and writes back what it makes of it. `applied` is that function of the
row and the clock; the guard says that every write is it, applied to a row that was read, and that
the status of that row is the only thing the write checks. An operation that returns has written
once.
-/

namespace ForkAgent.TaskBoard

open Effects Storage Fpel

/-- The task that an operation reads and writes. -/
def BoardOp.taskId : BoardOp → Option String
  | .update taskId .. | .submitPlan taskId .. | .approve taskId .. | .reject taskId _ |
    .start taskId .. | .complete taskId _ | .retry taskId | .delete taskId _ => some taskId
  | .create .. | .fpel _ => none

/-- What an operation makes of a row, by the clock; `none` when it refuses the row. -/
def BoardOp.applied (now : Int) (row : OrchestrationTaskFields) :
    BoardOp → Option OrchestrationTaskFields
  | .update _ subject description owner =>
    if row.status = .deleted ∨ subject = some none then none
    else some { row with
      updatedAt := now, subject := (subject.getD none).getD row.subject,
      description := description.getD row.description, owner := owner.getD row.owner }
  | .submitPlan _ planText requestedBy =>
    if .planning ∈ row.status.transitions then
      some { row with
        status := .planning, planText := some planText, updatedAt := now, requestedBy }
    else none
  | .approve _ approvedBy requestedBy =>
    if .approved ∈ row.status.transitions then
      some { row with
        status := .approved, approvedBy := some approvedBy, approvedAt := some now,
        updatedAt := now, requestedBy }
    else none
  | .reject _ requestedBy =>
    if .pending ∈ row.status.transitions then
      some { row with status := .pending, planText := none, updatedAt := now, requestedBy }
    else none
  | .start _ owner requestedBy =>
    if row.blockedBy = [] ∧ .inProgress ∈ row.status.transitions then
      some { row with
        status := .inProgress, owner := some owner, updatedAt := now, requestedBy }
    else none
  | .complete _ requestedBy =>
    if .completed ∈ row.status.transitions then
      some { row with status := .completed, updatedAt := now, requestedBy }
    else none
  | .retry _ =>
    if .approved ∈ row.status.transitions then some { row with status := .approved } else none
  | .delete _ requestedBy =>
    if .deleted ∈ row.status.transitions then
      some { row with status := .deleted, updatedAt := now, requestedBy }
    else none
  | .create .. | .fpel _ => none

variable {H : Hashing}

/-- The row that an answered call has written. -/
def committed : Answered (boardSignature H) Exn → Option OrchestrationTask
  | ⟨.inl (.save task), .ok _⟩ => some task
  | ⟨.inl (.casSave task _), .ok true⟩ => some task
  | _ => none

/-- The rows written along a history, in order. -/
def commits (h : List (Answered (boardSignature H) Exn)) : List OrchestrationTask :=
  h.filterMap committed

@[simp] theorem commits_append (h h' : List (Answered (boardSignature H) Exn)) :
    commits (h ++ h') = commits h ++ commits h' := List.filterMap_append ..

/-- What an operation has read when it writes a row; only the FPEL operations write FPEL rows. -/
def writes (o : BoardOp) (h : List (Answered (boardSignature H) Exn)) :
    (boardSignature H).Call → Prop
  | .inl (.save task) =>
    (∃ subject description owner, o = .create subject description owner) ∧
      task.val.status = .pending
  | .inl (.casSave task expected) =>
    ∃ (taskId : String) (read : OrchestrationTask), o.taskId = some taskId ∧
      .ok (.inl (.getById taskId)) (some read) ∈ h ∧ read.val.status = expected ∧
      o.applied task.val.updatedAt read.val = some task.val
  | .inl _ => True
  | .inr c => (∃ op, o = .fpel op) ∨ savesRow c = false

/-- Only `complete` makes another call once it has written. -/
def writeGuard (o : BoardOp) (h : List (Answered (boardSignature H) Exn))
    (c : (boardSignature H).Call) : Prop :=
  (commits h = [] ∨ ∃ taskId requestedBy, o = .complete taskId requestedBy) ∧ writes o h c

/-- Written once when it returns, and not at all when it raises. -/
def Written {α : Type} (h : List (Answered (boardSignature H) Exn)) (r : Except Exn α) : Prop :=
  (∀ v, r = .ok v → ∃ task, commits h = [task]) ∧ ∀ e, r = .error e → commits h = []

section Guard

variable {o : BoardOp} {h : List (Answered (boardSignature H) Exn)}

theorem Written.raised {α : Type} {e : Exn} (hnone : commits h = []) :
    Written h (.error e : Except Exn α) :=
  ⟨fun _ hv => (by cases hv), fun _ _ => hnone⟩

theorem requireTask_reads (taskId : String) (hnone : commits h = []) :
    (requireTask H taskId).Ensures (writeGuard o) (fun h' r =>
      (∀ task, r = .ok task → h' = h ++ [.ok (.inl (.getById taskId)) (some task)]) ∧
        ∀ e, r = .error e → commits h' = []) h := by
  refine (Program.ensures_perform_bind _ _).mpr
    ⟨⟨.inl hnone, trivial⟩, fun read => ?_, fun e => ?_⟩
  · obtain _ | read := read
    · exact ⟨fun task htask => (by cases htask), fun e _ => by rw [commits_append, hnone]; rfl⟩
    · exact ⟨fun task htask => (by cases htask; rfl), fun e he => (by cases he)⟩
  · exact ⟨fun task htask => (by cases htask), fun e _ => by rw [commits_append, hnone]; rfl⟩

theorem storeTask_writes {updated : OrchestrationTask} {expected : OrchestrationTaskStatus}
    (hguard : writes (H := H) o h (.inl (.casSave updated expected))) (hnone : commits h = [])
    (conflict : String) :
    (storeTask H updated expected conflict).Ensures (writeGuard o) Written h := by
  refine (Program.ensures_perform_bind _ _).mpr ⟨⟨.inl hnone, hguard⟩, fun stored => ?_, fun e => ?_⟩
  · obtain _ | _ := stored
    · exact .raised (by rw [commits_append, hnone]; rfl)
    · refine ⟨fun _ _ => ⟨updated, by rw [commits_append, hnone]; rfl⟩, fun e he => (by cases he)⟩
  · exact .raised (by rw [commits_append, hnone]; rfl)

/-- The common end of the operations: read the clock, replace the columns, write the row back. -/
theorem writeBack_writes {taskId : String} {read : OrchestrationTask}
    {fields : Int → OrchestrationTaskFields} {p : BoardProgram H OrchestrationTask}
    {conflict : String} (htask : o.taskId = some taskId)
    (hread : .ok (.inl (.getById taskId)) (some read) ∈ h) (hnone : commits h = [])
    (happlied : ∀ now, o.applied now read.val = some (fields now))
    (hnow : ∀ now, (fields now).updatedAt = now)
    (hp : p = nowMs >>= fun now => replaceTask H (fields now) >>= fun updated =>
      storeTask H updated read.val.status conflict) :
    p.Ensures (writeGuard o) Written h := by
  subst hp
  have hnone' : ∀ a : Answered (boardSignature H) Exn, committed a = none →
      commits (h ++ [a]) = [] := by
    intro a ha
    rw [commits_append, hnone, commits, List.filterMap_cons_none ha]
    rfl
  refine (Program.ensures_perform_bind _ _).mpr ⟨⟨.inl hnone, trivial⟩, fun (now : Int) => ?_,
    fun e => .raised (hnone' _ rfl)⟩
  refine (Program.ensures_ofExcept_bind _ _).mpr ⟨fun updated hupdated => ?_,
    fun e _ => .raised (hnone' _ rfl)⟩
  refine storeTask_writes ⟨taskId, read, htask, List.mem_append_left _ hread, rfl, ?_⟩
    (hnone' _ rfl) conflict
  rw [construct_eq_ok.mp hupdated, hnow, happlied]

theorem validateTransition_ok {task : OrchestrationTask} {target : OrchestrationTaskStatus}
    (h : validateTransition task target = .ok ()) : target ∈ task.val.status.transitions := by
  unfold validateTransition require at h
  split_ifs at h with hallowed
  · simpa [OrchestrationTask.canTransitionTo] using hallowed

theorem transition_writes {taskId : String} {target : OrchestrationTaskStatus}
    {fields : OrchestrationTask → Int → OrchestrationTaskFields} {conflict : String}
    (htask : o.taskId = some taskId)
    (happlied : ∀ (read : OrchestrationTask) now, target ∈ read.val.status.transitions →
      o.applied now read.val = some (fields read now))
    (hnow : ∀ read now, (fields read now).updatedAt = now) :
    (do
      let task ← requireTask H taskId
      .ofExcept (validateTransition task target)
      let now ← nowMs
      let updated ← replaceTask H (fields task now)
      storeTask H updated task.val.status conflict :
        BoardProgram H OrchestrationTask).Ensures (writeGuard o) Written [] := by
  refine (requireTask_reads taskId rfl).bind (fun h task hread => ?_) fun h e he => .raised (he.2 e rfl)
  obtain rfl := hread.1 task rfl
  refine (Program.ensures_ofExcept_bind _ _).mpr ⟨fun _ hallowed => ?_, fun e _ => .raised rfl⟩
  exact writeBack_writes htask (by simp) rfl
    (fun now => happlied task now (validateTransition_ok hallowed)) (hnow task) rfl

theorem submitPlan_writes (taskId planText : String) (requestedBy : Option String) :
    (submitPlan H taskId planText requestedBy).Ensures
      (writeGuard (.submitPlan taskId planText requestedBy)) Written [] :=
  transition_writes rfl (fun _ _ hallowed => if_pos hallowed) fun _ _ => rfl

theorem approve_writes (taskId approvedBy : String) (requestedBy : Option String) :
    (approve H taskId approvedBy requestedBy).Ensures
      (writeGuard (.approve taskId approvedBy requestedBy)) Written [] :=
  transition_writes rfl (fun _ _ hallowed => if_pos hallowed) fun _ _ => rfl

theorem reject_writes (taskId : String) (requestedBy : Option String) :
    (reject H taskId requestedBy).Ensures (writeGuard (.reject taskId requestedBy)) Written [] :=
  transition_writes rfl (fun _ _ hallowed => if_pos hallowed) fun _ _ => rfl

theorem delete_writes (taskId : String) (requestedBy : Option String) :
    (TaskBoard.delete H taskId requestedBy).Ensures (writeGuard (.delete taskId requestedBy))
      Written [] :=
  transition_writes rfl (fun _ _ hallowed => if_pos hallowed) fun _ _ => rfl

theorem update_writes (taskId : String) (subject description owner : Option (Option String)) :
    (update H taskId subject description owner).Ensures
      (writeGuard (.update taskId subject description owner)) Written [] := by
  refine (requireTask_reads taskId rfl).bind (fun h task hread => ?_) fun h e he => .raised (he.2 e rfl)
  obtain rfl := hread.1 task rfl
  split_ifs with hdeleted
  · exact .raised rfl
  obtain _ | _ | subject := subject
  · refine writeBack_writes rfl (by simp) rfl (fun now => ?_) (fun now => rfl) rfl
    exact if_neg (by simp [hdeleted])
  · refine (Program.ensures_perform_bind _ _).mpr
      ⟨⟨.inl rfl, trivial⟩, fun now => ?_, fun e => .raised rfl⟩
    exact .raised rfl
  · refine writeBack_writes rfl (by simp) rfl (fun now => ?_) (fun now => rfl) rfl
    exact if_neg (by simp [hdeleted])

theorem requireSealed_writes_none (task : OrchestrationTask) (taskId : String) :
    (requireSealed H true task taskId).OnlyCalls
      fun c : TaskCall ⊕ FpelCall H => ∃ c', c = .inr c' ∧ savesRow c' = false := by
  refine .bind (.ofExcept _) fun hash => .bind ?_ fun decision => ?_
  · exact .lift ((checkSealed_saves_none taskId (some hash)).mono fun c hc => ⟨c, rfl, hc⟩)
  · split_ifs <;> trivial

theorem start_writes (taskId owner : String) (requestedBy : Option String) :
    (TaskBoard.start H true taskId owner requestedBy).Ensures
      (writeGuard (.start taskId owner requestedBy)) Written [] := by
  refine (requireTask_reads taskId rfl).bind (fun h task hread => ?_) fun h e he => .raised (he.2 e rfl)
  obtain rfl := hread.1 task rfl
  split_ifs with hblocked
  · exact .raised rfl
  refine (Program.ensures_ofExcept_bind _ _).mpr ⟨fun _ hallowed => ?_, fun e _ => .raised rfl⟩
  have hfree : task.val.blockedBy = [] := by
    simpa [OrchestrationTask.isBlocked] using hblocked
  refine ((requireSealed_writes_none task taskId).keeps (K := fun h' => commits h' = [] ∧
    .ok (.inl (.getById taskId)) (some task) ∈ h') ?_ ?_ ⟨rfl, by simp⟩).bind
      (fun h' _ hkept => ?_) fun h' e hkept => .raised hkept.1
  · rintro h' ⟨c, r⟩ ⟨c', rfl, -⟩ ⟨hnone, hmem⟩
    refine ⟨?_, List.mem_append_left _ hmem⟩
    rw [commits_append, hnone]
    rfl
  · rintro h' c hkept ⟨c', rfl, hc⟩
    exact ⟨.inl hkept.1, .inr hc⟩
  · refine writeBack_writes rfl hkept.2 hkept.1 (fun now => ?_) (fun now => rfl) rfl
    exact if_pos ⟨hfree, validateTransition_ok hallowed⟩

theorem retry_writes (taskId : String) :
    (retry H taskId).Ensures (writeGuard (.retry taskId)) Written [] := by
  refine (requireTask_reads taskId rfl).bind (fun h task hread => ?_) fun h e he => .raised (he.2 e rfl)
  obtain rfl := hread.1 task rfl
  split_ifs with hallowed
  · refine (Program.ensures_ofExcept_bind _ _).mpr ⟨fun updated hupdated => ?_, fun e _ => .raised rfl⟩
    refine storeTask_writes ⟨taskId, task, rfl, by simp, rfl, ?_⟩ rfl _
    rw [construct_eq_ok.mp hupdated]
    exact if_pos (by simpa [OrchestrationTask.canTransitionTo] using hallowed)
  · exact .raised rfl

theorem create_writes (subject : String) (description owner : Option String) :
    (create H subject description owner).Ensures (writeGuard (.create subject description owner))
      Written [] := by
  refine (Program.ensures_perform_bind _ _).mpr
    ⟨⟨.inl rfl, trivial⟩, fun now => ?_, fun e => .raised rfl⟩
  refine (Program.ensures_perform_bind _ _).mpr
    ⟨⟨.inl rfl, trivial⟩, fun id => ?_, fun e => .raised rfl⟩
  refine (Program.ensures_ofExcept_bind _ _).mpr ⟨fun task htask => ?_, fun e _ => .raised rfl⟩
  refine (Program.ensures_perform_bind _ _).mpr
    ⟨⟨.inl rfl, ⟨_, _, _, rfl⟩, ?_⟩, fun _ => ?_, fun e => .raised rfl⟩
  · rw [construct_eq_ok.mp htask]
  · exact ⟨fun _ _ => ⟨task, rfl⟩, fun e he => (by cases he)⟩

theorem resolveBlockers_writes_none (taskId : String) :
    (resolveBlockers H taskId).OnlyCalls fun c : TaskCall ⊕ FpelCall H =>
      c = .inl .listBlocked ∨ ∃ ids, c = .inl (.getByIds ids) := by
  refine .bind (.perform (.inl rfl)) fun candidates => ?_
  induction candidates with
  | nil => trivial
  | cons candidate rest ih =>
    unfold unblockedBy
    split_ifs
    · exact .bind (.perform (.inr ⟨_, rfl⟩)) fun blockers => .bind ih fun unblocked => trivial
    · exact ih

/-- The resolution of the blockers can still fail after the task is written. -/
theorem complete_writes (taskId : String) (requestedBy : Option String) :
    (complete H taskId requestedBy).Ensures (writeGuard (.complete taskId requestedBy))
      (fun h r => ∀ v, r = .ok v → ∃ task, commits h = [task]) [] := by
  have hstore : (do
      let task ← requireTask H taskId
      .ofExcept (validateTransition task .completed)
      let now ← nowMs
      let updated ← replaceTask H
        { task.val with status := .completed, updatedAt := now, requestedBy }
      storeTask H updated task.val.status modifiedConcurrently :
        BoardProgram H OrchestrationTask).Ensures (writeGuard (.complete taskId requestedBy))
          Written [] :=
    transition_writes rfl (fun _ _ hallowed => if_pos hallowed) fun _ _ => rfl
  have hresolve : ∀ (h : List (Answered (boardSignature H) Exn)) (updated : OrchestrationTask),
      (∃ task, commits h = [task]) →
      (resolveBlockers H taskId >>= fun _ => (pure updated : BoardProgram H _)).Ensures
        (writeGuard (.complete taskId requestedBy))
        (fun h r => ∀ v, r = .ok v → ∃ task, commits h = [task]) h := by
    intro h updated hwritten
    refine ((resolveBlockers_writes_none taskId).keeps
      (K := fun h' => ∃ task, commits h' = [task]) ?_ ?_ hwritten).bind
      (fun h' _ hkept _ _ => hkept) fun h' e _ v hv => (by cases hv)
    · rintro h' ⟨c, r⟩ hc ⟨task, htask⟩
      refine ⟨task, ?_⟩
      rw [commits_append, htask]
      obtain rfl | ⟨ids, rfl⟩ := hc <;> rfl
    · rintro h' c - (rfl | ⟨ids, rfl⟩) <;> exact ⟨.inr ⟨_, _, rfl⟩, trivial⟩
  have hcomplete := hstore.bind (fun h updated hwritten => hresolve h updated (hwritten.1 _ rfl))
    fun h e _ v hv => (by cases hv)
  simp only [Program.bind_assoc] at hcomplete
  exact hcomplete

/-- What is known of the calls of an operation that has ended; `complete` may raise after it has
written. -/
def outcome (o : BoardOp) (h : List (Answered (boardSignature H) Exn))
    (r : Except Exn (o.Result H)) : Prop :=
  match o with
  | .fpel _ => commits h = []
  | .complete .. => ∀ v, r = .ok v → ∃ task, commits h = [task]
  | _ => Written h r

theorem outcome_error {o : BoardOp} {h : List (Answered (boardSignature H) Exn)} {e : Exn}
    (ho : ∀ taskId requestedBy, o ≠ .complete taskId requestedBy) (hout : outcome o h (.error e)) :
    commits h = [] := by
  cases o with
  | fpel op => exact hout
  | complete taskId requestedBy => exact absurd rfl (ho taskId requestedBy)
  | _ => exact hout.2 e rfl

theorem outcome_ok {o : BoardOp} {h : List (Answered (boardSignature H) Exn)} {v : o.Result H}
    (ho : ∀ op, o ≠ .fpel op) (hout : outcome o h (.ok v)) : ∃ task, commits h = [task] := by
  cases o with
  | fpel op => exact absurd rfl (ho op)
  | complete taskId requestedBy => exact hout v rfl
  | _ => exact hout.1 v rfl

theorem program_writes (o : BoardOp) :
    (o.program H).Ensures (writeGuard o) (outcome o) [] := by
  cases o with
  | create subject description owner => exact create_writes subject description owner
  | update taskId subject description owner => exact update_writes taskId subject description owner
  | submitPlan taskId planText requestedBy => exact submitPlan_writes taskId planText requestedBy
  | approve taskId approvedBy requestedBy => exact approve_writes taskId approvedBy requestedBy
  | reject taskId requestedBy => exact reject_writes taskId requestedBy
  | start taskId owner requestedBy => exact start_writes taskId owner requestedBy
  | complete taskId requestedBy => exact complete_writes taskId requestedBy
  | retry taskId => exact retry_writes taskId
  | delete taskId requestedBy => exact delete_writes taskId requestedBy
  | fpel op =>
    refine ((Program.onlyCalls_lift (op.program H)).keeps (K := fun h => commits h = []) ?_ ?_
      rfl).mono (fun _ _ hc => hc) fun _ _ hnone => hnone
    · rintro h ⟨c, r⟩ ⟨c', rfl⟩ hnone
      rw [commits_append, hnone]
      rfl
    · rintro h c hnone ⟨c', rfl⟩
      exact ⟨.inl hnone, .inl ⟨op, rfl⟩⟩

end Guard

section Rows

variable {s s' : TaskStore × FpelStore} {a : Answered (boardSignature H) Exn}

theorem tasks_eq_of_committed_none (h : (boardSystem H).step a s s') (ha : committed a = none) :
    s'.1 = s.1 := by
  obtain ⟨c | c, r⟩ := a
  swap
  · exact h.2
  rcases h.1 with h | ⟨h, -⟩
  swap
  · exact h
  cases c with
  | save task =>
    have hr : r = .ok () := h.1
    subst hr
    cases ha
  | casSave task expected =>
    have hr : r = .ok (s.1.orchestrationTasks.any (TaskStore.guarded task expected)) := h.1
    subst hr
    rw [h.2]
    apply TaskStore.casSave_of_refused
    cases hany : s.1.orchestrationTasks.any (TaskStore.guarded task expected)
    · rfl
    · rw [hany] at ha
      cases ha
  | _ => exact h.1

/-- A write replaces the row of its task and no other. -/
theorem row_of_committed (hs : s.1.Keyed) (h : (boardSystem H).step a s s')
    {task : OrchestrationTask} (ha : committed a = some task) (taskId : String) :
    s'.1.row taskId = if task.val.id = taskId then some task else s.1.row taskId := by
  obtain ⟨c | c, r⟩ := a
  swap
  · cases ha
  rcases h.1 with h | ⟨-, m, hm⟩
  swap
  · obtain ⟨e, rfl⟩ : ∃ e, r = .error e := ⟨_, hm⟩
    cases c <;> cases ha
  cases c with
  | save t =>
    have hr : r = .ok () := h.1
    subst hr
    cases ha
    rw [h.2]
    exact hs.row_save task taskId
  | casSave t expected =>
    have hr : r = .ok (s.1.orchestrationTasks.any (TaskStore.guarded t expected)) := h.1
    subst hr
    cases hany : s.1.orchestrationTasks.any (TaskStore.guarded t expected)
    · rw [hany] at ha
      cases ha
    · rw [hany] at ha
      cases ha
      rw [h.2]
      exact hs.row_casSave hany taskId
  | _ => cases ha

theorem row_of_casSave (hs : s.1.Keyed) {task : OrchestrationTask}
    {expected : OrchestrationTaskStatus}
    (h : (boardSystem H).step (.ok (.inl (.casSave task expected)) true) s s') :
    ∃ old, s.1.row task.val.id = some old ∧ old.val.status = expected := by
  obtain ⟨hany, -⟩ := casSave_ok h.1
  obtain ⟨old, hold, hguarded⟩ := List.any_eq_true.mp hany.symm
  obtain ⟨hid, hstatus⟩ := TaskStore.guarded_iff.mp hguarded
  exact ⟨old, hs.row_eq_some.mpr ⟨hold, hid⟩, hstatus⟩

end Rows

section Run

variable {tr : List (boardSystem H).Event} {cfg : (boardSystem H).Config}

theorem board_keyed (run : (boardSystem H).Run tr cfg) : cfg.store.1.Keyed := by
  refine run.invariant (I := fun s => s.1.Keyed) ?_ ?_ ?_
  · rintro s rfl
    exact .nil _
  · intro e he hs
    have hstep := run.step_of_mem he
    obtain ⟨i, o, ⟨c | c, r⟩, s, s'⟩ := e
    · exact hs.step hstep.1
    · rw [hstep.2]
      exact hs
  · rintro s s' hs ⟨htasks, -⟩
    rw [htasks]
    exact hs

theorem BoardOp.applied_id {o : BoardOp} {now : Int} {row fields : OrchestrationTaskFields}
    (h : o.applied now row = some fields) : fields.id = row.id := by
  cases o with
  | create => cases h
  | fpel => cases h
  | _ =>
    simp only [BoardOp.applied] at h
    split_ifs at h
    cases h
    rfl

/-- An event of an operation that writes back the row of its task: it had read `read` in some
earlier store and finds `old`, of the same status, in its place. -/
structure WritesBack (pre : List (boardSystem H).Event) (e : (boardSystem H).Event)
    (read old task : OrchestrationTask) : Prop where
  taskId : e.op.taskId = some task.val.id
  answered : e.answered = .ok (.inl (.casSave task read.val.status)) true
  history : .ok (.inl (.getById task.val.id)) (some read) ∈ System.Run.history e.caller pre
  readFrom : ∃ d ∈ pre, d.before.1.row task.val.id = some read
  found : e.before.1.row task.val.id = some old
  status : old.val.status = read.val.status
  applied : e.op.applied task.val.updatedAt read.val = some task.val

/-- A write creates its task or writes it back. -/
theorem committed_cases (run : (boardSystem H).Run tr cfg) {pre post : List (boardSystem H).Event}
    {e : (boardSystem H).Event} (htr : tr = pre ++ e :: post) {task : OrchestrationTask}
    (he : committed e.answered = some task) :
    ((∃ subject description owner, e.op = .create subject description owner) ∧
      task.val.status = .pending) ∨ ∃ read old, WritesBack pre e read old task := by
  have hguard := (run.ensures_event htr (program_writes e.op)).2
  have hmem : e ∈ tr := by simp [htr]
  have hstep := run.step_of_mem hmem
  obtain ⟨pre', ss, hbefore⟩ := run.reaches_before hmem
  have hkeyed := board_keyed hbefore
  obtain ⟨i, o, ⟨c | c, r⟩, s, s'⟩ := e
  swap
  · cases he
  cases c with
  | save t =>
    obtain e | u := r
    · cases he
    · cases he
      exact .inl hguard
  | casSave t expected =>
    obtain e | stored := r
    · cases he
    · obtain _ | _ := stored
      · cases he
      · cases he
        obtain ⟨taskId, read, htask, hread, hexpected, happlied⟩ := hguard
        obtain ⟨d, hd, hdanswered⟩ := List.mem_map.mp hread
        obtain ⟨hdpre, -⟩ := System.Run.mem_own.mp hd
        have hdmem : d ∈ tr := by simp [htr, hdpre]
        have hdstep := run.step_of_mem hdmem
        rw [hdanswered] at hdstep
        obtain ⟨-, hreadmem, hreadid⟩ := getById_ok hdstep.1
        obtain ⟨pre'', ss', hdbefore⟩ := run.reaches_before hdmem
        have hid : task.val.id = taskId := by rw [BoardOp.applied_id happlied, hreadid]
        obtain ⟨old, hold, hstatus⟩ := row_of_casSave hkeyed hstep
        refine .inr ⟨read, old, ?_⟩
        subst hid
        exact ⟨htask, by rw [hexpected], hread,
          ⟨d, hdpre, (board_keyed hdbefore).row_eq_some.mpr ⟨hreadmem, hreadid⟩⟩, hold,
          by rw [hstatus, hexpected], happlied⟩
  | _ => cases he

end Run

end ForkAgent.TaskBoard

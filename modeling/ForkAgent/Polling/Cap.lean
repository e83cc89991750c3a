import ForkAgent.Polling.Served

/-!
# The concurrency cap

A cycle counts the runs that block a launch once and hands out the free slots. Each slot goes to
one approved task that no run blocks, so until its run is recorded the task counts as if it had a
run already; the cap and the one run per task are kept with those reservations included.
-/

namespace ForkAgent.Polling

open Effects Storage Launch

/-- The tasks that some run blocks, one entry for each run. -/
def blockingTasks (s : PollStore) : List String :=
  s.pollRuns.filterMap fun r => if r.status.isLaunchBlocking then some r.taskId else none

/-- There is room for one run of each of these tasks. -/
structure Room (reserved : List String) (cap : Nat) (s : PollStore) : Prop where
  unique : UniqueOn PollStore.runId s.pollRuns
  nodup : (blockingTasks s ++ reserved).Nodup
  length_le : (blockingTasks s ++ reserved).length ≤ cap

theorem filterMap_map_sublist {α β : Type} {g : α → Option β} {f : α → α} {rows : List α}
    (h : ∀ r ∈ rows, ∀ b, g (f r) = some b → g r = some b) :
    ((rows.map f).filterMap g).Sublist (rows.filterMap g) := by
  induction rows with
  | nil => simp
  | cons r rows ih =>
    have hrest := ih fun x hx => h x (List.mem_cons_of_mem _ hx)
    have hr := h r List.mem_cons_self
    rw [List.map_cons]
    cases hf : g (f r) with
    | none =>
      rw [List.filterMap_cons_none hf]
      exact hrest.trans ((List.sublist_cons_self _ _).filterMap g)
    | some b =>
      rw [List.filterMap_cons_some hf, List.filterMap_cons_some (hr b hf)]
      exact hrest.cons_cons b

section Room

variable {reserved : List String} {cap : Nat} {s s' : PollStore}

theorem blockingTasks_evolves {id : String} (h : Evolves id s s')
    (hs : UniqueOn PollStore.runId s.pollRuns) : (blockingTasks s').Sublist (blockingTasks s) := by
  obtain ⟨f, hf, hrows⟩ := h hs
  unfold blockingTasks
  rw [hf]
  refine filterMap_map_sublist fun r hr t ht => ?_
  obtain ⟨-, htask, hadvances, -⟩ := hrows r hr
  split_ifs at ht with hblocking
  rw [if_pos (hadvances.isLaunchBlocking hblocking), ← htask]
  exact ht

theorem Room.sublist (h : Room reserved cap s) (hs' : UniqueOn PollStore.runId s'.pollRuns)
    {reserved' : List String}
    (hsub : (blockingTasks s' ++ reserved').Sublist (blockingTasks s ++ reserved)) :
    Room reserved' cap s' :=
  ⟨hs', h.nodup.sublist hsub, hsub.length_le.trans h.length_le⟩

theorem Room.evolves (h : Room reserved cap s) {id : String} (hevolves : Evolves id s s') :
    Room reserved cap s' :=
  h.sublist (hevolves.unique h.unique)
    ((blockingTasks_evolves hevolves h.unique).append (List.Sublist.refl _))

theorem Room.eq (h : Room reserved cap s) (heq : s' = s) : Room reserved cap s' := by
  rw [heq]
  exact h

theorem Room.cancel (h : Room reserved cap s) {reserved' : List String}
    (hsub : reserved'.Sublist reserved) : Room reserved' cap s :=
  h.sublist h.unique ((List.Sublist.refl _).append hsub)

theorem Room.none (h : Room reserved cap s) : Room [] cap s := h.cancel (List.nil_sublist _)

theorem Room.save {run : PollRun} (h : Room (run.val.taskId :: reserved) cap s) :
    Room reserved cap (s.save run) := by
  refine h.sublist (PollStore.save_unique h.unique run) ?_
  have hrest : (blockingTasks (s.save run)).Sublist (blockingTasks s ++ [run.val.taskId]) := by
    unfold blockingTasks PollStore.save
    rw [List.filterMap_append]
    refine List.Sublist.append (List.filter_sublist.filterMap _) ?_
    rw [List.filterMap_cons]
    split
    · exact List.nil_sublist _
    · next h =>
      split_ifs at h
      cases h
      exact List.Sublist.refl _
  have happend := hrest.append (List.Sublist.refl reserved)
  rwa [List.append_assoc, List.singleton_append] at happend

end Room

variable {H : Fpel.Hashing} {S : Type} {sem : Semantics (worldSignature H) Exn S}
variable {runs : S → PollStore} {cap : Nat} {α : Type}

theorem About.room {i : String} {p : PollingProgram H α} (hp : About sem runs i p) {s : S}
    {reserved : List String} (hs : Room reserved cap (runs s)) :
    p.Always sem (fun s _ => Room [] cap (runs s)) (fun _ s => Room reserved cap (runs s)) s :=
  Program.Respects.always hp s (fun _ _ h => (hs.evolves h).none) fun _ _ h => hs.evolves h

theorem quiet_room (hsem : RunTable sem runs) {p : PollingProgram H α} (hp : p.OnlyCalls Quiet) {s : S}
    {reserved : List String} (hs : Room reserved cap (runs s)) :
    p.Always sem (fun s _ => Room [] cap (runs s)) (fun _ s => Room reserved cap (runs s)) s :=
  (quiet_same hsem hp).always s (fun _ _ h => (hs.eq h).none) fun _ _ h => hs.eq h

section Spawn

variable (hsem : RunTable sem runs) (svc : AgentPollingService)
include hsem

theorem spawnClaimed_room {reserved : List String} {s : S} (runId taskId taskSubject : String)
    (nowMs : Nat) (launchId : Option String) (hs : Room (taskId :: reserved) cap (runs s)) :
    (spawnClaimed svc runId taskId taskSubject nowMs launchId).Always sem
      (fun s _ => Room [] cap (runs s)) (fun _ s => Room reserved cap (runs s)) s := by
  have hfree := hs.cancel (List.sublist_cons_self taskId reserved)
  refine (always_pollCall_bind _ _).mpr ⟨hs.none, fun runDir s₁ h => ?_, fun e s₁ h => ?_⟩
  swap
  · exact hfree.eq (PollStore.step_eq (hsem.poll h) rfl)
  have hs₁ := hs.eq (PollStore.step_eq (hsem.poll h) rfl)
  refine (Program.always_ofExcept_bind _ _).mpr ⟨fun run hrun => ?_, fun e _ => ?_⟩
  swap
  · exact hs₁.cancel (List.sublist_cons_self taskId reserved)
  have htask : run.val.taskId = taskId := by rw [construct_eq_ok.mp hrun]; rfl
  refine (always_pollCall_bind _ _).mpr ⟨hs₁.none, fun _ s₂ hsave => ?_, fun e s₂ hsave => ?_⟩
  swap
  · rcases hsem.poll hsave with ⟨hanswer, -⟩ | ⟨hstore, -⟩
    · cases hanswer
    · exact (hs₁.eq hstore).cancel (List.sublist_cons_self taskId reserved)
  have hs₂ : Room reserved cap (runs s₂) := by
    rcases hsem.poll hsave with ⟨-, hstore⟩ | ⟨-, m, hm⟩
    · rw [hstore]
      rw [← htask] at hs₁
      exact hs₁.save
    · cases hm
  refine About.room (i := runId) (.bind (.quiet hsem (startTask_quiet svc taskId)) fun refusal => ?_) hs₂
  cases refusal with
  | some message => exact refuseRun_about hsem _ _
  | none => exact spawnStarted_about hsem svc _ _ _ _ _

theorem spawnRun_room {reserved : List String} {s : S} (taskId taskSubject : String)
    (hs : Room (taskId :: reserved) cap (runs s)) :
    (spawnRun svc taskId taskSubject).Always sem (fun s _ => Room [] cap (runs s))
      (fun _ s => Room reserved cap (runs s)) s := by
  have hcancel : ∀ {s}, Room (taskId :: reserved) cap (runs s) → Room reserved cap (runs s) :=
    fun h => h.cancel (List.sublist_cons_self taskId reserved)
  refine (always_pollCall_bind _ _).mpr ⟨hs.none, fun now s₁ h => ?_, fun e s₁ h => ?_⟩
  swap
  · exact hcancel (hs.eq (PollStore.step_eq (hsem.poll h) rfl))
  have hs₁ := hs.eq (PollStore.step_eq (hsem.poll h) rfl)
  refine (always_pollCall_bind _ _).mpr ⟨hs₁.none, fun runId s₂ h => ?_, fun e s₂ h => ?_⟩
  swap
  · exact hcancel (hs₁.eq (PollStore.step_eq (hsem.poll h) rfl))
  have hs₂ := hs₁.eq (PollStore.step_eq (hsem.poll h) rfl)
  split_ifs
  swap
  · exact spawnClaimed_room hsem svc _ _ _ _ _ hs₂
  have hrequest := quiet_room hsem (launches_quiet (requestLaunch (launchRequest svc taskId))) hs₂
  refine hrequest.bind (fun attempt s₃ hs₃ => ?_) fun _ _ h => hcancel h
  split_ifs
  · exact spawnClaimed_room hsem svc _ _ _ _ _ hs₃
  refine (Program.always_ofExcept_bind _ _).mpr ⟨fun run hrun => ?_, fun e _ => hcancel hs₃⟩
  have htask : run.val.taskId = taskId := by rw [construct_eq_ok.mp hrun]; rfl
  refine (always_pollCall_bind _ _).mpr ⟨hs₃.none, fun _ s₄ hsave => ?_, fun e s₄ hsave => ?_⟩
  · rcases hsem.poll hsave with ⟨-, hstore⟩ | ⟨-, m, hm⟩
    · rw [← htask] at hs₃
      change Room reserved cap (runs s₄)
      rw [hstore]
      exact hs₃.save
    · cases hm
  · rcases hsem.poll hsave with ⟨hanswer, -⟩ | ⟨hstore, -⟩
    · cases hanswer
    · exact hcancel (hs₃.eq hstore)

theorem spawnEach_room {s : S} (found : List TaskBoard.OrchestrationTask)
    (hs : Room (found.map (·.val.id)) cap (runs s)) :
    (spawnEach svc found).Always sem (fun s _ => Room [] cap (runs s))
      (fun _ s => Room [] cap (runs s)) s := by
  induction found generalizing s with
  | nil => exact hs
  | cons task rest ih =>
    refine (spawnRun_room hsem svc task.val.id task.val.subject hs).bind ?_ fun _ _ h => h.none
    intro run s₁ hs₁
    exact (ih hs₁).bind (fun _ _ h => h) fun _ _ h => h

/-- The candidates are among the approved tasks, and no listed run blocks one. -/
theorem candidates_always {s : S} (ids : List String) (approved : List TaskBoard.OrchestrationTask) :
    (candidates svc ids approved).Always sem (fun s' _ => runs s' = runs s)
      (fun out s' => runs s' = runs s ∧ ∀ found, out = .ok found →
        found.Sublist approved ∧ ∀ t ∈ found, t.val.id ∉ ids) s := by
  induction approved generalizing s with
  | nil =>
    refine ⟨rfl, fun found hfound => ?_⟩
    cases hfound
    simp
  | cons task rest ih =>
    unfold candidates
    split_ifs with hid
    · refine ih.mono (fun _ _ h => h) fun out s' h => ⟨h.1, fun found hfound => ?_⟩
      obtain ⟨hsub, hfree⟩ := h.2 found hfound
      exact ⟨hsub.cons _, hfree⟩
    have hactive := quiet_same hsem (hasActiveLaunch_quiet svc task.val.id (H := H))
    refine Program.Always.bind (hactive s) (fun blocked s₁ h₁ => ?_) fun e s₁ h₁ => ⟨h₁, ?_⟩
    swap
    · intro found hfound
      cases hfound
    refine Program.Always.bind (ih.mono (fun _ _ h => h.trans h₁) fun _ _ h => h) ?_ ?_
    · intro others s₂ h₂
      obtain ⟨hsub, hfree⟩ := h₂.2 others rfl
      refine ⟨h₂.1.trans h₁, fun found hfound => ?_⟩
      cases hfound
      split_ifs
      · exact ⟨hsub.cons _, hfree⟩
      · refine ⟨hsub.cons_cons _, fun t ht => ?_⟩
        rcases List.mem_cons.mp ht with rfl | ht
        · exact hid
        · exact hfree t ht
    · intro e s₂ h₂
      refine ⟨h₂.1.trans h₁, fun found hfound => ?_⟩
      cases hfound

end Spawn

/-- The slots that a cycle hands out. -/
theorem room_of_candidates {s : PollStore} (hs : Room [] cap s) {blocking : List PollRun}
    (hblocking : (blocking.map (·.val)).Perm s.launchBlockingRows)
    {approved found : List TaskBoard.OrchestrationTask} (happroved : (approved.map (·.val.id)).Nodup)
    (hfound : found.Sublist approved)
    (hfree : ∀ t ∈ found, t.val.id ∉ blocking.map (·.val.taskId)) :
    Room ((found.take (cap - blocking.length)).map (·.val.id)) cap s := by
  have htasks : (blocking.map (·.val.taskId)).Perm (blockingTasks s) := by
    have hmap := hblocking.map (·.taskId)
    rw [List.map_map] at hmap
    have hrows : blockingTasks s = s.launchBlockingRows.map (·.taskId) := by
      unfold blockingTasks PollStore.launchBlockingRows
      induction s.pollRuns with
      | nil => rfl
      | cons r rows ih =>
        cases hr : r.status.isLaunchBlocking <;> simp [hr, ih]
    rw [hrows]
    exact hmap
  have hlength : (blockingTasks s).length = blocking.length := by
    rw [← htasks.length_eq, List.length_map]
  have htake := List.take_sublist (cap - blocking.length) found
  have hnodup := hs.nodup
  rw [List.append_nil] at hnodup
  refine ⟨hs.unique, ?_, ?_⟩
  · refine List.nodup_append.mpr ⟨hnodup, happroved.sublist ((htake.trans hfound).map _), ?_⟩
    rintro _ hblocked _ htaken rfl
    obtain ⟨t, ht, rfl⟩ := List.mem_map.mp htaken
    exact hfree t (htake.subset ht) (htasks.mem_iff.mpr hblocked)
  · have hle := hs.length_le
    rw [List.append_nil] at hle
    rw [List.length_append, List.length_map, List.length_take]
    omega

/-- Primary key of the task table. -/
def TaskKeys (w : World) : Prop := UniqueOn (fun t => some t.val.id) w.2.2.1.orchestrationTasks

theorem taskKeys_others {w w' : World} (hw : TaskKeys w) (h : others H w w') : TaskKeys w' := by
  rcases h.2 with ⟨⟨c | c | c, r⟩, hstep⟩ | ⟨-, htasks, -⟩
  · unfold TaskKeys
    rw [hstep.2]
    exact hw
  · exact TaskBoard.TaskStore.Keyed.step hw hstep.1.1
  · unfold TaskKeys
    rw [hstep.1.2]
    exact hw
  · unfold TaskKeys
    rw [htasks]
    exact hw

theorem taskKeys_outside {w w' : World} (hw : TaskKeys w)
    (h : Relation.ReflTransGen (others H) w w') : TaskKeys w' := by
  induction h with
  | refl => exact hw
  | tail _ hstep ih => exact taskKeys_others ih hstep

theorem taskKeys_disturbed {svc : AgentPollingService} {a : Answered (worldSignature H) Exn}
    {w w' : World} (hw : TaskKeys w) (h : (pollingSystem H svc).disturbed a w w') : TaskKeys w' := by
  obtain ⟨w₁, houtside, hstep⟩ := h
  have hw₁ := taskKeys_outside hw houtside
  obtain ⟨c | c | c | c, r⟩ := a
  · unfold TaskKeys
    rw [hstep.2]
    exact hw₁
  · unfold TaskKeys
    rw [hstep.1.2]
    exact hw₁
  · exact TaskBoard.TaskStore.Keyed.step hw₁ hstep.1.1.1
  · unfold TaskKeys
    rw [hstep.1.1.2]
    exact hw₁

variable (svc : AgentPollingService)

/-- The poller's calls, in a world where task ids are unique. -/
def keyedCalls (H : Fpel.Hashing) : Semantics (worldSignature H) Exn World :=
  fun a w w' => TaskKeys w ∧ (pollingSystem H svc).disturbed a w w'

theorem keyedCalls_runTable : RunTable (keyedCalls svc H) (·.1) where
  poll h := RunTable.disturbed.poll h.2
  other h := RunTable.disturbed.other h.2

theorem approved_nodup {w w' : World} {approved : List TaskBoard.OrchestrationTask}
    (h : keyedCalls svc H ⟨.inr (.inr (.inl (.listByStatus .approved))), .ok approved⟩ w w') :
    (approved.map (·.val.id)).Nodup := by
  obtain ⟨hw, w₁, houtside, hstep⟩ := h
  have hw₁ := taskKeys_outside hw houtside
  rcases hstep.1.1.1 with ⟨-, tasks, hanswer, hordered⟩ | ⟨-, m, hm⟩
  swap
  · cases hm
  cases Except.ok.inj hanswer
  refine (hordered.1.map _).nodup_iff.mpr ?_
  refine List.pairwise_map.mpr ((hw₁.filter _).imp fun h hid => ?_)
  exact h _ rfl (by rw [hid])

theorem pollOnce_room {w : World} (hw : Room [] svc.maxConcurrent w.1) :
    (pollOnce svc : PollingProgram H _).Always (keyedCalls svc H)
      (fun w _ => Room [] svc.maxConcurrent w.1) (fun _ w => Room [] svc.maxConcurrent w.1) w := by
  have hsem := keyedCalls_runTable (H := H) svc
  refine (quiet_room hsem (reconcile_quiet svc) hw).bind (fun _ w₁ hw₁ => ?_) fun _ _ h => h
  refine (always_pollCall_bind _ _).mpr ⟨hw₁, fun blocking w₂ hlist => ?_, fun e w₂ h => ?_⟩
  swap
  · exact hw₁.eq (PollStore.step_eq (hsem.poll h) rfl)
  have hw₂ := hw₁.eq (PollStore.step_eq (hsem.poll hlist) rfl)
  have hblocking : (blocking.map (·.val)).Perm w₂.1.launchBlockingRows := by
    rcases hsem.poll hlist with ⟨hstore, rows, hordered, hanswer⟩ | ⟨-, m, hm⟩
    · rw [hstore, listMapM_construct_eq_ok hanswer.symm]
      exact hordered.1
    · cases hm
  dsimp only
  split_ifs
  · exact hw₂
  refine ⟨hw₂, fun r w₃ hlisted => ?_⟩
  have hruns : w₃.1 = w₂.1 := hsem.other hlisted
  obtain e | approved := r
  · exact hw₂.eq hruns
  have happroved := approved_nodup svc hlisted
  have hfound := candidates_always hsem svc (s := w₃) (blocking.map (·.val.taskId)) approved
  change (candidates svc _ approved >>= fun found =>
    spawnEach svc (found.take (svc.maxConcurrent - blocking.length))).Always _ _ _ w₃
  refine Program.Always.bind (hfound.mono (fun w' _ h => hw₂.eq (h.trans hruns)) fun _ _ h => h) ?_ ?_
  · intro found w₄ h₄
    obtain ⟨hsub, hfree⟩ := h₄.2 found rfl
    refine spawnEach_room hsem svc _ ?_
    rw [h₄.1, hruns]
    exact room_of_candidates hw₂ hblocking happroved hsub hfree
  · exact fun e w₄ h₄ => hw₂.eq (h₄.1.trans hruns)

theorem checkRuns_room {w : World} (hw : Room [] svc.maxConcurrent w.1) :
    (checkRuns svc : PollingProgram H _).Always (keyedCalls svc H)
      (fun w _ => Room [] svc.maxConcurrent w.1) (fun _ w => Room [] svc.maxConcurrent w.1) w := by
  have hsem := keyedCalls_runTable (H := H) svc
  refine (always_pollCall_bind _ _).mpr ⟨hw, fun active w₁ h => ?_, fun e w₁ h => ?_⟩
  swap
  · exact hw.eq (PollStore.step_eq (hsem.poll h) rfl)
  have hw₁ := hw.eq (PollStore.step_eq (hsem.poll h) rfl)
  clear h
  induction active generalizing w₁ with
  | nil => exact hw₁
  | cons run rest ih =>
    refine ((checkRun_about hsem svc run).room hw₁).bind (fun _ w₂ hw₂ => ?_) fun _ _ h => h
    exact (ih w₂ hw₂).bind (fun _ _ h => h) fun _ _ h => h

/-- The keys of the two tables and the room in the first, in every world that the poller reaches. -/
theorem serial_room {svc : AgentPollingService} {w : World} (hw : (pollingSystem H svc).Serial w) :
    TaskKeys w ∧ Room [] svc.maxConcurrent w.1 := by
  refine hw.invariant (I := fun w => TaskKeys w ∧ Room [] svc.maxConcurrent w.1) ?_ ?_ ?_
  · rintro _ rfl
    exact ⟨.nil _, .nil _, .nil, Nat.zero_le _⟩
  · rintro w w' ⟨htasks, hroom⟩ hothers
    exact ⟨taskKeys_others htasks hothers, hroom.eq hothers.1⟩
  · rintro o w ⟨htasks, hroom⟩
    refine Program.Always.of_kept (fun _ _ _ => taskKeys_disturbed) htasks ?_
    cases o with
    | pollOnce => exact pollOnce_room svc hroom
    | checkRuns => exact checkRuns_room svc hroom
    | cancelRun runId => exact (cancelRun_about (keyedCalls_runTable svc)).room hroom

/-- The cap and one run per task: whatever one poller does, whichever of its operations are broken
off and whatever other services do in between, no more runs block a launch than the cap allows,
and no task has two of them. -/
theorem cap_and_one_run_per_task {w : World} (hw : (pollingSystem H svc).Serial w) :
    (w.1.pollRuns.filter fun r => r.status.isLaunchBlocking).length ≤ svc.maxConcurrent ∧
      UniqueOn (fun r => if r.status.isLaunchBlocking then some r.taskId else none) w.1.pollRuns := by
  obtain ⟨-, hroom⟩ := serial_room hw
  have hlength := hroom.length_le
  have hnodup := hroom.nodup
  rw [List.append_nil] at hlength hnodup
  refine ⟨?_, .of_nodup hnodup⟩
  have hrows : (blockingTasks w.1).length =
      (w.1.pollRuns.filter fun r => r.status.isLaunchBlocking).length := by
    unfold blockingTasks
    rw [List.length_filterMap_eq_countP, List.countP_eq_length_filter]
    congr 2
    funext r
    cases r.status.isLaunchBlocking <;> rfl
  omega

/-- The world after a cycle that has spawned an agent. -/
theorem cap_and_one_run_per_task_spawned :
    ∃ w : World, w.1.pollRuns.map (·.status) = [.running] ∧
      (w.1.pollRuns.filter fun r => r.status.isLaunchBlocking).length ≤ plainService.maxConcurrent ∧
      UniqueOn (fun r => if r.status.isLaunchBlocking then some r.taskId else none) w.1.pollRuns := by
  obtain ⟨out, answers, w, hexec, hstatus⟩ := pollOnce_spawns
  have hw := serial_of_exec (serial_approvedWorld plainHashing plainService) hexec
  exact ⟨w, hstatus, cap_and_one_run_per_task plainService hw⟩

end ForkAgent.Polling

import ForkAgent.TaskBoard.Served
import ForkAgent.TaskBoard.Writes

/-!
# Replaying the task board

The calls that returned, applied one after another in the order in which they wrote, to the row
that the one before left. A call writes what it makes of the row it read, so the table agrees with
the replay as long as it would have made the same of the row it replaces.
-/

namespace ForkAgent.TaskBoard

open Effects Storage Fpel

variable {H : Hashing} {tr : List (boardSystem H).Event} {cfg : (boardSystem H).Config}

/-- One call of the replay; `create` brings its own row, and `updatedAt` is the time that the call
has read. -/
def replayStep (taskId : String) (row : Option OrchestrationTaskFields)
    (e : (boardSystem H).Event) : Option OrchestrationTaskFields :=
  match committed e.answered with
  | none => row
  | some task =>
    if task.val.id = taskId then
      match e.op with
      | .create .. => some task.val
      | o => row.bind fun r => o.applied task.val.updatedAt r
    else row

def replay (taskId : String) (tr : List (boardSystem H).Event) : Option OrchestrationTaskFields :=
  tr.foldl (replayStep taskId) none

/-- The call of the caller has returned. -/
def returned (cfg : (boardSystem H).Config) (i : Nat) : Bool :=
  match cfg.sessions i with
  | some ⟨_, .ret _⟩ => true
  | _ => false

/-- An operation makes of the row it replaces what it makes of the row it has read: the two agree
on every column that it carries over. -/
def CarriesOver (pre : List (boardSystem H).Event) (e : (boardSystem H).Event) : Prop :=
  ∀ taskId read old, e.op.taskId = some taskId →
    .ok (.inl (.getById taskId)) (some read) ∈ System.Run.history e.caller pre →
    e.before.1.row taskId = some old →
    ∀ now, e.op.applied now old.val = e.op.applied now read.val

theorem replayStep_of_none {taskId : String} {row : Option OrchestrationTaskFields}
    {e : (boardSystem H).Event} (h : committed e.answered = none) :
    replayStep taskId row e = row := by
  simp [replayStep, h]

theorem replayStep_of_taskId {taskId : String} {row : Option OrchestrationTaskFields}
    {e : (boardSystem H).Event} {task : OrchestrationTask} (h : committed e.answered = some task)
    (hop : e.op.taskId = some taskId) (hid : task.val.id = taskId) :
    replayStep taskId row e = row.bind fun r => e.op.applied task.val.updatedAt r := by
  obtain ⟨i, o, a, s, s'⟩ := e
  simp only [replayStep, h, hid, if_true]
  cases o with
  | create => cases hop
  | fpel => cases hop
  | _ => rfl

theorem replay_filter {taskId : String} {p : (boardSystem H).Event → Bool}
    (h : ∀ e ∈ tr, (committed e.answered).isSome = true → p e = true)
    (row : Option OrchestrationTaskFields) :
    (tr.filter p).foldl (replayStep taskId) row = tr.foldl (replayStep taskId) row := by
  induction tr generalizing row with
  | nil => rfl
  | cons e tr ih =>
    have hrest := ih fun d hd => h d (List.mem_cons_of_mem _ hd)
    cases hp : p e with
    | true => rw [List.filter_cons_of_pos hp, List.foldl_cons, List.foldl_cons, hrest]
    | false =>
      have hnone : committed e.answered = none := by
        by_contra hsome
        have := h e List.mem_cons_self (Option.isSome_iff_ne_none.mpr hsome)
        rw [hp] at this
        cases this
      rw [List.filter_cons_of_neg (by simp [hp]), List.foldl_cons, replayStep_of_none hnone, hrest]

/-- The table is the replay of all the writes. -/
theorem row_eq_replay (run : (boardSystem H).Run tr cfg)
    (hcarries : ∀ pre e post, tr = pre ++ e :: post → (committed e.answered).isSome = true →
      CarriesOver pre e) (taskId : String) :
    (cfg.store.1.row taskId).map (·.val) = replay taskId tr := by
  induction run with
  | initial h =>
    cases h
    rfl
  | invoke run j fresh o ih => exact ih hcarries
  | @call tr s ss run j o c next running r s' step ih =>
    have hprev := ih fun pre e post h =>
      hcarries pre e (post ++ [_]) (by rw [h, List.append_assoc, List.cons_append])
    have hrun := run.call running step
    have hlast := hcarries tr _ [] rfl
    rw [replay, List.foldl_append, List.foldl_cons, List.foldl_nil, ← replay, ← hprev]
    cases hcommitted : committed ⟨c, r⟩ with
    | none =>
      have hsame : s'.1 = s.1 := tasks_eq_of_committed_none step hcommitted
      rw [replayStep_of_none hcommitted]
      change (s'.1.row taskId).map _ = _
      rw [hsame]
    | some task =>
      have hafter := row_of_committed (board_keyed run) step hcommitted taskId
      change (s'.1.row taskId).map _ = _
      rw [hafter]
      split_ifs with hid
      swap
      · simp [replayStep, hcommitted, hid]
      subst hid
      rcases committed_cases hrun rfl hcommitted with ⟨⟨subject, description, owner, hop⟩, -⟩ |
        ⟨read, old, hback⟩
      · cases hop
        simp [replayStep, hcommitted]
      · have hsame := hlast (by rw [hcommitted]; rfl) _ read old hback.taskId hback.history
          hback.found task.val.updatedAt
        rw [replayStep_of_taskId hcommitted hback.taskId rfl,
          show s.1.row task.val.id = some old from hback.found]
        exact (hsame.trans hback.applied).symm
  | outside run h ih =>
    rw [h.1]
    exact ih hcarries

theorem returned_of_committed (run : (boardSystem H).Run tr cfg) {e : (boardSystem H).Event}
    (he : e ∈ tr) (hcommitted : (committed e.answered).isSome = true)
    (hop : ∀ taskId requestedBy, e.op ≠ .complete taskId requestedBy) :
    returned cfg e.caller = true := by
  have hwritten : commits (System.Run.history e.caller tr) ≠ [] := by
    obtain ⟨task, htask⟩ := Option.isSome_iff_exists.mp hcommitted
    have hanswer : e.answered ∈ System.Run.history e.caller tr :=
      List.mem_map.mpr ⟨e, System.Run.mem_own.mpr ⟨he, rfl⟩, rfl⟩
    exact List.ne_nil_of_mem (List.mem_filterMap.mpr ⟨_, hanswer, htask⟩)
  obtain ⟨p, hp⟩ := run.session_of_mem he
  have hrest := (run.follows hp).ensures (program_writes e.op)
  rw [List.nil_append] at hrest
  unfold returned
  rw [hp]
  cases p with
  | ret v => rfl
  | fail error => exact absurd (outcome_error hop hrest) hwritten
  | call c next =>
    rcases hrest.1.1 with hnone | ⟨taskId, requestedBy, hcomplete⟩
    · exact absurd hnone hwritten
    · exact absurd hcomplete (hop taskId requestedBy)

/-- The row of every task is the result of the calls that returned, in the order in which they
wrote, and each of them wrote once. -/
def NoLostUpdate (tr : List (boardSystem H).Event) (cfg : (boardSystem H).Config) : Prop :=
  (∀ taskId, (cfg.store.1.row taskId).map (·.val) =
    replay taskId (tr.filter fun e => returned cfg e.caller)) ∧
  ∀ i o v, cfg.sessions i = some ⟨o, .ret v⟩ → (∀ op, o ≠ .fpel op) →
    ∃ task, commits (System.Run.history i tr) = [task]

/-- No lost update: it holds in every run in which each write carries over the row it replaces, and
each `complete` that has written has returned. -/
theorem no_lost_update (run : (boardSystem H).Run tr cfg)
    (hcarries : ∀ pre e post, tr = pre ++ e :: post → (committed e.answered).isSome = true →
      CarriesOver pre e)
    (hcomplete : ∀ e ∈ tr, ∀ taskId requestedBy, e.op = .complete taskId requestedBy →
      (committed e.answered).isSome = true → returned cfg e.caller = true) :
    NoLostUpdate tr cfg := by
  refine ⟨fun taskId => ?_, fun i o v hsession hop => ?_⟩
  · rw [row_eq_replay run hcarries, replay, replay, replay_filter]
    intro e he hcommitted
    by_cases hop : ∃ taskId requestedBy, e.op = .complete taskId requestedBy
    · obtain ⟨id, requestedBy, hop⟩ := hop
      exact hcomplete e he id requestedBy hop hcommitted
    · exact returned_of_committed run he hcommitted fun id requestedBy h => hop ⟨id, requestedBy, h⟩
  · exact outcome_ok hop (run.ensures_outcome hsession (program_writes o))

/-- A call carries over the row it replaces when the table is as it was when the call read it. -/
theorem carriesOver_of_undisturbed (run : (boardSystem H).Run tr cfg)
    {pre post : List (boardSystem H).Event} {e : (boardSystem H).Event} (htr : tr = pre ++ e :: post)
    (h : ∀ d ∈ pre, d.caller = e.caller →
      d.before.1.orchestrationTasks = e.before.1.orchestrationTasks) : CarriesOver pre e := by
  intro taskId read old hop hread hold now
  obtain ⟨d, hd, hanswered⟩ := List.mem_map.mp hread
  obtain ⟨hdpre, hcaller⟩ := System.Run.mem_own.mp hd
  have hdmem : d ∈ tr := by simp [htr, hdpre]
  have hdstep := run.step_of_mem hdmem
  rw [hanswered] at hdstep
  obtain ⟨-, hreadmem, hreadid⟩ := getById_ok hdstep.1
  obtain ⟨pre', ss, hbefore⟩ := run.reaches_before (by simp [htr] : e ∈ tr)
  rw [h d hdpre hcaller] at hreadmem
  have hrow : e.before.1.row taskId = some read :=
    (board_keyed hbefore).row_eq_some.mpr ⟨hreadmem, hreadid⟩
  rw [Option.some.inj (hold.symm.trans hrow)]

theorem no_lost_update_plan :
    ∃ tr cfg, (boardSystem planHashing).Run tr cfg ∧ NoLostUpdate tr cfg ∧
      (replay "task-1" (tr.filter fun e => returned cfg e.caller)).map (·.subject) =
        some "renamed" := by
  obtain ⟨tr, cfg, hplay, hsame, hreturned, hreplay⟩ : ∃ tr cfg,
      playBoard (perform 0 (.create "subject" none none) 3 ++
        perform 1 (.update "task-1" (some (some "renamed")) none none) 3) emptyBoard =
          some (tr, cfg) ∧
      (tr.all fun d => tr.all fun e => d.caller != e.caller ||
        d.before.1.orchestrationTasks.map (·.val) == e.before.1.orchestrationTasks.map (·.val)) =
          true ∧
      (tr.all fun e => returned cfg e.caller) = true ∧
      (replay "task-1" (tr.filter fun e => returned cfg e.caller)).map (·.subject) =
        some "renamed" := ⟨_, _, rfl, rfl, rfl, rfl⟩
  have hrun := run_of_play (.initial rfl) hplay
  refine ⟨_, _, hrun, no_lost_update hrun (fun pre e post htr _ => ?_) ?_, hreplay⟩
  · refine carriesOver_of_undisturbed hrun htr fun d hd hcaller => ?_
    rw [List.nil_append] at htr
    have hde := List.all_eq_true.mp (List.all_eq_true.mp hsame d (by simp [htr, hd])) e (by simp [htr])
    simp only [hcaller, bne_self_eq_false, Bool.false_or, beq_iff_eq] at hde
    exact List.map_injective_iff.mpr Subtype.val_injective hde
  · intro e he taskId requestedBy _ _
    exact List.all_eq_true.mp hreturned e (by simpa using he)

/-- Two updates that read the same row: the second to write undoes the first. -/
theorem update_lost : ¬ ∀ tr cfg, (boardSystem planHashing).Run tr cfg → NoLostUpdate tr cfg := by
  intro h
  obtain ⟨tr, cfg, hplay, hrow, hreplay⟩ : ∃ tr cfg,
      playBoard (perform 0 (.create "subject" none none) 3 ++
        invoke 1 (.update "task-1" (some (some "renamed")) none none) ++
        invoke 2 (.update "task-1" none none (some (some "agent"))) ++
        calls 1 2 ++ calls 2 2 ++ calls 1 1 ++ calls 2 1) emptyBoard = some (tr, cfg) ∧
      (cfg.store.1.row "task-1").map (·.val.subject) = some "subject" ∧
      (replay "task-1" (tr.filter fun e => returned cfg e.caller)).map (·.subject) =
        some "renamed" := ⟨_, _, rfl, rfl, rfl⟩
  have hsame := (h _ _ (run_of_play (.initial rfl) hplay)).1 "task-1"
  rw [List.nil_append] at hsame
  rw [← hsame, Option.map_map] at hreplay
  exact absurd (hrow.symm.trans hreplay) (by decide)

end ForkAgent.TaskBoard

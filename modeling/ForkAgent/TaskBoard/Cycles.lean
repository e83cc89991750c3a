import ForkAgent.Graph.DepthFirst
import ForkAgent.TaskBoard.Entity

/-!
# Cycles of blocking tasks

The depth-first search over the tasks of a list. A task that blocks without being on the list is entered as
well, and blocks nothing.
-/

namespace ForkAgent.TaskBoard

open DepthFirst

/-- `index.get(task_id)`: of tasks with one id, the last one counts. -/
def indexed (allTasks : List OrchestrationTask) (taskId : String) : Option OrchestrationTask :=
  allTasks.reverse.find? fun t => t.val.id = taskId

/-- The tasks that a visit goes on to. -/
def blockers (allTasks : List OrchestrationTask) (taskId : String) : List String :=
  ((indexed allTasks taskId).map fun t => t.val.blockedBy).getD []

/-- `OrchestrationTask.detect_cycle`, with a bound on the depth of its recursion. -/
def detectCycle (depth : Nat) (allTasks : List OrchestrationTask) : Option Bool :=
  search (blockers allTasks) depth (allTasks.map (·.val.id))

/-- The first of two tasks on the list is blocked by the second. -/
def BlockedBy (allTasks : List OrchestrationTask) (a b : String) : Prop :=
  ∃ t ∈ allTasks, ∃ u ∈ allTasks, t.val.id = a ∧ u.val.id = b ∧ b ∈ t.val.blockedBy

section Cycles

variable {allTasks : List OrchestrationTask} {a b : String}

theorem indexed_eq_some (hids : (allTasks.map (·.val.id)).Nodup) {t : OrchestrationTask} :
    indexed allTasks a = some t ↔ t ∈ allTasks ∧ t.val.id = a := by
  constructor
  · intro h
    exact ⟨List.mem_reverse.mp (List.mem_of_find?_eq_some h), by simpa using List.find?_some h⟩
  · intro h
    cases hfound : indexed allTasks a with
    | none =>
      have hnone := List.find?_eq_none.mp hfound t (List.mem_reverse.mpr h.1)
      simp [h.2] at hnone
    | some u =>
      have hu := List.mem_reverse.mp (List.mem_of_find?_eq_some hfound)
      have hid : u.val.id = a := by simpa using List.find?_some hfound
      rw [List.inj_on_of_nodup_map hids hu h.1 (hid.trans h.2.symm)]

theorem edge_blockers (hids : (allTasks.map (·.val.id)).Nodup) :
    Edge (blockers allTasks) a b ↔ ∃ t ∈ allTasks, t.val.id = a ∧ b ∈ t.val.blockedBy := by
  unfold Edge blockers
  cases hindexed : indexed allTasks a with
  | none =>
    constructor
    · intro h
      cases h
    · intro h
      obtain ⟨t, ht, hid, -⟩ := h
      rw [(indexed_eq_some hids).mpr ⟨ht, hid⟩] at hindexed
      cases hindexed
  | some u =>
    have hu := (indexed_eq_some hids).mp hindexed
    constructor
    · intro h
      exact ⟨u, hu.1, hu.2, h⟩
    · intro h
      obtain ⟨t, ht, hid, hmem⟩ := h
      rw [(indexed_eq_some hids).mpr ⟨ht, hid⟩] at hindexed
      cases hindexed
      exact hmem

/-- On the way to a task of the list, every task is on the list: only such tasks have blockers. -/
theorem transGen_blockedBy (hids : (allTasks.map (·.val.id)).Nodup) (hb : b ∈ allTasks.map (·.val.id))
    (h : Relation.TransGen (Edge (blockers allTasks)) a b) : Relation.TransGen (BlockedBy allTasks) a b := by
  induction h using Relation.TransGen.head_induction_on with
  | single hedge =>
    obtain ⟨t, ht, hid, hmem⟩ := (edge_blockers hids).mp hedge
    obtain ⟨u, hu, hidu⟩ := List.mem_map.mp hb
    exact .single ⟨t, ht, u, hu, hid, hidu, hmem⟩
  | head hedge hrest ih =>
    obtain ⟨t, ht, hid, hmem⟩ := (edge_blockers hids).mp hedge
    obtain ⟨c, hnext, -⟩ := Relation.TransGen.head'_iff.mp hrest
    obtain ⟨u, hu, hidu, -⟩ := (edge_blockers hids).mp hnext
    exact .head ⟨t, ht, u, hu, hid, hidu, hmem⟩ ih

theorem mem_of_cycle (hids : (allTasks.map (·.val.id)).Nodup)
    (h : Relation.TransGen (Edge (blockers allTasks)) a a) : a ∈ allTasks.map (·.val.id) := by
  obtain ⟨b, hedge, -⟩ := Relation.TransGen.head'_iff.mp h
  obtain ⟨t, ht, hid, -⟩ := (edge_blockers hids).mp hedge
  exact List.mem_map.mpr ⟨t, ht, hid⟩

/-- The ids that a list of tasks mentions. -/
def mentioned (allTasks : List OrchestrationTask) : List String :=
  allTasks.map (·.val.id) ++ allTasks.flatMap (·.val.blockedBy)

/-- With more depth than ids, the search ends, and its answer is whether there is a cycle. -/
theorem detectCycle_answers (hids : (allTasks.map (·.val.id)).Nodup) {depth : Nat}
    (hdepth : (mentioned allTasks).length < depth) :
    ∃ found, detectCycle depth allTasks = some found ∧
      (found = true ↔ ∃ a, Relation.TransGen (BlockedBy allTasks) a a) := by
  have hroots : ∀ a ∈ allTasks.map (·.val.id), a ∈ mentioned allTasks := by
    intro a ha
    exact List.mem_append_left _ ha
  have hclosed : ∀ a ∈ mentioned allTasks, ∀ b ∈ blockers allTasks a, b ∈ mentioned allTasks := by
    intro a _ b hb
    obtain ⟨t, ht, -, hmem⟩ := (edge_blockers hids).mp hb
    exact List.mem_append_right _ (List.mem_flatMap.mpr ⟨t, ht, hmem⟩)
  have hedges : ∀ {a b}, BlockedBy allTasks a b → Edge (blockers allTasks) a b := by
    intro a b h
    obtain ⟨t, ht, -, -, hid, -, hmem⟩ := h
    exact (edge_blockers hids).mpr ⟨t, ht, hid, hmem⟩
  obtain ⟨found, hfound, htrue, hfalse⟩ := search_eq hroots hclosed hdepth
  refine ⟨found, hfound, ?_⟩
  constructor
  · intro h
    obtain ⟨a, hcycle⟩ := htrue h
    exact ⟨a, transGen_blockedBy hids (mem_of_cycle hids hcycle) hcycle⟩
  · intro h
    obtain ⟨a, hcycle⟩ := h
    have hcycle' := Relation.TransGen.mono (fun a b => hedges) _ _ hcycle
    by_contra hnot
    exact hfalse (by simpa using hnot) a (mem_of_cycle hids hcycle') hcycle'

/-- The search comes to an end, and it finds a cycle exactly where the tasks of the list have one. -/
theorem detectCycle_exact (hids : (allTasks.map (·.val.id)).Nodup) :
    ∃ found bound, (∀ depth, bound ≤ depth → detectCycle depth allTasks = some found) ∧
      (found = true ↔ ∃ a, Relation.TransGen (BlockedBy allTasks) a a) := by
  obtain ⟨found, -, hiff⟩ := detectCycle_answers hids (Nat.lt_succ_self _)
  refine ⟨found, (mentioned allTasks).length + 1, ?_, hiff⟩
  intro depth hdepth
  obtain ⟨found', hfound, hiff'⟩ := detectCycle_answers hids hdepth
  have hsame : found' = found := Bool.eq_iff_iff.mpr (hiff'.trans hiff.symm)
  rw [hfound, hsame]

section Example

/-- Three tasks that wait for each other, and a task that waits for one that is not on the list. -/
def waitingTasks : List OrchestrationTask :=
  [⟨{ id := "a", subject := "plan", blockedBy := ["d", "b"] }, rfl⟩,
    ⟨{ id := "b", subject := "build", blockedBy := ["c"] }, rfl⟩,
    ⟨{ id := "c", subject := "test", blockedBy := ["a"] }, rfl⟩,
    ⟨{ id := "e", subject := "ship", blockedBy := ["f"] }, rfl⟩]

theorem detectCycle_exact_waitingTasks : ∃ found bound,
    (∀ depth, bound ≤ depth → detectCycle depth waitingTasks = some found) ∧
      (found = true ↔ ∃ a, Relation.TransGen (BlockedBy waitingTasks) a a) :=
  detectCycle_exact (by decide)

example : detectCycle 6 waitingTasks = some true := by decide

end Example

end Cycles

end ForkAgent.TaskBoard

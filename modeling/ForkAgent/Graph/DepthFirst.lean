import Mathlib.Data.List.Dedup
import Mathlib.Logic.Relation

/-!
# Cycles by depth-first search

A search that shares what it has visited, and the vertices it is still below, between its roots. A vertex that
has been left lies on no cycle, and so do all that can be reached from it.
-/

namespace DepthFirst

variable {α : Type}

/-- The vertices that have been entered, and those that have not been left yet. -/
structure State (α : Type) where
  visited : List α := []
  stack : List α := []

/-- A loop of visits that ends with the first one that finds a cycle, if every visit ends. -/
def anyOf (visit : α → State α → Option (Bool × State α)) : List α → State α → Option (Bool × State α)
  | [], s => some (false, s)
  | v :: vs, s =>
    match visit v s with
    | none => none
    | some (true, s') => some (true, s')
    | some (false, s') => anyOf visit vs s'

/-- The visit of a vertex, with a bound on the depth of the recursion. -/
def dfs [DecidableEq α] (succ : α → List α) : Nat → α → State α → Option (Bool × State α)
  | 0, _, _ => none
  | depth + 1, v, s =>
    if v ∈ s.stack then some (true, s)
    else if v ∈ s.visited then some (false, s)
    else
      match anyOf (dfs succ depth) (succ v) ⟨v :: s.visited, v :: s.stack⟩ with
      | none => none
      | some (true, s') => some (true, s')
      | some (false, s') => some (false, { s' with stack := s'.stack.erase v })

/-- `w` is a successor of `v`. -/
def Edge (succ : α → List α) (v w : α) : Prop := w ∈ succ v

/-- A vertex that has been left: entered, and not waiting. -/
def State.Left (s : State α) (v : α) : Prop := v ∈ s.visited ∧ v ∉ s.stack

/-- Who waits has been entered; who was left has left successors, and lies on no cycle. -/
structure Explored (succ : α → List α) (s : State α) : Prop where
  entered : ∀ v ∈ s.stack, v ∈ s.visited
  closed : ∀ v, s.Left v → ∀ w ∈ succ v, s.Left w
  acyclic : ∀ v, s.Left v → ¬ Relation.TransGen (Edge succ) v v

/-- What a visit without a cycle does: nobody new waits, and nothing is forgotten. -/
structure Extends (s s' : State α) : Prop where
  stack : s'.stack = s.stack
  visited : ∀ v ∈ s.visited, v ∈ s'.visited

namespace Extends

variable {s s' s'' : State α}

theorem refl (s : State α) : Extends s s := ⟨rfl, fun _ h => h⟩

theorem trans (h : Extends s s') (h' : Extends s' s'') : Extends s s'' :=
  ⟨h'.stack.trans h.stack, fun v hv => h'.visited v (h.visited v hv)⟩

theorem left (h : Extends s s') {v : α} (hv : s.Left v) : s'.Left v := by
  refine ⟨h.visited v hv.1, ?_⟩
  rw [h.stack]
  exact hv.2

end Extends

section Search

variable {succ : α → List α} {depth : Nat} {v : α} {vs : List α} {s s' : State α}
  {visit : α → State α → Option (Bool × State α)}

theorem Explored.left_of_reaches (h : Explored succ s) {w : α} (hv : s.Left v)
    (hreach : Relation.ReflTransGen (Edge succ) v w) : s.Left w := by
  induction hreach with
  | refl => exact hv
  | tail _ hedge ih => exact h.closed _ ih _ hedge

theorem anyOf_false {Q : State α → Prop}
    (hvisit : ∀ v s s', Q s → visit v s = some (false, s') → Q s' ∧ Extends s s' ∧ s'.Left v) (hs : Q s)
    (h : anyOf visit vs s = some (false, s')) : Q s' ∧ Extends s s' ∧ ∀ v ∈ vs, s'.Left v := by
  induction vs generalizing s with
  | nil =>
    cases h
    exact ⟨hs, .refl _, by simp⟩
  | cons v vs ih =>
    rw [anyOf] at h
    cases hv : visit v s with
    | none =>
      rw [hv] at h
      cases h
    | some result =>
      obtain ⟨found, t⟩ := result
      rw [hv] at h
      cases found with
      | true => cases h
      | false =>
        obtain ⟨ht, hext, hleft⟩ := hvisit v s t hs hv
        obtain ⟨hs', hext', hall⟩ := ih ht h
        refine ⟨hs', hext.trans hext', ?_⟩
        rw [List.forall_mem_cons]
        exact ⟨hext'.left hleft, hall⟩

theorem exists_of_anyOf_true (Q : State α → Prop)
    (hvisit : ∀ v s s', Q s → visit v s = some (false, s') → Q s')
    (hs : Q s) (h : anyOf visit vs s = some (true, s')) :
    ∃ v ∈ vs, ∃ t, Q t ∧ visit v t = some (true, s') := by
  induction vs generalizing s with
  | nil => cases h
  | cons v vs ih =>
    rw [anyOf] at h
    cases hv : visit v s with
    | none =>
      rw [hv] at h
      cases h
    | some result =>
      obtain ⟨found, t⟩ := result
      rw [hv] at h
      cases found with
      | true =>
        cases h
        exact ⟨v, by simp, s, hs, hv⟩
      | false =>
        obtain ⟨w, hw, hrest⟩ := ih (hvisit v s t hs hv) h
        exact ⟨w, List.mem_cons_of_mem v hw, hrest⟩

theorem anyOf_isSome (Q : State α → Prop)
    (hvisit : ∀ v s s', Q s → visit v s = some (false, s') → Q s')
    (hsome : ∀ v ∈ vs, ∀ s, Q s → (visit v s).isSome) (hs : Q s) : (anyOf visit vs s).isSome := by
  induction vs generalizing s with
  | nil => rfl
  | cons v vs ih =>
    rw [List.forall_mem_cons] at hsome
    obtain ⟨⟨found, t⟩, hv⟩ := Option.isSome_iff_exists.mp (hsome.1 s hs)
    rw [anyOf, hv]
    cases found with
    | true => rfl
    | false => exact ih hsome.2 (hvisit v s t hs hv)

/-- The vertex is left with what is below it. -/
theorem explored_leave [DecidableEq α] (hv : v ∉ s.stack) {t : State α}
    (ht : Explored succ t) (hext : Extends ⟨v :: s.visited, v :: s.stack⟩ t) (hall : ∀ w ∈ succ v, t.Left w) :
    Explored succ { t with stack := t.stack.erase v } ∧ Extends s { t with stack := t.stack.erase v } ∧
      State.Left { t with stack := t.stack.erase v } v := by
  have hstack : t.stack.erase v = s.stack := by
    rw [hext.stack, List.erase_cons_head]
  have hvisited : v ∈ t.visited := hext.visited v (by simp)
  have hwaits : v ∈ t.stack := by
    rw [hext.stack]
    exact List.mem_cons_self
  have hleft : ∀ w, State.Left { t with stack := t.stack.erase v } w ↔ t.Left w ∨ w = v := by
    intro w
    unfold State.Left
    rw [hstack, hext.stack, List.mem_cons, not_or]
    constructor
    · intro h
      by_cases hw : w = v
      · exact .inr hw
      · exact .inl ⟨h.1, hw, h.2⟩
    · intro h
      cases h with
      | inl h => exact ⟨h.1, h.2.2⟩
      | inr h =>
        rw [h]
        exact ⟨hvisited, hv⟩
  -- A way back to the vertex would start with a successor, which was left before the vertex was.
  have hcycle : ¬ Relation.TransGen (Edge succ) v v := by
    intro hcycle
    obtain ⟨w, hedge, hback⟩ := Relation.TransGen.head'_iff.mp hcycle
    exact (ht.left_of_reaches (hall w hedge) hback).2 hwaits
  refine ⟨⟨?_, ?_, ?_⟩, ⟨hstack, ?_⟩, (hleft v).mpr (.inr rfl)⟩
  · intro w hw
    exact ht.entered w (List.mem_of_mem_erase hw)
  · intro w hw u hu
    rw [hleft] at hw ⊢
    cases hw with
    | inl hw => exact .inl (ht.closed w hw u hu)
    | inr hw => exact .inl (hall u (hw ▸ hu))
  · intro w hw
    rw [hleft] at hw
    cases hw with
    | inl hw => exact ht.acyclic w hw
    | inr hw => exact hw ▸ hcycle
  · intro w hw
    exact hext.visited w (List.mem_cons_of_mem v hw)

theorem explored_enter (hs : Explored succ s) (hv : v ∉ s.visited) :
    Explored succ ⟨v :: s.visited, v :: s.stack⟩ := by
  have hleft : ∀ w, State.Left ⟨v :: s.visited, v :: s.stack⟩ w ↔ s.Left w := by
    intro w
    unfold State.Left
    simp only [List.mem_cons, not_or]
    constructor
    · intro h
      cases h.1 with
      | inl heq => exact absurd heq h.2.1
      | inr hw => exact ⟨hw, h.2.2⟩
    · intro h
      exact ⟨.inr h.1, fun heq => hv (heq ▸ h.1), h.2⟩
  constructor
  · intro w hw
    cases List.mem_cons.mp hw with
    | inl heq => exact heq ▸ List.mem_cons_self
    | inr hw => exact List.mem_cons_of_mem v (hs.entered w hw)
  · intro w hw u hu
    rw [hleft] at hw ⊢
    exact hs.closed w hw u hu
  · intro w hw
    rw [hleft] at hw
    exact hs.acyclic w hw

variable [DecidableEq α]

/-- A visit that finds no cycle leaves its vertex. -/
theorem dfs_false (hs : Explored succ s) (h : dfs succ depth v s = some (false, s')) :
    Explored succ s' ∧ Extends s s' ∧ s'.Left v := by
  induction depth generalizing v s s' with
  | zero => cases h
  | succ depth ih =>
    rw [dfs] at h
    by_cases hstack : v ∈ s.stack
    · rw [if_pos hstack] at h
      cases h
    · rw [if_neg hstack] at h
      by_cases hvisited : v ∈ s.visited
      · rw [if_pos hvisited] at h
        cases h
        exact ⟨hs, .refl s, hvisited, hstack⟩
      · rw [if_neg hvisited] at h
        cases hloop : anyOf (dfs succ depth) (succ v) ⟨v :: s.visited, v :: s.stack⟩ with
        | none =>
          rw [hloop] at h
          cases h
        | some result =>
          obtain ⟨found, t⟩ := result
          rw [hloop] at h
          cases found with
          | true => cases h
          | false =>
            cases h
            obtain ⟨ht, hext, hall⟩ := anyOf_false (fun w s s' => ih) (explored_enter hs hvisited) hloop
            exact explored_leave hstack ht hext hall

/-- A visit that finds a cycle comes back to a vertex that waits. -/
theorem cyclic_of_dfs_true (hs : Explored succ s) (hreach : ∀ u ∈ s.stack, Relation.TransGen (Edge succ) u v)
    (h : dfs succ depth v s = some (true, s')) : ∃ w, Relation.TransGen (Edge succ) w w := by
  induction depth generalizing v s s' with
  | zero => cases h
  | succ depth ih =>
    rw [dfs] at h
    by_cases hstack : v ∈ s.stack
    · exact ⟨v, hreach v hstack⟩
    · rw [if_neg hstack] at h
      by_cases hvisited : v ∈ s.visited
      · rw [if_pos hvisited] at h
        cases h
      · rw [if_neg hvisited] at h
        cases hloop : anyOf (dfs succ depth) (succ v) ⟨v :: s.visited, v :: s.stack⟩ with
        | none =>
          rw [hloop] at h
          cases h
        | some result =>
          obtain ⟨found, t⟩ := result
          rw [hloop] at h
          cases found with
          | false => cases h
          | true =>
            obtain ⟨w, hw, u, ⟨hu, hsame⟩, hfound⟩ := exists_of_anyOf_true
              (fun u => Explored succ u ∧ u.stack = v :: s.stack)
              (fun w u u' hu hvisit => ⟨(dfs_false hu.1 hvisit).1, (dfs_false hu.1 hvisit).2.1.stack.trans hu.2⟩)
              ⟨explored_enter hs hvisited, rfl⟩ hloop
            apply ih hu _ hfound
            intro x hx
            rw [hsame, List.mem_cons] at hx
            cases hx with
            | inl heq => exact heq ▸ .single hw
            | inr hx => exact (hreach x hx).tail hw

/-- The vertices of a list that have not been entered. -/
def unvisited (vertices : List α) (s : State α) : List α := vertices.filter fun v => v ∉ s.visited

theorem length_unvisited_le (vertices : List α) (h : ∀ v ∈ s.visited, v ∈ s'.visited) :
    (unvisited vertices s').length ≤ (unvisited vertices s).length := by
  apply List.Sublist.length_le
  apply List.monotone_filter_right
  intro v hv
  simp only [decide_eq_true_eq] at hv ⊢
  intro hmem
  exact hv (h v hmem)

theorem length_unvisited_lt {vertices : List α} (hv : v ∈ vertices) (hfresh : v ∉ s.visited) :
    (unvisited vertices ⟨v :: s.visited, v :: s.stack⟩).length < (unvisited vertices s).length := by
  have hfilter : unvisited vertices ⟨v :: s.visited, v :: s.stack⟩ = (unvisited vertices s).filter (· ≠ v) := by
    rw [unvisited, unvisited, List.filter_filter]
    apply List.filter_congr
    intro w _
    simp
  rw [hfilter, List.length_filter_lt_length_iff_exists]
  exact ⟨v, by simp [unvisited, hv, hfresh], by simp⟩

/-- A visit ends within as many calls as there are vertices that have not been entered. -/
theorem dfs_isSome {vertices : List α} (hclosed : ∀ v ∈ vertices, ∀ w ∈ succ v, w ∈ vertices)
    (hv : v ∈ vertices) (hs : Explored succ s) (hdepth : (unvisited vertices s).length < depth) :
    (dfs succ depth v s).isSome := by
  induction depth generalizing v s with
  | zero => omega
  | succ depth ih =>
    rw [dfs]
    by_cases hstack : v ∈ s.stack
    · rw [if_pos hstack]
      rfl
    · rw [if_neg hstack]
      by_cases hvisited : v ∈ s.visited
      · rw [if_pos hvisited]
        rfl
      · rw [if_neg hvisited]
        have hless := length_unvisited_lt (s := s) hv hvisited
        have hloop : (anyOf (dfs succ depth) (succ v) ⟨v :: s.visited, v :: s.stack⟩).isSome := by
          apply anyOf_isSome fun u => Explored succ u ∧ (unvisited vertices u).length < depth
          · intro w u u' hu hvisit
            obtain ⟨hu', hext, -⟩ := dfs_false hu.1 hvisit
            exact ⟨hu', Nat.lt_of_le_of_lt (length_unvisited_le vertices hext.visited) hu.2⟩
          · intro w hw u hu
            exact ih (hclosed v hv w hw) hu.1 hu.2
          · exact ⟨explored_enter hs hvisited, by omega⟩
        obtain ⟨⟨found, t⟩, hfound⟩ := Option.isSome_iff_exists.mp hloop
        rw [hfound]
        cases found <;> rfl

/-- The whole search from some roots. -/
def search (succ : α → List α) (depth : Nat) (roots : List α) : Option Bool :=
  (anyOf (dfs succ depth) roots {}).map (·.1)

/-- The search finds a cycle exactly where one can be reached from its roots. -/
theorem search_eq {roots vertices : List α} (hroots : ∀ v ∈ roots, v ∈ vertices)
    (hclosed : ∀ v ∈ vertices, ∀ w ∈ succ v, w ∈ vertices) (hdepth : vertices.length < depth) :
    ∃ found, search succ depth roots = some found ∧
      (found = true → ∃ v, Relation.TransGen (Edge succ) v v) ∧
        (found = false → ∀ v ∈ roots, ¬ Relation.TransGen (Edge succ) v v) := by
  have hstart : Explored succ ({} : State α) := ⟨by simp, by simp [State.Left], by simp [State.Left]⟩
  have hisSome : (anyOf (dfs succ depth) roots {}).isSome := by
    apply anyOf_isSome fun u => Explored succ u ∧ (unvisited vertices u).length < depth
    · intro w u u' hu hvisit
      obtain ⟨hu', hext, -⟩ := dfs_false hu.1 hvisit
      exact ⟨hu', Nat.lt_of_le_of_lt (length_unvisited_le vertices hext.visited) hu.2⟩
    · intro w hw u hu
      exact dfs_isSome hclosed (hroots w hw) hu.1 hu.2
    · exact ⟨hstart, Nat.lt_of_le_of_lt (List.length_filter_le _ _) hdepth⟩
  obtain ⟨⟨found, t⟩, hfound⟩ := Option.isSome_iff_exists.mp hisSome
  refine ⟨found, by rw [search, hfound]; rfl, ?_, ?_⟩
  · intro htrue
    rw [htrue] at hfound
    obtain ⟨v, -, u, ⟨hu, hempty⟩, hdfs⟩ := exists_of_anyOf_true
      (fun u => Explored succ u ∧ u.stack = [])
      (fun w u u' hu hvisit => ⟨(dfs_false hu.1 hvisit).1, (dfs_false hu.1 hvisit).2.1.stack.trans hu.2⟩)
      ⟨hstart, rfl⟩ hfound
    exact cyclic_of_dfs_true hu (by simp [hempty]) hdfs
  · intro hfalse v hv
    rw [hfalse] at hfound
    obtain ⟨ht, -, hall⟩ := anyOf_false (fun w s s' => dfs_false) hstart hfound
    exact ht.acyclic v (hall v hv)

end Search

end DepthFirst

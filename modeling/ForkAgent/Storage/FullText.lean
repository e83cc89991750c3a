import Mathlib.Algebra.BigOperators.Group.List.Basic
import Mathlib.Algebra.GroupWithZero.Nat
import Mathlib.Data.Fintype.Defs
import Mathlib.Data.List.Perm.Basic

/-!
# Full-text indexes over external content

An index that keeps postings of documents but not the documents, and totals of what the documents
weigh. To remove a document one has to name its content. A removal of what is not there is not noticed,
and corrupts the index for good, unless a total would fall below zero: then it is refused.
-/

namespace Storage

variable {ι δ κ : Type}

/-- The postings, the totals, and whether something was removed that was not there. -/
structure ExternalIndex (ι δ κ : Type) where
  postings : List (ι × δ) := []
  totals : κ → Nat := fun _ => 0
  corrupt : Bool := false

namespace ExternalIndex

section Operations

variable (weight : δ → κ → Nat)

/-- What documents weigh together. -/
def load (content : List (ι × δ)) (k : κ) : Nat := (content.map fun posting => weight posting.2 k).sum

@[simp] theorem load_nil (k : κ) : load weight ([] : List (ι × δ)) k = 0 := rfl

@[simp] theorem load_cons (posting : ι × δ) (content : List (ι × δ)) (k : κ) :
    load weight (posting :: content) k = weight posting.2 k + load weight content k :=
  List.sum_cons

@[simp] theorem load_append (content content' : List (ι × δ)) (k : κ) :
    load weight (content ++ content') k = load weight content k + load weight content' k := by
  simp [load]

theorem load_perm {content content' : List (ι × δ)} (h : content.Perm content') (k : κ) :
    load weight content k = load weight content' k := (h.map _).sum_eq

def add (idx : ExternalIndex ι δ κ) (posting : ι × δ) : ExternalIndex ι δ κ :=
  { idx with
    postings := idx.postings ++ [posting]
    totals := fun k => idx.totals k + weight posting.2 k }

variable [Fintype κ] [DecidableEq ι] [DecidableEq δ]

def remove (idx : ExternalIndex ι δ κ) (posting : ι × δ) : Option (ExternalIndex ι δ κ) :=
  if ∀ k, weight posting.2 k ≤ idx.totals k then
    some {
      postings := idx.postings.erase posting
      totals := fun k => idx.totals k - weight posting.2 k
      corrupt := idx.corrupt || decide (posting ∉ idx.postings) }
  else none

def removeAll (idx : ExternalIndex ι δ κ) (postings : List (ι × δ)) : Option (ExternalIndex ι δ κ) :=
  postings.foldlM (remove weight) idx

end Operations

/-- The index holds the postings of this content, each once, with its totals, and nothing was removed
twice. -/
structure Mirrors (weight : δ → κ → Nat) (idx : ExternalIndex ι δ κ) (content : List (ι × δ)) : Prop where
  sound : idx.corrupt = false
  postings : idx.postings.Perm content
  totals : ∀ k, idx.totals k = load weight content k

variable {weight : δ → κ → Nat} {idx idx' : ExternalIndex ι δ κ} {content : List (ι × δ)} {posting : ι × δ}

theorem mirrors_empty : ({} : ExternalIndex ι δ κ).Mirrors weight [] := ⟨rfl, .refl _, fun _ => rfl⟩

theorem Mirrors.perm (h : idx.Mirrors weight content) {other : List (ι × δ)} (hperm : content.Perm other) :
    idx.Mirrors weight other :=
  ⟨h.sound, h.postings.trans hperm, fun k => (h.totals k).trans (load_perm weight hperm k)⟩

theorem Mirrors.add (h : idx.Mirrors weight content) (posting : ι × δ) :
    (idx.add weight posting).Mirrors weight (content ++ [posting]) := by
  refine ⟨h.sound, h.postings.append_right _, fun k => ?_⟩
  rw [load_append, load_cons, load_nil, Nat.add_zero, ← h.totals k]
  rfl

theorem corrupt_add (h : idx.corrupt = true) (posting : ι × δ) : (idx.add weight posting).corrupt = true := h

variable [Fintype κ] [DecidableEq ι] [DecidableEq δ]

theorem remove_eq_some :
    idx.remove weight posting = some idx' ↔ (∀ k, weight posting.2 k ≤ idx.totals k) ∧
      idx' = {
        postings := idx.postings.erase posting
        totals := fun k => idx.totals k - weight posting.2 k
        corrupt := idx.corrupt || decide (posting ∉ idx.postings) } := by
  unfold ExternalIndex.remove
  split_ifs with hweight
  · simp [hweight, eq_comm]
  · simp [hweight]

theorem Mirrors.remove (h : idx.Mirrors weight (posting :: content)) :
    ∃ idx', idx.remove weight posting = some idx' ∧ idx'.Mirrors weight content := by
  have hmem : posting ∈ idx.postings := h.postings.mem_iff.mpr List.mem_cons_self
  have htotals : ∀ k, idx.totals k = weight posting.2 k + load weight content k := fun k =>
    (h.totals k).trans (load_cons weight posting content k)
  refine ⟨_, remove_eq_some.mpr ⟨fun k => ?_, rfl⟩, ?_, ?_, fun k => ?_⟩
  · rw [htotals k]
    exact Nat.le_add_right _ _
  · simp [h.sound, hmem]
  · have herase := h.postings.erase posting
    rwa [List.erase_cons_head] at herase
  · show idx.totals k - weight posting.2 k = _
    rw [htotals k, Nat.add_sub_cancel_left]

theorem Mirrors.removeAll {removed : List (ι × δ)} (h : idx.Mirrors weight (removed ++ content)) :
    ∃ idx', idx.removeAll weight removed = some idx' ∧ idx'.Mirrors weight content := by
  induction removed generalizing idx with
  | nil => exact ⟨idx, rfl, h⟩
  | cons posting removed ih =>
    obtain ⟨idx₁, hremove, h₁⟩ := h.remove
    obtain ⟨idx', hrest, h'⟩ := ih h₁
    refine ⟨idx', ?_, h'⟩
    rw [ExternalIndex.removeAll, List.foldlM_cons, hremove]
    exact hrest

theorem Mirrors.remove_absent (h : idx.Mirrors weight content) (habsent : posting ∉ content)
    (hremove : idx.remove weight posting = some idx') : idx'.corrupt = true := by
  have hmem : posting ∉ idx.postings := fun hmem => habsent (h.postings.mem_iff.mp hmem)
  rw [(remove_eq_some.mp hremove).2]
  simp [hmem]

theorem corrupt_remove (h : idx.corrupt = true) (hremove : idx.remove weight posting = some idx') :
    idx'.corrupt = true := by
  rw [(remove_eq_some.mp hremove).2]
  simp [h]

theorem corrupt_removeAll (h : idx.corrupt = true) {removed : List (ι × δ)}
    (hremove : idx.removeAll weight removed = some idx') : idx'.corrupt = true := by
  induction removed generalizing idx with
  | nil =>
    cases hremove
    exact h
  | cons posting removed ih =>
    obtain ⟨idx₁, hfirst, hrest⟩ := Option.bind_eq_some_iff.mp hremove
    exact ih (corrupt_remove h hfirst) hrest

end ExternalIndex

end Storage

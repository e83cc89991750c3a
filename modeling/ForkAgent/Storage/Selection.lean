import ForkAgent.Storage.Table

/-!
# Distinct entries up to a limit

The entries of a list by their first occurrence under a key, and what it takes for the first of a list not
to leave out what is wanted.
-/

namespace Storage

variable {α κ : Type}

/-- The first entry of each key that was not seen before. -/
def firstOfEach [DecidableEq κ] (key : α → κ) : List α → List κ → List α
  | [], _ => []
  | x :: xs, seen =>
    if key x ∈ seen then firstOfEach key xs seen else x :: firstOfEach key xs (key x :: seen)

section FirstOfEach

variable [DecidableEq κ] {key : α → κ} {xs : List α} {seen : List κ} {x : α}

theorem mem_of_mem_firstOfEach (h : x ∈ firstOfEach key xs seen) : x ∈ xs ∧ key x ∉ seen := by
  induction xs generalizing seen with
  | nil => cases h
  | cons y ys ih =>
    rw [firstOfEach] at h
    split at h
    · obtain ⟨hmem, hnew⟩ := ih h
      exact ⟨List.mem_cons_of_mem _ hmem, hnew⟩
    · rename_i hnew
      cases h with
      | head => exact ⟨List.mem_cons_self, hnew⟩
      | tail _ h =>
        obtain ⟨hmem, hunseen⟩ := ih h
        exact ⟨List.mem_cons_of_mem _ hmem, fun hseen => hunseen (List.mem_cons_of_mem _ hseen)⟩

theorem exists_mem_firstOfEach (h : x ∈ xs) (hnew : key x ∉ seen) :
    ∃ y ∈ firstOfEach key xs seen, key y = key x := by
  induction xs generalizing seen with
  | nil => cases h
  | cons y ys ih =>
    rw [firstOfEach]
    by_cases hsame : key y = key x
    · rw [if_neg (hsame ▸ hnew)]
      exact ⟨y, List.mem_cons_self, hsame⟩
    · have hrest : x ∈ ys := by
        cases h with
        | head => exact absurd rfl hsame
        | tail _ h => exact h
      split
      · exact ih hrest hnew
      · have hnew' : key x ∉ key y :: seen := by simp [hnew, Ne.symm hsame]
        obtain ⟨z, hz, hkey⟩ := ih hrest hnew'
        exact ⟨z, List.mem_cons_of_mem _ hz, hkey⟩

theorem nodup_firstOfEach (key : α → κ) (xs : List α) (seen : List κ) :
    ((firstOfEach key xs seen).map key).Nodup := by
  induction xs generalizing seen with
  | nil => exact List.nodup_nil
  | cons y ys ih =>
    rw [firstOfEach]
    split
    · exact ih seen
    · rw [List.map_cons, List.nodup_cons]
      constructor
      · intro h
        obtain ⟨z, hz, hkey⟩ := List.mem_map.mp h
        apply (mem_of_mem_firstOfEach hz).2
        simp [hkey]
      · exact ih (key y :: seen)

end FirstOfEach

/-- The first `n` of a list leave out nothing that is wanted unless there are `n` of them, exactly when the
list has `n` entries or all that is wanted. -/
theorem complete_take_iff {chosen : List α} {n : Nat} {wanted : α → Prop} :
    ((chosen.take n).length < n → ∀ x, wanted x → x ∈ chosen.take n) ↔
      n ≤ chosen.length ∨ ∀ x, wanted x → x ∈ chosen := by
  rw [List.length_take]
  constructor
  · intro h
    by_cases hlength : n ≤ chosen.length
    · exact .inl hlength
    · right
      intro x hx
      exact List.mem_of_mem_take (h (by omega) x hx)
  · intro h hshort x hx
    cases h with
    | inl hlength => omega
    | inr hall =>
      rw [List.take_of_length_le (by omega)]
      exact hall x hx

end Storage

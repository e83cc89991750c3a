import ForkAgent.Storage.Table
import Mathlib.Data.List.AList
import Mathlib.Data.List.Induction

/-!
# The latest row of each key

A map that is filled row by row and keeps, under each key, the latest row so far; of rows of one time the
first one stays.
-/

namespace Storage

variable {α κ τ : Type} [DecidableEq κ]

def keepLatest [LT τ] [DecidableLT τ] (key : α → κ) (time : α → τ) (m : AList fun _ : κ => α) (x : α) :
    AList fun _ : κ => α :=
  match m.lookup (key x) with
  | none => m.insert (key x) x
  | some y => if time y < time x then m.insert (key x) x else m

def latestBy [LT τ] [DecidableLT τ] (key : α → κ) (time : α → τ) (rows : List α) : AList fun _ : κ => α :=
  rows.foldl (keepLatest key time) ∅

variable [LinearOrder τ] {key : α → κ} {time : α → τ} {m : AList fun _ : κ => α} {x : α} {k : κ}

theorem Latest.of_mem_iff {rows rows' : List α} {latest : Option α} (h : Latest time rows latest)
    (hmem : ∀ x, x ∈ rows ↔ x ∈ rows') : Latest time rows' latest := by
  cases latest with
  | none =>
    have hnil : rows = [] := h
    apply List.eq_nil_iff_forall_not_mem.mpr
    intro x hx
    rw [← hmem x, hnil] at hx
    cases hx
  | some y =>
    constructor
    · exact (hmem y).mp h.1
    · intro x hx
      exact h.2 x ((hmem x).mpr hx)

theorem Latest.eq_none_iff {rows : List α} {latest : Option α} (h : Latest time rows latest) :
    latest = none ↔ ∀ x, x ∉ rows := by
  cases latest with
  | none => simpa using List.eq_nil_iff_forall_not_mem.mp h
  | some y => simpa using ⟨y, h.1⟩

theorem lookup_keepLatest_of_ne (hne : key x ≠ k) : (keepLatest key time m x).lookup k = m.lookup k := by
  unfold keepLatest
  split
  · exact AList.lookup_insert_ne hne.symm
  · split
    · exact AList.lookup_insert_ne hne.symm
    · rfl

/-- Under each key the map has a latest row of that key. -/
theorem latest_latestBy (rows : List α) (k : κ) :
    Latest time (rows.filter fun x => key x = k) ((latestBy key time rows).lookup k) := by
  induction rows using List.reverseRecOn with
  | nil => rfl
  | append_singleton rows x ih =>
    rw [latestBy, List.foldl_append, List.filter_append]
    change Latest time _ ((keepLatest key time (latestBy key time rows) x).lookup k)
    by_cases hkey : key x = k
    · subst hkey
      unfold keepLatest
      cases hlookup : (latestBy key time rows).lookup (key x) with
      | none =>
        rw [hlookup] at ih
        have hnone : rows.filter (fun y => key y = key x) = [] := ih
        rw [hnone, AList.lookup_insert]
        simp [Latest]
      | some y =>
        rw [hlookup] at ih
        obtain ⟨hy, hlatest⟩ : y ∈ rows.filter (fun y => key y = key x) ∧
          ∀ z ∈ rows.filter (fun y => key y = key x), time z ≤ time y := ih
        simp only
        split
        · rename_i hlater
          rw [AList.lookup_insert]
          refine ⟨by simp, ?_⟩
          intro z hz
          cases List.mem_append.mp hz with
          | inl hz => exact le_trans (hlatest z hz) (le_of_lt hlater)
          | inr hz => simp_all
        · rename_i hnot
          rw [hlookup]
          refine ⟨List.mem_append_left _ hy, ?_⟩
          intro z hz
          cases List.mem_append.mp hz with
          | inl hz => exact hlatest z hz
          | inr hz =>
            have hzx : z = x := by simpa using hz
            rw [hzx]
            exact not_lt.mp hnot
    · rw [lookup_keepLatest_of_ne hkey]
      simpa [hkey] using ih

end Storage

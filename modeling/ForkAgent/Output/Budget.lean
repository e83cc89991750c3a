import ForkAgent.Output.Service

/-!
# The budget of a response

The items are measured one by one; the brackets of the list and what stands between its items are not.
-/

namespace ForkAgent.Output

variable {obs : ObservationDict} {observations : List ObservationDict} {remainingChars : Nat}

section Spending

/-- How many items fit in a budget of characters, and how many characters of it they leave. -/
def spend : List ObservationDict → Nat → Nat × Nat
  | [], budget => (0, budget)
  | obs :: observations, budget =>
    if budget = 0 then (0, 0)
    else if size obs.fields ≤ budget then
      let rest := spend observations (budget - size obs.fields)
      (rest.1 + 1, rest.2)
    else if budget ≤ obs.overhead then spend observations budget
    else (1, budget - size (obs.capped (obs.cut budget)))

theorem size_shrunk (h : obs.overhead < remainingChars) (safeContentChars : Nat) (current : List Char) :
    size (obs.capped (obs.shrunk safeContentChars remainingChars current)) ≤ remainingChars := by
  simp only [ObservationDict.shrunk]
  split_ifs with hcurrent hshorter hhard
  · exact hcurrent
  · exact hshorter
  · exact hhard
  · exact Nat.le_of_lt h

theorem size_cut (h : obs.overhead < remainingChars) :
    size (obs.capped (obs.cut remainingChars)) ≤ remainingChars := by
  simp only [ObservationDict.cut]
  split_ifs
  · exact Nat.le_of_lt h
  · exact size_shrunk h _ _

theorem capFrom_spends (observations : List ObservationDict) (budget : Nat) :
    (capFrom observations budget).length = (spend observations budget).1 ∧
      ((capFrom observations budget).map size).sum + (spend observations budget).2 = budget := by
  induction observations generalizing budget with
  | nil => simp [capFrom, spend]
  | cons obs observations ih =>
    obtain ⟨s, hs⟩ := obs.text
    have hdefault : obs.fields.setdefault "content" (.str "") = obs.fields :=
      JsonObject.setdefault_of_mem (by rw [hs]; rfl)
    simp only [capFrom, spend, hdefault]
    split_ifs with hzero hfits hover hcut
    · simp [hzero]
    · obtain ⟨hlength, hsum⟩ := ih (budget - size obs.fields)
      constructor
      · rw [List.length_cons, hlength]
      · rw [List.map_cons, List.sum_cons]
        omega
    · exact ih budget
    · constructor
      · rfl
      · rw [List.map_cons, List.map_nil, List.sum_singleton]
        omega
    · exact absurd (size_cut (Nat.lt_of_not_le hover)) hcut

theorem length_dumpsList (items : List JsonObject) :
    (dumpsList items).length = 2 + ((items.map size).sum + 2 * (items.length - 1)) := by
  rw [dumpsList, Json.length_dumps_arr, List.map_map, List.length_map]
  rfl

end Spending

section Budget

/-- The list within its budget: it is as it was, or the characters that its items leave make up for two
characters an item, but for three. -/
def WithinBudget (data : List ObservationDict) (maxTokens : Int) : Prop :=
  (estimateTokens (dumpsList (data.map (·.fields))) : Int) ≤ maxTokens ∨
    2 * (spend data (maxTokens.toNat * charsPerToken)).1 ≤
      (spend data (maxTokens.toNat * charsPerToken)).2 + 3

instance (data : List ObservationDict) (maxTokens : Int) : Decidable (WithinBudget data maxTokens) :=
  inferInstanceAs (Decidable (_ ∨ _))

theorem estimate_capFrom_le (data : List ObservationDict) (tokens : Nat) :
    estimateTokens (dumpsList (capFrom data (tokens * charsPerToken))) ≤ tokens ↔
      2 * (spend data (tokens * charsPerToken)).1 ≤ (spend data (tokens * charsPerToken)).2 + 3 := by
  obtain ⟨hlength, hsum⟩ := capFrom_spends data (tokens * charsPerToken)
  rw [estimateTokens, length_dumpsList, hlength]
  simp only [charsPerToken] at hsum ⊢
  omega

/-- A response is within its budget exactly when the list is as it was, or its items leave enough of the
budget for what stands between them. -/
theorem capJsonResponse_le_iff (data : List ObservationDict) {maxTokens : Int} (hmax : 1 ≤ maxTokens) :
    (estimateTokens (capJsonResponse data (some maxTokens)) : Int) ≤ maxTokens ↔ WithinBudget data maxTokens := by
  obtain ⟨tokens, rfl⟩ := Int.eq_ofNat_of_zero_le (show 0 ≤ maxTokens by omega)
  unfold capJsonResponse WithinBudget
  simp only [Option.getD_some]
  split_ifs with hraw
  · have hdata : data ≠ [] := by
      rintro rfl
      exact absurd hraw (by simp [estimateTokens, dumpsList, Json.dumps, Json.dumpsItems, charsPerToken])
    have hnot : ¬ ((tokens : Int) ≤ 0 ∨ data.isEmpty = true) := by
      simp only [List.isEmpty_iff, not_or]
      exact ⟨by omega, hdata⟩
    rw [capResponse, if_neg hnot, Int.toNat_natCast, Int.ofNat_le, estimate_capFrom_le]
    constructor
    · exact .inr
    · intro h
      exact h.resolve_left (by omega)
  · exact iff_of_true (by omega) (.inl (by omega))

theorem capJsonObject_le (data : ObservationDict) {maxTokens : Int} (hmax : 0 ≤ maxTokens) :
    (estimateTokens (capJsonObject data (some maxTokens)) : Int) ≤ maxTokens := by
  obtain ⟨tokens, rfl⟩ := Int.eq_ofNat_of_zero_le hmax
  unfold capJsonObject
  simp only [Option.getD_some]
  split_ifs with hraw
  · cases hitems : capResponse [data] tokens with
    | nil =>
      show ((estimateTokens (Json.dumps (.obj [])) : Nat) : Int) ≤ tokens
      simp [estimateTokens, Json.dumps, Json.dumpsFields, charsPerToken]
    | cons item items =>
      have hsum := (capFrom_spends [data] (tokens * charsPerToken)).2
      unfold capResponse at hitems
      split_ifs at hitems
      rw [Int.toNat_natCast] at hitems
      rw [hitems, List.map_cons, List.sum_cons] at hsum
      show ((estimateTokens (Json.dumps (.obj item)) : Nat) : Int) ≤ tokens
      have hsize : (Json.dumps (.obj item)).length ≤ tokens * charsPerToken := by
        rw [← hsum, Nat.add_assoc]
        exact Nat.le_add_right _ _
      rw [Int.ofNat_le, estimateTokens]
      exact Nat.div_le_of_le_mul (by rwa [Nat.mul_comm])
  · omega

section Example

/-- An observation of sixteen characters. -/
def short : ObservationDict := ⟨[("content", .str "a")], "a", rfl⟩

theorem exact_fit_exceeds : ¬ ∀ (data : List ObservationDict) (maxTokens : Int), 1 ≤ maxTokens →
    (estimateTokens (capJsonResponse data (some maxTokens)) : Int) ≤ maxTokens := by
  intro h
  have hfit := h [short, short] 8 (by decide)
  revert hfit
  decide

/-- In a budget of seven tokens only one of the two fits, in eight tokens both do. -/
theorem capJsonResponse_le_short :
    (estimateTokens (capJsonResponse [short, short] (some 7)) : Int) ≤ 7 ∧
      ¬ (estimateTokens (capJsonResponse [short, short] (some 8)) : Int) ≤ 8 := by
  constructor
  · rw [capJsonResponse_le_iff [short, short] (by decide)]
    unfold WithinBudget
    decide
  · rw [capJsonResponse_le_iff [short, short] (by decide)]
    unfold WithinBudget
    decide

end Example

end Budget

end ForkAgent.Output

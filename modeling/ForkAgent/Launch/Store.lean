import ForkAgent.Launch.Repository

/-!
# Launch store

What a step of the registry preserves, as long as a compare-and-set goes along a transition: the
two unique indexes, every row but for one edge, and no row that was not there or just claimed.
-/

namespace ForkAgent.Launch

open Effects Storage

/-- A compare-and-set goes along a transition, and nothing is claimed. -/
def moving : LaunchCall → Prop
  | .casUpdate _ expected new _ => new ∈ expected.validTransitions
  | .insert _ => False
  | _ => True

/-- A compare-and-set goes along a transition, and a new row is reserved. -/
def allowed : LaunchCall → Prop
  | .casUpdate _ expected new _ => new ∈ expected.validTransitions
  | .insert row => row.status = .reserved
  | _ => True

theorem allowed_of_moving (c : LaunchCall) (h : moving c) : allowed c := by
  cases c with
  | casUpdate launchId expected new columns => exact h
  | insert row => exact h.elim
  | _ => trivial

namespace LaunchStore

variable {s s' : LaunchStore} {a : Answered launchSignature Exn}

/-- The primary key and the partial unique index. -/
structure Indexed (s : LaunchStore) : Prop where
  ids : UniqueOn rowId s.agentLaunchRegistry
  inFlightKeys : UniqueOn inFlightKey s.agentLaunchRegistry

/-- The second row is the first, or what one transition made of it. -/
def Moves (r r' : AgentLaunchFields) : Prop :=
  r' = r ∨ (r'.launchId = r.launchId ∧ r'.canonicalKey = r.canonicalKey ∧
    r'.createdAt = r.createdAt ∧ r'.status ∈ r.status.validTransitions)

theorem Moves.launchId {r r' : AgentLaunchFields} (h : Moves r r') : r'.launchId = r.launchId := by
  rcases h with rfl | h
  · rfl
  · exact h.1

theorem Moves.canonicalKey {r r' : AgentLaunchFields} (h : Moves r r') :
    r'.canonicalKey = r.canonicalKey := by
  rcases h with rfl | h
  · rfl
  · exact h.2.1

theorem Moves.status {r r' : AgentLaunchFields} (h : Moves r r') :
    r'.status = r.status ∨ r'.status ∈ r.status.validTransitions := by
  rcases h with rfl | h
  · exact .inl rfl
  · exact .inr h.2.2.2

theorem Moves.status_of_terminal {r r' : AgentLaunchFields} (h : Moves r r')
    (hr : r.status.isTerminal = true) : r'.status = r.status := by
  rcases h.status with h | h
  · exact h
  · rw [LaunchStatus.not_terminal_of_transition h] at hr
    cases hr

theorem set_moves {new expected : LaunchStatus} {columns : CasColumns} {launchId : String}
    {r : AgentLaunchFields} (hguard : guarded launchId expected r = true)
    (hnew : new ∈ expected.validTransitions) : Moves r (set new columns r) := by
  simp only [guarded, Bool.and_eq_true, beq_iff_eq] at hguard
  exact .inr ⟨rfl, rfl, rfl, by rw [hguard.2]; exact hnew⟩

theorem insert_ok {row : AgentLaunchFields} {b : Bool} {s₁ : LaunchStore}
    (h : s.insert row = .ok (b, s₁)) :
    (b = false ∧ s₁ = s) ∨ (b = true ∧ conflicts rowId s.agentLaunchRegistry row = false ∧
      conflicts inFlightKey s.agentLaunchRegistry row = false ∧
      s₁.agentLaunchRegistry = s.agentLaunchRegistry ++ [row]) := by
  unfold insert at h
  split_ifs at h with hempty hconflict hparent
  · cases h
    exact .inl ⟨rfl, rfl⟩
  · cases h
    simp only [Bool.or_eq_true, not_or, Bool.not_eq_true] at hconflict
    exact .inr ⟨rfl, hconflict.1, hconflict.2, rfl⟩

/-- A step leaves the registry alone, adds one claimed row or moves the rows of one launch. -/
theorem step_cases (h : step a s s') :
    s' = s ∨
    (∃ row, a = .ok (.insert row) true ∧ conflicts rowId s.agentLaunchRegistry row = false ∧
      conflicts inFlightKey s.agentLaunchRegistry row = false ∧
      s'.agentLaunchRegistry = s.agentLaunchRegistry ++ [row]) ∨
    ∃ launchId expected new columns, a.call = .casUpdate launchId expected new columns ∧
      s' = s.casUpdate launchId expected new columns := by
  rcases h with h | ⟨rfl, -⟩
  swap
  · exact .inl rfl
  obtain ⟨c, r⟩ := a
  cases c with
  | insert row =>
    cases hinsert : s.insert row with
    | error e =>
      simp only [serve, hinsert] at h
      exact .inl h.2
    | ok result =>
      obtain ⟨b, s₁⟩ := result
      simp only [serve, hinsert] at h
      obtain ⟨rfl, rfl⟩ := h
      rcases insert_ok hinsert with ⟨-, hs⟩ | ⟨rfl, hrow, hkey, hs⟩
      · exact .inl hs
      · exact .inr (.inl ⟨row, rfl, hrow, hkey, hs⟩)
  | casUpdate launchId expected new columns =>
    exact .inr (.inr ⟨launchId, expected, new, columns, rfl, h.2⟩)
  | aliveTmuxPanes => exact .inl h
  | _ => exact .inl h.1

theorem step_row (h : step a s s') (ha : allowed a.call) {r : AgentLaunchFields}
    (hr : r ∈ s.agentLaunchRegistry) : ∃ r' ∈ s'.agentLaunchRegistry, Moves r r' := by
  rcases step_cases h with rfl | ⟨row, -, -, -, hs⟩ | ⟨launchId, expected, new, columns, hcall, rfl⟩
  · exact ⟨r, hr, .inl rfl⟩
  · rw [hs]
    exact ⟨r, List.mem_append_left _ hr, .inl rfl⟩
  · rw [hcall] at ha
    refine ⟨_, updateWhere_of_mem hr, ?_⟩
    split_ifs with hguard
    · exact set_moves hguard ha
    · exact .inl rfl

theorem row_of_step (h : step a s s') (ha : allowed a.call) {r' : AgentLaunchFields}
    (hr' : r' ∈ s'.agentLaunchRegistry) :
    (∃ r ∈ s.agentLaunchRegistry, Moves r r') ∨ a = .ok (.insert r') true := by
  rcases step_cases h with rfl | ⟨row, hins, -, -, hs⟩ | ⟨launchId, expected, new, columns, hcall, rfl⟩
  · exact .inl ⟨r', hr', .inl rfl⟩
  · rw [hs] at hr'
    rcases List.mem_append.mp hr' with hr' | hr'
    · exact .inl ⟨r', hr', .inl rfl⟩
    · rw [List.mem_singleton.mp hr']
      exact .inr hins
  · rw [hcall] at ha
    rcases mem_updateWhere.mp hr' with ⟨r, hr, hguard, rfl⟩ | ⟨hr, -⟩
    · exact .inl ⟨r, hr, set_moves hguard ha⟩
    · exact .inl ⟨r', hr, .inl rfl⟩

theorem Indexed.step (hs : s.Indexed) (h : step a s s') (ha : allowed a.call) : s'.Indexed := by
  rcases step_cases h with rfl | ⟨row, -, hrow, hkey, heq⟩ | ⟨launchId, expected, new, columns, hcall, rfl⟩
  · exact hs
  · refine ⟨?_, ?_⟩
    · rw [heq]
      exact hs.ids.insert hrow
    · rw [heq]
      exact hs.inFlightKeys.insert hkey
  · rw [hcall] at ha
    refine ⟨hs.ids.updateWhere fun _ _ _ => .inl rfl, hs.inFlightKeys.updateWhere ?_⟩
    intro r _ hguard
    simp only [guarded, Bool.and_eq_true, beq_iff_eq] at hguard
    cases hnew : new.inFlight with
    | false => simp [inFlightKey, set, hnew]
    | true =>
      have hexpected := LaunchStatus.inFlight_of_transition ha hnew
      simp [inFlightKey, set, hnew, hguard.2, hexpected]

/-- Nothing terminal moves: a relation between a store and every later one. -/
def Settles (s s' : LaunchStore) : Prop :=
  ∀ r ∈ s.agentLaunchRegistry, ∃ r' ∈ s'.agentLaunchRegistry, r'.launchId = r.launchId ∧
    r'.canonicalKey = r.canonicalKey ∧ (r.status.isTerminal = true → r'.status = r.status)

theorem Settles.refl (s : LaunchStore) : Settles s s :=
  fun r hr => ⟨r, hr, rfl, rfl, fun _ => rfl⟩

theorem Settles.trans {s₁ s₂ s₃ : LaunchStore} (h : Settles s₁ s₂) (h' : Settles s₂ s₃) :
    Settles s₁ s₃ := by
  intro r hr
  obtain ⟨r₂, hr₂, hid₂, hkey₂, hstatus₂⟩ := h r hr
  obtain ⟨r₃, hr₃, hid₃, hkey₃, hstatus₃⟩ := h' r₂ hr₂
  refine ⟨r₃, hr₃, hid₃.trans hid₂, hkey₃.trans hkey₂, fun hterminal => ?_⟩
  have hsame := hstatus₂ hterminal
  rw [hstatus₃ (by rwa [hsame]), hsame]

theorem Settles.step (h : LaunchStore.step a s s') (ha : allowed a.call) : Settles s s' := by
  intro r hr
  obtain ⟨r', hr', hmoves⟩ := step_row h ha hr
  exact ⟨r', hr', hmoves.launchId, hmoves.canonicalKey, hmoves.status_of_terminal⟩

end LaunchStore

end ForkAgent.Launch

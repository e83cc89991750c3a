import ForkAgent.Launch.Exclusion
import ForkAgent.Launch.Ownership
import Mathlib.Data.List.Chain

/-!
# What the registry records

A launch goes along the statuses that compare-and-sets have moved it to. Whatever the callers do, its
row tells that path: a column is filled in exactly if the status that fills it has been passed.
-/

namespace ForkAgent.Launch

open Effects Storage LaunchStore

/-- The service goes from the first status to the second. What was quarantined is never terminated,
although the table would let it be. -/
def Follows (a b : LaunchStatus) : Prop :=
  b ∈ a.validTransitions ∧ (b = .terminated → a = .terminating)

instance (a b : LaunchStatus) : Decidable (Follows a b) :=
  inferInstanceAs (Decidable (_ ∧ (b = .terminated → a = .terminating)))

/-- The status that a call has moved the launch to. -/
def moved (launchId : String) : Answered launchSignature Exn → Option LaunchStatus
  | ⟨.casUpdate id _ new _, .ok true⟩ => if id = launchId then some new else none
  | _ => none

/-- The statuses that the launch was moved to, in order. -/
def moves (launchId : String) (tr : List launchSystem.Event) : List LaunchStatus :=
  tr.filterMap fun e => moved launchId e.answered

/-- The row agrees with the statuses that its launch has gone through after `RESERVED`. -/
structure Recorded (path : List LaunchStatus) (r : AgentLaunchFields) : Prop where
  walk : (LaunchStatus.reserved :: path).IsChain Follows
  status : (LaunchStatus.reserved :: path).getLast? = some r.status
  reservedAt : r.reservedAt = some r.createdAt
  spawnStartedAt : r.spawnStartedAt.isSome ↔ .spawning ∈ path
  spawnConfirmedAt : r.spawnConfirmedAt.isSome ↔ .active ∈ path
  leaseExpiresAt : r.leaseExpiresAt.isSome ↔ .active ∉ path
  backend : r.backend.isSome ↔ .active ∈ path
  terminationHandleType : r.terminationHandleType.isSome ↔ .active ∈ path
  terminationHandleValue : r.terminationHandleValue.isSome ↔ .active ∈ path
  quarantineReason : r.quarantineReason.isSome ↔ .quarantined ∈ path
  lastError : r.lastError.isSome ↔ .failed ∈ path
  endedAt : r.endedAt.isSome ↔ ∃ status ∈ path, status.isTerminal = true

/-- A row as it is claimed. -/
structure Fresh (row : AgentLaunchFields) : Prop where
  status : row.status = .reserved
  reservedAt : row.reservedAt = some row.createdAt
  spawnStartedAt : row.spawnStartedAt = none
  spawnConfirmedAt : row.spawnConfirmedAt = none
  leaseExpiresAt : row.leaseExpiresAt.isSome
  backend : row.backend = none
  terminationHandleType : row.terminationHandleType = none
  terminationHandleValue : row.terminationHandleValue = none
  quarantineReason : row.quarantineReason = none
  lastError : row.lastError = none
  endedAt : row.endedAt = none

/-- The columns that go with a new status, and no others. -/
structure Stamps (new : LaunchStatus) (columns : CasColumns) : Prop where
  spawnStartedAt : columns.spawnStartedAt.isSome = decide (new = .spawning)
  spawnConfirmedAt : columns.spawnConfirmedAt.isSome = decide (new = .active)
  clearLease : columns.clearLease = decide (new = .active)
  backend : columns.backend.isSome = decide (new = .active)
  terminationHandleType : columns.terminationHandleType.isSome = decide (new = .active)
  terminationHandleValue : columns.terminationHandleValue.isSome = decide (new = .active)
  quarantineReason : columns.quarantineReason.isSome = decide (new = .quarantined)
  lastError : columns.lastError.isSome = decide (new = .failed)
  endedAt : columns.endedAt.isSome = new.isTerminal

/-- The claims and the updates that the service issues. -/
def issued : LaunchCall → Prop
  | .insert row => Fresh row
  | .casUpdate _ expected new columns => Follows expected new ∧ Stamps new columns
  | _ => True

section Rows

variable {path : List LaunchStatus} {r : AgentLaunchFields}

theorem Fresh.recorded (h : Fresh r) : Recorded [] r where
  walk := List.isChain_singleton _
  status := by rw [h.status]; rfl
  reservedAt := h.reservedAt
  spawnStartedAt := by simp [h.spawnStartedAt]
  spawnConfirmedAt := by simp [h.spawnConfirmedAt]
  leaseExpiresAt := by simp [h.leaseExpiresAt]
  backend := by simp [h.backend]
  terminationHandleType := by simp [h.terminationHandleType]
  terminationHandleValue := by simp [h.terminationHandleValue]
  quarantineReason := by simp [h.quarantineReason]
  lastError := by simp [h.lastError]
  endedAt := by simp [h.endedAt]

theorem isSome_or_iff {α : Type} {stamp column : Option α} {new status : LaunchStatus}
    (hstamp : stamp.isSome = decide (new = status)) (hcolumn : column.isSome ↔ status ∈ path) :
    (stamp.or column).isSome ↔ status ∈ path ++ [new] := by
  rw [Option.isSome_or, Bool.or_eq_true, hstamp, decide_eq_true_iff, hcolumn, List.mem_append,
    List.mem_singleton, or_comm, @eq_comm _ new]

/-- One move takes the path one status further. -/
theorem Recorded.set {new : LaunchStatus} {columns : CasColumns} (h : Recorded path r)
    (hfollows : Follows r.status new) (hstamps : Stamps new columns) :
    Recorded (path ++ [new]) (LaunchStore.set new columns r) where
  walk := by
    rw [← List.cons_append]
    refine List.isChain_append.mpr ⟨h.walk, List.isChain_singleton _, fun last hlast next hnext => ?_⟩
    rw [h.status] at hlast
    cases hlast
    cases hnext
    exact hfollows
  status := by
    rw [← List.cons_append, List.getLast?_concat]
    rfl
  reservedAt := h.reservedAt
  spawnStartedAt := isSome_or_iff hstamps.spawnStartedAt h.spawnStartedAt
  spawnConfirmedAt := isSome_or_iff hstamps.spawnConfirmedAt h.spawnConfirmedAt
  leaseExpiresAt := by
    by_cases hnew : new = .active
    · simp [LaunchStore.set, hstamps.clearLease, hnew]
    · simp [LaunchStore.set, hstamps.clearLease, hnew, h.leaseExpiresAt, Ne.symm hnew]
  backend := isSome_or_iff hstamps.backend h.backend
  terminationHandleType := isSome_or_iff hstamps.terminationHandleType h.terminationHandleType
  terminationHandleValue := isSome_or_iff hstamps.terminationHandleValue h.terminationHandleValue
  quarantineReason := isSome_or_iff hstamps.quarantineReason h.quarantineReason
  lastError := isSome_or_iff hstamps.lastError h.lastError
  endedAt := by
    simp [LaunchStore.set, Option.isSome_or, hstamps.endedAt, h.endedAt, or_and_right, exists_or, or_comm]

end Rows

section Calls

theorem nowWhen_ensures (condition : Bool) (h : List (Answered launchSignature Exn)) :
    (nowWhen condition).Ensures (fun _ c => issued c) (fun _ r => ∀ x, r = .ok x → x.isSome = condition) h := by
  cases condition with
  | false =>
    intro x hx
    rw [← Except.ok.inj hx]
    rfl
  | true =>
    refine (Program.ensures_perform_bind _ _).mpr ⟨trivial, fun now => ?_, fun e => nofun⟩
    intro x hx
    rw [← Except.ok.inj hx]
    rfl

theorem casUpdateStatus_issued {launchId : String} {expected new : LaunchStatus} {columns : CasColumns}
    (hfollows : Follows expected new) (hlease : columns.clearLease = decide (new = .active))
    (hbackend : columns.backend.isSome = decide (new = .active))
    (htype : columns.terminationHandleType.isSome = decide (new = .active))
    (hvalue : columns.terminationHandleValue.isSome = decide (new = .active))
    (hreason : columns.quarantineReason.isSome = decide (new = .quarantined))
    (herror : columns.lastError.isSome = decide (new = .failed)) :
    (casUpdateStatus launchId expected new columns).OnlyCalls issued := by
  have hensures : (casUpdateStatus launchId expected new columns).Ensures (fun _ c => issued c)
      (fun _ _ => True) [] := by
    refine (nowWhen_ensures _ _).bind (fun h₁ endedAt hended => ?_) fun _ _ _ => trivial
    refine (nowWhen_ensures _ _).bind (fun h₂ spawnStartedAt hstarted => ?_) fun _ _ _ => trivial
    refine (nowWhen_ensures _ _).bind (fun h₃ spawnConfirmedAt hconfirmed => ?_) fun _ _ _ => trivial
    have hcall : Stamps new { columns with endedAt, spawnStartedAt, spawnConfirmedAt } :=
      ⟨hstarted _ rfl, hconfirmed _ rfl, hlease, hbackend, htype, hvalue, hreason, herror, hended _ rfl⟩
    have hissued : (casUpdate launchId expected new _).OnlyCalls issued := .perform ⟨hfollows, hcall⟩
    exact hissued.ensures (fun _ _ hc => hc) fun _ _ => trivial
  exact hensures.onlyCalls

theorem quarantine_issued (launchId reason : String) :
    (quarantine launchId reason).OnlyCalls issued := by
  refine .bind (.perform trivial) fun launch => ?_
  cases launch with
  | none => trivial
  | some launch =>
    dsimp only
    split_ifs with hterminal htransition
    · trivial
    · have hfollows : Follows launch.val.status .quarantined :=
          ⟨by simpa [AgentLaunch.canTransitionTo] using htransition, nofun⟩
      exact casUpdateStatus_issued hfollows rfl rfl rfl rfl rfl rfl
    · trivial

theorem markFailed_issued (launchId error : String) : (markFailed launchId error).OnlyCalls issued := by
  refine .bind (.perform trivial) fun launch => ?_
  cases launch with
  | none => trivial
  | some launch =>
    dsimp only
    split_ifs with hterminal htransition
    · trivial
    · have hfollows : Follows launch.val.status .failed :=
          ⟨by simpa [AgentLaunch.canTransitionTo] using htransition, nofun⟩
      exact casUpdateStatus_issued hfollows rfl rfl rfl rfl rfl rfl
    · trivial

theorem beginTermination_issued (launchId : String) : (beginTermination launchId).OnlyCalls issued := by
  refine .bind (.perform trivial) fun launch => ?_
  cases launch with
  | none => trivial
  | some launch =>
    dsimp only
    split_ifs with htransition
    · have hfollows : Follows launch.val.status .terminating :=
          ⟨by simpa [AgentLaunch.canTransitionTo] using htransition, nofun⟩
      exact casUpdateStatus_issued hfollows rfl rfl rfl rfl rfl rfl
    · trivial

theorem quarantineEach_issued (reason : AgentLaunch → String) (launches : List AgentLaunch) :
    (quarantineEach reason launches).OnlyCalls issued := by
  induction launches with
  | nil => trivial
  | cons launch rest ih =>
    refine .bind (quarantine_issued _ _) fun ok => ?_
    exact .bind ih fun quarantined => trivial

theorem walkAncestors_issued (depth : Nat) (visited : List String) (current : Option String) :
    (walkAncestors depth visited current).OnlyCalls issued := by
  induction depth generalizing visited current with
  | zero => cases current <;> trivial
  | succ depth ih =>
    cases current with
    | none => trivial
    | some current =>
      unfold walkAncestors
      split_ifs
      · trivial
      · refine .bind (.perform trivial) fun ancestor => ?_
        cases ancestor with
        | none => trivial
        | some ancestor => exact ih _ _

theorem checkParent_issued (parentLaunchId : Option String) (proposedLaunchId : String) :
    (checkParent parentLaunchId proposedLaunchId).OnlyCalls issued := by
  cases parentLaunchId with
  | none => trivial
  | some parentLaunchId =>
    change (validateParentLaunchId _ _).OnlyCalls issued
    unfold validateParentLaunchId
    split_ifs
    · trivial
    · refine .bind (.perform trivial) fun parent => ?_
      cases parent with
      | none => trivial
      | some parent => exact walkAncestors_issued _ _ _

theorem claimLaunch_issued (request : LaunchRequest) : (claimLaunch request).OnlyCalls issued := by
  refine .bind (.perform trivial) fun launchId => ?_
  refine .bind (checkParent_issued _ _) fun refusal => ?_
  cases refusal with
  | some reason => trivial
  | none =>
    refine .bind (.perform trivial) fun now => ?_
    refine .bind (.bind (.perform trivial) fun created => .bind (.perform ?_) fun inserted => ?_)
      fun claimed => ?_
    · exact ⟨rfl, rfl, rfl, rfl, rfl, rfl, rfl, rfl, rfl, rfl, rfl⟩
    · split_ifs
      · exact .perform trivial
      · trivial
    · cases claimed with
      | none => exact .bind (.perform trivial) fun winner => trivial
      | some claimed => trivial

theorem requestLaunch_issued (request : LaunchRequest) : (requestLaunch request).OnlyCalls issued := by
  refine .handle ?_ fun e => trivial
  refine .bind (.perform trivial) fun existing => ?_
  cases existing with
  | none => exact claimLaunch_issued request
  | some existing =>
    refine .bind ?_ fun valid => ?_
    · unfold leaseIsValid
      split
      · trivial
      · exact .bind (.perform trivial) fun now => trivial
    · split_ifs
      · trivial
      · refine .bind ?_ fun _ => claimLaunch_issued request
        unfold clearExpired
        split_ifs
        · exact .bind (quarantine_issued _ _) fun _ => trivial
        · trivial

/-- Each operation claims fresh rows, and moves a launch along with the columns of its new status. -/
theorem program_issued (o : LaunchOp) : o.program.OnlyCalls issued := by
  cases o with
  | requestLaunch request => exact requestLaunch_issued request
  | confirmSpawning launchId | confirmTerminated launchId =>
    exact casUpdateStatus_issued ⟨by decide, by decide⟩ rfl rfl rfl rfl rfl rfl
  | confirmActive launchId backend handleType handleValue paneId session pid pgid =>
    exact casUpdateStatus_issued ⟨by decide, by decide⟩ rfl rfl rfl rfl rfl rfl
  | markFailed launchId error => exact markFailed_issued launchId error
  | beginTermination launchId => exact beginTermination_issued launchId
  | quarantine launchId reason => exact quarantine_issued launchId reason
  | reconcileExpiredLeases =>
    refine .bind (.perform trivial) fun now => .bind (.perform trivial) fun expired => ?_
    exact quarantineEach_issued _ _
  | reconcileLostPanes =>
    refine .bind (.perform trivial) fun activeLaunches => ?_
    dsimp only
    split_ifs
    · exact Program.onlyCalls_ret _
    · refine .bind (.perform trivial) fun panes => ?_
      cases panes with
      | none => trivial
      | some panes => exact quarantineEach_issued _ _

end Calls

section Steps

variable {s s' : LaunchStore} {a : Answered launchSignature Exn}

/-- A row stays, or is what a successful compare-and-set made of it, or was claimed just now. -/
theorem row_cases (hs : UniqueOn rowId s.agentLaunchRegistry) (h : LaunchStore.step a s s')
    {r' : AgentLaunchFields} (hr' : r' ∈ s'.agentLaunchRegistry) :
    (r' ∈ s.agentLaunchRegistry ∧ moved r'.launchId a = none) ∨
      (∃ r ∈ s.agentLaunchRegistry, ∃ new columns,
        a = .ok (.casUpdate r.launchId r.status new columns) true ∧ r' = LaunchStore.set new columns r) ∨
      (a = .ok (.insert r') true ∧ conflicts rowId s.agentLaunchRegistry r' = false) := by
  obtain ⟨c, answer⟩ := a
  cases c with
  | casUpdate launchId expected new columns =>
    cases answer with
    | error e =>
      rw [casUpdate_error h] at hr'
      exact .inl ⟨hr', rfl⟩
    | ok b =>
      obtain ⟨hb, rfl⟩ := casUpdate_ok h
      rcases mem_updateWhere.mp hr' with ⟨r, hr, hguard, rfl⟩ | ⟨hr, hguard⟩
      · have hany : b = true := hb.trans (List.any_eq_true.mpr ⟨r, hr, hguard⟩)
        simp only [guarded, Bool.and_eq_true, beq_iff_eq] at hguard
        obtain ⟨rfl, rfl⟩ := hguard
        exact .inr (.inl ⟨r, hr, new, columns, by rw [hany], rfl⟩)
      · refine .inl ⟨hr, ?_⟩
        by_cases hid : launchId = r'.launchId
        · subst hid
          have hfalse : b = false := by
            rw [hb, any_guarded hs hr]
            simp only [guarded, beq_self_eq_true, Bool.true_and] at hguard
            exact hguard
          rw [hfalse]
          rfl
        · cases b with
          | false => rfl
          | true => exact if_neg hid
  | _ =>
    rcases step_cases h with rfl | ⟨row, hins, hrow, -, heq⟩ | ⟨id, expected, new, columns, hcall, -⟩
    · exact .inl ⟨hr', rfl⟩
    · rw [heq] at hr'
      rcases List.mem_append.mp hr' with hr' | hr'
      · exact .inl ⟨hr', rfl⟩
      · rw [List.mem_singleton.mp hr']
        exact .inr (.inr ⟨hins, hrow⟩)
    · cases hcall

theorem terminal_kept (hs : UniqueOn rowId s.agentLaunchRegistry) (h : LaunchStore.step a s s')
    (ha : issued a.call) {r : AgentLaunchFields} (hr : r ∈ s.agentLaunchRegistry)
    (hterminal : r.status.isTerminal = true) : r ∈ s'.agentLaunchRegistry := by
  apply row_kept h hr
  rintro ⟨expected, new, columns, rfl⟩
  have hexpected := (casUpdate_ok h).1
  rw [any_guarded hs hr, eq_comm, beq_iff_eq] at hexpected
  have hmove : new ∈ expected.validTransitions := ha.1.1
  rw [← hexpected] at hmove
  rw [LaunchStatus.not_terminal_of_transition hmove] at hterminal
  cases hterminal

end Steps

section Run

variable {tr : List launchSystem.Event} {cfg : launchSystem.Config}

theorem moves_concat (launchId : String) (tr : List launchSystem.Event) (e : launchSystem.Event) :
    moves launchId (tr ++ [e]) = moves launchId tr ++ (moved launchId e.answered).toList := by
  cases h : moved launchId e.answered <;> simp [moves, h]

theorem issued_of_mem (run : launchSystem.Run tr cfg) {e : launchSystem.Event} (he : e ∈ tr) :
    issued e.answered.call := run.onlyCalls program_issued he

theorem setsStatus_of_moved {launchId : String} {a : Answered launchSignature Exn}
    (h : moved launchId a ≠ none) : SetsStatus launchId a := by
  obtain ⟨c, answer⟩ := a
  cases c with
  | casUpdate id expected new columns =>
    cases answer with
    | error e => exact absurd rfl h
    | ok b =>
      cases b with
      | false => exact absurd rfl h
      | true =>
        by_cases hid : id = launchId
        · subst hid
          exact ⟨expected, new, columns, rfl⟩
        · exact absurd (if_neg hid) h
  | _ => exact absurd rfl h

theorem moves_eq_nil {launchId : String} (run : launchSystem.Run tr cfg)
    (h : ∀ r ∈ cfg.store.agentLaunchRegistry, r.launchId ≠ launchId) : moves launchId tr = [] := by
  refine List.filterMap_eq_nil_iff.mpr fun e he => ?_
  by_contra hmoved
  obtain ⟨expected, new, columns, heq⟩ := setsStatus_of_moved hmoved
  have hstep : LaunchStore.step e.answered e.before e.after := run.step_of_mem he
  rw [heq] at hstep
  obtain ⟨hany, hafter⟩ := casUpdate_ok hstep
  obtain ⟨r, hr, hguard⟩ := List.any_eq_true.mp hany.symm
  have hid : r.launchId = launchId := by
    simp only [guarded, Bool.and_eq_true, beq_iff_eq] at hguard
    exact hguard.1
  have hset : LaunchStore.set new columns r ∈ e.after.agentLaunchRegistry := by
    rw [hafter]
    exact mem_updateWhere.mpr (.inl ⟨r, hr, hguard, rfl⟩)
  obtain ⟨r', hr', hid', -⟩ := (settles_of_run run).2 e he _ hset
  exact h r' hr' (hid'.trans hid)

/-- In every run each row tells the path of its launch. -/
theorem recorded_of_run (run : launchSystem.Run tr cfg) :
    ∀ r ∈ cfg.store.agentLaunchRegistry, Recorded (moves r.launchId tr) r := by
  induction run with
  | initial h =>
    intro r hr
    rw [show _ = _ from h] at hr
    cases hr
  | invoke run j fresh o ih => exact ih
  | outside run h ih => exact h.elim
  | @call tr s ss run i o c next running answer s' step ih =>
    intro r' hr'
    have hlast : (⟨i, o, ⟨c, answer⟩, s, s'⟩ : launchSystem.Event) ∈ tr ++ [⟨i, o, ⟨c, answer⟩, s, s'⟩] :=
      List.mem_append_right _ (List.mem_singleton_self _)
    have hissued : issued c := issued_of_mem (run.call running step) hlast
    rw [moves_concat]
    rcases row_cases (indexed_of_run run).ids step hr' with
      ⟨hr, hmoved⟩ | ⟨r, hr, new, columns, heq, rfl⟩ | ⟨heq, hfresh⟩
    · rw [hmoved, Option.toList_none, List.append_nil]
      exact ih r' hr
    · cases heq
      have hmoved : moved r.launchId (.ok (.casUpdate r.launchId r.status new columns) true) = some new :=
        if_pos rfl
      rw [show (LaunchStore.set new columns r).launchId = r.launchId from rfl, hmoved]
      exact (ih r hr).set hissued.1 hissued.2
    · cases heq
      have hnone : moves r'.launchId tr = [] := by
        apply moves_eq_nil run
        intro r hr hid
        exact conflicts_eq_false.mp hfresh r hr _ rfl (by rw [rowId, hid])
      rw [hnone]
      exact Fresh.recorded hissued

theorem walk_last {path : List LaunchStatus} {b : LaunchStatus}
    (hwalk : (LaunchStatus.reserved :: path).IsChain Follows)
    (hlast : (LaunchStatus.reserved :: path).getLast? = some b) :
    (path = [] ∧ b = .reserved) ∨ ∃ before a, path = before ++ [b] ∧ Follows a b ∧
      (LaunchStatus.reserved :: before).IsChain Follows ∧ (LaunchStatus.reserved :: before).getLast? = some a := by
  rcases List.eq_nil_or_concat path with rfl | ⟨before, b', rfl⟩
  · exact .inl ⟨rfl, (Option.some.inj hlast).symm⟩
  · rw [List.concat_eq_append, ← List.cons_append] at hwalk hlast
    rw [List.getLast?_concat] at hlast
    cases hlast
    obtain ⟨hbefore, -, hedge⟩ := List.isChain_append.mp hwalk
    have ha := List.getLast?_eq_some_getLast (List.cons_ne_nil LaunchStatus.reserved before)
    exact .inr ⟨before, _, List.concat_eq_append, hedge _ ha b rfl, hbefore, ha⟩

theorem walk_only {path : List LaunchStatus} {a b : LaunchStatus} (hb : b ≠ .reserved)
    (honly : ∀ c, Follows c b → c = a) (hwalk : (LaunchStatus.reserved :: path).IsChain Follows)
    (hlast : (LaunchStatus.reserved :: path).getLast? = some b) :
    ∃ before, path = before ++ [b] ∧ (LaunchStatus.reserved :: before).IsChain Follows ∧
      (LaunchStatus.reserved :: before).getLast? = some a := by
  rcases walk_last hwalk hlast with ⟨-, hreserved⟩ | ⟨before, c, hpath, hedge, hbefore, hc⟩
  · exact absurd hreserved hb
  · rw [honly c hedge] at hc
    exact ⟨before, hpath, hbefore, hc⟩

theorem Recorded.terminated {path : List LaunchStatus} {r : AgentLaunchFields} (h : Recorded path r)
    (hstatus : r.status = .terminated) : path = [.spawning, .active, .terminating, .terminated] := by
  have hlast := h.status
  rw [hstatus] at hlast
  obtain ⟨path₃, rfl, hwalk, hlast⟩ := walk_only (a := .terminating) (by decide) (fun _ h => h.2 rfl) h.walk hlast
  obtain ⟨path₂, rfl, hwalk, hlast⟩ := walk_only (a := .active) (by decide)
    (fun c h => by revert h; cases c <;> decide) hwalk hlast
  obtain ⟨path₁, rfl, hwalk, hlast⟩ := walk_only (a := .spawning) (by decide)
    (fun c h => by revert h; cases c <;> decide) hwalk hlast
  obtain ⟨path₀, rfl, hwalk, hlast⟩ := walk_only (a := .reserved) (by decide)
    (fun c h => by revert h; cases c <;> decide) hwalk hlast
  have hstart : ∀ c, ¬ Follows c .reserved := by
    intro c
    cases c <;> decide
  rcases walk_last hwalk hlast with ⟨rfl, -⟩ | ⟨before, c, -, hedge, -⟩
  · rfl
  · exact absurd hedge (hstart c)

/-- The rows tell the paths of their launches at any time, and the row of a launch that is over stays
as it is. -/
theorem launches_recorded (run : launchSystem.Run tr cfg) :
    (∀ r ∈ cfg.store.agentLaunchRegistry, Recorded (moves r.launchId tr) r ∧
      (r.status = .terminated →
        moves r.launchId tr = [.spawning, .active, .terminating, .terminated])) ∧
    ∀ e ∈ tr, ∀ r ∈ e.after.agentLaunchRegistry, r.status.isTerminal = true →
      r ∈ cfg.store.agentLaunchRegistry := by
  constructor
  · intro r hr
    have hrecorded := recorded_of_run run r hr
    exact ⟨hrecorded, hrecorded.terminated⟩
  · refine (run.grows (R := fun s s' => ∀ r ∈ s.agentLaunchRegistry, r.status.isTerminal = true →
      r ∈ s'.agentLaunchRegistry) (fun _ _ hr _ => hr) ?_ ?_ fun _ _ h => h.elim).2
    · exact fun _ _ _ h h' r hr hterminal => h' r (h r hr hterminal) hterminal
    · intro e he r hr hterminal
      obtain ⟨pre, ss, before⟩ := run.reaches_before he
      exact terminal_kept (indexed_of_run before).ids (run.step_of_mem he) (issued_of_mem run he) hr hterminal

/-- The launch of the first request, once it is being spawned. -/
def spawningRow : AgentLaunchFields := { taskRow "launch-1" 0 .spawning with spawnStartedAt := some 1 }

theorem confirmSpawning_first : (confirmSpawning "launch-1").Runs LaunchStore.step
    ⟨[taskRow "launch-1" 0 .reserved]⟩ (.ok true) ⟨[spawningRow]⟩ := by
  have hnow : LaunchStore.step (.ok .nowMs (1 : Int)) ⟨[taskRow "launch-1" 0 .reserved]⟩
      ⟨[taskRow "launch-1" 0 .reserved]⟩ := .inl ⟨rfl, _, rfl⟩
  exact ⟨_, _, hnow, _, _, .inl ⟨rfl, rfl⟩, rfl, rfl⟩

theorem launches_recorded_spawning : ∃ tr : List launchSystem.Event,
    .spawning ∈ moves "launch-1" tr ∧ Recorded (moves "launch-1" tr) spawningRow := by
  have hinitial : launchSystem.Run [] ⟨{}, fun _ => none⟩ := .initial rfl
  obtain ⟨tr, hfirst⟩ := hinitial.perform (i := 0) (o := .requestLaunch taskRequest) rfl requestLaunch_first
  obtain ⟨tr', hrun⟩ := hfirst.perform (i := 1) (o := .confirmSpawning "launch-1") rfl confirmSpawning_first
  have hrecorded := ((launches_recorded hrun).1 spawningRow (List.mem_singleton_self _)).1
  exact ⟨_, hrecorded.spawnStartedAt.mp rfl, hrecorded⟩

end Run

end ForkAgent.Launch

import ForkAgent.Promises.Repository

/-!
# Evidence in the store

The entity lets no contract into a verification state without evidence and drops the evidence when it
leaves one. `update_state` does neither: it agrees with the entity as long as no verification ends by
it and every contract is saved without evidence.
-/

namespace ForkAgent.Promises

open Effects Storage PromiseContractRepository

inductive PromiseOp where
  | save (contract : PromiseContract)
  | updateState (contractId : String) (state : PromiseState)

def PromiseOp.program : PromiseOp → PromiseProgram PromiseContract
  | .save contract => PromiseContractRepository.save contract
  | .updateState contractId state => PromiseContractRepository.updateState contractId state

/-- An operation, run from one store to another. -/
structure Performed where
  op : PromiseOp
  before : List PromiseContractRow
  out : Except Exn PromiseContract
  after : List PromiseContractRow

/-- A run of operations from the empty store. Any of their calls may fail in the database. -/
inductive Run : List Performed → List PromiseContractRow → Prop where
  | empty : Run [] []
  | perform {tr rows} (before : Run tr rows) (op : PromiseOp) {out rows'}
      (h : op.program.Runs PromiseTable.step rows out rows') : Run (tr ++ [⟨op, rows, out, rows'⟩]) rows'

/-- No call of the operation has failed in the database. -/
def Performed.Served (e : Performed) : Prop := e.op.program.Runs PromiseTable.serve e.before e.out e.after

def PromiseContractRow.EvidenceMatches (row : PromiseContractRow) : Prop :=
  row.verifyEvidence.isSome = row.state.isVerification

/-- The contract that is stored under an id. -/
def Stored (rows : List PromiseContractRow) (contractId : String) (contract : PromiseContract) : Prop :=
  ∃ row, rows.find? (fun row => row.id == contractId) = some row ∧ rowToContract row = .ok contract

/-- What a transition leads to: a state and the evidence for it. -/
def reached (out : Except Exn PromiseContract) : Option (PromiseState × Option VerifyEvidence) :=
  out.toOption.map fun contract => (contract.val.state, contract.val.verifyEvidence)

theorem reached_eq_none {out : Except Exn PromiseContract} (h : ∀ contract, out ≠ .ok contract) :
    reached out = none := by
  cases out with
  | error e => rfl
  | ok contract => exact absurd rfl (h contract)

/-- The update does what the stored contract does when it is given no evidence. -/
def Agrees (rows : List PromiseContractRow) (contractId : String) (state : PromiseState)
    (out : Except Exn PromiseContract) : Prop :=
  ∀ contract, Stored rows contractId contract → ∀ now,
    reached out = reached (contract.transitionTo state none now)

/-- What is wanted of a run. -/
def EvidenceKept (tr : List Performed) : Prop :=
  ∀ e ∈ tr, (∀ row ∈ e.after, row.EvidenceMatches) ∧
    (e.Served → ∀ contractId state, e.op = .updateState contractId state →
      Agrees e.before contractId state e.out)

/-- Every contract is new when it is saved. -/
def SavesCreated (tr : List Performed) : Prop :=
  ∀ e ∈ tr, ∀ contract, e.op = .save contract → contract.val.state = .created

/-- A contract is saved without evidence, where its id is not taken; no verification ends by an
update. -/
def Performed.Guarded (e : Performed) : Prop :=
  match e.op with
  | .save contract => contract.val.id ∈ e.before.map (·.id) ∨ contract.val.verifyEvidence = none
  | .updateState contractId state => ∀ row ∈ e.before, row.id = contractId →
    state ∈ row.state.validTransitions → state.isVerification = false

/-- Each row was a contract, stored under an id of its own. -/
structure Sound (rows : List PromiseContractRow) : Prop where
  contracts : ∀ row ∈ rows, ∃ contract, row = contractToRow contract
  keyed : (rows.map (·.id)).Nodup

section Rows

variable {rows : List PromiseContractRow} {contractId : String} {state : PromiseState} {now : Int}

theorem contractToRow_inj {contract contract' : PromiseContract}
    (h : contractToRow contract = contractToRow contract') : contract = contract' := by
  have hread := rowToContract_contractToRow contract
  rw [h, rowToContract_contractToRow contract'] at hread
  cases hread
  rfl

theorem mem_markState {row : PromiseContractRow} :
    row ∈ PromiseTable.markState contractId state now rows ↔
      (∃ x ∈ rows, x.id = contractId ∧ { x with state, updatedAt := some now } = row) ∨
        row ∈ rows ∧ row.id ≠ contractId := by
  rw [PromiseTable.markState, mem_updateWhere]
  simp

theorem ids_markState :
    (PromiseTable.markState contractId state now rows).map (·.id) = rows.map (·.id) := by
  rw [PromiseTable.markState, updateWhere, List.map_map]
  apply List.map_congr_left
  intro row _
  by_cases hid : row.id = contractId <;> simp [hid]

theorem find?_markState :
    (PromiseTable.markState contractId state now rows).find? (fun row => row.id == contractId) =
      (rows.find? fun row => row.id == contractId).map
        fun row => { row with state, updatedAt := some now } := by
  induction rows with
  | nil => rfl
  | cons row rows ih =>
    rw [PromiseTable.markState, updateWhere, List.map_cons]
    by_cases hid : row.id = contractId
    · simp [hid]
    · rw [if_neg (by simpa using hid), List.find?_cons_of_neg (by simpa using hid),
        List.find?_cons_of_neg (by simpa using hid)]
      exact ih

theorem Sound.stored (h : Sound rows) {row : PromiseContractRow}
    (hrow : rows.find? (fun row => row.id == contractId) = some row) :
    ∃ contract, row = contractToRow contract ∧ row ∈ rows ∧ row.id = contractId := by
  have hmem := List.mem_of_find?_eq_some hrow
  obtain ⟨contract, hcontract⟩ := h.contracts row hmem
  exact ⟨contract, hcontract, hmem, by simpa using List.find?_some hrow⟩

theorem Sound.marked (h : Sound rows) (state : PromiseState) (now : Int) :
    Sound (PromiseTable.markState contractId state now rows) := by
  constructor
  · intro row hrow
    obtain ⟨x, hx, -, rfl⟩ | ⟨hrow, -⟩ := mem_markState.mp hrow
    · obtain ⟨contract, rfl⟩ := h.contracts x hx
      exact ⟨contract.withState state contract.val.verifyEvidence now, rfl⟩
    · exact h.contracts row hrow
  · rw [ids_markState]
    exact h.keyed

theorem Sound.concat (h : Sound rows) {contract : PromiseContract}
    (hfresh : contract.val.id ∉ rows.map (·.id)) : Sound (rows ++ [contractToRow contract]) := by
  constructor
  · intro row hrow
    obtain hrow | hrow := List.mem_append.mp hrow
    · exact h.contracts row hrow
    · exact ⟨contract, List.mem_singleton.mp hrow⟩
  · rw [List.map_append, List.nodup_append]
    refine ⟨h.keyed, List.nodup_singleton _, ?_⟩
    intro x hx y hy hxy
    subst hxy
    apply hfresh
    rw [List.map_singleton, List.mem_singleton] at hy
    rw [hy] at hx
    exact hx

end Rows

section Programs

variable {sem : Semantics promiseSignature Exn (List PromiseContractRow)}
  {s : List PromiseContractRow} {α : Type}

/-- The database serves every call. -/
def Live (sem : Semantics promiseSignature Exn (List PromiseContractRow)) : Prop :=
  ∀ a s s', sem a s s' → PromiseTable.serve a s s'

abbrev Ends (sem : Semantics promiseSignature Exn (List PromiseContractRow)) (p : PromiseProgram α)
    (Q : Except Exn α → List PromiseContractRow → Prop) (s : List PromiseContractRow) : Prop :=
  p.Always sem (fun _ _ => True) Q s

theorem promiseCall_bind_ends {c : PromiseCall} {f : Exn → Exn} {k : c.Value → PromiseProgram α}
    {Q : Except Exn α → List PromiseContractRow → Prop}
    (hok : ∀ v s', sem ⟨c, .ok v⟩ s s' → Ends sem (k v) Q s')
    (herror : ∀ e s', sem ⟨c, .error e⟩ s s' → Q (.error (f e)) s') :
    Ends sem (promiseCall f c >>= k) Q s := by
  constructor
  · trivial
  · intro r s' hstep
    cases r with
    | ok v => exact hok v s' hstep
    | error e => exact herror e s' hstep

variable (hsem : ∀ a s s', sem a s s' → PromiseTable.step a s s')

include hsem

theorem serve_of_ok {c : PromiseCall} {v : c.Value} {s' : List PromiseContractRow}
    (h : sem ⟨c, .ok v⟩ s s') : PromiseTable.serve ⟨c, .ok v⟩ s s' := by
  obtain hserve | ⟨-, m, hm⟩ := hsem _ _ _ h
  · exact hserve
  · cases hm

theorem same_of_error {c : PromiseCall} {e : Exn} {s' : List PromiseContractRow}
    (h : sem ⟨c, .error e⟩ s s') : s' = s := by
  obtain hserve | ⟨hsame, -⟩ := hsem _ _ _ h
  · cases c with
    | insert row =>
      simp only [PromiseTable.serve] at hserve
      split_ifs at hserve
      · exact hserve.2
      · cases hserve.1
    | updateState contractId state now => cases hserve.1
    | selectById contractId => exact hserve.1
    | now => exact hserve.1
  · exact hsame

theorem save_ends {contract : PromiseContract} :
    Ends sem (save contract) (fun _ s' =>
      (s' = s ∧ (Live sem → contract.val.id ∈ s.map (·.id))) ∨
        contract.val.id ∉ s.map (·.id) ∧ s' = s ++ [contractToRow contract]) s := by
  apply promiseCall_bind_ends
  · intro v s' hstep
    right
    have hserve := serve_of_ok hsem hstep
    simp only [PromiseTable.serve] at hserve
    split_ifs at hserve with hid
    · obtain ⟨⟨m, hm⟩, -⟩ := hserve
      cases hm
    · exact ⟨hid, hserve.2⟩
  · intro e s' hstep
    left
    refine ⟨same_of_error hsem hstep, ?_⟩
    intro hlive
    have hserve := hlive _ _ _ hstep
    simp only [PromiseTable.serve] at hserve
    split_ifs at hserve with hid
    · exact hid
    · cases hserve.1

/-- The contract that is read is the one that is stored. -/
theorem getById_ends {contractId : String} (hsound : Sound s) :
    Ends sem (getById contractId) (fun out s' => s' = s ∧
      (∀ found, out = .ok found →
        s.find? (fun row => row.id == contractId) = found.map contractToRow) ∧
      (Live sem → ∃ found, out = .ok found)) s := by
  apply promiseCall_bind_ends
  · intro row s' hstep
    obtain ⟨rfl, hrow⟩ := serve_of_ok hsem hstep
    cases hrow
    cases hfind : s'.find? (fun row => row.id == contractId) with
    | none =>
      refine ⟨rfl, ?_, fun _ => ⟨none, rfl⟩⟩
      intro found h
      cases h
      rfl
    | some row =>
      obtain ⟨contract, rfl, -, -⟩ := hsound.stored hfind
      simp only
      rw [rowToContract_contractToRow]
      refine ⟨rfl, ?_, fun _ => ⟨some contract, rfl⟩⟩
      intro found h
      cases h
      rfl
  · intro e s' hstep
    refine ⟨same_of_error hsem hstep, fun _ h => (nomatch h), ?_⟩
    intro hlive
    cases (hlive _ _ _ hstep).2

theorem setState_ends {contractId : String} {state : PromiseState} {row : PromiseContractRow}
    (hrow : s.find? (fun row => row.id == contractId) = some row) :
    Ends sem (setState contractId state) (fun out s' =>
      (out = .ok () ∧ ∃ now, s' = PromiseTable.markState contractId state now s) ∨
        (∃ e, out = .error e) ∧ s' = s ∧ ¬ Live sem) s := by
  apply promiseCall_bind_ends
  · intro now s₁ hstep
    obtain ⟨rfl, -⟩ := serve_of_ok hsem hstep
    apply promiseCall_bind_ends
    · intro rowcount s' hstep'
      obtain ⟨hcount, rfl⟩ := serve_of_ok hsem hstep'
      cases hcount
      have hpos : s₁.countP (fun row => row.id == contractId) ≠ 0 := by
        rw [← Nat.pos_iff_ne_zero, List.countP_pos_iff]
        exact ⟨row, List.mem_of_find?_eq_some hrow, by simpa using List.find?_some hrow⟩
      rw [if_neg hpos]
      exact .inl ⟨rfl, now, rfl⟩
    · intro e s' hstep'
      refine .inr ⟨⟨_, rfl⟩, same_of_error hsem hstep', ?_⟩
      intro hlive
      cases (hlive _ _ _ hstep').1
  · intro e s' hstep
    refine .inr ⟨⟨_, rfl⟩, same_of_error hsem hstep, ?_⟩
    intro hlive
    obtain ⟨-, now, hnow⟩ := hlive _ _ _ hstep
    cases hnow

/-- An allowed transition of the stored contract was made, with the evidence as it was. -/
structure Changed (s : List PromiseContractRow) (contractId : String) (state : PromiseState)
    (contract : PromiseContract) (now : Int) (s' : List PromiseContractRow) : Prop where
  stored : s.find? (fun row => row.id == contractId) = some (contractToRow contract)
  allowed : contract.val.canTransitionTo state = true
  marked : s' = PromiseTable.markState contractId state now s

theorem updateState_ends {contractId : String} {state : PromiseState} (hsound : Sound s) :
    Ends sem (updateState contractId state) (fun out s' =>
      (∃ contract now, Changed s contractId state contract now s' ∧ ∀ updated, out = .ok updated →
        updated = contract.withState state contract.val.verifyEvidence now) ∧
          (Live sem → ∃ updated, out = .ok updated) ∨
      s' = s ∧ (∃ e, out = .error e) ∧ (Live sem → ∀ contract,
        s.find? (fun row => row.id == contractId) = some (contractToRow contract) →
          contract.val.canTransitionTo state = false)) s := by
  apply Program.Always.bind (getById_ends hsem hsound)
  · intro found s₁ hread
    obtain ⟨rfl, hfound, -⟩ := hread
    have hstored := hfound found rfl
    cases found with
    | none =>
      right
      refine ⟨rfl, ⟨_, rfl⟩, ?_⟩
      intro _ contract hcontract
      rw [hstored] at hcontract
      cases hcontract
    | some current =>
      simp only [Option.map_some] at hstored ⊢
      by_cases hcan : current.val.canTransitionTo state = true
      · rw [if_pos hcan]
        apply Program.Always.bind (setState_ends hsem hstored)
        · intro _ s₂ hset
          obtain ⟨-, now, rfl⟩ | ⟨⟨e, he⟩, -⟩ := hset
          · apply Program.Always.bind (getById_ends hsem (hsound.marked state now))
            · intro updated s₃ hread
              obtain ⟨rfl, hupdated, -⟩ := hread
              have hrow := hupdated updated rfl
              rw [find?_markState, hstored] at hrow
              cases updated with
              | none => cases hrow
              | some updated =>
                have hsame : current.withState state current.val.verifyEvidence now = updated :=
                  contractToRow_inj (Option.some.inj hrow)
                left
                refine ⟨⟨current, now, ⟨hstored, hcan, rfl⟩, ?_⟩, fun _ => ⟨_, rfl⟩⟩
                intro updated' h
                cases h
                exact hsame.symm
            · intro e s₃ hread
              obtain ⟨rfl, -, hlive⟩ := hread
              left
              refine ⟨⟨current, now, ⟨hstored, hcan, rfl⟩, fun _ h => (nomatch h)⟩, ?_⟩
              intro h
              obtain ⟨found, hfound⟩ := hlive h
              cases hfound
          · cases he
        · intro e s₂ hset
          obtain ⟨h, -⟩ | ⟨-, rfl, hdead⟩ := hset
          · cases h
          · exact .inr ⟨rfl, ⟨_, rfl⟩, fun hlive => absurd hlive hdead⟩
      · rw [if_neg hcan]
        right
        refine ⟨rfl, ⟨_, rfl⟩, ?_⟩
        intro _ contract hcontract
        rw [hstored] at hcontract
        rw [← contractToRow_inj (Option.some.inj hcontract)]
        simpa using hcan
  · intro e s₁ hread
    obtain ⟨rfl, -, hlive⟩ := hread
    right
    refine ⟨rfl, ⟨_, rfl⟩, ?_⟩
    intro h
    obtain ⟨found, hfound⟩ := hlive h
    cases hfound

end Programs

/-- What a guarded run keeps of every row: no verification has ended, and no evidence is there. -/
def Plain (rows : List PromiseContractRow) : Prop :=
  ∀ row ∈ rows, row.verifyEvidence = none ∧ row.state.isVerification = false

section Events

variable {e : Performed}

theorem Sound.of_runs (hsound : Sound e.before)
    (hrun : e.op.program.Runs PromiseTable.step e.before e.out e.after) : Sound e.after := by
  obtain ⟨op, before, out, after⟩ := e
  cases op with
  | save contract =>
    obtain ⟨hsame, -⟩ | ⟨hfresh, hafter⟩ := hrun.always (save_ends fun _ _ _ h => h)
    · exact hsame ▸ hsound
    · exact hafter ▸ hsound.concat hfresh
  | updateState contractId state =>
    obtain ⟨⟨contract, now, hchanged, -⟩, -⟩ | ⟨hsame, -⟩ :=
      hrun.always (updateState_ends (fun _ _ _ h => h) hsound)
    · exact hchanged.marked ▸ hsound.marked _ _
    · exact hsame ▸ hsound

theorem Plain.of_guarded (hplain : Plain e.before) (hsound : Sound e.before)
    (hrun : e.op.program.Runs PromiseTable.step e.before e.out e.after) (hguarded : e.Guarded)
    (hcreated : ∀ contract, e.op = .save contract → contract.val.state = .created) :
    Plain e.after := by
  obtain ⟨op, before, out, after⟩ := e
  cases op with
  | save contract =>
    obtain ⟨hsame, -⟩ | ⟨hfresh, hafter⟩ := hrun.always (save_ends fun _ _ _ h => h)
    · exact hsame ▸ hplain
    · intro row hrow
      rw [show after = _ from hafter, List.mem_append, List.mem_singleton] at hrow
      obtain hrow | rfl := hrow
      · exact hplain row hrow
      · obtain htaken | hnone := hguarded
        · exact absurd htaken hfresh
        · simp [contractToRow, hnone, hcreated contract rfl, PromiseState.isVerification]
  | updateState contractId state =>
    obtain ⟨⟨contract, now, hchanged, -⟩, -⟩ | ⟨hsame, -⟩ :=
      hrun.always (updateState_ends (fun _ _ _ h => h) hsound)
    · intro row hrow
      rw [show after = _ from hchanged.marked] at hrow
      obtain ⟨x, hx, hid, rfl⟩ | ⟨hrow, -⟩ := mem_markState.mp hrow
      · have hmem := List.mem_of_find?_eq_some hchanged.stored
        have hkey : (contractToRow contract).id = contractId := by
          simpa using List.find?_some hchanged.stored
        exact ⟨(hplain x hx).1,
          hguarded _ hmem hkey (PromiseContractFields.canTransitionTo_iff.mp hchanged.allowed)⟩
      · exact hplain row hrow
    · exact hsame ▸ hplain

theorem Stored.find {rows : List PromiseContractRow} {contractId : String} {contract : PromiseContract}
    (hsound : Sound rows) (h : Stored rows contractId contract) :
    rows.find? (fun row => row.id == contractId) = some (contractToRow contract) := by
  obtain ⟨row, hfind, hread⟩ := h
  obtain ⟨stored, rfl, -, -⟩ := hsound.stored hfind
  rw [rowToContract_contractToRow] at hread
  cases hread
  exact hfind

theorem agrees_of_guarded (hplain : Plain e.before) (hsound : Sound e.before) (hserved : e.Served)
    (hguarded : e.Guarded) {contractId : String} {state : PromiseState}
    (hop : e.op = .updateState contractId state) : Agrees e.before contractId state e.out := by
  obtain ⟨op, before, out, after⟩ := e
  subst hop
  intro contract hstored now
  have hfind := hstored.find hsound
  have hmem := List.mem_of_find?_eq_some hfind
  have hkey : (contractToRow contract).id = contractId := by simpa using List.find?_some hfind
  have hnone : contract.val.verifyEvidence = none := by
    simpa [contractToRow] using (hplain _ hmem).1
  obtain ⟨⟨stored, now', hchanged, hout⟩, hlive⟩ | ⟨-, ⟨e, he⟩, hrefused⟩ :=
    hserved.always (updateState_ends (fun _ _ _ h => .inl h) hsound)
  · have hsame : stored = contract :=
      contractToRow_inj (Option.some.inj (hchanged.stored.symm.trans hfind))
    subst hsame
    obtain ⟨updated, hok⟩ := hlive fun _ _ _ h => h
    have hnext : state ∈ (contractToRow stored).state.validTransitions :=
      PromiseContractFields.canTransitionTo_iff.mp hchanged.allowed
    have hentity : stored.transitionTo state none now = .ok (stored.withState state none now) :=
      PromiseContract.transitionTo_none_eq_ok.mpr
        ⟨hchanged.allowed, hguarded _ hmem hkey hnext, rfl⟩
    rw [hentity, show out = _ from hok, hout updated hok, hnone]
    rfl
  · have hcan := hrefused (fun _ _ _ h => h) contract hfind
    have hrefuses : reached (contract.transitionTo state none now) = none := by
      apply reached_eq_none
      intro contract' h
      rw [(PromiseContract.transitionTo_none_eq_ok.mp h).1] at hcan
      cases hcan
    rw [show out = _ from he, hrefuses]
    rfl

theorem guarded_of_kept (hsound : Sound e.before) (hserved : e.Served)
    (hcreated : ∀ contract, e.op = .save contract → contract.val.state = .created)
    (hmatches : ∀ row ∈ e.after, row.EvidenceMatches)
    (hagrees : ∀ contractId state, e.op = .updateState contractId state →
      Agrees e.before contractId state e.out) : e.Guarded := by
  obtain ⟨op, before, out, after⟩ := e
  cases op with
  | save contract =>
    obtain ⟨-, htaken⟩ | ⟨hfresh, hafter⟩ := hserved.always (save_ends fun _ _ _ h => .inl h)
    · exact .inl (htaken fun _ _ _ h => h)
    · right
      have hrow := hmatches (contractToRow contract) (by rw [show after = _ from hafter]; simp)
      simpa [PromiseContractRow.EvidenceMatches, contractToRow, hcreated contract rfl,
        PromiseState.isVerification] using hrow
  | updateState contractId state =>
    intro row hrow hid hnext
    by_contra hverification
    rw [Bool.not_eq_false] at hverification
    obtain ⟨contract, rfl⟩ := hsound.contracts row hrow
    have hfind : before.find? (fun row => row.id == contractId) = some (contractToRow contract) := by
      cases hfound : before.find? (fun row => row.id == contractId) with
      | none => exact absurd hid (by simpa using List.find?_eq_none.mp hfound _ hrow)
      | some row =>
        have hkey : row.id = contractId := by simpa using List.find?_some hfound
        rw [List.inj_on_of_nodup_map hsound.keyed (List.mem_of_find?_eq_some hfound) hrow
          (hkey.trans hid.symm)]
    obtain ⟨⟨stored, now, hchanged, -⟩, hlive⟩ | ⟨-, -, hrefused⟩ :=
      hserved.always (updateState_ends (fun _ _ _ h => .inl h) hsound)
    · obtain ⟨updated, hok⟩ := hlive fun _ _ _ h => h
      have hsame := hagrees contractId state rfl contract
        ⟨_, hfind, rowToContract_contractToRow contract⟩ now
      have hrefuses : reached (contract.transitionTo state none now) = none := by
        apply reached_eq_none
        intro contract' h
        rw [(PromiseContract.transitionTo_none_eq_ok.mp h).2.1] at hverification
        cases hverification
      rw [show out = _ from hok, hrefuses] at hsame
      cases hsame
    · have hcan := hrefused (fun _ _ _ h => h) contract hfind
      rw [PromiseContractFields.canTransitionTo_iff.mpr hnext] at hcan
      cases hcan

end Events

section Runs

variable {tr : List Performed} {rows : List PromiseContractRow}

theorem Run.sound (run : Run tr rows) : Sound rows ∧ ∀ e ∈ tr, Sound e.before ∧
    e.op.program.Runs PromiseTable.step e.before e.out e.after := by
  induction run with
  | empty => exact ⟨⟨by simp, by simp⟩, by simp⟩
  | perform before op h ih =>
    rename_i rows₀ out rows'
    refine ⟨Sound.of_runs (e := ⟨op, rows₀, out, rows'⟩) ih.1 h, ?_⟩
    intro e he
    obtain he | he := List.mem_append.mp he
    · exact ih.2 e he
    · rw [List.mem_singleton.mp he]
      exact ⟨ih.1, h⟩

theorem Run.plain (run : Run tr rows) (hcreated : SavesCreated tr)
    (hguarded : ∀ e ∈ tr, e.Guarded) : Plain rows ∧ ∀ e ∈ tr, Plain e.before ∧ Plain e.after := by
  induction run with
  | empty => exact ⟨by simp [Plain], by simp⟩
  | perform before op h ih =>
    rename_i rows₀ out rows'
    have hbefore := ih (fun e he => hcreated e (List.mem_append_left _ he))
      fun e he => hguarded e (List.mem_append_left _ he)
    have hafter : Plain rows' :=
      Plain.of_guarded (e := ⟨op, rows₀, out, rows'⟩) hbefore.1 before.sound.1 h
        (hguarded _ (by simp)) (hcreated ⟨op, rows₀, out, rows'⟩ (by simp))
    refine ⟨hafter, ?_⟩
    intro e he
    obtain he | he := List.mem_append.mp he
    · exact hbefore.2 e he
    · rw [List.mem_singleton.mp he]
      exact ⟨hbefore.1, hafter⟩

/-- In a run in which contracts are new when they are saved, the rule about evidence is kept and the
updates agree with the entity if each operation is guarded and, where no call fails in the database,
only then. -/
theorem evidence_kept_iff (run : Run tr rows) (hcreated : SavesCreated tr) :
    ((∀ e ∈ tr, e.Guarded) → EvidenceKept tr) ∧
      ((∀ e ∈ tr, e.Served) → EvidenceKept tr → ∀ e ∈ tr, e.Guarded) := by
  constructor
  · intro hguarded e he
    have hplain := (run.plain hcreated hguarded).2 e he
    constructor
    · intro row hrow
      obtain ⟨hnone, hstate⟩ := hplain.2 row hrow
      rw [PromiseContractRow.EvidenceMatches, hnone, hstate]
      rfl
    · intro hserved contractId state hop
      exact agrees_of_guarded hplain.1 (run.sound.2 e he).1 hserved (hguarded e he) hop
  · intro hserved hkept e he
    obtain ⟨hmatches, hagrees⟩ := hkept e he
    exact guarded_of_kept (run.sound.2 e he).1 (hserved e he) (hcreated e he) hmatches
      (hagrees (hserved e he))

end Runs

section Example

/-- A database that serves every call, at time 5. -/
def respond : (c : PromiseCall) → List PromiseContractRow →
    Option (Except Exn c.Value × List PromiseContractRow)
  | .insert row, s => if row.id ∈ s.map (·.id) then none else some (.ok (), s ++ [row])
  | .selectById contractId, s => some (.ok (s.find? fun row => row.id == contractId), s)
  | .updateState contractId state now, s =>
    some (.ok (s.countP fun row => row.id == contractId), PromiseTable.markState contractId state now s)
  | .now, s => some (.ok (5 : Int), s)

theorem respond_serve (c : PromiseCall) (s : List PromiseContractRow) (r : Except Exn c.Value)
    (s' : List PromiseContractRow) (h : respond c s = some (r, s')) : PromiseTable.serve ⟨c, r⟩ s s' := by
  cases c with
  | insert row =>
    simp only [respond] at h
    split_ifs at h with hid
    cases h
    simp only [PromiseTable.serve, hid, if_false]
    exact ⟨rfl, trivial⟩
  | now =>
    cases h
    exact ⟨rfl, _, rfl⟩
  | _ =>
    cases h
    exact ⟨rfl, rfl⟩

def draftContract : PromiseContract :=
  ⟨{ id := "c1", sessionId := "s1", planId := "p1", task := "t", state := .created }, by decide⟩

/-- The contract as it is stored, in some state. -/
def draftRow (state : PromiseState) (updatedAt : Option Int) : PromiseContractRow :=
  { contractToRow draftContract with state, updatedAt }

theorem step_of_exec {op : PromiseOp} {s s' : List PromiseContractRow}
    {out : Except Exn PromiseContract} {answers : List (Answered promiseSignature Exn)}
    (h : op.program.exec respond s = some (out, answers, s')) :
    op.program.Runs PromiseTable.step s out s' :=
  (Program.exec_reaches (fun c s r s' h => .inl (respond_serve c s r s' h)) h).runs

def saved : Performed := ⟨.save draftContract, [], .ok draftContract, [draftRow .created none]⟩

def started : Performed :=
  ⟨.updateState "c1" .running, [draftRow .created none], .ok (draftContract.withState .running none 5),
    [draftRow .running (some 5)]⟩

def verified : Performed :=
  ⟨.updateState "c1" .verifyPassed, [draftRow .running (some 5)],
    .ok (draftContract.withState .verifyPassed none 5), [draftRow .verifyPassed (some 5)]⟩

theorem run_started : Run [saved, started] [draftRow .running (some 5)] := by
  have hsave : Run [saved] [draftRow .created none] :=
    Run.empty.perform (.save draftContract) (step_of_exec rfl)
  exact hsave.perform (.updateState "c1" .running) (step_of_exec rfl)

theorem evidence_kept_iff_started : EvidenceKept [saved, started] := by
  refine (evidence_kept_iff run_started ?_).1 ?_
  · intro e he contract hop
    simp only [List.mem_cons, List.not_mem_nil, or_false] at he
    obtain rfl | rfl := he
    · cases hop
      rfl
    · cases hop
  · intro e he
    simp only [List.mem_cons, List.not_mem_nil, or_false] at he
    obtain rfl | rfl := he
    · exact .inr rfl
    · intro _ _ _ _
      rfl

/-- A contract is set to verified without any evidence. -/
theorem verified_without_evidence :
    ¬ ∀ tr rows, Run tr rows → SavesCreated tr → EvidenceKept tr := by
  intro h
  have hrun : Run [saved, started, verified] [draftRow .verifyPassed (some 5)] :=
    run_started.perform (.updateState "c1" .verifyPassed) (step_of_exec rfl)
  have hcreated : SavesCreated [saved, started, verified] := by
    intro e he contract hop
    simp only [List.mem_cons, List.not_mem_nil, or_false] at he
    obtain rfl | rfl | rfl := he
    · cases hop
      rfl
    · cases hop
    · cases hop
  have hrow := (h _ _ hrun hcreated verified (by simp)).1 (draftRow .verifyPassed (some 5))
    (by simp [verified])
  revert hrow
  unfold PromiseContractRow.EvidenceMatches
  decide

end Example

end ForkAgent.Promises

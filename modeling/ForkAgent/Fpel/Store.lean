import ForkAgent.Fpel.Repository

/-!
# FPEL store

What the repository calls preserve. The unique indexes hold in every store, a proposal keeps its
columns and never becomes active again, and verdicts and failure markers stay.
-/

namespace ForkAgent.Fpel.FpelStore

open Effects Storage

variable {H : Hashing} {s s' : FpelStore}

/-- The unique indexes of the proposals and of the verdicts. -/
structure Indexed (s : FpelStore) : Prop where
  proposalIds : UniqueOn proposalId s.frozenProposals
  activeTargets : UniqueOn activeTarget s.frozenProposals
  verdictIds : UniqueOn (fun v => some v.frozenProposalId) s.sealedVerdicts

/-- The second row is a later state of the first. -/
structure Succeeds (r r' : ProposalRow) : Prop where
  frozenProposalId : r'.frozenProposalId = r.frozenProposalId
  targetId : r'.targetId = r.targetId
  contentHash : r'.contentHash = r.contentHash
  content : r'.content = r.content
  active : r'.lifecycle = .active → r.lifecycle = .active

theorem Succeeds.refl (r : ProposalRow) : Succeeds r r := ⟨rfl, rfl, rfl, rfl, id⟩

theorem Succeeds.trans {r₁ r₂ r₃ : ProposalRow} (h : Succeeds r₁ r₂) (h' : Succeeds r₂ r₃) :
    Succeeds r₁ r₃ where
  frozenProposalId := h'.frozenProposalId.trans h.frozenProposalId
  targetId := h'.targetId.trans h.targetId
  contentHash := h'.contentHash.trans h.contentHash
  content := h'.content.trans h.content
  active := h.active ∘ h'.active

/-- The second store is a later state of the first. -/
structure Grows (s s' : FpelStore) : Prop where
  proposals : ∀ r ∈ s.frozenProposals, ∃ r' ∈ s'.frozenProposals, Succeeds r r'
  verdicts : ∀ v ∈ s.sealedVerdicts, v ∈ s'.sealedVerdicts
  failures : ∀ id, s.failed id = true → s'.failed id = true

theorem Grows.refl (s : FpelStore) : Grows s s :=
  ⟨fun r hr => ⟨r, hr, .refl r⟩, fun _ hv => hv, fun _ h => h⟩

theorem Grows.trans {s₁ s₂ s₃ : FpelStore} (h : Grows s₁ s₂) (h' : Grows s₂ s₃) :
    Grows s₁ s₃ where
  proposals r hr := by
    obtain ⟨r₂, hr₂, h₂⟩ := h.proposals r hr
    obtain ⟨r₃, hr₃, h₃⟩ := h'.proposals r₂ hr₂
    exact ⟨r₃, hr₃, h₂.trans h₃⟩
  verdicts v hv := h'.verdicts v (h.verdicts v hv)
  failures id hid := h'.failures id (h.failures id hid)

theorem Grows.hasProposal (h : Grows s s') {id : String} (hid : s.hasProposal id = true) :
    s'.hasProposal id = true := by
  obtain ⟨row, hrow, hrowId⟩ := List.any_eq_true.mp hid
  obtain ⟨row', hrow', hsucc⟩ := h.proposals row hrow
  refine List.any_eq_true.mpr ⟨row', hrow', ?_⟩
  rw [hsucc.frozenProposalId]
  exact hrowId

theorem insertProposal_ok {row : ProposalRow} (h : s.insertProposal row = .ok s') :
    conflicts proposalId s.frozenProposals row = false ∧
      conflicts activeTarget s.frozenProposals row = false ∧
      s' = { s with frozenProposals := s.frozenProposals ++ [row] } := by
  unfold insertProposal at h
  split_ifs at h with hid htarget
  · cases h; exact ⟨by simpa using hid, by simpa using htarget, rfl⟩

theorem insertVerdict_ok {v : SealedVerdictFields} (h : s.insertVerdict v = .ok s') :
    conflicts (some ·.frozenProposalId) s.sealedVerdicts v = false ∧
      s' = { s with sealedVerdicts := s.sealedVerdicts ++ [v] } := by
  unfold insertVerdict at h
  split_ifs at h with hid hproposal
  · cases h; exact ⟨by simpa using hid, rfl⟩

theorem insertReport_ok {r : CheckerReport} (h : s.insertReport r = .ok s') :
    s' = { s with checkerReports := s.checkerReports ++ [r] } := by
  unfold insertReport at h
  split_ifs at h
  · cases h; rfl

theorem insertFailure_ok {frozenProposalId : String} {reason : Option String}
    (h : s.insertFailure frozenProposalId reason = .ok s') :
    ∃ rows, s' = { s with fpelProposalFailures := s.fpelProposalFailures ++ rows } := by
  unfold insertFailure at h
  split_ifs at h
  · cases h; exact ⟨[], by simp⟩
  · cases h; exact ⟨_, rfl⟩

theorem upsertStatus_eq (s : FpelStore) (targetId status : String) :
    ∃ rows, s.upsertStatus targetId status = { s with fpelStatus := rows } := by
  unfold upsertStatus
  split_ifs
  · exact ⟨_, rfl⟩
  · exact ⟨_, rfl⟩

/-- What the five statements of the repository preserve, every call preserves. -/
theorem step_preserves {P : FpelStore → Prop}
    (hsupersede : ∀ s ids, P s → P (s.supersede ids))
    (hproposal : ∀ s row s', P s → s.insertProposal row = .ok s' → P s')
    (hverdict : ∀ s v s', P s → s.insertVerdict v = .ok s' → P s')
    (hfailure : ∀ s id reason s', P s → s.insertFailure id reason = .ok s' → P s')
    (hstatus : ∀ s targetId status, P s → P (s.upsertStatus targetId status))
    {a : Answered (fpelSignature H) Exn} (h : step H a s s') (hs : P s) : P s' := by
  rcases h with h | ⟨rfl, -⟩
  swap
  · exact hs
  obtain ⟨c, r⟩ := a
  cases c with
  | saveFrozenProposal proposal ids =>
    obtain ⟨createdAt, htx⟩ := h
    exact htx.elim hs fun s₁ h₁ => hproposal _ _ _ (hsupersede _ _ hs) h₁
  | saveSealedVerdict verdict => exact Transaction.elim h hs fun s₁ h₁ => hverdict _ _ _ hs h₁
  | saveFpelStatus targetId status =>
    rw [h.2]
    exact hstatus _ _ _ hs
  | markFailed frozenProposalId reason =>
    exact Transaction.elim h hs fun s₁ h₁ => hfailure _ _ _ _ hs h₁
  | saveFrozenWithSealedVerdict proposal verdict ids =>
    obtain ⟨createdAt, htx⟩ := h
    refine htx.elim hs fun s₂ h₂ => ?_
    cases h₁ : (s.supersede ids).insertProposal ⟨proposal.val, createdAt⟩ with
    | error e => rw [h₁] at h₂; cases h₂
    | ok s₁ =>
      rw [h₁] at h₂
      exact hverdict _ _ _ (hproposal _ _ _ (hsupersede _ _ hs) h₁) h₂
  | _ => rw [h.1]; exact hs

theorem Indexed.supersede (h : s.Indexed) (ids : List String) : (s.supersede ids).Indexed where
  proposalIds := h.proposalIds.updateWhere fun _ _ _ => .inl rfl
  activeTargets := h.activeTargets.updateWhere fun _ _ _ => .inr rfl
  verdictIds := h.verdictIds

theorem Indexed.step (h : s.Indexed) {a : Answered (fpelSignature H) Exn}
    (hstep : step H a s s') : s'.Indexed := by
  refine step_preserves (P := Indexed) (fun s ids hs => hs.supersede ids) ?_ ?_ ?_ ?_ hstep h
  · intro s row s' hs hrow
    obtain ⟨hid, htarget, rfl⟩ := insertProposal_ok hrow
    exact ⟨hs.proposalIds.insert hid, hs.activeTargets.insert htarget, hs.verdictIds⟩
  · intro s v s' hs hv
    obtain ⟨hid, rfl⟩ := insertVerdict_ok hv
    exact ⟨hs.proposalIds, hs.activeTargets, hs.verdictIds.insert hid⟩
  · intro s id reason s' hs hid
    obtain ⟨rows, rfl⟩ := insertFailure_ok hid
    exact ⟨hs.proposalIds, hs.activeTargets, hs.verdictIds⟩
  · intro s targetId status hs
    obtain ⟨rows, heq⟩ := s.upsertStatus_eq targetId status
    rw [heq]
    exact ⟨hs.proposalIds, hs.activeTargets, hs.verdictIds⟩

theorem Grows.supersede (s : FpelStore) (ids : List String) : Grows s (s.supersede ids) where
  proposals r hr := by
    refine ⟨_, updateWhere_of_mem hr, ?_⟩
    split_ifs
    · exact ⟨rfl, rfl, rfl, rfl, fun h => by cases h⟩
    · exact .refl r
  verdicts _ hv := hv
  failures _ h := h

theorem Grows.step {a : Answered (fpelSignature H) Exn} (hstep : step H a s s') :
    Grows s s' := by
  refine step_preserves (P := Grows s) (fun s₁ ids h₁ => h₁.trans (.supersede s₁ ids))
    ?_ ?_ ?_ ?_ hstep (.refl s)
  · intro s₁ row s₂ h₁ hrow
    obtain ⟨-, -, rfl⟩ := insertProposal_ok hrow
    refine h₁.trans ⟨fun r hr => ⟨r, ?_, .refl r⟩, fun _ hv => hv, fun _ h => h⟩
    exact List.mem_append_left _ hr
  · intro s₁ v s₂ h₁ hv
    obtain ⟨-, rfl⟩ := insertVerdict_ok hv
    refine h₁.trans ⟨fun r hr => ⟨r, hr, .refl r⟩, fun w hw => ?_, fun _ h => h⟩
    exact List.mem_append_left _ hw
  · intro s₁ id reason s₂ h₁ hid
    obtain ⟨rows, rfl⟩ := insertFailure_ok hid
    refine h₁.trans ⟨fun r hr => ⟨r, hr, .refl r⟩, fun _ hv => hv, fun id' h => ?_⟩
    simp only [failed, List.any_append, Bool.or_eq_true] at h ⊢
    exact .inl h
  · intro s₁ targetId status h₁
    obtain ⟨rows, heq⟩ := s₁.upsertStatus_eq targetId status
    rw [heq]
    exact h₁.trans ⟨fun r hr => ⟨r, hr, .refl r⟩, fun _ hv => hv, fun _ h => h⟩

theorem Grows.insertReport {r : CheckerReport} (h : s.insertReport r = .ok s') : Grows s s' := by
  rw [insertReport_ok h]
  exact ⟨fun r hr => ⟨r, hr, .refl r⟩, fun _ hv => hv, fun _ h => h⟩

theorem Indexed.insertReport (h : s.Indexed) {r : CheckerReport} (hr : s.insertReport r = .ok s') :
    s'.Indexed := by
  rw [insertReport_ok hr]
  exact ⟨h.proposalIds, h.activeTargets, h.verdictIds⟩

theorem mem_activeRows {targetId : String} {row : ProposalRow} :
    row ∈ s.activeRows targetId ↔
      row ∈ s.frozenProposals ∧ row.lifecycle = .active ∧ row.targetId = targetId := by
  simp only [activeRows, List.mem_filter, activeTarget, beq_iff_eq]
  refine and_congr_right fun _ => ?_
  split_ifs with h <;> simp [h]

theorem Indexed.activeRows_eq (h : s.Indexed) {targetId : String} {row : ProposalRow}
    (hrow : row ∈ s.activeRows targetId) : s.activeRows targetId = [row] := by
  have hlength : (s.activeRows targetId).length ≤ 1 := h.activeTargets.length_le_one targetId
  match hrows : s.activeRows targetId with
  | [] => rw [hrows] at hrow; cases hrow
  | [r] => rw [hrows, List.mem_singleton] at hrow; rw [hrow]
  | r₁ :: r₂ :: rest => rw [hrows] at hlength; simp at hlength

section Reads

theorem getActiveFrozenProposal_ok {targetId : String} {frozen : FrozenProposal H}
    (h : step H (.ok (.getActiveFrozenProposal targetId) (some frozen)) s s') :
    s' = s ∧ ∃ row ∈ s.activeRows targetId, row.toFrozenProposalFields = frozen.val := by
  rcases h with ⟨rfl, row, hlatest, hanswer⟩ | ⟨-, m, hm⟩
  · obtain ⟨row, rfl, hrow⟩ := mapM_construct_eq_some.mp hanswer.symm
    exact ⟨rfl, row, hlatest.1, hrow.symm⟩
  · cases hm

theorem isFailed_ok {frozenProposalId : String} {b : Bool}
    (h : step H (.ok (.isFailed frozenProposalId) b) s s') :
    s' = s ∧ b = s.failed frozenProposalId := by
  rcases h with ⟨rfl, hanswer⟩ | ⟨-, m, hm⟩
  · exact ⟨rfl, Except.ok.inj hanswer⟩
  · cases hm

theorem getSealedVerdict_ok {frozenProposalId : String} {verdict : SealedVerdict}
    (h : step H (.ok (.getSealedVerdict frozenProposalId) (some verdict)) s s') :
    s' = s ∧ verdict.val ∈ s.sealedVerdicts ∧
      verdict.val.frozenProposalId = frozenProposalId := by
  rcases h with ⟨rfl, hanswer⟩ | ⟨-, m, hm⟩
  · obtain ⟨row, hfind, hrow⟩ := mapM_construct_eq_some.mp hanswer.symm
    rw [hrow]
    exact ⟨rfl, List.mem_of_find?_eq_some hfind, by simpa using List.find?_some hfind⟩
  · cases hm

theorem getCheckersFor_ok {targetId : String} {checkers : List String}
    (h : step H (.ok (.getCheckersFor targetId) checkers) s s') :
    s' = s ∧ ∀ c, c ∈ checkers ↔ ∃ report ∈ s.checkerReports, ∃ row ∈ s.activeRows targetId,
      report.frozenProposalId = row.frozenProposalId ∧ report.checkerId = c := by
  rcases h with ⟨rfl, answer, hanswer, -, hmem⟩ | ⟨-, m, hm⟩
  · cases hanswer
    exact ⟨rfl, hmem⟩
  · cases hm

theorem getReportsFor_ok {frozenProposalId : String} {reports : List CheckerReport}
    (h : step H (.ok (.getReportsFor frozenProposalId) reports) s s') :
    s' = s ∧ ∀ r, r ∈ reports ↔ r ∈ s.checkerReports ∧ r.frozenProposalId = frozenProposalId := by
  rcases h with ⟨rfl, answer, hanswer, hperm⟩ | ⟨-, m, hm⟩
  · cases hanswer
    exact ⟨rfl, fun r => by simp [hperm.mem_iff]⟩
  · cases hm

end Reads

/-- The only calls that insert a verdict. -/
theorem verdict_inserted {a : Answered (fpelSignature H) Exn} {v : SealedVerdictFields}
    (h : step H a s s') (hbefore : v ∉ s.sealedVerdicts) (hafter : v ∈ s'.sealedVerdicts) :
    (∃ verdict : SealedVerdict, verdict.val = v ∧ a = .ok (.saveSealedVerdict verdict) ()) ∨
      ∃ (proposal : FrozenProposal H) (verdict : SealedVerdict) (ids : List String),
        verdict.val = v ∧ a = .ok (.saveFrozenWithSealedVerdict proposal verdict ids) () ∧
        ∃ row ∈ s'.frozenProposals, row.toFrozenProposalFields = proposal.val := by
  have unchanged : s'.sealedVerdicts ≠ s.sealedVerdicts := fun heq => hbefore (heq ▸ hafter)
  rcases h with h | ⟨rfl, -⟩
  swap
  · exact absurd rfl unchanged
  obtain ⟨c, r⟩ := a
  cases c with
  | saveFrozenProposal proposal ids =>
    obtain ⟨createdAt, htx⟩ := h
    refine absurd (htx.elim (P := fun t => t.sealedVerdicts = s.sealedVerdicts) rfl ?_) unchanged
    intro s₁ h₁
    obtain ⟨-, -, rfl⟩ := insertProposal_ok h₁
    rfl
  | saveSealedVerdict verdict =>
    left
    cases h₁ : s.insertVerdict verdict.val with
    | error e =>
      simp only [serve, Transaction, h₁] at h
      exact absurd (by rw [h.2]) unchanged
    | ok s₁ =>
      simp only [serve, Transaction, h₁] at h
      obtain ⟨-, hs₁⟩ := insertVerdict_ok h₁
      rw [h.2, hs₁] at hafter
      rcases List.mem_append.mp hafter with hv | hv
      · exact absurd hv hbefore
      · exact ⟨verdict, (List.mem_singleton.mp hv).symm, by rw [h.1]; rfl⟩
  | saveFpelStatus targetId status =>
    obtain ⟨rows, heq⟩ := s.upsertStatus_eq targetId status
    exact absurd (by rw [h.2, heq]) unchanged
  | markFailed frozenProposalId reason =>
    refine absurd (Transaction.elim h (P := fun t => t.sealedVerdicts = s.sealedVerdicts) rfl ?_)
      unchanged
    intro s₁ h₁
    obtain ⟨rows, rfl⟩ := insertFailure_ok h₁
    rfl
  | saveFrozenWithSealedVerdict proposal verdict ids =>
    right
    obtain ⟨createdAt, htx⟩ := h
    cases h₁ : (s.supersede ids).insertProposal ⟨proposal.val, createdAt⟩ with
    | error e =>
      simp only [Transaction, h₁, Except.bind] at htx
      exact absurd (by rw [htx.2]) unchanged
    | ok s₁ =>
      obtain ⟨-, -, hs₁⟩ := insertProposal_ok h₁
      cases h₂ : s₁.insertVerdict verdict.val with
      | error e =>
        simp only [Transaction, h₁, h₂, Except.bind] at htx
        exact absurd (by rw [htx.2]) unchanged
      | ok s₂ =>
        simp only [Transaction, h₁, h₂, Except.bind] at htx
        obtain ⟨-, hs₂⟩ := insertVerdict_ok h₂
        rw [htx.2, hs₂, hs₁] at hafter ⊢
        rcases List.mem_append.mp hafter with hv | hv
        · exact absurd hv hbefore
        · refine ⟨proposal, verdict, ids, (List.mem_singleton.mp hv).symm, by rw [htx.1]; rfl, ?_⟩
          exact ⟨_, List.mem_append_right _ (List.mem_singleton_self _), rfl⟩
  | _ => exact absurd (by rw [h.1]) unchanged

@[simp] theorem hasProposal_supersede (s : FpelStore) (ids : List String) (id : String) :
    (s.supersede ids).hasProposal id = s.hasProposal id := by
  simp only [hasProposal, supersede, updateWhere, List.any_map]
  congr 1
  funext r
  simp only [Function.comp_apply]
  split_ifs <;> rfl

/-- `REFERENCES frozen_proposals`: every verdict is about a stored proposal. -/
def References (s : FpelStore) : Prop :=
  ∀ v ∈ s.sealedVerdicts, s.hasProposal v.frozenProposalId = true

theorem References.step (hs : s.References) {a : Answered (fpelSignature H) Exn}
    (hstep : step H a s s') : s'.References := by
  refine step_preserves (P := References) ?_ ?_ ?_ ?_ ?_ hstep hs
  · intro s₁ ids h₁ v hv
    rw [hasProposal_supersede]
    exact h₁ v hv
  · intro s₁ row s₂ h₁ hrow v hv
    obtain ⟨-, -, rfl⟩ := insertProposal_ok hrow
    have hold := h₁ v hv
    simp only [hasProposal, List.any_append, Bool.or_eq_true] at hold ⊢
    exact .inl hold
  · intro s₁ w s₂ h₁ hw v hv
    unfold insertVerdict at hw
    split_ifs at hw with hid hproposal
    cases hw
    rcases List.mem_append.mp hv with hv | hv
    · exact h₁ v hv
    · rw [List.mem_singleton.mp hv]
      have hthere : s₁.hasProposal w.frozenProposalId = true := by simpa using hproposal
      exact hthere
  · intro s₁ id reason s₂ h₁ hid
    obtain ⟨rows, rfl⟩ := insertFailure_ok hid
    exact h₁
  · intro s₁ targetId status h₁
    obtain ⟨rows, heq⟩ := s₁.upsertStatus_eq targetId status
    rw [heq]
    exact h₁

/-- The only calls that insert a proposal. -/
theorem proposal_inserted {a : Answered (fpelSignature H) Exn} {id : String} (h : step H a s s')
    (hbefore : s.hasProposal id = false) (hafter : s'.hasProposal id = true) :
    ∃ proposal : FrozenProposal H, proposal.val.frozenProposalId = id ∧
      (∃ row ∈ s'.frozenProposals, row.toFrozenProposalFields = proposal.val) ∧
      ((∃ ids, a = .ok (.saveFrozenProposal proposal ids) () ∧ s'.sealedVerdicts = s.sealedVerdicts) ∨
        ∃ verdict ids, a = .ok (.saveFrozenWithSealedVerdict proposal verdict ids) ()) := by
  have unchanged : s'.hasProposal id ≠ s.hasProposal id := by
    rw [hbefore, hafter]
    decide
  have hnew : ∀ {ids : List String} {row : ProposalRow} {s₁ : FpelStore},
      (s.supersede ids).insertProposal row = .ok s₁ → s₁.hasProposal id = true →
      row.frozenProposalId = id ∧ row ∈ s₁.frozenProposals ∧ s₁.sealedVerdicts = s.sealedVerdicts := by
    intro ids row s₁ hinsert hhas
    obtain ⟨-, -, rfl⟩ := insertProposal_ok hinsert
    refine ⟨?_, List.mem_append_right _ (List.mem_singleton_self _), rfl⟩
    have hold : (s.supersede ids).hasProposal id = false := by rw [hasProposal_supersede, hbefore]
    simp only [hasProposal] at hhas hold
    simpa [List.any_append, hold] using hhas
  rcases h with h | ⟨rfl, -⟩
  swap
  · exact absurd rfl unchanged
  obtain ⟨c, r⟩ := a
  cases c with
  | saveFrozenProposal proposal ids =>
    obtain ⟨createdAt, htx⟩ := h
    cases h₁ : (s.supersede ids).insertProposal ⟨proposal.val, createdAt⟩ with
    | error e =>
      simp only [Transaction, h₁] at htx
      exact absurd (by rw [htx.2]) unchanged
    | ok s₁ =>
      simp only [Transaction, h₁] at htx
      rw [htx.2] at hafter ⊢
      obtain ⟨hid, hmem, hverdicts⟩ := hnew h₁ hafter
      exact ⟨proposal, hid, ⟨_, hmem, rfl⟩, .inl ⟨ids, by rw [htx.1]; rfl, hverdicts⟩⟩
  | saveSealedVerdict verdict =>
    refine absurd (Transaction.elim h (P := fun t => t.hasProposal id = s.hasProposal id) rfl ?_)
      unchanged
    intro s₁ h₁
    obtain ⟨-, rfl⟩ := insertVerdict_ok h₁
    rfl
  | saveFpelStatus targetId status =>
    obtain ⟨rows, heq⟩ := s.upsertStatus_eq targetId status
    exact absurd (by rw [h.2, heq]; rfl) unchanged
  | markFailed frozenProposalId reason =>
    refine absurd (Transaction.elim h (P := fun t => t.hasProposal id = s.hasProposal id) rfl ?_)
      unchanged
    intro s₁ h₁
    obtain ⟨rows, rfl⟩ := insertFailure_ok h₁
    rfl
  | saveFrozenWithSealedVerdict proposal verdict ids =>
    obtain ⟨createdAt, htx⟩ := h
    cases h₁ : (s.supersede ids).insertProposal ⟨proposal.val, createdAt⟩ with
    | error e =>
      simp only [Transaction, h₁, Except.bind] at htx
      exact absurd (by rw [htx.2]) unchanged
    | ok s₁ =>
      cases h₂ : s₁.insertVerdict verdict.val with
      | error e =>
        simp only [Transaction, h₁, h₂, Except.bind] at htx
        exact absurd (by rw [htx.2]) unchanged
      | ok s₂ =>
        simp only [Transaction, h₁, h₂, Except.bind] at htx
        obtain ⟨-, hs₂⟩ := insertVerdict_ok h₂
        rw [htx.2, hs₂] at hafter ⊢
        obtain ⟨hid, hmem, -⟩ := hnew h₁ hafter
        exact ⟨proposal, hid, ⟨_, hmem, rfl⟩, .inr ⟨verdict, ids, by rw [htx.1]; rfl⟩⟩
  | _ => exact absurd (by rw [h.1]) unchanged

theorem markFailed_ok {frozenProposalId : String} {reason : Option String}
    (h : step H (.ok (.markFailed frozenProposalId reason) ()) s s') :
    s'.failed frozenProposalId = true ∧ s'.frozenProposals = s.frozenProposals := by
  rcases h with h | ⟨-, m, hm⟩
  swap
  · cases hm
  have hinsert := Transaction.ok h
  unfold insertFailure at hinsert
  split_ifs at hinsert with hfailed
  · cases hinsert
    exact ⟨hfailed, rfl⟩
  · cases hinsert
    simp [failed]

end ForkAgent.Fpel.FpelStore

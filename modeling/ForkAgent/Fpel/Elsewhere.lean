import ForkAgent.Fpel.Reports

/-!
# Operations on other targets

What is stored about a target is its proposals, with their verdicts, reports and failure markers,
and its status. A step of an operation on another target leaves all of it unchanged.
-/

namespace ForkAgent.Fpel

open Effects Storage FpelStore

variable {H : Hashing} {targetId : String} {s s' : FpelStore}

namespace FpelStore

/-- The status that `get_fpel_status` finds. -/
def statusOf (s : FpelStore) (targetId : String) : Option String :=
  (s.fpelStatus.find? fun r => r.1 == targetId).map (·.2)

/-- No proposal of the target has the id. -/
def NotOf (s : FpelStore) (targetId frozenProposalId : String) : Prop :=
  ∀ r ∈ s.frozenProposals, r.frozenProposalId = frozenProposalId → r.targetId ≠ targetId

/-- Verdicts, failure markers and reports are about stored proposals. -/
structure Sound (s : FpelStore) : Prop where
  indexed : s.Indexed
  verdicts : s.References
  failures : ∀ f ∈ s.fpelProposalFailures, s.hasProposal f.1 = true
  reports : ∀ r ∈ s.checkerReports, s.hasProposal r.frozenProposalId = true

theorem failure_inserted {id : String} {reason : Option String}
    (h : s.insertFailure id reason = .ok s') {f : String × Option String}
    (hf : f ∈ s'.fpelProposalFailures) :
    f ∈ s.fpelProposalFailures ∨ f.1 = id ∧ s.hasProposal id = true := by
  unfold insertFailure at h
  split_ifs at h with hfailed hproposal
  · cases h
    exact .inl hf
  · cases h
    rcases List.mem_append.mp hf with hf | hf
    · exact .inl hf
    · rw [List.mem_singleton.mp hf]
      have hthere : s.hasProposal id = true := by simpa using hproposal
      exact .inr ⟨rfl, hthere⟩

theorem checkerReports_step {a : Answered (fpelSignature H) Exn} (hstep : FpelStore.step H a s s') :
    s'.checkerReports = s.checkerReports := by
  refine step_preserves (P := fun s₁ => s₁.checkerReports = s.checkerReports) (fun _ _ h => h)
    ?_ ?_ ?_ ?_ hstep rfl
  · intro s₁ row s₂ h₁ hrow
    obtain ⟨-, -, rfl⟩ := insertProposal_ok hrow
    exact h₁
  · intro s₁ v s₂ h₁ hv
    obtain ⟨-, rfl⟩ := insertVerdict_ok hv
    exact h₁
  · intro s₁ id reason s₂ h₁ hid
    obtain ⟨rows, rfl⟩ := insertFailure_ok hid
    exact h₁
  · intro s₁ targetId status h₁
    obtain ⟨rows, heq⟩ := s₁.upsertStatus_eq targetId status
    rw [heq]
    exact h₁

theorem Sound.step (hs : s.Sound) {a : Answered (fpelSignature H) Exn}
    (hstep : FpelStore.step H a s s') : s'.Sound := by
  have hgrows : Grows s s' := .step hstep
  refine ⟨hs.indexed.step hstep, hs.verdicts.step hstep, ?_, ?_⟩
  · refine step_preserves (H := H)
      (P := fun s₁ => ∀ f ∈ s₁.fpelProposalFailures, s₁.hasProposal f.1 = true) ?_ ?_ ?_ ?_ ?_ hstep
      hs.failures
    · intro s₁ ids h₁ f hf
      rw [hasProposal_supersede]
      exact h₁ f hf
    · intro s₁ row s₂ h₁ hrow f hf
      obtain ⟨-, -, rfl⟩ := insertProposal_ok hrow
      have hold := h₁ f hf
      simp only [FpelStore.hasProposal, List.any_append, Bool.or_eq_true] at hold ⊢
      exact .inl hold
    · intro s₁ v s₂ h₁ hv
      obtain ⟨-, rfl⟩ := insertVerdict_ok hv
      exact h₁
    · intro s₁ id reason s₂ h₁ hid f hf
      obtain ⟨rows, heq⟩ := insertFailure_ok hid
      have hproposals : s₂.hasProposal f.1 = s₁.hasProposal f.1 := by rw [heq]; rfl
      rw [hproposals]
      rcases failure_inserted hid hf with hold | ⟨heqId, hthere⟩
      · exact h₁ f hold
      · rw [heqId]
        exact hthere
    · intro s₁ target status h₁
      obtain ⟨rows, heq⟩ := s₁.upsertStatus_eq target status
      rw [heq]
      exact h₁
  · rw [checkerReports_step hstep]
    exact fun r hr => hgrows.hasProposal (hs.reports r hr)

theorem Sound.insertReport (hs : s.Sound) {report : CheckerReport}
    (h : s.insertReport report = .ok s') : s'.Sound := by
  refine ⟨hs.indexed.insertReport h, ?_, ?_, ?_⟩
  · rw [insertReport_ok h]
    exact hs.verdicts
  · rw [insertReport_ok h]
    exact hs.failures
  · intro r hr
    unfold FpelStore.insertReport at h
    split_ifs at h with hkey hproposal
    cases h
    rcases List.mem_append.mp hr with hr | hr
    · exact hs.reports r hr
    · rw [List.mem_singleton.mp hr]
      have hthere : s.hasProposal report.frozenProposalId = true := by simpa using hproposal
      exact hthere

theorem statusOf_upsertStatus {target status : String} (h : target ≠ targetId) :
    (s.upsertStatus target status).statusOf targetId = s.statusOf targetId := by
  have hkeys : ∀ rows : List (String × String),
      ((updateWhere (fun r => r.1 == target) (fun r => (r.1, status)) rows).find?
          fun r => r.1 == targetId).map (·.2) =
        (rows.find? fun r => r.1 == targetId).map (·.2) := by
    intro rows
    induction rows with
    | nil => rfl
    | cons r rows ih =>
      have hcons : updateWhere (fun r => r.1 == target) (fun r => (r.1, status)) (r :: rows) =
          (if r.1 == target then (r.1, status) else r) ::
            updateWhere (fun r => r.1 == target) (fun r => (r.1, status)) rows := rfl
      rw [hcons]
      by_cases htarget : r.1 = target
      · have hother : (r.1 == targetId) = false := by simpa [htarget] using h
        simp [htarget, h, ih]
      · by_cases hown : r.1 = targetId
        · simp [hown, Ne.symm h]
        · simp [htarget, hown, ih]
  unfold upsertStatus statusOf
  split_ifs
  · exact hkeys s.fpelStatus
  · simp [List.find?_append, h]

end FpelStore

/-- A call that is not about the target. -/
def Avoids (targetId : String) (s : FpelStore) : FpelCall H → Prop
  | .saveFrozenProposal proposal ids =>
    proposal.val.targetId ≠ targetId ∧ ∀ id ∈ ids, s.NotOf targetId id
  | .saveFrozenWithSealedVerdict proposal verdict ids =>
    proposal.val.targetId ≠ targetId ∧ (∀ id ∈ ids, s.NotOf targetId id) ∧
      verdict.val.frozenProposalId = proposal.val.frozenProposalId
  | .saveSealedVerdict verdict => s.NotOf targetId verdict.val.frozenProposalId
  | .markFailed frozenProposalId _ => s.NotOf targetId frozenProposalId
  | .saveFpelStatus target _ => target ≠ targetId
  | _ => True

/-- A step of an operation on another target, or a report on a proposal of another target. -/
inductive Elsewhere (H : Hashing) (targetId : String) (s s' : FpelStore) : Prop where
  | call (a : Answered (fpelSignature H) Exn) (avoids : Avoids targetId s a.call)
      (step : FpelStore.step H a s s')
  | report (report : CheckerReport) (other : s.NotOf targetId report.frozenProposalId)
      (filed : s.insertReport report = .ok s')

/-- What is stored about the target is the same. -/
structure Unchanged (targetId : String) (s s' : FpelStore) : Prop where
  proposals : ∀ r, r.targetId = targetId → (r ∈ s'.frozenProposals ↔ r ∈ s.frozenProposals)
  failures : ∀ r ∈ s.frozenProposals, r.targetId = targetId →
    s'.failed r.frozenProposalId = s.failed r.frozenProposalId
  verdicts : ∀ r ∈ s.frozenProposals, r.targetId = targetId →
    ∀ v, v.frozenProposalId = r.frozenProposalId → (v ∈ s'.sealedVerdicts ↔ v ∈ s.sealedVerdicts)
  reports : ∀ r ∈ s.frozenProposals, r.targetId = targetId →
    ∀ c, c.frozenProposalId = r.frozenProposalId → (c ∈ s'.checkerReports ↔ c ∈ s.checkerReports)
  status : s'.statusOf targetId = s.statusOf targetId

theorem Unchanged.refl (targetId : String) (s : FpelStore) : Unchanged targetId s s :=
  ⟨fun _ _ => Iff.rfl, fun _ _ _ => rfl, fun _ _ _ _ _ => Iff.rfl, fun _ _ _ _ _ => Iff.rfl, rfl⟩

theorem Unchanged.trans {s₁ s₂ s₃ : FpelStore} (h : Unchanged targetId s₁ s₂)
    (h' : Unchanged targetId s₂ s₃) : Unchanged targetId s₁ s₃ where
  proposals r hr := (h'.proposals r hr).trans (h.proposals r hr)
  failures r hr htarget := by
    have hr₂ := (h.proposals r htarget).mpr hr
    rw [h'.failures r hr₂ htarget, h.failures r hr htarget]
  verdicts r hr htarget v hv := by
    have hr₂ := (h.proposals r htarget).mpr hr
    exact (h'.verdicts r hr₂ htarget v hv).trans (h.verdicts r hr htarget v hv)
  reports r hr htarget c hc := by
    have hr₂ := (h.proposals r htarget).mpr hr
    exact (h'.reports r hr₂ htarget c hc).trans (h.reports r hr htarget c hc)
  status := h'.status.trans h.status

theorem Unchanged.save {ids : List String} {row : ProposalRow}
    (hids : ∀ id ∈ ids, s.NotOf targetId id) (hrow : row.targetId ≠ targetId)
    (h : (s.supersede ids).insertProposal row = .ok s') : Unchanged targetId s s' := by
  obtain ⟨-, -, rfl⟩ := insertProposal_ok h
  refine ⟨fun r hr => ?_, fun _ _ _ => rfl, fun _ _ _ _ _ => Iff.rfl, fun _ _ _ _ _ => Iff.rfl, rfl⟩
  have hnew : r ∉ [row] := by
    intro hmem
    rw [List.mem_singleton.mp hmem] at hr
    exact hrow hr
  simp only [List.mem_append, hnew, or_false, mem_supersede]
  constructor
  · rintro (⟨old, hold, hin, rfl⟩ | ⟨hold, -⟩)
    · exact absurd hr (hids _ hin old hold rfl)
    · exact hold
  · intro hold
    exact .inr ⟨hold, fun hin => hids _ hin r hold rfl hr⟩

theorem Unchanged.verdict {v : SealedVerdictFields} (hother : s.NotOf targetId v.frozenProposalId)
    (h : s.insertVerdict v = .ok s') : Unchanged targetId s s' := by
  obtain ⟨-, rfl⟩ := insertVerdict_ok h
  refine ⟨fun _ _ => Iff.rfl, fun _ _ _ => rfl, fun r hr htarget w hw => ?_,
    fun _ _ _ _ _ => Iff.rfl, rfl⟩
  have hnew : w ∉ [v] := by
    intro hmem
    rw [List.mem_singleton.mp hmem] at hw
    exact hother r hr hw.symm htarget
  simp only [List.mem_append, hnew, or_false]

theorem Unchanged.report {report : CheckerReport} (hother : s.NotOf targetId report.frozenProposalId)
    (h : s.insertReport report = .ok s') : Unchanged targetId s s' := by
  rw [insertReport_ok h]
  refine ⟨fun _ _ => Iff.rfl, fun _ _ _ => rfl, fun _ _ _ _ _ => Iff.rfl,
    fun r hr htarget c hc => ?_, rfl⟩
  have hnew : c ∉ [report] := by
    intro hmem
    rw [List.mem_singleton.mp hmem] at hc
    exact hother r hr hc.symm htarget
  simp only [List.mem_append, hnew, or_false]

theorem Unchanged.failure {id : String} {reason : Option String} (hother : s.NotOf targetId id)
    (h : s.insertFailure id reason = .ok s') : Unchanged targetId s s' := by
  have hfailed : ∀ r ∈ s.frozenProposals, r.targetId = targetId →
      s'.failed r.frozenProposalId = s.failed r.frozenProposalId := by
    intro r hr htarget
    have hne : id ≠ r.frozenProposalId := fun heq => hother r hr heq.symm htarget
    unfold insertFailure at h
    split_ifs at h
    · cases h
      rfl
    · cases h
      simp [failed, hne]
  obtain ⟨rows, rfl⟩ := insertFailure_ok h
  exact ⟨fun _ _ => Iff.rfl, hfailed, fun _ _ _ _ _ => Iff.rfl, fun _ _ _ _ _ => Iff.rfl, rfl⟩

theorem Unchanged.status_upsert {target status : String} (h : target ≠ targetId) :
    Unchanged targetId s (s.upsertStatus target status) := by
  have hstatus : (s.upsertStatus target status).statusOf targetId = s.statusOf targetId :=
    statusOf_upsertStatus h
  obtain ⟨rows, heq⟩ := s.upsertStatus_eq target status
  rw [heq] at hstatus ⊢
  exact ⟨fun _ _ => Iff.rfl, fun _ _ _ => rfl, fun _ _ _ _ _ => Iff.rfl, fun _ _ _ _ _ => Iff.rfl,
    hstatus⟩

theorem notOf_inserted {row : ProposalRow} (hrow : row.targetId ≠ targetId)
    {ids : List String} (hs : s.Indexed) (h : (s.supersede ids).insertProposal row = .ok s') :
    s'.NotOf targetId row.frozenProposalId := by
  obtain ⟨hid, htarget, hs'⟩ := insertProposal_ok h
  have hindexed : s'.Indexed := by
    rw [hs']
    have hsup := hs.supersede ids
    exact ⟨hsup.proposalIds.insert hid, hsup.activeTargets.insert htarget, hsup.verdictIds⟩
  intro r hr hrid
  have hnew : row ∈ s'.frozenProposals := by simp [hs']
  have heq : r = row := by
    refine hindexed.proposalIds.eq_of_mem hr hnew (k := row.frozenProposalId) ?_ rfl
    simp [proposalId, hrid]
  rw [heq]
  exact hrow

/-- A step elsewhere leaves what is stored about the target unchanged. -/
theorem Elsewhere.unchanged (hs : s.Indexed) (h : Elsewhere H targetId s s') :
    Unchanged targetId s s' := by
  cases h with
  | report report hother hfiled => exact .report hother hfiled
  | call a havoids hstep =>
    rcases hstep with h | ⟨rfl, -⟩
    swap
    · exact .refl _ _
    obtain ⟨c, r⟩ := a
    cases c with
    | saveFrozenProposal proposal ids =>
      obtain ⟨createdAt, htx⟩ := h
      exact htx.elim (P := Unchanged targetId s) (.refl _ _) fun s₁ h₁ => .save havoids.2 havoids.1 h₁
    | saveSealedVerdict verdict =>
      exact Transaction.elim h (P := Unchanged targetId s) (.refl _ _) fun s₁ h₁ => .verdict havoids h₁
    | saveFpelStatus target status =>
      rw [h.2]
      exact .status_upsert havoids
    | markFailed id reason =>
      exact Transaction.elim h (P := Unchanged targetId s) (.refl _ _) fun s₁ h₁ => .failure havoids h₁
    | saveFrozenWithSealedVerdict proposal verdict ids =>
      obtain ⟨createdAt, htx⟩ := h
      obtain ⟨htarget, hids, hverdict⟩ := havoids
      refine htx.elim (P := Unchanged targetId s) (.refl _ _) fun s₂ h₂ => ?_
      cases h₁ : (s.supersede ids).insertProposal ⟨proposal.val, createdAt⟩ with
      | error e => rw [h₁] at h₂; cases h₂
      | ok s₁ =>
        rw [h₁] at h₂
        have hnew := notOf_inserted htarget hs h₁
        rw [← hverdict] at hnew
        exact (Unchanged.save hids htarget h₁).trans (.verdict hnew h₂)
    | _ =>
      rw [h.1]
      exact .refl _ _

theorem Elsewhere.sound (hs : s.Sound) (h : Elsewhere H targetId s s') : s'.Sound := by
  cases h with
  | call a havoids hstep => exact hs.step hstep
  | report report hother hfiled => exact hs.insertReport hfiled

/-- The target that an operation is about. -/
def FpelOp.target : FpelOp → String
  | .checkSealed targetId _ | .markFail targetId _ | .freeze targetId _ | .freezeTask targetId .. |
    .freezePlan targetId _ | .check targetId | .seal targetId | .evaluateLegacy targetId .. |
    .snapshotLegacy targetId _ | .snapshotLegacyTask targetId .. | .snapshotLegacyPlan targetId _ =>
    targetId

section Guard

/-- The id is that of the active proposal of the target, as it was read. -/
def ReadActive (targetId frozenProposalId : String) (h : List (Answered (fpelSignature H) Exn)) :
    Prop :=
  ∃ frozen : FrozenProposal H, .ok (.getActiveFrozenProposal targetId) (some frozen) ∈ h ∧
    frozen.val.frozenProposalId = frozenProposalId

/-- What an operation on the target writes is about the target. -/
def ownGuard (targetId : String) (h : List (Answered (fpelSignature H) Exn)) : FpelCall H → Prop
  | .saveFrozenProposal proposal _ => proposal.val.targetId = targetId
  | .saveFrozenWithSealedVerdict proposal verdict _ =>
    proposal.val.targetId = targetId ∧ verdict.val.frozenProposalId = proposal.val.frozenProposalId
  | .saveSealedVerdict verdict => ReadActive targetId verdict.val.frozenProposalId h
  | .markFailed frozenProposalId _ => ReadActive targetId frozenProposalId h
  | .saveFpelStatus target _ => target = targetId
  | _ => True

/-- The calls that only read. -/
def readsOnly : FpelCall H → Bool
  | .saveFrozenProposal .. | .saveFrozenWithSealedVerdict .. | .saveSealedVerdict _ |
    .markFailed .. | .saveFpelStatus .. => false
  | _ => true

theorem own_of_onlyCalls {α : Type} {p : FpelProgram H α} (hp : p.OnlyCalls fun c => readsOnly c = true)
    (h : List (Answered (fpelSignature H) Exn)) :
    p.Ensures (ownGuard targetId) (fun _ _ => True) h := by
  refine hp.ensures (fun h c hc => ?_) fun _ _ => trivial
  cases c with
  | saveFrozenProposal _ _ => cases hc
  | saveFrozenWithSealedVerdict _ _ _ => cases hc
  | saveSealedVerdict _ => cases hc
  | markFailed _ _ => cases hc
  | saveFpelStatus _ _ => cases hc
  | _ => trivial

theorem checkSealed_reads (targetId : String) (currentHash : Option String) :
    (Fpel.checkSealed H targetId currentHash).OnlyCalls fun c => readsOnly c = true := by
  refine .bind (.perform rfl) fun frozen => ?_
  obtain _ | frozen := frozen
  · trivial
  refine .bind (.perform rfl) fun failed => ?_
  split_ifs
  · trivial
  refine .bind (.perform rfl) fun verdict => ?_
  obtain _ | verdict := verdict
  · exact .bind (.perform rfl) fun candidate => trivial
  refine .bind ?_ fun hash => ?_
  · cases currentHash with
    | none => exact .perform rfl
    | some hash => trivial
  · split_ifs <;> trivial

theorem check_reads (targetId : String) :
    (Fpel.check H targetId).OnlyCalls fun c => readsOnly c = true := by
  refine .bind (.perform rfl) fun status => ?_
  split_ifs
  · exact .bind (.perform rfl) fun _ => trivial
  refine .bind (.perform rfl) fun frozen => ?_
  obtain _ | frozen := frozen
  · trivial
  refine .bind (.perform rfl) fun checkers => ?_
  refine .bind (.perform rfl) fun reports => ?_
  split_ifs <;> trivial

theorem freeze_own (targetId content : String) (h : List (Answered (fpelSignature H) Exn)) :
    (Fpel.freeze H targetId content).Ensures (ownGuard targetId) (fun _ _ => True) h := by
  refine (Program.ensures_perform_bind _ _).mpr ⟨trivial, fun existing => ?_, fun _ => trivial⟩
  refine (Program.ensures_ofExcept_bind _ _).mpr ⟨fun contentHash _ => ?_, fun _ _ => trivial⟩
  refine (Program.ensures_perform_bind _ _).mpr ⟨trivial, fun hex => ?_, fun _ => trivial⟩
  refine (Program.ensures_ofExcept_bind _ _).mpr ⟨fun proposal hproposal => ?_, fun _ _ => trivial⟩
  refine (Program.ensures_perform_bind _ _).mpr ⟨?_, fun _ => trivial, fun _ => trivial⟩
  change proposal.val.targetId = targetId
  rw [construct_eq_ok.mp hproposal]

theorem snapshotLegacy_own (targetId content : String) (h : List (Answered (fpelSignature H) Exn)) :
    (Fpel.snapshotLegacy H targetId content).Ensures (ownGuard targetId) (fun _ _ => True) h := by
  refine (Program.ensures_ofExcept_bind _ _).mpr ⟨fun contentHash _ => ?_, fun _ _ => trivial⟩
  refine (Program.ensures_perform_bind _ _).mpr ⟨trivial, fun frozen => ?_, fun _ => trivial⟩
  obtain _ | frozen := frozen
  · refine (Program.ensures_perform_bind _ _).mpr ⟨trivial, fun existing => ?_, fun _ => trivial⟩
    refine (Program.ensures_perform_bind _ _).mpr ⟨trivial, fun hex => ?_, fun _ => trivial⟩
    refine (Program.ensures_ofExcept_bind _ _).mpr ⟨fun proposal hproposal => ?_, fun _ _ => trivial⟩
    refine (Program.ensures_perform_bind _ _).mpr ⟨trivial, fun now => ?_, fun _ => trivial⟩
    refine (Program.ensures_ofExcept_bind _ _).mpr ⟨fun verdict hverdict => ?_, fun _ _ => trivial⟩
    refine (Program.ensures_perform_bind _ _).mpr ⟨⟨?_, ?_⟩, fun _ => trivial, fun _ => trivial⟩
    · rw [construct_eq_ok.mp hproposal]
    · rw [construct_eq_ok.mp hproposal, construct_eq_ok.mp hverdict]
  · refine own_of_onlyCalls ?_ _
    refine .bind (.perform rfl) fun failed => ?_
    split_ifs
    · trivial
    refine .bind (.perform rfl) fun verdict => ?_
    obtain _ | verdict := verdict <;> trivial

theorem markFail_own (targetId : String) (reason : Option String) :
    (Fpel.markFail H targetId reason).Ensures (ownGuard targetId) (fun _ _ => True) [] := by
  refine (Program.ensures_perform_bind _ _).mpr ⟨trivial, fun frozen => ?_, fun _ => trivial⟩
  obtain _ | frozen := frozen
  · trivial
  refine (Program.ensures_perform_bind _ _).mpr ⟨?_, fun _ => trivial, fun _ => trivial⟩
  exact ⟨frozen, by simp, rfl⟩

theorem seal_calls (targetId : String) :
    (Fpel.seal H targetId).OnlyCalls fun c : FpelCall H =>
      readsOnly c = true ∨ ∃ verdict, c = .saveSealedVerdict verdict := by
  refine .bind (.perform (.inl rfl)) fun frozen => ?_
  obtain _ | frozen := frozen
  · trivial
  refine .bind (.perform (.inl rfl)) fun failed => ?_
  split_ifs
  · trivial
  refine .bind (.perform (.inl rfl)) fun existing => ?_
  obtain _ | existing := existing
  swap
  · trivial
  refine .bind (.perform (.inl rfl)) fun status => ?_
  split_ifs
  · trivial
  refine .bind (.perform (.inl rfl)) fun current => ?_
  split_ifs
  · trivial
  refine .bind (.perform (.inl rfl)) fun checkers => .bind (.perform (.inl rfl)) fun reports => ?_
  split_ifs
  · trivial
  · refine .bind (.perform (.inl rfl)) fun now => .bind (.ofExcept _) fun verdict => ?_
    exact .bind (.perform (.inr ⟨verdict, rfl⟩)) fun _ => trivial
  · trivial

theorem seal_own (targetId : String) :
    (Fpel.seal H targetId).Ensures (ownGuard targetId) (fun _ _ => True) [] := by
  have hcalls : (Fpel.seal H targetId).Ensures
      (fun _ (c : FpelCall H) => readsOnly c = true ∨ ∃ verdict, c = .saveSealedVerdict verdict)
      (fun _ _ => True) [] := (seal_calls targetId).ensures (fun _ _ h => h) fun _ _ => trivial
  refine ((seal_guarded targetId).and hcalls).mono ?_ fun _ _ _ => trivial
  rintro h c ⟨hguard, hreads | ⟨verdict, rfl⟩⟩
  · cases c with
    | saveFrozenProposal _ _ => cases hreads
    | saveFrozenWithSealedVerdict _ _ _ => cases hreads
    | saveSealedVerdict _ => cases hreads
    | markFailed _ _ => cases hreads
    | saveFpelStatus _ _ => cases hreads
    | _ => trivial
  · obtain ⟨target, hop, frozen, checkers, reports, hread, -, -, hid, -⟩ := hguard
    cases hop
    exact ⟨frozen, hread.subset (by simp), hid.symm⟩

theorem evaluateLegacy_own (targetId : String) (approved current : Option String)
    (isRunning : Bool) (action : Option String) :
    (Fpel.evaluateLegacy H targetId approved current isRunning action).Ensures
      (ownGuard targetId) (fun _ _ => True) [] := by
  unfold Fpel.evaluateLegacy
  split_ifs
  · trivial
  · trivial
  · trivial
  · exact (Program.ensures_perform_bind _ _).mpr ⟨rfl, fun _ => trivial, fun _ => trivial⟩

theorem program_own (o : FpelOp) :
    (o.program H).Ensures (ownGuard o.target) (fun _ _ => True) [] := by
  cases o with
  | checkSealed targetId currentHash => exact own_of_onlyCalls (checkSealed_reads targetId currentHash) _
  | markFail targetId reason => exact markFail_own targetId reason
  | freeze targetId content => exact freeze_own targetId content _
  | freezeTask targetId planText subject description => exact freeze_own targetId _ _
  | freezePlan targetId tasks =>
    refine (Program.ensures_ofExcept_bind _ _).mpr ⟨fun c _ => ?_, fun _ _ => trivial⟩
    exact freeze_own targetId c _
  | check targetId => exact own_of_onlyCalls (check_reads targetId) _
  | «seal» targetId => exact seal_own targetId
  | evaluateLegacy targetId approved current isRunning action =>
    exact evaluateLegacy_own targetId approved current isRunning action
  | snapshotLegacy targetId content => exact snapshotLegacy_own targetId content _
  | snapshotLegacyTask targetId planText subject description => exact snapshotLegacy_own targetId _ _
  | snapshotLegacyPlan targetId tasks =>
    refine (Program.ensures_ofExcept_bind _ _).mpr ⟨fun c _ => ?_, fun _ _ => trivial⟩
    exact snapshotLegacy_own targetId c _

end Guard

section Run

variable {tr : List (fpelSystem H).Event} {cfg : (fpelSystem H).Config}

/-- The id of a proposal that was read as the active one of a target stays one of that target. -/
theorem notOf_of_readActive (run : (fpelSystem H).Run tr cfg)
    {pre post : List (fpelSystem H).Event} {e : (fpelSystem H).Event} (htr : tr = pre ++ e :: post)
    {target frozenProposalId : String} (hne : target ≠ targetId)
    (h : ReadActive target frozenProposalId (System.Run.history e.caller pre)) :
    e.before.NotOf targetId frozenProposalId := by
  intro r hr hid
  obtain ⟨frozen, hread, hfrozen⟩ := h
  obtain ⟨d, hd, hanswer⟩ := List.mem_map.mp hread
  have hdpre : d ∈ pre := (System.Run.mem_own.mp hd).1
  have horder : [d, e].Sublist tr := by
    rw [htr]
    exact (List.singleton_sublist.mpr hdpre).append (List.singleton_sublist.mpr List.mem_cons_self)
  have hdstep := run.step_of_mem (horder.subset (by simp : d ∈ _))
  rw [hanswer] at hdstep
  obtain ⟨hdafter, row, hrow, hfields⟩ := getActiveFrozenProposal_ok hdstep
  obtain ⟨hrowMem, -, htarget⟩ := mem_activeRows.mp hrow
  have hgrows : Grows d.after e.before :=
    List.rel_of_pairwise_cons ((grows_of_run run).1.sublist horder) (by simp)
  have hindexed : e.before.Indexed := by
    obtain ⟨pre', ss, hrun⟩ := run.reaches_before (horder.subset (by simp : e ∈ _))
    exact indexed_of_run hrun
  rw [hdafter] at hgrows
  have hsucc := hgrows.succeeds hindexed hrowMem hr (by rw [hid, ← hfrozen, ← hfields])
  rw [hsucc.targetId, htarget]
  exact hne

theorem elsewhere_of_event (run : (fpelSystem H).Run tr cfg) {e : (fpelSystem H).Event}
    (he : e ∈ tr) (hne : e.op.target ≠ targetId) : Elsewhere H targetId e.before e.after := by
  obtain ⟨pre, post, htr⟩ := List.append_of_mem he
  have hown := run.ensures_event htr (program_own e.op)
  have hlisted := run.ensures_event htr (program_supersedes e.op)
  have hothers : ∀ {proposal : FrozenProposal H} {ids : List String},
      proposal.val.targetId = e.op.target → Listed proposal ids (System.Run.history e.caller pre) →
      ∀ id ∈ ids, e.before.NotOf targetId id := by
    intro proposal ids htarget h id hid r hr hrid
    rw [supersedesOwn_of_listed run htr h r hr (hrid ▸ hid), htarget]
    exact hne
  refine .call e.answered ?_ (run.step_of_mem he)
  revert hown hlisted
  cases e.answered.call with
  | saveFrozenProposal proposal ids =>
    intro hown hlisted
    exact ⟨hown ▸ hne, hothers hown hlisted⟩
  | saveFrozenWithSealedVerdict proposal verdict ids =>
    intro hown hlisted
    exact ⟨hown.1 ▸ hne, hothers hown.1 hlisted, hown.2⟩
  | saveSealedVerdict verdict => exact fun hown _ => notOf_of_readActive run htr hne hown
  | markFailed id reason => exact fun hown _ => notOf_of_readActive run htr hne hown
  | saveFpelStatus target status => exact fun hown _ => hown ▸ hne
  | _ => exact fun _ _ => trivial

theorem sound_of_run (run : (fpelSystem H).Run tr cfg) : cfg.store.Sound := by
  refine run.invariant (I := Sound) ?_ (fun e he hs => hs.step (run.step_of_mem he)) ?_
  · rintro s rfl
    refine ⟨⟨.nil _, .nil _, .nil _⟩, ?_, ?_, ?_⟩
    · intro v hv
      cases hv
    · intro f hf
      cases hf
    · intro r hr
      cases hr
  · rintro s s' hs ⟨report, hreport⟩
    exact hs.insertReport hreport

end Run

end ForkAgent.Fpel

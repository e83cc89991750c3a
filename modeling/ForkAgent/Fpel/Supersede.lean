import ForkAgent.Effects.Serial
import ForkAgent.Fpel.Gate

/-!
# Superseding a proposal

The proposals to supersede are listed in one transaction and superseded, together with the insert
of the new one, in another. Whatever is written in between, the ids listed stay ids of the target,
so a save that commits leaves the target with its new proposal active and one that fails leaves
the store as it was.
-/

namespace ForkAgent.Fpel

open Effects Storage FpelStore

variable {H : Hashing}

section Store

variable {s s' : FpelStore}

/-- Every target that has a proposal has an active one. -/
def Covered (s : FpelStore) : Prop :=
  ∀ r ∈ s.frozenProposals, ∃ active ∈ s.frozenProposals,
    active.lifecycle = .active ∧ active.targetId = r.targetId

/-- The rows to supersede are rows of the target of the new proposal. -/
def SupersedesOwn (s : FpelStore) (targetId : String) (ids : List String) : Prop :=
  ∀ r ∈ s.frozenProposals, r.frozenProposalId ∈ ids → r.targetId = targetId

theorem mem_supersede {ids : List String} {r : ProposalRow} :
    r ∈ (s.supersede ids).frozenProposals ↔
      (∃ old ∈ s.frozenProposals, old.frozenProposalId ∈ ids ∧
        r = { old with lifecycle := .superseded }) ∨
      r ∈ s.frozenProposals ∧ r.frozenProposalId ∉ ids := by
  simp [supersede, mem_updateWhere, eq_comm (a := r)]

theorem Covered.save (hs : Covered s) {row : ProposalRow} {ids : List String}
    (hids : SupersedesOwn s row.targetId ids) (hactive : row.lifecycle = .active)
    (hrows : s'.frozenProposals = (s.supersede ids).frozenProposals ++ [row]) : Covered s' := by
  have hrow : row ∈ s'.frozenProposals := by simp [hrows]
  have hold : ∀ old ∈ s.frozenProposals, ∃ active ∈ s'.frozenProposals,
      active.lifecycle = .active ∧ active.targetId = old.targetId := by
    intro old hmem
    by_cases htarget : old.targetId = row.targetId
    · exact ⟨row, hrow, hactive, htarget.symm⟩
    · obtain ⟨active, hactiveMem, hstatus, hactiveTarget⟩ := hs old hmem
      have hkept : active.frozenProposalId ∉ ids := by
        intro hin
        exact htarget (hactiveTarget.symm.trans (hids active hactiveMem hin))
      refine ⟨active, ?_, hstatus, hactiveTarget⟩
      rw [hrows]
      exact List.mem_append_left _ (mem_supersede.mpr (.inr ⟨hactiveMem, hkept⟩))
  intro r hr
  rw [hrows] at hr
  rcases List.mem_append.mp hr with hr | hr
  · rcases mem_supersede.mp hr with ⟨old, hmem, -, rfl⟩ | ⟨hmem, -⟩
    · exact hold old hmem
    · exact hold r hmem
  · rw [List.mem_singleton.mp hr]
    exact ⟨row, hrow, hactive, rfl⟩

/-- A save of an active proposal that supersedes only rows of its own target. -/
def SavesOwn (s : FpelStore) : FpelCall H → Prop
  | .saveFrozenProposal proposal ids | .saveFrozenWithSealedVerdict proposal _ ids =>
    proposal.val.lifecycle = .active ∧ SupersedesOwn s proposal.val.targetId ids
  | _ => True

theorem Covered.step (hs : Covered s) {a : Answered (fpelSignature H) Exn}
    (hown : SavesOwn s a.call) (hstep : FpelStore.step H a s s') : Covered s' := by
  rcases hstep with h | ⟨rfl, -⟩
  swap
  · exact hs
  obtain ⟨c, r⟩ := a
  have hkept : s'.frozenProposals = s.frozenProposals → Covered s' := by
    intro heq
    unfold Covered
    rw [heq]
    exact hs
  cases c with
  | saveFrozenProposal proposal ids =>
    obtain ⟨createdAt, htx⟩ := h
    refine htx.elim hs fun s₁ h₁ => ?_
    obtain ⟨-, -, rfl⟩ := insertProposal_ok h₁
    exact hs.save hown.2 hown.1 rfl
  | saveSealedVerdict verdict =>
    refine Transaction.elim h hs fun s₁ h₁ => ?_
    obtain ⟨-, rfl⟩ := insertVerdict_ok h₁
    exact hs
  | saveFpelStatus targetId status =>
    obtain ⟨rows, heq⟩ := s.upsertStatus_eq targetId status
    refine hkept ?_
    rw [h.2, heq]
  | markFailed frozenProposalId reason =>
    refine Transaction.elim h hs fun s₁ h₁ => ?_
    obtain ⟨rows, rfl⟩ := insertFailure_ok h₁
    exact hs
  | saveFrozenWithSealedVerdict proposal verdict ids =>
    obtain ⟨createdAt, htx⟩ := h
    refine htx.elim hs fun s₂ h₂ => ?_
    cases h₁ : (s.supersede ids).insertProposal ⟨proposal.val, createdAt⟩ with
    | error e => rw [h₁] at h₂; cases h₂
    | ok s₁ =>
      rw [h₁] at h₂
      obtain ⟨-, -, rfl⟩ := insertProposal_ok h₁
      obtain ⟨-, rfl⟩ := insertVerdict_ok h₂
      exact hs.save hown.2 hown.1 rfl
  | _ => exact hkept (by rw [h.1])

theorem failures_step {a : Answered (fpelSignature H) Exn} (hstep : FpelStore.step H a s s') :
    s.fpelProposalFailures <+: s'.fpelProposalFailures := by
  refine step_preserves (P := fun s₁ => s.fpelProposalFailures <+: s₁.fpelProposalFailures)
    (fun _ _ h => h) ?_ ?_ ?_ ?_ hstep (List.prefix_refl _)
  · intro s₁ row s₂ h₁ hrow
    obtain ⟨-, -, rfl⟩ := insertProposal_ok hrow
    exact h₁
  · intro s₁ v s₂ h₁ hv
    obtain ⟨-, rfl⟩ := insertVerdict_ok hv
    exact h₁
  · intro s₁ id reason s₂ h₁ hid
    obtain ⟨rows, rfl⟩ := insertFailure_ok hid
    exact h₁.trans (List.prefix_append _ _)
  · intro s₁ targetId status h₁
    obtain ⟨rows, heq⟩ := s₁.upsertStatus_eq targetId status
    rw [heq]
    exact h₁

/-- A proposal has at most one failure marker. -/
def MarkedOnce (s : FpelStore) : Prop := UniqueOn (fun f => some f.1) s.fpelProposalFailures

theorem MarkedOnce.step (hs : MarkedOnce s) {a : Answered (fpelSignature H) Exn}
    (hstep : FpelStore.step H a s s') : MarkedOnce s' := by
  refine step_preserves (P := MarkedOnce) (fun _ _ h => h) ?_ ?_ ?_ ?_ hstep hs
  · intro s₁ row s₂ h₁ hrow
    obtain ⟨-, -, rfl⟩ := insertProposal_ok hrow
    exact h₁
  · intro s₁ v s₂ h₁ hv
    obtain ⟨-, rfl⟩ := insertVerdict_ok hv
    exact h₁
  · intro s₁ id reason s₂ h₁ hid
    unfold insertFailure at hid
    split_ifs at hid with hfailed
    · cases hid
      exact h₁
    · cases hid
      refine UniqueOn.insert h₁ (conflicts_eq_false.mpr fun f hf k hk hk' => hfailed ?_)
      cases hk
      exact List.any_eq_true.mpr ⟨f, hf, by simpa using Option.some.inj hk'⟩
  · intro s₁ targetId status h₁
    obtain ⟨rows, heq⟩ := s₁.upsertStatus_eq targetId status
    rw [heq]
    exact h₁

theorem eq_of_error {c : FpelCall H} {e : Exn} (h : FpelStore.step H ⟨c, .error e⟩ s s') :
    s' = s := by
  rcases h with h | ⟨rfl, -⟩
  swap
  · rfl
  have hrollback : ∀ {result : Except Exn FpelStore}, Transaction result s (.error e) s' → s' = s := by
    intro result htx
    cases result with
    | ok s₁ => cases htx.1
    | error e' => exact htx.2
  cases c with
  | saveFrozenProposal proposal ids => exact hrollback h.choose_spec
  | saveSealedVerdict verdict => exact hrollback h
  | saveFpelStatus targetId status => cases h.1
  | markFailed frozenProposalId reason => exact hrollback h
  | saveFrozenWithSealedVerdict proposal verdict ids => exact hrollback h.choose_spec
  | _ => exact h.1

theorem getAllFrozenProposals_ok {targetId : String} {existing : List (FrozenProposal H)}
    (h : FpelStore.step H (.ok (.getAllFrozenProposals targetId) existing) s s') :
    s' = s ∧ ∀ p ∈ existing, ∃ row ∈ s.frozenProposals, row.targetId = targetId ∧
      row.toFrozenProposalFields = p.val := by
  rcases h with ⟨rfl, rows, hordered, hanswer⟩ | ⟨-, m, hm⟩
  swap
  · cases hm
  refine ⟨rfl, fun p hp => ?_⟩
  have hrows : existing.map (·.val) = rows.map (·.toFrozenProposalFields) := by
    have hconstruct : (rows.map (·.toFrozenProposalFields)).mapM (construct _) = .ok existing := by
      rw [List.mapM_map]
      exact hanswer.symm
    exact listMapM_construct_eq_ok hconstruct
  have hmem : p.val ∈ rows.map (·.toFrozenProposalFields) := by
    rw [← hrows]
    exact List.mem_map_of_mem hp
  obtain ⟨row, hrow, hfields⟩ := List.mem_map.mp hmem
  obtain ⟨hstored, htarget⟩ := List.mem_filter.mp ((hordered.mem_iff row).mp hrow)
  exact ⟨row, hstored, by simpa using htarget, hfields⟩

end Store

section Guard

/-- The new proposal is active, and the ids to supersede were listed for its target. -/
def Listed (proposal : FrozenProposal H) (ids : List String)
    (h : List (Answered (fpelSignature H) Exn)) : Prop :=
  proposal.val.lifecycle = .active ∧ ∀ id ∈ ids, ∃ existing,
    .ok (.getAllFrozenProposals proposal.val.targetId) existing ∈ h ∧
      ∃ p ∈ (existing : List (FrozenProposal H)), p.val.frozenProposalId = id

/-- What an operation has read when it saves a proposal. -/
def supersedeGuard (h : List (Answered (fpelSignature H) Exn)) : FpelCall H → Prop
  | .saveFrozenProposal proposal ids => Listed proposal ids h
  | .saveFrozenWithSealedVerdict proposal _ ids => Listed proposal ids h
  | _ => True

/-- The two calls that insert a proposal. -/
def savesProposal : FpelCall H → Bool
  | .saveFrozenProposal .. | .saveFrozenWithSealedVerdict .. => true
  | _ => false

theorem supersedes_of_onlyCalls {α : Type} {p : FpelProgram H α}
    (hp : p.OnlyCalls fun c => savesProposal c = false)
    (h : List (Answered (fpelSignature H) Exn)) :
    p.Ensures supersedeGuard (fun _ _ => True) h := by
  refine hp.ensures (fun h c hc => ?_) fun _ _ => trivial
  cases c with
  | saveFrozenProposal _ _ => cases hc
  | saveFrozenWithSealedVerdict _ _ _ => cases hc
  | _ => trivial

theorem supersedes_of_saves_none {α : Type} {p : FpelProgram H α}
    (hp : p.OnlyCalls fun c => savesRow c = false) (h : List (Answered (fpelSignature H) Exn)) :
    p.Ensures supersedeGuard (fun _ _ => True) h := by
  refine supersedes_of_onlyCalls (hp.mono fun c hc => ?_) h
  cases c <;> simp_all [savesRow, savesProposal]

theorem listed_supersedeIds {proposal : FrozenProposal H} {existing : List (FrozenProposal H)}
    {h : List (Answered (fpelSignature H) Exn)} (hactive : proposal.val.lifecycle = .active)
    (hread : .ok (.getAllFrozenProposals proposal.val.targetId) existing ∈ h) :
    Listed proposal (supersedeIds H existing) h := by
  refine ⟨hactive, fun id hid => ⟨existing, hread, ?_⟩⟩
  obtain ⟨p, hp, rfl⟩ := List.mem_map.mp hid
  exact ⟨p, (List.mem_filter.mp hp).1, rfl⟩

theorem freeze_supersedes (targetId content : String) (h : List (Answered (fpelSignature H) Exn)) :
    (Fpel.freeze H targetId content).Ensures supersedeGuard (fun _ _ => True) h := by
  refine (Program.ensures_perform_bind _ _).mpr ⟨trivial, fun existing => ?_, fun _ => trivial⟩
  refine (Program.ensures_ofExcept_bind _ _).mpr ⟨fun contentHash _ => ?_, fun _ _ => trivial⟩
  refine (Program.ensures_perform_bind _ _).mpr ⟨trivial, fun hex => ?_, fun _ => trivial⟩
  refine (Program.ensures_ofExcept_bind _ _).mpr ⟨fun proposal hproposal => ?_, fun _ _ => trivial⟩
  refine (Program.ensures_perform_bind _ _).mpr ⟨?_, fun _ => trivial, fun _ => trivial⟩
  have hval := construct_eq_ok.mp hproposal
  refine listed_supersedeIds (by rw [hval]) ?_
  rw [hval]
  simp

theorem snapshotLegacy_supersedes (targetId content : String)
    (h : List (Answered (fpelSignature H) Exn)) :
    (Fpel.snapshotLegacy H targetId content).Ensures supersedeGuard (fun _ _ => True) h := by
  refine (Program.ensures_ofExcept_bind _ _).mpr ⟨fun contentHash _ => ?_, fun _ _ => trivial⟩
  refine (Program.ensures_perform_bind _ _).mpr ⟨trivial, fun frozen => ?_, fun _ => trivial⟩
  obtain _ | frozen := frozen
  · refine (Program.ensures_perform_bind _ _).mpr ⟨trivial, fun existing => ?_, fun _ => trivial⟩
    refine (Program.ensures_perform_bind _ _).mpr ⟨trivial, fun hex => ?_, fun _ => trivial⟩
    refine (Program.ensures_ofExcept_bind _ _).mpr ⟨fun proposal hproposal => ?_, fun _ _ => trivial⟩
    refine (Program.ensures_perform_bind _ _).mpr ⟨trivial, fun now => ?_, fun _ => trivial⟩
    refine (Program.ensures_ofExcept_bind _ _).mpr ⟨fun verdict _ => ?_, fun _ _ => trivial⟩
    refine (Program.ensures_perform_bind _ _).mpr ⟨?_, fun _ => trivial, fun _ => trivial⟩
    have hval := construct_eq_ok.mp hproposal
    refine listed_supersedeIds (by rw [hval]) ?_
    rw [hval]
    simp
  · refine supersedes_of_saves_none ?_ _
    refine .bind (.perform rfl) fun failed => ?_
    split_ifs
    · trivial
    refine .bind (.perform rfl) fun verdict => ?_
    obtain _ | verdict := verdict <;> trivial

theorem seal_supersedes_none (targetId : String) :
    (Fpel.seal H targetId).OnlyCalls fun c => savesProposal c = false := by
  refine .bind (.perform rfl) fun frozen => ?_
  obtain _ | frozen := frozen
  · trivial
  refine .bind (.perform rfl) fun failed => ?_
  split_ifs
  · trivial
  refine .bind (.perform rfl) fun existing => ?_
  obtain _ | existing := existing
  swap
  · trivial
  refine .bind (.perform rfl) fun status => ?_
  split_ifs
  · trivial
  refine .bind (.perform rfl) fun current => ?_
  split_ifs
  · trivial
  refine .bind (.perform rfl) fun checkers => .bind (.perform rfl) fun reports => ?_
  split_ifs
  · trivial
  · refine .bind (.perform rfl) fun now => .bind (.ofExcept _) fun verdict => ?_
    exact .bind (.perform rfl) fun _ => trivial
  · trivial

theorem program_supersedes (o : FpelOp) :
    (o.program H).Ensures supersedeGuard (fun _ _ => True) [] := by
  cases o with
  | checkSealed targetId currentHash =>
    exact supersedes_of_saves_none (checkSealed_saves_none targetId currentHash) _
  | markFail targetId reason => exact supersedes_of_saves_none (markFail_saves_none targetId reason) _
  | freeze targetId content => exact freeze_supersedes targetId content _
  | freezeTask targetId planText subject description => exact freeze_supersedes targetId _ _
  | freezePlan targetId tasks =>
    refine (Program.ensures_ofExcept_bind _ _).mpr ⟨fun c _ => ?_, fun _ _ => trivial⟩
    exact freeze_supersedes targetId c _
  | check targetId => exact supersedes_of_saves_none (check_saves_none targetId) _
  | «seal» targetId => exact supersedes_of_onlyCalls (seal_supersedes_none targetId) _
  | evaluateLegacy targetId approved current isRunning action =>
    exact supersedes_of_saves_none
      (evaluateLegacy_saves_none targetId approved current isRunning action) _
  | snapshotLegacy targetId content => exact snapshotLegacy_supersedes targetId content _
  | snapshotLegacyTask targetId planText subject description =>
    exact snapshotLegacy_supersedes targetId _ _
  | snapshotLegacyPlan targetId tasks =>
    refine (Program.ensures_ofExcept_bind _ _).mpr ⟨fun c _ => ?_, fun _ _ => trivial⟩
    exact snapshotLegacy_supersedes targetId c _

end Guard

section Run

variable {tr : List (fpelSystem H).Event} {cfg : (fpelSystem H).Config}

/-- When the ids are superseded, they are ids of the target for which they were listed: the rows
listed are still there, and no other row has their ids. -/
theorem supersedesOwn_of_listed (run : (fpelSystem H).Run tr cfg)
    {pre post : List (fpelSystem H).Event} {e : (fpelSystem H).Event} (htr : tr = pre ++ e :: post)
    {proposal : FrozenProposal H} {ids : List String}
    (h : Listed proposal ids (System.Run.history e.caller pre)) :
    SupersedesOwn e.before proposal.val.targetId ids := by
  intro r hr hid
  obtain ⟨existing, hread, p, hp, hpid⟩ := h.2 _ hid
  obtain ⟨d, hd, hanswer⟩ := List.mem_map.mp hread
  have hdpre : d ∈ pre := (System.Run.mem_own.mp hd).1
  have horder : [d, e].Sublist tr := by
    rw [htr]
    exact (List.singleton_sublist.mpr hdpre).append (List.singleton_sublist.mpr List.mem_cons_self)
  have hdstep := run.step_of_mem (horder.subset (by simp : d ∈ _))
  rw [hanswer] at hdstep
  obtain ⟨hdafter, hrows⟩ := getAllFrozenProposals_ok hdstep
  obtain ⟨row, hrow, htarget, hfields⟩ := hrows p hp
  have hgrows : Grows d.after e.before :=
    List.rel_of_pairwise_cons ((grows_of_run run).1.sublist horder) (by simp)
  have hindexed : e.before.Indexed := by
    obtain ⟨pre', ss, hrun⟩ := run.reaches_before (horder.subset (by simp : e ∈ _))
    exact indexed_of_run hrun
  rw [hdafter] at hgrows
  have hsucc := hgrows.succeeds hindexed hrow hr (by rw [← hpid, ← hfields])
  rw [hsucc.targetId, htarget]

theorem covered_of_run (run : (fpelSystem H).Run tr cfg) : Covered cfg.store := by
  refine run.invariant (I := Covered) ?_ ?_ ?_
  · rintro s rfl r hr
    cases hr
  · intro e he hs
    obtain ⟨pre, post, htr⟩ := List.append_of_mem he
    have hguard := run.ensures_event htr (program_supersedes e.op)
    have hown : SavesOwn e.before e.answered.call := by
      revert hguard
      cases e.answered.call with
      | saveFrozenProposal proposal ids =>
        exact fun hlisted => ⟨hlisted.1, supersedesOwn_of_listed run htr hlisted⟩
      | saveFrozenWithSealedVerdict proposal verdict ids =>
        exact fun hlisted => ⟨hlisted.1, supersedesOwn_of_listed run htr hlisted⟩
      | _ => exact fun _ => trivial
    exact hs.step hown (run.step_of_mem he)
  · rintro s s' hs ⟨report, hreport⟩
    rw [insertReport_ok hreport]
    exact hs

/-- The error of the index that allows one active proposal per target. -/
def lostRace : Exn := .integrityError "UNIQUE constraint failed: frozen_proposals.target_id"

/-- A save that loses the race for the active proposal of its target: the winner is there. -/
theorem winner_of_insert {s : FpelStore} (hs : s.Indexed) {ids : List String} {row : ProposalRow}
    (h : (s.supersede ids).insertProposal row = .error lostRace) :
    ∃ winner, s.activeRows row.targetId = [winner] := by
  have hconflict : conflicts activeTarget (s.supersede ids).frozenProposals row = true := by
    unfold insertProposal at h
    split_ifs at h with hid htarget
    · simp [lostRace] at h
    · exact htarget
  by_contra hnone
  have hfree : conflicts activeTarget (s.supersede ids).frozenProposals row = false := by
    refine conflicts_eq_false.mpr fun r hr k hk hk' => hnone ?_
    have hactive : r.lifecycle = .active ∧ r.targetId = row.targetId := by
      unfold activeTarget at hk hk'
      split_ifs at hk hk' with h₁ h₂
      exact ⟨by assumption, by rw [Option.some.inj hk, Option.some.inj hk']⟩
    have hmem : r ∈ s.activeRows row.targetId := by
      rcases mem_supersede.mp hr with ⟨old, -, -, rfl⟩ | ⟨hold, -⟩
      · cases hactive.1
      · exact mem_activeRows.mpr ⟨hold, hactive⟩
    exact ⟨r, hs.activeRows_eq hmem⟩
  rw [hfree] at hconflict
  cases hconflict

/-- The proposal that a call saves. -/
def savedProposal : FpelCall H → Option (FrozenProposal H)
  | .saveFrozenProposal proposal _ | .saveFrozenWithSealedVerdict proposal _ _ => some proposal
  | _ => none

theorem winner_of_lostRace {s s' : FpelStore} (hs : s.Indexed) {c : FpelCall H}
    {proposal : FrozenProposal H} (hsaved : savedProposal c = some proposal)
    (h : FpelStore.step H ⟨c, .error lostRace⟩ s s') :
    ∃ winner, s.activeRows proposal.val.targetId = [winner] := by
  rcases h with h | ⟨-, m, hm⟩
  swap
  · cases hm
  cases c with
  | saveFrozenProposal p ids =>
    cases hsaved
    obtain ⟨createdAt, htx⟩ := h
    cases hinsert : (s.supersede ids).insertProposal ⟨proposal.val, createdAt⟩ with
    | ok s₁ =>
      rw [hinsert] at htx
      cases htx.1
    | error e =>
      rw [hinsert] at htx
      cases htx.1
      exact winner_of_insert hs hinsert
  | saveFrozenWithSealedVerdict p verdict ids =>
    cases hsaved
    obtain ⟨createdAt, htx⟩ := h
    cases hinsert : (s.supersede ids).insertProposal ⟨proposal.val, createdAt⟩ with
    | ok s₁ =>
      simp only [hinsert, Except.bind, insertVerdict] at htx
      split_ifs at htx
      · exact absurd (Exn.integrityError.inj (Except.error.inj htx.1)) (by decide)
      · exact absurd (Exn.integrityError.inj (Except.error.inj htx.1)) (by decide)
      · cases htx.1
    | error e =>
      rw [hinsert] at htx
      cases htx.1
      exact winner_of_insert hs hinsert
  | _ => cases hsaved

/-- One active proposal: at any moment of any run each target that has a proposal, or once had
one, has exactly one active one. A proposal stays, with its content, and is never active again
once superseded; its failure marker stays too, and there is only one. A call that fails has
written nothing, and a save that loses the race leaves the winner active. -/
theorem one_active_proposal (run : (fpelSystem H).Run tr cfg) :
    (∀ targetId, (cfg.store.activeRows targetId).length ≤ 1) ∧
      (∀ row ∈ cfg.store.frozenProposals, ∃ active, cfg.store.activeRows row.targetId = [active]) ∧
      UniqueOn proposalId cfg.store.frozenProposals ∧ MarkedOnce cfg.store ∧
      ∀ e ∈ tr,
        (∀ row ∈ e.after.frozenProposals,
          (∃ later ∈ cfg.store.frozenProposals, Succeeds row later) ∧
            ∃ active, cfg.store.activeRows row.targetId = [active]) ∧
        e.after.fpelProposalFailures <+: cfg.store.fpelProposalFailures ∧
        (∀ error, e.answered.answer = .error error → e.after = e.before) ∧
        ∀ proposal, savedProposal e.answered.call = some proposal →
          e.answered.answer = .error lostRace →
            ∃ winner, e.after.activeRows proposal.val.targetId = [winner] := by
  have hindexed := indexed_of_run run
  have hexists : ∀ row ∈ cfg.store.frozenProposals,
      ∃ active, cfg.store.activeRows row.targetId = [active] := by
    intro row hrow
    obtain ⟨active, hmem, hstatus, htarget⟩ := covered_of_run run row hrow
    exact ⟨active, hindexed.activeRows_eq (mem_activeRows.mpr ⟨hmem, hstatus, htarget⟩)⟩
  have hmarked : MarkedOnce cfg.store := by
    refine run.invariant (I := MarkedOnce) ?_ (fun e he hs => hs.step (run.step_of_mem he)) ?_
    · rintro s rfl
      exact .nil _
    · rintro s s' hs ⟨report, hreport⟩
      rw [insertReport_ok hreport]
      exact hs
  have hfailures := (run.grows (R := fun s s' => s.fpelProposalFailures <+: s'.fpelProposalFailures)
    (fun _ => List.prefix_refl _) (fun _ _ _ h h' => h.trans h')
    (fun e he => failures_step (run.step_of_mem he))
    (fun s s' ⟨report, h⟩ => (insertReport_ok h) ▸ List.prefix_refl _)).2
  refine ⟨fun targetId => hindexed.activeTargets.length_le_one targetId, hexists,
    hindexed.proposalIds, hmarked, fun e he => ⟨fun row hrow => ?_, hfailures e he, ?_, ?_⟩⟩
  · obtain ⟨later, hlater, hsucc⟩ := ((grows_of_run run).2 e he).proposals row hrow
    refine ⟨⟨later, hlater, hsucc⟩, ?_⟩
    rw [← hsucc.targetId]
    exact hexists later hlater
  · have hstep := run.step_of_mem he
    intro error herror
    obtain ⟨i, o, ⟨c, r⟩, s, s'⟩ := e
    change r = .error error at herror
    subst herror
    exact eq_of_error hstep
  · have hstep := run.step_of_mem he
    intro proposal hsaved hlost
    have hbefore : e.before.Indexed := by
      obtain ⟨pre', ss, hrun⟩ := run.reaches_before he
      exact indexed_of_run hrun
    obtain ⟨i, o, ⟨c, r⟩, s, s'⟩ := e
    change r = .error lostRace at hlost
    subst hlost
    obtain rfl : s' = s := eq_of_error hstep
    exact winner_of_lostRace hbefore hsaved hstep

/-- The plan frozen again, under another id. -/
def planAgain (frozenProposalId : String) (h : frozenProposalId ≠ "") : FrozenProposal planHashing :=
  ⟨{ planProposal.val with frozenProposalId },
    by simp [FrozenProposalFields.postInit, require, computeContentHash, canonicalize, planHashing,
      planProposal, h, bind, Except.bind, pure, Except.pure]⟩

def firstAgain : FrozenProposal planHashing := planAgain "fp-111111111111" (by decide)

def secondAgain : FrozenProposal planHashing := planAgain "fp-222222222222" (by decide)

/-- The second freeze has superseded the proposal of the snapshot. -/
private def secondStore : FpelStore :=
  { planStore.supersede ["fp-0123456789ab"] with
    frozenProposals :=
      (planStore.supersede ["fp-0123456789ab"]).frozenProposals ++ [⟨secondAgain.val, 0⟩] }

/-- What a freeze of the plan reads before its save. -/
private def freezeReads (hex : String) : List (Answered (fpelSignature planHashing) Exn) :=
  [.ok (.getAllFrozenProposals "task-1") [planProposal], .ok .uuid4Hex hex]

private def saveAgain (proposal : FrozenProposal planHashing) :
    FpelProgram planHashing (FrozenProposal planHashing) := do
  saveFrozenProposal proposal ["fp-0123456789ab"]
  return proposal

private theorem freeze_again (hex : String) (proposal : FrozenProposal planHashing)
    (hid : proposal.val = { planProposal.val with frozenProposalId := freshProposalId hex }) :
    (freeze planHashing "task-1" "plan").Reaches (fpelSystem planHashing).disturbed planStore
      (freezeReads hex) (saveAgain proposal) planStore := by
  have hread : (planStore.frozenProposals.mapM fun row : ProposalRow =>
      construct (FrozenProposalFields.postInit planHashing) row.toFrozenProposalFields) =
        .ok [planProposal] :=
    mapM_eq_ok.mpr (.cons (construct_eq_ok.mpr rfl) .nil)
  have hnew : construct (FrozenProposalFields.postInit planHashing)
      { planProposal.val with frozenProposalId := freshProposalId hex } = .ok proposal :=
    construct_eq_ok.mpr hid
  have hordered : Ordered (·.createdAt) (planStore.frozenProposals.filter (·.targetId = "task-1"))
      planStore.frozenProposals := ⟨.refl _, List.pairwise_singleton _ _⟩
  refine .call ⟨_, .refl, .inl ⟨rfl, _, hordered, hread.symm⟩⟩ ?_
  refine .call ⟨_, .refl, .inl ⟨rfl, _, rfl⟩⟩ ?_
  have hq : saveAgain proposal = (do
    let proposal ← Program.ofExcept (construct (FrozenProposalFields.postInit planHashing)
      { planProposal.val with frozenProposalId := freshProposalId hex })
    saveAgain proposal) := by rw [hnew]; rfl
  rw [hq]
  exact .here _ _

private theorem second_saved :
    (saveAgain secondAgain).Reaches (fpelSystem planHashing).disturbed planStore
      [.ok (.saveFrozenProposal secondAgain ["fp-0123456789ab"]) ()] (.ret secondAgain) secondStore := by
  refine .call ⟨_, .refl, .inl ⟨0, ?_⟩⟩ (.here _ _)
  exact ⟨rfl, rfl⟩

private theorem first_lost :
    (saveAgain firstAgain).Reaches (fpelSystem planHashing).disturbed secondStore
      [⟨.saveFrozenProposal firstAgain ["fp-0123456789ab"], .error lostRace⟩] (.fail lostRace) secondStore := by
  refine .call ⟨_, .refl, .inl ⟨0, ?_⟩⟩ (.here _ _)
  exact ⟨rfl, rfl⟩

theorem one_active_proposal_plan :
    ∃ (tr : List (fpelSystem planHashing).Event) (cfg : (fpelSystem planHashing).Config),
      (fpelSystem planHashing).Run tr cfg ∧
      (∃ e ∈ tr, e.answered = ⟨.saveFrozenProposal firstAgain ["fp-0123456789ab"], .error lostRace⟩ ∧
        ∃ winner, e.after.activeRows "task-1" = [winner]) ∧
      ∃ active, cfg.store.activeRows "task-1" = [active] := by
  have hinitial : (fpelSystem planHashing).Run [] ⟨{}, fun _ => none⟩ := .initial rfl
  have hones : freshProposalId "11111111111111111111111111111111" = "fp-111111111111" := by decide
  have htwos : freshProposalId "22222222222222222222222222222222" = "fp-222222222222" := by decide
  obtain ⟨tr, hrun⟩ := hinitial.perform (i := 0) (o := .snapshotLegacy "task-1" "plan") rfl
    snapshot_plan
  obtain ⟨read₁, hrun, -⟩ := (hrun.invoke 1 rfl (.freeze "task-1" "plan")).advance
    (Function.update_self ..) (freeze_again _ firstAgain (by rw [hones]; rfl))
  obtain ⟨read₂, hrun, -⟩ := (hrun.invoke 2 rfl (.freeze "task-1" "plan")).advance
    (Function.update_self ..) (freeze_again _ secondAgain (by rw [htwos]; rfl))
  obtain ⟨saved, hrun, -⟩ := hrun.advance (Function.update_self ..) second_saved
  obtain ⟨lost, hrun, hanswers, -⟩ := hrun.advance (i := 1) (o := .freeze "task-1" "plan") rfl first_lost
  obtain ⟨e, rest, rfl, he, -⟩ := List.map_eq_cons_iff.mp hanswers
  obtain ⟨-, hexists, -, -, hevents⟩ := one_active_proposal hrun
  refine ⟨_, _, hrun, ⟨e, by simp, he, ?_⟩, hexists ⟨secondAgain.val, 0⟩ ?_⟩
  · exact (hevents e (by simp)).2.2.2 firstAgain (by rw [he]; rfl) (by rw [he])
  · simp [secondStore]

end Run

end ForkAgent.Fpel

import ForkAgent.Fpel.System

/-!
# FPEL gate

The gate reads three tables that four kinds of operation write. A proposal that is active now has
been the only active one of its target ever since it was frozen, so the checkers its seal read are
its own, and the verdict the gate finds carries the hash of the proposal.
-/

namespace ForkAgent.Fpel

open Effects Storage FpelStore

variable {H : Hashing} {tr : List (fpelSystem H).Event} {cfg : (fpelSystem H).Config}

theorem indexed_of_run (run : (fpelSystem H).Run tr cfg) : cfg.store.Indexed := by
  refine run.invariant (I := Indexed) ?_ ?_ ?_
  · rintro s rfl
    exact ⟨.nil _, .nil _, .nil _⟩
  · exact fun e he hs => hs.step (run.step_of_mem he)
  · rintro s s' hs ⟨report, hreport⟩
    exact hs.insertReport hreport

theorem grows_of_run (run : (fpelSystem H).Run tr cfg) :
    tr.Pairwise (fun d e => Grows d.after e.before) ∧ ∀ e ∈ tr, Grows e.after cfg.store :=
  run.grows .refl (fun _ _ _ => .trans) (fun _ he => .step (run.step_of_mem he))
    (fun _ _ ⟨_, h⟩ => .insertReport h)

theorem FpelStore.Grows.succeeds {s s' : FpelStore} (h : Grows s s') (hs' : s'.Indexed)
    {r r' : ProposalRow} (hr : r ∈ s.frozenProposals) (hr' : r' ∈ s'.frozenProposals)
    (hid : r'.frozenProposalId = r.frozenProposalId) : Succeeds r r' := by
  obtain ⟨r'', hr'', hsucc⟩ := h.proposals r hr
  have heq : r'' = r' := by
    refine hs'.proposalIds.eq_of_mem hr'' hr' (k := r.frozenProposalId) ?_ ?_
    · simp [proposalId, hsucc.frozenProposalId]
    · simp [proposalId, hid]
  rwa [heq] at hsucc

theorem exists_of_reportByChecker {reports : List CheckerReport} {c verdict : String}
    (h : reportByChecker reports c = some verdict) :
    ∃ report ∈ reports, report.checkerId = c ∧ report.verdict = verdict := by
  obtain ⟨report, hfind, hverdict⟩ := Option.map_eq_some_iff.mp h
  refine ⟨report, ?_, by simpa using List.find?_some hfind, hverdict⟩
  exact List.mem_reverse.mp (List.mem_of_find?_eq_some hfind)

/-- One seal of the target inserted the verdict, after it had read the checkers of the proposal,
at least one, and a passing report from each of them. -/
def SealedByCheckers (tr : List (fpelSystem H).Event) (targetId frozenProposalId : String)
    (v : SealedVerdictFields) : Prop :=
  ∃ (checkersRead reportsRead inserted : (fpelSystem H).Event) (checkers : List String)
    (reports : List CheckerReport) (verdict : SealedVerdict),
    [checkersRead, reportsRead, inserted].Sublist tr ∧
    checkersRead.caller = inserted.caller ∧ reportsRead.caller = inserted.caller ∧
    inserted.op = .seal targetId ∧
    checkersRead.answered = .ok (.getCheckersFor targetId) checkers ∧ checkers ≠ [] ∧
    (∀ c, c ∈ checkers ↔ ∃ report ∈ checkersRead.before.checkerReports,
      report.frozenProposalId = frozenProposalId ∧ report.checkerId = c) ∧
    reportsRead.answered = .ok (.getReportsFor frozenProposalId) reports ∧
    (∀ c ∈ checkers, ∃ report ∈ reports, report.frozenProposalId = frozenProposalId ∧
      report.checkerId = c ∧ report.verdict = "PASS") ∧
    inserted.answered = .ok (.saveSealedVerdict verdict) () ∧ verdict.val = v

/-- One legacy snapshot, of content that hashes to `hash`, inserted the proposal and the verdict. -/
def SealedBySnapshot (tr : List (fpelSystem H).Event) (frozenProposalId hash : String)
    (v : SealedVerdictFields) : Prop :=
  ∃ inserted ∈ tr, ∃ (content : String) (proposal : FrozenProposal H) (verdict : SealedVerdict)
    (supersedeIds : List String),
    inserted.op.legacyContent H = some (.ok content) ∧ computeContentHash H content = .ok hash ∧
    inserted.answered = .ok (.saveFrozenWithSealedVerdict proposal verdict supersedeIds) () ∧
    proposal.val.frozenProposalId = frozenProposalId ∧ proposal.val.content = content ∧
    verdict.val = v

theorem sealedByCheckers_of_event (run : (fpelSystem H).Run tr cfg) {targetId : String}
    {row : ProposalRow} (hrow : row ∈ cfg.store.activeRows targetId)
    {pre post : List (fpelSystem H).Event} {e : (fpelSystem H).Event} (htr : tr = pre ++ e :: post)
    {verdict : SealedVerdict} (he : e.answered = .ok (.saveSealedVerdict verdict) ())
    (hid : verdict.val.frozenProposalId = row.frozenProposalId) :
    verdict.val.contentHash = row.contentHash ∧
      SealedByCheckers tr targetId row.frozenProposalId verdict.val := by
  have hguard := run.ensures_event htr (program_guarded e.op)
  rw [he] at hguard
  obtain ⟨target, hop, frozen, checkers, reports, hread, hempty, hpass, hfrozen, hhash⟩ := hguard
  obtain ⟨es, hes, hcaller, hanswers⟩ := System.Run.events_of_history hread
  obtain ⟨a, es, rfl, ha, hanswers⟩ := List.map_eq_cons_iff.mp hanswers
  obtain ⟨c, es, rfl, hc, hanswers⟩ := List.map_eq_cons_iff.mp hanswers
  obtain ⟨r, es, rfl, hr, hanswers⟩ := List.map_eq_cons_iff.mp hanswers
  obtain rfl := List.map_eq_nil_iff.mp hanswers
  have horder : [a, c, r, e].Sublist tr := by
    rw [htr]
    exact hes.append (List.singleton_sublist.mpr (List.mem_cons_self))
  have hatr : a ∈ tr := horder.subset (by simp)
  have hctr : c ∈ tr := horder.subset (by simp)
  have hrtr : r ∈ tr := horder.subset (by simp)
  obtain ⟨hgrow, hgrown⟩ := grows_of_run run
  have hindexed := indexed_of_run run
  obtain ⟨hrowmem, hactive, htarget⟩ := mem_activeRows.mp hrow
  -- the row the seal read is an earlier state of the active one, so both have one target
  have hastep := run.step_of_mem hatr
  rw [ha] at hastep
  obtain ⟨haafter, rowₐ, hrowₐ, hfieldsₐ⟩ := getActiveFrozenProposal_ok hastep
  obtain ⟨hrowₐmem, -, htargetₐ⟩ := mem_activeRows.mp hrowₐ
  rw [← haafter] at hrowₐmem
  have hidₐ : row.frozenProposalId = rowₐ.frozenProposalId := by
    rw [← hid, hfrozen, ← hfieldsₐ]
  have hsuccₐ := (hgrown a hatr).succeeds hindexed hrowₐmem hrowmem hidₐ
  have htargets : target = targetId := by rw [← htargetₐ, ← hsuccₐ.targetId, htarget]
  subst htargets
  -- it was still the active one when the checkers were read
  have hcstep := run.step_of_mem hctr
  rw [hc] at hcstep
  obtain ⟨hcafter, hcheckers⟩ := getCheckersFor_ok hcstep
  have hac : Grows a.after c.before := by
    have := hgrow.sublist horder
    exact List.rel_of_pairwise_cons this (by simp)
  obtain ⟨rowc, hrowc, hsuccc⟩ := hac.proposals rowₐ hrowₐmem
  have hsucc : Succeeds rowc row := by
    have hgrownc := hgrown c hctr
    rw [hcafter] at hgrownc
    exact hgrownc.succeeds hindexed hrowc hrowmem (by rw [hidₐ, hsuccc.frozenProposalId])
  have hcindexed : c.before.Indexed := by
    obtain ⟨pre', ss, hrun⟩ := run.reaches_before hctr
    exact indexed_of_run hrun
  have honly : c.before.activeRows target = [rowc] := by
    refine hcindexed.activeRows_eq (mem_activeRows.mpr ⟨hrowc, hsucc.active hactive, ?_⟩)
    rw [hsuccc.targetId, htargetₐ]
  have hrowcid : rowc.frozenProposalId = row.frozenProposalId := hsucc.frozenProposalId.symm
  have hrstep := run.step_of_mem hrtr
  rw [hr] at hrstep
  obtain ⟨-, hreports⟩ := getReportsFor_ok hrstep
  have hfrozenid : frozen.val.frozenProposalId = row.frozenProposalId := by rw [← hfrozen, hid]
  refine ⟨?_, c, r, e, checkers, reports, verdict, (List.sublist_cons_self a _).trans horder,
    hcaller c (by simp), hcaller r (by simp), hop, hc, hempty, ?_, ?_, ?_, he, rfl⟩
  · rw [hhash, ← hfieldsₐ, hsuccₐ.contentHash]
  · intro checker
    rw [hcheckers checker, honly]
    simp [hrowcid]
  · rw [hr, hfrozenid]
  · intro checker hchecker
    obtain ⟨report, hmem, hcheckerId, hverdict⟩ :=
      exists_of_reportByChecker (hpass checker hchecker)
    exact ⟨report, hmem, by rw [((hreports report).mp hmem).2, hfrozenid], hcheckerId, hverdict⟩

theorem sealedBySnapshot_of_event (run : (fpelSystem H).Run tr cfg) {row : ProposalRow}
    (hrow : row ∈ cfg.store.frozenProposals) {e : (fpelSystem H).Event} (hmem : e ∈ tr)
    {proposal : FrozenProposal H} {verdict : SealedVerdict} {ids : List String}
    (he : e.answered = .ok (.saveFrozenWithSealedVerdict proposal verdict ids) ())
    (hinserted : ∃ row ∈ e.after.frozenProposals, row.toFrozenProposalFields = proposal.val)
    (hid : verdict.val.frozenProposalId = row.frozenProposalId) :
    verdict.val.contentHash = row.contentHash ∧
      SealedBySnapshot tr row.frozenProposalId row.contentHash verdict.val := by
  obtain ⟨pre, post, htr⟩ := List.append_of_mem hmem
  have hguard := run.ensures_event htr (program_guarded e.op)
  rw [he] at hguard
  obtain ⟨hcontent, hids, hhash⟩ := hguard
  obtain ⟨row₀, hrow₀, hfields⟩ := hinserted
  have hpid : proposal.val.frozenProposalId = row.frozenProposalId := by rw [← hids, hid]
  have hsucc : Succeeds row₀ row :=
    ((grows_of_run run).2 e hmem).succeeds (indexed_of_run run) hrow₀ hrow
      (by rw [← hpid, ← hfields])
  have hrowHash : proposal.val.contentHash = row.contentHash := by
    rw [← hfields, hsucc.contentHash]
  refine ⟨by rw [hhash, hrowHash], e, hmem, proposal.val.content, proposal, verdict, ids, hcontent,
    ?_, he, hpid, rfl, rfl⟩
  rw [proposal.computeContentHash_eq, hrowHash]

theorem verdict_origin (run : (fpelSystem H).Run tr cfg) {targetId : String} {row : ProposalRow}
    (hrow : row ∈ cfg.store.activeRows targetId) {v : SealedVerdictFields}
    (hv : v ∈ cfg.store.sealedVerdicts) (hid : v.frozenProposalId = row.frozenProposalId) :
    v.contentHash = row.contentHash ∧
      (SealedByCheckers tr targetId row.frozenProposalId v ∨
        SealedBySnapshot tr row.frozenProposalId row.contentHash v) := by
  obtain ⟨pre, e, post, htr, hbefore, hafter⟩ :=
    run.origin (P := fun s => v ∈ s.sealedVerdicts) (by rintro s rfl; simp)
      (by rintro s s' ⟨report, hreport⟩ h; rwa [insertReport_ok hreport] at h) hv
  have hmem : e ∈ tr := by simp [htr]
  rcases verdict_inserted (run.step_of_mem hmem) hbefore hafter with
    ⟨verdict, rfl, he⟩ | ⟨proposal, verdict, ids, rfl, he, hinserted⟩
  · have := sealedByCheckers_of_event run hrow htr he hid
    exact ⟨this.1, .inl this.2⟩
  · have := sealedBySnapshot_of_event run (mem_activeRows.mp hrow).1 hmem he hinserted hid
    exact ⟨this.1, .inr this.2⟩

/-- What an allowed answer of the gate, given on one store, says of that store. -/
theorem checkSealed_runs {s s' : FpelStore} {targetId hash : String} {d : AuthorizationDecision}
    (h : (checkSealed H targetId (some hash)).Runs (FpelStore.step H) s (.ok d) s')
    (hallowed : d.allowed = true) :
    ∃ row ∈ s.activeRows targetId, d.frozenProposalId = some row.frozenProposalId ∧
      s.failed row.frozenProposalId = false ∧
      ∃ v ∈ s.sealedVerdicts, v.frozenProposalId = row.frozenProposalId ∧ v.contentHash = hash := by
  obtain ⟨frozen, s₁, hread, h₁⟩ := (Program.runs_perform_bind_ok _ _ _).mp h
  obtain _ | frozen := frozen
  · cases h₁.1
    cases hallowed
  obtain ⟨rfl, row, hrow, hfields⟩ := getActiveFrozenProposal_ok hread
  obtain ⟨failed, s₂, hread, h₂⟩ := (Program.runs_perform_bind_ok _ _ _).mp h₁
  obtain ⟨rfl, hfailed⟩ := isFailed_ok hread
  split_ifs at h₂ with hcond
  · cases h₂.1
    cases hallowed
  obtain ⟨verdict, s₃, hread, h₃⟩ := (Program.runs_perform_bind_ok _ _ _).mp h₂
  obtain _ | verdict := verdict
  · obtain ⟨candidate, s₄, -, h₄⟩ := (Program.runs_perform_bind_ok _ _ _).mp h₃
    cases h₄.1
    cases hallowed
  obtain ⟨rfl, hverdict, hid⟩ := getSealedVerdict_ok hread
  change Program.Runs _ (if _ then _ else _) _ _ _ at h₃
  split_ifs at h₃ with hdrift
  · cases h₃.1
    cases hallowed
  cases h₃.1
  rw [← hfields] at hfailed hid
  refine ⟨row, hrow, by rw [hfields], ?_, verdict.val, hverdict, hid, ?_⟩
  · rw [← hfailed]
    exact Bool.eq_false_iff.mpr hcond
  · simpa [detectScopeChange] using hdrift

/-- The gate is safe: what it lets through on a store some run reaches is the one active proposal
of the target, unfailed, with a verdict for this very hash that a full seal or a legacy snapshot
of this very content inserted. -/
theorem checkSealed_allowed_sound (run : (fpelSystem H).Run tr cfg) (targetId hash : String)
    {d : AuthorizationDecision} {s' : FpelStore}
    (h : (checkSealed H targetId (some hash)).Runs (FpelStore.step H) cfg.store (.ok d) s')
    (hallowed : d.allowed = true) :
    ∃ row v, cfg.store.activeRows targetId = [row] ∧
      d.frozenProposalId = some row.frozenProposalId ∧
      cfg.store.failed row.frozenProposalId = false ∧ v ∈ cfg.store.sealedVerdicts ∧
      v.frozenProposalId = row.frozenProposalId ∧ v.contentHash = hash ∧ row.contentHash = hash ∧
      (SealedByCheckers tr targetId row.frozenProposalId v ∨
        SealedBySnapshot tr row.frozenProposalId hash v) := by
  obtain ⟨row, hrow, hdecision, hfailed, v, hv, hid, hhash⟩ := checkSealed_runs h hallowed
  obtain ⟨heq, horigin⟩ := verdict_origin run hrow hv hid
  have hrowHash : row.contentHash = hash := by rw [← heq, hhash]
  rw [hrowHash] at horigin
  exact ⟨row, v, (indexed_of_run run).activeRows_eq hrow, hdecision, hfailed, hv, hid, hhash,
    hrowHash, horigin⟩

/-- The library functions as they answer on the text `plan`, which is not JSON. -/
def planHashing : Hashing where
  loads _ := .error (.jsonDecodeError "Expecting value: line 1 column 1 (char 0)")
  dumps _ := .ok "null"
  sha256Hex _ := "64879f7d6b960a01909762d911a32d4582c20010c5641ee90278b644a9e3b525"

def planProposal : FrozenProposal planHashing :=
  ⟨{ frozenProposalId := "fp-0123456789ab", targetId := "task-1",
     contentHash := planHashing.sha256Hex "plan", content := "plan" },
    by simp [FrozenProposalFields.postInit, require, computeContentHash, canonicalize, planHashing,
      bind, Except.bind, pure, Except.pure]⟩

def planVerdict : SealedVerdict :=
  ⟨{ frozenProposalId := "fp-0123456789ab", verdict := "SEALED_PASS", sealedAt := 0,
     contentHash := planHashing.sha256Hex "plan", source := some "LEGACY_APPROVED" },
    by simp [SealedVerdictFields.postInit, SealedVerdictFields.validSources, require, planHashing,
      bind, Except.bind]⟩

def planStore : FpelStore :=
  { frozenProposals := [⟨planProposal.val, 0⟩], sealedVerdicts := [planVerdict.val] }

theorem snapshot_plan :
    (snapshotLegacy planHashing "task-1" "plan").Runs (FpelStore.step planHashing) {}
      (.ok (planProposal, planVerdict)) planStore := by
  have hid : freshProposalId "0123456789abcdef0123456789abcdef" = "fp-0123456789ab" := by decide
  have hash : computeContentHash planHashing "plan" = .ok (planHashing.sha256Hex "plan") := rfl
  refine .ofExcept_bind hash ?_
  refine .perform_bind (.inl ⟨rfl, none, rfl, rfl⟩) ?_
  refine .perform_bind (.inl ⟨rfl, [], ⟨.refl _, .nil⟩, rfl⟩) ?_
  refine .perform_bind (v := "0123456789abcdef0123456789abcdef") (.inl ⟨rfl, _, rfl⟩) ?_
  refine .ofExcept_bind (b := planProposal) (construct_eq_ok.mpr ?_) ?_
  · rw [hid]; rfl
  refine .perform_bind (v := (0 : Int)) (.inl ⟨rfl, _, rfl⟩) ?_
  refine .ofExcept_bind (b := planVerdict) (construct_eq_ok.mpr ?_) ?_
  · rw [hid]; rfl
  exact .perform_bind (.inl ⟨0, rfl, rfl⟩) ⟨rfl, rfl⟩

theorem check_plan :
    (checkSealed planHashing "task-1" (some (planHashing.sha256Hex "plan"))).Runs
      (FpelStore.step planHashing) planStore
      (.ok { allowed := true, status := .sealedPass, frozenProposalId := some "fp-0123456789ab",
             contentHash := some (planHashing.sha256Hex "plan"), reason := none,
             sealId := some "fp-0123456789ab", sealedAt := some 0 }) planStore := by
  have hactive : planStore.activeRows "task-1" = [⟨planProposal.val, 0⟩] := rfl
  have hlatest : Latest (·.createdAt) (planStore.activeRows "task-1")
      (some (⟨planProposal.val, 0⟩ : ProposalRow)) := by simp [hactive, Latest]
  refine .perform_bind (v := some planProposal) (.inl ⟨rfl, _, hlatest, ?_⟩) ?_
  · exact (mapM_construct_eq_some.mpr ⟨_, rfl, rfl⟩).symm
  refine .perform_bind (v := false) (.inl ⟨rfl, rfl⟩) ?_
  refine .perform_bind (v := some planVerdict) (.inl ⟨rfl, ?_⟩) ⟨rfl, rfl⟩
  exact (mapM_construct_eq_some.mpr ⟨_, rfl, rfl⟩).symm

theorem checkSealed_allowed_sound_plan :
    ∃ (tr : List (fpelSystem planHashing).Event) (cfg : (fpelSystem planHashing).Config),
      (fpelSystem planHashing).Run tr cfg ∧
      ∃ row v, cfg.store.activeRows "task-1" = [row] ∧
        cfg.store.failed row.frozenProposalId = false ∧ v ∈ cfg.store.sealedVerdicts ∧
        v.contentHash = planHashing.sha256Hex "plan" ∧
        (SealedByCheckers tr "task-1" row.frozenProposalId v ∨
          SealedBySnapshot tr row.frozenProposalId (planHashing.sha256Hex "plan") v) := by
  have hinitial : (fpelSystem planHashing).Run [] ⟨{}, fun _ => none⟩ := .initial rfl
  obtain ⟨tr, hrun⟩ := hinitial.perform (i := 0) (o := .snapshotLegacy "task-1" "plan") rfl
    snapshot_plan
  obtain ⟨row, v, hrow, -, hfailed, hv, -, hhash, -, horigin⟩ :=
    checkSealed_allowed_sound hrun "task-1" (planHashing.sha256Hex "plan") check_plan rfl
  exact ⟨_, _, hrun, row, v, hrow, hfailed, hv, hhash, horigin⟩

end ForkAgent.Fpel

import ForkAgent.Fpel.Elsewhere
import ForkAgent.TaskBoard.Entity

/-!
# Hash authority

The freezing operations and the hash functions assemble the same text, so what was frozen from a
task is let through with the hash of the task. A hash stands for the canonical form of that text
and for no more: the subject and the description are joined by a newline that either may contain.
-/

namespace ForkAgent.Fpel

open Effects Storage FpelStore Relation

/-- The hash of a plan's task list. -/
def computePlanHashFromTasks (H : Hashing) (tasks : List PlanTask) : Except Exn String := do
  let canonical ← planContent H tasks
  computeContentHash H canonical

variable {H : Hashing} {targetId : String} {p : FrozenProposal H} {s s' t : FpelStore}

/-- The proposal is the active one of its target, and nothing stored speaks against it. -/
structure Standing (p : FrozenProposal H) (s : FpelStore) : Prop where
  sound : s.Sound
  active : ∃ row ∈ s.activeRows p.val.targetId, row.toFrozenProposalFields = p.val
  unfailed : s.failed p.val.frozenProposalId = false
  verdicts : ∀ v ∈ s.sealedVerdicts, v.frozenProposalId = p.val.frozenProposalId →
    v.contentHash = p.val.contentHash ∧ v.postInit = .ok ()
  reports : ∀ r ∈ s.checkerReports, r.frozenProposalId = p.val.frozenProposalId →
    r.verdict = "PASS"
  status : s.statusOf p.val.targetId ≠ some FPELStatus.terminalFail.value

def Reported (p : FrozenProposal H) (s : FpelStore) : Prop :=
  ∃ r ∈ s.checkerReports, r.frozenProposalId = p.val.frozenProposalId

def Sealed (p : FrozenProposal H) (s : FpelStore) : Prop :=
  ∃ v ∈ s.sealedVerdicts, v.frozenProposalId = p.val.frozenProposalId

section Meanwhile

theorem unchanged_meanwhile (hs : s.Sound) (h : ReflTransGen (Elsewhere H targetId) s t) :
    t.Sound ∧ Unchanged targetId s t := by
  induction h with
  | refl => exact ⟨hs, .refl _ _⟩
  | tail _ hstep ih => exact ⟨hstep.sound ih.1, ih.2.trans (hstep.unchanged ih.1.indexed)⟩

theorem Standing.row (hs : Standing p s) :
    ∃ row ∈ s.frozenProposals, row.targetId = p.val.targetId ∧
      row.frozenProposalId = p.val.frozenProposalId ∧ row.toFrozenProposalFields = p.val ∧
      s.activeRows p.val.targetId = [row] := by
  obtain ⟨row, hrow, hfields⟩ := hs.active
  obtain ⟨hmem, -, htarget⟩ := mem_activeRows.mp hrow
  exact ⟨row, hmem, htarget, by rw [hfields], hfields, hs.sound.indexed.activeRows_eq hrow⟩

theorem Standing.unchanged (hs : Standing p s) (ht : t.Sound)
    (h : Unchanged p.val.targetId s t) : Standing p t := by
  obtain ⟨row, hrow, htarget, hid, hfields, hactive⟩ := hs.row
  have hmem : row ∈ s.activeRows p.val.targetId := by simp [hactive]
  refine ⟨ht, ⟨row, ?_, hfields⟩, ?_, fun v hv hvid => ?_, fun r hr hrid => ?_, ?_⟩
  · obtain ⟨-, hstatus, -⟩ := mem_activeRows.mp hmem
    exact mem_activeRows.mpr ⟨(h.proposals row htarget).mpr hrow, hstatus, htarget⟩
  · rw [← hid, h.failures row hrow htarget, hid]
    exact hs.unfailed
  · exact hs.verdicts v ((h.verdicts row hrow htarget v (hvid.trans hid.symm)).mp hv) hvid
  · exact hs.reports r ((h.reports row hrow htarget r (hrid.trans hid.symm)).mp hr) hrid
  · rw [h.status]
    exact hs.status

theorem Standing.meanwhile (hs : Standing p s)
    (h : ReflTransGen (Elsewhere H p.val.targetId) s t) : Standing p t := by
  obtain ⟨ht, hunchanged⟩ := unchanged_meanwhile hs.sound h
  exact hs.unchanged ht hunchanged

theorem Standing.report_meanwhile (hs : Standing p s)
    (h : ReflTransGen (Elsewhere H p.val.targetId) s t) {r : CheckerReport}
    (hr : r ∈ s.checkerReports) (hid : r.frozenProposalId = p.val.frozenProposalId) :
    r ∈ t.checkerReports := by
  obtain ⟨row, hrow, htarget, hrowId, -, -⟩ := hs.row
  have hunchanged := (unchanged_meanwhile hs.sound h).2
  exact (hunchanged.reports row hrow htarget r (hid.trans hrowId.symm)).mpr hr

theorem Standing.sealed_meanwhile (hs : Standing p s)
    (h : ReflTransGen (Elsewhere H p.val.targetId) s t) (hsealed : Sealed p s) : Sealed p t := by
  obtain ⟨row, hrow, htarget, hrowId, -, -⟩ := hs.row
  obtain ⟨v, hv, hid⟩ := hsealed
  have hunchanged := (unchanged_meanwhile hs.sound h).2
  exact ⟨v, (hunchanged.verdicts row hrow htarget v (hid.trans hrowId.symm)).mpr hv, hid⟩

end Meanwhile

section Reads

theorem latest_singleton {α κ : Type} [LE κ] {key : α → κ} {x : α} {answer : Option α}
    (h : Latest key [x] answer) : answer = some x := by
  cases answer with
  | none => cases h
  | some y => rw [List.mem_singleton.mp h.1]

theorem Standing.getActive (hs : Standing p t) {r : Except Exn (Option (FrozenProposal H))}
    (h : FpelStore.step H ⟨.getActiveFrozenProposal p.val.targetId, r⟩ t s') :
    s' = t ∧ (r = .ok (some p) ∨ ∃ m, r = .error (.operationalError m)) := by
  obtain ⟨row, -, -, -, hfields, hactive⟩ := hs.row
  rcases h with ⟨rfl, latest, hlatest, hanswer⟩ | ⟨rfl, m, hm⟩
  · rw [hactive] at hlatest
    obtain rfl := latest_singleton hlatest
    refine ⟨rfl, .inl ?_⟩
    rw [hanswer]
    exact mapM_construct_eq_some.mpr ⟨row, rfl, hfields.symm⟩
  · exact ⟨rfl, .inr ⟨m, hm⟩⟩

theorem Standing.isFailed (hs : Standing p t) {r : Except Exn Bool}
    (h : FpelStore.step H ⟨.isFailed p.val.frozenProposalId, r⟩ t s') :
    s' = t ∧ (r = .ok false ∨ ∃ m, r = .error (.operationalError m)) := by
  rcases h with ⟨rfl, hanswer⟩ | ⟨rfl, m, hm⟩
  · have hunfailed := hs.unfailed
    exact ⟨rfl, .inl (by rw [hanswer, hunfailed]; rfl)⟩
  · exact ⟨rfl, .inr ⟨m, hm⟩⟩

theorem Standing.getSealed (hs : Standing p t) (hsealed : Sealed p t)
    {r : Except Exn (Option SealedVerdict)}
    (h : FpelStore.step H ⟨.getSealedVerdict p.val.frozenProposalId, r⟩ t s') :
    s' = t ∧ ((∃ v : SealedVerdict, r = .ok (some v) ∧ v.val.contentHash = p.val.contentHash) ∨
      ∃ m, r = .error (.operationalError m)) := by
  rcases h with ⟨rfl, hanswer⟩ | ⟨rfl, m, hm⟩
  · refine ⟨rfl, .inl ?_⟩
    obtain ⟨w, hw, hwid⟩ := hsealed
    have hsome : (s'.sealedVerdicts.find? fun v => v.frozenProposalId == p.val.frozenProposalId).isSome := by
      rw [List.find?_isSome]
      exact ⟨w, hw, by simpa using hwid⟩
    obtain ⟨v, hfind⟩ := Option.isSome_iff_exists.mp hsome
    obtain ⟨hhash, hvalid⟩ := hs.verdicts v (List.mem_of_find?_eq_some hfind)
      (by simpa using List.find?_some hfind)
    refine ⟨⟨v, hvalid⟩, ?_, hhash⟩
    rw [hanswer, hfind]
    exact mapM_construct_eq_some.mpr ⟨v, rfl, rfl⟩
  · exact ⟨rfl, .inr ⟨m, hm⟩⟩

theorem Standing.getCurrentHash (hs : Standing p t) {current : Option String}
    (h : FpelStore.step H (.ok (.getCurrentContentHash p.val.targetId) current) t s') :
    s' = t ∧ current = some p.val.contentHash := by
  obtain ⟨row, -, -, -, hfields, hactive⟩ := hs.row
  rcases h with ⟨rfl, latest, hlatest, hanswer⟩ | ⟨-, m, hm⟩
  · rw [hactive] at hlatest
    obtain rfl := latest_singleton hlatest
    cases hanswer
    exact ⟨rfl, by rw [← hfields]; rfl⟩
  · cases hm

theorem getFpelStatus_ok {status : Option String}
    (h : FpelStore.step H (.ok (.getFpelStatus targetId) status) t s') :
    s' = t ∧ status = t.statusOf targetId := by
  rcases h with ⟨rfl, hanswer⟩ | ⟨-, m, hm⟩
  · cases hanswer
    exact ⟨rfl, rfl⟩
  · cases hm

end Reads

section Operations

/-- The calls of an operation on the target, with steps elsewhere between them. -/
abbrev amongOthers (H : Hashing) (targetId : String) : Semantics (fpelSignature H) Exn FpelStore :=
  (FpelStore.step H).disturbed (Elsewhere H targetId)

theorem inserted_fresh (hs : t.Sound) {ids : List String} {row : ProposalRow}
    (h : (t.supersede ids).insertProposal row = .ok s) :
    t.failed row.frozenProposalId = false ∧
      (∀ v ∈ t.sealedVerdicts, v.frozenProposalId ≠ row.frozenProposalId) ∧
      ∀ r ∈ t.checkerReports, r.frozenProposalId ≠ row.frozenProposalId := by
  obtain ⟨hid, -, -⟩ := insertProposal_ok h
  have hnone : t.hasProposal row.frozenProposalId = false := by
    rw [← hasProposal_supersede t ids, hasProposal, List.any_eq_false]
    intro r hr heq
    refine conflicts_eq_false.mp hid r hr row.frozenProposalId rfl ?_
    simpa [proposalId] using heq
  have hfree : ∀ id, t.hasProposal id = true → id ≠ row.frozenProposalId := by
    rintro id hthere rfl
    rw [hnone] at hthere
    cases hthere
  refine ⟨?_, fun v hv => hfree _ (hs.verdicts v hv), fun r hr => hfree _ (hs.reports r hr)⟩
  rw [failed, List.any_eq_false]
  intro f hf heq
  exact hfree _ (hs.failures f hf) (by simpa using heq)

theorem inserted_active {ids : List String} {createdAt : Nat} (hactive : p.val.lifecycle = .active)
    (h : (t.supersede ids).insertProposal ⟨p.val, createdAt⟩ = .ok s) :
    ∃ row ∈ s.activeRows p.val.targetId, row.toFrozenProposalFields = p.val := by
  obtain ⟨-, -, rfl⟩ := insertProposal_ok h
  exact ⟨_, mem_activeRows.mpr ⟨List.mem_append_right _ (List.mem_singleton_self _), hactive, rfl⟩, rfl⟩

theorem freeze_standing (hs : s.Sound)
    (hstatus : s.statusOf targetId ≠ some FPELStatus.terminalFail.value) (content : String) :
    (freeze H targetId content).Always (amongOthers H targetId) (fun _ _ => True)
      (fun out s' => ∀ p, out = .ok p → p.val.targetId = targetId ∧
        computeContentHash H content = .ok p.val.contentHash ∧ Standing p s') s := by
  refine (Program.always_perform_bind _ _).mpr ⟨trivial, fun existing s₁ h₁ => ?_, fun e _ _ _ h => by cases h⟩
  obtain ⟨t₁, hmean₁, hlist⟩ := h₁
  obtain ⟨rfl, -⟩ := getAllFrozenProposals_ok hlist
  refine (Program.always_ofExcept_bind _ _).mpr ⟨fun contentHash hhash => ?_, fun e _ _ h => by cases h⟩
  refine (Program.always_perform_bind _ _).mpr ⟨trivial, fun hex s₂ h₂ => ?_, fun e _ _ _ h => by cases h⟩
  obtain ⟨t₂, hmean₂, hfresh⟩ := h₂
  obtain rfl : s₂ = t₂ := by rcases hfresh with h | h <;> exact h.1
  refine (Program.always_ofExcept_bind _ _).mpr ⟨fun p hp => ?_, fun e _ _ h => by cases h⟩
  have hval := construct_eq_ok.mp hp
  refine (Program.always_perform_bind _ _).mpr ⟨trivial, fun u s₃ h₃ => ?_, fun e _ _ _ h => by cases h⟩
  obtain ⟨t₃, hmean₃, hsave⟩ := h₃
  obtain ⟨ht, hunchanged⟩ := unchanged_meanwhile hs ((hmean₁.trans hmean₂).trans hmean₃)
  have hsound : s₃.Sound := ht.step hsave
  rcases hsave with ⟨createdAt, htx⟩ | ⟨-, m, hm⟩
  swap
  · cases hm
  have hinsert := Transaction.ok htx
  obtain ⟨hunfailed, hverdicts, hreports⟩ := inserted_fresh ht hinsert
  have hactive := inserted_active (by rw [hval]) hinsert
  obtain ⟨-, -, heq⟩ := insertProposal_ok hinsert
  rintro q hq
  cases hq
  have htarget : p.val.targetId = targetId := by rw [hval]
  refine ⟨htarget, by rw [hval]; exact hhash, hsound, hactive, ?_, ?_, ?_, ?_⟩
  · rw [heq]
    exact hunfailed
  · rw [heq]
    exact fun v hv hid => absurd hid (hverdicts v hv)
  · rw [heq]
    exact fun r hr hid => absurd hid (hreports r hr)
  · rw [heq, htarget]
    exact fun h => hstatus (hunchanged.status ▸ h)

theorem snapshot_standing (hs : s.Sound) (hnone : s.activeRows targetId = [])
    (hstatus : s.statusOf targetId ≠ some FPELStatus.terminalFail.value) (content : String) :
    (snapshotLegacy H targetId content).Always (amongOthers H targetId) (fun _ _ => True)
      (fun out s' => ∀ result, out = .ok result → result.1.val.targetId = targetId ∧
        computeContentHash H content = .ok result.1.val.contentHash ∧ Standing result.1 s' ∧
        Sealed result.1 s') s := by
  refine (Program.always_ofExcept_bind _ _).mpr ⟨fun contentHash hhash => ?_, fun e _ _ h => by cases h⟩
  refine (Program.always_perform_bind _ _).mpr ⟨trivial, fun active s₁ h₁ => ?_, fun e _ _ _ h => by cases h⟩
  obtain ⟨t₁, hmean₁, hactive⟩ := h₁
  obtain ⟨-, hfirst⟩ := unchanged_meanwhile hs hmean₁
  -- a step elsewhere makes no proposal of the target active
  have hstill : t₁.activeRows targetId = [] := by
    rw [List.eq_nil_iff_forall_not_mem] at hnone ⊢
    intro row hrow
    obtain ⟨hmem, hlife, htarget⟩ := mem_activeRows.mp hrow
    exact hnone row (mem_activeRows.mpr ⟨(hfirst.proposals row htarget).mp hmem, hlife, htarget⟩)
  obtain _ | frozen := active
  swap
  · obtain ⟨-, row, hrow, -⟩ := getActiveFrozenProposal_ok hactive
    rw [hstill] at hrow
    cases hrow
  obtain rfl : s₁ = t₁ := by rcases hactive with h | h <;> exact h.1
  refine (Program.always_perform_bind _ _).mpr ⟨trivial, fun existing s₂ h₂ => ?_, fun e _ _ _ h => by cases h⟩
  obtain ⟨t₂, hmean₂, hlist⟩ := h₂
  obtain ⟨rfl, -⟩ := getAllFrozenProposals_ok hlist
  refine (Program.always_perform_bind _ _).mpr ⟨trivial, fun hex s₃ h₃ => ?_, fun e _ _ _ h => by cases h⟩
  obtain ⟨t₃, hmean₃, hfresh⟩ := h₃
  obtain rfl : s₃ = t₃ := by rcases hfresh with h | h <;> exact h.1
  refine (Program.always_ofExcept_bind _ _).mpr ⟨fun p hp => ?_, fun e _ _ h => by cases h⟩
  have hval := construct_eq_ok.mp hp
  refine (Program.always_perform_bind _ _).mpr ⟨trivial, fun now s₄ h₄ => ?_, fun e _ _ _ h => by cases h⟩
  obtain ⟨t₄, hmean₄, hclock⟩ := h₄
  obtain rfl : s₄ = t₄ := by rcases hclock with h | h <;> exact h.1
  refine (Program.always_ofExcept_bind _ _).mpr ⟨fun verdict hverdict => ?_, fun e _ _ h => by cases h⟩
  have hverdictVal := construct_eq_ok.mp hverdict
  refine (Program.always_perform_bind _ _).mpr ⟨trivial, fun u s₅ h₅ => ?_, fun e _ _ _ h => by cases h⟩
  obtain ⟨t₅, hmean₅, hsave⟩ := h₅
  obtain ⟨ht, hunchanged⟩ := unchanged_meanwhile hs
    ((((hmean₁.trans hmean₂).trans hmean₃).trans hmean₄).trans hmean₅)
  have hsound : s₅.Sound := ht.step hsave
  rcases hsave with ⟨createdAt, htx⟩ | ⟨-, m, hm⟩
  swap
  · cases hm
  have hboth := Transaction.ok htx
  cases hinsert : (t₅.supersede (supersedeIds H existing)).insertProposal ⟨p.val, createdAt⟩ with
  | error e =>
    rw [hinsert] at hboth
    cases hboth
  | ok t₆ =>
    rw [hinsert] at hboth
    obtain ⟨hunfailed, hverdicts, hreports⟩ := inserted_fresh ht hinsert
    have hrow := inserted_active (by rw [hval]) hinsert
    obtain ⟨-, -, rfl⟩ := insertProposal_ok hinsert
    obtain ⟨-, rfl⟩ := insertVerdict_ok hboth
    rintro result hresult
    cases hresult
    have htarget : p.val.targetId = targetId := by rw [hval]
    have hids : verdict.val.frozenProposalId = p.val.frozenProposalId := by rw [hval, hverdictVal]
    have hhashes : verdict.val.contentHash = p.val.contentHash := by rw [hval, hverdictVal]
    refine ⟨htarget, by rw [hval]; exact hhash, ⟨hsound, hrow, hunfailed, ?_, ?_, ?_⟩, ?_⟩
    · intro v hv hid
      rcases List.mem_append.mp hv with hv | hv
      · exact absurd hid (hverdicts v hv)
      · rw [List.mem_singleton.mp hv]
        exact ⟨hhashes, verdict.property⟩
    · exact fun r hr hid => absurd hid (hreports r hr)
    · rw [htarget]
      exact fun h => hstatus (hunchanged.status ▸ h)
    · exact ⟨verdict.val, List.mem_append_right _ (List.mem_singleton_self _), hids⟩

theorem reportByChecker_of_pass {reports : List CheckerReport}
    (hpass : ∀ r ∈ reports, r.verdict = "PASS") {checkerId : String}
    (h : ∃ r ∈ reports, r.checkerId = checkerId) : reportByChecker reports checkerId = some "PASS" := by
  obtain ⟨r, hr, hid⟩ := h
  have hsome : (reports.reverse.find? fun r => r.checkerId == checkerId).isSome := by
    rw [List.find?_isSome]
    exact ⟨r, List.mem_reverse.mpr hr, by simpa using hid⟩
  obtain ⟨last, hlast⟩ := Option.isSome_iff_exists.mp hsome
  have hmem := List.mem_reverse.mp (List.mem_of_find?_eq_some hlast)
  rw [reportByChecker, hlast, Option.map_some, hpass last hmem]

/-- A proposal that stands and has been reported on is sealed. -/
theorem seal_standing (hs : Standing p s) (hreported : Reported p s) :
    (Fpel.seal H p.val.targetId).Always (amongOthers H p.val.targetId) (fun _ _ => True)
      (fun out s' => ∀ r, out = .ok r →
        (∃ v, r = .inl v) ∧ Standing p s' ∧ Sealed p s') s := by
  obtain ⟨report, hreport, hreportId⟩ := hreported
  refine (Program.always_perform_bind _ _).mpr ⟨trivial, fun frozen s₁ h₁ => ?_, fun e _ _ _ h => by cases h⟩
  obtain ⟨t₁, hmean₁, hread⟩ := h₁
  have ht₁ := hs.meanwhile hmean₁
  have hreport₁ := hs.report_meanwhile hmean₁ hreport hreportId
  obtain ⟨rfl, hanswer | ⟨m, hm⟩⟩ := ht₁.getActive hread
  swap
  · cases hm
  cases hanswer
  refine (Program.always_perform_bind _ _).mpr ⟨trivial, fun failed s₂ h₂ => ?_, fun e _ _ _ h => by cases h⟩
  obtain ⟨t₂, hmean₂, hread⟩ := h₂
  have ht₂ := ht₁.meanwhile hmean₂
  have hreport₂ := ht₁.report_meanwhile hmean₂ hreport₁ hreportId
  obtain ⟨rfl, hanswer | ⟨m, hm⟩⟩ := ht₂.isFailed hread
  swap
  · cases hm
  cases hanswer
  refine (Program.always_perform_bind _ _).mpr ⟨trivial, fun existing s₃ h₃ => ?_, fun e _ _ _ h => by cases h⟩
  obtain ⟨t₃, hmean₃, hread⟩ := h₃
  have ht₃ := ht₂.meanwhile hmean₃
  have hreport₃ := ht₂.report_meanwhile hmean₃ hreport₂ hreportId
  obtain _ | existing := existing
  swap
  · obtain ⟨rfl, hmem, hid⟩ := getSealedVerdict_ok hread
    rintro r hr
    cases hr
    exact ⟨⟨existing, rfl⟩, ht₃, existing.val, hmem, hid⟩
  obtain rfl : s₃ = t₃ := by rcases hread with h | h <;> exact h.1
  refine (Program.always_perform_bind _ _).mpr ⟨trivial, fun status s₄ h₄ => ?_, fun e _ _ _ h => by cases h⟩
  obtain ⟨t₄, hmean₄, hread⟩ := h₄
  have ht₄ := ht₃.meanwhile hmean₄
  have hreport₄ := ht₃.report_meanwhile hmean₄ hreport₃ hreportId
  obtain ⟨rfl, hstatus⟩ := getFpelStatus_ok hread
  rw [if_neg (by rw [hstatus]; exact ht₄.status)]
  refine (Program.always_perform_bind _ _).mpr ⟨trivial, fun current s₅ h₅ => ?_, fun e _ _ _ h => by cases h⟩
  obtain ⟨t₅, hmean₅, hread⟩ := h₅
  have ht₅ := ht₄.meanwhile hmean₅
  have hreport₅ := ht₄.report_meanwhile hmean₅ hreport₄ hreportId
  obtain ⟨rfl, rfl⟩ := ht₅.getCurrentHash hread
  rw [if_neg (by simp [detectScopeChange])]
  refine (Program.always_perform_bind _ _).mpr ⟨trivial, fun (checkers : List String) s₆ h₆ => ?_, fun e _ _ _ h => by cases h⟩
  obtain ⟨t₆, hmean₆, hread⟩ := h₆
  have ht₆ := ht₅.meanwhile hmean₆
  have hreport₆ := ht₅.report_meanwhile hmean₆ hreport₅ hreportId
  obtain ⟨rfl, hcheckers⟩ := getCheckersFor_ok hread
  obtain ⟨row, -, -, hrowId, -, hactive⟩ := ht₆.row
  rw [hactive] at hcheckers
  refine (Program.always_perform_bind _ _).mpr ⟨trivial, fun (reports : List CheckerReport) s₇ h₇ => ?_, fun e _ _ _ h => by cases h⟩
  obtain ⟨t₇, hmean₇, hread⟩ := h₇
  have ht₇ := ht₆.meanwhile hmean₇
  obtain ⟨rfl, hreports⟩ := getReportsFor_ok hread
  have hsome : checkers ≠ [] := by
    refine List.ne_nil_of_mem ((hcheckers report.checkerId).mpr ⟨report, hreport₆, row, ?_, ?_, rfl⟩)
    · exact List.mem_singleton_self _
    · rw [hreportId, hrowId]
  have hall : (checkers.all fun c => reportByChecker reports c = some "PASS") = true := by
    rw [List.all_eq_true]
    intro c hc
    obtain ⟨r, hr, row', hrow', hid, hchecker⟩ := (hcheckers c).mp hc
    rw [List.mem_singleton.mp hrow', hrowId] at hid
    have hpass : ∀ r ∈ reports, r.verdict = "PASS" := by
      intro r hr
      obtain ⟨hstored, hstoredId⟩ := (hreports r).mp hr
      exact ht₇.reports r hstored hstoredId
    simpa using reportByChecker_of_pass hpass
      ⟨r, (hreports r).mpr ⟨ht₆.report_meanwhile hmean₇ hr hid, hid⟩, hchecker⟩
  rw [if_neg hsome, if_pos hall]
  refine (Program.always_perform_bind _ _).mpr ⟨trivial, fun now s₈ h₈ => ?_, fun e _ _ _ h => by cases h⟩
  obtain ⟨t₈, hmean₈, hclock⟩ := h₈
  have ht₈ := ht₇.meanwhile hmean₈
  obtain rfl : s₈ = t₈ := by rcases hclock with h | h <;> exact h.1
  refine (Program.always_ofExcept_bind _ _).mpr ⟨fun v hv => ?_, fun e _ _ h => by cases h⟩
  have hval := construct_eq_ok.mp hv
  refine (Program.always_perform_bind _ _).mpr ⟨trivial, fun u s₉ h₉ => ?_, fun e _ _ _ h => by cases h⟩
  obtain ⟨t₉, hmean₉, hsave⟩ := h₉
  have ht₉ := ht₈.meanwhile hmean₉
  have hsound : s₉.Sound := ht₉.sound.step hsave
  rcases hsave with htx | ⟨-, m, hm⟩
  swap
  · cases hm
  obtain ⟨-, rfl⟩ := insertVerdict_ok (Transaction.ok htx)
  rintro r hr
  cases hr
  refine ⟨⟨v, rfl⟩, ⟨hsound, ht₉.active, ht₉.unfailed, fun w hw hid => ?_, ht₉.reports, ht₉.status⟩, ?_⟩
  · rcases List.mem_append.mp hw with hw | hw
    · exact ht₉.verdicts w hw hid
    · rw [List.mem_singleton.mp hw]
      exact ⟨by rw [hval], v.property⟩
  · exact ⟨v.val, List.mem_append_right _ (List.mem_singleton_self _), by rw [hval]⟩

/-- The gate allows the target, unless the database fails it. -/
def Allowed (out : Except Exn AuthorizationDecision) : Prop :=
  (∃ d, out = .ok d ∧ d.allowed = true) ∨ ∃ m, out = .error (.operationalError m)

theorem checkSealed_standing (hs : Standing p s) (hsealed : Sealed p s) :
    (checkSealed H p.val.targetId (some p.val.contentHash)).Always (amongOthers H p.val.targetId)
      (fun _ _ => True) (fun out _ => Allowed out) s := by
  refine (Program.always_perform_bind _ _).mpr ⟨trivial, fun frozen s₁ h₁ => ?_, fun e _ h₁ => ?_⟩
  swap
  · obtain ⟨t₁, hmean₁, hread⟩ := h₁
    obtain ⟨-, hanswer | ⟨m, hm⟩⟩ := (hs.meanwhile hmean₁).getActive hread
    · cases hanswer
    · exact .inr ⟨m, congrArg _ (Except.error.inj hm)⟩
  obtain ⟨t₁, hmean₁, hread⟩ := h₁
  have ht₁ := hs.meanwhile hmean₁
  have hsealed₁ := hs.sealed_meanwhile hmean₁ hsealed
  obtain ⟨rfl, hanswer | ⟨m, hm⟩⟩ := ht₁.getActive hread
  swap
  · cases hm
  cases hanswer
  refine (Program.always_perform_bind _ _).mpr ⟨trivial, fun failed s₂ h₂ => ?_, fun e _ h₂ => ?_⟩
  swap
  · obtain ⟨t₂, hmean₂, hread⟩ := h₂
    obtain ⟨-, hanswer | ⟨m, hm⟩⟩ := (ht₁.meanwhile hmean₂).isFailed hread
    · cases hanswer
    · exact .inr ⟨m, congrArg _ (Except.error.inj hm)⟩
  obtain ⟨t₂, hmean₂, hread⟩ := h₂
  have ht₂ := ht₁.meanwhile hmean₂
  have hsealed₂ := ht₁.sealed_meanwhile hmean₂ hsealed₁
  obtain ⟨rfl, hanswer | ⟨m, hm⟩⟩ := ht₂.isFailed hread
  swap
  · cases hm
  cases hanswer
  refine (Program.always_perform_bind _ _).mpr ⟨trivial, fun verdict s₃ h₃ => ?_, fun e _ h₃ => ?_⟩
  swap
  · obtain ⟨t₃, hmean₃, hread⟩ := h₃
    have hsealed₃ := ht₂.sealed_meanwhile hmean₃ hsealed₂
    obtain ⟨-, ⟨v, hanswer, -⟩ | ⟨m, hm⟩⟩ := (ht₂.meanwhile hmean₃).getSealed hsealed₃ hread
    · cases hanswer
    · exact .inr ⟨m, congrArg _ (Except.error.inj hm)⟩
  obtain ⟨t₃, hmean₃, hread⟩ := h₃
  have hsealed₃ := ht₂.sealed_meanwhile hmean₃ hsealed₂
  obtain ⟨rfl, ⟨v, hanswer, hhash⟩ | ⟨m, hm⟩⟩ := (ht₂.meanwhile hmean₃).getSealed hsealed₃ hread
  swap
  · cases hm
  cases hanswer
  have hsame : ((some p.val.contentHash).any (detectScopeChange v.val.contentHash)) = false := by
    simp [detectScopeChange, hhash]
  change Program.Always _ _ _ (if _ then _ else _) _
  rw [if_neg (by rw [hsame]; exact Bool.false_ne_true)]
  exact .inl ⟨_, rfl, rfl⟩

/-- Asked with the hash, the gate allows the target. -/
def LetsThrough (H : Hashing) (targetId hash : String) (s : FpelStore) : Prop :=
  ∀ out s', (checkSealed H targetId (some hash)).Runs (amongOthers H targetId) s out s' → Allowed out

/-- A step elsewhere, or a passing report on the proposal. -/
inductive Passing (p : FrozenProposal H) (s s' : FpelStore) : Prop where
  | elsewhere (h : Elsewhere H p.val.targetId s s')
  | pass (report : CheckerReport) (own : report.frozenProposalId = p.val.frozenProposalId)
      (pass : report.verdict = "PASS") (filed : s.insertReport report = .ok s')

theorem Standing.passing (hs : Standing p s) (h : ReflTransGen (Passing p) s t) : Standing p t := by
  induction h with
  | refl => exact hs
  | tail _ hstep ih =>
    cases hstep with
    | elsewhere h => exact ih.meanwhile (.single h)
    | pass report hown hpass hfiled =>
      have hsound := ih.sound.insertReport hfiled
      rw [insertReport_ok hfiled] at hsound ⊢
      refine ⟨hsound, ih.active, ih.unfailed, ih.verdicts, fun r hr hid => ?_, ih.status⟩
      rcases List.mem_append.mp hr with hr | hr
      · exact ih.reports r hr hid
      · rw [List.mem_singleton.mp hr]
        exact hpass

/-- Frozen by the program, reported on with passes only and sealed, the target is let through. -/
def SealsThrough (targetId : String) (frozen : FpelProgram H (FrozenProposal H)) (hash : String)
    (s : FpelStore) : Prop :=
  ∀ p s₁ s₂ r s₃, frozen.Runs (amongOthers H targetId) s (.ok p) s₁ →
    ReflTransGen (Passing p) s₁ s₂ → Reported p s₂ →
    (Fpel.seal H targetId).Runs (amongOthers H targetId) s₂ (.ok r) s₃ →
    (∃ v, r = .inl v) ∧ LetsThrough H targetId hash s₃

/-- Frozen and sealed at once by the program, the target is let through. -/
def SnapshotsThrough (targetId : String) (snapshot : FpelProgram H (FrozenProposal H × SealedVerdict))
    (hash : String) (s : FpelStore) : Prop :=
  ∀ result s₁, snapshot.Runs (amongOthers H targetId) s (.ok result) s₁ →
    LetsThrough H targetId hash s₁

theorem freeze_sealsThrough (hs : s.Sound)
    (hstatus : s.statusOf targetId ≠ some FPELStatus.terminalFail.value) {content hash : String}
    (hhash : computeContentHash H content = .ok hash) :
    SealsThrough targetId (freeze H targetId content) hash s := by
  intro p s₁ s₂ r s₃ hfreeze hreports hreported hseal
  obtain ⟨rfl, hcontent, hstanding⟩ := hfreeze.always (freeze_standing hs hstatus content) p rfl
  rw [hhash] at hcontent
  cases hcontent
  obtain ⟨hverdict, hstands, hsealed⟩ :=
    hseal.always (seal_standing (hstanding.passing hreports) hreported) r rfl
  exact ⟨hverdict, fun out s' hcheck => hcheck.always (checkSealed_standing hstands hsealed)⟩

theorem snapshot_through (hs : s.Sound) (hnone : s.activeRows targetId = [])
    (hstatus : s.statusOf targetId ≠ some FPELStatus.terminalFail.value) {content hash : String}
    (hhash : computeContentHash H content = .ok hash) :
    SnapshotsThrough targetId (snapshotLegacy H targetId content) hash s := by
  intro result s₁ hsnapshot
  obtain ⟨rfl, hcontent, hstands, hsealed⟩ :=
    hsnapshot.always (snapshot_standing hs hnone hstatus content) result rfl
  rw [hhash] at hcontent
  cases hcontent
  exact fun out s' hcheck => hcheck.always (checkSealed_standing hstands hsealed)

end Operations

section Collisions

theorem computeContentHash_eq_iff (hinjective : Function.Injective H.sha256Hex)
    {content content' hash hash' : String} (h : computeContentHash H content = .ok hash)
    (h' : computeContentHash H content' = .ok hash') :
    hash = hash' ↔ canonicalize H content = canonicalize H content' := by
  obtain ⟨canonical, hcanonical, hdigest⟩ := bind_eq_ok.mp h
  obtain ⟨canonical', hcanonical', hdigest'⟩ := bind_eq_ok.mp h'
  cases hdigest
  cases hdigest'
  rw [hcanonical, hcanonical', hinjective.eq_iff]
  exact ⟨congrArg _, Except.ok.inj⟩

/-- `json.loads` refuses the text. -/
def NotJson (H : Hashing) (content : String) : Prop :=
  ∃ m, H.loads content = .error (.jsonDecodeError m)

theorem canonicalize_notJson {content : String} (h : NotJson H content) :
    canonicalize H content = .ok content := by
  obtain ⟨m, hm⟩ := h
  simp [canonicalize, hm, bind, Except.bind]

/-- Two lists that are equal have equal parts before the first separator and equal parts from it. -/
theorem append_eq_of_separated {α : Type} [DecidableEq α] {c : α} {x y u v : List α} (hx : c ∉ x)
    (hy : c ∉ y) (hu : u = [] ∨ ∃ u', u = c :: u') (hv : v = [] ∨ ∃ v', v = c :: v')
    (h : x ++ u = y ++ v) : x = y ∧ u = v := by
  have htake : ∀ {z w : List α}, c ∉ z → (w = [] ∨ ∃ w', w = c :: w') →
      (z ++ w).takeWhile (· ≠ c) = z := by
    intro z w hz hw
    rw [List.takeWhile_append_of_pos fun a ha => by simpa using ne_of_mem_of_not_mem ha hz]
    rcases hw with rfl | ⟨w', rfl⟩
    · simp
    · simp
  have hxy : x = y := by rw [← htake hx hu, h, htake hy hv]
  subst hxy
  exact ⟨rfl, List.append_cancel_left h⟩

/-- The text after the subject: nothing, or a newline and the description. -/
theorem taskContent_toList (subject : String) (description : Option String) :
    (taskContent none subject description).toList = subject.toList ++
      (if description.getD "" = "" then [] else '\n' :: (description.getD "").toList) := by
  cases description with
  | none => simp [taskContent]
  | some d =>
    by_cases hd : d = ""
    · simp [taskContent, hd]
    · simp [taskContent, hd]

theorem taskContent_eq_iff {subject subject' : String} {description description' : Option String}
    (hsubject : '\n' ∉ subject.toList) (hsubject' : '\n' ∉ subject'.toList) :
    taskContent none subject description = taskContent none subject' description' ↔
      subject = subject' ∧ description.getD "" = description'.getD "" := by
  have hrest : ∀ d : String, (if d = "" then [] else '\n' :: d.toList) = [] ∨
      ∃ rest, (if d = "" then [] else '\n' :: d.toList) = '\n' :: rest := by
    intro d
    by_cases hd : d = ""
    · exact .inl (by simp [hd])
    · exact .inr ⟨d.toList, by simp [hd]⟩
  constructor
  · intro h
    have hlists := congrArg String.toList h
    rw [taskContent_toList, taskContent_toList] at hlists
    obtain ⟨hfirst, hsecond⟩ := append_eq_of_separated hsubject hsubject' (hrest _) (hrest _) hlists
    refine ⟨String.toList_inj.mp hfirst, ?_⟩
    by_cases hd : description.getD "" = ""
    · by_cases hd' : description'.getD "" = ""
      · rw [hd, hd']
      · simp [hd, hd'] at hsecond
    · by_cases hd' : description'.getD "" = ""
      · simp [hd, hd'] at hsecond
      · simp only [hd, hd', if_false, List.cons.injEq, true_and] at hsecond
        exact String.toList_inj.mp hsecond
  · rintro ⟨rfl, hd⟩
    apply String.toList_inj.mp
    rw [taskContent_toList, taskContent_toList, hd]

open TaskBoard in
/-- Two tasks with one plan up to JSON re-serialisation, or without a plan and otherwise alike. -/
def SameContent (H : Hashing) (task task' : OrchestrationTask) : Prop :=
  (∃ plan plan', task.val.planText = some plan ∧ task'.val.planText = some plan' ∧
    canonicalize H plan = canonicalize H plan') ∨
  task.val.planText = none ∧ task'.val.planText = none ∧
    task.val.subject = task'.val.subject ∧ task.val.description = task'.val.description

open TaskBoard in
/-- The hashed texts of two tasks do not pass for one text unless they should: their canonical forms
differ, or both are plans, or they are made of one subject and one description. -/
def ToldApart (H : Hashing) (task task' : OrchestrationTask) : Prop :=
  canonicalize H (taskContent task.val.planText task.val.subject task.val.description) ≠
    canonicalize H (taskContent task'.val.planText task'.val.subject task'.val.description) ∨
  task.val.planText ≠ none ∧ task'.val.planText ≠ none ∨
  task.val.planText = none ∧ task'.val.planText = none ∧
    task.val.subject = task'.val.subject ∧ task.val.description = task'.val.description

open TaskBoard in
theorem sameContent_of_toldApart {task task' : OrchestrationTask} (h : ToldApart H task task')
    (hcanonical :
      canonicalize H (taskContent task.val.planText task.val.subject task.val.description) =
        canonicalize H (taskContent task'.val.planText task'.val.subject task'.val.description)) :
    SameContent H task task' := by
  rcases h with hne | ⟨hplan, hplan'⟩ | halike
  · exact absurd hcanonical hne
  · obtain ⟨plan, hplan⟩ := Option.ne_none_iff_exists'.mp hplan
    obtain ⟨plan', hplan'⟩ := Option.ne_none_iff_exists'.mp hplan'
    rw [hplan, hplan'] at hcanonical
    exact .inl ⟨plan, plan', hplan, hplan', hcanonical⟩
  · exact .inr halike

open TaskBoard in
theorem toldApart_of_sameContent {task task' : OrchestrationTask} (h : SameContent H task task') :
    ToldApart H task task' := by
  rcases h with ⟨plan, plan', hplan, hplan', -⟩ | halike
  · exact .inr (.inl ⟨by simp [hplan], by simp [hplan']⟩)
  · exact .inr (.inr halike)

end Collisions

section Authority

variable {tr : List (fpelSystem H).Event} {cfg : (fpelSystem H).Config}

end Authority

section Plain

open TaskBoard

/-- The library functions as they answer on texts that are not JSON, with an injective digest. -/
def plainHashing : Hashing where
  loads _ := .error (.jsonDecodeError "Expecting value: line 1 column 1 (char 0)")
  dumps _ := .ok "null"
  sha256Hex content := content

private def noted (subject : String) (description planText : Option String)
    (h : OrchestrationTaskFields.postInit { id := "task-1", subject, description, planText } = .ok ()) :
    OrchestrationTask := ⟨_, h⟩

private def plainProposal : FrozenProposal plainHashing :=
  ⟨{ frozenProposalId := "fp-0123456789ab", targetId := "task-1", contentHash := "plan",
     content := "plan" }, rfl⟩

private def plainVerdict : SealedVerdict :=
  ⟨{ frozenProposalId := "fp-0123456789ab", verdict := "SEALED_PASS", sealedAt := 0,
     contentHash := "plan" }, rfl⟩

private def plainReport : CheckerReport := ⟨"fp-0123456789ab", "lint", "PASS", none, 0⟩

private def plainStore (reports : List CheckerReport) (verdicts : List SealedVerdictFields) :
    FpelStore :=
  { frozenProposals := [⟨plainProposal.val, 0⟩], checkerReports := reports,
    sealedVerdicts := verdicts }

private theorem freeze_plain :
    (freezeTask plainHashing "task-1" (some "plan") "subject" none).Runs
      (amongOthers plainHashing "task-1") {} (.ok plainProposal) (plainStore [] []) := by
  have hid : freshProposalId "0123456789abcdef0123456789abcdef" = "fp-0123456789ab" := by decide
  refine .perform_bind ⟨_, .refl, .inl ⟨rfl, [], ⟨.refl _, .nil⟩, rfl⟩⟩ ?_
  refine .ofExcept_bind (b := "plan") rfl ?_
  refine .perform_bind (v := "0123456789abcdef0123456789abcdef") ⟨_, .refl, .inl ⟨rfl, _, rfl⟩⟩ ?_
  refine .ofExcept_bind (b := plainProposal) (construct_eq_ok.mpr ?_) ?_
  · rw [hid]; rfl
  exact .perform_bind ⟨_, .refl, .inl ⟨0, rfl, rfl⟩⟩ ⟨rfl, rfl⟩

private theorem seal_plain :
    (Fpel.seal plainHashing "task-1").Runs (amongOthers plainHashing "task-1")
      (plainStore [plainReport] []) (.ok (.inl plainVerdict))
      (plainStore [plainReport] [plainVerdict.val]) := by
  have hactive : (plainStore [plainReport] []).activeRows "task-1" = [⟨plainProposal.val, 0⟩] := rfl
  have hlatest : Latest (·.createdAt) ((plainStore [plainReport] []).activeRows "task-1")
      (some (⟨plainProposal.val, 0⟩ : ProposalRow)) := by simp [hactive, Latest]
  refine .perform_bind (v := some plainProposal) ⟨_, .refl, .inl ⟨rfl, _, hlatest, ?_⟩⟩ ?_
  · exact (mapM_construct_eq_some.mpr ⟨_, rfl, rfl⟩).symm
  refine .perform_bind (v := false) ⟨_, .refl, .inl ⟨rfl, rfl⟩⟩ ?_
  refine .perform_bind (v := none) ⟨_, .refl, .inl ⟨rfl, rfl⟩⟩ ?_
  refine .perform_bind (v := none) ⟨_, .refl, .inl ⟨rfl, rfl⟩⟩ ?_
  refine .perform_bind (v := some "plan") ⟨_, .refl, .inl ⟨rfl, _, hlatest, rfl⟩⟩ ?_
  refine .perform_bind (v := ["lint"]) ⟨_, .refl, .inl ⟨rfl, ["lint"], rfl, by simp, fun c => ?_⟩⟩ ?_
  · rw [hactive]
    simp [plainStore, plainReport, plainProposal, eq_comm]
  refine .perform_bind (v := [plainReport]) ⟨_, .refl, .inl ⟨rfl, _, rfl, .of_eq rfl⟩⟩ ?_
  refine .perform_bind (v := (0 : Int)) ⟨_, .refl, .inl ⟨rfl, _, rfl⟩⟩ ?_
  refine .ofExcept_bind (b := plainVerdict) (construct_eq_ok.mpr rfl) ?_
  exact .perform_bind ⟨_, .refl, .inl ⟨rfl, rfl⟩⟩ ⟨rfl, rfl⟩

end Plain

end ForkAgent.Fpel

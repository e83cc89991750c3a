import ForkAgent.Effects.Serial
import ForkAgent.Fpel.Supersede

/-!
# Checker reports

A seal reads the checkers of the target and then the reports of the proposal, in two
transactions, and demands a PASS of the checkers it read. A report of any other checker, filed
between the two reads, is in the second list and is not looked at.
-/

namespace ForkAgent.Fpel

open Effects Storage FpelStore

variable {H : Hashing}

/-- Everything that a seal has read when it inserts its verdict. -/
def sealReads (targetId : String) (frozen : FrozenProposal H) (status current : Option String)
    (checkers : List String) (reports : List CheckerReport) (now : Int) :
    List (Answered (fpelSignature H) Exn) :=
  [.ok (.getActiveFrozenProposal targetId) (some frozen),
    .ok (.isFailed frozen.val.frozenProposalId) false,
    .ok (.getSealedVerdict frozen.val.frozenProposalId) none,
    .ok (.getFpelStatus targetId) status,
    .ok (.getCurrentContentHash targetId) current,
    .ok (.getCheckersFor targetId) checkers,
    .ok (.getReportsFor frozen.val.frozenProposalId) reports,
    .ok .utcNow now]

/-- A verdict is inserted on these reads, which have checkers all of whom passed the proposal. -/
def sealGuard (targetId : String) (h : List (Answered (fpelSignature H) Exn)) : FpelCall H → Prop
  | .saveSealedVerdict verdict =>
    ∃ (frozen : FrozenProposal H) (status current : Option String) (checkers : List String)
      (reports : List CheckerReport) (now : Int),
      h = sealReads targetId frozen status current checkers reports now ∧ checkers ≠ [] ∧
      (∀ c ∈ checkers, reportByChecker reports c = some "PASS") ∧
      verdict.val.frozenProposalId = frozen.val.frozenProposalId
  | _ => True

theorem seal_reads (targetId : String) :
    (Fpel.seal H targetId).Ensures (sealGuard targetId) (fun _ _ => True) [] := by
  refine (Program.ensures_perform_bind _ _).mpr ⟨trivial, fun frozen => ?_, fun _ => trivial⟩
  obtain _ | frozen := frozen
  · trivial
  refine (Program.ensures_perform_bind _ _).mpr ⟨trivial, fun failed => ?_, fun _ => trivial⟩
  obtain _ | _ := failed
  swap
  · trivial
  refine (Program.ensures_perform_bind _ _).mpr ⟨trivial, fun existing => ?_, fun _ => trivial⟩
  obtain _ | existing := existing
  swap
  · trivial
  refine (Program.ensures_perform_bind _ _).mpr ⟨trivial, fun status => ?_, fun _ => trivial⟩
  split_ifs
  · trivial
  refine (Program.ensures_perform_bind _ _).mpr ⟨trivial, fun current => ?_, fun _ => trivial⟩
  split_ifs
  · trivial
  refine (Program.ensures_perform_bind _ _).mpr ⟨trivial, fun checkers => ?_, fun _ => trivial⟩
  refine (Program.ensures_perform_bind _ _).mpr ⟨trivial, fun reports => ?_, fun _ => trivial⟩
  split_ifs with hempty hpass
  · trivial
  · refine (Program.ensures_perform_bind _ _).mpr ⟨trivial, fun now => ?_, fun _ => trivial⟩
    refine (Program.ensures_ofExcept_bind _ _).mpr ⟨fun verdict hverdict => ?_, fun _ _ => trivial⟩
    refine (Program.ensures_perform_bind _ _).mpr ⟨?_, fun _ => trivial, fun _ => trivial⟩
    refine ⟨frozen, status, current, checkers, reports, now, rfl, hempty, ?_, ?_⟩
    · intro c hc
      simpa using List.all_eq_true.mp hpass c hc
    · rw [construct_eq_ok.mp hverdict]
  · trivial

/-- The verdict that a seal of the proposal constructs. -/
def sealFields (frozen : FrozenProposal H) (now : Int) : SealedVerdictFields where
  frozenProposalId := frozen.val.frozenProposalId
  verdict := "SEALED_PASS"
  sealedAt := now
  contentHash := frozen.val.contentHash

/-- The part of a seal that follows its reads. -/
def sealOn (frozen : FrozenProposal H) (checkers : List String) (reports : List CheckerReport) :
    FpelProgram H (SealedVerdict ⊕ SealFailureReason) := do
  if checkers = [] then return .inr .missingReports
  else if checkers.all fun c => reportByChecker reports c = some "PASS" then
    let now ← utcNow
    let sealed ← .ofExcept (construct SealedVerdictFields.postInit (sealFields frozen now))
    saveSealedVerdict sealed
    return .inl sealed
  else return .inr .missingReports

theorem sealOn_reads_none (frozen : FrozenProposal H) (checkers : List String)
    (reports : List CheckerReport) (frozenProposalId : String) :
    (sealOn frozen checkers reports).OnlyCalls fun c => c ≠ FpelCall.getReportsFor frozenProposalId := by
  unfold sealOn
  split_ifs
  · trivial
  · refine .bind (.perform nofun) fun now => .bind (.ofExcept _) fun sealed => ?_
    exact .bind (.perform nofun) fun _ => trivial
  · trivial

theorem not_follows_ret {α : Type} {a : α} {h : List (Answered (fpelSignature H) Exn)}
    {b : Answered (fpelSignature H) Exn} {q : FpelProgram H α} :
    ¬ (Program.ret a : FpelProgram H α).Follows (h ++ [b]) q := fun hf =>
  (Program.onlyCalls_ret (A := fun _ => False) a).follows hf b (by simp)

theorem follows_getReportsFor {α : Type} {id id' : String} {f : List CheckerReport → FpelProgram H α}
    {h : List (Answered (fpelSignature H) Exn)} {reports : List CheckerReport} {q : FpelProgram H α}
    (hf : (getReportsFor id' >>= f).Follows (h ++ [.ok (.getReportsFor id) reports]) q)
    (honce : ∀ reports id, (f reports).OnlyCalls fun c => c ≠ FpelCall.getReportsFor id) :
    h = [] ∧ id' = id ∧ q = f reports := by
  cases h with
  | nil =>
    rw [List.nil_append] at hf
    cases hf with
    | cons hrest => exact ⟨rfl, rfl, Program.follows_nil.mp hrest⟩
  | cons a h =>
    rw [List.cons_append] at hf
    cases hf with
    | @cons _ _ r _ _ hrest =>
      cases r with
      | error e =>
        have hnone : (Program.fail e : FpelProgram H α).OnlyCalls fun _ => False := trivial
        exact (hnone.follows hrest (.ok (.getReportsFor id) reports) (by simp)).elim
      | ok others =>
        have hother := (honce others id).follows hrest (.ok (.getReportsFor id) reports) (by simp)
        exact absurd rfl hother

/-- A seal that has just read its reports has read an active proposal and its checkers. -/
theorem follows_seal {targetId frozenProposalId : String} {h : List (Answered (fpelSignature H) Exn)}
    {reports : List CheckerReport} {q : FpelProgram H (SealedVerdict ⊕ SealFailureReason)}
    (hf : (Fpel.seal H targetId).Follows (h ++ [.ok (.getReportsFor frozenProposalId) reports]) q) :
    ∃ (frozen : FrozenProposal H) (checkers : List String),
      frozen.val.frozenProposalId = frozenProposalId ∧
      .ok (.getActiveFrozenProposal targetId) (some frozen) ∈ h ∧
      .ok (.getCheckersFor targetId) checkers ∈ h ∧ q = sealOn frozen checkers reports := by
  obtain ⟨frozen, h₁, rfl, hf₁⟩ := hf.perform_bind nofun
  obtain _ | frozen := frozen
  · exact absurd hf₁ not_follows_ret
  obtain ⟨failed, h₂, rfl, hf₂⟩ := hf₁.perform_bind nofun
  obtain _ | _ := failed
  swap
  · exact absurd hf₂ not_follows_ret
  obtain ⟨existing, h₃, rfl, hf₃⟩ := hf₂.perform_bind nofun
  obtain _ | existing := existing
  swap
  · exact absurd hf₃ not_follows_ret
  obtain ⟨status, h₄, rfl, hf₄⟩ := hf₃.perform_bind nofun
  split_ifs at hf₄
  · exact absurd hf₄ not_follows_ret
  obtain ⟨current, h₅, rfl, hf₅⟩ := hf₄.perform_bind nofun
  split_ifs at hf₅
  · exact absurd hf₅ not_follows_ret
  obtain ⟨checkers, h₆, rfl, hf₆⟩ := hf₅.perform_bind nofun
  have hlast := follows_getReportsFor hf₆ (sealOn_reads_none frozen checkers)
  obtain ⟨rfl, hid, hq⟩ := hlast
  exact ⟨frozen, checkers, hid, by simp, by simp, hq⟩

section Run

variable {tr : List (fpelSystem H).Event} {cfg : (fpelSystem H).Config}

/-- What a seal has to have read for no report to be overlooked: no checkers, or a checker whose
report is missing or not a PASS, or passing reports only; or the proposal has its verdict already. -/
def NotOverlooked (s : FpelStore) (frozenProposalId : String) (checkers : List String)
    (reports : List CheckerReport) : Prop :=
  checkers = [] ∨ (∃ c ∈ checkers, reportByChecker reports c ≠ some "PASS") ∨
    (∀ r ∈ reports, r.verdict = "PASS") ∨
    ∃ v ∈ s.sealedVerdicts, v.frozenProposalId = frozenProposalId

theorem sealFields_postInit (frozen : FrozenProposal H) (now : Int) :
    SealedVerdictFields.postInit (sealFields frozen now) = .ok () := by
  obtain ⟨_, hid, h⟩ := bind_eq_ok.mp frozen.property
  obtain ⟨_, -, h⟩ := bind_eq_ok.mp h
  obtain ⟨_, hhash, -⟩ := bind_eq_ok.mp h
  simp only [require_eq_ok, decide_eq_true_eq] at hid hhash
  simp [SealedVerdictFields.postInit, sealFields, require, hid, hhash, bind, Except.bind, pure,
    Except.pure]

/-- A seal that may insert its verdict goes on to insert it when the database serves it. -/
theorem sealOn_reaches {s : FpelStore} {frozen : FrozenProposal H} {checkers : List String}
    {reports : List CheckerReport} (hempty : checkers ≠ [])
    (hpass : ∀ c ∈ checkers, reportByChecker reports c = some "PASS")
    (hnew : ∀ v ∈ s.sealedVerdicts, v.frozenProposalId ≠ frozen.val.frozenProposalId)
    (hproposal : s.hasProposal frozen.val.frozenProposalId = true) :
    ∃ (sealed : SealedVerdict) (s' : FpelStore), sealed.val = sealFields frozen 0 ∧
      (sealOn frozen checkers reports).Reaches (fpelSystem H).disturbed s
        [.ok .utcNow (0 : Int), .ok (.saveSealedVerdict sealed) ()] (.ret (.inl sealed)) s' := by
  let sealed : SealedVerdict := ⟨sealFields frozen 0, sealFields_postInit frozen 0⟩
  have hconstruct : construct SealedVerdictFields.postInit (sealFields frozen 0) = .ok sealed :=
    construct_eq_ok.mpr rfl
  have hinsert : s.insertVerdict sealed.val =
      .ok { s with sealedVerdicts := s.sealedVerdicts ++ [sealed.val] } := by
    have hconflicts : conflicts (some ·.frozenProposalId) s.sealedVerdicts sealed.val = false := by
      simpa [conflicts, sealed, sealFields] using hnew
    have hthere : s.hasProposal sealed.val.frozenProposalId = true := hproposal
    simp [insertVerdict, hconflicts, hthere]
  refine ⟨sealed, { s with sealedVerdicts := s.sealedVerdicts ++ [sealed.val] }, rfl, ?_⟩
  unfold sealOn
  rw [if_neg hempty, if_pos (by simpa using hpass)]
  refine .call ⟨s, .refl, .inl ⟨rfl, _, rfl⟩⟩ ?_
  change Program.Reaches _ (.ofExcept (construct _ (sealFields frozen 0)) >>= _) _ _ _ _
  rw [hconstruct]
  refine .call ⟨s, .refl, .inl ?_⟩ (.here _ _)
  simp only [serve, Transaction, hinsert]
  exact ⟨rfl, trivial⟩

theorem seal_session (run : (fpelSystem H).Run tr cfg) {pre post : List (fpelSystem H).Event}
    {e : (fpelSystem H).Event} (htr : tr = pre ++ e :: post) {targetId frozenProposalId : String}
    {reports : List CheckerReport} (hop : e.op = .seal targetId)
    (hread : e.answered = .ok (.getReportsFor frozenProposalId) reports) :
    ∃ (frozen : FrozenProposal H) (checkers : List String)
      (ss : Nat → Option (fpelSystem H).Session), frozen.val.frozenProposalId = frozenProposalId ∧
      .ok (.getActiveFrozenProposal targetId) (some frozen) ∈ System.Run.history e.caller pre ∧
      .ok (.getCheckersFor targetId) checkers ∈ System.Run.history e.caller pre ∧
      (fpelSystem H).Run (pre ++ [e]) ⟨e.after, ss⟩ ∧
      ss e.caller = some ⟨.seal targetId, sealOn frozen checkers reports⟩ := by
  obtain ⟨ss, hrun⟩ := run.reaches_after htr
  obtain ⟨i, o, a, before, after⟩ := e
  cases hop
  cases hread
  obtain ⟨p, hp⟩ := hrun.session_of_mem (List.mem_append_right pre (List.mem_singleton_self _))
  have hfollows := hrun.follows hp
  have hhistory : System.Run.history i
      (pre ++ [(⟨i, .seal targetId, .ok (.getReportsFor frozenProposalId) reports, before, after⟩ :
        (fpelSystem H).Event)]) =
      System.Run.history i pre ++ [.ok (.getReportsFor frozenProposalId) reports] := by
    simp [System.Run.history, System.Run.own]
  rw [hhistory] at hfollows
  obtain ⟨frozen, checkers, hid, hactive, hcheckers, rfl⟩ := follows_seal hfollows
  exact ⟨frozen, checkers, ss, hid, hactive, hcheckers, hrun, hp⟩

theorem hasProposal_of_read (run : (fpelSystem H).Run tr cfg) {i : Nat} {targetId : String}
    {frozen : FrozenProposal H}
    (hread : .ok (.getActiveFrozenProposal targetId) (some frozen) ∈ System.Run.history i tr) :
    cfg.store.hasProposal frozen.val.frozenProposalId = true := by
  obtain ⟨d, hd, hanswer⟩ := List.mem_map.mp hread
  have hmem := (System.Run.mem_own.mp hd).1
  have hstep := run.step_of_mem hmem
  rw [hanswer] at hstep
  obtain ⟨hafter, row, hrow, hfields⟩ := getActiveFrozenProposal_ok hstep
  refine ((grows_of_run run).2 d hmem).hasProposal ?_
  rw [hafter]
  refine List.any_eq_true.mpr ⟨row, (mem_activeRows.mp hrow).1, ?_⟩
  simp [← hfields]

/-- A seal that inserts its verdict has not overlooked a report. -/
theorem NotOverlooked.passed {pre later : List (fpelSystem H).Event} {e d : (fpelSystem H).Event}
    {targetId frozenProposalId : String} {checkers : List String} {reports : List CheckerReport}
    (hnot : NotOverlooked e.after frozenProposalId checkers reports)
    (run : (fpelSystem H).Run (pre ++ e :: later) cfg) (hop : e.op = .seal targetId)
    (hread : e.answered = .ok (.getReportsFor frozenProposalId) reports)
    (hcheckers : .ok (.getCheckersFor targetId) checkers ∈ System.Run.history e.caller pre)
    (hd : d ∈ later) (hcaller : d.caller = e.caller) {verdict : SealedVerdict}
    (hinsert : d.answered = .ok (.saveSealedVerdict verdict) ()) :
    ∀ r ∈ reports, r.verdict = "PASS" := by
  obtain ⟨first, last, rfl⟩ := List.append_of_mem hd
  have hsplit : pre ++ e :: (first ++ d :: last) = (pre ++ e :: first) ++ d :: last := by simp
  have hdmem : d ∈ pre ++ e :: (first ++ d :: last) := by simp
  have hdop : d.op = .seal targetId := by rw [← hop, run.op_eq hdmem (by simp) hcaller]
  have hreads : sealGuard targetId (System.Run.history d.caller (pre ++ e :: first))
      d.answered.call := by
    obtain ⟨i, o, a, before, after⟩ := d
    cases hdop
    exact run.ensures_event hsplit (seal_reads targetId)
  rw [hinsert] at hreads
  obtain ⟨frozen, status, current, checkers', reports', now, hhistory, hempty, hpass, hid⟩ := hreads
  have hearlier : ∀ a ∈ System.Run.history e.caller pre,
      a ∈ sealReads targetId frozen status current checkers' reports' now := by
    intro a ha
    rw [← hhistory, hcaller, System.Run.history, System.Run.own_append, List.map_append]
    exact List.mem_append_left _ ha
  have hown : e.answered ∈ sealReads targetId frozen status current checkers' reports' now := by
    rw [← hhistory, hcaller]
    exact List.mem_map_of_mem (System.Run.mem_own.mpr ⟨by simp, rfl⟩)
  rw [hread] at hown
  have hsame := hearlier _ hcheckers
  simp only [sealReads, List.mem_cons, List.not_mem_nil, or_false] at hown hsame
  rcases hown with h | h | h | h | h | h | h | h <;> cases h
  rcases hsame with h | h | h | h | h | h | h | h <;> cases h
  rcases hnot with rfl | ⟨c, hc, hmissing⟩ | hall | ⟨v, hv, hvid⟩
  · exact absurd rfl hempty
  · exact absurd (hpass c hc) hmissing
  · exact hall
  · -- a stored verdict stays, and the insert conflicts with it
    have hordered : [e, d].Sublist (pre ++ e :: (first ++ d :: last)) := by
      refine .trans ?_ (List.sublist_append_right _ _)
      exact .cons_cons _ (List.singleton_sublist.mpr (by simp))
    have hgrow : Grows e.after d.before :=
      List.rel_of_pairwise_cons ((grows_of_run run).1.sublist hordered) (List.mem_singleton_self d)
    have hstep := run.step_of_mem hdmem
    rw [hinsert] at hstep
    rcases hstep with hstep | ⟨-, m, hm⟩
    · have hconflicts := (insertVerdict_ok (Transaction.ok hstep)).1
      have hsome := List.any_eq_false.mp hconflicts v (hgrow.verdicts v hv)
      simp [hid, hvid] at hsome
    · cases hm

/-- Once a seal has read the reports, it goes on to insert its verdict over a report that is not
a PASS in some run, unless one of these holds. -/
theorem no_report_overlooked_iff (run : (fpelSystem H).Run tr cfg)
    {pre post : List (fpelSystem H).Event} {e : (fpelSystem H).Event} (htr : tr = pre ++ e :: post)
    {targetId frozenProposalId : String} {reports : List CheckerReport}
    (hop : e.op = .seal targetId)
    (hread : e.answered = .ok (.getReportsFor frozenProposalId) reports) :
    ∃ checkers, .ok (.getCheckersFor targetId) checkers ∈ System.Run.history e.caller pre ∧
      ((∀ later cfg', (fpelSystem H).Run (pre ++ e :: later) cfg' → ∀ d ∈ later,
          d.caller = e.caller → ∀ verdict, d.answered = .ok (.saveSealedVerdict verdict) () →
            ∀ r ∈ reports, r.verdict = "PASS") ↔
        NotOverlooked e.after frozenProposalId checkers reports) := by
  obtain ⟨frozen, checkers, ss, rfl, hactive, hcheckers, hrun, hs⟩ := seal_session run htr hop hread
  refine ⟨checkers, hcheckers, ?_, ?_⟩
  · intro hpassed
    by_contra hoverlooked
    simp only [NotOverlooked, not_or, not_exists, not_and, not_not] at hoverlooked
    obtain ⟨hempty, hpass, hfailing, hnew⟩ := hoverlooked
    have hactive' : .ok (.getActiveFrozenProposal targetId) (some frozen) ∈
        System.Run.history e.caller (pre ++ [e]) := by
      rw [System.Run.history, System.Run.own_append, List.map_append]
      exact List.mem_append_left _ hactive
    have hproposal := hasProposal_of_read hrun hactive'
    obtain ⟨sealed, s', -, hreaches⟩ := sealOn_reaches hempty hpass hnew hproposal
    obtain ⟨later, hlater, hanswers, hown⟩ := hrun.advance hs hreaches
    obtain ⟨now, rest, rfl, -, hrest⟩ := List.map_eq_cons_iff.mp hanswers
    obtain ⟨d, rest, rfl, hd, -⟩ := List.map_eq_cons_iff.mp hrest
    rw [List.append_assoc, List.singleton_append] at hlater
    exact hfailing (hpassed _ _ hlater d (by simp) (hown d (by simp)).1 sealed hd)
  · intro hnot later cfg' hlater d hd hcaller verdict hinsert
    exact hnot.passed hlater hop hread hcheckers hd hcaller hinsert

private def frozenPlan : FpelStore := { frozenProposals := [⟨planProposal.val, 0⟩] }

private def passReport : CheckerReport := ⟨"fp-0123456789ab", "lint", "PASS", none, 0⟩

private def failReport : CheckerReport := ⟨"fp-0123456789ab", "security", "FAIL", none, 1⟩

private def reportedPlan (reports : List CheckerReport) : FpelStore :=
  { frozenPlan with checkerReports := reports }

private theorem freeze_plan :
    (freeze planHashing "task-1" "plan").Runs (FpelStore.step planHashing) {} (.ok planProposal)
      frozenPlan := by
  have hid : freshProposalId "0123456789abcdef0123456789abcdef" = "fp-0123456789ab" := by decide
  have hash : computeContentHash planHashing "plan" = .ok (planHashing.sha256Hex "plan") := rfl
  refine .perform_bind (.inl ⟨rfl, [], ⟨.refl _, .nil⟩, rfl⟩) ?_
  refine .ofExcept_bind hash ?_
  refine .perform_bind (v := "0123456789abcdef0123456789abcdef") (.inl ⟨rfl, _, rfl⟩) ?_
  refine .ofExcept_bind (b := planProposal) (construct_eq_ok.mpr ?_) ?_
  · rw [hid]; rfl
  exact .perform_bind (.inl ⟨0, rfl, rfl⟩) ⟨rfl, rfl⟩

/-- What a seal of the plan reads before the reports. -/
private def planReads (checkers : List String) : List (Answered (fpelSignature planHashing) Exn) :=
  [.ok (.getActiveFrozenProposal "task-1") (some planProposal),
    .ok (.isFailed "fp-0123456789ab") false, .ok (.getSealedVerdict "fp-0123456789ab") none,
    .ok (.getFpelStatus "task-1") none,
    .ok (.getCurrentContentHash "task-1") (some (planHashing.sha256Hex "plan")),
    .ok (.getCheckersFor "task-1") checkers]

private theorem eq_of_mem_planReads {checkers checkers' : List String}
    (h : .ok (.getCheckersFor "task-1") checkers' ∈ planReads checkers) : checkers' = checkers := by
  simp only [planReads, List.mem_cons, List.not_mem_nil, or_false] at h
  rcases h with h | h | h | h | h | h <;> cases h
  rfl

/-- The failing report is filed before the reports are read, but perhaps after the checkers are. -/
private theorem seal_plan {filed : List CheckerReport} {checkers : List String}
    (hchecked : checkers.Nodup ∧ ∀ c, c ∈ checkers ↔ ∃ r ∈ filed,
      r.frozenProposalId = "fp-0123456789ab" ∧ r.checkerId = c)
    (hfiled : Relation.ReflTransGen (fpelSystem planHashing).outside (reportedPlan filed)
      (reportedPlan [passReport, failReport])) :
    (Fpel.seal planHashing "task-1").Reaches (fpelSystem planHashing).disturbed
      (reportedPlan filed)
      (planReads checkers ++ [.ok (.getReportsFor "fp-0123456789ab") [passReport, failReport]])
      (sealOn planProposal checkers [passReport, failReport])
      (reportedPlan [passReport, failReport]) := by
  have hactive : (reportedPlan filed).activeRows "task-1" = [⟨planProposal.val, 0⟩] := rfl
  have hlatest : Latest (·.createdAt) ((reportedPlan filed).activeRows "task-1")
      (some (⟨planProposal.val, 0⟩ : ProposalRow)) := by simp [hactive, Latest]
  refine .call ⟨_, .refl, .inl ⟨rfl, _, hlatest, ?_⟩⟩ ?_
  · exact (mapM_construct_eq_some.mpr ⟨_, rfl, rfl⟩).symm
  refine .call ⟨_, .refl, .inl ⟨rfl, rfl⟩⟩ (.call ⟨_, .refl, .inl ⟨rfl, rfl⟩⟩ ?_)
  refine .call ⟨_, .refl, .inl ⟨rfl, rfl⟩⟩ (.call ⟨_, .refl, .inl ⟨rfl, _, hlatest, rfl⟩⟩ ?_)
  refine .call ⟨_, .refl, .inl ⟨rfl, checkers, rfl, hchecked.1, fun c => ?_⟩⟩ ?_
  · rw [hactive, show (reportedPlan filed).checkerReports = filed from rfl, hchecked.2 c]
    simp [planProposal]
  exact .call ⟨_, hfiled, .inl ⟨rfl, _, rfl, .of_eq rfl⟩⟩ (.here _ _)

/-- The plan is frozen and reported on, and a seal reads the reports. -/
private theorem read_run {filed : List CheckerReport} {checkers : List String}
    (hbefore : Relation.ReflTransGen (fpelSystem planHashing).outside frozenPlan
      (reportedPlan filed))
    (hchecked : checkers.Nodup ∧ ∀ c, c ∈ checkers ↔ ∃ r ∈ filed,
      r.frozenProposalId = "fp-0123456789ab" ∧ r.checkerId = c)
    (hfiled : Relation.ReflTransGen (fpelSystem planHashing).outside (reportedPlan filed)
      (reportedPlan [passReport, failReport])) :
    ∃ (pre : List (fpelSystem planHashing).Event) (e : (fpelSystem planHashing).Event)
      (ss : Nat → Option (fpelSystem planHashing).Session),
      (fpelSystem planHashing).Run (pre ++ [e]) ⟨reportedPlan [passReport, failReport], ss⟩ ∧
      ss e.caller = some ⟨.seal "task-1", sealOn planProposal checkers [passReport, failReport]⟩ ∧
      e.op = .seal "task-1" ∧
      e.answered = .ok (.getReportsFor "fp-0123456789ab") [passReport, failReport] ∧
      System.Run.history e.caller pre = planReads checkers := by
  have hinitial : (fpelSystem planHashing).Run [] ⟨{}, fun _ => none⟩ := .initial rfl
  obtain ⟨tr, hfrozen⟩ := hinitial.perform (i := 0) (o := .freeze "task-1" "plan") rfl freeze_plan
  have hreported := hfrozen.disturb hbefore
  have hfresh := System.Run.own_eq_nil hreported (i := 1) rfl
  obtain ⟨late, hrun, hanswers, hown⟩ := (hreported.invoke 1 rfl (.seal "task-1")).advance
    (Function.update_self ..) (seal_plan hchecked hfiled)
  obtain ⟨reads, last, rfl, hreads, hlast⟩ := List.map_eq_append_iff.mp hanswers
  obtain ⟨e, rest, rfl, he, hrest⟩ := List.map_eq_cons_iff.mp hlast
  obtain rfl := List.map_eq_nil_iff.mp hrest
  obtain ⟨hcaller, hop⟩ := hown e (by simp)
  rw [List.nil_append] at hfresh
  refine ⟨tr ++ reads, e, _, by simpa using hrun, ?_, hop, he, ?_⟩
  · rw [hcaller]
    exact Function.update_self ..
  · have hall : System.Run.own 1 reads = reads :=
      List.filter_eq_self.mpr fun d hd => by simpa using (hown d (by simp [hd])).1
    rw [hcaller, System.Run.history, System.Run.own_append, hfresh, hall, List.nil_append, hreads]

private theorem checked_lint : ["lint"].Nodup ∧ ∀ c, c ∈ ["lint"] ↔ ∃ r ∈ [passReport],
    r.frozenProposalId = "fp-0123456789ab" ∧ r.checkerId = c :=
  ⟨by simp, by simp [passReport, eq_comm]⟩

private theorem checked_both : ["lint", "security"].Nodup ∧
    ∀ c, c ∈ ["lint", "security"] ↔ ∃ r ∈ [passReport, failReport],
      r.frozenProposalId = "fp-0123456789ab" ∧ r.checkerId = c :=
  ⟨by simp, by simp [passReport, failReport, eq_comm]⟩

private theorem filed_pass :
    (fpelSystem planHashing).outside frozenPlan (reportedPlan [passReport]) := ⟨passReport, rfl⟩

private theorem filed_fail :
    (fpelSystem planHashing).outside (reportedPlan [passReport])
      (reportedPlan [passReport, failReport]) := ⟨failReport, rfl⟩

/-- The claim that no other report is overlooked fails. -/
theorem fail_report_overlooked :
    ¬ ∀ (tr pre post : List (fpelSystem planHashing).Event) (e : (fpelSystem planHashing).Event)
      (cfg : (fpelSystem planHashing).Config) (verdict : SealedVerdict)
      (reports : List CheckerReport), (fpelSystem planHashing).Run tr cfg → tr = pre ++ e :: post →
      e.answered = .ok (.saveSealedVerdict verdict) () →
      .ok (.getReportsFor verdict.val.frozenProposalId) reports ∈
        System.Run.history e.caller pre →
      ∀ r ∈ reports, r.verdict = "PASS" := by
  intro h
  obtain ⟨pre, e, ss, hrun, hs, hop, hread, -⟩ :=
    read_run (.single filed_pass) checked_lint (.single filed_fail)
  have hpassed : ∀ c ∈ ["lint"], reportByChecker [passReport, failReport] c = some "PASS" := by decide
  have hproposal : (reportedPlan [passReport, failReport]).hasProposal
      planProposal.val.frozenProposalId = true := rfl
  obtain ⟨sealed, s', hsealed, hreaches⟩ := sealOn_reaches (by simp) hpassed
    (by simp [reportedPlan, frozenPlan]) hproposal
  obtain ⟨late, hlate, hanswers, hown⟩ := hrun.advance hs hreaches
  obtain ⟨now, rest, rfl, -, hrest⟩ := List.map_eq_cons_iff.mp hanswers
  obtain ⟨d, rest, rfl, hd, hnil⟩ := List.map_eq_cons_iff.mp hrest
  obtain rfl := List.map_eq_nil_iff.mp hnil
  have hid : sealed.val.frozenProposalId = "fp-0123456789ab" := by rw [hsealed]; rfl
  have hpass := h _ (pre ++ [e] ++ [now]) [] d _ sealed [passReport, failReport] hlate (by simp) hd
    ?_ failReport (by simp)
  · exact absurd hpass (by decide)
  · rw [hid, ← hread, (hown d (by simp)).1]
    exact List.mem_map_of_mem (System.Run.mem_own.mpr ⟨by simp, rfl⟩)

/-- A failing checker that is listed blocks the verdict, one that is not listed does not. -/
theorem no_report_overlooked_iff_plan :
    (∃ (pre : List (fpelSystem planHashing).Event) (e : (fpelSystem planHashing).Event)
      (cfg : (fpelSystem planHashing).Config), (fpelSystem planHashing).Run (pre ++ [e]) cfg ∧
      e.answered = .ok (.getReportsFor "fp-0123456789ab") [passReport, failReport] ∧
      ∀ later cfg', (fpelSystem planHashing).Run (pre ++ e :: later) cfg' → ∀ d ∈ later,
        d.caller = e.caller → ∀ verdict, d.answered ≠ .ok (.saveSealedVerdict verdict) ()) ∧
    ∃ (pre later : List (fpelSystem planHashing).Event) (e d : (fpelSystem planHashing).Event)
      (cfg : (fpelSystem planHashing).Config) (verdict : SealedVerdict),
      (fpelSystem planHashing).Run (pre ++ e :: later) cfg ∧
      e.answered = .ok (.getReportsFor "fp-0123456789ab") [passReport, failReport] ∧
      d ∈ later ∧ d.caller = e.caller ∧ d.answered = .ok (.saveSealedVerdict verdict) () := by
  constructor
  · obtain ⟨pre, e, ss, hrun, -, hop, hread, hhistory⟩ :=
      read_run (.tail (.single filed_pass) filed_fail) checked_both .refl
    obtain ⟨checkers, hcheckers, hiff⟩ := no_report_overlooked_iff hrun rfl hop hread
    rw [hhistory] at hcheckers
    obtain rfl := eq_of_mem_planReads hcheckers
    have hmissing : NotOverlooked e.after "fp-0123456789ab" ["lint", "security"]
        [passReport, failReport] := .inr (.inl ⟨"security", by decide, by decide⟩)
    refine ⟨pre, e, _, hrun, hread, fun later cfg' hlater d hd hcaller verdict hinsert => ?_⟩
    have hpass := hiff.mpr hmissing later cfg' hlater d hd hcaller verdict hinsert
    exact absurd (hpass failReport (by simp)) (by decide)
  · obtain ⟨pre, e, ss, hrun, -, hop, hread, hhistory⟩ :=
      read_run (.single filed_pass) checked_lint (.single filed_fail)
    obtain ⟨checkers, hcheckers, hiff⟩ := no_report_overlooked_iff hrun rfl hop hread
    rw [hhistory] at hcheckers
    obtain rfl := eq_of_mem_planReads hcheckers
    have hoverlooked : ¬ NotOverlooked e.after "fp-0123456789ab" ["lint"]
        [passReport, failReport] := by
      rintro (h | ⟨c, hc, h⟩ | h | ⟨v, hv, -⟩)
      · cases h
      · rw [List.mem_singleton.mp hc] at h
        exact h (by decide)
      · exact absurd (h failReport (by simp)) (by decide)
      · cases ((grows_of_run hrun).2 e (by simp)).verdicts v hv
    by_contra hnone
    refine hoverlooked (hiff.mp fun later cfg' hlater d hd hcaller verdict hinsert => ?_)
    exact absurd ⟨pre, later, e, d, cfg', verdict, hlater, hread, hd, hcaller, hinsert⟩ hnone

end Run

end ForkAgent.Fpel

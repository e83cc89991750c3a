import ForkAgent.Fpel.Authorization
import ForkAgent.Fpel.Store

/-!
# FPEL system

Every operation of the service, run by any number of callers against one store. Checker reports
come from outside. The guard says what an operation has read when it inserts a verdict.
-/

namespace ForkAgent.Fpel

open Effects

inductive FpelOp where
  | checkSealed (targetId : String) (currentHash : Option String)
  | markFail (targetId : String) (reason : Option String)
  | freeze (targetId content : String)
  | freezeTask (targetId : String) (planText : Option String) (subject : String)
      (description : Option String)
  | freezePlan (targetId : String) (tasks : List PlanTask)
  | check (targetId : String)
  | seal (targetId : String)
  | evaluateLegacy (targetId : String) (approvedContentHash currentContentHash : Option String)
      (isRunning : Bool) (action : Option String)
  | snapshotLegacy (targetId content : String)
  | snapshotLegacyTask (targetId : String) (planText : Option String) (subject : String)
      (description : Option String)
  | snapshotLegacyPlan (targetId : String) (tasks : List PlanTask)

namespace FpelOp

variable (H : Hashing)

def Result : FpelOp → Type
  | .checkSealed .. | .check _ | .evaluateLegacy .. => AuthorizationDecision
  | .markFail .. | .freeze .. | .freezeTask .. | .freezePlan .. => FrozenProposal H
  | .seal _ => SealedVerdict ⊕ SealFailureReason
  | .snapshotLegacy .. | .snapshotLegacyTask .. | .snapshotLegacyPlan .. =>
    FrozenProposal H × SealedVerdict

def program : (o : FpelOp) → FpelProgram H (o.Result H)
  | .checkSealed targetId currentHash => Fpel.checkSealed H targetId currentHash
  | .markFail targetId reason => Fpel.markFail H targetId reason
  | .freeze targetId content => Fpel.freeze H targetId content
  | .freezeTask targetId planText subject description =>
    Fpel.freezeTask H targetId planText subject description
  | .freezePlan targetId tasks => Fpel.freezePlan H targetId tasks
  | .check targetId => Fpel.check H targetId
  | .seal targetId => Fpel.seal H targetId
  | .evaluateLegacy targetId approved current isRunning action =>
    Fpel.evaluateLegacy H targetId approved current isRunning action
  | .snapshotLegacy targetId content => Fpel.snapshotLegacy H targetId content
  | .snapshotLegacyTask targetId planText subject description =>
    Fpel.snapshotLegacyTask H targetId planText subject description
  | .snapshotLegacyPlan targetId tasks => Fpel.snapshotLegacyPlan H targetId tasks

/-- The content that a legacy snapshot freezes and seals. -/
def legacyContent : FpelOp → Option (Except Exn String)
  | .snapshotLegacy _ content => some (.ok content)
  | .snapshotLegacyTask _ planText subject description =>
    some (.ok (taskContent planText subject description))
  | .snapshotLegacyPlan _ tasks => some (planContent H tasks)
  | _ => none

end FpelOp

/-- The service under any number of callers, with reports inserted from outside. -/
def fpelSystem (H : Hashing) : System (fpelSignature H) Exn FpelStore where
  Op := FpelOp
  Result := FpelOp.Result H
  program := FpelOp.program H
  step := FpelStore.step H
  outside s s' := ∃ report, s.insertReport report = .ok s'
  initial s := s = {}

section Guard

variable {H : Hashing}

/-- What the calls answered so far say when an operation inserts a verdict. -/
def verdictGuard (o : FpelOp) (h : List (Answered (fpelSignature H) Exn)) : FpelCall H → Prop
  | .saveSealedVerdict verdict =>
    ∃ targetId, o = .seal targetId ∧ ∃ (frozen : FrozenProposal H) (checkers : List String)
      (reports : List CheckerReport),
      List.Sublist [.ok (.getActiveFrozenProposal targetId) (some frozen),
        .ok (.getCheckersFor targetId) checkers,
        .ok (.getReportsFor frozen.val.frozenProposalId) reports] h ∧
      checkers ≠ [] ∧ (∀ c ∈ checkers, reportByChecker reports c = some "PASS") ∧
      verdict.val.frozenProposalId = frozen.val.frozenProposalId ∧
      verdict.val.contentHash = frozen.val.contentHash
  | .saveFrozenWithSealedVerdict proposal verdict _ =>
    o.legacyContent H = some (.ok proposal.val.content) ∧
      verdict.val.frozenProposalId = proposal.val.frozenProposalId ∧
      verdict.val.contentHash = proposal.val.contentHash
  | _ => True

theorem seal_guarded (targetId : String) :
    (Fpel.seal H targetId).Ensures (verdictGuard (.seal targetId)) (fun _ _ => True) [] := by
  refine (Program.ensures_perform_bind _ _).mpr ⟨trivial, fun frozen => ?_, fun _ => trivial⟩
  obtain _ | frozen := frozen
  · trivial
  refine (Program.ensures_perform_bind _ _).mpr ⟨trivial, fun failed => ?_, fun _ => trivial⟩
  obtain _ | _ := failed
  swap
  · trivial
  refine (Program.ensures_perform_bind _ _).mpr ⟨trivial, fun existing => ?_, fun _ => trivial⟩
  obtain _ | existing := existing
  swap
  · trivial
  refine (Program.ensures_perform_bind _ _).mpr ⟨trivial, fun status => ?_, fun _ => trivial⟩
  split_ifs
  · trivial
  refine (Program.ensures_perform_bind _ _).mpr ⟨trivial, fun current => ?_, fun _ => trivial⟩
  split_ifs
  · trivial
  refine (Program.ensures_perform_bind _ _).mpr ⟨trivial, fun checkers => ?_, fun _ => trivial⟩
  refine (Program.ensures_perform_bind _ _).mpr ⟨trivial, fun reports => ?_, fun _ => trivial⟩
  split_ifs with hempty hpass
  · trivial
  · refine (Program.ensures_perform_bind _ _).mpr ⟨trivial, fun now => ?_, fun _ => trivial⟩
    refine (Program.ensures_ofExcept_bind _ _).mpr ⟨fun verdict hverdict => ?_, fun _ _ => trivial⟩
    have hval := construct_eq_ok.mp hverdict
    refine (Program.ensures_perform_bind _ _).mpr ⟨?_, fun _ => trivial, fun _ => trivial⟩
    refine ⟨targetId, rfl, frozen, checkers, reports, ?_, hempty, ?_, ?_, ?_⟩
    · exact .cons_cons _ (.cons _ (.cons _ (.cons _ (.cons _ (.cons_cons _ (.cons_cons _ (.cons _ .slnil)))))))
    · intro c hc
      simpa using List.all_eq_true.mp hpass c hc
    · rw [hval]
    · rw [hval]
  · trivial

/-- The two calls that insert a verdict. -/
def insertsVerdict : FpelCall H → Bool
  | .saveSealedVerdict _ | .saveFrozenWithSealedVerdict .. => true
  | _ => false

/-- The three calls that insert a proposal or a verdict. -/
def savesRow : FpelCall H → Bool
  | .saveFrozenProposal .. | .saveSealedVerdict _ | .saveFrozenWithSealedVerdict .. => true
  | _ => false

theorem insertsVerdict_of_savesRow (c : FpelCall H) (h : savesRow c = false) :
    insertsVerdict c = false := by
  cases c <;> simp_all [savesRow, insertsVerdict]

theorem guarded_of_onlyCalls (o : FpelOp) {α : Type} {p : FpelProgram H α}
    (hp : p.OnlyCalls fun c => insertsVerdict c = false) (h : List (Answered (fpelSignature H) Exn)) :
    p.Ensures (verdictGuard o) (fun _ _ => True) h := by
  refine hp.ensures (fun h c hc => ?_) fun _ _ => trivial
  cases c with
  | saveSealedVerdict _ => cases hc
  | saveFrozenWithSealedVerdict _ _ _ => cases hc
  | _ => trivial

theorem guarded_of_saves_none (o : FpelOp) {α : Type} {p : FpelProgram H α}
    (hp : p.OnlyCalls fun c => savesRow c = false) (h : List (Answered (fpelSignature H) Exn)) :
    p.Ensures (verdictGuard o) (fun _ _ => True) h :=
  guarded_of_onlyCalls o (hp.mono insertsVerdict_of_savesRow) h

theorem checkSealed_saves_none (targetId : String) (currentHash : Option String) :
    (Fpel.checkSealed H targetId currentHash).OnlyCalls fun c => savesRow c = false := by
  refine .bind (.perform rfl) fun frozen => ?_
  obtain _ | frozen := frozen
  · trivial
  refine .bind (.perform rfl) fun failed => ?_
  split_ifs
  · trivial
  refine .bind (.perform rfl) fun verdict => ?_
  obtain _ | verdict := verdict
  · exact .bind (.perform rfl) fun candidate => trivial
  refine .bind ?_ fun hash => ?_
  · cases currentHash with
    | none => exact .perform rfl
    | some hash => trivial
  · split_ifs <;> trivial

theorem freeze_inserts_none (targetId content : String) :
    (Fpel.freeze H targetId content).OnlyCalls fun c => insertsVerdict c = false := by
  refine .bind (.perform rfl) fun existing => ?_
  refine .bind (.ofExcept _) fun contentHash => ?_
  refine .bind (.perform rfl) fun hex => ?_
  refine .bind (.ofExcept _) fun proposal => ?_
  exact .bind (.perform rfl) fun _ => trivial

theorem markFail_saves_none (targetId : String) (reason : Option String) :
    (Fpel.markFail H targetId reason).OnlyCalls fun c => savesRow c = false := by
  refine .bind (.perform rfl) fun frozen => ?_
  obtain _ | frozen := frozen
  · trivial
  exact .bind (.perform rfl) fun _ => trivial

theorem check_saves_none (targetId : String) :
    (Fpel.check H targetId).OnlyCalls fun c => savesRow c = false := by
  refine .bind (.perform rfl) fun status => ?_
  split_ifs
  · exact .bind (.perform rfl) fun _ => trivial
  refine .bind (.perform rfl) fun frozen => ?_
  obtain _ | frozen := frozen
  · trivial
  refine .bind (.perform rfl) fun checkers => ?_
  refine .bind (.perform rfl) fun reports => ?_
  split_ifs <;> trivial

theorem evaluateLegacy_saves_none (targetId : String) (approved current : Option String)
    (isRunning : Bool) (action : Option String) :
    (Fpel.evaluateLegacy H targetId approved current isRunning action).OnlyCalls
      fun c => savesRow c = false := by
  unfold Fpel.evaluateLegacy
  split_ifs
  · trivial
  · trivial
  · trivial
  · exact .bind (.perform rfl) fun _ => trivial

theorem snapshotLegacy_guarded {o : FpelOp} {content : String}
    (ho : o.legacyContent H = some (.ok content)) (targetId : String)
    (h : List (Answered (fpelSignature H) Exn)) :
    (Fpel.snapshotLegacy H targetId content).Ensures (verdictGuard o) (fun _ _ => True) h := by
  refine (Program.ensures_ofExcept_bind _ _).mpr ⟨fun contentHash hhash => ?_, fun _ _ => trivial⟩
  refine (Program.ensures_perform_bind _ _).mpr ⟨trivial, fun frozen => ?_, fun _ => trivial⟩
  obtain _ | frozen := frozen
  · refine (Program.ensures_perform_bind _ _).mpr ⟨trivial, fun existing => ?_, fun _ => trivial⟩
    refine (Program.ensures_perform_bind _ _).mpr ⟨trivial, fun hex => ?_, fun _ => trivial⟩
    refine (Program.ensures_ofExcept_bind _ _).mpr ⟨fun proposal hproposal => ?_, fun _ _ => trivial⟩
    refine (Program.ensures_perform_bind _ _).mpr ⟨trivial, fun now => ?_, fun _ => trivial⟩
    refine (Program.ensures_ofExcept_bind _ _).mpr ⟨fun verdict hverdict => ?_, fun _ _ => trivial⟩
    refine (Program.ensures_perform_bind _ _).mpr ⟨?_, fun _ => trivial, fun _ => trivial⟩
    have hp := construct_eq_ok.mp hproposal
    have hv := construct_eq_ok.mp hverdict
    refine ⟨?_, ?_, ?_⟩
    · rw [hp]; exact ho
    · rw [hp, hv]
    · rw [hp, hv]
  · refine guarded_of_onlyCalls o ?_ _
    refine .bind (.perform rfl) fun failed => ?_
    split_ifs
    · trivial
    refine .bind (.perform rfl) fun verdict => ?_
    obtain _ | verdict := verdict <;> trivial

theorem program_guarded (o : FpelOp) :
    (o.program H).Ensures (verdictGuard o) (fun _ _ => True) [] := by
  cases o with
  | checkSealed targetId currentHash =>
    exact guarded_of_saves_none _ (checkSealed_saves_none targetId currentHash) _
  | markFail targetId reason => exact guarded_of_saves_none _ (markFail_saves_none targetId reason) _
  | freeze targetId content => exact guarded_of_onlyCalls _ (freeze_inserts_none targetId content) _
  | freezeTask targetId planText subject description =>
    exact guarded_of_onlyCalls _ (freeze_inserts_none targetId _) _
  | freezePlan targetId tasks =>
    exact guarded_of_onlyCalls _ (.bind (.ofExcept _) fun c => freeze_inserts_none targetId c) _
  | check targetId => exact guarded_of_saves_none _ (check_saves_none targetId) _
  | «seal» targetId => exact seal_guarded targetId
  | evaluateLegacy targetId approved current isRunning action =>
    exact guarded_of_saves_none _
      (evaluateLegacy_saves_none targetId approved current isRunning action) _
  | snapshotLegacy targetId content => exact snapshotLegacy_guarded rfl targetId _
  | snapshotLegacyTask targetId planText subject description =>
    exact snapshotLegacy_guarded rfl targetId _
  | snapshotLegacyPlan targetId tasks =>
    refine (Program.ensures_ofExcept_bind _ _).mpr ⟨fun c hc => ?_, fun _ _ => trivial⟩
    exact snapshotLegacy_guarded (by rw [FpelOp.legacyContent, hc]) targetId _

end Guard

end ForkAgent.Fpel

import ForkAgent.Effects.Interleaving
import ForkAgent.Fpel.Entity
import ForkAgent.Storage.Table

/-!
# FPEL repository

Every method of the repository is one transaction, so each is one atomic call. The tables keep
raw rows; reading a proposal or a verdict goes through the constructor of its entity.
-/

namespace ForkAgent.Fpel

open Effects Storage

/-- A row of `frozen_proposals`. -/
structure ProposalRow extends FrozenProposalFields where
  createdAt : Nat

/-- The five FPEL tables. -/
structure FpelStore where
  frozenProposals : List ProposalRow := []
  sealedVerdicts : List SealedVerdictFields := []
  fpelStatus : List (String × String) := []
  checkerReports : List CheckerReport := []
  fpelProposalFailures : List (String × Option String) := []

namespace FpelStore

/-- Primary key of `frozen_proposals`. -/
def proposalId (r : ProposalRow) : Option String := some r.frozenProposalId

/-- `idx_one_active_proposal_per_target`. -/
def activeTarget (r : ProposalRow) : Option String :=
  if r.lifecycle = .active then some r.targetId else none

/-- `UNIQUE (frozen_proposal_id, checker_id)`. -/
def reportKey (r : CheckerReport) : Option (String × String) :=
  some (r.frozenProposalId, r.checkerId)

def activeRows (s : FpelStore) (targetId : String) : List ProposalRow :=
  s.frozenProposals.filter fun r => activeTarget r == some targetId

def hasProposal (s : FpelStore) (frozenProposalId : String) : Bool :=
  s.frozenProposals.any fun r => r.frozenProposalId == frozenProposalId

def failed (s : FpelStore) (frozenProposalId : String) : Bool :=
  s.fpelProposalFailures.any fun f => f.1 == frozenProposalId

/-- `UPDATE frozen_proposals SET lifecycle = 'SUPERSEDED' WHERE frozen_proposal_id IN (...)`. -/
def supersede (s : FpelStore) (ids : List String) : FpelStore :=
  { s with
    frozenProposals := updateWhere (fun r => r.frozenProposalId ∈ ids)
      (fun r => { r with lifecycle := .superseded }) s.frozenProposals }

def insertProposal (s : FpelStore) (row : ProposalRow) : Except Exn FpelStore :=
  if conflicts proposalId s.frozenProposals row then
    .error (.integrityError "UNIQUE constraint failed: frozen_proposals.frozen_proposal_id")
  else if conflicts activeTarget s.frozenProposals row then
    .error (.integrityError "UNIQUE constraint failed: frozen_proposals.target_id")
  else .ok { s with frozenProposals := s.frozenProposals ++ [row] }

def insertVerdict (s : FpelStore) (v : SealedVerdictFields) : Except Exn FpelStore :=
  if conflicts (some ·.frozenProposalId) s.sealedVerdicts v then
    .error (.integrityError "UNIQUE constraint failed: sealed_verdicts.frozen_proposal_id")
  else if !s.hasProposal v.frozenProposalId then
    .error (.integrityError "FOREIGN KEY constraint failed")
  else .ok { s with sealedVerdicts := s.sealedVerdicts ++ [v] }

def insertReport (s : FpelStore) (r : CheckerReport) : Except Exn FpelStore :=
  if conflicts reportKey s.checkerReports r then
    .error (.integrityError ("UNIQUE constraint failed: " ++
      "fpel_checker_reports.frozen_proposal_id, fpel_checker_reports.checker_id"))
  else if !s.hasProposal r.frozenProposalId then
    .error (.integrityError "FOREIGN KEY constraint failed")
  else .ok { s with checkerReports := s.checkerReports ++ [r] }

/-- `INSERT OR IGNORE`: a marker that exists stays, with its reason. -/
def insertFailure (s : FpelStore) (frozenProposalId : String) (reason : Option String) :
    Except Exn FpelStore :=
  if s.failed frozenProposalId then .ok s
  else if !s.hasProposal frozenProposalId then
    .error (.integrityError "FOREIGN KEY constraint failed")
  else .ok { s with fpelProposalFailures := s.fpelProposalFailures ++ [(frozenProposalId, reason)] }

def upsertStatus (s : FpelStore) (targetId status : String) : FpelStore :=
  if s.fpelStatus.any (fun r => r.1 == targetId) then
    let rows := updateWhere (fun r => r.1 == targetId) (fun r => (r.1, status)) s.fpelStatus
    { s with fpelStatus := rows }
  else { s with fpelStatus := s.fpelStatus ++ [(targetId, status)] }

end FpelStore

/-- The repository methods, and the two readings of the outside world the service makes. -/
inductive FpelCall (H : Hashing) where
  | getActiveFrozenProposal (targetId : String)
  | getAllFrozenProposals (targetId : String)
  | saveFrozenProposal (proposal : FrozenProposal H) (supersedeIds : List String)
  | getSealedVerdict (frozenProposalId : String)
  | saveSealedVerdict (verdict : SealedVerdict)
  | getCheckersFor (targetId : String)
  | getReportsFor (frozenProposalId : String)
  | getCandidateVerdict (frozenProposalId : String)
  | getCurrentContentHash (targetId : String)
  | getFpelStatus (targetId : String)
  | saveFpelStatus (targetId status : String)
  | markFailed (frozenProposalId : String) (reason : Option String)
  | isFailed (frozenProposalId : String)
  | saveFrozenWithSealedVerdict (proposal : FrozenProposal H) (verdict : SealedVerdict)
      (supersedeIds : List String)
  | uuid4Hex
  | utcNow

def FpelCall.Value {H : Hashing} : FpelCall H → Type
  | .getActiveFrozenProposal _ => Option (FrozenProposal H)
  | .getAllFrozenProposals _ => List (FrozenProposal H)
  | .getSealedVerdict _ => Option SealedVerdict
  | .getCheckersFor _ => List String
  | .getReportsFor _ => List CheckerReport
  | .getCandidateVerdict _ => Option String
  | .getCurrentContentHash _ => Option String
  | .getFpelStatus _ => Option String
  | .isFailed _ => Bool
  | .uuid4Hex => String
  | .utcNow => Int
  | .saveFrozenProposal .. | .saveSealedVerdict _ | .saveFpelStatus .. | .markFailed .. |
    .saveFrozenWithSealedVerdict .. => Unit

def fpelSignature (H : Hashing) : Signature := ⟨FpelCall H, FpelCall.Value⟩

namespace FpelStore

variable (H : Hashing)

/-- What a call answers and does when the database serves it. -/
def serve : Semantics (fpelSignature H) Exn FpelStore
  | ⟨.getActiveFrozenProposal targetId, r⟩, s, s' =>
    s' = s ∧ ∃ row, Latest (·.createdAt) (s.activeRows targetId) row ∧
      r = row.mapM fun row => construct _ row.toFrozenProposalFields
  | ⟨.getAllFrozenProposals targetId, r⟩, s, s' =>
    s' = s ∧ ∃ rows,
      Ordered (·.createdAt) (s.frozenProposals.filter fun r => r.targetId == targetId) rows ∧
      r = rows.mapM fun row => construct _ row.toFrozenProposalFields
  | ⟨.saveFrozenProposal proposal supersedeIds, r⟩, s, s' =>
    ∃ createdAt, Transaction ((s.supersede supersedeIds).insertProposal ⟨proposal.val, createdAt⟩)
      s r s'
  | ⟨.getSealedVerdict frozenProposalId, r⟩, s, s' =>
    s' = s ∧ r = (s.sealedVerdicts.find? fun v => v.frozenProposalId == frozenProposalId).mapM
      (construct _)
  | ⟨.saveSealedVerdict verdict, r⟩, s, s' => Transaction (s.insertVerdict verdict.val) s r s'
  | ⟨.getCheckersFor targetId, r⟩, s, s' =>
    s' = s ∧ ∃ checkers : List String, r = .ok checkers ∧ checkers.Nodup ∧
      ∀ c, c ∈ checkers ↔ ∃ report ∈ s.checkerReports, ∃ row ∈ s.activeRows targetId,
        report.frozenProposalId = row.frozenProposalId ∧ report.checkerId = c
  | ⟨.getReportsFor frozenProposalId, r⟩, s, s' =>
    s' = s ∧ ∃ reports : List CheckerReport, r = .ok reports ∧
      reports.Perm (s.checkerReports.filter fun r => r.frozenProposalId == frozenProposalId)
  | ⟨.getCandidateVerdict frozenProposalId, r⟩, s, s' =>
    s' = s ∧ ∃ report, Latest (·.createdAt)
        (s.checkerReports.filter fun r => r.frozenProposalId == frozenProposalId) report ∧
      r = .ok (report.map (·.verdict))
  | ⟨.getCurrentContentHash targetId, r⟩, s, s' =>
    s' = s ∧ ∃ row, Latest (·.createdAt) (s.activeRows targetId) row ∧
      r = .ok (row.map (·.contentHash))
  | ⟨.getFpelStatus targetId, r⟩, s, s' =>
    s' = s ∧ r = .ok ((s.fpelStatus.find? fun r => r.1 == targetId).map (·.2))
  | ⟨.saveFpelStatus targetId status, r⟩, s, s' => r = .ok () ∧ s' = s.upsertStatus targetId status
  | ⟨.markFailed frozenProposalId reason, r⟩, s, s' =>
    Transaction (s.insertFailure frozenProposalId reason) s r s'
  | ⟨.isFailed frozenProposalId, r⟩, s, s' => s' = s ∧ r = .ok (s.failed frozenProposalId)
  | ⟨.saveFrozenWithSealedVerdict proposal verdict supersedeIds, r⟩, s, s' =>
    ∃ createdAt, Transaction
      (((s.supersede supersedeIds).insertProposal ⟨proposal.val, createdAt⟩).bind fun s₁ =>
        s₁.insertVerdict verdict.val) s r s'
  | ⟨.uuid4Hex, r⟩, s, s' => s' = s ∧ ∃ hex, r = .ok hex
  | ⟨.utcNow, r⟩, s, s' => s' = s ∧ ∃ now, r = .ok now

/-- Any call may instead fail in the database, which then rolls back. -/
def step : Semantics (fpelSignature H) Exn FpelStore := fun a s s' =>
  serve H a s s' ∨ s' = s ∧ ∃ m, a.answer = .error (.operationalError m)

end FpelStore

end ForkAgent.Fpel

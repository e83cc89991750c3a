import ForkAgent.Python.Json

/-!
# FPEL entities

Frozen proposals, sealed verdicts and the content hash that binds one to the other. The hash is
SHA-256 of a canonical text; both the JSON functions and the digest are parameters.
-/

namespace ForkAgent.Fpel

/-- The library functions under the content hash. `sha256Hex` is the digest of the UTF-8 text. -/
structure Hashing extends JsonLib where
  sha256Hex : String → String

inductive SealFailureReason where
  | hashMismatch
  | missingReports
  | terminalFail
  | postFreezeChange
  | noFrozenProposal
  deriving DecidableEq, Repr

def SealFailureReason.value : SealFailureReason → String
  | .hashMismatch => "HASH_MISMATCH"
  | .missingReports => "MISSING_REPORTS"
  | .terminalFail => "TERMINAL_FAIL"
  | .postFreezeChange => "POST_FREEZE_CHANGE"
  | .noFrozenProposal => "NO_FROZEN_PROPOSAL"

inductive FPELStatus where
  | notFrozen
  | frozen
  | checkPassed
  | checkFailed
  | needsHumanDecision
  | sealedPass
  | terminalFail
  | notEvaluated
  deriving DecidableEq, Repr

def FPELStatus.value : FPELStatus → String
  | .notFrozen => "NOT_FROZEN"
  | .frozen => "FROZEN"
  | .checkPassed => "CHECK_PASSED"
  | .checkFailed => "CHECK_FAILED"
  | .needsHumanDecision => "NEEDS_HUMAN_DECISION"
  | .sealedPass => "SEALED_PASS"
  | .terminalFail => "TERMINAL_FAIL"
  | .notEvaluated => "NOT_EVALUATED"

inductive FrozenProposalLifecycle where
  | active
  | superseded
  deriving DecidableEq, Repr

section Hash

variable (H : Hashing)

/-- Text that does not parse as JSON is its own canonical form. -/
def canonicalize (content : String) : Except Exn String :=
  match H.loads content >>= H.dumps with
  | .error (.jsonDecodeError _) | .error (.typeError _) => .ok content
  | r => r

def computeContentHash (content : String) : Except Exn String := do
  let canonical ← canonicalize H content
  return H.sha256Hex canonical

end Hash

def detectScopeChange (frozenHash currentHash : String) : Bool := frozenHash != currentHash

/-- The columns of `frozen_proposals` that the entity carries. -/
structure FrozenProposalFields where
  frozenProposalId : String
  targetId : String
  contentHash : String
  content : String
  lifecycle : FrozenProposalLifecycle := .active

def FrozenProposalFields.postInit (H : Hashing) (f : FrozenProposalFields) : Except Exn Unit := do
  require (f.frozenProposalId ≠ "") (.valueError "frozen_proposal_id must be a non-empty string")
  require (f.targetId ≠ "") (.valueError "target_id must be a non-empty string")
  require (f.contentHash ≠ "") (.valueError "content_hash must be a non-empty string")
  let expected ← computeContentHash H f.content
  require (f.contentHash = expected)
    (.valueError "content_hash must match canonical hash of content")

/-- An immutable snapshot whose hash is the hash of its content. -/
abbrev FrozenProposal (H : Hashing) := Validated (FrozenProposalFields.postInit H)

theorem FrozenProposal.computeContentHash_eq {H : Hashing} (p : FrozenProposal H) :
    computeContentHash H p.val.content = .ok p.val.contentHash := by
  have h := p.property
  simp only [FrozenProposalFields.postInit, require] at h
  cases hc : computeContentHash H p.val.content with
  | error e =>
    rw [hc] at h
    split_ifs at h <;> simp_all [bind, Except.bind]
  | ok expected =>
    rw [hc] at h
    split_ifs at h <;> simp_all [bind, Except.bind]

def FrozenProposal.isActive {H : Hashing} (p : FrozenProposal H) : Bool :=
  p.val.lifecycle = .active

/-- The columns of `sealed_verdicts`. `sealedAt` counts microseconds of the UTC clock. -/
structure SealedVerdictFields where
  frozenProposalId : String
  verdict : String
  sealedAt : Int
  contentHash : String
  source : Option String := none

def SealedVerdictFields.validSources : List String :=
  ["AUTO_SEAL", "LEGACY_APPROVED", "MANUAL_OVERRIDE"]

def SealedVerdictFields.postInit (f : SealedVerdictFields) : Except Exn Unit := do
  require (f.frozenProposalId ≠ "") (.valueError "frozen_proposal_id must be a non-empty string")
  require (f.verdict = "SEALED_PASS")
    (.valueError s!"verdict must be 'SEALED_PASS', got '{f.verdict}'")
  require (f.contentHash ≠ "") (.valueError "content_hash must be a non-empty string")
  match f.source with
  | none => return
  | some source =>
    require (source ∈ validSources) (.valueError (
      "SealedVerdict.source must be one of " ++
        s!"['AUTO_SEAL', 'LEGACY_APPROVED', 'MANUAL_OVERRIDE'] or None, got '{source}'"))

abbrev SealedVerdict := Validated SealedVerdictFields.postInit

/-- The answer of the gate. -/
structure AuthorizationDecision where
  allowed : Bool
  status : FPELStatus
  frozenProposalId : Option String
  contentHash : Option String
  reason : Option SealFailureReason
  sealId : Option String
  sealedAt : Option Int
  deriving DecidableEq, Repr

/-- A row of `fpel_checker_reports`. -/
structure CheckerReport where
  frozenProposalId : String
  checkerId : String
  verdict : String
  reportContent : Option String
  createdAt : Nat
  deriving DecidableEq, Repr

end ForkAgent.Fpel

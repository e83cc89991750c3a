import ForkAgent.Effects.Execution
import ForkAgent.Fpel.Repository

/-!
# FPEL authorization service

The operations of the service as programs over the repository. Only `seal` and the legacy
snapshots insert a verdict; `checkSealed` is the gate that reads it.
-/

namespace ForkAgent.Fpel

open Effects

/-- One entry of a plan's task list. -/
structure PlanTask where
  id : String
  slug : String
  description : String
  deriving DecidableEq, Repr

abbrev FpelProgram (H : Hashing) := Program (fpelSignature H) Exn

section Repository

variable {H : Hashing}

def getActiveFrozenProposal (targetId : String) : FpelProgram H (Option (FrozenProposal H)) :=
  .perform (σ := fpelSignature H) (.getActiveFrozenProposal targetId)

def getAllFrozenProposals (targetId : String) : FpelProgram H (List (FrozenProposal H)) :=
  .perform (σ := fpelSignature H) (.getAllFrozenProposals targetId)

def saveFrozenProposal (proposal : FrozenProposal H) (supersedeIds : List String) :
    FpelProgram H Unit :=
  .perform (σ := fpelSignature H) (.saveFrozenProposal proposal supersedeIds)

def getSealedVerdict (frozenProposalId : String) : FpelProgram H (Option SealedVerdict) :=
  .perform (σ := fpelSignature H) (.getSealedVerdict frozenProposalId)

def saveSealedVerdict (verdict : SealedVerdict) : FpelProgram H Unit :=
  .perform (σ := fpelSignature H) (.saveSealedVerdict verdict)

def getCheckersFor (targetId : String) : FpelProgram H (List String) :=
  .perform (σ := fpelSignature H) (.getCheckersFor targetId)

def getReportsFor (frozenProposalId : String) : FpelProgram H (List CheckerReport) :=
  .perform (σ := fpelSignature H) (.getReportsFor frozenProposalId)

def getCandidateVerdict (frozenProposalId : String) : FpelProgram H (Option String) :=
  .perform (σ := fpelSignature H) (.getCandidateVerdict frozenProposalId)

def getCurrentContentHash (targetId : String) : FpelProgram H (Option String) :=
  .perform (σ := fpelSignature H) (.getCurrentContentHash targetId)

def getFpelStatus (targetId : String) : FpelProgram H (Option String) :=
  .perform (σ := fpelSignature H) (.getFpelStatus targetId)

def saveFpelStatus (targetId status : String) : FpelProgram H Unit :=
  .perform (σ := fpelSignature H) (.saveFpelStatus targetId status)

def markFailed (frozenProposalId : String) (reason : Option String) : FpelProgram H Unit :=
  .perform (σ := fpelSignature H) (.markFailed frozenProposalId reason)

def isFailed (frozenProposalId : String) : FpelProgram H Bool :=
  .perform (σ := fpelSignature H) (.isFailed frozenProposalId)

def saveFrozenWithSealedVerdict (proposal : FrozenProposal H) (verdict : SealedVerdict)
    (supersedeIds : List String) : FpelProgram H Unit :=
  .perform (σ := fpelSignature H) (.saveFrozenWithSealedVerdict proposal verdict supersedeIds)

def uuid4Hex : FpelProgram H String := .perform (σ := fpelSignature H) .uuid4Hex

def utcNow : FpelProgram H Int := .perform (σ := fpelSignature H) .utcNow

end Repository

/-- A refusal of the gate. -/
def denied (status : FPELStatus) (frozenProposalId contentHash : Option String)
    (reason : Option SealFailureReason) : AuthorizationDecision :=
  { allowed := false, status, frozenProposalId, contentHash, reason, sealId := none,
    sealedAt := none }

/-- The last report of a checker, as the dict over the reports holds it. -/
def reportByChecker (reports : List CheckerReport) (checkerId : String) : Option String :=
  (reports.reverse.find? fun r => r.checkerId == checkerId).map (·.verdict)

/-- The plan text, or the subject and description of a task without a plan. -/
def taskContent (planText : Option String) (subject : String) (description : Option String) :
    String :=
  match planText with
  | some plan => plan
  | none =>
    match description with
    | none => subject
    | some d => if d = "" then subject else subject ++ "\n" ++ d

/-- The JSON text of a plan's task list. -/
def planContent (H : Hashing) (tasks : List PlanTask) : Except Exn String :=
  H.dumps (.arr (tasks.map fun t =>
    .obj [("id", .str t.id), ("slug", .str t.slug), ("description", .str t.description)]))

/-- A frozen proposal id is `fp-` and the first twelve hexadecimal digits of a fresh UUID. -/
def freshProposalId (hex : String) : String := "fp-" ++ String.ofList (hex.toList.take 12)

section Service

variable (H : Hashing)

/-- The hash the caller gives, or else the one stored for the active proposal. -/
def effectiveHash (targetId : String) : Option String → FpelProgram H (Option String)
  | some hash => return some hash
  | none => getCurrentContentHash targetId

/-- Whether the target has a sealed PASS for its frozen hash. -/
def checkSealed (targetId : String) (currentHash : Option String) :
    FpelProgram H AuthorizationDecision := do
  match ← getActiveFrozenProposal targetId with
  | none => return denied .notFrozen none none (some .noFrozenProposal)
  | some frozen =>
    let frozenId := frozen.val.frozenProposalId
    let contentHash := frozen.val.contentHash
    if ← isFailed frozenId then
      return denied .terminalFail (some frozenId) (some contentHash) (some .terminalFail)
    else
      match ← getSealedVerdict frozenId with
      | none =>
        let candidate ← getCandidateVerdict frozenId
        let status := if candidate = some "PASS" then .checkPassed else .frozen
        return denied status (some frozenId) (some contentHash) (some .missingReports)
      | some verdict =>
        let effectiveHash ← effectiveHash H targetId currentHash
        if effectiveHash.any (detectScopeChange verdict.val.contentHash) then
          return denied .sealedPass (some frozenId) currentHash (some .hashMismatch)
        else
          return {
            allowed := true
            status := .sealedPass
            frozenProposalId := some frozenId
            contentHash := some contentHash
            reason := none
            sealId := some verdict.val.frozenProposalId
            sealedAt := some verdict.val.sealedAt }

def markFail (targetId : String) (reason : Option String) : FpelProgram H (FrozenProposal H) := do
  match ← getActiveFrozenProposal targetId with
  | none => throw (.valueError s!"No active frozen proposal for target '{targetId}'")
  | some frozen =>
    markFailed frozen.val.frozenProposalId reason
    return frozen

/-- The ids of the proposals of a target that a new one will supersede. -/
def supersedeIds (existing : List (FrozenProposal H)) : List String :=
  (existing.filter (·.isActive)).map (·.val.frozenProposalId)

def freeze (targetId content : String) : FpelProgram H (FrozenProposal H) := do
  let existing ← getAllFrozenProposals targetId
  let contentHash ← .ofExcept (computeContentHash H content)
  let hex ← uuid4Hex
  let frozenId := freshProposalId hex
  let proposal ← .ofExcept (construct (FrozenProposalFields.postInit H)
    { frozenProposalId := frozenId, targetId, contentHash, content })
  saveFrozenProposal proposal (supersedeIds H existing)
  return proposal

def freezeTask (targetId : String) (planText : Option String) (subject : String)
    (description : Option String) : FpelProgram H (FrozenProposal H) :=
  freeze H targetId (taskContent planText subject description)

def freezePlan (targetId : String) (tasks : List PlanTask) : FpelProgram H (FrozenProposal H) := do
  let canonical ← .ofExcept (planContent H tasks)
  freeze H targetId canonical

/-- What the checker reports of the active proposal say. -/
def check (targetId : String) : FpelProgram H AuthorizationDecision := do
  let status ← getFpelStatus targetId
  if status = some FPELStatus.terminalFail.value then
    let frozen ← getActiveFrozenProposal targetId
    return denied .terminalFail (frozen.map (·.val.frozenProposalId))
      (frozen.map (·.val.contentHash)) (some .terminalFail)
  else
    match ← getActiveFrozenProposal targetId with
    | none => return denied .notFrozen none none (some .noFrozenProposal)
    | some frozen =>
      let frozenId := frozen.val.frozenProposalId
      let contentHash := frozen.val.contentHash
      let checkers ← getCheckersFor targetId
      let reports ← getReportsFor frozenId
      if checkers = [] then
        return denied .frozen (some frozenId) (some contentHash) (some .missingReports)
      else if checkers.any fun c => reportByChecker reports c = some "FAIL" then
        return denied .needsHumanDecision (some frozenId) (some contentHash) (some .missingReports)
      else if checkers.all fun c => reportByChecker reports c = some "PASS" then
        return denied .checkPassed (some frozenId) (some contentHash) none
      else
        return denied .frozen (some frozenId) (some contentHash) (some .missingReports)

/-- Seal the active proposal of the target once every checker has passed it. -/
def «seal» (targetId : String) : FpelProgram H (SealedVerdict ⊕ SealFailureReason) := do
  match ← getActiveFrozenProposal targetId with
  | none => return .inr .noFrozenProposal
  | some frozen =>
    let frozenId := frozen.val.frozenProposalId
    if ← isFailed frozenId then return .inr .terminalFail
    else
      match ← getSealedVerdict frozenId with
      | some existing => return .inl existing
      | none =>
        let status ← getFpelStatus targetId
        if status = some FPELStatus.terminalFail.value then return .inr .terminalFail
        else
          let currentHash ← getCurrentContentHash targetId
          if currentHash.any (detectScopeChange frozen.val.contentHash) then
            return .inr .hashMismatch
          else
            let checkers ← getCheckersFor targetId
            let reports ← getReportsFor frozenId
            if checkers = [] then return .inr .missingReports
            else if checkers.all fun c => reportByChecker reports c = some "PASS" then
              let now ← utcNow
              let sealed ← .ofExcept (construct SealedVerdictFields.postInit
                { frozenProposalId := frozenId, verdict := "SEALED_PASS", sealedAt := now,
                  contentHash := frozen.val.contentHash })
              saveSealedVerdict sealed
              return .inl sealed
            else return .inr .missingReports

/-- The gate for a task approved before it could be frozen. -/
def evaluateLegacy (targetId : String) (approvedContentHash currentContentHash : Option String)
    (isRunning : Bool) (action : Option String) : FpelProgram H AuthorizationDecision := do
  if isRunning && action.any
      (· ∈ ["retry", "resume", "next_phase", "major_scope_change"]) then
    return denied .notFrozen none currentContentHash (some .noFrozenProposal)
  else if approvedContentHash = none then
    return denied .needsHumanDecision none currentContentHash (some .missingReports)
  else if currentContentHash ≠ approvedContentHash then
    return denied .needsHumanDecision none currentContentHash (some .missingReports)
  else
    saveFpelStatus targetId FPELStatus.notEvaluated.value
    return denied .notEvaluated none currentContentHash (some .missingReports)

/-- Freeze and seal in one transaction, without checkers. -/
def snapshotLegacyInner (targetId content contentHash : String) :
    FpelProgram H (FrozenProposal H × SealedVerdict) := do
  match ← getActiveFrozenProposal targetId with
  | some frozen =>
    if ← isFailed frozen.val.frozenProposalId then
      throw (.valueError
        s!"Cannot snapshot legacy for target '{targetId}': proposal already failed")
    else
      match ← getSealedVerdict frozen.val.frozenProposalId with
      | some verdict => return (frozen, verdict)
      | none =>
        throw (.valueError (s!"Cannot snapshot legacy for target '{targetId}': " ++
          "active unsealed proposal exists (run 'fpel fail' first)"))
  | none =>
    let existing ← getAllFrozenProposals targetId
    let hex ← uuid4Hex
    let frozenId := freshProposalId hex
    let proposal ← .ofExcept (construct (FrozenProposalFields.postInit H)
      { frozenProposalId := frozenId, targetId, contentHash, content })
    let now ← utcNow
    let verdict ← .ofExcept (construct SealedVerdictFields.postInit
      { frozenProposalId := frozenId, verdict := "SEALED_PASS", sealedAt := now, contentHash,
        source := some "LEGACY_APPROVED" })
    saveFrozenWithSealedVerdict proposal verdict (supersedeIds H existing)
    return (proposal, verdict)

def snapshotLegacy (targetId content : String) :
    FpelProgram H (FrozenProposal H × SealedVerdict) := do
  let contentHash ← .ofExcept (computeContentHash H content)
  snapshotLegacyInner H targetId content contentHash

def snapshotLegacyTask (targetId : String) (planText : Option String) (subject : String)
    (description : Option String) : FpelProgram H (FrozenProposal H × SealedVerdict) :=
  snapshotLegacy H targetId (taskContent planText subject description)

def snapshotLegacyPlan (targetId : String) (tasks : List PlanTask) :
    FpelProgram H (FrozenProposal H × SealedVerdict) := do
  let canonical ← .ofExcept (planContent H tasks)
  snapshotLegacy H targetId canonical

end Service

end ForkAgent.Fpel

import ForkAgent.Python.Documents
import ForkAgent.Workflow.State

/-!
# The state files as JSON

The whole of the three states, what each is written as, and how a document of any schema version is
read. The dataclasses themselves do not look at the types of their fields; here a document in which
a field has another type is answered with an error.
-/

namespace ForkAgent.Workflow.Codec

def CURRENT_SCHEMA_VERSION : Int := 4

inductive DecisionStatus where
  | locked
  | deferred
  | discretion
  deriving DecidableEq, Repr

def DecisionStatus.value : DecisionStatus → String
  | .locked => "locked"
  | .deferred => "deferred"
  | .discretion => "discretion"

structure UserDecisionFields where
  key : String
  value : String
  status : DecisionStatus
  rationale : Option String := none
  deriving DecidableEq, Repr

def UserDecisionFields.postInit (d : UserDecisionFields) : Except Exn Unit :=
  require (d.key ≠ "") (.valueError "key no puede estar vacío")

abbrev UserDecision := Validated UserDecisionFields.postInit

structure GoalFields where
  objective : String
  mustHaves : List String := []
  niceToHaves : List String := []
  scopeIn : List String := []
  scopeOut : List String := []
  deriving DecidableEq, Repr

/-- What is both in and out of scope. The host language names it in no fixed order. -/
def GoalFields.overlap (g : GoalFields) : List String := (g.scopeIn.filter (· ∈ g.scopeOut)).dedup

/-- The length of the objective is checked twice. -/
def GoalFields.postInit (g : GoalFields) : Except Exn Unit := do
  require (g.objective ≠ "") (.valueError "objective cannot be empty")
  require (g.objective.length ≤ 10000) (.valueError "objective must not exceed 10000 characters")
  require (g.objective.length ≤ 10000) (.valueError "objective must not exceed 10000 characters")
  require (g.overlap = []) (.valueError ("scope_in and scope_out must be disjoint, found: \x7b" ++
    ", ".intercalate (g.overlap.map fun item => "'" ++ item ++ "'") ++ "\x7d"))

abbrev Goal := Validated GoalFields.postInit

inductive RequirementPriority where
  | must
  | nice
  deriving DecidableEq, Repr

def RequirementPriority.value : RequirementPriority → String
  | .must => "must"
  | .nice => "nice"

inductive RequirementSource where
  | explicit
  | derived
  deriving DecidableEq, Repr

def RequirementSource.value : RequirementSource → String
  | .explicit => "explicit"
  | .derived => "derived"

structure DerivedRequirementFields where
  id : String
  description : String
  source : RequirementSource
  priority : RequirementPriority
  deriving DecidableEq, Repr

def DerivedRequirementFields.postInit (r : DerivedRequirementFields) : Except Exn Unit := do
  require (r.id ≠ "") (.valueError "id cannot be empty")
  require (r.description ≠ "") (.valueError "description cannot be empty")

abbrev DerivedRequirement := Validated DerivedRequirementFields.postInit

structure PlanState extends Workflow.PlanState where
  startedAt : String
  decisions : List (String × UserDecision) := []
  goal : Option Goal := none
  derivedRequirements : List DerivedRequirement := []
  schemaVersion : Int := CURRENT_SCHEMA_VERSION
  migratedFrom : Option Int := none
  frozenProposalId : Option String := none
  frozenContentHash : Option String := none

structure ExecuteState extends Workflow.ExecuteState where
  startedAt : String
  currentTaskIndex : Int := 0
  schemaVersion : Int := CURRENT_SCHEMA_VERSION
  migratedFrom : Option Int := none

/-- The results of the tests are the object that stands in the file. -/
structure VerifyState where
  sessionId : String
  status : String := "pending"
  phase : WorkflowPhase := .planning
  startedAt : String
  unlockShip : Bool := false
  fileHashes : List (String × String) := []
  evidence : List String := []
  testResults : JsonObject := []
  schemaVersion : Int := CURRENT_SCHEMA_VERSION
  migratedFrom : Option Int := none

section ToJson

def Task.toJson (t : Task) : Json :=
  .obj [("id", .str t.id), ("slug", .str t.slug), ("description", .str t.description),
    ("status", .str t.status), ("branch", .ofText t.branch), ("worktree_path", .ofText t.worktreePath),
    ("session_name", .ofText t.sessionName), ("agent_pid", Json.ofInt t.agentPid),
    ("depends_on", Json.ofTexts t.dependsOn), ("requirement_ids", Json.ofTexts t.requirementIds)]

def UserDecision.toJson (d : UserDecision) : Json :=
  .obj [("key", .str d.val.key), ("value", .str d.val.value), ("status", .str d.val.status.value),
    ("rationale", .ofText d.val.rationale)]

def Goal.toJson (g : Goal) : Json :=
  .obj [("objective", .str g.val.objective), ("must_haves", Json.ofTexts g.val.mustHaves),
    ("nice_to_haves", Json.ofTexts g.val.niceToHaves), ("scope_in", Json.ofTexts g.val.scopeIn),
    ("scope_out", Json.ofTexts g.val.scopeOut)]

def DerivedRequirement.toJson (r : DerivedRequirement) : Json :=
  .obj [("id", .str r.val.id), ("description", .str r.val.description),
    ("source", .str r.val.source.value), ("priority", .str r.val.priority.value)]

def PlanState.toJson (s : PlanState) : JsonObject :=
  [("session_id", .str s.sessionId), ("status", .str s.status), ("phase", .str s.phase.value),
    ("started_at", .str s.startedAt), ("plan_file", .str s.planFile),
    ("schema_version", .int s.schemaVersion), ("migrated_from", Json.ofInt s.migratedFrom),
    ("tasks", .arr (s.tasks.map Task.toJson)),
    ("decisions", .obj (s.decisions.map fun (k, d) => (k, UserDecision.toJson d))),
    ("goal", match s.goal with | some goal => Goal.toJson goal | none => .null),
    ("derived_requirements", .arr (s.derivedRequirements.map DerivedRequirement.toJson)),
    ("frozen_proposal_id", .ofText s.frozenProposalId),
    ("frozen_content_hash", .ofText s.frozenContentHash)]

def ExecuteState.toJson (s : ExecuteState) : JsonObject :=
  [("session_id", .str s.sessionId), ("status", .str s.status), ("phase", .str s.phase.value),
    ("started_at", .str s.startedAt), ("schema_version", .int s.schemaVersion),
    ("migrated_from", Json.ofInt s.migratedFrom), ("tasks", .arr (s.tasks.map Task.toJson)),
    ("current_task_index", .int s.currentTaskIndex)]

def VerifyState.toJson (s : VerifyState) : JsonObject :=
  [("session_id", .str s.sessionId), ("status", .str s.status), ("phase", .str s.phase.value),
    ("started_at", .str s.startedAt), ("unlock_ship", .bool s.unlockShip),
    ("file_hashes", .obj (s.fileHashes.map fun (path, hash) => (path, .str hash))),
    ("evidence", Json.ofTexts s.evidence), ("test_results", .obj s.testResults),
    ("schema_version", .int s.schemaVersion), ("migrated_from", Json.ofInt s.migratedFrom)]

end ToJson

section FromJson

open JsonFormat

def nullableText : JsonFormat (Option String) := nullable text (by intro s h; cases h)

def nullableInteger : JsonFormat (Option Int) := nullable integer (by intro n h; cases h)

def texts : JsonFormat (List String) := list text

def workflowPhase : JsonFormat WorkflowPhase :=
  member "WorkflowPhase" WorkflowPhase.value
    [.planning, .outlined, .executing, .executed, .verifying, .verified, .shipping, .shipped,
      .hunting, .hunted]
    (by intro a; cases a <;> rfl)

def decisionStatus : JsonFormat DecisionStatus :=
  member "DecisionStatus" DecisionStatus.value [.locked, .deferred, .discretion]
    (by intro a; cases a <;> rfl)

def requirementSource : JsonFormat RequirementSource :=
  member "RequirementSource" RequirementSource.value [.explicit, .derived]
    (by intro a; cases a <;> rfl)

def requirementPriority : JsonFormat RequirementPriority :=
  member "RequirementPriority" RequirementPriority.value [.must, .nice]
    (by intro a; cases a <;> rfl)

/-- The value as an object, for the readers of objects. -/
def fromObject {α : Type} (read : JsonObject → Except Exn α) (j : Json) : Except Exn α := do
  let fields ← object.read j
  read fields

def taskFromJson (t : JsonObject) : Except Exn Task := do
  let id ← t.read text "id"
  let slug ← t.read text "slug"
  let description ← t.read text "description"
  let status ← t.readD text "status" "pending"
  let branch ← t.readD nullableText "branch" none
  let worktreePath ← t.readD nullableText "worktree_path" none
  let sessionName ← t.readD nullableText "session_name" none
  let agentPid ← t.readD nullableInteger "agent_pid" none
  let dependsOn ← t.readD texts "depends_on" []
  let requirementIds ← t.readD texts "requirement_ids" []
  return { id, slug, description, status, branch, worktreePath, sessionName, agentPid, dependsOn,
           requirementIds }

def decisionFromJson (d : JsonObject) : Except Exn UserDecision := do
  let key ← d.read text "key"
  let value ← d.read text "value"
  let status ← d.read decisionStatus "status"
  let rationale ← d.readD nullableText "rationale" none
  construct UserDecisionFields.postInit { key, value, status, rationale }

def goalFromJson (g : JsonObject) : Except Exn Goal := do
  let objective ← g.read text "objective"
  let mustHaves ← g.readD texts "must_haves" []
  let niceToHaves ← g.readD texts "nice_to_haves" []
  let scopeIn ← g.readD texts "scope_in" []
  let scopeOut ← g.readD texts "scope_out" []
  construct GoalFields.postInit { objective, mustHaves, niceToHaves, scopeIn, scopeOut }

def requirementFromJson (r : JsonObject) : Except Exn DerivedRequirement := do
  let id ← r.read text "id"
  let description ← r.read text "description"
  let source ← r.read requirementSource "source"
  let priority ← r.read requirementPriority "priority"
  construct DerivedRequirementFields.postInit { id, description, source, priority }

/-- A task as it stands in a document; what has a default may be missing. -/
structure TaskWritten (task : Task) (t : JsonObject) : Prop where
  id : t.Holds text "id" task.id
  slug : t.Holds text "slug" task.slug
  description : t.Holds text "description" task.description
  status : t.HoldsD text "status" "pending" task.status
  branch : t.HoldsD nullableText "branch" none task.branch
  worktreePath : t.HoldsD nullableText "worktree_path" none task.worktreePath
  sessionName : t.HoldsD nullableText "session_name" none task.sessionName
  agentPid : t.HoldsD nullableInteger "agent_pid" none task.agentPid
  dependsOn : t.HoldsD texts "depends_on" [] task.dependsOn
  requirementIds : t.HoldsD texts "requirement_ids" [] task.requirementIds

structure DecisionWritten (decision : UserDecision) (d : JsonObject) : Prop where
  key : d.Holds text "key" decision.val.key
  value : d.Holds text "value" decision.val.value
  status : d.Holds decisionStatus "status" decision.val.status
  rationale : d.HoldsD nullableText "rationale" none decision.val.rationale

structure GoalWritten (goal : Goal) (g : JsonObject) : Prop where
  objective : g.Holds text "objective" goal.val.objective
  mustHaves : g.HoldsD texts "must_haves" [] goal.val.mustHaves
  niceToHaves : g.HoldsD texts "nice_to_haves" [] goal.val.niceToHaves
  scopeIn : g.HoldsD texts "scope_in" [] goal.val.scopeIn
  scopeOut : g.HoldsD texts "scope_out" [] goal.val.scopeOut

structure RequirementWritten (requirement : DerivedRequirement) (r : JsonObject) : Prop where
  id : r.Holds text "id" requirement.val.id
  description : r.Holds text "description" requirement.val.description
  source : r.Holds requirementSource "source" requirement.val.source
  priority : r.Holds requirementPriority "priority" requirement.val.priority

/-- The format of a kind of object. -/
def ofObject {α : Type} (Written : α → JsonObject → Prop) (read : JsonObject → Except Exn α)
    (hread : ∀ {a fields}, Written a fields → read fields = .ok a) : JsonFormat α where
  Writes a j := ∃ fields, j = .obj fields ∧ Written a fields
  read := fromObject read
  read_of_writes := by
    intro a j ⟨fields, hj, hwritten⟩
    rw [hj]
    exact hread hwritten

def taskFormat : JsonFormat Task := ofObject TaskWritten taskFromJson (by
  intro task t h
  simp only [taskFromJson, h.id.read, h.slug.read, h.description.read, h.status.readD, h.branch.readD,
    h.worktreePath.readD, h.sessionName.readD, h.agentPid.readD, h.dependsOn.readD,
    h.requirementIds.readD]
  rfl)

def decisionFormat : JsonFormat UserDecision := ofObject DecisionWritten decisionFromJson (by
  intro decision d h
  simp only [decisionFromJson, h.key.read, h.value.read, h.status.read, h.rationale.readD]
  exact construct_eq_ok.mpr rfl)

def goalFormat : JsonFormat Goal := ofObject GoalWritten goalFromJson (by
  intro goal g h
  simp only [goalFromJson, h.objective.read, h.mustHaves.readD, h.niceToHaves.readD, h.scopeIn.readD,
    h.scopeOut.readD]
  exact construct_eq_ok.mpr rfl)

def requirementFormat : JsonFormat DerivedRequirement :=
    ofObject RequirementWritten requirementFromJson (by
  intro requirement r h
  simp only [requirementFromJson, h.id.read, h.description.read, h.source.read, h.priority.read]
  exact construct_eq_ok.mpr rfl)

def nullableGoal : JsonFormat (Option Goal) := nullable goalFormat (by
  intro goal h
  obtain ⟨fields, hfields, -⟩ := h
  cases hfields)

/-- The version that a document states; without one it is of version 0. A later one than the
current one is refused. -/
def schemaVersionOf (state : String) (data : JsonObject) : Except Exn Int := do
  let stored ← data.readD nullableInteger "schema_version" none
  let version := stored.getD 0
  if version > CURRENT_SCHEMA_VERSION then
    .error (.unsupportedSchemaError (state ++ " schema version " ++ toString version ++
      " is not supported. Maximum supported version is " ++ toString CURRENT_SCHEMA_VERSION ++ "."))
  else return version

/-- The version that the plan is taken to have migrated from. -/
def migrationOf (version : Int) : Option Int :=
  let migratedFrom := none
  let migratedFrom := if version = 0 then some 0 else migratedFrom
  let migratedFrom := if version = 1 then some 1 else migratedFrom
  let migratedFrom := if version = 2 then some 2 else migratedFrom
  if version = 3 then some 3 else migratedFrom

/-- The goal of a plan, unless there is none or an empty one. -/
def goalOf (data : JsonObject) : Except Exn (Option Goal) :=
  let goalData := data.get "goal"
  if goalData.truthy then some <$> goalFormat.read goalData else .ok none

def derivedRequirementsOf (data : JsonObject) : Except Exn (List DerivedRequirement) :=
  let reqData := data.getD "derived_requirements" (.arr [])
  if reqData.truthy then (list requirementFormat).read reqData else .ok []

/-- The version is the current one always. -/
def PlanState.fromJson (now : String) (data : JsonObject) : Except Exn PlanState := do
  let schemaVersion ← schemaVersionOf "PlanState" data
  let migratedFrom := migrationOf schemaVersion
  let schemaVersion := 4
  let tasks ← data.readD (list taskFormat) "tasks" []
  let decisions ← data.readD (dict decisionFormat) "decisions" []
  let goal ← goalOf data
  let derivedRequirements ← derivedRequirementsOf data
  let sessionId ← data.read text "session_id"
  let status ← data.readD text "status" "planning"
  let phase ← data.readD workflowPhase "phase" .planning
  let startedAt ← data.readD text "started_at" now
  let planFile ← data.readD text "plan_file" ".claude/plans/plan.md"
  let frozenProposalId ← data.readD nullableText "frozen_proposal_id" none
  let frozenContentHash ← data.readD nullableText "frozen_content_hash" none
  return { sessionId, status, phase, startedAt, planFile, tasks, decisions, goal, derivedRequirements,
           schemaVersion, migratedFrom, frozenProposalId, frozenContentHash }

/-- What an execution and a verification of version 0 are migrated to; any other version stays. -/
def migrate (version : Int) : Int × Option Int := if version = 0 then (4, some 0) else (version, none)

def ExecuteState.fromJson (now : String) (data : JsonObject) : Except Exn ExecuteState := do
  let version ← schemaVersionOf "ExecuteState" data
  let (schemaVersion, migratedFrom) := migrate version
  let tasks ← data.readD (list taskFormat) "tasks" []
  let sessionId ← data.read text "session_id"
  let status ← data.readD text "status" "idle"
  let phase ← data.readD workflowPhase "phase" .planning
  let startedAt ← data.readD text "started_at" now
  let currentTaskIndex ← data.readD integer "current_task_index" 0
  return { sessionId, status, phase, startedAt, tasks, currentTaskIndex, schemaVersion, migratedFrom }

def VerifyState.fromJson (now : String) (data : JsonObject) : Except Exn VerifyState := do
  let version ← schemaVersionOf "VerifyState" data
  let (schemaVersion, migratedFrom) := migrate version
  let sessionId ← data.read text "session_id"
  let status ← data.readD text "status" "pending"
  let phase ← data.readD workflowPhase "phase" .planning
  let startedAt ← data.readD text "started_at" now
  let unlockShip ← data.readD boolean "unlock_ship" false
  let fileHashes ← data.readD (dict text) "file_hashes" []
  let evidence ← data.readD texts "evidence" []
  let testResults ← data.readD object "test_results" []
  return { sessionId, status, phase, startedAt, unlockShip, fileHashes, evidence, testResults,
           schemaVersion, migratedFrom }

end FromJson

section Documents

open JsonFormat

/-- A document of this version; one that states none is of version 0. -/
def HasVersion (version : Int) (data : JsonObject) : Prop :=
  ∃ stored, data.HoldsD nullableInteger "schema_version" none stored ∧ version = stored.getD 0

/-- A document in which the plan is written, whatever it says of versions. -/
structure PlanWritten (now : String) (s : PlanState) (data : JsonObject) : Prop where
  sessionId : data.Holds text "session_id" s.sessionId
  status : data.HoldsD text "status" "planning" s.status
  phase : data.HoldsD workflowPhase "phase" .planning s.phase
  startedAt : data.HoldsD text "started_at" now s.startedAt
  planFile : data.HoldsD text "plan_file" ".claude/plans/plan.md" s.planFile
  tasks : data.HoldsD (list taskFormat) "tasks" [] s.tasks
  decisions : data.HoldsD (dict decisionFormat) "decisions" [] s.decisions
  goal : data.HoldsD nullableGoal "goal" none s.goal
  derivedRequirements :
    data.HoldsD (list requirementFormat) "derived_requirements" [] s.derivedRequirements
  frozenProposalId : data.HoldsD nullableText "frozen_proposal_id" none s.frozenProposalId
  frozenContentHash : data.HoldsD nullableText "frozen_content_hash" none s.frozenContentHash

structure ExecuteWritten (now : String) (s : ExecuteState) (data : JsonObject) : Prop where
  sessionId : data.Holds text "session_id" s.sessionId
  status : data.HoldsD text "status" "idle" s.status
  phase : data.HoldsD workflowPhase "phase" .planning s.phase
  startedAt : data.HoldsD text "started_at" now s.startedAt
  tasks : data.HoldsD (list taskFormat) "tasks" [] s.tasks
  currentTaskIndex : data.HoldsD integer "current_task_index" 0 s.currentTaskIndex

structure VerifyWritten (now : String) (s : VerifyState) (data : JsonObject) : Prop where
  sessionId : data.Holds text "session_id" s.sessionId
  status : data.HoldsD text "status" "pending" s.status
  phase : data.HoldsD workflowPhase "phase" .planning s.phase
  startedAt : data.HoldsD text "started_at" now s.startedAt
  unlockShip : data.HoldsD boolean "unlock_ship" false s.unlockShip
  fileHashes : data.HoldsD (dict text) "file_hashes" [] s.fileHashes
  evidence : data.HoldsD texts "evidence" [] s.evidence
  testResults : data.HoldsD object "test_results" [] s.testResults

variable {now : String} {data : JsonObject} {version : Int}

theorem schemaVersionOf_supported (state : String) (h : HasVersion version data)
    (hle : version ≤ CURRENT_SCHEMA_VERSION) : schemaVersionOf state data = .ok version := by
  obtain ⟨stored, hstored, rfl⟩ := h
  unfold schemaVersionOf
  rw [hstored.readD]
  exact if_neg (Int.not_lt.mpr hle)

theorem schemaVersionOf_unsupported (state : String) (h : HasVersion version data)
    (hlt : CURRENT_SCHEMA_VERSION < version) : ∃ e, schemaVersionOf state data = .error e := by
  obtain ⟨stored, hstored, rfl⟩ := h
  unfold schemaVersionOf
  rw [hstored.readD]
  exact ⟨_, if_pos hlt⟩

theorem goalOf_eq {goal : Option Goal} (h : data.HoldsD nullableGoal "goal" none goal) :
    goalOf data = .ok goal := by
  unfold goalOf JsonObject.get
  obtain ⟨j, hlookup, hwrites⟩ | ⟨hlookup, rfl⟩ := h
  · rw [hlookup, Option.getD_some]
    cases goal with
    | none => rw [show j = .null from hwrites]; rfl
    | some goal =>
      have hread : goalFormat.read j = .ok goal := goalFormat.read_of_writes hwrites
      obtain ⟨fields, rfl, hgoal⟩ := hwrites
      obtain ⟨objective, hobjective, -⟩ := hgoal.objective
      have htruthy : (Json.obj fields).truthy = true := by
        cases fields with
        | nil => cases hobjective
        | cons field fields => rfl
      simp only [htruthy, if_true, hread]
      rfl
  · rw [hlookup]
    rfl

theorem derivedRequirementsOf_eq {requirements : List DerivedRequirement}
    (h : data.HoldsD (list requirementFormat) "derived_requirements" [] requirements) :
    derivedRequirementsOf data = .ok requirements := by
  unfold derivedRequirementsOf JsonObject.getD
  obtain ⟨j, hlookup, hwrites⟩ | ⟨hlookup, rfl⟩ := h
  · rw [hlookup, Option.getD_some]
    have hread := (list requirementFormat).read_of_writes hwrites
    obtain ⟨items, rfl, hitems⟩ := hwrites
    cases hitems with
    | nil => rfl
    | cons => exact hread
  · rw [hlookup]
    rfl

theorem PlanWritten.fromJson {s : PlanState} (h : PlanWritten now s data)
    (hversion : HasVersion version data) (hle : version ≤ CURRENT_SCHEMA_VERSION) : PlanState.fromJson now data =
      .ok { s with schemaVersion := 4, migratedFrom := migrationOf version } := by
  unfold PlanState.fromJson
  rw [schemaVersionOf_supported _ hversion hle]
  simp only [h.tasks.readD, h.decisions.readD, goalOf_eq h.goal,
    derivedRequirementsOf_eq h.derivedRequirements, h.sessionId.read, h.status.readD, h.phase.readD,
    h.startedAt.readD, h.planFile.readD, h.frozenProposalId.readD, h.frozenContentHash.readD]
  rfl

theorem ExecuteWritten.fromJson {s : ExecuteState} (h : ExecuteWritten now s data)
    (hversion : HasVersion version data) (hle : version ≤ CURRENT_SCHEMA_VERSION) : ExecuteState.fromJson now data =
      .ok { s with schemaVersion := (migrate version).1, migratedFrom := (migrate version).2 } := by
  unfold ExecuteState.fromJson
  rw [schemaVersionOf_supported _ hversion hle]
  simp only [h.tasks.readD, h.sessionId.read, h.status.readD, h.phase.readD, h.startedAt.readD,
    h.currentTaskIndex.readD]
  rfl

theorem VerifyWritten.fromJson {s : VerifyState} (h : VerifyWritten now s data)
    (hversion : HasVersion version data) (hle : version ≤ CURRENT_SCHEMA_VERSION) : VerifyState.fromJson now data =
      .ok { s with schemaVersion := (migrate version).1, migratedFrom := (migrate version).2 } := by
  unfold VerifyState.fromJson
  rw [schemaVersionOf_supported _ hversion hle]
  simp only [h.sessionId.read, h.status.readD, h.phase.readD, h.startedAt.readD, h.unlockShip.readD,
    h.fileHashes.readD, h.evidence.readD, h.testResults.readD]
  rfl

theorem PlanState.fromJson_unsupported (now : String) (h : HasVersion version data)
    (hlt : CURRENT_SCHEMA_VERSION < version) : ∃ e, PlanState.fromJson now data = .error e := by
  obtain ⟨e, he⟩ := schemaVersionOf_unsupported "PlanState" h hlt
  unfold PlanState.fromJson
  rw [he]
  exact ⟨e, rfl⟩

theorem ExecuteState.fromJson_unsupported (now : String) (h : HasVersion version data)
    (hlt : CURRENT_SCHEMA_VERSION < version) : ∃ e, ExecuteState.fromJson now data = .error e := by
  obtain ⟨e, he⟩ := schemaVersionOf_unsupported "ExecuteState" h hlt
  unfold ExecuteState.fromJson
  rw [he]
  exact ⟨e, rfl⟩

theorem VerifyState.fromJson_unsupported (now : String) (h : HasVersion version data)
    (hlt : CURRENT_SCHEMA_VERSION < version) : ∃ e, VerifyState.fromJson now data = .error e := by
  obtain ⟨e, he⟩ := schemaVersionOf_unsupported "VerifyState" h hlt
  unfold VerifyState.fromJson
  rw [he]
  exact ⟨e, rfl⟩

end Documents

section RoundTrip

open JsonFormat

theorem nullableText_writes (s : Option String) : nullableText.Writes s (.ofText s) := by
  cases s with
  | none => exact rfl
  | some s => exact rfl

theorem nullableInteger_writes (n : Option Int) : nullableInteger.Writes n (.ofInt n) := by
  cases n with
  | none => exact rfl
  | some n => exact rfl

theorem texts_writes (items : List String) : texts.Writes items (.ofTexts items) :=
  list_writes text (fun _ => rfl) items

theorem task_writes (t : Task) : taskFormat.Writes t (Task.toJson t) := by
  refine ⟨_, rfl, ?_⟩
  constructor
  · exact ⟨_, rfl, rfl⟩
  · exact ⟨_, rfl, rfl⟩
  · exact ⟨_, rfl, rfl⟩
  · exact .inl ⟨_, rfl, rfl⟩
  · exact .inl ⟨_, rfl, nullableText_writes _⟩
  · exact .inl ⟨_, rfl, nullableText_writes _⟩
  · exact .inl ⟨_, rfl, nullableText_writes _⟩
  · exact .inl ⟨_, rfl, nullableInteger_writes _⟩
  · exact .inl ⟨_, rfl, texts_writes _⟩
  · exact .inl ⟨_, rfl, texts_writes _⟩

theorem decision_writes (d : UserDecision) : decisionFormat.Writes d (UserDecision.toJson d) := by
  refine ⟨_, rfl, ?_⟩
  constructor
  · exact ⟨_, rfl, rfl⟩
  · exact ⟨_, rfl, rfl⟩
  · exact ⟨_, rfl, rfl⟩
  · exact .inl ⟨_, rfl, nullableText_writes _⟩

theorem goal_writes (g : Goal) : goalFormat.Writes g (Goal.toJson g) := by
  refine ⟨_, rfl, ?_⟩
  constructor
  · exact ⟨_, rfl, rfl⟩
  · exact .inl ⟨_, rfl, texts_writes _⟩
  · exact .inl ⟨_, rfl, texts_writes _⟩
  · exact .inl ⟨_, rfl, texts_writes _⟩
  · exact .inl ⟨_, rfl, texts_writes _⟩

theorem requirement_writes (r : DerivedRequirement) :
    requirementFormat.Writes r (DerivedRequirement.toJson r) := by
  refine ⟨_, rfl, ?_⟩
  constructor
  · exact ⟨_, rfl, rfl⟩
  · exact ⟨_, rfl, rfl⟩
  · exact ⟨_, rfl, rfl⟩
  · exact ⟨_, rfl, rfl⟩

theorem PlanState.toJson_written (now : String) (s : PlanState) : PlanWritten now s s.toJson := by
  constructor
  · exact ⟨_, rfl, rfl⟩
  · exact .inl ⟨_, rfl, rfl⟩
  · exact .inl ⟨_, rfl, rfl⟩
  · exact .inl ⟨_, rfl, rfl⟩
  · exact .inl ⟨_, rfl, rfl⟩
  · exact .inl ⟨_, rfl, list_writes taskFormat task_writes _⟩
  · exact .inl ⟨_, rfl, dict_writes decisionFormat decision_writes _⟩
  · refine .inl ⟨_, rfl, ?_⟩
    cases s.goal with
    | none => exact rfl
    | some goal => exact goal_writes goal
  · exact .inl ⟨_, rfl, list_writes requirementFormat requirement_writes _⟩
  · exact .inl ⟨_, rfl, nullableText_writes _⟩
  · exact .inl ⟨_, rfl, nullableText_writes _⟩

theorem ExecuteState.toJson_written (now : String) (s : ExecuteState) :
    ExecuteWritten now s s.toJson := by
  constructor
  · exact ⟨_, rfl, rfl⟩
  · exact .inl ⟨_, rfl, rfl⟩
  · exact .inl ⟨_, rfl, rfl⟩
  · exact .inl ⟨_, rfl, rfl⟩
  · exact .inl ⟨_, rfl, list_writes taskFormat task_writes _⟩
  · exact .inl ⟨_, rfl, rfl⟩

theorem VerifyState.toJson_written (now : String) (s : VerifyState) :
    VerifyWritten now s s.toJson := by
  constructor
  · exact ⟨_, rfl, rfl⟩
  · exact .inl ⟨_, rfl, rfl⟩
  · exact .inl ⟨_, rfl, rfl⟩
  · exact .inl ⟨_, rfl, rfl⟩
  · exact .inl ⟨_, rfl, rfl⟩
  · exact .inl ⟨_, rfl, dict_writes text (fun _ => rfl) _⟩
  · exact .inl ⟨_, rfl, texts_writes _⟩
  · exact .inl ⟨_, rfl, rfl⟩

theorem PlanState.hasVersion_toJson (s : PlanState) : HasVersion s.schemaVersion s.toJson :=
  ⟨some s.schemaVersion, .inl ⟨_, rfl, rfl⟩, rfl⟩

theorem ExecuteState.hasVersion_toJson (s : ExecuteState) : HasVersion s.schemaVersion s.toJson :=
  ⟨some s.schemaVersion, .inl ⟨_, rfl, rfl⟩, rfl⟩

theorem VerifyState.hasVersion_toJson (s : VerifyState) : HasVersion s.schemaVersion s.toJson :=
  ⟨some s.schemaVersion, .inl ⟨_, rfl, rfl⟩, rfl⟩

theorem migrationOf_legacy {version : Int} (h0 : 0 ≤ version) (h3 : version ≤ 3) :
    migrationOf version = some version := by
  obtain rfl | rfl | rfl | rfl : version = 0 ∨ version = 1 ∨ version = 2 ∨ version = 3 := by omega
  · rfl
  · rfl
  · rfl
  · rfl

theorem migrate_eq_iff {version : Int} {migratedFrom : Option Int} :
    migrate version = (version, migratedFrom) ↔ version ≠ 0 ∧ migratedFrom = none := by
  unfold migrate
  by_cases hzero : version = 0
  · simp [hzero]
  · simp [hzero, eq_comm]

/-- A plan is read back as it was if and only if it is of the current version and not migrated. -/
theorem PlanState.roundTrips_iff (s : PlanState) :
    (∀ now, PlanState.fromJson now s.toJson = .ok s) ↔
      s.schemaVersion = CURRENT_SCHEMA_VERSION ∧ s.migratedFrom = none := by
  by_cases hle : s.schemaVersion ≤ CURRENT_SCHEMA_VERSION
  · have hread := fun now => (s.toJson_written now).fromJson s.hasVersion_toJson hle
    constructor
    · intro h
      have hsame := (hread "").symm.trans (h "")
      injection hsame with hsame
      have hversion : CURRENT_SCHEMA_VERSION = s.schemaVersion := congrArg (·.schemaVersion) hsame
      have hmigrated : migrationOf s.schemaVersion = s.migratedFrom := congrArg (·.migratedFrom) hsame
      refine ⟨hversion.symm, ?_⟩
      rw [← hmigrated, ← hversion]
      rfl
    · intro ⟨hversion, hmigrated⟩ now
      have hsame : migrationOf s.schemaVersion = s.migratedFrom := by
        rw [hversion, hmigrated]
        rfl
      rw [hread now, hsame]
      show Except.ok { s with schemaVersion := CURRENT_SCHEMA_VERSION } = _
      rw [← hversion]
  · obtain ⟨e, he⟩ := PlanState.fromJson_unsupported "" s.hasVersion_toJson (Int.not_le.mp hle)
    constructor
    · intro h
      rw [h ""] at he
      cases he
    · intro ⟨hversion, _⟩
      exact absurd (Int.le_of_eq hversion) hle

/-- An execution is, if and only if it is of a supported version other than 0 and not migrated. -/
theorem ExecuteState.roundTrips_iff (s : ExecuteState) :
    (∀ now, ExecuteState.fromJson now s.toJson = .ok s) ↔
      s.schemaVersion ≤ CURRENT_SCHEMA_VERSION ∧ s.schemaVersion ≠ 0 ∧ s.migratedFrom = none := by
  rw [← migrate_eq_iff]
  by_cases hle : s.schemaVersion ≤ CURRENT_SCHEMA_VERSION
  · have hread := fun now => (s.toJson_written now).fromJson s.hasVersion_toJson hle
    constructor
    · intro h
      have hsame := (hread "").symm.trans (h "")
      injection hsame with hsame
      exact ⟨hle, Prod.ext (congrArg (·.schemaVersion) hsame) (congrArg (·.migratedFrom) hsame)⟩
    · intro ⟨_, hmigrate⟩ now
      rw [hread now, hmigrate]
  · obtain ⟨e, he⟩ := ExecuteState.fromJson_unsupported "" s.hasVersion_toJson (Int.not_le.mp hle)
    constructor
    · intro h
      rw [h ""] at he
      cases he
    · intro ⟨hsupported, _⟩
      exact absurd hsupported hle

theorem VerifyState.roundTrips_iff (s : VerifyState) :
    (∀ now, VerifyState.fromJson now s.toJson = .ok s) ↔
      s.schemaVersion ≤ CURRENT_SCHEMA_VERSION ∧ s.schemaVersion ≠ 0 ∧ s.migratedFrom = none := by
  rw [← migrate_eq_iff]
  by_cases hle : s.schemaVersion ≤ CURRENT_SCHEMA_VERSION
  · have hread := fun now => (s.toJson_written now).fromJson s.hasVersion_toJson hle
    constructor
    · intro h
      have hsame := (hread "").symm.trans (h "")
      injection hsame with hsame
      exact ⟨hle, Prod.ext (congrArg (·.schemaVersion) hsame) (congrArg (·.migratedFrom) hsame)⟩
    · intro ⟨_, hmigrate⟩ now
      rw [hread now, hmigrate]
  · obtain ⟨e, he⟩ := VerifyState.fromJson_unsupported "" s.hasVersion_toJson (Int.not_le.mp hle)
    constructor
    · intro h
      rw [h ""] at he
      cases he
    · intro ⟨hsupported, _⟩
      exact absurd hsupported hle

end RoundTrip

section Theorem

def PlanState.RoundTrips (s : PlanState) : Prop := ∀ now, PlanState.fromJson now s.toJson = .ok s

def ExecuteState.RoundTrips (s : ExecuteState) : Prop :=
  ∀ now, ExecuteState.fromJson now s.toJson = .ok s

def VerifyState.RoundTrips (s : VerifyState) : Prop :=
  ∀ now, VerifyState.fromJson now s.toJson = .ok s

/-- The document is read as this plan, at version 4 and with the version that it comes from. -/
def PlanState.Migrates (now : String) (version : Int) (data : JsonObject) (s : PlanState) : Prop :=
  PlanState.fromJson now data = .ok { s with schemaVersion := 4, migratedFrom := some version }

def ExecuteState.Migrates (now : String) (version : Int) (data : JsonObject) (s : ExecuteState) : Prop :=
  ExecuteState.fromJson now data = .ok { s with schemaVersion := 4, migratedFrom := some version }

def VerifyState.Migrates (now : String) (version : Int) (data : JsonObject) (s : VerifyState) : Prop :=
  VerifyState.fromJson now data = .ok { s with schemaVersion := 4, migratedFrom := some version }

theorem migrate_legacy_iff {version : Int} : migrate version = (4, some version) ↔ version = 0 := by
  unfold migrate
  by_cases hzero : version = 0
  · simp [hzero]
  · simp [hzero]

variable {now : String} {version : Int} {data : JsonObject}

theorem ExecuteWritten.migrates_iff {s : ExecuteState} (h : ExecuteWritten now s data)
    (hversion : HasVersion version data) (hle : version ≤ CURRENT_SCHEMA_VERSION) :
    s.Migrates now version data ↔ version = 0 := by
  unfold ExecuteState.Migrates
  rw [h.fromJson hversion hle, ← migrate_legacy_iff]
  constructor
  · intro hsame
    injection hsame with hsame
    exact Prod.ext (congrArg (·.schemaVersion) hsame) (congrArg (·.migratedFrom) hsame)
  · intro hmigrate
    rw [hmigrate]

theorem VerifyWritten.migrates_iff {s : VerifyState} (h : VerifyWritten now s data)
    (hversion : HasVersion version data) (hle : version ≤ CURRENT_SCHEMA_VERSION) :
    s.Migrates now version data ↔ version = 0 := by
  unfold VerifyState.Migrates
  rw [h.fromJson hversion hle, ← migrate_legacy_iff]
  constructor
  · intro hsame
    injection hsame with hsame
    exact Prod.ext (congrArg (·.schemaVersion) hsame) (congrArg (·.migratedFrom) hsame)
  · intro hmigrate
    rw [hmigrate]

/-- Which states come back as they were written, and which legacy documents are migrated: a plan has
to be of the current version and must not have been migrated itself, an execution or a verification
must not have been either; of their legacy documents, only those of version 0 are migrated. -/
theorem state_codec_iff (plan : PlanState) (execute : ExecuteState) (verify : VerifyState) :
    (plan.RoundTrips ↔ plan.schemaVersion = CURRENT_SCHEMA_VERSION ∧ plan.migratedFrom = none) ∧
    (execute.RoundTrips ↔
      execute.schemaVersion ≤ CURRENT_SCHEMA_VERSION ∧ execute.schemaVersion ≠ 0 ∧ execute.migratedFrom = none) ∧
    (verify.RoundTrips ↔
      verify.schemaVersion ≤ CURRENT_SCHEMA_VERSION ∧ verify.schemaVersion ≠ 0 ∧ verify.migratedFrom = none) ∧
    ∀ now version data, 0 ≤ version → version ≤ 3 → HasVersion version data →
      (PlanWritten now plan data → plan.Migrates now version data) ∧
      (ExecuteWritten now execute data → (execute.Migrates now version data ↔ version = 0)) ∧
      (VerifyWritten now verify data → (verify.Migrates now version data ↔ version = 0)) := by
  refine ⟨plan.roundTrips_iff, execute.roundTrips_iff, verify.roundTrips_iff, ?_⟩
  intro now version data h0 h3 hversion
  have hle : version ≤ CURRENT_SCHEMA_VERSION := Int.le_trans h3 (by decide)
  refine ⟨?_, ?_, ?_⟩
  · intro hs
    unfold PlanState.Migrates
    rw [hs.fromJson hversion hle, migrationOf_legacy h0 h3]
  · intro hs
    exact hs.migrates_iff hversion hle
  · intro hs
    exact hs.migrates_iff hversion hle

/-- A document of a version that has no later fields yet. -/
def legacyDocument (version : Int) : JsonObject :=
  [("schema_version", .int version), ("session_id", .str "s"), ("started_at", .str "t")]

theorem legacyDocument_hasVersion (version : Int) : HasVersion version (legacyDocument version) :=
  ⟨some version, .inl ⟨_, rfl, rfl⟩, rfl⟩

def legacyPlan : PlanState := { sessionId := "s", startedAt := "t" }

def legacyExecute : ExecuteState := { sessionId := "s", startedAt := "t" }

theorem legacyDocument_plan (version : Int) : PlanWritten "" legacyPlan (legacyDocument version) where
  sessionId := ⟨_, rfl, rfl⟩
  status := .inr ⟨rfl, rfl⟩
  phase := .inr ⟨rfl, rfl⟩
  startedAt := .inl ⟨_, rfl, rfl⟩
  planFile := .inr ⟨rfl, rfl⟩
  tasks := .inr ⟨rfl, rfl⟩
  decisions := .inr ⟨rfl, rfl⟩
  goal := .inr ⟨rfl, rfl⟩
  derivedRequirements := .inr ⟨rfl, rfl⟩
  frozenProposalId := .inr ⟨rfl, rfl⟩
  frozenContentHash := .inr ⟨rfl, rfl⟩

theorem legacyDocument_execute (version : Int) :
    ExecuteWritten "" legacyExecute (legacyDocument version) where
  sessionId := ⟨_, rfl, rfl⟩
  status := .inr ⟨rfl, rfl⟩
  phase := .inr ⟨rfl, rfl⟩
  startedAt := .inl ⟨_, rfl, rfl⟩
  tasks := .inr ⟨rfl, rfl⟩
  currentTaskIndex := .inr ⟨rfl, rfl⟩

/-- A plan of version 2 is migrated, an execution of version 0 too, but not one of version 1. -/
theorem state_codec_iff_legacy :
    legacyPlan.Migrates "" 2 (legacyDocument 2) ∧ legacyExecute.Migrates "" 0 (legacyDocument 0) ∧
      ¬ legacyExecute.Migrates "" 1 (legacyDocument 1) := by
  obtain ⟨-, -, -, hlegacy⟩ := state_codec_iff legacyPlan legacyExecute { sessionId := "s", startedAt := "t" }
  have hmigrates : ∀ version, 0 ≤ version → version ≤ 3 →
      legacyPlan.Migrates "" version (legacyDocument version) ∧
        (legacyExecute.Migrates "" version (legacyDocument version) ↔ version = 0) := by
    intro version h0 h3
    obtain ⟨hplan, hexecute, -⟩ := hlegacy "" version _ h0 h3 (legacyDocument_hasVersion version)
    exact ⟨hplan (legacyDocument_plan version), hexecute (legacyDocument_execute version)⟩
  refine ⟨(hmigrates 2 (by decide) (by decide)).1, (hmigrates 0 (by decide) (by decide)).2.mpr rfl, ?_⟩
  rw [(hmigrates 1 (by decide) (by decide)).2]
  decide

/-- A plan that has been read from a document of version 2 and is written again no longer says so. -/
def migratedPlan : PlanState := { sessionId := "s", startedAt := "t", migratedFrom := some 2 }

theorem migrated_plan_forgets :
    ¬ ((∀ s : PlanState, s.RoundTrips) ∧ (∀ s : ExecuteState, s.RoundTrips) ∧
      (∀ s : VerifyState, s.RoundTrips) ∧
      ∀ now version data, 0 ≤ version → version ≤ 3 → HasVersion version data →
        (∀ s : PlanState, PlanWritten now s data → s.Migrates now version data) ∧
        (∀ s : ExecuteState, ExecuteWritten now s data → s.Migrates now version data) ∧
        ∀ s : VerifyState, VerifyWritten now s data → s.Migrates now version data) := by
  intro ⟨hplan, _⟩
  have hread : (PlanState.fromJson "" migratedPlan.toJson).map (·.migratedFrom) = .ok none := by rfl
  rw [hplan migratedPlan ""] at hread
  cases hread

end Theorem

end ForkAgent.Workflow.Codec

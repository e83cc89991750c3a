import ForkAgent.Effects.Schedule
import ForkAgent.TaskBoard.Start

/-!
# A board that answers

The task table and the FPEL tables answer by themselves; the clock and the fresh ids are fixed by
what a schedule says of each call.
-/

namespace ForkAgent.TaskBoard

open Effects Storage Fpel

/-- The time and the fresh id that a call is given. -/
structure Surroundings where
  now : Int := 0
  hex : String := "task-1"

variable (ω : Surroundings)

def respondTask : (c : TaskCall) → TaskStore → Except Exn c.Value × TaskStore
  | .save task, s => (.ok (), s.save task)
  | .casSave task expected, s =>
    (.ok (s.orchestrationTasks.any (TaskStore.guarded task expected)), s.casSave task expected)
  | .getById taskId, s => (.ok (s.orchestrationTasks.find? fun t => t.val.id == taskId), s)
  | .getByIds taskIds, s => (.ok (s.orchestrationTasks.filter fun t => t.val.id ∈ taskIds), s)
  | .listByStatus status, s =>
    (.ok (orderDesc (·.val.createdAt) (s.orchestrationTasks.filter fun t => t.val.status == status)), s)
  | .listBlocked, s =>
    (.ok (orderDesc (·.val.createdAt) (s.orchestrationTasks.filter fun t => t.val.blockedBy ≠ [])), s)
  | .uuid4Hex, s => (.ok ω.hex, s)
  | .nowMs, s => (.ok ω.now, s)

def settle {S : Type} (result : Except Exn S) (s : S) : Except Exn Unit × S :=
  match result with
  | .ok s' => (.ok (), s')
  | .error e => (.error e, s)

theorem settle_transaction {S : Type} (result : Except Exn S) (s : S) :
    Transaction result s (settle result s).1 (settle result s).2 := by
  cases result <;> exact ⟨rfl, rfl⟩

/-- The FPEL tables, but for the reports, of which there are none. -/
def respondFpel (H : Hashing) : (c : FpelCall H) → FpelStore → Option (Except Exn c.Value × FpelStore)
  | .getActiveFrozenProposal targetId, s =>
    some ((orderDesc (·.createdAt) (s.activeRows targetId)).head?.mapM fun row =>
      construct _ row.toFrozenProposalFields, s)
  | .getAllFrozenProposals targetId, s =>
    some ((orderDesc (·.createdAt)
      (s.frozenProposals.filter fun r => r.targetId == targetId)).mapM fun row =>
        construct _ row.toFrozenProposalFields, s)
  | .saveFrozenProposal proposal supersedeIds, s =>
    some (settle ((s.supersede supersedeIds).insertProposal ⟨proposal.val, 0⟩) s)
  | .getSealedVerdict frozenProposalId, s =>
    some ((s.sealedVerdicts.find? fun v => v.frozenProposalId == frozenProposalId).mapM
      (construct _), s)
  | .saveSealedVerdict verdict, s => some (settle (s.insertVerdict verdict.val) s)
  | .getCurrentContentHash targetId, s =>
    some (.ok ((orderDesc (·.createdAt) (s.activeRows targetId)).head?.map (·.contentHash)), s)
  | .getFpelStatus targetId, s =>
    some (.ok ((s.fpelStatus.find? fun r => r.1 == targetId).map (·.2)), s)
  | .saveFpelStatus targetId status, s => some (.ok (), s.upsertStatus targetId status)
  | .markFailed frozenProposalId reason, s =>
    some (settle (s.insertFailure frozenProposalId reason) s)
  | .isFailed frozenProposalId, s => some (.ok (s.failed frozenProposalId), s)
  | .uuid4Hex, s => some (.ok ω.hex, s)
  | .utcNow, s => some (.ok ω.now, s)
  | _, _ => none

def respond (H : Hashing) : (c : (boardSignature H).Call) → TaskStore × FpelStore →
    Option (Except Exn ((boardSignature H).Value c) × (TaskStore × FpelStore))
  | .inl c, s => let answer := respondTask ω c s.1; some (answer.1, answer.2, s.2)
  | .inr c, s => (respondFpel ω H c s.2).map fun answer => (answer.1, s.1, answer.2)

theorem respondTask_serve (c : TaskCall) (s : TaskStore) :
    TaskStore.serve ⟨c, (respondTask ω c s).1⟩ s (respondTask ω c s).2 := by
  cases c with
  | save task => exact ⟨rfl, rfl⟩
  | casSave task expected => exact ⟨rfl, rfl⟩
  | getById taskId => exact ⟨rfl, rfl⟩
  | getByIds taskIds => exact ⟨rfl, _, rfl, .refl _⟩
  | listByStatus status => exact ⟨rfl, _, rfl, orderDesc_ordered _ _⟩
  | listBlocked => exact ⟨rfl, _, rfl, orderDesc_ordered _ _⟩
  | uuid4Hex => exact ⟨rfl, _, rfl⟩
  | nowMs => exact ⟨rfl, _, rfl⟩

theorem respondFpel_serve {H : Hashing} {c : FpelCall H} {s : FpelStore}
    {answer : Except Exn c.Value × FpelStore} (h : respondFpel ω H c s = some answer) :
    FpelStore.serve H ⟨c, answer.1⟩ s answer.2 := by
  cases c <;> cases h
  case getActiveFrozenProposal => exact ⟨rfl, _, head?_latest (orderDesc_ordered _ _), rfl⟩
  case getAllFrozenProposals => exact ⟨rfl, _, orderDesc_ordered _ _, rfl⟩
  case saveFrozenProposal => exact ⟨0, settle_transaction _ _⟩
  case getSealedVerdict => exact ⟨rfl, rfl⟩
  case saveSealedVerdict => exact settle_transaction _ _
  case getCurrentContentHash => exact ⟨rfl, _, head?_latest (orderDesc_ordered _ _), rfl⟩
  case getFpelStatus => exact ⟨rfl, rfl⟩
  case saveFpelStatus => exact ⟨rfl, rfl⟩
  case markFailed => exact settle_transaction _ _
  case isFailed => exact ⟨rfl, rfl⟩
  case uuid4Hex => exact ⟨rfl, _, rfl⟩
  case utcNow => exact ⟨rfl, _, rfl⟩

theorem respond_step {H : Hashing} (ω : Surroundings) (c : (boardSignature H).Call)
    (s : TaskStore × FpelStore) (r : Except Exn ((boardSignature H).Value c))
    (s' : TaskStore × FpelStore) (h : respond ω H c s = some (r, s')) :
    (boardSystem H).step ⟨c, r⟩ s s' := by
  obtain c | c := c
  · cases h
    exact ⟨.inl (respondTask_serve ω c s.1), rfl⟩
  · obtain ⟨answer, hanswer, heq⟩ := Option.map_eq_some_iff.mp h
    cases heq
    exact ⟨.inl (respondFpel_serve ω hanswer), rfl⟩

theorem run_of_play {H : Hashing} {tr tr' : List (boardSystem H).Event}
    {cfg cfg' : (boardSystem H).Config} (run : (boardSystem H).Run tr cfg)
    {moves : List ((boardSystem H).Move Surroundings)}
    (h : (boardSystem H).play (fun ω => respond ω H) moves cfg = some (tr', cfg')) :
    (boardSystem H).Run (tr ++ tr') cfg' :=
  run.play respond_step h

abbrev Moves := List ((boardSystem planHashing).Move Surroundings)

def invoke (i : Nat) (o : BoardOp) : Moves := [.invoke i o]

/-- The next `n` calls of the caller. -/
def calls (i n : Nat) : Moves := List.replicate n (.call i {})

/-- The whole of an operation that makes `n` calls. -/
def perform (i : Nat) (o : BoardOp) (n : Nat) : Moves := invoke i o ++ calls i n

def playBoard (moves : Moves) (cfg : (boardSystem planHashing).Config) :
    Option (List (boardSystem planHashing).Event × (boardSystem planHashing).Config) :=
  (boardSystem planHashing).play (fun ω => respond ω planHashing) moves cfg

def emptyBoard : (boardSystem planHashing).Config := ⟨({}, {}), fun _ => none⟩

end ForkAgent.TaskBoard

import ForkAgent.Launch.Lifecycle
import ForkAgent.Launch.Store

/-!
# Launch system

The ten operations of the lifecycle service under any number of callers. Whatever copy of a launch
an operation has read, a compare-and-set it issues goes along an edge of the transition table, so
every step of the registry does.
-/

namespace ForkAgent.Launch

open Effects Storage

inductive LaunchOp where
  | requestLaunch (request : LaunchRequest)
  | confirmSpawning (launchId : String)
  | confirmActive (launchId backend terminationHandleType terminationHandleValue : String)
      (tmuxPaneId tmuxSession : Option String) (processPid processPgid : Option Int)
  | markFailed (launchId error : String)
  | beginTermination (launchId : String)
  | confirmTerminated (launchId : String)
  | quarantine (launchId reason : String)
  | reconcileExpiredLeases
  | reconcileLostPanes

namespace LaunchOp

def Result : LaunchOp → Type
  | requestLaunch _ => LaunchAttempt
  | reconcileExpiredLeases | reconcileLostPanes => List AgentLaunch
  | _ => Bool

def program : (o : LaunchOp) → LaunchProgram o.Result
  | requestLaunch request => Launch.requestLaunch request
  | confirmSpawning launchId => Launch.confirmSpawning launchId
  | confirmActive launchId backend handleType handleValue paneId session pid pgid =>
    Launch.confirmActive launchId backend handleType handleValue paneId session pid pgid
  | markFailed launchId error => Launch.markFailed launchId error
  | beginTermination launchId => Launch.beginTermination launchId
  | confirmTerminated launchId => Launch.confirmTerminated launchId
  | quarantine launchId reason => Launch.quarantine launchId reason
  | reconcileExpiredLeases => Launch.reconcileExpiredLeases
  | reconcileLostPanes => Launch.reconcileLostPanes

end LaunchOp

def launchSystem : System launchSignature Exn LaunchStore where
  Op := LaunchOp
  Result := LaunchOp.Result
  program := LaunchOp.program
  step := LaunchStore.step
  outside _ _ := False
  initial s := s = {}

section Calls

theorem nowWhen_moving (condition : Bool) :
    Program.OnlyCalls (σ := launchSignature) moving (nowWhen condition) := by
  cases condition
  · trivial
  · exact .bind (.perform trivial) fun _ => trivial

theorem casUpdateStatus_moving {launchId : String} {expected new : LaunchStatus}
    {columns : CasColumns} (h : new ∈ expected.validTransitions) :
    Program.OnlyCalls (σ := launchSignature) moving
      (casUpdateStatus launchId expected new columns) := by
  refine .bind (nowWhen_moving _) fun endedAt => ?_
  refine .bind (nowWhen_moving _) fun spawnStartedAt => ?_
  refine .bind (nowWhen_moving _) fun spawnConfirmedAt => ?_
  exact .perform h

theorem quarantine_moving (launchId reason : String) :
    Program.OnlyCalls (σ := launchSignature) moving (quarantine launchId reason) := by
  refine .bind (.perform trivial) fun launch => ?_
  obtain _ | launch := launch
  · trivial
  dsimp only
  split_ifs with hterminal htransition
  · trivial
  · exact casUpdateStatus_moving (by simpa [AgentLaunch.canTransitionTo] using htransition)
  · trivial

theorem markFailed_moving (launchId error : String) :
    Program.OnlyCalls (σ := launchSignature) moving (markFailed launchId error) := by
  refine .bind (.perform trivial) fun launch => ?_
  obtain _ | launch := launch
  · trivial
  dsimp only
  split_ifs with hterminal htransition
  · trivial
  · exact casUpdateStatus_moving (by simpa [AgentLaunch.canTransitionTo] using htransition)
  · trivial

theorem beginTermination_moving (launchId : String) :
    Program.OnlyCalls (σ := launchSignature) moving (beginTermination launchId) := by
  refine .bind (.perform trivial) fun launch => ?_
  obtain _ | launch := launch
  · trivial
  dsimp only
  split_ifs with htransition
  · exact casUpdateStatus_moving (by simpa [AgentLaunch.canTransitionTo] using htransition)
  · trivial

theorem quarantineEach_moving (reason : AgentLaunch → String) (launches : List AgentLaunch) :
    Program.OnlyCalls (σ := launchSignature) moving (quarantineEach reason launches) := by
  induction launches with
  | nil => trivial
  | cons launch rest ih =>
    refine .bind (quarantine_moving _ _) fun ok => ?_
    exact .bind ih fun quarantined => trivial

theorem walkAncestors_moving (depth : Nat) (visited : List String) (current : Option String) :
    Program.OnlyCalls (σ := launchSignature) moving (walkAncestors depth visited current) := by
  induction depth generalizing visited current with
  | zero => cases current <;> trivial
  | succ depth ih =>
    obtain _ | current := current
    · trivial
    unfold walkAncestors
    split_ifs
    · trivial
    refine .bind (.perform trivial) fun ancestor => ?_
    obtain _ | ancestor := ancestor
    · trivial
    · exact ih _ _

theorem checkParent_moving (parentLaunchId : Option String) (proposedLaunchId : String) :
    Program.OnlyCalls (σ := launchSignature) moving
      (checkParent parentLaunchId proposedLaunchId) := by
  obtain _ | parentLaunchId := parentLaunchId
  · trivial
  change Program.OnlyCalls _ (validateParentLaunchId _ _)
  unfold validateParentLaunchId
  split_ifs
  · trivial
  refine .bind (.perform trivial) fun parent => ?_
  obtain _ | parent := parent
  · trivial
  · exact walkAncestors_moving _ _ _

theorem claimLaunch_allowed (request : LaunchRequest) :
    Program.OnlyCalls (σ := launchSignature) allowed (claimLaunch request) := by
  refine .bind (.perform trivial) fun launchId => ?_
  refine .bind ((checkParent_moving _ _).mono allowed_of_moving) fun refusal => ?_
  obtain _ | reason := refusal
  · refine .bind (.perform trivial) fun now => ?_
    refine .bind (.bind (.perform trivial) fun created => .bind (.perform rfl) fun inserted => ?_)
      fun claimed => ?_
    · split_ifs
      · exact .perform trivial
      · trivial
    · obtain _ | claimed := claimed
      · exact .bind (.perform trivial) fun winner => trivial
      · trivial
  · trivial

theorem requestLaunch_allowed (request : LaunchRequest) :
    Program.OnlyCalls (σ := launchSignature) allowed (requestLaunch request) := by
  refine .handle ?_ fun e => trivial
  refine .bind (.perform trivial) fun existing => ?_
  obtain _ | existing := existing
  · exact claimLaunch_allowed request
  refine .bind ?_ fun valid => ?_
  · unfold leaseIsValid
    split
    · trivial
    · exact .bind (.perform trivial) fun now => trivial
  · split_ifs
    · trivial
    refine .bind ?_ fun _ => claimLaunch_allowed request
    unfold clearExpired
    split_ifs
    · exact .bind ((quarantine_moving _ _).mono allowed_of_moving) fun _ => trivial
    · trivial

theorem program_moving (o : LaunchOp) (ho : ∀ request, o ≠ .requestLaunch request) :
    Program.OnlyCalls (σ := launchSignature) moving o.program := by
  cases o with
  | requestLaunch request => exact absurd rfl (ho request)
  | confirmSpawning launchId => exact casUpdateStatus_moving (by decide)
  | confirmActive launchId backend handleType handleValue paneId session pid pgid =>
    exact casUpdateStatus_moving (by decide)
  | markFailed launchId error => exact markFailed_moving launchId error
  | beginTermination launchId => exact beginTermination_moving launchId
  | confirmTerminated launchId => exact casUpdateStatus_moving (by decide)
  | quarantine launchId reason => exact quarantine_moving launchId reason
  | reconcileExpiredLeases =>
    refine .bind (.perform trivial) fun now => .bind (.perform trivial) fun expired => ?_
    exact quarantineEach_moving _ _
  | reconcileLostPanes =>
    refine .bind (.perform trivial) fun activeLaunches => ?_
    dsimp only
    split_ifs
    · exact Program.onlyCalls_ret _
    refine .bind (.perform trivial) fun panes => ?_
    obtain _ | panes := panes
    · trivial
    · exact quarantineEach_moving _ _

theorem program_allowed (o : LaunchOp) :
    Program.OnlyCalls (σ := launchSignature) allowed o.program := by
  by_cases ho : ∃ request, o = .requestLaunch request
  · obtain ⟨request, rfl⟩ := ho
    exact requestLaunch_allowed request
  · exact (program_moving o fun request heq => ho ⟨request, heq⟩).mono allowed_of_moving

end Calls

section Claims

/-- The lookup of a request found nothing, or a launch whose lease the clock had passed. -/
def LookedUp (canonicalKey : String) (h : List (Answered launchSignature Exn)) : Prop :=
  .ok (.findActiveByCanonicalKey canonicalKey) none ∈ h ∨
    ∃ (existing : AgentLaunch) (expiresAt now : Int),
      List.Sublist [.ok (.findActiveByCanonicalKey canonicalKey) (some existing), .ok .nowMs now] h ∧
      existing.val.leaseExpiresAt = some expiresAt ∧ expiresAt ≤ now

theorem LookedUp.append {canonicalKey : String} (h : List (Answered launchSignature Exn))
    (a : Answered launchSignature Exn) (hh : LookedUp canonicalKey h) :
    LookedUp canonicalKey (h ++ [a]) := by
  rcases hh with hnone | ⟨existing, expiresAt, now, hsub, hlease, hnow⟩
  · exact .inl (List.mem_append_left _ hnone)
  · exact .inr ⟨existing, expiresAt, now, List.sublist_append_of_sublist_left hsub, hlease, hnow⟩

/-- What a request has read when it inserts a row. -/
def claimGuard (request : LaunchRequest) (h : List (Answered launchSignature Exn)) :
    LaunchCall → Prop
  | .insert row => row.canonicalKey = request.canonicalKey ∧ LookedUp request.canonicalKey h
  | _ => True

theorem claimGuard_of_moving (request : LaunchRequest) (h : List (Answered launchSignature Exn))
    (c : LaunchCall) (hc : moving c) : claimGuard request h c := by
  cases c with
  | insert row => exact hc.elim
  | _ => trivial

/-- A request that answers `claimed` has inserted a row for its key. -/
def claimOutcome (request : LaunchRequest) (h : List (Answered launchSignature Exn))
    (r : Except Exn LaunchAttempt) : Prop :=
  ∀ attempt, r = .ok attempt → attempt.decision = .claimed →
    ∃ row, row.canonicalKey = request.canonicalKey ∧ .ok (.insert row) true ∈ h

theorem claim_guarded (request : LaunchRequest) (launchId : String) (leaseExpiresAt : Int)
    (h : List (Answered launchSignature Exn)) (hlooked : LookedUp request.canonicalKey h) :
    (claim launchId request.canonicalKey request.surface request.ownerType request.ownerId
      leaseExpiresAt (some request.effectiveRole) request.parentLaunchId request.model).Ensures
      (claimGuard request)
      (fun h r => ∀ launch, r = .ok (some launch) →
        ∃ row, row.canonicalKey = request.canonicalKey ∧ .ok (.insert row) true ∈ h) h := by
  refine (Program.ensures_perform_bind _ _).mpr ⟨trivial, fun now => ?_, fun e l hl => nomatch hl⟩
  refine (Program.ensures_perform_bind _ _).mpr ⟨⟨rfl, hlooked.append _ _⟩, fun inserted => ?_,
    fun e l hl => nomatch hl⟩
  obtain _ | _ := inserted
  · exact fun l hl => nomatch hl
  · refine ⟨trivial, ?_⟩
    rintro (e | found)
    · exact fun l hl => nomatch hl
    · intro l _
      refine ⟨_, ?_, List.mem_append_left _ (List.mem_append_right _ (List.mem_singleton_self _))⟩
      rfl

theorem claimLaunch_guarded (request : LaunchRequest) (h : List (Answered launchSignature Exn))
    (hlooked : LookedUp request.canonicalKey h) :
    (claimLaunch request).Ensures (claimGuard request) (claimOutcome request) h := by
  refine (Program.ensures_perform_bind _ _).mpr ⟨trivial, fun launchId => ?_,
    fun e a ha => nomatch ha⟩
  have hparent := (checkParent_moving request.parentLaunchId launchId).keeps (fun h a _ => LookedUp.append h a)
    (fun h c _ hc => claimGuard_of_moving request h c hc) (hlooked.append _ (.ok .uuid4Hex launchId))
  refine hparent.bind (fun h' refusal hlooked' => ?_) fun h' e _ a ha => nomatch ha
  obtain _ | reason := refusal
  swap
  · intro attempt hattempt hdecision
    cases hattempt
    cases hdecision
  refine (Program.ensures_perform_bind _ _).mpr ⟨trivial, fun now => ?_, fun e a ha => nomatch ha⟩
  refine (claim_guarded request launchId _ _ (hlooked'.append _ _)).bind
    (fun h'' claimed hclaimed => ?_) fun h'' e _ a ha => nomatch ha
  obtain _ | claimed := claimed
  · refine (Program.ensures_perform_bind _ _).mpr ⟨trivial, fun winner => ?_,
      fun e a ha => nomatch ha⟩
    intro attempt hattempt hdecision
    cases hattempt
    cases hdecision
  · intro attempt hattempt _
    exact hclaimed claimed rfl

theorem leaseIsValid_guarded (request : LaunchRequest) (existing : AgentLaunch)
    (h : List (Answered launchSignature Exn))
    (hfound : .ok (.findActiveByCanonicalKey request.canonicalKey) (some existing) ∈ h) :
    (leaseIsValid existing).Ensures (claimGuard request)
      (fun h' r => r = .ok false → LookedUp request.canonicalKey h') h := by
  unfold leaseIsValid
  split
  · exact fun hr => nomatch hr
  · next expiresAt hlease =>
    refine (Program.ensures_perform_bind _ _).mpr
      ⟨trivial, fun (now : Int) => ?_, fun e hr => nomatch hr⟩
    intro hr
    have hexpired : ¬ now < expiresAt := of_decide_eq_false (Except.ok.inj hr)
    refine .inr ⟨existing, expiresAt, now, ?_, hlease, Int.not_lt.mp hexpired⟩
    exact (List.singleton_sublist.mpr hfound).append (List.Sublist.refl _)

theorem requestLaunchUnguarded_guarded (request : LaunchRequest) :
    (requestLaunchUnguarded request).Ensures (claimGuard request) (claimOutcome request) [] := by
  refine (Program.ensures_perform_bind _ _).mpr ⟨trivial, fun existing => ?_,
    fun e a ha => nomatch ha⟩
  obtain _ | existing := existing
  · exact claimLaunch_guarded request _ (.inl (by simp))
  refine (leaseIsValid_guarded request existing _ (by simp)).bind (fun h valid hvalid => ?_)
    fun h e _ a ha => nomatch ha
  obtain _ | _ := valid
  · have hclear : Program.OnlyCalls (σ := launchSignature) moving (clearExpired existing) := by
      unfold clearExpired
      split_ifs
      · exact .bind (quarantine_moving _ _) fun _ => trivial
      · trivial
    have hkeeps := hclear.keeps (fun h a _ => LookedUp.append h a)
      (fun h c _ hc => claimGuard_of_moving request h c hc) (hvalid rfl)
    exact hkeeps.bind (fun h' _ hlooked => claimLaunch_guarded request h' hlooked)
      fun h' e _ a ha => nomatch ha
  · intro attempt hattempt hdecision
    cases hattempt
    cases hdecision

theorem requestLaunch_guarded (request : LaunchRequest) :
    (requestLaunch request).Ensures (claimGuard request) (claimOutcome request) [] := by
  refine (requestLaunchUnguarded_guarded request).handle (fun _ _ hok => hok) ?_
  intro h e _ attempt hattempt hdecision
  cases hattempt
  cases hdecision

end Claims

end ForkAgent.Launch

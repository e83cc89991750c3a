import ForkAgent.Effects.Serial
import ForkAgent.Launch.Exclusion
import ForkAgent.Storage.Lineage

/-!
# Delegation lineage

The parents of the registry as a forest. No statement changes a parent or removes a launch, so a
request is the one thing that makes it grow: by a leaf, under a parent whose ancestors it has
walked. The walk counts the parent and gives up at the sixteenth launch.
-/

namespace ForkAgent.Launch

open Effects Storage

namespace LaunchStore

def links (s : LaunchStore) : List (String × Option String) :=
  s.agentLaunchRegistry.map fun r => (r.launchId, r.parentLaunchId)

theorem mem_links {s : LaunchStore} {launchId : String} {parent : Option String} :
    (launchId, parent) ∈ s.links ↔
      ∃ r ∈ s.agentLaunchRegistry, r.launchId = launchId ∧ r.parentLaunchId = parent := by
  simp [links]

theorem mem_links_keys {s : LaunchStore} {launchId : String} :
    launchId ∈ s.links.map Prod.fst ↔ ∃ r ∈ s.agentLaunchRegistry, r.launchId = launchId := by
  simp [links]

/-- A step whose fresh ids belong to no launch yet. -/
def fresh : Semantics launchSignature Exn LaunchStore := fun a s s' =>
  step a s s' ∧ ∀ hex, a = .ok .uuid4Hex hex → hex ∉ s.links.map Prod.fst

variable {s s' : LaunchStore} {a : Answered launchSignature Exn}

theorem casUpdate_links (launchId : String) (expected new : LaunchStatus) (columns : CasColumns) :
    (s.casUpdate launchId expected new columns).links = s.links := by
  simp only [links, casUpdate, updateWhere, List.map_map]
  refine List.map_congr_left fun r _ => ?_
  simp only [Function.comp_apply]
  split_ifs
  · rfl
  · rfl

theorem links_step (h : step a s s') :
    s'.links = s.links ∨ ∃ row, a = .ok (.insert row) true ∧
      row.launchId ∉ s.links.map Prod.fst ∧
      s'.links = s.links ++ [(row.launchId, row.parentLaunchId)] := by
  rcases step_cases h with rfl | ⟨row, ha, hrow, -, hs⟩ | ⟨id, expected, new, columns, -, rfl⟩
  · exact .inl rfl
  · refine .inr ⟨row, ha, fun hmem => ?_, ?_⟩
    · obtain ⟨r, hr, hid⟩ := mem_links_keys.mp hmem
      exact conflicts_eq_false.mp hrow r hr _ rfl (congrArg some hid)
    · rw [links, hs, List.map_append]
      rfl
  · exact .inl (casUpdate_links ..)

theorem links_of_moving (h : step a s s') (ha : moving a.call) : s'.links = s.links := by
  rcases links_step h with heq | ⟨row, rfl, -, -⟩
  · exact heq
  · exact ha.elim

/-- A launch that is read is stored under the id it was asked for; one that is not, is not. -/
theorem getByLaunchId_read {launchId : String} {r : Except Exn (Option AgentLaunch)}
    (h : step ⟨.getByLaunchId launchId, r⟩ s s') :
    s' = s ∧ (r = .ok none → launchId ∉ s.links.map Prod.fst) ∧
      ∀ launch, r = .ok (some launch) → (launchId, launch.val.parentLaunchId) ∈ s.links := by
  rcases h with ⟨rfl, hanswer⟩ | ⟨rfl, m, hm⟩
  swap
  · refine ⟨rfl, fun hr => ?_, fun launch hr => ?_⟩
    · rw [hr] at hm
      cases hm
    · rw [hr] at hm
      cases hm
  refine ⟨rfl, fun hr hmem => ?_, fun launch hr => ?_⟩
  · obtain ⟨row, hrow, hid⟩ := mem_links_keys.mp hmem
    cases hfind : s'.agentLaunchRegistry.find? (fun row => row.launchId == launchId) with
    | none => exact List.find?_eq_none.mp hfind row hrow (by simp [hid])
    | some found =>
      rw [hfind, hr] at hanswer
      cases hconstruct : construct AgentLaunchFields.postInit found with
      | error e => simp [hconstruct] at hanswer
      | ok launch =>
        simp only [Option.mapM_some, hconstruct] at hanswer
        cases hanswer
  · rw [hr] at hanswer
    obtain ⟨row, hfind, hval⟩ := mapM_construct_eq_some.mp hanswer.symm
    refine mem_links.mpr ⟨row, List.mem_of_find?_eq_some hfind, ?_, by rw [hval]⟩
    simpa using List.find?_some hfind

end LaunchStore

section Walk

variable {sem : Semantics launchSignature Exn LaunchStore} {s : LaunchStore} {bound : Nat}

/-- The walk accepts the ancestors that its counter leaves room for, and no others. -/
theorem walkAncestors_always (hsem : ∀ a s s', sem a s s' → LaunchStore.step a s s')
    (hkeys : (s.links.map Prod.fst).Nodup) (depth : Nat) (visited : List String)
    {current : Option String} {ids : List String} (hids : Lineage s.links current ids)
    (hnodup : ids.Nodup) :
    (walkAncestors depth visited current).Always sem (fun _ _ => True) (fun out s' => s' = s ∧
      (out = .ok none → ids.length ≤ depth) ∧
      (ids.length ≤ depth → (∀ id ∈ ids, id ∉ visited) → ∀ reason, out ≠ .ok (some reason))) s := by
  induction depth generalizing visited current ids with
  | zero =>
    cases hids with
    | root => exact ⟨rfl, fun _ => le_refl _, fun _ _ reason hreason => nomatch hreason⟩
    | node linked rest =>
      refine ⟨rfl, fun h => (nomatch h), fun hlength => ?_⟩
      simp at hlength
  | succ depth ih =>
    cases hids with
    | root => exact ⟨rfl, fun _ => Nat.zero_le _, fun _ _ reason hreason => nomatch hreason⟩
    | @node current parent ids linked rest =>
      rw [walkAncestors]
      by_cases hvisited : current ∈ visited
      · rw [if_pos hvisited]
        refine ⟨rfl, fun h => (nomatch h), fun _ hnew => ?_⟩
        exact absurd hvisited (hnew current List.mem_cons_self)
      rw [if_neg hvisited]
      refine (Program.always_perform_bind _ _).mpr ⟨trivial, fun found s' hstep => ?_,
        fun e s' hstep => ?_⟩
      swap
      · obtain ⟨rfl, -⟩ := LaunchStore.getByLaunchId_read (hsem _ _ _ hstep)
        exact ⟨rfl, fun h => (nomatch h), fun _ _ reason hreason => nomatch hreason⟩
      obtain ⟨rfl, hnone, hsome⟩ := LaunchStore.getByLaunchId_read (hsem _ _ _ hstep)
      obtain _ | ancestor := found
      · exact absurd (List.mem_map_of_mem linked) (hnone rfl)
      obtain rfl := parent_unique hkeys linked (hsome ancestor rfl)
      refine (ih (current :: visited) rest (List.nodup_cons.mp hnodup).2).mono
        (fun _ _ _ => trivial) fun out s₁ h => ?_
      obtain ⟨hs, haccepted, hrefused⟩ := h
      refine ⟨hs, fun hout => Nat.succ_le_succ (haccepted hout), fun hlength hnew => ?_⟩
      refine hrefused (Nat.le_of_succ_le_succ hlength) fun id hid hmem => ?_
      rcases List.mem_cons.mp hmem with rfl | hmem
      · exact (List.nodup_cons.mp hnodup).1 hid
      · exact hnew id (List.mem_cons_of_mem _ hid) hmem

/-- A parent that passes has a lineage with room for one more; one that has is not refused. -/
theorem checkParent_always (hsem : ∀ a s s', sem a s s' → LaunchStore.step a s s')
    (hlinks : BoundedForest bound s.links) (parentLaunchId : Option String)
    (proposedLaunchId : String) :
    (checkParent parentLaunchId proposedLaunchId).Always sem (fun _ _ => True)
      (fun out s' => s' = s ∧
        (out = .ok none → ∃ ids, Lineage s.links parentLaunchId ids ∧
          ids.length < maxLineageDepth) ∧
        ∀ ids, Lineage s.links parentLaunchId ids → ids.length < maxLineageDepth →
          proposedLaunchId ∉ s.links.map Prod.fst → ∀ reason, out ≠ .ok (some reason)) s := by
  obtain _ | parentLaunchId := parentLaunchId
  · refine ⟨rfl, fun _ => ⟨[], .root, by decide⟩, fun _ _ _ _ reason hreason => nomatch hreason⟩
  change (validateParentLaunchId _ _).Always _ _ _ _
  rw [validateParentLaunchId]
  by_cases hself : parentLaunchId = proposedLaunchId
  · rw [if_pos hself]
    refine ⟨rfl, fun h => (nomatch h), fun ids hids _ hfresh => ?_⟩
    subst hself
    cases hids with
    | node linked _ => exact absurd (List.mem_map_of_mem linked) hfresh
  rw [if_neg hself]
  refine (Program.always_perform_bind _ _).mpr ⟨trivial, fun found s' hstep => ?_,
    fun e s' hstep => ?_⟩
  swap
  · obtain ⟨rfl, -⟩ := LaunchStore.getByLaunchId_read (hsem _ _ _ hstep)
    exact ⟨rfl, fun h => (nomatch h), fun _ _ _ _ reason hreason => nomatch hreason⟩
  obtain ⟨rfl, hnone, hsome⟩ := LaunchStore.getByLaunchId_read (hsem _ _ _ hstep)
  obtain _ | parent := found
  · refine ⟨rfl, fun h => (nomatch h), fun ids hids _ _ => ?_⟩
    cases hids with
    | node linked _ => exact absurd (List.mem_map_of_mem linked) (hnone rfl)
  have hlinked := hsome parent rfl
  obtain ⟨ids, hids, hnodup, -⟩ := hlinks.lineage _ _ hlinked
  refine (walkAncestors_always hsem hlinks.keys _ _ hids (List.nodup_cons.mp hnodup).2).mono
    (fun _ _ _ => trivial) fun out s₁ h => ?_
  obtain ⟨hs, haccepted, hrefused⟩ := h
  refine ⟨hs, fun hout => ⟨parentLaunchId :: ids, .node hlinked hids, ?_⟩,
    fun ids' hids' hlength hfresh => ?_⟩
  · have hdepth := haccepted hout
    simp only [List.length_cons, maxLineageDepth] at hdepth ⊢
    omega
  · obtain rfl := hids'.unique hlinks.keys (.node hlinked hids)
    refine hrefused ?_ fun id hid hmem => ?_
    · simp only [List.length_cons, maxLineageDepth] at hlength ⊢
      omega
    · rcases List.mem_pair.mp hmem with rfl | rfl
      · exact (List.nodup_cons.mp hnodup).1 hid
      · exact hfresh (hids.mem_keys _ hid)

end Walk

section Request

variable {s : LaunchStore}

/-- The longest lineage a launch may have. -/
def maxAncestors : Nat := maxLineageDepth - 1

/-- Nothing but a failure of the registry is answered as an error. -/
def RegistryOnly (attempt : LaunchAttempt) : Prop :=
  attempt.decision = .error → ∃ e : Exn, attempt.reason = some s!"Registry error: {e.message}"

theorem moving_always {α : Type} {p : LaunchProgram α}
    (hp : Program.OnlyCalls (σ := launchSignature) moving p) (s : LaunchStore) :
    p.Always LaunchStore.fresh (fun _ _ => True) (fun _ s' => s'.links = s.links) s := by
  have hkept : p.Respects LaunchStore.fresh (fun s s' => s'.links = s.links) :=
    hp.respects (fun _ => rfl) (fun _ _ _ h h' => h'.trans h) fun _ _ _ _ hc h =>
      LaunchStore.links_of_moving h.1 hc
  exact hkept.always s (fun _ _ _ => trivial) fun _ _ h => h

/-- The leaf that a claim adds is under the parent it was given. -/
theorem claim_forest (hlinks : BoundedForest maxAncestors s.links)
    (launchId canonicalKey surface ownerType ownerId : String) (leaseExpiresAt : Int)
    (role parentLaunchId model : Option String) {ids : List String}
    (hids : Lineage s.links parentLaunchId ids) (hlength : ids.length < maxLineageDepth) :
    (claim launchId canonicalKey surface ownerType ownerId leaseExpiresAt role parentLaunchId
      model).Always LaunchStore.fresh (fun _ _ => True)
      (fun _ s' => BoundedForest maxAncestors s'.links) s := by
  refine (Program.always_perform_bind _ _).mpr ⟨trivial, fun now s₁ hclock => ?_,
    fun e s₁ hclock => ?_⟩
  swap
  · rw [LaunchStore.links_of_moving hclock.1 trivial]
    exact hlinks
  have hclocked : s₁.links = s.links := LaunchStore.links_of_moving hclock.1 trivial
  refine (Program.always_perform_bind _ _).mpr ⟨trivial, fun inserted s₂ hinsert => ?_,
    fun e s₂ hinsert => ?_⟩
  swap
  · rcases LaunchStore.links_step hinsert.1 with heq | ⟨row, hrow, -, -⟩
    · rw [heq, hclocked]
      exact hlinks
    · cases hrow
  have hforest : BoundedForest maxAncestors s₂.links := by
    rcases LaunchStore.links_step hinsert.1 with heq | ⟨row, hrow, hnew, heq⟩
    · rw [heq, hclocked]
      exact hlinks
    · cases hrow
      rw [heq, hclocked]
      rw [hclocked] at hnew
      exact hlinks.insert hnew hids (Nat.le_pred_of_lt hlength)
  cases inserted
  · exact hforest
  · have hread := moving_always (p := getByLaunchId launchId) (.perform trivial) s₂
    refine hread.mono (fun _ _ _ => trivial) fun _ s₃ hkept => ?_
    rw [hkept]
    exact hforest

/-- What a request does to the forest, and when it answers an error. -/
def RequestedForest (request : LaunchRequest) (links : List (String × Option String))
    (out : Except Exn LaunchAttempt) (s' : LaunchStore) : Prop :=
  BoundedForest maxAncestors s'.links ∧
    ∀ ids, Lineage links request.parentLaunchId ids → ids.length < maxLineageDepth →
      ∀ attempt, out = .ok attempt → attempt.decision ≠ .error

theorem claimLaunch_forest (hlinks : BoundedForest maxAncestors s.links) (request : LaunchRequest) :
    (claimLaunch request).Always LaunchStore.fresh (fun _ _ => True)
      (RequestedForest request s.links) s := by
  have hsem : ∀ a s s', LaunchStore.fresh a s s' → LaunchStore.step a s s' := fun _ _ _ h => h.1
  refine (Program.always_perform_bind _ _).mpr ⟨trivial, fun launchId s₁ hfresh => ?_,
    fun e s₁ hfresh => ?_⟩
  swap
  · refine ⟨?_, fun _ _ _ _ h => (nomatch h)⟩
    rw [LaunchStore.links_of_moving hfresh.1 trivial]
    exact hlinks
  have hnew : launchId ∉ s.links.map Prod.fst := hfresh.2 launchId rfl
  have hsame : s₁.links = s.links := LaunchStore.links_of_moving hfresh.1 trivial
  rw [← hsame] at hlinks hnew ⊢
  refine (checkParent_always hsem hlinks request.parentLaunchId launchId).bind
    (fun refusal s₂ h => ?_) fun e s₂ h => ?_
  swap
  · rw [h.1]
    exact ⟨hlinks, fun _ _ _ _ h => (nomatch h)⟩
  obtain ⟨rfl, haccepted, hrefused⟩ := h
  obtain _ | reason := refusal
  swap
  · refine ⟨hlinks, fun ids hids hlength => ?_⟩
    exact absurd rfl (hrefused ids hids hlength hnew reason)
  obtain ⟨ids, hids, hlength⟩ := haccepted rfl
  refine (Program.always_perform_bind _ _).mpr ⟨trivial, fun now s₃ hclock => ?_,
    fun e s₃ hclock => ?_⟩
  swap
  · refine ⟨?_, fun _ _ _ _ h => (nomatch h)⟩
    rw [LaunchStore.links_of_moving hclock.1 trivial]
    exact hlinks
  have hclocked : s₃.links = s₂.links := LaunchStore.links_of_moving hclock.1 trivial
  rw [← hclocked] at hids hlinks
  refine (claim_forest hlinks launchId _ _ _ _ _ _ _ _ hids hlength).bind
    (fun claimed s₄ hforest => ?_) fun e s₄ hforest => ?_
  swap
  · exact ⟨hforest, fun _ _ _ _ h => (nomatch h)⟩
  obtain _ | claimed := claimed
  swap
  · refine ⟨hforest, fun _ _ _ attempt hattempt => ?_⟩
    cases hattempt
    exact LaunchDecision.noConfusion
  refine (moving_always (p := findActiveByCanonicalKey request.canonicalKey)
    (.perform trivial) s₄).bind (fun winner s₅ hkept => ?_) fun e s₅ hkept => ?_
  · rw [← hkept] at hforest
    refine ⟨hforest, fun _ _ _ attempt hattempt => ?_⟩
    cases hattempt
    exact LaunchDecision.noConfusion
  · rw [← hkept] at hforest
    exact ⟨hforest, fun _ _ _ _ h => (nomatch h)⟩

theorem leaseIsValid_moving (existing : AgentLaunch) :
    Program.OnlyCalls (σ := launchSignature) moving (leaseIsValid existing) := by
  unfold leaseIsValid
  split
  · trivial
  · exact .bind (.perform trivial) fun now => trivial

theorem clearExpired_moving (existing : AgentLaunch) :
    Program.OnlyCalls (σ := launchSignature) moving (clearExpired existing) := by
  unfold clearExpired
  split_ifs
  · exact .bind (quarantine_moving _ _) fun _ => trivial
  · trivial

theorem requestLaunch_forest (hlinks : BoundedForest maxAncestors s.links)
    (request : LaunchRequest) :
    (requestLaunch request).Always LaunchStore.fresh (fun _ _ => True)
      (fun out s' => BoundedForest maxAncestors s'.links ∧
        ∀ ids, Lineage s.links request.parentLaunchId ids → ids.length < maxLineageDepth →
          ∀ attempt, out = .ok attempt → RegistryOnly attempt) s := by
  have hclaim : ∀ s', s'.links = s.links → (claimLaunch request).Always LaunchStore.fresh
      (fun _ _ => True) (RequestedForest request s.links) s' := by
    intro s' hsame
    rw [← hsame] at hlinks ⊢
    exact claimLaunch_forest hlinks request
  have hrequest : (requestLaunchUnguarded request).Always LaunchStore.fresh (fun _ _ => True)
      (RequestedForest request s.links) s := by
    have hraised : ∀ e s', s'.links = s.links →
        RequestedForest request s.links (.error e) s' := by
      intro e s' hsame
      rw [← hsame] at hlinks
      exact ⟨hlinks, fun _ _ _ _ h => nomatch h⟩
    refine (moving_always (p := findActiveByCanonicalKey request.canonicalKey)
      (.perform trivial) s).bind (fun existing s₁ h₁ => ?_) hraised
    obtain _ | existing := existing
    · exact hclaim s₁ h₁
    refine (moving_always (leaseIsValid_moving existing) s₁).bind (fun valid s₂ h₂ => ?_)
      fun e s₂ h₂ => hraised e s₂ (h₂.trans h₁)
    obtain _ | _ := valid
    swap
    · refine ⟨?_, fun _ _ _ attempt hattempt => ?_⟩
      · rw [h₂, h₁]
        exact hlinks
      · cases hattempt
        exact LaunchDecision.noConfusion
    refine (moving_always (clearExpired_moving existing) s₂).bind (fun _ s₃ h₃ => ?_)
      fun e s₃ h₃ => hraised e s₃ (h₃.trans (h₂.trans h₁))
    exact hclaim s₃ (h₃.trans (h₂.trans h₁))
  refine hrequest.handle (fun attempt s' h => ?_) fun e s' h => ?_
  · refine ⟨h.1, fun ids hids hlength attempt' hattempt hdecision => ?_⟩
    cases hattempt
    exact absurd hdecision (h.2 ids hids hlength attempt rfl)
  · refine ⟨h.1, fun _ _ _ attempt hattempt _ => ?_⟩
    cases hattempt
    exact ⟨e, rfl⟩

end Request

/-- The registries that operations make of the empty one, one after another. -/
inductive Built : LaunchStore → Prop where
  | empty : Built {}
  | operation {s s' : LaunchStore} {o : LaunchOp} {out : Except Exn o.Result} (built : Built s)
      (run : o.program.Runs LaunchStore.fresh s out s') : Built s'

theorem Built.forest {s : LaunchStore} (hs : Built s) : BoundedForest maxAncestors s.links := by
  induction hs with
  | empty => exact .nil
  | @operation s s' o out _ run ih =>
    by_cases ho : ∃ request, o = .requestLaunch request
    · obtain ⟨request, rfl⟩ := ho
      exact (run.always (requestLaunch_forest ih request)).1
    · have hmoving := program_moving o fun request heq => ho ⟨request, heq⟩
      have hkept : s'.links = s.links := run.always (moving_always hmoving s)
      rw [hkept]
      exact ih

/-- Delegation is a bounded forest: from every launch the parents lead, without coming back, to a
launch that has none, past at most fifteen others; and a request under a launch that has fewer
than fifteen ancestors is not refused for its lineage. -/
theorem lineage_bounded {s : LaunchStore} (hs : Built s) :
    (∀ launch ∈ s.agentLaunchRegistry, ∃ ids, Lineage s.links launch.parentLaunchId ids ∧
      (launch.launchId :: ids).Nodup ∧ ids.length ≤ 15) ∧
    ∀ parent ∈ s.agentLaunchRegistry, ∀ ids, Lineage s.links parent.parentLaunchId ids →
      ids.length < 15 → ∀ (request : LaunchRequest) (attempt : LaunchAttempt) (s' : LaunchStore),
        request.parentLaunchId = some parent.launchId →
        (requestLaunch request).Runs LaunchStore.fresh s (.ok attempt) s' →
        attempt.decision = .error →
          ∃ e : Exn, attempt.reason = some s!"Registry error: {e.message}" := by
  have hforest := hs.forest
  refine ⟨fun launch hlaunch => ?_, ?_⟩
  · exact hforest.lineage _ _ (LaunchStore.mem_links.mpr ⟨launch, hlaunch, rfl, rfl⟩)
  · intro parent hparent ids hids hlength request attempt s' hrequest hrun hdecision
    have hlinked := LaunchStore.mem_links.mpr ⟨parent, hparent, rfl, rfl⟩
    have hlineage : Lineage s.links request.parentLaunchId (parent.launchId :: ids) := by
      rw [hrequest]
      exact .node hlinked hids
    exact (hrun.always (requestLaunch_forest hforest request)).2 _ hlineage
      (Nat.succ_lt_succ hlength) attempt rfl hdecision

/-- The answers of the registry, with an id that no launch has yet. -/
def respondFresh (launchId : String) : (c : LaunchCall) → LaunchStore →
    Option (Except Exn c.Value × LaunchStore)
  | .uuid4Hex, s => if launchId ∈ s.links.map Prod.fst then none else some (.ok launchId, s)
  | c, s => some (respondLaunch { launchId } c s)

private theorem respondFresh_fresh (launchId : String) (c : LaunchCall) (s : LaunchStore)
    (r : Except Exn c.Value) (s' : LaunchStore) (h : respondFresh launchId c s = some (r, s')) :
    LaunchStore.fresh ⟨c, r⟩ s s' := by
  have hserve := respondLaunch_serve { launchId } c s
  cases c with
  | uuid4Hex =>
    simp only [respondFresh] at h
    split_ifs at h with hmem
    cases h
    refine ⟨.inl hserve, ?_⟩
    rintro _ ⟨⟩
    exact hmem
  | _ =>
    obtain ⟨rfl, rfl⟩ := Prod.mk.inj (Option.some.inj h)
    exact ⟨.inl hserve, fun _ hhex => nomatch hhex⟩

/-- A launch that is requested under the one before it. -/
def delegate (s : LaunchStore) (n : Nat) : Option LaunchStore :=
  let request := { taskRequest with
    canonicalKey := s!"task:{n}", parentLaunchId := s.agentLaunchRegistry.getLast?.map (·.launchId) }
  ((requestLaunch request).exec (respondFresh s!"launch-{n}") s).map (·.2.2)

private theorem built_delegate {s s' : LaunchStore} {n : Nat} (hs : Built s)
    (h : delegate s n = some s') : Built s' := by
  obtain ⟨⟨out, answers, s₁⟩, hexec, rfl⟩ := Option.map_eq_some_iff.mp h
  exact .operation (o := .requestLaunch _) hs (Program.exec_reaches (respondFresh_fresh _) hexec).runs

private theorem built_delegated {s s' : LaunchStore} {ns : List Nat} (hs : Built s)
    (h : ns.foldlM delegate s = some s') : Built s' := by
  induction ns generalizing s with
  | nil =>
    cases h
    exact hs
  | cons n ns ih =>
    obtain ⟨s₁, h₁, hrest⟩ := Option.bind_eq_some_iff.mp (by simpa using h)
    exact ih (built_delegate hs h₁) hrest

theorem lineage_bounded_task :
    ∃ s, [1, 2, 3].foldlM delegate {} = some s ∧
      (∃ ids, Lineage s.links (some "launch-2") ids ∧ ("launch-3" :: ids).Nodup ∧ ids.length ≤ 15) ∧
      ∀ attempt s', (requestLaunch { taskRequest with parentLaunchId := some "launch-3" }).Runs
        LaunchStore.fresh s (.ok attempt) s' → attempt.decision = .error →
          ∃ e : Exn, attempt.reason = some s!"Registry error: {e.message}" := by
  obtain ⟨s, hdelegated, hlinks⟩ : ∃ s, [1, 2, 3].foldlM delegate {} = some s ∧
      s.links = [("launch-1", none), ("launch-2", some "launch-1"), ("launch-3", some "launch-2")] :=
    ⟨_, rfl, rfl⟩
  obtain ⟨hforest, hrequests⟩ := lineage_bounded (built_delegated .empty hdelegated)
  obtain ⟨third, hthird, hid, hparent⟩ :
      ∃ row ∈ s.agentLaunchRegistry, row.launchId = "launch-3" ∧ row.parentLaunchId = some "launch-2" :=
    LaunchStore.mem_links.mp (by simp [hlinks])
  have hancestors : Lineage s.links third.parentLaunchId ["launch-2", "launch-1"] := by
    rw [hparent, hlinks]
    exact .node (by simp) (.node (by simp) .root)
  refine ⟨s, hdelegated, ?_, fun attempt s' hrun => ?_⟩
  · rw [← hid, ← hparent]
    exact hforest third hthird
  · exact hrequests third hthird _ hancestors (by decide) _ attempt s' (by rw [hid]) hrun

end ForkAgent.Launch

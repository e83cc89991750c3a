import ForkAgent.Launch.Lineage

/-!
# Failing closed

What a request that is answered `error` or `suppressed` leaves in the registry. The launch is
checked only when the claimed row is read back, after the insert has been committed: a request
that reaches its insert with arguments that the entity refuses leaves a reserved row behind.
-/

namespace ForkAgent.Launch

open Effects Storage

namespace LaunchStore

/-- A registry that answers, until the clock shows the deadline, or fails at a call that may fail;
a fresh id is not empty. -/
def servedBy (faults : LaunchCall → Prop) (deadline : Int) :
    Semantics launchSignature Exn LaunchStore := fun a s s' =>
  (serve a s s' ∨ s' = s ∧ faults a.call ∧ ∃ m, a.answer = .error (.repositoryError m)) ∧
    (∀ hex : String, a = .ok .uuid4Hex hex → hex ≠ "") ∧
    ∀ now : Int, a = .ok .nowMs now → now ≤ deadline

/-- The call neither inserts a row nor compares and sets. -/
def asks : LaunchCall → Bool
  | .insert _ | .casUpdate .. => false
  | _ => true

/-- The second row is the first, or the first quarantined because its lease had expired. -/
def Expired (deadline : Int) (r r' : AgentLaunchFields) : Prop :=
  r' = r ∨ (r.status = .reserved ∨ r.status = .spawning) ∧
    ∃ expiresAt, r.leaseExpiresAt = some expiresAt ∧ expiresAt ≤ deadline ∧
      r' = { r with
        status := .quarantined, quarantineReason := some s!"Lease expired at {expiresAt}" }

/-- Two registries that differ at most by launches quarantined for their leases. -/
def OnlyQuarantined (deadline : Int) (s s' : LaunchStore) : Prop :=
  List.Forall₂ (Expired deadline) s.agentLaunchRegistry s'.agentLaunchRegistry

theorem OnlyQuarantined.refl (deadline : Int) (s : LaunchStore) : OnlyQuarantined deadline s s :=
  List.forall₂_same.mpr fun _ _ => .inl rfl

/-- The registry once a launch whose lease has expired is out of the way. -/
def cleared (s : LaunchStore) (existing : AgentLaunch) : LaunchStore :=
  if existing.val.status = .reserved ∨ existing.val.status = .spawning then
    s.casUpdate existing.val.launchId existing.val.status .quarantined
      { quarantineReason := some (leaseExpiredReason existing) }
  else s

variable {s s' : LaunchStore} {faults : LaunchCall → Prop} {deadline : Int} {existing : AgentLaunch}

theorem served_of_ok {c : LaunchCall} {v : c.Value} (h : servedBy faults deadline (.ok c v) s s') :
    serve (.ok c v) s s' := by
  rcases h.1 with h | ⟨-, -, m, hm⟩
  · exact h
  · cases hm

theorem step_of_servedBy {a : Answered launchSignature Exn} (h : servedBy faults deadline a s s') :
    step a s s' := h.1.imp_right fun h => ⟨h.1, h.2.2⟩

theorem servedBy_keeps {c : LaunchCall} {r : Except Exn c.Value}
    (h : servedBy faults deadline ⟨c, r⟩ s s') (hasks : asks c = true) : s' = s := by
  rcases step_cases (step_of_servedBy h) with hsame | ⟨row, hanswer, -⟩ | ⟨_, _, _, _, hcall, -⟩
  · exact hsame
  · rw [show c = .insert row from congrArg Answered.call hanswer] at hasks
    cases hasks
  · rw [show c = _ from hcall] at hasks
    cases hasks

theorem servedBy_other {c : LaunchCall} {r : Except Exn c.Value} (h : serve ⟨c, r⟩ s s')
    (hid : c ≠ .uuid4Hex) (hnow : c ≠ .nowMs) : servedBy faults deadline ⟨c, r⟩ s s' := by
  refine ⟨.inl h, fun hex hhex => ?_, fun now hclock => ?_⟩
  · cases hhex
    exact absurd rfl hid
  · cases hclock
    exact absurd rfl hnow

/-- What reading a launch answers. -/
def read (s : LaunchStore) (launchId : String) : Except Exn (Option AgentLaunch) :=
  (s.agentLaunchRegistry.find? fun row => row.launchId == launchId).mapM (construct _)

theorem find_launchId (hs : s.Indexed) {row : AgentLaunchFields}
    (hrow : row ∈ s.agentLaunchRegistry) :
    s.agentLaunchRegistry.find? (fun r => r.launchId == row.launchId) = some row := by
  obtain ⟨found, hfound⟩ := Option.isSome_iff_exists.mp
    (List.find?_isSome (p := fun r => r.launchId == row.launchId).mpr ⟨row, hrow, by simp⟩)
  have hid : found.launchId = row.launchId := by simpa using List.find?_some hfound
  rw [hfound, hs.eq_of_launchId (List.mem_of_find?_eq_some hfound) hrow hid.symm]

theorem casUpdateStatus_quarantined (launchId : String) (expected : LaunchStatus)
    (columns : CasColumns) (h : columns.endedAt = none) (h' : columns.spawnStartedAt = none)
    (h'' : columns.spawnConfirmedAt = none) :
    casUpdateStatus launchId expected .quarantined columns =
      Launch.casUpdate launchId expected .quarantined columns := by
  obtain ⟨endedAt, spawnStartedAt, spawnConfirmedAt, _⟩ := columns
  cases h
  cases h'
  cases h''
  rfl

theorem getByLaunchId_runs {launchId : String} {out : Except Exn (Option AgentLaunch)} :
    (getByLaunchId launchId).Runs (servedBy faults deadline) s out s' ↔
      s' = s ∧ (out = s.read launchId ∨
        faults (.getByLaunchId launchId) ∧ ∃ m, out = .error (.repositoryError m)) := by
  refine Program.runs_perform.trans ⟨fun h => ?_, fun h => ?_⟩
  · rcases h.1 with ⟨rfl, hread⟩ | ⟨rfl, hfault⟩
    · exact ⟨rfl, .inl hread⟩
    · exact ⟨rfl, .inr hfault⟩
  · obtain ⟨rfl, hread | ⟨hfault, m, rfl⟩⟩ := h
    · exact servedBy_other ⟨rfl, hread⟩ (by simp) (by simp)
    · exact ⟨.inr ⟨rfl, hfault, m, rfl⟩, fun _ h => (nomatch h), fun _ h => (nomatch h)⟩

theorem quarantine_set (hstatus : existing.val.status = .reserved ∨ existing.val.status = .spawning)
    (reason : String) :
    (if existing.val.status.isTerminal then Program.ret false
      else if existing.canTransitionTo .quarantined then
        casUpdateStatus existing.val.launchId existing.val.status .quarantined
          { quarantineReason := some reason }
      else Program.ret false) =
      Launch.casUpdate existing.val.launchId existing.val.status .quarantined
        { quarantineReason := some reason } := by
  have hterminal : existing.val.status.isTerminal = false := by
    rcases hstatus with h | h <;> rw [h] <;> rfl
  have htransition : existing.canTransitionTo .quarantined = true := by
    rcases hstatus with h | h <;> simp [AgentLaunch.canTransitionTo, h, LaunchStatus.validTransitions]
  rw [if_neg (by simp [hterminal]), if_pos htransition, casUpdateStatus_quarantined _ _ _ rfl rfl rfl]

theorem read_existing (hs : s.Indexed) (hmem : existing.val ∈ s.agentLaunchRegistry) :
    s.read existing.val.launchId = .ok (some existing) :=
  mapM_construct_eq_some.mpr ⟨existing.val, find_launchId hs hmem, rfl⟩

theorem quarantine_cases (hs : s.Indexed) (hmem : existing.val ∈ s.agentLaunchRegistry)
    (hstatus : existing.val.status = .reserved ∨ existing.val.status = .spawning) (reason : String)
    {out : Except Exn Bool}
    (h : (quarantine existing.val.launchId reason).Runs (servedBy faults deadline) s out s') :
    s' = s.casUpdate existing.val.launchId existing.val.status .quarantined
        { quarantineReason := some reason } ∨ s' = s ∧ ∃ e, out = .error e := by
  obtain ⟨e, hread, rfl⟩ | ⟨found, s₁, hread, hrest⟩ := Program.runs_bind.mp h
  · exact .inr ⟨(getByLaunchId_runs.mp hread).1, e, rfl⟩
  obtain ⟨rfl, hfound | ⟨-, m, hm⟩⟩ := getByLaunchId_runs.mp hread
  swap
  · cases hm
  rw [read_existing hs hmem] at hfound
  cases hfound
  change (if existing.val.status.isTerminal then Program.ret false
    else if existing.canTransitionTo .quarantined then
      casUpdateStatus existing.val.launchId existing.val.status .quarantined
        { quarantineReason := some reason }
    else Program.ret false : LaunchProgram Bool).Runs _ _ _ _ at hrest
  rw [quarantine_set hstatus] at hrest
  rcases (Program.runs_perform.mp hrest).1 with hserve | ⟨hsame, -, m, hm⟩
  · exact .inl hserve.2
  · exact .inr ⟨hsame, _, hm⟩

theorem quarantine_served (hs : s.Indexed) (hmem : existing.val ∈ s.agentLaunchRegistry)
    (hstatus : existing.val.status = .reserved ∨ existing.val.status = .spawning) (reason : String) :
    (quarantine existing.val.launchId reason).Runs (servedBy faults deadline) s
      (.ok (s.agentLaunchRegistry.any (guarded existing.val.launchId existing.val.status)))
      (s.casUpdate existing.val.launchId existing.val.status .quarantined
        { quarantineReason := some reason }) := by
  refine .bind (getByLaunchId_runs.mpr ⟨rfl, .inl (read_existing hs hmem).symm⟩) ?_
  change (if existing.val.status.isTerminal then Program.ret false
    else if existing.canTransitionTo .quarantined then
      casUpdateStatus existing.val.launchId existing.val.status .quarantined
        { quarantineReason := some reason }
    else Program.ret false : LaunchProgram Bool).Runs _ _ _ _
  rw [quarantine_set hstatus]
  exact Program.runs_perform.mpr (servedBy_other ⟨rfl, rfl⟩ (by simp) (by simp))

theorem clearExpired_cases (hs : s.Indexed) (hmem : existing.val ∈ s.agentLaunchRegistry)
    {out : Except Exn Unit} (h : (clearExpired existing).Runs (servedBy faults deadline) s out s') :
    s' = s.cleared existing ∨ s' = s ∧ ∃ e, out = .error e := by
  unfold clearExpired at h
  unfold cleared
  by_cases hstatus : existing.val.status = .reserved ∨ existing.val.status = .spawning
  swap
  · rw [if_neg hstatus] at h ⊢
    exact .inl h.2
  rw [if_pos hstatus] at h ⊢
  obtain ⟨e, hquarantine, rfl⟩ | ⟨b, s₁, hquarantine, hrest⟩ := Program.runs_bind.mp h
  · rcases quarantine_cases hs hmem hstatus _ hquarantine with hset | ⟨hsame, -⟩
    · exact .inl hset
    · exact .inr ⟨hsame, e, rfl⟩
  · rcases quarantine_cases hs hmem hstatus _ hquarantine with hset | ⟨-, e, he⟩
    · exact .inl (hrest.2.trans hset)
    · cases he

theorem clearExpired_served (hs : s.Indexed) (hmem : existing.val ∈ s.agentLaunchRegistry) :
    (clearExpired existing).Runs (servedBy faults deadline) s (.ok ()) (s.cleared existing) := by
  unfold clearExpired cleared
  by_cases hstatus : existing.val.status = .reserved ∨ existing.val.status = .spawning
  · rw [if_pos hstatus, if_pos hstatus]
    exact .bind (quarantine_served hs hmem hstatus _) ⟨rfl, rfl⟩
  · rw [if_neg hstatus, if_neg hstatus]
    exact ⟨rfl, rfl⟩

/-- No launch of the key is in flight. -/
def Free (s : LaunchStore) (canonicalKey : String) : Prop :=
  ∀ r ∈ s.agentLaunchRegistry, r.canonicalKey = canonicalKey → r.status.inFlight = false

theorem guarded_existing (hs : s.Indexed) (hmem : existing.val ∈ s.agentLaunchRegistry)
    {r : AgentLaunchFields} (hr : r ∈ s.agentLaunchRegistry) :
    guarded existing.val.launchId existing.val.status r = true ↔ r = existing.val := by
  constructor
  · intro h
    simp only [guarded, Bool.and_eq_true, beq_iff_eq] at h
    exact hs.eq_of_launchId hmem hr h.1
  · rintro rfl
    simp [guarded]

theorem cleared_onlyQuarantined (hs : s.Indexed) (hmem : existing.val ∈ s.agentLaunchRegistry)
    {expiresAt : Int} (hlease : existing.val.leaseExpiresAt = some expiresAt)
    (hexpired : expiresAt ≤ deadline) : OnlyQuarantined deadline s (s.cleared existing) := by
  unfold cleared
  split_ifs with hstatus
  swap
  · exact .refl deadline s
  unfold OnlyQuarantined casUpdate updateWhere
  rw [List.forall₂_map_right_iff, List.forall₂_same]
  intro r hr
  split_ifs with hguard
  · obtain rfl := (guarded_existing hs hmem hr).mp hguard
    refine .inr ⟨hstatus, expiresAt, hlease, hexpired, ?_⟩
    simp only [set, leaseExpiredReason, hlease]
    rfl
  · exact .inl rfl

/-- Out of the way is the launch that was looked up, and no other. -/
theorem free_cleared (hs : s.Indexed) (hmem : existing.val ∈ s.agentLaunchRegistry)
    (canonicalKey : String) :
    (s.cleared existing).Free canonicalKey ↔
      ∀ r ∈ s.agentLaunchRegistry, r.canonicalKey = canonicalKey → r.status.inFlight = true →
        r = existing.val ∧ (r.status = .reserved ∨ r.status = .spawning) := by
  unfold cleared
  split_ifs with hstatus
  · constructor
    · intro hfree r hr hkey hflight
      by_cases hguard : guarded existing.val.launchId existing.val.status r = true
      · obtain rfl := (guarded_existing hs hmem hr).mp hguard
        exact ⟨rfl, hstatus⟩
      · have hkept : r ∈ (s.casUpdate existing.val.launchId existing.val.status .quarantined
            { quarantineReason := some (leaseExpiredReason existing) }).agentLaunchRegistry :=
          mem_updateWhere.mpr (.inr ⟨hr, by simpa using hguard⟩)
        rw [hfree r hkept hkey] at hflight
        cases hflight
    · intro hsole r' hr' hkey
      rcases mem_updateWhere.mp hr' with ⟨r, -, -, rfl⟩ | ⟨hr, hguard⟩
      · rfl
      · by_contra hflight
        obtain ⟨rfl, -⟩ := hsole r' hr hkey (by simpa using hflight)
        simp [guarded] at hguard
  · constructor
    · intro hfree r hr hkey hflight
      rw [hfree r hr hkey] at hflight
      cases hflight
    · intro hsole r hr hkey
      by_contra hflight
      obtain ⟨rfl, hreserved⟩ := hsole r hr hkey (by simpa using hflight)
      exact hstatus hreserved

theorem cleared_links : (s.cleared existing).links = s.links := by
  unfold cleared
  split_ifs
  · exact casUpdate_links ..
  · rfl

/-- The parent of a launch, as reading the launch tells it. -/
def readParent (s : LaunchStore) (launchId : String) : Except Exn (Option (Option String)) :=
  (s.read launchId).map (Option.map (·.val.parentLaunchId))

theorem construct_parent_congr {r r' : AgentLaunchFields} (hpost : r'.postInit = r.postInit)
    (hparent : r'.parentLaunchId = r.parentLaunchId) :
    (construct AgentLaunchFields.postInit r').map (·.val.parentLaunchId) =
      (construct AgentLaunchFields.postInit r).map (·.val.parentLaunchId) := by
  cases h : r.postInit with
  | ok u =>
    rw [construct_of_postInit h, construct_of_postInit (hpost.trans h)]
    exact congrArg Except.ok hparent
  | error e => rw [construct_of_error h, construct_of_error (hpost.trans h)]

/-- The entity does not look at what quarantine writes. -/
theorem readParent_cleared (launchId : String) :
    (s.cleared existing).readParent launchId = s.readParent launchId := by
  unfold cleared
  split_ifs
  swap
  · rfl
  unfold readParent read casUpdate updateWhere
  generalize hset : (fun r : AgentLaunchFields =>
    if guarded existing.val.launchId existing.val.status r then
      set .quarantined { quarantineReason := some (leaseExpiredReason existing) } r else r) = f
  have hf : ∀ r, (f r).launchId = r.launchId ∧ (f r).postInit = r.postInit ∧
      (f r).parentLaunchId = r.parentLaunchId := by
    intro r
    subst hset
    dsimp only
    split_ifs
    · exact ⟨rfl, rfl, rfl⟩
    · exact ⟨rfl, rfl, rfl⟩
  have hid : ((fun row : AgentLaunchFields => row.launchId == launchId) ∘ f) =
      fun row => row.launchId == launchId := by
    funext row
    simp [(hf row).1]
  dsimp only
  rw [List.find?_map, hid]
  cases hfind : s.agentLaunchRegistry.find? fun row => row.launchId == launchId with
  | none => rfl
  | some row =>
    have hcongr := construct_parent_congr (hf row).2.1 (hf row).2.2
    simp only [Option.map_some, Option.mapM_some]
    cases h : construct AgentLaunchFields.postInit row with
    | error e =>
      rw [h] at hcongr
      cases h' : construct AgentLaunchFields.postInit (f row) with
      | error e' =>
        rw [h'] at hcongr
        cases hcongr
        rfl
      | ok v =>
        rw [h'] at hcongr
        cases hcongr
    | ok u =>
      rw [h] at hcongr
      cases h' : construct AgentLaunchFields.postInit (f row) with
      | error e' =>
        rw [h'] at hcongr
        cases hcongr
      | ok v =>
        rw [h'] at hcongr
        have hsame : v.val.parentLaunchId = u.val.parentLaunchId := Except.ok.inj hcongr
        change Except.ok (some v.val.parentLaunchId) = Except.ok (some u.val.parentLaunchId)
        rw [hsame]

/-- Reading a launch answers what is stored, unless it fails, and changes nothing. -/
structure Reads (sem : Semantics launchSignature Exn LaunchStore) (s : LaunchStore) : Prop where
  served : ∀ launchId, sem ⟨.getByLaunchId launchId, s.read launchId⟩ s s
  cases : ∀ {launchId r s'}, sem ⟨.getByLaunchId launchId, r⟩ s s' →
    s' = s ∧ (r = s.read launchId ∨ ∃ e, r = .error e)

theorem serve_reads (s : LaunchStore) : Reads serve s where
  served _ := ⟨rfl, rfl⟩
  cases h := ⟨h.1, .inl h.2⟩

theorem servedBy_reads (faults : LaunchCall → Prop) (deadline : Int) (s : LaunchStore) :
    Reads (servedBy faults deadline) s where
  served _ := servedBy_other ⟨rfl, rfl⟩ (by simp) (by simp)
  cases h := by
    rcases h.1 with ⟨rfl, hread⟩ | ⟨rfl, -, m, hm⟩
    · exact ⟨rfl, .inl hread⟩
    · exact ⟨rfl, .inr ⟨_, hm⟩⟩

variable {sem sem₂ : Semantics launchSignature Exn LaunchStore} {s₂ : LaunchStore}

/-- Two registries that read alike but for the statuses answer a read alike. -/
theorem read_transfer {launchId : String} (hread : s₂.readParent launchId = s.readParent launchId) :
    (∀ e, s.read launchId = .error e → s₂.read launchId = .error e) ∧
      (s.read launchId = .ok none → s₂.read launchId = .ok none) ∧
      ∀ launch, s.read launchId = .ok (some launch) →
        ∃ launch₂, s₂.read launchId = .ok (some launch₂) ∧
          launch₂.val.parentLaunchId = launch.val.parentLaunchId := by
  unfold readParent at hread
  refine ⟨fun e h => ?_, fun h => ?_, fun launch h => ?_⟩
  · rw [h] at hread
    rcases h₂ : s₂.read launchId with e₂ | found
    · rw [h₂] at hread
      cases hread
      rfl
    · rw [h₂] at hread
      cases hread
  · rw [h] at hread
    rcases h₂ : s₂.read launchId with e₂ | _ | launch₂
    · rw [h₂] at hread
      cases hread
    · rfl
    · rw [h₂] at hread
      exact nomatch Except.ok.inj hread
  · rw [h] at hread
    rcases h₂ : s₂.read launchId with e₂ | _ | launch₂
    · rw [h₂] at hread
      cases hread
    · rw [h₂] at hread
      exact nomatch Except.ok.inj hread
    · rw [h₂] at hread
      exact ⟨launch₂, rfl, Option.some.inj (Except.ok.inj hread)⟩

/-- A walk along the ancestors changes nothing, and another registry that reads alike answers it
alike unless it fails. -/
theorem walkAncestors_transfer (hsem : Reads sem s) (hsem₂ : Reads sem₂ s₂)
    (hread : ∀ launchId, s₂.readParent launchId = s.readParent launchId) (depth : Nat)
    (visited : List String) (current : Option String) {out : Except Exn (Option String)}
    (h : (walkAncestors depth visited current).Runs sem s out s') :
    s' = s ∧ ((∃ e, out = .error e) ∨
      (walkAncestors depth visited current).Runs sem₂ s₂ out s₂) := by
  induction depth generalizing visited current with
  | zero =>
    cases current with
    | none => exact ⟨h.2, .inr ⟨h.1, rfl⟩⟩
    | some current => exact ⟨h.2, .inr ⟨h.1, rfl⟩⟩
  | succ depth ih =>
    obtain _ | current := current
    · exact ⟨h.2, .inr ⟨h.1, rfl⟩⟩
    rw [walkAncestors] at h ⊢
    by_cases hvisited : current ∈ visited
    · rw [if_pos hvisited] at h ⊢
      exact ⟨h.2, .inr ⟨h.1, rfl⟩⟩
    rw [if_neg hvisited] at h ⊢
    obtain ⟨-, hnone, hsome⟩ := read_transfer (hread current)
    obtain ⟨e | found, s₁, hstep, hrest⟩ := h
    · exact ⟨hrest.2.trans (hsem.cases hstep).1, .inl ⟨e, hrest.1⟩⟩
    obtain ⟨rfl, hfound | ⟨e, he⟩⟩ := hsem.cases hstep
    swap
    · cases he
    have hserved := hsem₂.served current
    obtain _ | ancestor := found
    · rw [hnone hfound.symm] at hserved
      exact ⟨hrest.2, .inr ⟨.ok none, s₂, hserved, hrest.1, rfl⟩⟩
    · obtain ⟨ancestor₂, hr₂, hparent⟩ := hsome ancestor hfound.symm
      rw [hr₂] at hserved
      obtain ⟨hs, hrun⟩ := ih _ _ hrest
      rw [← hparent] at hrun
      exact ⟨hs, hrun.imp_right fun hrun => ⟨.ok (some ancestor₂), s₂, hserved, hrun⟩⟩

theorem checkParent_transfer (hsem : Reads sem s) (hsem₂ : Reads sem₂ s₂)
    (hread : ∀ launchId, s₂.readParent launchId = s.readParent launchId)
    (parentLaunchId : Option String) (proposedLaunchId : String) {out : Except Exn (Option String)}
    (h : (checkParent parentLaunchId proposedLaunchId).Runs sem s out s') :
    s' = s ∧ ((∃ e, out = .error e) ∨
      (checkParent parentLaunchId proposedLaunchId).Runs sem₂ s₂ out s₂) := by
  obtain _ | parentLaunchId := parentLaunchId
  · exact ⟨h.2, .inr ⟨h.1, rfl⟩⟩
  change (validateParentLaunchId _ _).Runs _ _ _ _ at h
  change s' = s ∧ (_ ∨ (validateParentLaunchId _ _).Runs _ _ _ _)
  rw [validateParentLaunchId] at h ⊢
  by_cases hself : parentLaunchId = proposedLaunchId
  · rw [if_pos hself] at h ⊢
    exact ⟨h.2, .inr ⟨h.1, rfl⟩⟩
  rw [if_neg hself] at h ⊢
  obtain ⟨-, hnone, hsome⟩ := read_transfer (hread parentLaunchId)
  obtain ⟨e | found, s₁, hstep, hrest⟩ := h
  · exact ⟨hrest.2.trans (hsem.cases hstep).1, .inl ⟨e, hrest.1⟩⟩
  obtain ⟨rfl, hfound | ⟨e, he⟩⟩ := hsem.cases hstep
  swap
  · cases he
  have hserved := hsem₂.served parentLaunchId
  obtain _ | parent := found
  · rw [hnone hfound.symm] at hserved
    exact ⟨hrest.2, .inr ⟨.ok none, s₂, hserved, hrest.1, rfl⟩⟩
  · obtain ⟨parent₂, hr₂, hparent⟩ := hsome parent hfound.symm
    rw [hr₂] at hserved
    obtain ⟨hs, hrun⟩ := walkAncestors_transfer hsem hsem₂ hread _ _ _ hrest
    rw [← hparent] at hrun
    exact ⟨hs, hrun.imp_right fun hrun => ⟨.ok (some parent₂), s₂, hserved, hrun⟩⟩

theorem checkParent_accepts (hsem : Reads sem s) (hsem₂ : Reads sem₂ s₂)
    (hread : ∀ launchId, s₂.readParent launchId = s.readParent launchId)
    {parentLaunchId : Option String} {proposedLaunchId : String}
    (h : (checkParent parentLaunchId proposedLaunchId).Runs sem s (.ok none) s') :
    (checkParent parentLaunchId proposedLaunchId).Runs sem₂ s₂ (.ok none) s₂ := by
  rcases (checkParent_transfer hsem hsem₂ hread _ _ h).2 with ⟨e, he⟩ | hrun
  · cases he
  · exact hrun

theorem checkParent_stored (hsem : Reads sem s) {parent proposedLaunchId : String}
    (h : (checkParent (some parent) proposedLaunchId).Runs sem s (.ok none) s') :
    parent ∈ s.links.map Prod.fst := by
  change (validateParentLaunchId _ _).Runs _ _ _ _ at h
  rw [validateParentLaunchId] at h
  by_cases hself : parent = proposedLaunchId
  · rw [if_pos hself] at h
    cases h.1
  rw [if_neg hself] at h
  obtain ⟨e | found, s₁, hstep, hrest⟩ := h
  · cases hrest.1
  obtain ⟨rfl, hfound | ⟨e, he⟩⟩ := hsem.cases hstep
  swap
  · cases he
  obtain _ | launch := found
  · cases hrest.1
  · obtain ⟨row, hfind, -⟩ := mapM_construct_eq_some.mp hfound.symm
    exact mem_links_keys.mpr
      ⟨row, List.mem_of_find?_eq_some hfind, by simpa using List.find?_some hfind⟩

/-- What lets a row in flight be inserted. -/
theorem insert_eq_true {row : AgentLaunchFields} (hflight : row.status.inFlight = true) :
    s.insert row = .ok (true, s') ↔
      row.canonicalKey ≠ "" ∧ row.launchId ∉ s.links.map Prod.fst ∧ s.Free row.canonicalKey ∧
        (∀ parent, row.parentLaunchId = some parent → parent = row.launchId ∨
          parent ∈ s.links.map Prod.fst) ∧
        s' = ⟨s.agentLaunchRegistry ++ [row]⟩ := by
  have hid : conflicts rowId s.agentLaunchRegistry row = false ↔
      row.launchId ∉ s.links.map Prod.fst := by
    rw [conflicts_eq_false, mem_links_keys]
    simp [rowId]
  have hkey : conflicts inFlightKey s.agentLaunchRegistry row = false ↔
      s.Free row.canonicalKey := by
    rw [conflicts_eq_false]
    constructor
    · intro h r hr hsame
      by_contra hr'
      exact h r hr row.canonicalKey (by simp [inFlightKey, hflight])
        (by simp [inFlightKey, hsame, hr'])
    · intro h r hr k hk hk'
      simp only [inFlightKey, hflight, if_true, Option.some.injEq] at hk
      unfold inFlightKey at hk'
      split_ifs at hk' with hr'
      rw [h r hr ((Option.some.inj hk').trans hk.symm)] at hr'
      cases hr'
  have hparent : (row.parentLaunchId.any fun parent => parent != row.launchId &&
      !s.agentLaunchRegistry.any fun r => r.launchId == parent) = false ↔
      ∀ parent, row.parentLaunchId = some parent →
        parent = row.launchId ∨ parent ∈ s.links.map Prod.fst := by
    cases row.parentLaunchId with
    | none => simp
    | some parent =>
      rw [Option.any_some]
      simp only [Option.some.injEq, forall_eq', mem_links_keys, Bool.and_eq_false_iff,
        bne_eq_false_iff_eq, Bool.not_eq_false', List.any_eq_true, beq_iff_eq]
  unfold insert
  rw [← hid, ← hkey, ← hparent]
  split_ifs with hempty hconflict hrefused
  · simp [hempty]
  · have : ¬ (conflicts rowId s.agentLaunchRegistry row = false ∧
        conflicts inFlightKey s.agentLaunchRegistry row = false) := by
      rintro ⟨h, h'⟩
      simp [h, h'] at hconflict
    constructor
    · intro h
      cases h
    · rintro ⟨-, h, h', -⟩
      exact absurd ⟨h, h'⟩ this
  · constructor
    · intro h
      cases h
    · rintro ⟨-, -, -, h, -⟩
      rw [hrefused] at h
      cases h
  · simp only [Bool.or_eq_true, not_or, Bool.not_eq_true] at hconflict hrefused
    constructor
    · intro h
      cases h
      exact ⟨hempty, hconflict.1, hconflict.2, hrefused, rfl⟩
    · rintro ⟨-, -, -, -, rfl⟩
      rfl

end LaunchStore

/-- The row that a request claims. -/
def LaunchRequest.row (request : LaunchRequest) (launchId : String) (leaseExpiresAt now : Int) :
    AgentLaunchFields :=
  { launchId, canonicalKey := request.canonicalKey, surface := request.surface,
    ownerType := request.ownerType, ownerId := request.ownerId, status := .reserved,
    createdAt := now, reservedAt := some now, leaseExpiresAt := some leaseExpiresAt,
    role := some request.effectiveRole, parentLaunchId := request.parentLaunchId,
    model := request.model }

/-- The arguments are such as the entity accepts. -/
structure LaunchRequest.Valid (request : LaunchRequest) : Prop where
  canonicalKey : AgentLaunchFields.matchesCanonicalKey request.canonicalKey = true
  ownerId : request.ownerId ≠ "" ∧ request.ownerId.length ≤ AgentLaunchFields.maxOwnerIdLength
  ownerType : request.ownerType ∈ AgentLaunchFields.validOwnerTypes
  texts : ∀ text, request.parentLaunchId = some text ∨ request.role = some text ∨
    request.model = some text → strip text ≠ ""

theorem requireText_eq_ok {name : String} {text : Option String} {u : Unit} :
    AgentLaunchFields.requireText name text = .ok u ↔ ∀ t, text = some t → strip t ≠ "" := by
  cases text with
  | none => simp [AgentLaunchFields.requireText]
  | some text => simp [AgentLaunchFields.requireText]

theorem effectiveRole_not_blank (request : LaunchRequest) :
    strip request.effectiveRole ≠ "" ↔ ∀ text, request.role = some text → strip text ≠ "" := by
  unfold LaunchRequest.effectiveRole
  cases request.role with
  | some role => simp
  | none =>
    simp only [Option.getD_none, reduceCtorEq, false_implies, implies_true, iff_true]
    cases hlookup : surfaceRoleDefaults.lookup request.surface with
    | none => decide
    | some role =>
      have hmem : role ∈ surfaceRoleDefaults.map Prod.snd := by
        obtain ⟨before, after, heq, -⟩ := List.lookup_eq_some_iff.mp hlookup
        rw [heq]
        simp
      have hall : ∀ role ∈ surfaceRoleDefaults.map Prod.snd, strip role ≠ "" := by decide
      exact hall role hmem

theorem row_postInit (request : LaunchRequest) (launchId : String) (leaseExpiresAt now : Int) :
    (request.row launchId leaseExpiresAt now).postInit = .ok () ↔
      launchId ≠ "" ∧ request.parentLaunchId ≠ some launchId ∧ request.Valid := by
  have hrole := effectiveRole_not_blank request
  simp only [AgentLaunchFields.postInit, bind_eq_ok, require_eq_ok, requireText_eq_ok,
    decide_eq_true_eq, exists_const]
  simp only [LaunchRequest.row, Option.some.injEq, forall_eq', reduceCtorEq, false_implies,
    implies_true, and_true, hrole]
  constructor
  · rintro ⟨hid, hempty, hkey, howner, hlength, htype, hparent, hself, hrole', hmodel⟩
    refine ⟨hid, hself, hkey, ⟨howner, hlength⟩, htype, fun text htext => ?_⟩
    rcases htext with h | h | h
    · exact hparent text h
    · exact hrole' text h
    · exact hmodel text h
  · rintro ⟨hid, hself, hkey, ⟨howner, hlength⟩, htype, htexts⟩
    refine ⟨hid, fun hempty => ?_, hkey, howner, hlength, htype, fun text h => htexts text (.inl h),
      hself, fun text h => htexts text (.inr (.inl h)), fun text h => htexts text (.inr (.inr h))⟩
    rw [hempty] at hkey
    revert hkey
    decide

section Claim

open LaunchStore

variable {s s' : LaunchStore} {faults : LaunchCall → Prop} {deadline : Int} {request : LaunchRequest}
variable {launchId : String}

theorem read_inserted {row : AgentLaunchFields} (hflight : row.status.inFlight = true)
    (h : s.insert row = .ok (true, s')) :
    s'.read row.launchId = (construct AgentLaunchFields.postInit row).map some := by
  obtain ⟨-, hnew, -, -, rfl⟩ := (insert_eq_true hflight).mp h
  have hnone : s.agentLaunchRegistry.find? (fun r => r.launchId == row.launchId) = none := by
    refine List.find?_eq_none.mpr fun r hr hid => hnew ?_
    exact mem_links_keys.mpr ⟨r, hr, by simpa using hid⟩
  unfold LaunchStore.read
  rw [List.find?_append, hnone]
  simp only [Option.none_or, List.find?_cons, beq_self_eq_true]
  rfl

theorem serve_insert {row : AgentLaunchFields} {r : Except Exn Bool}
    (h : serve ⟨.insert row, r⟩ s s') :
    s' = s ∧ r ≠ .ok true ∨ r = .ok true ∧ s.insert row = .ok (true, s') := by
  cases hinsert : s.insert row with
  | error e =>
    simp only [serve, hinsert] at h
    refine .inl ⟨h.2, fun htrue => ?_⟩
    rw [h.1] at htrue
    cases htrue
  | ok result =>
    obtain ⟨b, s₁⟩ := result
    simp only [serve, hinsert] at h
    obtain ⟨rfl, rfl⟩ := h
    rcases insert_ok hinsert with ⟨rfl, rfl⟩ | ⟨rfl, -⟩
    · exact .inl ⟨rfl, fun htrue => by cases htrue⟩
    · exact .inr ⟨rfl, rfl⟩

theorem nowMs_keeps {r : Except Exn Int} (h : nowMs.Runs (servedBy faults deadline) s r s') : s' = s :=
  servedBy_keeps (Program.runs_perform.mp h) rfl

theorem servedBy_insert {row : AgentLaunchFields} {r : Except Exn Bool}
    (h : servedBy faults deadline ⟨.insert row, r⟩ s s') :
    s' = s ∧ r ≠ .ok true ∨ r = .ok true ∧ s.insert row = .ok (true, s') := by
  rcases h.1 with h | ⟨hsame, -, m, hm⟩
  · exact serve_insert h
  · refine .inl ⟨hsame, fun htrue => ?_⟩
    cases htrue.symm.trans hm

theorem claim_cases {leaseExpiresAt : Int} {out : Except Exn (Option AgentLaunch)}
    (h : (claim launchId request.canonicalKey request.surface request.ownerType request.ownerId
      leaseExpiresAt (some request.effectiveRole) request.parentLaunchId request.model).Runs
      (servedBy faults deadline) s out s') :
    s' = s ∨ ∃ now, s.insert (request.row launchId leaseExpiresAt now) = .ok (true, s') ∧
      (out = s'.read launchId ∨ faults (.getByLaunchId launchId)) := by
  obtain ⟨e, hclock, -⟩ | ⟨now, s₁, hclock, hrest⟩ := Program.runs_bind.mp h
  · exact .inl (nowMs_keeps hclock)
  obtain rfl := nowMs_keeps hclock
  obtain ⟨e, hinsert, -⟩ | ⟨inserted, s₂, hinsert, hread⟩ := Program.runs_bind.mp hrest
  · rcases servedBy_insert (Program.runs_perform.mp hinsert) with ⟨heq, -⟩ | ⟨htrue, -⟩
    · exact .inl heq
    · cases htrue
  rcases servedBy_insert (Program.runs_perform.mp hinsert) with ⟨rfl, hfalse⟩ | ⟨htrue, hinserted⟩
  · obtain _ | _ := inserted
    · exact .inl hread.2
    · exact absurd rfl hfalse
  · cases htrue
    obtain ⟨rfl, hback⟩ := getByLaunchId_runs.mp hread
    exact .inr ⟨now, hinserted, hback.imp_right And.left⟩

theorem claim_inserted {leaseExpiresAt now : Int} (hnow : now ≤ deadline)
    (h : s.insert (request.row launchId leaseExpiresAt now) = .ok (true, s'))
    {out : Except Exn (Option AgentLaunch)}
    (hback : (getByLaunchId launchId).Runs (servedBy faults deadline) s' out s') :
    (claim launchId request.canonicalKey request.surface request.ownerType request.ownerId
      leaseExpiresAt (some request.effectiveRole) request.parentLaunchId request.model).Runs
      (servedBy faults deadline) s out s' := by
  refine .perform_bind (v := now) (t := s) ⟨.inl ⟨rfl, now, rfl⟩, fun _ h => (nomatch h), ?_⟩ ?_
  · intro now' hnow'
    cases hnow'
    exact hnow
  refine .perform_bind (v := true) (t := s') (servedBy_other ?_ (by simp) (by simp)) hback
  change serve ⟨.insert (request.row launchId leaseExpiresAt now), .ok true⟩ s s'
  simp only [serve, h]
  exact ⟨trivial, trivial⟩

/-- A claim leaves the registry alone, or adds the row of the request under an accepted parent. -/
theorem claimLaunch_cases {out : Except Exn LaunchAttempt}
    (h : (claimLaunch request).Runs (servedBy faults deadline) s out s') :
    s' = s ∨ ∃ launchId leaseExpiresAt now, launchId ≠ "" ∧
      (checkParent request.parentLaunchId launchId).Runs (servedBy faults deadline) s (.ok none) s ∧
      s.insert (request.row launchId leaseExpiresAt now) = .ok (true, s') ∧
      (request.Valid → ¬ faults (.getByLaunchId launchId) →
        ∃ attempt, out = .ok attempt ∧ attempt.decision = .claimed) := by
  obtain ⟨e, hid, -⟩ | ⟨launchId, s₁, hid, hrest⟩ := Program.runs_bind.mp h
  · exact .inl (servedBy_keeps (Program.runs_perform.mp hid) rfl)
  have hnonempty := (Program.runs_perform.mp hid).2.1
  obtain rfl := servedBy_keeps (Program.runs_perform.mp hid) rfl
  have hkept : ∀ {refusal s₂}, (checkParent request.parentLaunchId launchId).Runs
      (servedBy faults deadline) s₁ refusal s₂ → s₂ = s₁ := fun hcheck =>
    (checkParent_transfer (servedBy_reads faults deadline s₁) (servedBy_reads faults deadline s₁)
      (fun _ => rfl) _ _ hcheck).1
  obtain ⟨e, hcheck, -⟩ | ⟨refusal, s₂, hcheck, hclaim⟩ := Program.runs_bind.mp hrest
  · exact .inl (hkept hcheck)
  obtain rfl := hkept hcheck
  obtain _ | reason := refusal
  swap
  · exact .inl hclaim.2
  obtain ⟨e, hclock, -⟩ | ⟨now, s₃, hclock, hclaimed⟩ := Program.runs_bind.mp hclaim
  · exact .inl (nowMs_keeps hclock)
  obtain rfl := nowMs_keeps hclock
  have hread : ∀ {now'}, s₃.insert (request.row launchId (now + request.leaseDurationMs) now') =
      .ok (true, s') → request.Valid → ∃ launch, s'.read launchId = .ok (some launch) := by
    intro now' hinserted hvalid
    obtain ⟨-, hnew, -⟩ := (insert_eq_true rfl).mp hinserted
    have hself : request.parentLaunchId ≠ some launchId := by
      intro hself
      rw [hself] at hcheck
      exact hnew (checkParent_stored (servedBy_reads faults deadline s₃) hcheck)
    have hpost := (row_postInit request launchId (now + request.leaseDurationMs) now').mpr
      ⟨hnonempty launchId rfl, hself, hvalid⟩
    have hback := read_inserted rfl hinserted
    rw [construct_of_postInit hpost] at hback
    exact ⟨_, hback⟩
  obtain ⟨e, hrow, hout⟩ | ⟨launch, s₄, hrow, hanswer⟩ := Program.runs_bind.mp hclaimed
  · rcases claim_cases hrow with heq | ⟨now', hinserted, hanswered⟩
    · exact .inl heq
    refine .inr ⟨launchId, _, now', hnonempty launchId rfl, hcheck, hinserted, fun hvalid hfault => ?_⟩
    obtain ⟨launch, hlaunch⟩ := hread hinserted hvalid
    have hanswered := hanswered.resolve_right hfault
    rw [hlaunch] at hanswered
    cases hanswered
  have hend : s' = s₄ ∧ ∀ claimed, launch = some claimed →
      out = .ok { launch := some claimed, decision := .claimed } := by
    obtain _ | claimed := launch
    · obtain ⟨e, hwinner, -⟩ | ⟨winner, s₅, hwinner, hout⟩ := Program.runs_bind.mp hanswer
      · exact ⟨servedBy_keeps (Program.runs_perform.mp hwinner) rfl, fun _ h => nomatch h⟩
      · obtain rfl := servedBy_keeps (Program.runs_perform.mp hwinner) rfl
        exact ⟨hout.2, fun _ h => nomatch h⟩
    · refine ⟨hanswer.2, fun claimed' h => ?_⟩
      cases h
      exact hanswer.1
  obtain ⟨rfl, hclaims⟩ := hend
  rcases claim_cases hrow with heq | ⟨now', hinserted, hanswered⟩
  · exact .inl heq
  refine .inr ⟨launchId, _, now', hnonempty launchId rfl, hcheck, hinserted, fun hvalid hfault => ?_⟩
  obtain ⟨claimed, hclaimed'⟩ := hread hinserted hvalid
  have hanswered := hanswered.resolve_right hfault
  rw [hclaimed'] at hanswered
  exact ⟨_, hclaims claimed (Except.ok.inj hanswered), rfl⟩

theorem claimLaunch_inserted (hid : launchId ≠ "")
    (hcheck : (checkParent request.parentLaunchId launchId).Runs (servedBy faults deadline) s
      (.ok none) s)
    (hinsert : s.insert (request.row launchId (deadline + request.leaseDurationMs) deadline) =
      .ok (true, s')) {e : Exn}
    (hback : (getByLaunchId launchId).Runs (servedBy faults deadline) s' (.error e) s') :
    (claimLaunch request).Runs (servedBy faults deadline) s (.error e) s' := by
  refine .perform_bind (v := launchId) (t := s) ⟨.inl ⟨rfl, _, rfl⟩, ?_, fun _ h => nomatch h⟩ ?_
  · intro hex hhex
    cases hhex
    exact hid
  refine .bind hcheck ?_
  refine .perform_bind (v := deadline) (t := s) ⟨.inl ⟨rfl, _, rfl⟩, fun _ h => (nomatch h), ?_⟩ ?_
  · intro now hnow
    cases hnow
    exact le_refl _
  exact Program.runs_bind.mpr (.inl ⟨e, claim_inserted (le_refl deadline) hinsert hback, rfl⟩)

/-- The read-back fails where the entity refuses the arguments, and where the registry may fail. -/
theorem readBack_fails {leaseExpiresAt now : Int}
    (hinsert : s.insert (request.row launchId leaseExpiresAt now) = .ok (true, s'))
    (hbad : ¬ (request.Valid ∧ ¬ faults (.getByLaunchId launchId))) :
    ∃ e, (getByLaunchId launchId).Runs (servedBy faults deadline) s' (.error e) s' := by
  by_cases hfault : faults (.getByLaunchId launchId)
  · exact ⟨_, getByLaunchId_runs.mpr ⟨rfl, .inr ⟨hfault, "database is locked", rfl⟩⟩⟩
  have hinvalid : ¬ request.Valid := fun hvalid => hbad ⟨hvalid, hfault⟩
  have hread := read_inserted rfl hinsert
  cases hpost : (request.row launchId leaseExpiresAt now).postInit with
  | ok u => exact absurd ((row_postInit _ _ _ _).mp hpost).2.2 hinvalid
  | error e =>
    rw [construct_of_error hpost] at hread
    exact ⟨e, getByLaunchId_runs.mpr ⟨rfl, .inl hread.symm⟩⟩

end Claim

section Request

open LaunchStore

variable {s s' : LaunchStore} {faults : LaunchCall → Prop} {deadline : Int} {request : LaunchRequest}

/-- Whether a request that draws the id can get to its insert: it has a key, the id is new, its
parent is accepted, and what the lookup may find is nothing, or a launch whose lease is over and
without which nothing of the key is in flight. -/
def LaunchStore.Admits (s : LaunchStore) (deadline : Int) (request : LaunchRequest)
    (launchId : String) : Prop :=
  request.canonicalKey ≠ "" ∧
    (launchId ≠ "" ∧ launchId ∉ s.links.map Prod.fst ∧
      (checkParent request.parentLaunchId launchId).Runs serve s (.ok none) s) ∧
    ∃ newest, Latest (·.createdAt) (s.blockingRows request.canonicalKey) newest ∧
      ∀ row, newest = some row → row.postInit = .ok () ∧
        (∃ expiresAt, row.leaseExpiresAt = some expiresAt ∧ expiresAt ≤ deadline) ∧
        ∀ r ∈ s.agentLaunchRegistry, r.canonicalKey = request.canonicalKey →
          r.status.inFlight = true → r = row ∧ (r.status = .reserved ∨ r.status = .spawning)

theorem isBlocking_of_inFlight {status : LaunchStatus} (h : status.inFlight = true) :
    status.isBlocking = true := by
  cases status <;> first | rfl | cases h

theorem free_of_unblocked (h : s.blockingRows request.canonicalKey = []) :
    s.Free request.canonicalKey := by
  intro r hr hkey
  by_contra hflight
  have hblocking := isBlocking_of_inFlight (by simpa using hflight)
  have hmem : r ∈ s.blockingRows request.canonicalKey :=
    List.mem_filter.mpr ⟨hr, by simp [hkey, hblocking]⟩
  rw [h] at hmem
  cases hmem

theorem leaseIsValid_runs {existing : AgentLaunch} {out : Except Exn Bool}
    (h : (leaseIsValid existing).Runs (servedBy faults deadline) s out s') :
    s' = s ∧ (out = .ok false → ∃ expiresAt, existing.val.leaseExpiresAt = some expiresAt ∧
      expiresAt ≤ deadline) := by
  unfold leaseIsValid at h
  split at h
  · refine ⟨h.2, fun hfalse => ?_⟩
    rw [hfalse] at h
    cases h.1
  · next expiresAt hlease =>
    obtain ⟨e, hclock, hout⟩ | ⟨now, s₁, hclock, hrest⟩ := Program.runs_bind.mp h
    · refine ⟨nowMs_keeps hclock, fun hfalse => ?_⟩
      rw [hfalse] at hout
      cases hout
    · have hnow := (Program.runs_perform.mp hclock).2.2
      obtain rfl := nowMs_keeps hclock
      refine ⟨hrest.2, fun hfalse => ⟨expiresAt, hlease, ?_⟩⟩
      have hanswer := hrest.1
      rw [hfalse] at hanswer
      have hexpired : ¬ (now : Int) < expiresAt := of_decide_eq_false (Except.ok.inj hanswer).symm
      exact (Int.not_lt.mp hexpired).trans (hnow now rfl)

/-- What a request leaves: the registry but for expired leases, or the row it has inserted. -/
theorem requestLaunchUnguarded_cases (hs : s.Indexed) {out : Except Exn LaunchAttempt}
    (h : (requestLaunchUnguarded request).Runs (servedBy faults deadline) s out s') :
    OnlyQuarantined deadline s s' ∨ ∃ launchId, s.Admits deadline request launchId ∧
      (request.Valid → ¬ faults (.getByLaunchId launchId) →
        ∃ attempt, out = .ok attempt ∧ attempt.decision = .claimed) := by
  obtain ⟨e, hfind, -⟩ | ⟨found, s₁, hfind, hrest⟩ := Program.runs_bind.mp h
  · rw [servedBy_keeps (Program.runs_perform.mp hfind) rfl]
    exact .inl (.refl deadline s)
  obtain ⟨rfl, newest, hlatest, hfound⟩ := served_of_ok (Program.runs_perform.mp hfind)
  obtain _ | existing := found
  · have hnewest : newest = none := by
      cases newest with
      | none => rfl
      | some row =>
        cases hrow : construct AgentLaunchFields.postInit row with
        | error e => simp [hrow] at hfound
        | ok launch =>
          simp only [Option.mapM_some, hrow] at hfound
          cases hfound
    subst hnewest
    rcases claimLaunch_cases hrest with rfl | ⟨launchId, lease, now, hid, hcheck, hinsert, hvalid⟩
    · exact .inl (.refl deadline _)
    · obtain ⟨hkey, hnew, -⟩ := (insert_eq_true rfl).mp hinsert
      refine .inr ⟨launchId, ⟨hkey, ⟨hid, hnew, ?_⟩, none, hlatest, fun _ h => nomatch h⟩, hvalid⟩
      exact checkParent_accepts (servedBy_reads faults deadline _) (serve_reads _) (fun _ => rfl) hcheck
  obtain ⟨row, rfl, hval⟩ := mapM_construct_eq_some.mp hfound.symm
  have hmem : existing.val ∈ s₁.agentLaunchRegistry := by
    rw [hval]
    exact (List.mem_filter.mp hlatest.1).1
  obtain ⟨e, hlease, -⟩ | ⟨valid, s₂, hlease, hclear⟩ := Program.runs_bind.mp hrest
  · rw [(leaseIsValid_runs hlease).1]
    exact .inl (.refl deadline s₁)
  obtain ⟨rfl, hexpired⟩ := leaseIsValid_runs hlease
  obtain _ | _ := valid
  swap
  · rw [hclear.2]
    exact .inl (.refl deadline s₂)
  obtain ⟨expiresAt, hleased, hover⟩ := hexpired rfl
  have hquarantined := cleared_onlyQuarantined hs hmem hleased hover
  obtain ⟨e, hcleared, -⟩ | ⟨u, s₃, hcleared, hclaim⟩ := Program.runs_bind.mp hclear
  · rcases clearExpired_cases hs hmem hcleared with rfl | ⟨rfl, -⟩
    · exact .inl hquarantined
    · exact .inl (.refl deadline _)
  obtain rfl : s₃ = s₂.cleared existing := by
    rcases clearExpired_cases hs hmem hcleared with hset | ⟨-, e, he⟩
    · exact hset
    · cases he
  rcases claimLaunch_cases hclaim with rfl | ⟨launchId, lease, now, hid, hcheck, hinsert, hvalid⟩
  · exact .inl hquarantined
  obtain ⟨hkey, hnew, hfree, -⟩ := (insert_eq_true rfl).mp hinsert
  rw [cleared_links] at hnew
  refine .inr ⟨launchId, ⟨hkey, ⟨hid, hnew, ?_⟩, some row, hlatest, fun row' hrow' => ?_⟩, hvalid⟩
  · exact checkParent_accepts (servedBy_reads faults deadline _) (serve_reads _)
      (fun launchId => (readParent_cleared launchId).symm) hcheck
  · cases hrow'
    rw [← hval]
    exact ⟨existing.property, ⟨expiresAt, hleased, hover⟩,
      (free_cleared hs hmem _).mp hfree⟩

theorem OnlyQuarantined.length_eq (h : OnlyQuarantined deadline s s') :
    s'.agentLaunchRegistry.length = s.agentLaunchRegistry.length := (List.Forall₂.length_eq h).symm

theorem late_claim (hkey : request.canonicalKey ≠ "") (hfree : s.Free request.canonicalKey)
    {launchId : String} (hbad : ¬ (request.Valid ∧ ¬ faults (.getByLaunchId launchId)))
    (hid : launchId ≠ "") (hnew : launchId ∉ s.links.map Prod.fst)
    (hcheck : (checkParent request.parentLaunchId launchId).Runs (servedBy faults deadline) s
      (.ok none) s) :
    ∃ e s', (claimLaunch request).Runs (servedBy faults deadline) s (.error e) s' ∧
      s'.agentLaunchRegistry.length = s.agentLaunchRegistry.length + 1 := by
  have hstored : ∀ parent, request.parentLaunchId = some parent →
      parent = launchId ∨ parent ∈ s.links.map Prod.fst := by
    intro parent hparent
    rw [hparent] at hcheck
    exact .inr (checkParent_stored (servedBy_reads faults deadline s) hcheck)
  have hinsert := fun leaseExpiresAt now => (insert_eq_true (s := s)
    (rfl : (request.row launchId leaseExpiresAt now).status.inFlight = true)).mpr ⟨hkey, hnew, hfree, hstored, rfl⟩
  obtain ⟨e, hback⟩ : ∃ e, (getByLaunchId launchId).Runs (servedBy faults deadline) _ (.error e) _ :=
    readBack_fails (hinsert _ _) hbad
  exact ⟨e, _, claimLaunch_inserted hid hcheck (hinsert _ _) hback, by simp⟩

theorem late_request (hs : s.Indexed) {launchId : String} (hadmits : s.Admits deadline request launchId)
    (hbad : ¬ (request.Valid ∧ ¬ faults (.getByLaunchId launchId))) :
    ∃ e s', (requestLaunchUnguarded request).Runs (servedBy faults deadline) s (.error e) s' ∧
      s'.agentLaunchRegistry.length = s.agentLaunchRegistry.length + 1 := by
  obtain ⟨hkey, ⟨hid, hnew, hcheck⟩, newest, hlatest, hnewest⟩ := hadmits
  obtain _ | row := newest
  · have hchecked := checkParent_accepts (serve_reads s) (servedBy_reads faults deadline s)
      (fun _ => rfl) hcheck
    obtain ⟨e, s', hrun, hlength⟩ :=
      late_claim hkey (free_of_unblocked hlatest) hbad hid hnew hchecked
    refine ⟨e, s', .perform_bind (v := none) (t := s) ?_ hrun, hlength⟩
    exact servedBy_other ⟨rfl, none, hlatest, rfl⟩ (by simp) (by simp)
  obtain ⟨hpost, ⟨expiresAt, hlease, hover⟩, hsole⟩ := hnewest row rfl
  let existing : AgentLaunch := ⟨row, hpost⟩
  have hmem : existing.val ∈ s.agentLaunchRegistry := (List.mem_filter.mp hlatest.1).1
  have hchecked := checkParent_accepts (serve_reads s)
    (servedBy_reads faults deadline (s.cleared existing)) readParent_cleared hcheck
  have hfree := (free_cleared hs hmem request.canonicalKey).mpr hsole
  rw [← show (s.cleared existing).links = s.links from cleared_links] at hnew
  obtain ⟨e, s', hrun, hlength⟩ := late_claim hkey hfree hbad hid hnew hchecked
  refine ⟨e, s', ?_, ?_⟩
  · refine .perform_bind (v := some existing) (t := s)
      (servedBy_other ⟨rfl, some row, hlatest, ?_⟩ (by simp) (by simp)) ?_
    · exact (mapM_construct_eq_some.mpr ⟨row, rfl, rfl⟩).symm
    refine .bind (b := false) (t := s) ?_ (.bind (clearExpired_served hs hmem) hrun)
    have hlease' : existing.val.leaseExpiresAt = some expiresAt := hlease
    unfold leaseIsValid
    rw [hlease']
    refine .perform_bind (v := deadline) (t := s) ⟨.inl ⟨rfl, _, rfl⟩, fun _ h => (nomatch h), ?_⟩ ?_
    · intro now hnow
      cases hnow
      exact le_refl _
    · exact ⟨congrArg Except.ok (decide_eq_false (Int.not_lt.mpr hover)).symm, rfl⟩
  · rw [hlength, (cleared_onlyQuarantined hs hmem hlease hover).length_eq]

/-- A request that is not claimed leaves the registry alone but for expired leases, whichever of
the calls that may fail do fail. -/
def FailsClosed (faults : LaunchCall → Prop) (deadline : Int) (s : LaunchStore)
    (request : LaunchRequest) : Prop :=
  ∀ attempt s', (requestLaunch request).Runs (servedBy faults deadline) s (.ok attempt) s' →
    attempt.decision = .error ∨ attempt.decision = .suppressed → OnlyQuarantined deadline s s'

end Request

open LaunchStore

/-- A request whose owner type the entity does not know. -/
private def strayRequest : LaunchRequest := { taskRequest with ownerType := "person" }

end ForkAgent.Launch

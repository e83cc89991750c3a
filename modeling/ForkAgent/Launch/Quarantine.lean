import ForkAgent.Launch.Exclusion
import Mathlib.Data.List.Induction

/-!
# Quarantine and relaunch

A quarantined launch keeps the lease it had. It blocks its key as long as the lookup of a request
finds it and its lease has not run out; the lease of a launch that was once active is gone, so
such a launch blocks its key until it leaves quarantine.
-/

namespace ForkAgent.Launch

open Effects Storage LaunchStore

variable {tr : List launchSystem.Event} {cfg : launchSystem.Config}

theorem claim_looked_up (run : launchSystem.Run tr cfg) {canonicalKey : String}
    {pre post : List launchSystem.Event} {e : launchSystem.Event} (htr : tr = pre ++ e :: post)
    (hclaims : Claims canonicalKey e) :
    ∃ request, e.op = .requestLaunch request ∧ request.canonicalKey = canonicalKey ∧
      LookedUp canonicalKey (System.Run.history e.caller pre) := by
  obtain ⟨row, hkey, hanswer⟩ := hclaims
  by_cases hop : ∃ request, e.op = .requestLaunch request
  · obtain ⟨request, hop⟩ := hop
    have hguard : claimGuard request (System.Run.history e.caller pre) e.answered.call := by
      obtain ⟨i, o, a, before, after⟩ := e
      cases hop
      exact run.ensures_event htr (requestLaunch_guarded request)
    rw [hanswer] at hguard
    obtain ⟨hrow, hlooked⟩ := hguard
    have hrequest : request.canonicalKey = canonicalKey := by rw [← hrow, hkey]
    rw [hrequest] at hlooked
    exact ⟨request, hop, hrequest, hlooked⟩
  · have hensures : (launchSystem.program e.op).Ensures (fun _ c => moving c) (fun _ _ => True) [] :=
      (program_moving e.op fun request heq => hop ⟨request, heq⟩).ensures (fun _ _ hc => hc)
        fun _ _ => trivial
    have hmoving := run.ensures_event htr hensures
    rw [hanswer] at hmoving
    exact hmoving.elim

/-- The launch is in the registry, quarantined, and the newest of those that block its key. -/
def Newest (r : AgentLaunchFields) (s : LaunchStore) : Prop :=
  r ∈ s.agentLaunchRegistry ∧
    ∀ r' ∈ s.blockingRows r.canonicalKey, r' ≠ r → r'.createdAt < r.createdAt

theorem mem_blockingRows {s : LaunchStore} {canonicalKey : String} {r : AgentLaunchFields} :
    r ∈ s.blockingRows canonicalKey ↔
      r ∈ s.agentLaunchRegistry ∧ r.canonicalKey = canonicalKey ∧ r.status.isBlocking = true := by
  simp [blockingRows]

/-- An event that neither claims the key nor ends the quarantine leaves the launch the newest. -/
theorem newest_of_event (run : launchSystem.Run tr cfg) {e : launchSystem.Event} (he : e ∈ tr)
    {r : AgentLaunchFields} (hstatus : r.status = .quarantined)
    (hclaims : ¬ Claims r.canonicalKey e) (hstill : r ∈ e.after.agentLaunchRegistry)
    (h : Newest r e.before) : Newest r e.after := by
  refine ⟨hstill, fun r' hr' hne => ?_⟩
  obtain ⟨hmem, hkey, hblocking⟩ := mem_blockingRows.mp hr'
  rcases row_of_step (run.step_of_mem he) (allowed_of_mem run he) hmem with ⟨r₀, hr₀, hmoves⟩ | hins
  swap
  · exact absurd ⟨r', hkey, hins⟩ hclaims
  rcases hmoves with rfl | ⟨hid, hkey₀, hcreated, htransition⟩
  · exact h.2 r' (mem_blockingRows.mpr ⟨hr₀, hkey, hblocking⟩) hne
  have hother : r₀ ≠ r := by
    intro heq
    rw [heq, hstatus] at htransition
    revert htransition hblocking
    cases r'.status <;> simp [LaunchStatus.validTransitions, LaunchStatus.isBlocking]
  have hblocks := LaunchStatus.isBlocking_of_transition htransition
  rw [hcreated]
  exact h.2 r₀ (mem_blockingRows.mpr ⟨hr₀, hkey₀ ▸ hkey, hblocks⟩) hother

theorem quarantined_stays (run : launchSystem.Run tr cfg) {e : launchSystem.Event} (he : e ∈ tr)
    {r : AgentLaunchFields} (hr : r ∈ e.before.agentLaunchRegistry) (hstatus : r.status = .quarantined)
    (hstill : ∃ r' ∈ cfg.store.agentLaunchRegistry, r'.launchId = r.launchId ∧
      r'.status = .quarantined) : r ∈ e.after.agentLaunchRegistry := by
  obtain ⟨r', hr', hmoves⟩ := step_row (run.step_of_mem he) (allowed_of_mem run he) hr
  rcases hmoves with rfl | ⟨hid, -, -, htransition⟩
  · exact hr'
  have hterminal : r'.status.isTerminal = true := by
    rw [hstatus] at htransition
    revert htransition
    cases r'.status <;> simp [LaunchStatus.validTransitions, LaunchStatus.isTerminal]
  obtain ⟨r₂, hr₂, hid₂, -, hsettled⟩ := (settles_of_run run).2 e he r' hr'
  obtain ⟨r₃, hr₃, hid₃, hstatus₃⟩ := hstill
  have heq : r₃ = r₂ := (indexed_of_run run).eq_of_launchId hr₂ hr₃ (by rw [hid₃, hid₂, hid])
  rw [← heq] at hsettled
  rw [hsettled hterminal] at hstatus₃
  rw [hstatus₃] at hterminal
  cases hterminal

/-- From the event `q` to the end of the run the launch `r` is in quarantine. It was the newest
blocking launch of its key when it got there, no request for the key was under way then, and no
clock reading of a later one passes its lease. -/
structure InQuarantine (tr : List launchSystem.Event) (cfg : launchSystem.Config)
    (pre : List launchSystem.Event) (q : launchSystem.Event) (post : List launchSystem.Event)
    (r : AgentLaunchFields) : Prop where
  trace : tr = pre ++ q :: post
  status : r.status = .quarantined
  newest : Newest r q.after
  still : ∃ r' ∈ cfg.store.agentLaunchRegistry, r'.launchId = r.launchId ∧
    r'.status = .quarantined
  idle : ∀ d ∈ pre ++ [q], ∀ e ∈ post, d.caller = e.caller → ∀ request,
    d.op = .requestLaunch request → request.canonicalKey ≠ r.canonicalKey
  lease : ∀ e ∈ post, ∀ request, e.op = .requestLaunch request →
    request.canonicalKey = r.canonicalKey → ∀ (now expiresAt : Int), e.answered = .ok .nowMs now →
      r.leaseExpiresAt = some expiresAt → now < expiresAt

section InQuarantine

variable {pre post : List launchSystem.Event} {q : launchSystem.Event} {r : AgentLaunchFields}

theorem InQuarantine.newest_before (run : launchSystem.Run tr cfg)
    (h : InQuarantine tr cfg pre q post r) {mid rest : List launchSystem.Event}
    {l : launchSystem.Event} (hpost : post = mid ++ l :: rest)
    (hclaims : ∀ e ∈ mid, ¬ Claims r.canonicalKey e) : Newest r l.before := by
  by_contra hnot
  have htr : tr = pre ++ q :: (mid ++ l :: rest) := by rw [h.trace, hpost]
  obtain ⟨x, hx, hbefore, hafter⟩ :=
    run.undone_between (fun s s' hout _ => hout.elim) htr h.newest hnot
  have hxtr : x ∈ tr := by simp [htr, hx]
  have hstill := quarantined_stays run hxtr hbefore.1 h.status h.still
  exact hafter (newest_of_event run hxtr h.status (hclaims x hx) hstill hbefore)

/-- What the lookup of a request answers while the launch is the newest that blocks the key. -/
theorem find_newest {s s' : LaunchStore} {existing : Option AgentLaunch} (hnewest : Newest r s)
    (hstatus : r.status = .quarantined)
    (h : LaunchStore.step (.ok (.findActiveByCanonicalKey r.canonicalKey) existing) s s') :
    ∃ launch : AgentLaunch, existing = some launch ∧ launch.val = r := by
  rcases h with ⟨rfl, row, hlatest, hanswer⟩ | ⟨-, m, hm⟩
  swap
  · cases hm
  have hblocks : r ∈ s'.blockingRows r.canonicalKey :=
    mem_blockingRows.mpr ⟨hnewest.1, rfl, by rw [hstatus]; rfl⟩
  cases row with
  | none =>
    rw [show s'.blockingRows r.canonicalKey = [] from hlatest] at hblocks
    cases hblocks
  | some row =>
    have hrow : row = r := by
      by_contra hne
      have hlt := hnewest.2 row hlatest.1 hne
      have hle : r.createdAt ≤ row.createdAt := hlatest.2 r hblocks
      omega
    subst hrow
    cases existing with
    | none =>
      cases hc : construct AgentLaunchFields.postInit row with
      | error e => simp [hc] at hanswer
      | ok v =>
        simp only [Option.mapM_some, hc] at hanswer
        exact nomatch hanswer
    | some launch =>
      obtain ⟨_, heq, hval⟩ := mapM_construct_eq_some.mp hanswer.symm
      cases heq
      exact ⟨launch, rfl, hval⟩

theorem InQuarantine.first_claim (run : launchSystem.Run tr cfg)
    (h : InQuarantine tr cfg pre q post r) {mid rest : List launchSystem.Event}
    {e : launchSystem.Event} (hpost : post = mid ++ e :: rest)
    (hclaims : ∀ x ∈ mid, ¬ Claims r.canonicalKey x) : ¬ Claims r.canonicalKey e := by
  intro he
  have htr : tr = (pre ++ q :: mid) ++ e :: rest := by rw [h.trace, hpost]; simp
  obtain ⟨request, hop, hkey, hlooked⟩ := claim_looked_up run htr he
  have hetr : e ∈ tr := by simp [htr]
  -- whatever the request has read it has read after the launch was quarantined
  have hmid : ∀ l ∈ pre ++ q :: mid, l.caller = e.caller → l ∈ mid ∧ l.op = .requestLaunch request := by
    intro l hl hcaller
    have hltr : l ∈ tr := by rw [htr]; exact List.mem_append_left _ hl
    have hlop : l.op = .requestLaunch request := by rw [run.op_eq hltr hetr hcaller, hop]
    refine ⟨?_, hlop⟩
    by_contra hnot
    have hearly : l ∈ pre ++ [q] := by
      rcases List.mem_append.mp hl with hl | hl
      · exact List.mem_append_left _ hl
      · rcases List.mem_cons.mp hl with rfl | hl
        · simp
        · exact absurd hl hnot
    exact h.idle l hearly e (by simp [hpost]) hcaller request hlop hkey
  have hlookup : ∀ l ∈ mid, ∀ existing : Option AgentLaunch,
      l.answered = .ok (.findActiveByCanonicalKey r.canonicalKey) existing →
        ∃ launch : AgentLaunch, existing = some launch ∧ launch.val = r := by
    intro l hl existing hanswer
    obtain ⟨l₁, l₂, hsplit⟩ := List.append_of_mem hl
    have hnewest : Newest r l.before := by
      have hbefore : post = l₁ ++ l :: (l₂ ++ e :: rest) := by simp [hpost, hsplit]
      refine h.newest_before run hbefore ?_
      exact fun x hx => hclaims x (by simp [hsplit, hx])
    have hstep := run.step_of_mem (show l ∈ tr by simp [htr, hl])
    rw [hanswer] at hstep
    exact find_newest hnewest h.status hstep
  rcases hlooked with hnone | ⟨existing, expiresAt, now, hsub, hlease, hnow⟩
  · obtain ⟨l, hl, hanswer⟩ := List.mem_map.mp hnone
    obtain ⟨hlmem, hcaller⟩ := System.Run.mem_own.mp hl
    obtain ⟨launch, hlaunch, -⟩ := hlookup l (hmid l hlmem hcaller).1 none hanswer
    cases hlaunch
  · obtain ⟨es, hes, hcallers, hanswers⟩ := System.Run.events_of_history hsub
    obtain ⟨l, es, rfl, hl, hanswers⟩ := List.map_eq_cons_iff.mp hanswers
    obtain ⟨n, es, rfl, hn, -⟩ := List.map_eq_cons_iff.mp hanswers
    have hlmid := (hmid l (hes.subset (by simp)) (hcallers l (by simp))).1
    have hnmid := hmid n (hes.subset (by simp)) (hcallers n (by simp))
    obtain ⟨launch, hlaunch, hval⟩ := hlookup l hlmid (some existing) hl
    cases hlaunch
    rw [hval] at hlease
    have hlt := h.lease n (by simp [hpost, hnmid.1]) request hnmid.2 hkey now expiresAt hn hlease
    omega

theorem InQuarantine.no_claim (run : launchSystem.Run tr cfg)
    (h : InQuarantine tr cfg pre q post r) : ∀ e ∈ post, ¬ Claims r.canonicalKey e := by
  suffices hle : ∀ mid rest, post = mid ++ rest → ∀ e ∈ mid, ¬ Claims r.canonicalKey e from
    hle post [] (by simp)
  intro mid
  induction mid using List.reverseRecOn with
  | nil => simp
  | append_singleton mid e ih =>
    intro rest hpost x hx
    have hpost' : post = mid ++ e :: rest := by simp [hpost]
    have hmid := ih (e :: rest) hpost'
    rcases List.mem_append.mp hx with hx | hx
    · exact hmid x hx
    · rw [List.mem_singleton.mp hx]
      exact h.first_claim run hpost' hmid

/-- A quarantined launch blocks its key until it leaves quarantine or its lease has run out: no
request for the key that starts while it is the newest blocking launch is answered `claimed`. -/
theorem quarantine_blocks_relaunch (run : launchSystem.Run tr cfg)
    (h : InQuarantine tr cfg pre q post r) {i : Nat} {request : LaunchRequest}
    {attempt : LaunchAttempt} (hkey : request.canonicalKey = r.canonicalKey)
    (hstarted : ∀ e ∈ pre ++ [q], e.caller ≠ i)
    (hsession : cfg.sessions i = some ⟨.requestLaunch request, .ret attempt⟩) :
    attempt.decision ≠ .claimed := by
  intro hdecision
  obtain ⟨e, he, hcaller, hclaims⟩ := claims_of_session run hsession hdecision
  rw [hkey] at hclaims
  have hpost : e ∈ post := by
    rw [h.trace] at he
    rcases List.mem_append.mp he with he | he
    · exact absurd hcaller (hstarted e (List.mem_append_left _ he))
    · rcases List.mem_cons.mp he with rfl | he
      · exact absurd hcaller (hstarted e (by simp))
      · exact he
  exact h.no_claim run e hpost hclaims

end InQuarantine

section Sample

/-- The first launch of the key `task:q`, quarantined before it was confirmed. -/
def quarantinedRow : AgentLaunchFields :=
  LaunchStore.set .quarantined { quarantineReason := some "spawn unresolved" }
    (taskRow "launch-1" 0 .reserved)

def quarantinedLaunch : AgentLaunch :=
  ⟨quarantinedRow, taskRow_valid (by decide : "launch-1" ≠ "") 0 .reserved⟩

def reservedStore : LaunchStore := ⟨[taskRow "launch-1" 0 .reserved]⟩

def quarantinedStore : LaunchStore := ⟨[quarantinedRow]⟩

/-- The read and the compare-and-set of the quarantine. -/
def quarantineRead : launchSystem.Event where
  caller := 1
  op := .quarantine "launch-1" "spawn unresolved"
  answered := .ok (.getByLaunchId "launch-1") (some (taskLaunch "launch-1" (by decide) 0 .reserved))
  before := reservedStore
  after := reservedStore

def quarantineSet : launchSystem.Event where
  caller := 1
  op := .quarantine "launch-1" "spawn unresolved"
  answered := .ok (.casUpdate "launch-1" .reserved .quarantined
    { quarantineReason := some "spawn unresolved" }) true
  before := reservedStore
  after := quarantinedStore

theorem quarantined_run :
    ∃ (tr : List launchSystem.Event) (ss : Nat → Option launchSystem.Session),
      launchSystem.Run (tr ++ [quarantineRead] ++ [quarantineSet]) ⟨quarantinedStore, ss⟩ ∧
        ss 2 = none := by
  have hinitial : launchSystem.Run [] ⟨{}, fun _ => none⟩ := .initial rfl
  obtain ⟨tr, hclaimed⟩ := hinitial.perform (i := 0) (o := .requestLaunch taskRequest) rfl
    requestLaunch_first
  have hread : LaunchStore.step quarantineRead.answered reservedStore reservedStore := by
    refine .inl ⟨rfl, ?_⟩
    exact (mapM_construct_eq_some.mpr ⟨_, rfl, rfl⟩).symm
  have hset : LaunchStore.step quarantineSet.answered reservedStore quarantinedStore :=
    .inl ⟨rfl, rfl⟩
  have hinvoked := hclaimed.invoke 1 rfl (.quarantine "launch-1" "spawn unresolved")
  exact ⟨_, _, (hinvoked.call rfl hread).call rfl hset, rfl⟩

theorem find_quarantined :
    LaunchStore.step (.ok (.findActiveByCanonicalKey "task:q") (some quarantinedLaunch))
      quarantinedStore quarantinedStore := by
  have hrows : quarantinedStore.blockingRows "task:q" = [quarantinedRow] := rfl
  refine .inl ⟨rfl, some quarantinedRow, ?_, ?_⟩
  · simp [hrows, Latest]
  · exact (mapM_construct_eq_some.mpr ⟨_, rfl, rfl⟩).symm

theorem requestLaunch_second :
    (requestLaunch taskRequest).Runs LaunchStore.step quarantinedStore
      (.ok { launch := some (taskLaunch "launch-2" (by decide) 300000 .reserved),
             decision := .claimed })
      ⟨[quarantinedRow, taskRow "launch-2" 300000 .reserved]⟩ := by
  refine .handle_ok (.perform_bind (v := some quarantinedLaunch) find_quarantined ?_)
  refine .bind (b := false) (t := quarantinedStore) ?_ ?_
  · exact .perform_bind (v := (300000 : Int)) (.inl ⟨rfl, _, rfl⟩) ⟨rfl, rfl⟩
  refine .bind (b := ()) ⟨rfl, rfl⟩ ?_
  exact claimLaunch_runs (s := quarantinedStore) (by decide) 300000 (by decide) (by decide)

/-- Quarantine does not block its key until recovery: the lease of the launch runs out first. -/
theorem quarantine_not_until_recovery :
    ¬ ∀ (tr : List launchSystem.Event) (cfg : launchSystem.Config), launchSystem.Run tr cfg →
      ∀ pre q post r, tr = pre ++ q :: post → r ∈ q.after.agentLaunchRegistry →
        r.status = .quarantined →
        (∃ r' ∈ cfg.store.agentLaunchRegistry, r'.launchId = r.launchId ∧
          r'.status = .quarantined) →
        ∀ i request attempt, request.canonicalKey = r.canonicalKey →
          (∀ e ∈ pre ++ [q], e.caller ≠ i) →
          cfg.sessions i = some ⟨.requestLaunch request, .ret attempt⟩ →
          attempt.decision ≠ .claimed := by
  intro hclaim
  obtain ⟨tr, ss, hrun, hidle⟩ := quarantined_run
  obtain ⟨tr₂, hsecond⟩ := hrun.perform (i := 2) (o := .requestLaunch taskRequest) hidle
    requestLaunch_second
  refine hclaim _ _ hsecond (tr ++ [quarantineRead]) quarantineSet tr₂ quarantinedRow (by simp)
    (by simp [quarantineSet, quarantinedStore]) rfl ⟨quarantinedRow, by simp, rfl, rfl⟩ 2 taskRequest
    { launch := some (taskLaunch "launch-2" (by decide) 300000 .reserved), decision := .claimed } rfl
    (fun e he => hrun.caller_ne hidle he) rfl rfl

/-- The lookup and the clock reading of a request made while the lease still runs. -/
def leasedFind : launchSystem.Event where
  caller := 2
  op := .requestLaunch taskRequest
  answered := .ok (.findActiveByCanonicalKey "task:q") (some quarantinedLaunch)
  before := quarantinedStore
  after := quarantinedStore

def leasedNow : launchSystem.Event where
  caller := 2
  op := .requestLaunch taskRequest
  answered := .ok .nowMs (1000 : Int)
  before := quarantinedStore
  after := quarantinedStore

theorem leased_run :
    ∃ (tr : List launchSystem.Event) (ss : Nat → Option launchSystem.Session),
      launchSystem.Run (tr ++ [quarantineRead] ++ quarantineSet :: [leasedFind, leasedNow])
        ⟨quarantinedStore, ss⟩ ∧
        ss 2 = some ⟨.requestLaunch taskRequest, .ret (suppressedBy quarantinedLaunch)⟩ ∧
        ∀ e ∈ tr ++ [quarantineRead] ++ [quarantineSet], e.caller ≠ 2 := by
  obtain ⟨tr, ss, hrun, hidle⟩ := quarantined_run
  have hnow : LaunchStore.step leasedNow.answered quarantinedStore quarantinedStore :=
    .inl ⟨rfl, _, rfl⟩
  have hinvoked := hrun.invoke 2 hidle (.requestLaunch taskRequest)
  have hfound := hinvoked.call (i := 2) (o := .requestLaunch taskRequest) rfl find_quarantined
  have hrequested := hfound.call (i := 2) (o := .requestLaunch taskRequest) rfl hnow
  rw [List.append_assoc, List.append_assoc] at hrequested
  exact ⟨tr, _, hrequested, rfl, fun e he => hrun.caller_ne hidle he⟩

/-- A request made while the lease still runs is suppressed. -/
theorem quarantine_blocks_relaunch_leased :
    ∃ (tr : List launchSystem.Event) (cfg : launchSystem.Config) (attempt : LaunchAttempt),
      launchSystem.Run tr cfg ∧ quarantinedRow ∈ cfg.store.agentLaunchRegistry ∧
        cfg.sessions 2 = some ⟨.requestLaunch taskRequest, .ret attempt⟩ ∧
        attempt.decision ≠ .claimed := by
  obtain ⟨tr, ss, hrun, hsession, hother⟩ := leased_run
  refine ⟨_, _, _, hrun, by simp [quarantinedStore], hsession, ?_⟩
  have hpost : ∀ e ∈ [leasedFind, leasedNow], e.caller = 2 := by simp [leasedFind, leasedNow]
  have hkey : taskRequest.canonicalKey = quarantinedRow.canonicalKey := rfl
  refine quarantine_blocks_relaunch hrun ⟨rfl, rfl, ?_, ?_, ?_, ?_⟩ hkey hother hsession
  · refine ⟨by simp [quarantineSet, quarantinedStore], fun r' hr' hne => ?_⟩
    have hr : r' ∈ [quarantinedRow] := (mem_blockingRows.mp hr').1
    exact absurd (List.mem_singleton.mp hr) hne
  · exact ⟨quarantinedRow, by simp [quarantinedStore], rfl, rfl⟩
  · intro d hd e he hcaller
    exact absurd (hcaller.trans (hpost e he)) (hother d hd)
  · intro e he request _ _ now expiresAt hanswer hlease
    have hexpires : 300000 = expiresAt := Option.some.inj hlease
    simp only [List.mem_cons, List.not_mem_nil, or_false] at he
    rcases he with rfl | rfl
    · cases hanswer
    · cases hanswer
      omega

end Sample

end ForkAgent.Launch

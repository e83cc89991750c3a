import ForkAgent.Launch.Served

/-!
# At most one launch in flight

Every caller decides on a copy it read earlier, so nothing but the registry itself keeps two
launches of one key apart: its unique index, and the guard of every compare-and-set.
-/

namespace ForkAgent.Launch

open Effects Storage LaunchStore

variable {tr : List launchSystem.Event} {cfg : launchSystem.Config}

theorem allowed_of_mem (run : launchSystem.Run tr cfg) {e : launchSystem.Event} (he : e ∈ tr) :
    allowed e.answered.call := run.onlyCalls program_allowed he

theorem indexed_of_run (run : launchSystem.Run tr cfg) : cfg.store.Indexed := by
  refine run.invariant (I := Indexed) ?_ ?_ ?_
  · rintro s rfl
    exact ⟨.nil _, .nil _⟩
  · exact fun e he hs => hs.step (run.step_of_mem he) (allowed_of_mem run he)
  · exact fun s s' _ hout => hout.elim

theorem settles_of_run (run : launchSystem.Run tr cfg) :
    tr.Pairwise (fun d e => Settles d.after e.before) ∧ ∀ e ∈ tr, Settles e.after cfg.store :=
  run.grows .refl (fun _ _ _ => .trans)
    (fun _ he => .step (run.step_of_mem he) (allowed_of_mem run he)) fun _ _ hout => hout.elim

/-- The event claims the key: it inserts a row for it. -/
def Claims (canonicalKey : String) (e : launchSystem.Event) : Prop :=
  ∃ row : AgentLaunchFields, row.canonicalKey = canonicalKey ∧ e.answered = .ok (.insert row) true

/-- The event moves a launch of the key to a terminal status or to quarantine. -/
def Releases (launchId canonicalKey : String) (e : launchSystem.Event) : Prop :=
  ∃ r ∈ e.before.agentLaunchRegistry, ∃ r' ∈ e.after.agentLaunchRegistry,
    r.launchId = launchId ∧ r'.launchId = launchId ∧ r.canonicalKey = canonicalKey ∧
      r'.status ≠ r.status ∧ (r'.status.isTerminal = true ∨ r'.status = .quarantined)

/-- A period without a terminal or quarantine transition of the key. -/
def Quiet (canonicalKey : String) (period : List launchSystem.Event) : Prop :=
  ∀ e ∈ period, ∀ launchId, ¬ Releases launchId canonicalKey e

/-- The caller gets the decision `claimed` for the key: the last of its events, on which
`request_launch` returns, lies in the period. -/
structure GotClaimed (cfg : launchSystem.Config) (period post : List launchSystem.Event)
    (canonicalKey : String) (i : Nat) : Prop where
  claimed : ∃ request attempt, cfg.sessions i = some ⟨.requestLaunch request, .ret attempt⟩ ∧
    request.canonicalKey = canonicalKey ∧ attempt.decision = .claimed
  answered : ∃ e ∈ period, e.caller = i
  last : ∀ e ∈ post, e.caller ≠ i

/-- No launch is released after the insert of the request that claims it and before that request
has read it back. -/
def Undisturbed (tr : List launchSystem.Event) : Prop :=
  ∀ pre d mid e post, tr = pre ++ d :: (mid ++ e :: post) → ∀ row : AgentLaunchFields,
    d.answered = .ok (.insert row) true → e.caller = d.caller →
      ∀ x ∈ mid, ¬ Releases row.launchId row.canonicalKey x

/-- The registry has a launch of this id and key in flight. -/
def InFlight (launchId canonicalKey : String) (s : LaunchStore) : Prop :=
  ∃ r ∈ s.agentLaunchRegistry, r.launchId = launchId ∧ r.canonicalKey = canonicalKey ∧
    r.status.inFlight = true

theorem claims_after {s s' : LaunchStore} {row : AgentLaunchFields}
    (h : LaunchStore.step (.ok (.insert row) true) s s') (hallowed : row.status = .reserved) :
    (∀ r ∈ s.agentLaunchRegistry, r.canonicalKey = row.canonicalKey → r.status.inFlight = false) ∧
      row ∈ s'.agentLaunchRegistry := by
  rcases h with h | ⟨-, m, hm⟩
  swap
  · cases hm
  cases hinsert : s.insert row with
  | error e =>
    simp only [serve, hinsert] at h
    cases h.1
  | ok result =>
    obtain ⟨b, s₁⟩ := result
    simp only [serve, hinsert] at h
    obtain ⟨hb, rfl⟩ := h
    rcases insert_ok hinsert with ⟨rfl, -⟩ | ⟨-, -, hkey, hs⟩
    · cases hb
    refine ⟨?_, by rw [hs]; simp⟩
    intro r hr hrkey
    have hrow : inFlightKey row = some row.canonicalKey := by
      simp [inFlightKey, hallowed, LaunchStatus.inFlight]
    have hother := conflicts_eq_false.mp hkey r hr _ hrow
    cases hflight : r.status.inFlight with
    | false => rfl
    | true => simp [inFlightKey, hflight, hrkey] at hother

theorem releases_of_not_inFlight (run : launchSystem.Run tr cfg) {e : launchSystem.Event}
    (he : e ∈ tr) {launchId canonicalKey : String} (hbefore : InFlight launchId canonicalKey e.before)
    (hafter : ¬ InFlight launchId canonicalKey e.after) : Releases launchId canonicalKey e := by
  obtain ⟨r, hr, hid, hkey, hflight⟩ := hbefore
  obtain ⟨r', hr', hmoves⟩ := step_row (run.step_of_mem he) (allowed_of_mem run he) hr
  have hland : r'.status.inFlight = false := by
    by_contra hne
    exact hafter ⟨r', hr', hmoves.launchId.trans hid, hmoves.canonicalKey.trans hkey, by simpa using hne⟩
  refine ⟨r, hr, r', hr', hid, hmoves.launchId.trans hid, hkey, ?_,
    LaunchStatus.released_of_not_inFlight hland⟩
  intro heq
  rw [heq, hflight] at hland
  cases hland

theorem released_between_claims (run : launchSystem.Run tr cfg)
    {pre mid post : List launchSystem.Event} {d e : launchSystem.Event} {row row' : AgentLaunchFields}
    (htr : tr = pre ++ d :: (mid ++ e :: post)) (hins : d.answered = .ok (.insert row) true)
    (hins' : e.answered = .ok (.insert row') true) (hkey : row'.canonicalKey = row.canonicalKey) :
    ∃ x ∈ mid, Releases row.launchId row.canonicalKey x := by
  have hdmem : d ∈ tr := by simp [htr]
  have hemem : e ∈ tr := by simp [htr]
  have hdstep := run.step_of_mem hdmem
  have hdallowed := allowed_of_mem run hdmem
  rw [hins] at hdstep hdallowed
  have hestep := run.step_of_mem hemem
  have heallowed := allowed_of_mem run hemem
  rw [hins'] at hestep heallowed
  have hflight : InFlight row.launchId row.canonicalKey d.after := by
    refine ⟨row, (claims_after hdstep hdallowed).2, rfl, rfl, ?_⟩
    rw [show row.status = .reserved from hdallowed]
    rfl
  have hland : ¬ InFlight row.launchId row.canonicalKey e.before := by
    rintro ⟨r, hr, -, hrkey, hrflight⟩
    have hfree := (claims_after hestep heallowed).1 r hr (by rw [hrkey, hkey])
    rw [hrflight] at hfree
    cases hfree
  obtain ⟨x, hx, hbefore, hafter⟩ :=
    run.undone_between (fun s s' hout _ => hout.elim) htr hflight hland
  exact ⟨x, hx, releases_of_not_inFlight run (by simp [htr, hx]) hbefore hafter⟩

theorem mem_or_split {pre period post before after : List launchSystem.Event} {x : launchSystem.Event}
    (h : pre ++ period ++ post = before ++ x :: after) :
    x ∈ period ∨ (∃ rest, post = rest ++ x :: after) ∨ ∃ rest, pre = before ++ x :: rest := by
  rw [List.append_assoc] at h
  rcases List.append_eq_append_iff.mp h with ⟨early, -, hlate⟩ | ⟨early, hpre, hlate⟩
  · rcases List.append_eq_append_iff.mp hlate with ⟨rest, -, hpost⟩ | ⟨rest, hperiod, hpost⟩
    · exact .inr (.inl ⟨rest, hpost⟩)
    · cases rest with
      | nil => exact .inr (.inl ⟨[], hpost.symm⟩)
      | cons y rest =>
        cases hpost
        exact .inl (by simp [hperiod])
  · cases early with
    | nil =>
      cases period with
      | nil => exact .inr (.inl ⟨[], hlate.symm⟩)
      | cons y period =>
        cases hlate
        exact .inl List.mem_cons_self
    | cons y early =>
      cases hlate
      exact .inr (.inr ⟨early, hpre⟩)

/-- Of two requests for a key that are answered `claimed` in a quiet period, neither has claimed
the key before the other. -/
theorem not_claimed_before (run : launchSystem.Run tr cfg) (hundisturbed : Undisturbed tr)
    {pre period post : List launchSystem.Event} (htr : tr = pre ++ period ++ post)
    {d e : launchSystem.Event} {row row' : AgentLaunchFields}
    (hins : d.answered = .ok (.insert row) true) (hins' : e.answered = .ok (.insert row') true)
    (hkey : row'.canonicalKey = row.canonicalKey) (hquiet : Quiet row.canonicalKey period)
    (hanswered : ∃ f ∈ period, f.caller = d.caller) (hlast : ∀ f ∈ post, f.caller ≠ e.caller)
    {before mid after : List launchSystem.Event} : tr ≠ before ++ d :: (mid ++ e :: after) := by
  intro hsplit
  obtain ⟨x, hx, hreleases⟩ := released_between_claims run hsplit hins hins' hkey
  obtain ⟨early, late, rfl⟩ := List.append_of_mem hx
  have hx : pre ++ period ++ post = (before ++ d :: early) ++ x :: (late ++ e :: after) := by
    rw [← htr, hsplit]
    simp
  rcases mem_or_split hx with hperiod | ⟨rest, hpost⟩ | ⟨rest, hpre⟩
  · exact hquiet x hperiod row.launchId hreleases
  · exact hlast e (by simp [hpost]) rfl
  · -- the release lies between the insert and an event of the same caller in the period
    obtain ⟨f, hf, hcaller⟩ := hanswered
    obtain ⟨start, rest', rfl⟩ := List.append_of_mem hf
    have hread : tr = before ++ d :: ((early ++ x :: (rest ++ start)) ++ f :: (rest' ++ post)) := by
      rw [htr, hpre]
      simp
    exact hundisturbed before d _ f _ hread row hins hcaller x (by simp) hreleases

theorem LaunchStore.Indexed.eq_of_launchId {s : LaunchStore} (hs : s.Indexed)
    {r r' : AgentLaunchFields} (hr : r ∈ s.agentLaunchRegistry) (hr' : r' ∈ s.agentLaunchRegistry)
    (hid : r'.launchId = r.launchId) : r' = r :=
  hs.ids.eq_of_mem hr' hr (k := r.launchId) (by simp [rowId, hid]) (by simp [rowId])

theorem LaunchStore.Indexed.inFlight_length {s : LaunchStore} (hs : s.Indexed)
    (canonicalKey : String) :
    (s.agentLaunchRegistry.filter fun r => r.canonicalKey == canonicalKey && r.status.inFlight).length
      ≤ 1 := by
  have hlength := hs.inFlightKeys.length_le_one canonicalKey
  have hfilter : ∀ r : AgentLaunchFields, (inFlightKey r == some canonicalKey) =
      (r.canonicalKey == canonicalKey && r.status.inFlight) := by
    intro r
    cases hflight : r.status.inFlight <;> simp [inFlightKey, hflight]
  simpa [hfilter] using hlength

theorem claims_of_session (run : launchSystem.Run tr cfg) {i : Nat} {request : LaunchRequest}
    {attempt : LaunchAttempt}
    (hsession : cfg.sessions i = some ⟨.requestLaunch request, .ret attempt⟩)
    (hdecision : attempt.decision = .claimed) :
    ∃ e ∈ tr, e.caller = i ∧ Claims request.canonicalKey e := by
  have houtcome := run.ensures_outcome hsession (requestLaunch_guarded request)
  obtain ⟨row, hkey, hmem⟩ := houtcome attempt rfl hdecision
  obtain ⟨e, he, hanswer⟩ := List.mem_map.mp hmem
  obtain ⟨hetr, hcaller⟩ := System.Run.mem_own.mp he
  exact ⟨e, hetr, hcaller, row, hkey, hanswer⟩

theorem order_of_mem {d e : launchSystem.Event} (hd : d ∈ tr) (he : e ∈ tr) :
    d = e ∨ (∃ before mid after, tr = before ++ d :: (mid ++ e :: after)) ∨
      ∃ before mid after, tr = before ++ e :: (mid ++ d :: after) := by
  obtain ⟨pre, post, rfl⟩ := List.append_of_mem hd
  rcases List.mem_append.mp he with he | he
  · obtain ⟨before, mid, rfl⟩ := List.append_of_mem he
    exact .inr (.inr ⟨before, mid, post, by simp⟩)
  · rcases List.mem_cons.mp he with rfl | he
    · exact .inl rfl
    · obtain ⟨mid, after, rfl⟩ := List.append_of_mem he
      exact .inr (.inl ⟨pre, mid, after, rfl⟩)

theorem gotClaimed_unique (run : launchSystem.Run tr cfg) (hundisturbed : Undisturbed tr)
    {canonicalKey : String} {pre period post : List launchSystem.Event}
    (htr : tr = pre ++ period ++ post) (hquiet : Quiet canonicalKey period) {i j : Nat}
    (hi : GotClaimed cfg period post canonicalKey i) (hj : GotClaimed cfg period post canonicalKey j) :
    i = j := by
  obtain ⟨request, attempt, hsession, rfl, hdecision⟩ := hi.claimed
  obtain ⟨request', attempt', hsession', hkey, hdecision'⟩ := hj.claimed
  obtain ⟨d, hd, rfl, row, hrow, hins⟩ := claims_of_session run hsession hdecision
  obtain ⟨e, he, rfl, row', hrow', hins'⟩ := claims_of_session run hsession' hdecision'
  rw [hkey] at hrow'
  have hquiet' := hquiet
  rw [← hrow] at hquiet
  rw [← hrow'] at hquiet'
  rcases order_of_mem hd he with rfl | ⟨before, mid, after, hsplit⟩ | ⟨before, mid, after, hsplit⟩
  · rfl
  · exact absurd hsplit (not_claimed_before run hundisturbed htr hins hins' (hrow'.trans hrow.symm)
      hquiet hi.answered hj.last)
  · exact absurd hsplit (not_claimed_before run hundisturbed htr hins' hins (hrow.trans hrow'.symm)
      hquiet' hj.answered hi.last)

/-- At most one launch of a key is in flight, whatever the callers do and the clock says. A launch
changes status along an edge only and never again once it is terminated or failed. In a period
that releases no launch of the key at most one caller is answered `claimed`, as long as no launch
is released between its insert and its read-back. -/
theorem launch_exclusion (run : launchSystem.Run tr cfg) :
    (∀ canonicalKey, (cfg.store.agentLaunchRegistry.filter fun r =>
      r.canonicalKey == canonicalKey && r.status.inFlight).length ≤ 1) ∧
    (∀ e ∈ tr, ∀ r ∈ e.before.agentLaunchRegistry, ∀ r' ∈ e.after.agentLaunchRegistry,
      r'.launchId = r.launchId →
        r'.status = r.status ∨ r'.status ∈ r.status.validTransitions) ∧
    (∀ e ∈ tr, ∀ r ∈ e.after.agentLaunchRegistry, r.status = .terminated ∨ r.status = .failed →
      ∀ r' ∈ cfg.store.agentLaunchRegistry, r'.launchId = r.launchId → r'.status = r.status) ∧
    (Undisturbed tr → ∀ canonicalKey pre period post, tr = pre ++ period ++ post →
      Quiet canonicalKey period → ∀ i j, GotClaimed cfg period post canonicalKey i →
        GotClaimed cfg period post canonicalKey j → i = j) := by
  refine ⟨(indexed_of_run run).inFlight_length, ?_, ?_, ?_⟩
  · intro e he r hr r' hr' hid
    have hstep := run.step_of_mem he
    have hallowed := allowed_of_mem run he
    obtain ⟨pre, ss, hbefore⟩ := run.reaches_before he
    have hindexed : e.after.Indexed := (indexed_of_run hbefore).step hstep hallowed
    obtain ⟨r'', hr'', hmoves⟩ := step_row hstep hallowed hr
    rw [hindexed.eq_of_launchId hr'' hr' (hid.trans hmoves.launchId.symm)]
    exact hmoves.status
  · intro e he r hr hstatus r' hr' hid
    obtain ⟨r'', hr'', hid'', -, hsettled⟩ := (settles_of_run run).2 e he r hr
    have hterminal : r.status.isTerminal = true := by
      rcases hstatus with h | h <;> rw [h] <;> rfl
    rw [(indexed_of_run run).eq_of_launchId hr'' hr' (hid.trans hid''.symm)]
    exact hsettled hterminal
  · intro hundisturbed canonicalKey pre period post htr hquiet i j hi hj
    exact gotClaimed_unique run hundisturbed htr hquiet hi hj

/-- A request for the key `task:q`. -/
def taskRequest : LaunchRequest :=
  { canonicalKey := "task:q", surface := "polling", ownerType := "task", ownerId := "q" }

/-- Nothing is released where no row changes its status. -/
def calm (e : launchSystem.Event) : Bool :=
  e.before.agentLaunchRegistry.all fun r => e.after.agentLaunchRegistry.all fun r' =>
    r'.launchId != r.launchId || r'.status == r.status

theorem not_releases_of_calm {e : launchSystem.Event} (h : calm e = true) (launchId canonicalKey : String) :
    ¬ Releases launchId canonicalKey e := by
  rintro ⟨r, hr, r', hr', hid, hid', -, hstatus, -⟩
  have hsame := List.all_eq_true.mp (List.all_eq_true.mp h r hr) r' hr'
  simp [hid, hid', hstatus] at hsame

theorem quiet_of_calm {period : List launchSystem.Event} (h : period.all calm = true)
    (canonicalKey : String) : Quiet canonicalKey period :=
  fun e he launchId => not_releases_of_calm (List.all_eq_true.mp h e he) launchId canonicalKey

/-- A run with one release, which no caller sees between two of its events. -/
theorem undisturbed_of_calm {first second : List launchSystem.Event} {q : launchSystem.Event}
    (hfirst : first.all calm = true) (hsecond : second.all calm = true)
    (hcallers : ∀ d ∈ first, ∀ e ∈ second, e.caller ≠ d.caller) : Undisturbed (first ++ q :: second) := by
  intro pre d mid e post htr row _ hcaller x hx hreleases
  obtain ⟨early, late, rfl⟩ := List.append_of_mem hx
  have hsplit : first ++ (q :: second) = (pre ++ d :: early) ++ (x :: (late ++ e :: post)) := by
    rw [htr]
    simp
  have hcalm : ∀ y, y ∈ first ∨ y ∈ second → ¬ Releases row.launchId row.canonicalKey y := by
    rintro y (hy | hy)
    · exact not_releases_of_calm (List.all_eq_true.mp hfirst y hy) _ _
    · exact not_releases_of_calm (List.all_eq_true.mp hsecond y hy) _ _
  rcases List.append_eq_append_iff.mp hsplit with ⟨rest, hbefore, hafter⟩ | ⟨rest, hbefore, hafter⟩
  · cases rest with
    | nil =>
      cases hafter
      exact hcallers d (by rw [← List.append_nil first, ← hbefore]; simp) e (by simp) hcaller
    | cons y rest =>
      cases hafter
      exact hcalm x (.inr (by simp)) hreleases
  · cases rest with
    | nil =>
      cases hafter
      exact hcallers d (by simp [hbefore]) e (by simp) hcaller
    | cons y rest =>
      obtain ⟨rfl, -⟩ := List.cons.inj hafter
      exact hcalm x (.inl (by simp [hbefore])) hreleases

/-- A caller whose request has been answered `claimed` by the end of a run. -/
def answeredClaimed (cfg : launchSystem.Config) (canonicalKey : String) (i : Nat) : Bool :=
  match cfg.sessions i with
  | some ⟨.requestLaunch request, .ret attempt⟩ =>
    request.canonicalKey == canonicalKey && attempt.decision == .claimed
  | _ => false

theorem gotClaimed_of_answered {cfg : launchSystem.Config} {period : List launchSystem.Event}
    {canonicalKey : String} {i : Nat} (h : answeredClaimed cfg canonicalKey i = true)
    (hanswered : period.any (·.caller == i) = true) : GotClaimed cfg period [] canonicalKey i := by
  obtain ⟨e, he, hcaller⟩ := List.any_eq_true.mp hanswered
  refine ⟨?_, ⟨e, he, beq_iff_eq.mp hcaller⟩, by simp⟩
  unfold answeredClaimed at h
  split at h
  · next request attempt hsession =>
    rw [Bool.and_eq_true, beq_iff_eq, beq_iff_eq] at h
    exact ⟨request, attempt, hsession, h⟩
  · cases h

/-- A request that is done, the quarantine of its launch when the lease has run out, and another
request for the key. -/
theorem launch_exclusion_relaunched : ∃ (tr : List launchSystem.Event) (cfg : launchSystem.Config),
    launchSystem.Run tr cfg ∧ (cfg.store.agentLaunchRegistry.map (·.status) = [.quarantined, .reserved]) ∧
      GotClaimed cfg (tr.drop 10) [] "task:q" 2 ∧
      ∀ i, GotClaimed cfg (tr.drop 10) [] "task:q" i → i = 2 := by
  obtain ⟨tr, cfg, hplay, hstatus, q, hsplit, hfirst, hsecond, hcallers, hcallers', hclaimed, hlast⟩ :
      ∃ tr cfg, playLaunches (.invoke 0 (.requestLaunch taskRequest) :: launchCalls 0 6 0 "launch-1" ++
        .invoke 1 .reconcileExpiredLeases :: launchCalls 1 4 300000 "" ++
          .invoke 2 (.requestLaunch taskRequest) :: launchCalls 2 7 300000 "launch-2") = some (tr, cfg) ∧
      cfg.store.agentLaunchRegistry.map (·.status) = [.quarantined, .reserved] ∧
      ∃ q, tr = tr.take 9 ++ q :: tr.drop 10 ∧ (tr.take 9).all calm = true ∧
        (tr.drop 10).all calm = true ∧ (tr.take 9).all (fun e => e.caller != 2) = true ∧
        (tr.drop 10).all (fun e => e.caller == 2) = true ∧ answeredClaimed cfg "task:q" 2 = true ∧
        (tr.drop 10).any (·.caller == 2) = true :=
    ⟨_, _, rfl, rfl, _, rfl, rfl, rfl, rfl, rfl, rfl, rfl⟩
  have hrun := run_of_playLaunches hplay
  have hundisturbed : Undisturbed tr := by
    rw [hsplit]
    refine undisturbed_of_calm hfirst hsecond fun d hd e he heq => ?_
    have hd := List.all_eq_true.mp hcallers d hd
    have he := List.all_eq_true.mp hcallers' e he
    rw [beq_iff_eq.mp he] at heq
    simp [← heq] at hd
  have hgot := gotClaimed_of_answered hclaimed hlast
  have htr : tr = (tr.take 9 ++ [q]) ++ tr.drop 10 ++ [] := by
    rw [List.append_nil, List.append_assoc, List.singleton_append]
    exact hsplit
  refine ⟨tr, cfg, hrun, hstatus, hgot, fun i hi => ?_⟩
  exact (launch_exclusion hrun).2.2.2 hundisturbed "task:q" _ _ [] htr (quiet_of_calm hsecond _) i 2 hi hgot

/-- A request whose launch is quarantined between its insert and its read-back is answered
`claimed` as well as the request that gets the key after it. -/
theorem claimed_twice :
    ¬ ∀ (tr : List launchSystem.Event) (cfg : launchSystem.Config), launchSystem.Run tr cfg →
      ∀ canonicalKey pre period post, tr = pre ++ period ++ post → Quiet canonicalKey period →
        ∀ i j, GotClaimed cfg period post canonicalKey i → GotClaimed cfg period post canonicalKey j →
          i = j := by
  intro h
  obtain ⟨tr, cfg, hplay, hcalm, hclaimed, hclaimed', hlast, hlast'⟩ : ∃ tr cfg,
      playLaunches (.invoke 0 (.requestLaunch taskRequest) :: launchCalls 0 5 0 "launch-1" ++
        .invoke 1 .reconcileExpiredLeases :: launchCalls 1 4 300000 "" ++
          .invoke 2 (.requestLaunch taskRequest) :: launchCalls 2 7 300000 "launch-2" ++
            launchCalls 0 1 300000 "") = some (tr, cfg) ∧
      (tr.drop 9).all calm = true ∧ answeredClaimed cfg "task:q" 0 = true ∧
        answeredClaimed cfg "task:q" 2 = true ∧ (tr.drop 9).any (·.caller == 0) = true ∧
        (tr.drop 9).any (·.caller == 2) = true := ⟨_, _, rfl, rfl, rfl, rfl, rfl, rfl⟩
  have htr : tr = tr.take 9 ++ tr.drop 9 ++ [] := by simp
  have hsame := h tr cfg (run_of_playLaunches hplay) "task:q" _ _ [] htr (quiet_of_calm hcalm _) 0 2
    (gotClaimed_of_answered hclaimed hlast) (gotClaimed_of_answered hclaimed' hlast')
  cases hsame

/-- A launch of that key, with the status it has reached. -/
def taskRow (launchId : String) (now : Int) (status : LaunchStatus) : AgentLaunchFields :=
  { launchId, canonicalKey := "task:q", surface := "polling", ownerType := "task", ownerId := "q",
    status, createdAt := now, reservedAt := some now, leaseExpiresAt := some (now + 300000),
    role := some "poll-agent" }

theorem taskRow_valid {launchId : String} (hid : launchId ≠ "") (now : Int) (status : LaunchStatus) :
    (taskRow launchId now status).postInit = .ok () := by
  have hkey : AgentLaunchFields.matchesCanonicalKey "task:q" = true := by decide
  have hrole : strip "poll-agent" ≠ "" := by decide
  have howner : "q".length ≤ AgentLaunchFields.maxOwnerIdLength := by decide
  simp [taskRow, AgentLaunchFields.postInit, require, AgentLaunchFields.requireText, hid, hkey, hrole,
    howner, AgentLaunchFields.validOwnerTypes, bind, Except.bind]

@[simp] theorem taskRow_launchId (launchId : String) (now : Int) (status : LaunchStatus) :
    (taskRow launchId now status).launchId = launchId := rfl

@[simp] theorem taskRow_canonicalKey (launchId : String) (now : Int) (status : LaunchStatus) :
    (taskRow launchId now status).canonicalKey = "task:q" := rfl

@[simp] theorem taskRow_status (launchId : String) (now : Int) (status : LaunchStatus) :
    (taskRow launchId now status).status = status := rfl

theorem insert_taskRow {s : LaunchStore} {launchId : String} (now : Int)
    (hfresh : ∀ r ∈ s.agentLaunchRegistry, r.launchId ≠ launchId)
    (hfree : ∀ r ∈ s.agentLaunchRegistry, r.canonicalKey = "task:q" → r.status.inFlight = false) :
    s.insert (taskRow launchId now .reserved) =
      .ok (true, ⟨s.agentLaunchRegistry ++ [taskRow launchId now .reserved]⟩) := by
  have hrow : conflicts rowId s.agentLaunchRegistry (taskRow launchId now .reserved) = false := by
    refine conflicts_eq_false.mpr fun r hr k hk => ?_
    rw [← hk]
    simpa [rowId] using hfresh r hr
  have hkey : conflicts inFlightKey s.agentLaunchRegistry (taskRow launchId now .reserved) = false := by
    have hnew : LaunchStatus.reserved.inFlight = true := rfl
    refine conflicts_eq_false.mpr fun r hr k hk => ?_
    cases hflight : r.status.inFlight with
    | false => simp [inFlightKey, hflight]
    | true =>
      have hother : r.canonicalKey ≠ "task:q" := by
        intro heq
        rw [hfree r hr heq] at hflight
        cases hflight
      rw [← hk]
      simpa [inFlightKey, hflight, hnew] using hother
  have hparent : (taskRow launchId now .reserved).parentLaunchId = none := rfl
  simp [LaunchStore.insert, hrow, hkey, hparent]

def taskLaunch (launchId : String) (hid : launchId ≠ "") (now : Int) (status : LaunchStatus) :
    AgentLaunch := ⟨taskRow launchId now status, taskRow_valid hid now status⟩

/-- A claim for the key on a registry where nothing of the key is in flight. -/
theorem claimLaunch_runs {s : LaunchStore} {launchId : String} (hid : launchId ≠ "") (now : Int)
    (hfresh : ∀ r ∈ s.agentLaunchRegistry, r.launchId ≠ launchId)
    (hfree : ∀ r ∈ s.agentLaunchRegistry, r.canonicalKey = "task:q" → r.status.inFlight = false) :
    (claimLaunch taskRequest).Runs LaunchStore.step s
      (.ok { launch := some (taskLaunch launchId hid now .reserved), decision := .claimed })
      ⟨s.agentLaunchRegistry ++ [taskRow launchId now .reserved]⟩ := by
  have hinsert := insert_taskRow now hfresh hfree
  have hrole : taskRequest.effectiveRole = "poll-agent" := rfl
  have hfind : (s.agentLaunchRegistry ++ [taskRow launchId now .reserved]).find?
      (fun r => r.launchId == launchId) = some (taskRow launchId now .reserved) := by
    have hnone : s.agentLaunchRegistry.find? (fun r => r.launchId == launchId) = none := by
      simpa using hfresh
    simp [hnone]
  refine .perform_bind (v := launchId) (.inl ⟨rfl, _, rfl⟩) (.bind (b := none) ⟨rfl, rfl⟩ ?_)
  refine .perform_bind (v := now) (.inl ⟨rfl, _, rfl⟩) ?_
  rw [hrole]
  refine .bind (b := some (taskLaunch launchId hid now .reserved)) ?_
    ⟨rfl, rfl⟩
  refine .perform_bind (v := now) (.inl ⟨rfl, _, rfl⟩) ?_
  refine .perform_bind (v := true) (t := ⟨s.agentLaunchRegistry ++ [taskRow launchId now .reserved]⟩)
    (.inl ?_) ?_
  · change LaunchStore.serve ⟨.insert (taskRow launchId now .reserved), .ok true⟩ _ _
    simp only [LaunchStore.serve, hinsert]
    exact ⟨trivial, trivial⟩
  · refine ⟨.ok (some (taskLaunch launchId hid now .reserved)), _,
      .inl ⟨rfl, ?_⟩, rfl, rfl⟩
    exact (mapM_construct_eq_some.mpr ⟨_, hfind, rfl⟩).symm

theorem requestLaunch_first :
    (requestLaunch taskRequest).Runs LaunchStore.step {}
      (.ok { launch := some (taskLaunch "launch-1" (by decide) 0 .reserved), decision := .claimed })
      ⟨[taskRow "launch-1" 0 .reserved]⟩ := by
  refine .handle_ok (.perform_bind (v := none) (.inl ⟨rfl, none, rfl, rfl⟩) ?_)
  exact claimLaunch_runs (by decide) 0 (by simp) (by simp)

end ForkAgent.Launch

import ForkAgent.Effects.Schedule
import ForkAgent.Polling.Served
import ForkAgent.Spawn.System

/-!
# One live agent for a launch

The surfaces go on whatever a compare-and-set answers, so a launch that another caller moves while
its claimer is still at work gets an agent all the same. Left alone, every compare-and-set of the
claimer succeeds.
-/

namespace ForkAgent.Spawn

open Effects Storage Launch Polling

variable {H : Fpel.Hashing} {svc : AgentPollingService}
variable {tr : List (spawnSystem H svc).Event} {cfg : (spawnSystem H svc).Config}

/-- What a caller has been answered by the registry. -/
def registryHistory (i : Nat) (tr : List (spawnSystem H svc).Event) :
    List (Answered launchSignature Exn) := (System.Run.history i tr).filterMap seenSpawn

/-- The caller claims the launch. -/
def Claims (launchId : String) (e : (spawnSystem H svc).Event) : Prop :=
  ∃ row, row.launchId = launchId ∧ seenSpawn e.answered = some (.ok (.insert row) true)

/-- The caller moves the launch. -/
def MovesLaunch (launchId : String) (e : (spawnSystem H svc).Event) : Prop :=
  ∃ a, seenSpawn e.answered = some a ∧ SetsStatus launchId a

/-- Whether a spawn reports success: a RUNNING run, the name of a session, or an agent. -/
def reportsSuccess : (o : SpawnOp) → o.Result → Prop
  | .polling .., run => run.val.status = .running
  | .workflow .., result => result.sessionName ≠ none
  | .manager _, agent => agent ≠ none
  | .lifecycle _, _ => False

/-- A process is only created by a caller who has moved the launch it claimed to SPAWNING, and a
spawn that reports success has its launch ACTIVE at that moment. -/
def Exclusive (tr : List (spawnSystem H svc).Event) : Prop :=
  (∀ pre e post, tr = pre ++ e :: post → createsProcess e.answered.call = true →
    ∃ launchId, sinceClaim launchId (registryHistory e.caller pre) =
      some [⟨.reserved, .spawning, true⟩]) ∧
  ∀ pre e post ss v, tr = pre ++ e :: post → (spawnSystem H svc).Run (pre ++ [e]) ⟨e.after, ss⟩ →
    ss e.caller = some ⟨e.op, .ret v⟩ → reportsSuccess e.op v →
      ∃ launchId, sinceClaim launchId (registryHistory e.caller (pre ++ [e])) =
          some [⟨.reserved, .spawning, true⟩, ⟨.spawning, .active, true⟩] ∧
        ∃ r ∈ e.after.2.2.1.agentLaunchRegistry, r.launchId = launchId ∧ r.status = .active

theorem registry_step (run : (spawnSystem H svc).Run tr cfg) {e : (spawnSystem H svc).Event}
    (he : e ∈ tr) :
    (∃ a, seenSpawn e.answered = some a ∧ LaunchStore.step a e.before.2.2.1 e.after.2.2.1) ∨
      seenSpawn e.answered = none ∧ e.after.2.2.1 = e.before.2.2.1 := by
  have hstep := run.step_of_mem he
  obtain ⟨i, o, ⟨c | c | c | c, r⟩, s, s'⟩ := e
  · have hsame : s'.2 = s.2 := hstep.2
    exact .inr ⟨rfl, by rw [hsame]⟩
  · have hsame : s'.2.2 = s.2.2 := hstep.1.2
    exact .inr ⟨rfl, by rw [hsame]⟩
  · exact .inl ⟨⟨c, r⟩, rfl, hstep.1.1.1⟩
  · have hsame : s'.2.2.1 = s.2.2.1 := hstep.1.1.2
    exact .inr ⟨rfl, hsame⟩

theorem ids_of_run (run : (spawnSystem H svc).Run tr cfg) :
    UniqueOn LaunchStore.rowId cfg.store.2.2.1.agentLaunchRegistry := by
  refine run.invariant (I := fun s => UniqueOn LaunchStore.rowId s.2.2.1.agentLaunchRegistry)
    ?_ ?_ ?_
  · rintro s h
    have hempty : s.2.2.1 = {} := congrArg (fun w => w.2.1) h
    rw [hempty]
    exact .nil _
  · intro e he hs
    rcases registry_step run he with ⟨a, -, hstep⟩ | ⟨-, hsame⟩
    · exact LaunchStore.ids_step hs hstep
    · rwa [hsame]
  · intro s s' hs hout
    rwa [hout.1]

theorem honest_of_run (run : (spawnSystem H svc).Run tr cfg) (i : Nat) :
    Honest (registryHistory i tr) := by
  intro launchId launch hmem
  obtain ⟨a, ha, hseen⟩ := List.mem_filterMap.mp hmem
  obtain ⟨e, he, rfl⟩ := List.mem_map.mp ha
  rcases registry_step run (System.Run.mem_own.mp he).1 with ⟨a, hseen', hstep⟩ | ⟨hnone, -⟩
  · cases hseen.symm.trans hseen'
    rcases hstep with ⟨-, hanswer⟩ | ⟨-, m, hm⟩
    · obtain ⟨row, hrow, hval⟩ := mapM_construct_eq_some.mp hanswer.symm
      rw [hval]
      simpa using List.find?_some hrow
    · cases hm
  · cases hseen.symm.trans hnone

/-- A caller who is alone with the launch it claimed knows its status. -/
theorem known_of_run (run : (spawnSystem H svc).Run tr cfg) {i : Nat} {launchId : String}
    (halone : ∀ e ∈ tr, MovesLaunch launchId e → e.caller = i) {attempts : List Attempt}
    (hattempts : sinceClaim launchId (registryHistory i tr) = some attempts) :
    Known launchId attempts cfg.store.2.2.1 := by
  induction run generalizing attempts with
  | initial => cases hattempts
  | invoke run j fresh o ih => exact ih halone hattempts
  | @call tr s ss run j o c next running r s' step ih =>
    have hprev : ∀ attempts, sinceClaim launchId (registryHistory i tr) = some attempts →
        Known launchId attempts s.2.2.1 := fun attempts hattempts =>
      ih (fun e he => halone e (List.mem_append_left _ he)) hattempts
    have hlast := halone _ (List.mem_append_right _ (List.mem_singleton_self _))
    have hhistory : registryHistory i (tr ++ [⟨j, o, ⟨c, r⟩, s, s'⟩]) = registryHistory i tr ++
        (if j = i then (seenSpawn ⟨c, r⟩).toList else []) := by
      unfold registryHistory System.Run.history
      rw [System.Run.own_append]
      by_cases hj : j = i
      · cases hseen : seenSpawn (H := H) ⟨c, r⟩ <;> simp [System.Run.own, hj, hseen]
      · simp [System.Run.own, hj]
    rw [hhistory] at hattempts
    rcases registry_step (run.call running step) (List.mem_append_right _ (List.mem_singleton_self _))
      with ⟨a, hseen, hstep⟩ | ⟨hnone, hsame⟩
    · by_cases hj : j = i
      · rw [if_pos hj, show seenSpawn ⟨c, r⟩ = some a from hseen] at hattempts
        simp only [Option.toList_some, sinceClaim_concat] at hattempts
        exact known_note (ids_of_run run) hstep hprev hattempts
      · rw [if_neg hj, List.append_nil] at hattempts
        exact (hprev attempts hattempts).other hstep fun hsets => hj (hlast ⟨a, hseen, hsets⟩)
    · have hnoseen : seenSpawn ⟨c, r⟩ = none := hnone
      rw [hnoseen] at hattempts
      have hsame' : s'.2.2.1 = s.2.2.1 := hsame
      rw [hsame']
      refine hprev attempts ?_
      simpa using hattempts
  | outside run h ih =>
    rw [h.1]
    exact ih halone hattempts

/-- Whoever claimed a launch that another caller moves makes no call after the move. -/
def Undisturbed (tr : List (spawnSystem H svc).Event) : Prop :=
  ∀ pre e post launchId, tr = pre ++ e :: post → MovesLaunch launchId e →
    ∀ d ∈ tr, Claims launchId d → d.caller ≠ e.caller → ∀ f ∈ post, f.caller ≠ d.caller

/-- No two spawns of the poller draw one run id. -/
def FreshRunIds (tr : List (spawnSystem H svc).Event) : Prop :=
  ∀ d ∈ tr, ∀ e ∈ tr, ∀ runId, d.answered = .ok (.inr (.inl .uuid4Hex)) runId →
    e.answered = .ok (.inr (.inl .uuid4Hex)) runId → d.caller = e.caller

/-- Every workflow spawn that has created its session starts and confirms its agent in it, and none
is suppressed by a launch that has a session. -/
def Manned (tr : List (spawnSystem H svc).Event) : Prop :=
  ∀ e ∈ tr, ∀ task model sessionName runId, e.op = .workflow task model sessionName runId →
    ¬ Agentless (System.Run.history e.caller tr)

theorem claims_of_sinceClaim {i : Nat} {launchId : String} {attempts : List Attempt}
    (h : sinceClaim launchId (registryHistory i tr) = some attempts) :
    ∃ d ∈ tr, d.caller = i ∧ Claims launchId d := by
  obtain ⟨row, hid, hmem⟩ := claim_of_sinceClaim h
  obtain ⟨a, ha, hseen⟩ := List.mem_filterMap.mp hmem
  obtain ⟨d, hd, rfl⟩ := List.mem_map.mp ha
  obtain ⟨hdtr, hcaller⟩ := System.Run.mem_own.mp hd
  exact ⟨d, hdtr, hcaller, row, hid, hseen⟩

theorem alone_of_undisturbed (hundisturbed : Undisturbed tr)
    {pre post : List (spawnSystem H svc).Event} {e : (spawnSystem H svc).Event}
    (htr : tr = pre ++ e :: post) {launchId : String} {d : (spawnSystem H svc).Event} (hd : d ∈ tr)
    (hcaller : d.caller = e.caller) (hclaims : Claims launchId d) :
    ∀ f ∈ pre, MovesLaunch launchId f → f.caller = e.caller := by
  intro f hf hmoves
  by_contra hne
  obtain ⟨early, late, rfl⟩ := List.append_of_mem hf
  have hsplit : tr = early ++ f :: (late ++ e :: post) := by simpa using htr
  exact hundisturbed early f _ launchId hsplit hmoves d hd hclaims
    (fun heq => hne (by rw [← heq, hcaller])) e (by simp) hcaller.symm

/-- Tried edges that fit what they found were taken. -/
theorem attempts_taken {edges : List (LaunchStatus × LaunchStatus)} {attempts : List Attempt}
    (hedges : attempts.map (fun a => (a.expected, a.new)) = edges) {status : LaunchStatus}
    (hstatus : statusAfter attempts = some status) :
    (edges = [(.reserved, .spawning)] → attempts = [⟨.reserved, .spawning, true⟩]) ∧
    (edges = [(.reserved, .spawning), (.spawning, .active)] →
      attempts = [⟨.reserved, .spawning, true⟩, ⟨.spawning, .active, true⟩] ∧ status = .active) := by
  constructor
  · rintro rfl
    obtain ⟨a, rest, rfl, ha, hrest⟩ := List.map_eq_cons_iff.mp hedges
    obtain rfl := List.map_eq_nil_iff.mp hrest
    obtain ⟨expected, new, ok⟩ := a
    cases ha
    cases ok with
    | true => rfl
    | false => cases hstatus
  · rintro rfl
    obtain ⟨a, rest, rfl, ha, hrest⟩ := List.map_eq_cons_iff.mp hedges
    obtain ⟨b, rest, rfl, hb, hrest⟩ := List.map_eq_cons_iff.mp hrest
    obtain rfl := List.map_eq_nil_iff.mp hrest
    obtain ⟨expected, new, ok⟩ := a
    obtain ⟨expected', new', ok'⟩ := b
    cases ha
    cases hb
    cases ok with
    | false => cases hstatus
    | true =>
      cases ok' with
      | false => cases hstatus
      | true =>
        cases hstatus
        exact ⟨rfl, rfl⟩

section Polling

theorem running_of_step {e : (spawnSystem H svc).Event} {runId : String}
    (hstep : (spawnSystem H svc).step e.answered e.before e.after)
    (hsave : ∀ run, e.answered.call = .inr (.inl (.save run)) → run.val.status ≠ .running)
    (hbefore : ¬ Running runId e.before.2.1) (hafter : Running runId e.after.2.1) :
    ∃ now message, e.answered.call = .inr (.inl (.updateRow runId .running now message)) := by
  obtain ⟨i, o, ⟨c | c | c, r⟩, s, s'⟩ := e
  · have hsame : s'.2 = s.2 := hstep.2
    exact absurd (hsame ▸ hafter) hbefore
  swap
  · have hsame : s'.2.1 = s.2.1 := hstep.1.2
    exact absurd (hsame ▸ hafter) hbefore
  have hpoll : PollStore.step ⟨c, r⟩ s.2.1 s'.2.1 := hstep.1.1
  cases hwrite : c.isWrite with
  | false => exact absurd (PollStore.step_eq hpoll hwrite ▸ hafter) hbefore
  | true =>
    rcases hpoll with hserve | ⟨hsame, -⟩
    swap
    · exact absurd (hsame ▸ hafter) hbefore
    obtain ⟨row, hrow, hid, hstatus⟩ := hafter
    cases c with
    | save run =>
      have hrows : s'.2.1 = s.2.1.save run := hserve.2
      rw [hrows, PollStore.save, List.mem_append, List.mem_filter, List.mem_singleton] at hrow
      rcases hrow with hrow | rfl
      · exact absurd ⟨row, hrow.1, hid, hstatus⟩ hbefore
      · exact absurd hstatus (hsave run rfl)
    | updateRow id status now message =>
      rcases PollStore.updateRow_cases (.inl hserve) with ⟨hrows, -⟩ | ⟨hsame, -⟩
      · have hmem : row ∈ (s.2.1.withStatus id status now message).pollRuns := hrows ▸ hrow
        rcases mem_updateWhere.mp hmem with ⟨old, hold, hguard, rfl⟩ | ⟨hold, -⟩
        · rw [PollStore.set_status] at hstatus
          rw [PollStore.set_id, beq_iff_eq.mp hguard] at hid
          exact ⟨now, message, by rw [hstatus, hid]⟩
        · exact absurd ⟨row, hold, hid, hstatus⟩ hbefore
      · have hmem : row ∈ s.2.1.pollRuns := hsame ▸ hrow
        exact absurd ⟨row, hmem, hid, hstatus⟩ hbefore
    | recordLaunchMetadata id handle now launchId =>
      have hrows : s'.2.1 = s.2.1.recordLaunchMetadata id handle now launchId := hserve.2
      rw [hrows] at hrow
      rcases mem_updateWhere.mp hrow with ⟨old, hold, -, rfl⟩ | ⟨hold, -⟩
      · exact absurd ⟨old, hold, hid, hstatus⟩ hbefore
      · exact absurd ⟨row, hold, hid, hstatus⟩ hbefore
    | _ => cases hwrite

theorem callGuard_of_event (run : (spawnSystem H svc).Run tr cfg)
    {pre post : List (spawnSystem H svc).Event} {e : (spawnSystem H svc).Event}
    (htr : tr = pre ++ e :: post) :
    callGuard (System.Run.history e.caller pre) e.answered.call :=
  run.ensures_event htr (program_guarded svc e.op)

theorem guard_of_poller (run : (spawnSystem H svc).Run tr cfg)
    {pre post : List (spawnSystem H svc).Event} {e : (spawnSystem H svc).Event}
    (htr : tr = pre ++ e :: post) {c : PollCall} (hcall : e.answered.call = .inr (.inl c)) :
    ∃ own, ofPoller (System.Run.history e.caller pre) own ∧ spawnGuard own (.inl c) :=
  (callGuard_of_event run htr).2 c hcall

theorem drawn_event {own : List (Answered (worldSignature H) Exn)} {i : Nat}
    (hown : ofPoller (System.Run.history i tr) own) {runId : String}
    (hdrawn : .ok (.inl .uuid4Hex) runId ∈ own) :
    ∃ d ∈ tr, d.caller = i ∧ d.answered = .ok (.inr (.inl .uuid4Hex)) runId := by
  have hmem : (.lift (.inr surfaceSignature _) (.ok (.inl .uuid4Hex) runId) :
      Answered (spawnSignature H) Exn) ∈ System.Run.history i tr := by
    rw [hown]
    exact List.mem_map_of_mem hdrawn
  obtain ⟨d, hd, hanswer⟩ := List.mem_map.mp hmem
  obtain ⟨hdtr, hcaller⟩ := System.Run.mem_own.mp hd
  exact ⟨d, hdtr, hcaller, hanswer⟩

theorem made_running (run : (spawnSystem H svc).Run tr cfg) {runId : String}
    (hrunning : Running runId cfg.store.2.1) :
    ∃ f ∈ tr, (∃ now message, f.answered.call = .inr (.inl (.updateRow runId .running now message))) ∧
      ∃ d ∈ tr, d.caller = f.caller ∧ d.answered = .ok (.inr (.inl .uuid4Hex)) runId := by
  have hinit : ∀ s, (spawnSystem H svc).initial s → ¬ Running runId s.2.1 := by
    rintro s h ⟨row, hrow, -⟩
    have hempty : s.2.1 = {} := congrArg (fun w => w.1) h
    rw [hempty] at hrow
    cases hrow
  obtain ⟨pre, f, post, htr, hbefore, hafter⟩ :=
    run.origin (P := fun s => Running runId s.2.1) hinit (fun s s' hout => hout.2 runId) hrunning
  have hf : f ∈ tr := by simp [htr]
  have hsave : ∀ run, f.answered.call = .inr (.inl (.save run)) → run.val.status ≠ .running := by
    intro saved hcall
    obtain ⟨own, -, hguard⟩ := guard_of_poller run htr hcall
    exact hguard
  obtain ⟨now, message, hcall⟩ := running_of_step (run.step_of_mem hf) hsave hbefore hafter
  obtain ⟨own, hown, hguard⟩ := guard_of_poller run htr hcall
  obtain ⟨d, hd, hcaller, hanswer⟩ := drawn_event hown hguard
  exact ⟨f, hf, ⟨now, message, hcall⟩, d, by simp [htr, hd], hcaller, hanswer⟩

/-- A spawn of the poller that answers a RUNNING run has confirmed its launch as active. -/
theorem confirmed_of_running (run : (spawnSystem H svc).Run tr cfg) (hfresh : FreshRunIds tr)
    {pre : List (spawnSystem H svc).Event} {e : (spawnSystem H svc).Event} (htr : tr = pre ++ [e])
    {own : List (Answered (worldSignature H) Exn)}
    (hown : ofPoller (System.Run.history e.caller tr) own) {v : PollRun}
    (houtcome : spawnOutcome own (.ok v)) (hrunning : v.val.status = .running) :
    Confirmed (System.Run.history e.caller tr) := by
  obtain ⟨runId, own', hdrawn, hlast⟩ := (houtcome v rfl).1 hrunning
  have hhistory : System.Run.history e.caller tr =
      System.Run.history e.caller pre ++ [e.answered] := by
    simp [htr, System.Run.history, System.Run.own]
  -- the last call read the row of the run
  have hanswer : e.answered = .ok (.inr (.inl (.getById runId))) (some v) := by
    have hsplit : System.Run.history e.caller pre ++ [e.answered] =
        own'.map (.lift (.inr surfaceSignature _)) ++
          [.lift (.inr surfaceSignature _) (.ok (.inl (.getById runId)) (some v))] := by
      rw [← hhistory, hown, hlast, List.map_append, List.map_singleton]
    exact List.singleton_inj.mp (List.append_inj' hsplit rfl).2
  obtain ⟨ss, next, hbefore, -⟩ := run.split htr
  have hrow : Running runId e.before.2.1 := by
    have hstep := run.step_of_mem (e := e) (by simp [htr])
    rw [hanswer] at hstep
    obtain ⟨-, hmem, hid⟩ := PollStore.getById_some hstep.1.1
    exact ⟨v.val, hmem, hid, hrunning⟩
  obtain ⟨f, hf, ⟨now, message, hcall⟩, d, hd, hdcaller, hdanswer⟩ := made_running hbefore hrow
  obtain ⟨d', hd', hcaller', hanswer'⟩ := drawn_event hown hdrawn
  have hsame : f.caller = e.caller := by
    rw [← hdcaller, ← hcaller']
    exact hfresh d (by simp [htr, hd]) d' hd' runId hdanswer hanswer'
  have hmem : f.answered ∈ System.Run.history e.caller tr := by
    refine List.mem_map.mpr ⟨f, System.Run.mem_own.mpr ⟨by simp [htr, hf], hsame⟩, rfl⟩
  rw [hown] at hmem
  obtain ⟨a, ha, hlift⟩ := List.mem_map.mp hmem
  rw [← hlift] at hcall
  obtain ⟨launchId, howns⟩ := (houtcome v rfl).2 ⟨a, ha, runId, now, message, Sum.inr.inj hcall⟩
  exact ⟨launchId, owns_of_poller hown howns⟩

end Polling

theorem confirmed_of_success (run : (spawnSystem H svc).Run tr cfg) (hfresh : FreshRunIds tr)
    {pre : List (spawnSystem H svc).Event} {e : (spawnSystem H svc).Event} (htr : tr = pre ++ [e])
    {o : SpawnOp} {v : o.Result} (houtcome : success o (System.Run.history e.caller tr) (.ok v))
    (hmanned : ∀ task model sessionName runId, o = .workflow task model sessionName runId →
      ¬ Agentless (System.Run.history e.caller tr))
    (hsuccess : reportsSuccess o v) : Confirmed (System.Run.history e.caller tr) := by
  cases o with
  | polling taskId taskSubject =>
    obtain ⟨own, hown, hspawn⟩ := houtcome
    exact confirmed_of_running run hfresh htr hown hspawn hsuccess
  | workflow task model sessionName runId =>
    exact (houtcome v rfl hsuccess).resolve_right (hmanned _ _ _ _ rfl)
  | manager config =>
    obtain ⟨agent, rfl⟩ := Option.ne_none_iff_exists'.mp hsuccess
    exact houtcome agent rfl
  | lifecycle op => exact hsuccess.elim

theorem history_append_left (i : Nat) {pre post : List (spawnSystem H svc).Event} :
    System.Run.history i pre <+: System.Run.history i (pre ++ post) := by
  unfold System.Run.history
  rw [System.Run.own_append, List.map_append]
  exact List.prefix_append _ _

/-- At most one live agent for a launch: it holds in every run in which whoever claimed a launch
that another caller moves is done with it, and in which sessions get their agents. -/
theorem exclusive_spawns (run : (spawnSystem H svc).Run tr cfg) (hundisturbed : Undisturbed tr)
    (hfresh : FreshRunIds tr) (hmanned : Manned tr) : Exclusive tr := by
  constructor
  · intro pre e post htr hcreates
    obtain ⟨launchId, howns⟩ := (callGuard_of_event run htr).1 hcreates
    obtain ⟨ss, next, hbefore, -⟩ := run.split htr
    obtain ⟨id, attempts, -, hattempts, hedges⟩ := howns (honest_of_run hbefore e.caller)
    obtain ⟨d, hd, hcaller, hclaims⟩ := claims_of_sinceClaim hattempts
    have halone := alone_of_undisturbed hundisturbed htr (by simp [htr, hd]) hcaller hclaims
    obtain ⟨r, -, -, hstatus⟩ := known_of_run hbefore halone hattempts
    refine ⟨id, hattempts.trans ?_⟩
    rw [(attempts_taken hedges hstatus).1 rfl]
  · intro pre e post ss v htr hrun hsession hsuccess
    have hsub : ∀ d ∈ pre ++ [e], d ∈ tr := by
      intro d hd
      rw [htr]
      exact (List.Sublist.append_left (List.singleton_sublist.mpr List.mem_cons_self) pre).subset hd
    have hagent : ∀ task model sessionName runId, e.op = .workflow task model sessionName runId →
        ¬ Agentless (System.Run.history e.caller (pre ++ [e])) := by
      intro task model sessionName runId hop hbad
      have htr' : tr = (pre ++ [e]) ++ post := by simp [htr]
      rw [htr'] at hmanned
      exact hmanned e (by simp) task model sessionName runId hop (hbad.of_prefix (history_append_left _))
    have hconfirmed := confirmed_of_success hrun (fun d hd e he => hfresh d (hsub d hd) e (hsub e he))
      rfl (hrun.ensures_outcome hsession (program_guarded svc e.op)) hagent hsuccess
    obtain ⟨launchId, howns⟩ := hconfirmed
    obtain ⟨id, attempts, -, hattempts, hedges⟩ := howns (honest_of_run hrun e.caller)
    obtain ⟨d, hd, hcaller, hclaims⟩ := claims_of_sinceClaim hattempts
    have halone := alone_of_undisturbed hundisturbed htr (hsub d hd) hcaller hclaims
    have halone' : ∀ f ∈ pre ++ [e], MovesLaunch id f → f.caller = e.caller := by
      intro f hf hmoves
      rcases List.mem_append.mp hf with hf | hf
      · exact halone f hf hmoves
      · rw [List.mem_singleton.mp hf]
    obtain ⟨r, hr, hid, hstatus⟩ := known_of_run hrun halone' hattempts
    obtain ⟨htaken, hactive⟩ := (attempts_taken hedges hstatus).2 rfl
    exact ⟨id, hattempts.trans (by rw [htaken]), r, hr, hid, hactive⟩

section Sample

/-- tmux, a backend, and the agents of a manager that has none yet; the rest of the surroundings as
the poller has them. -/
def respondSurface (now : Int) : (c : SurfaceCall) → Except Exn c.Value
  | .uuid4Hex => .ok "0123456789abcdef"
  | .time => .ok now
  | .createSession _ | .launchAgent .. | .waitForSession .. => .ok true
  | .getDefaultBackend => .ok (some "pi")
  | .createWorkspace name => .ok ("/worktrees/" ++ name)
  | .hasAgent _ => .ok false
  | .newSession .. => .ok (0 : Int)
  | .saveEvent _ | .dispatchWorktreeCreated .. | .setAgent _ | .killSession _ => .ok ()

def respondSpawn (o : Oracle) : (c : (spawnSignature plainHashing).Call) → Unit × World →
    Option (Except Exn ((spawnSignature plainHashing).Value c) × (Unit × World))
  | .inl c, s => some (respondSurface o.now c, s)
  | .inr c, s => (respond o plainHashing c s.2).map fun answer => (answer.1, s.1, answer.2)

theorem respondSpawn_step (o : Oracle) (c : (spawnSignature plainHashing).Call) (s : Unit × World)
    (r : Except Exn ((spawnSignature plainHashing).Value c)) (s' : Unit × World)
    (h : respondSpawn o c s = some (r, s')) : (spawnSystem plainHashing svc).step ⟨c, r⟩ s s' := by
  obtain c | c := c
  · cases h
    exact ⟨trivial, rfl⟩
  · obtain ⟨answer, hanswer, heq⟩ := Option.map_eq_some_iff.mp h
    cases heq
    exact ⟨step_of_serve (respond_serve c s.2 _ _ hanswer), rfl⟩

def playSpawns (moves : List ((spawnSystem plainHashing {}).Move Oracle)) :
    Option (List (spawnSystem plainHashing {}).Event × (spawnSystem plainHashing {}).Config) :=
  (spawnSystem plainHashing {}).play respondSpawn moves ⟨((), {}, {}, {}, {}), fun _ => none⟩

theorem run_of_playSpawns {moves : List ((spawnSystem plainHashing {}).Move Oracle)}
    {tr : List (spawnSystem plainHashing {}).Event} {cfg : (spawnSystem plainHashing {}).Config}
    (h : playSpawns moves = some (tr, cfg)) : (spawnSystem plainHashing {}).Run tr cfg := by
  have hinitial : (spawnSystem plainHashing {}).Run [] ⟨((), {}, {}, {}, {}), fun _ => none⟩ :=
    .initial rfl
  exact hinitial.play respondSpawn_step h

def managedAgent : AgentConfig where
  name := "agent"
  workingDir := "/work"
  tmuxSession := some "session"

/-- The next `n` calls of a caller at a time, with a fresh launch id at hand. -/
def callsAt (i n now : Nat) (launchId : String) : List ((spawnSystem plainHashing {}).Move Oracle) :=
  List.replicate n (.call i { now, launchId })

def plannedTask : WorkflowTask where
  id := "1"
  slug := "task"
  description := "do it"

section Checks

variable (tr : List (spawnSystem plainHashing {}).Event)

/-- The launch that an event claims, and the one that it moves. -/
def claimedId (e : (spawnSystem plainHashing {}).Event) : Option String :=
  match seenSpawn e.answered with
  | some ⟨.insert row, .ok true⟩ => some row.launchId
  | _ => none

def movedId (e : (spawnSystem plainHashing {}).Event) : Option String :=
  match seenSpawn e.answered with
  | some ⟨.casUpdate launchId _ _ _, _⟩ => some launchId
  | _ => none

/-- Nobody moves a launch that another caller has claimed. -/
def movesOwn : Bool :=
  tr.all fun d => tr.all fun e =>
    d.caller == e.caller || !(claimedId d).any fun id => movedId e == some id

/-- An answer that is none of those that leave a session without its agent. -/
def starts : Answered (spawnSignature plainHashing) Exn → Bool
  | ⟨.inl .getDefaultBackend, r⟩ => match r with | .ok (some _) => true | _ => false
  | ⟨.inl (.launchAgent ..), r⟩ => match r with | .ok true => true | _ => false
  | ⟨.inr (.inr (.inl (.findActiveByCanonicalKey _))), r⟩ => match r with | .ok none => true | _ => false
  | ⟨.inr (.inr (.inl _)), r⟩ => match r with | .ok _ => true | _ => false
  | _ => true

/-- An event of the table of poll runs. -/
def polls (e : (spawnSystem plainHashing {}).Event) : Bool :=
  match e.answered.call with
  | .inr (.inl _) => true
  | _ => false

variable {tr}

theorem freshRunIds_of_polls (h : tr.all (fun e => !polls e) = true) : FreshRunIds tr := by
  intro d hd e he runId hdrawn _
  have hcheck := List.all_eq_true.mp h d hd
  simp [polls, hdrawn] at hcheck

theorem undisturbed_of_movesOwn (h : movesOwn tr = true) : Undisturbed tr := by
  rintro pre e post launchId htr ⟨a, ha, hsets⟩ d hd ⟨row, hid, hclaims⟩ hne
  have hcheck := List.all_eq_true.mp (List.all_eq_true.mp h d hd) e (by simp [htr])
  have hclaimed : claimedId d = some launchId := by
    simp [claimedId, hclaims, hid]
  have hmoved : movedId e = some launchId := by
    obtain ⟨expected, new, columns, hcall⟩ := hsets
    obtain ⟨c, r⟩ := a
    cases hcall
    simp [movedId, ha]
  simp [hclaimed, hmoved, hne] at hcheck

theorem manned_of_starts (h : tr.all (fun e => starts e.answered) = true) : Manned tr := by
  have hstarts : ∀ {i a}, a ∈ System.Run.history i tr → starts a = true := by
    intro i a ha
    obtain ⟨e, he, rfl⟩ := List.mem_map.mp ha
    exact List.all_eq_true.mp h e (System.Run.mem_own.mp he).1
  intro e he task model sessionName runId hop hbad
  rcases hbad with ⟨name, a, ha, hsub⟩ | ⟨canonicalKey, existing, -, hmem⟩
  · have hgood := hstarts (hsub.subset (List.mem_cons_of_mem _ (List.mem_singleton_self a)))
    unfold Misfires at ha
    unfold starts at hgood
    split at ha <;> grind
  · obtain ⟨⟨c, r⟩, ha, hseen⟩ := List.mem_filterMap.mp hmem
    have hgood := hstarts ha
    obtain c | c | c | c := c <;> cases hseen
    cases hgood

end Checks

/-- A manager and a workflow executor that spawn side by side, and a reconciliation between. -/
theorem exclusive_spawns_together :
    ∃ tr cfg, (spawnSystem plainHashing {}).Run tr cfg ∧ Exclusive tr ∧
      (∃ d ∈ tr, ∃ e ∈ tr, d.caller ≠ e.caller ∧ createsProcess d.answered.call = true ∧
        createsProcess e.answered.call = true) ∧
      cfg.store.2.2.1.agentLaunchRegistry.map (·.status) = [.active, .active] := by
  obtain ⟨tr, cfg, hplay, hpolls, hmoves, hstarts, hmanager, hworkflow, hstatus⟩ : ∃ tr cfg,
      playSpawns (.invoke 0 (.manager managedAgent) :: callsAt 0 7 0 "launch-1" ++
        .invoke 1 (.workflow plannedTask "model" (some "session") (some "run")) ::
          callsAt 1 10 0 "launch-2" ++ .invoke 2 (.lifecycle .reconcileExpiredLeases) ::
            callsAt 2 2 1000 "" ++ callsAt 0 7 1000 "" ++ callsAt 1 8 1000 "") = some (tr, cfg) ∧
      tr.all (fun e => !polls e) = true ∧ movesOwn tr = true ∧
      tr.all (fun e => starts e.answered) = true ∧
      tr.any (fun e => e.caller == 0 && createsProcess e.answered.call) = true ∧
      tr.any (fun e => e.caller == 1 && createsProcess e.answered.call) = true ∧
      cfg.store.2.2.1.agentLaunchRegistry.map (·.status) = [.active, .active] :=
    ⟨_, _, rfl, rfl, rfl, rfl, rfl, rfl, rfl⟩
  have hrun := run_of_playSpawns hplay
  obtain ⟨d, hd, hd'⟩ := List.any_eq_true.mp hmanager
  obtain ⟨e, he, he'⟩ := List.any_eq_true.mp hworkflow
  rw [Bool.and_eq_true, beq_iff_eq] at hd' he'
  refine ⟨tr, cfg, hrun, exclusive_spawns hrun (undisturbed_of_movesOwn hmoves)
    (freshRunIds_of_polls hpolls) (manned_of_starts hstarts), ⟨d, hd, e, he, ?_, hd'.2, he'.2⟩, hstatus⟩
  rw [hd'.1, he'.1]
  decide

/-- Only this launch was claimed. -/
def claimsOnly (launchId : String) (h : List (Answered launchSignature Exn)) : Bool :=
  h.all fun
    | ⟨.insert row, .ok true⟩ => row.launchId == launchId
    | _ => true

/-- A lease that runs out before the launch is confirmed: the reconciliation quarantines the launch
and the manager creates its session all the same. -/
theorem process_of_quarantined_launch :
    ¬ ∀ tr cfg, (spawnSystem plainHashing {}).Run tr cfg → Exclusive tr := by
  intro h
  obtain ⟨tr, cfg, hplay, e, hsplit, hcreates, hclaims, hsince⟩ : ∃ tr cfg,
      playSpawns (.invoke 0 (.manager managedAgent) :: callsAt 0 7 0 "launch" ++
        .invoke 1 (.lifecycle .reconcileExpiredLeases) :: callsAt 1 4 300000 "" ++
          callsAt 0 3 300000 "") = some (tr, cfg) ∧
      ∃ e, tr = tr.take 13 ++ [e] ∧ createsProcess e.answered.call = true ∧
        claimsOnly "launch" (registryHistory e.caller (tr.take 13)) = true ∧
        sinceClaim "launch" (registryHistory e.caller (tr.take 13)) =
          some [⟨.reserved, .spawning, false⟩] := ⟨_, _, rfl, _, rfl, rfl, rfl, rfl⟩
  obtain ⟨launchId, hmoved⟩ := (h tr cfg (run_of_playSpawns hplay)).1 _ e [] hsplit hcreates
  obtain ⟨row, hid, hmem⟩ := claim_of_sinceClaim hmoved
  have hlaunch : launchId = "launch" := by
    rw [← hid]
    exact beq_iff_eq.mp (List.all_eq_true.mp hclaims _ hmem)
  rw [hlaunch, hsince] at hmoved
  exact absurd hmoved (by decide)

end Sample

end ForkAgent.Spawn

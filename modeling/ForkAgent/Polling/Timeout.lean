import ForkAgent.Polling.Unresolved

/-!
# The timeout of an unresolved spawn

A check takes the age of a run from the time of its last move. A run that was saved and not moved yet has no such
time, and is taken to be as old as the epoch. So a check that finds a run `QUEUED` quarantines it at once, while one
that finds it `SPAWNING` waits until the timeout has passed.
-/

namespace ForkAgent.Polling

open Effects Storage Launch

variable {H : Fpel.Hashing}

section Timed

variable {tr pre pre' post post' : List (pollersSystem H).Event} {cfg : (pollersSystem H).Config}
variable {d e : (pollersSystem H).Event} {id : String}

/-- The time in milliseconds at each place of a trace. It never goes back, and the calls that read the clock answer
it. -/
structure Clock (tr : List (pollersSystem H).Event) where
  time : ℕ → ℕ
  mono : Monotone time
  reads : ∀ pre e post now, tr = pre ++ e :: post → e.answered = .ok (.inl .timeMs) now → now = time pre.length

/-- No two runs are saved under one id. -/
def SavedOnce (tr : List (pollersSystem H).Event) : Prop := (tr.filterMap fun e => savedId e.answered).Nodup

/-- The check has listed the run as `QUEUED`, and has just read its status file. -/
def FoundQueued (id : String) (h : Answers H) : Prop :=
  ∃ before file active run, h = before ++ [readStatus id file] ∧ listedActive active ∈ before ∧ run ∈ active ∧
    run.val.id = id ∧ run.val.status = .queued

/-- The timeout has passed from the first place to the second. -/
def Clock.TimeoutPassed (clock : Clock tr) (first second : ℕ) : Prop :=
  clock.time first + 1000 * queuedTimeoutS < clock.time second

/-- Where a check reads the clock for a run that it found `QUEUED`, the timeout has passed since the run was
saved. -/
def TimesQueuedLate (clock : Clock tr) : Prop :=
  ∀ pre e post pre' d post' id, tr = pre ++ e :: post → tr = pre' ++ d :: post' → e.op.2 = .checkRuns →
    e.answered.call = .inl .timeMs → FoundQueued id (System.Run.history e.caller pre) →
    savedId d.answered = some id → clock.TimeoutPassed pre'.length pre.length

/-- From the one place of the trace to the other the run has the status. -/
def KeepsStatus (tr : List (pollersSystem H).Event) (id : String) (status : PollRunStatus) (first last : ℕ) : Prop :=
  ∀ pre e post, tr = pre ++ e :: post → first ≤ pre.length → pre.length ≤ last →
    ∃ r ∈ e.before.1.pollRuns, r.id = id ∧ r.status = status

/-- A check quarantines a run only if the timeout has passed since the run was saved. A run that has kept its
unresolved status for longer than the timeout where a check begins is quarantined by it, when the check comes to an
end and does not find that the run has reported its own. -/
structure TimeoutHonoured (tr : List (pollersSystem H).Event) (cfg : (pollersSystem H).Config) (clock : Clock tr) :
    Prop where
  notEarly : ∀ pre e post pre' d post' id, tr = pre ++ e :: post → tr = pre' ++ d :: post' → e.op.2 = .checkRuns →
    QuarantinesRun id e.answered → savedId d.answered = some id → clock.TimeoutPassed pre'.length pre.length
  inTime : ∀ pre e post svc out id status since, tr = pre ++ e :: post → (∀ d ∈ pre, d.caller ≠ e.caller) →
    cfg.sessions e.caller = some ⟨(svc, .checkRuns), .ret out⟩ → PollRunStatus.IsUnresolved status →
    KeepsStatus tr id status since pre.length → clock.TimeoutPassed since pre.length →
    ∃ d ∈ tr, d.caller = e.caller ∧ ((∃ file, d.answered = readStatus id file ∧ file.ReportsEnd) ∨
      QuarantinesRun id d.answered ∧ At id .quarantined d.after.1)

theorem SavedOnce.not_twice {mid : List (pollersSystem H).Event} (honce : SavedOnce tr)
    (htr : tr = pre ++ e :: (mid ++ d :: post)) (he : savedId e.answered = some id)
    (hd : savedId d.answered = some id) : False := by
  rw [SavedOnce, htr] at honce
  simp only [List.filterMap_append, List.filterMap_cons, he, hd] at honce
  have hrest := (List.nodup_append.mp honce).2.1
  simp at hrest

theorem SavedOnce.eq (honce : SavedOnce tr) (htr : tr = pre ++ e :: post) (htr' : tr = pre' ++ d :: post')
    (he : savedId e.answered = some id) (hd : savedId d.answered = some id) : pre = pre' ∧ e = d := by
  rcases List.append_eq_append_iff.mp (htr.symm.trans htr') with ⟨mid, hpre, hmid⟩ | ⟨mid, hpre, hmid⟩
  · cases mid with
    | nil =>
      cases hmid
      exact ⟨by rw [hpre, List.append_nil], rfl⟩
    | cons x mid =>
      cases hmid
      exact absurd hd fun hd => honce.not_twice htr he hd
  · cases mid with
    | nil =>
      cases hmid
      exact ⟨by rw [hpre, List.append_nil], rfl⟩
    | cons x mid =>
      cases hmid
      exact absurd he fun he => honce.not_twice htr' hd he

/-- A run is spawned by the caller that saved it, which has not spawned it before, with a time from in between. -/
theorem spawn_follows_save (run : (pollersSystem H).Run tr cfg) (clock : Clock tr) (htr : tr = pre ++ e :: post)
    {now : Int} {errorMessage : Option String}
    (he : e.answered.call = .inl (.updateRow id .spawning now errorMessage)) :
    ∃ before d mid t, pre = before ++ d :: mid ∧ d.caller = e.caller ∧ savedId d.answered = some id ∧
      (∀ x ∈ mid, x.caller = e.caller → ¬ SpawnsRun id x.answered) ∧
      before.length ≤ t ∧ t ≤ pre.length ∧ now = Int.ofNat (clock.time t) := by
  have hguard := run.ensures_event htr (program_timed e.op.1 e.op.2)
  rw [he] at hguard
  obtain ⟨_, n, hhistory, rfl, first, a, after, rfl, hsaved, hafter⟩ := hguard.2 rfl
  rw [List.append_assoc, List.cons_append] at hhistory
  obtain ⟨before, d, mid, rfl, hcaller, rfl, -, hmid⟩ := System.Run.split_history hhistory
  obtain ⟨mid₁, c, mid₂, rfl, -, hreads, -, -⟩ := System.Run.split_history hmid
  have htr' : tr = (before ++ d :: mid₁) ++ c :: (mid₂ ++ e :: post) := by simp [htr]
  have hnow := clock.reads _ c _ n htr' hreads
  refine ⟨before, d, _, (before ++ d :: mid₁).length, rfl, hcaller, hsaved, ?_, by simp, by simp, ?_⟩
  · intro x hx hxcaller hspawns
    have hmem : x.answered ∈ System.Run.history e.caller (mid₁ ++ c :: mid₂) :=
      List.mem_map_of_mem (System.Run.mem_own.mpr ⟨hx, hxcaller⟩)
    rw [hmid] at hmem
    cases List.mem_append.mp hmem with
    | inl hx => exact hafter _ hx hspawns
    | inr hx =>
      obtain ⟨_, _, hcall⟩ := hspawns
      rw [List.mem_singleton.mp hx] at hcall
      cases hcall
  · rw [hnow]

theorem spawns_once (run : (pollersSystem H).Run tr cfg) (clock : Clock tr) (honce : SavedOnce tr)
    {mid : List (pollersSystem H).Event} (htr : tr = pre ++ e :: (mid ++ d :: post))
    (he : SpawnsRun id e.answered) (hd : SpawnsRun id d.answered) : False := by
  obtain ⟨now, errorMessage, hcall⟩ := he
  obtain ⟨now', errorMessage', hcall'⟩ := hd
  have htr' : tr = (pre ++ e :: mid) ++ d :: post := by simp [htr]
  obtain ⟨first, s, mid₁, -, hpre, hcaller, hsaved, -⟩ := spawn_follows_save run clock htr hcall
  obtain ⟨first', s', mid₂, -, hpre', hcaller', hsaved', hunspawned, -⟩ := spawn_follows_save run clock htr' hcall'
  have hfirst : tr = first ++ s :: (mid₁ ++ e :: (mid ++ d :: post)) := by
    rw [htr, hpre, List.append_assoc, List.cons_append]
  have hfirst' : tr = first' ++ s' :: (mid₂ ++ d :: post) := by rw [htr', hpre', List.append_assoc, List.cons_append]
  obtain ⟨rfl, rfl⟩ := honce.eq hfirst hfirst' hsaved hsaved'
  have hmid : mid₂ = mid₁ ++ e :: mid := by
    rw [hpre, List.append_assoc] at hpre'
    simpa using hpre'.symm
  apply hunspawned e (by simp [hmid])
  · rw [← hcaller, hcaller']
  · exact ⟨now, errorMessage, hcall⟩

end Timed

section Rows

variable {s s' : PollStore} {r : PollRunFields}

/-- The two rows are of one run in one status, since one time. -/
structure SameSince (r r' : PollRunFields) : Prop where
  id : r'.id = r.id
  status : r'.status = r.status
  startedAt : r'.startedAt = r.startedAt

/-- A row was so before, or is saved so, or was just moved to its status. -/
theorem row_before {c : PollCall} {answer : Except Exn c.Value} (h : PollStore.step ⟨c, answer⟩ s s')
    (hr : r ∈ s'.pollRuns) : (∃ r₀ ∈ s.pollRuns, SameSince r r₀) ∨ (∃ run : PollRun, c = .save run ∧ r = run.val) ∨
      ∃ now errorMessage, c = .updateRow r.id r.status now errorMessage ∧
        (r.status.isTerminal = false → r.startedAt = some now) := by
  have hstays (hsame : s' = s) : ∃ r₀ ∈ s.pollRuns, SameSince r r₀ := by
    rw [hsame] at hr
    exact ⟨r, hr, rfl, rfl, rfl⟩
  by_cases hwrite : c.isWrite = true
  swap
  · exact .inl (hstays (PollStore.step_eq h (by simpa using hwrite)))
  cases c with
  | save run =>
    rcases h with ⟨-, hsave⟩ | ⟨hsame, -⟩
    swap
    · exact .inl (hstays hsame)
    rw [hsave] at hr
    cases List.mem_append.mp hr with
    | inl hr => exact .inl ⟨r, (List.mem_filter.mp hr).1, rfl, rfl, rfl⟩
    | inr hr => exact .inr (.inl ⟨run, rfl, List.mem_singleton.mp hr⟩)
  | updateRow id status now errorMessage =>
    rcases PollStore.updateRow_cases h with ⟨hset, -⟩ | ⟨hsame, -⟩
    swap
    · exact .inl (hstays hsame)
    rw [hset] at hr
    obtain ⟨r₀, hr₀, rfl⟩ := List.mem_map.mp hr
    by_cases hid : (r₀.id == id) = true
    · rw [if_pos hid]
      refine .inr (.inr ⟨now, errorMessage, ?_, fun hlive => ?_⟩)
      · rw [PollStore.set_id, PollStore.set_status, beq_iff_eq.mp hid]
      · rw [PollStore.set_status] at hlive
        simp [PollStore.set, hlive]
    · rw [if_neg hid]
      exact .inl ⟨r₀, hr₀, rfl, rfl, rfl⟩
  | recordLaunchMetadata id handle now launchId =>
    rcases h with ⟨-, hset⟩ | ⟨hsame, -⟩
    swap
    · exact .inl (hstays hsame)
    rw [hset] at hr
    obtain ⟨r₀, hr₀, rfl⟩ := List.mem_map.mp hr
    refine .inl ⟨r₀, hr₀, ?_⟩
    split_ifs
    · exact ⟨rfl, rfl, rfl⟩
    · exact ⟨rfl, rfl, rfl⟩
  | _ => cases hwrite

variable {tr : List (pollersSystem H).Event} {cfg : (pollersSystem H).Config}

theorem row_of_run (run : (pollersSystem H).Run tr cfg) (hr : r ∈ cfg.store.1.pollRuns) :
    ∃ pre e post, tr = pre ++ e :: post ∧
      ((∃ saved : PollRun, e.answered.call = .inl (.save saved) ∧ SameSince r saved.val) ∨
        ∃ now errorMessage, e.answered.call = .inl (.updateRow r.id r.status now errorMessage) ∧
          (r.status.isTerminal = false → r.startedAt = some now)) := by
  obtain ⟨pre, e, post, htr, hbefore, r', hr', hsame⟩ := run.origin (P := fun w => ∃ r' ∈ w.1.pollRuns, SameSince r r')
    (by rintro w rfl ⟨r', hr', -⟩; cases hr')
    (by rintro w w' hout ⟨r', hr', hsame⟩; exact ⟨r', by rwa [← runs_of_outside hout], hsame⟩) ⟨r, hr, rfl, rfl, rfl⟩
  refine ⟨pre, e, post, htr, ?_⟩
  have hstep := run.step_of_mem (e := e) (by simp [htr])
  obtain ⟨caller, op, ⟨c | c, answer⟩, before, after⟩ := e
  swap
  · have hstore : after.1 = before.1 := hstep.2
    exact absurd ⟨r', by rwa [← hstore], hsame⟩ hbefore
  obtain ⟨r₀, hr₀, hr₀same⟩ | ⟨saved, rfl, rfl⟩ | ⟨now, errorMessage, rfl, hlive⟩ := row_before hstep.1 hr'
  · exact absurd ⟨r₀, hr₀, hr₀same.id.trans hsame.id, hr₀same.status.trans hsame.status,
      hr₀same.startedAt.trans hsame.startedAt⟩ hbefore
  · exact .inl ⟨saved, rfl, hsame⟩
  · refine .inr ⟨now, errorMessage, ?_, ?_⟩
    · rw [← hsame.id, ← hsame.status]
    · rw [← hsame.status, ← hsame.startedAt]
      exact hlive

theorem queued_startedAt (run : (pollersSystem H).Run tr cfg) (hr : r ∈ cfg.store.1.pollRuns)
    (hstatus : r.status = .queued) : r.startedAt = none := by
  obtain ⟨pre, e, post, htr, ⟨saved, hcall, hsame⟩ | ⟨now, errorMessage, hcall, -⟩⟩ := row_of_run run hr
  · have hguard := run.ensures_event htr (program_timed e.op.1 e.op.2)
    rw [hcall] at hguard
    rw [← hsame.startedAt]
    exact hguard.1
  · have hguard := run.ensures_event htr (program_timed e.op.1 e.op.2)
    rw [hcall] at hguard
    exact absurd hstatus hguard.1

theorem spawning_startedAt (run : (pollersSystem H).Run tr cfg) (hr : r ∈ cfg.store.1.pollRuns)
    (hstatus : r.status = .spawning) : ∃ pre e post now errorMessage, tr = pre ++ e :: post ∧
      e.answered.call = .inl (.updateRow r.id .spawning now errorMessage) ∧ r.startedAt = some now := by
  obtain ⟨pre, e, post, htr, ⟨saved, hcall, hsame⟩ | ⟨now, errorMessage, hcall, hlive⟩⟩ := row_of_run run hr
  · have hguard := run.ensures_event htr (program_timed e.op.1 e.op.2)
    rw [hcall] at hguard
    exact absurd (hsame.status.trans hstatus) hguard.2
  · rw [hstatus] at hcall hlive
    exact ⟨pre, e, post, now, errorMessage, htr, hcall, hlive rfl⟩

end Rows

section Honoured

variable {tr pre pre' post post' : List (pollersSystem H).Event} {cfg : (pollersSystem H).Config}
variable {d e : (pollersSystem H).Event} {id : String} {active : List PollRun}

theorem listed_rows {s s' : PollStore} (h : PollStore.step (.ok .listActive active) s s') :
    (active.map (·.val)).Perm s.activeRows := by
  rcases h with ⟨-, rows, hordered, hanswer⟩ | ⟨-, m, hm⟩
  swap
  · cases hm
  rw [listMapM_construct_eq_ok hanswer.symm]
  exact hordered.1

theorem spawned_between (run : (pollersSystem H).Run tr cfg) (clock : Clock tr) (htr : tr = pre ++ e :: post)
    {r : PollRunFields} (hr : r ∈ e.before.1.pollRuns) (hstatus : r.status = .spawning) :
    ∃ first d mid x rest t, pre = first ++ d :: (mid ++ x :: rest) ∧ savedId d.answered = some r.id ∧
      SpawnsRun r.id x.answered ∧ first.length ≤ t ∧ t ≤ (first ++ d :: mid).length ∧
      r.startedAt = some (Int.ofNat (clock.time t)) := by
  obtain ⟨ss, next, hbefore, -⟩ := run.split htr
  obtain ⟨pre₁, x, rest, now, errorMessage, rfl, hcall, hstarted⟩ := spawning_startedAt hbefore hr hstatus
  have htr' : tr = pre₁ ++ x :: (rest ++ e :: post) := by simp [htr]
  obtain ⟨first, d, mid, t, rfl, -, hsaved, -, hfirst, hlast, rfl⟩ := spawn_follows_save run clock htr' hcall
  exact ⟨first, d, mid, x, rest, t, by simp, hsaved, ⟨_, _, hcall⟩, hfirst, hlast, hstarted⟩

/-- A check that times runs found `QUEUED` late quarantines none early. -/
theorem not_early (run : (pollersSystem H).Run tr cfg) (clock : Clock tr) (honce : SavedOnce tr)
    (hlate : TimesQueuedLate clock) (htr : tr = pre ++ e :: post) (htr' : tr = pre' ++ d :: post')
    (hop : e.op.2 = .checkRuns) (he : QuarantinesRun id e.answered) (hd : savedId d.answered = some id) :
    clock.TimeoutPassed pre'.length pre.length := by
  have hchecks : ((pollersSystem H).program e.op).Ensures checkGuard (fun _ _ => True) [] := by
    obtain ⟨caller, ⟨svc, op⟩, answered, before, after⟩ := e
    cases hop
    exact (checkRuns_done svc).mono (fun _ _ h => h) fun _ _ _ => trivial
  have hguard := run.ensures_event htr hchecks
  obtain ⟨now', errorMessage, hanswered⟩ := he
  rw [hanswered] at hguard
  obtain ⟨before, file, now, after, active, found, hhistory, hlisted, hfound, rfl, hunresolved, hoverdue⟩ :=
    hguard rfl
  -- the reading of the clock
  have hclock : System.Run.history e.caller pre = (before ++ [readStatus found.val.id file]) ++
      .ok (.inl .timeMs) now :: after := by rw [hhistory, List.append_assoc, List.singleton_append]
  obtain ⟨pre₁, c, post₁, rfl, hcaller, hreads, hpre₁, -⟩ := System.Run.split_history hclock
  have htr₁ : tr = pre₁ ++ c :: (post₁ ++ e :: post) := by simp [htr]
  have hnow := clock.reads _ _ _ _ htr₁ hreads
  have hlater : clock.time pre₁.length ≤ clock.time (pre₁ ++ c :: post₁).length := clock.mono (by simp)
  suffices hpassed : clock.TimeoutPassed pre'.length pre₁.length from lt_of_lt_of_le hpassed hlater
  cases hunresolved with
  | inl hqueued =>
    have hcheck : c.op.2 = .checkRuns := by
      rw [run.op_eq (by simp [htr₁]) (by simp [htr]) hcaller]
      exact hop
    apply hlate pre₁ c _ pre' d post' found.val.id htr₁ htr' hcheck
    · rw [hreads]
    · rw [hcaller]
      exact ⟨before, file, active, found, hpre₁, hlisted, hfound, rfl, hqueued⟩
    · exact hd
  | inr hspawning =>
    -- the listing
    obtain ⟨first, last, rfl⟩ := List.append_of_mem hlisted
    rw [List.append_assoc, List.cons_append] at hpre₁
    obtain ⟨pre₂, l, post₂, rfl, -, hlists, -, -⟩ := System.Run.split_history hpre₁
    have htr₂ : tr = pre₂ ++ l :: (post₂ ++ c :: (post₁ ++ e :: post)) := by simp [htr₁]
    have hstep := run.step_of_mem (e := l) (by simp [htr₂])
    rw [hlists] at hstep
    have hrow : found.val ∈ l.before.1.pollRuns :=
      (List.mem_filter.mp ((listed_rows hstep.1).subset (List.mem_map_of_mem hfound))).1
    obtain ⟨pre₃, s, mid, x, rest, t, rfl, hsaved, -, hfirst, -, hstarted⟩ :=
      spawned_between run clock htr₂ hrow hspawning
    obtain ⟨rfl, -⟩ := honce.eq (by rw [htr₂, List.append_assoc, List.cons_append]) htr' hsaved hd
    have hspawned : clock.time pre₃.length ≤ clock.time t := clock.mono hfirst
    have hage : 1000 * Int.ofNat queuedTimeoutS < Int.ofNat now - found.val.startedAt.getD 0 := hoverdue
    rw [hstarted, hnow] at hage
    simp only [Option.getD_some, Int.ofNat_eq_natCast] at hage
    unfold Clock.TimeoutPassed
    omega

theorem length_le_of_first (htr : tr = pre ++ e :: post) (hfirst : ∀ d ∈ pre, d.caller ≠ e.caller)
    (htr' : tr = pre' ++ d :: post') (hread : System.Run.history e.caller pre' ≠ []) : pre.length ≤ pre'.length := by
  by_contra hlt
  apply hread
  have hstart : pre' <+: tr := ⟨_, htr'.symm⟩
  have hstart' : pre <+: tr := ⟨_, htr.symm⟩
  have hsub : pre' <+: pre := List.prefix_of_prefix_length_le hstart hstart' (by omega)
  rw [System.Run.history, List.map_eq_nil_iff]
  apply List.filter_eq_nil_iff.mpr
  intro x hx
  simpa using hfirst x (hsub.subset hx)

/-- A run that has kept its unresolved status for longer than the timeout is overdue. -/
theorem overdue_of_kept (run : (pollersSystem H).Run tr cfg) (clock : Clock tr) (honce : SavedOnce tr)
    (htr : tr = pre ++ e :: post) {r : PollRunFields} (hr : r ∈ e.before.1.pollRuns) {since now : ℕ}
    (hunresolved : r.status.IsUnresolved) (hkept : KeepsStatus tr r.id r.status since pre.length)
    (hlong : clock.TimeoutPassed since pre.length) (hnow : clock.time pre.length ≤ now) :
    1000 * Int.ofNat queuedTimeoutS < Int.ofNat now - r.startedAt.getD 0 := by
  have hpassed : clock.time since + 1000 * queuedTimeoutS < clock.time pre.length := hlong
  cases hunresolved with
  | inl hqueued =>
    obtain ⟨ss, next, hbefore, -⟩ := run.split htr
    rw [queued_startedAt hbefore hr hqueued]
    simp only [Option.getD_none, Int.ofNat_eq_natCast]
    omega
  | inr hspawning =>
    obtain ⟨first, s, mid, x, rest, t, rfl, -, hspawns, -, hlast, hstarted⟩ :=
      spawned_between run clock htr hr hspawning
    rw [hstarted]
    simp only [Option.getD_some, Int.ofNat_eq_natCast]
    have hx : tr = (first ++ s :: mid) ++ x :: (rest ++ e :: post) := by simp [htr]
    -- the run was not spawned while it was spawning
    have hearly : (first ++ s :: mid).length ≤ since := by
      by_contra hlate
      obtain ⟨r', hr', hid, hstatus⟩ := hkept _ _ _ hx (by omega) (by simp)
      obtain ⟨ss, next, hbefore, -⟩ := run.split hx
      obtain ⟨pre₁, y, rest₁, now₁, errorMessage, hpre₁, hcall, -⟩ :=
        spawning_startedAt hbefore hr' (hstatus.trans hspawning)
      rw [hid] at hcall
      have hy : tr = pre₁ ++ y :: (rest₁ ++ x :: (rest ++ e :: post)) := by
        rw [hx, hpre₁, List.append_assoc, List.cons_append]
      exact spawns_once run clock honce hy ⟨_, _, hcall⟩ hspawns
    have ht : clock.time t ≤ clock.time since := clock.mono (hlast.trans hearly)
    omega

/-- A check that comes to its end quarantines what has been unresolved for longer than the timeout. -/
theorem in_time (run : (pollersSystem H).Run tr cfg) (clock : Clock tr) (honce : SavedOnce tr)
    (htr : tr = pre ++ e :: post) (hfirst : ∀ d ∈ pre, d.caller ≠ e.caller) {svc : AgentPollingService}
    {out : List (Option PollRun)} (hends : cfg.sessions e.caller = some ⟨(svc, .checkRuns), .ret out⟩)
    {status : PollRunStatus} {since : ℕ} (hunresolved : status.IsUnresolved)
    (hkept : KeepsStatus tr id status since pre.length) (hlong : clock.TimeoutPassed since pre.length) :
    ∃ d ∈ tr, d.caller = e.caller ∧ ((∃ file, d.answered = readStatus id file ∧ file.ReportsEnd) ∨
      QuarantinesRun id d.answered ∧ At id .quarantined d.after.1) := by
  have hdone := run.ensures_outcome hends (checkRuns_done svc)
  obtain ⟨active, rest, hhistory, hturns⟩ := hdone out rfl
  have hevent (a : Answered (worldSignature H) Exn) (ha : a ∈ System.Run.history e.caller tr) :
      ∃ d ∈ tr, d.caller = e.caller ∧ d.answered = a := by
    obtain ⟨d, hd, rfl⟩ := List.mem_map.mp ha
    obtain ⟨hmem, hcaller⟩ := System.Run.mem_own.mp hd
    exact ⟨d, hmem, hcaller, rfl⟩
  -- the check begins with the listing
  have hlists : e.answered = listedActive active := by
    have hnone : System.Run.history e.caller pre = [] := by
      rw [System.Run.history, List.map_eq_nil_iff]
      apply List.filter_eq_nil_iff.mpr
      intro x hx
      simpa using hfirst x hx
    have hown : System.Run.history e.caller tr = e.answered :: System.Run.history e.caller post := by
      rw [System.Run.history] at hnone ⊢
      rw [htr, System.Run.own_append, List.map_append, hnone]
      simp [System.Run.history, System.Run.own]
    rw [hown] at hhistory
    exact (List.cons.inj hhistory).1
  have hsince : since ≤ pre.length := by
    by_contra hlate
    have hback : clock.time pre.length ≤ clock.time since := clock.mono (by omega)
    unfold Clock.TimeoutPassed at hlong
    omega
  obtain ⟨r, hr, rfl, rfl⟩ := hkept pre e post htr hsince (Nat.le_refl _)
  have hstep := run.step_of_mem (e := e) (by simp [htr])
  rw [hlists] at hstep
  have hactive : r ∈ e.before.1.activeRows := by
    apply List.mem_filter.mpr
    refine ⟨hr, ?_⟩
    cases hunresolved with
    | inl h => rw [h]; rfl
    | inr h => rw [h]; rfl
  obtain ⟨found, hfound, rfl⟩ := List.mem_map.mp ((listed_rows hstep.1).mem_iff.mpr hactive)
  obtain ⟨before, file, after, hfile, hturn⟩ := hturns found hfound hunresolved
  cases hturn with
  | inl hreports =>
    obtain ⟨d, hd, hcaller, hanswered⟩ := hevent (readStatus found.val.id file) (by simp [hfile])
    exact ⟨d, hd, hcaller, .inl ⟨file, hanswered, hreports⟩⟩
  | inr hclock =>
    obtain ⟨now, rest', rfl, hquarantines⟩ := hclock
    rw [← List.singleton_append, ← List.append_assoc] at hfile
    obtain ⟨pre₁, c, post₁, htr₁, -, hreads, hpre₁, -⟩ := System.Run.split_history hfile
    have hnow := clock.reads _ _ _ _ htr₁ hreads
    have hlater : pre.length ≤ pre₁.length := length_le_of_first htr hfirst htr₁ (by simp [hpre₁])
    have hoverdue : IsOverdue found now :=
      overdue_of_kept run clock honce htr hr hunresolved hkept hlong (by rw [hnow]; exact clock.mono hlater)
    obtain ⟨a, ha, hmoves⟩ := hquarantines hoverdue
    obtain ⟨d, hd, hcaller, rfl⟩ := hevent a (by simp [hfile, ha])
    refine ⟨d, hd, hcaller, .inr ⟨hmoves, ?_⟩⟩
    obtain ⟨now', errorMessage, hanswered⟩ := hmoves
    have hmove := run.step_of_mem hd
    rw [hanswered] at hmove
    rcases PollStore.updateRow_cases hmove.1 with ⟨hset, -⟩ | ⟨-, _, herror⟩
    swap
    · cases herror
    intro r' hr' hid
    rw [hset] at hr'
    obtain ⟨r₀, -, rfl⟩ := List.mem_map.mp hr'
    split_ifs at hid ⊢ with hsame
    · exact PollStore.set_status _ _ _ _
    · exact absurd hid (by simpa using hsame)

/-- In every run of any pollers in which a check reads the clock for a queued run only when the timeout has passed
since the run was saved, the timeout is honoured. -/
theorem timeout_honoured (run : (pollersSystem H).Run tr cfg) (clock : Clock tr) (honce : SavedOnce tr)
    (hlate : TimesQueuedLate clock) : TimeoutHonoured tr cfg clock where
  notEarly _ _ _ _ _ _ _ htr htr' hop he hd := not_early run clock honce hlate htr htr' hop he hd
  inTime _ _ _ _ _ _ _ _ htr hfirst hends hunresolved hkept hlong :=
    in_time run clock honce htr hfirst hends hunresolved hkept hlong

end Honoured

section Sample

def readTime : Answered (worldSignature H) Exn → Option Nat
  | ⟨.inl .timeMs, .ok now⟩ => some now
  | _ => none

/-- Whether the calls of the trace that read the clock answer its times. -/
def readsTimes (time : ℕ → ℕ) (tr : List (pollersSystem plainHashing).Event) : Bool :=
  tr.zipIdx.all fun place => (readTime place.1.answered).all (· == time place.2)

/-- The clock of a trace that was played. -/
def Clock.ofReads {tr : List (pollersSystem plainHashing).Event} (time : ℕ → ℕ) (mono : Monotone time)
    (h : readsTimes time tr = true) : Clock tr where
  time := time
  mono := mono
  reads := by
    intro pre e post now htr hanswered
    have hplace : (e, pre.length) ∈ tr.zipIdx := by
      rw [List.mk_mem_zipIdx_iff_getElem?, htr]
      simp
    have hreads := List.all_eq_true.mp h _ hplace
    rw [hanswered] at hreads
    exact beq_iff_eq.mp (show (now == time pre.length) = true from hreads)

/-- Where a check lists no queued run, it times none. -/
def listsNoQueued (tr : List (pollersSystem plainHashing).Event) : Bool :=
  tr.all fun e =>
    match e.answered with
    | ⟨.inl .listActive, .ok active⟩ => active.all fun run => run.val.status != .queued
    | _ => true

theorem late_of_listsNoQueued {tr : List (pollersSystem plainHashing).Event} (h : listsNoQueued tr = true)
    (clock : Clock tr) : TimesQueuedLate clock := by
  intro pre e post pre' d post' id htr htr' hop hcall hfound hsaved
  obtain ⟨before, file, active, run, hhistory, hlisted, hrun, -, hqueued⟩ := hfound
  have hmem : listedActive active ∈ System.Run.history e.caller pre := by
    rw [hhistory]
    exact List.mem_append_left _ hlisted
  obtain ⟨l, hl, hlists⟩ := List.mem_map.mp hmem
  have hnone := List.all_eq_true.mp h l (by rw [htr]; exact List.mem_append_left _ (System.Run.mem_own.mp hl).1)
  rw [hlists] at hnone
  have hstatus := List.all_eq_true.mp hnone run hrun
  rw [hqueued] at hstatus
  cases hstatus

/-- The next `n` calls of a caller, at a time, for the run `a`. -/
def callsAt (i n now : Nat) : List ((pollersSystem plainHashing).Move Oracle) :=
  List.replicate n (.call i { now, runId := "a" })

def instant : Nat := 1700000000000

/-- A poller has saved its run and has yet to start the task when another one checks the runs. -/
def hastyMoves : List ((pollersSystem plainHashing).Move Oracle) :=
  .invoke 0 (unregistered, .pollOnce) :: callsAt 0 6 instant ++
    .invoke 1 (unregistered, .checkRuns) :: callsAt 1 6 instant

/-- The run is quarantined in the millisecond in which it was saved. -/
theorem queued_run_quarantined : ¬ ∀ (tr : List (pollersSystem plainHashing).Event)
    (cfg : (pollersSystem plainHashing).Config) (clock : Clock tr), (pollersSystem plainHashing).Run tr cfg →
      SavedOnce tr → TimeoutHonoured tr cfg clock := by
  intro h
  obtain ⟨tr, cfg, hplay, hreads, honce, pre, e, post, pre', d, post', hsplit, hsplit', hop, hmoves, hsaved⟩ :
      ∃ tr cfg, playPollers hastyMoves = some (tr, cfg) ∧ readsTimes (fun _ => instant) tr = true ∧
        tr.filterMap (fun e => savedId e.answered) = ["a"] ∧ ∃ pre e post pre' d post', tr = pre ++ e :: post ∧
          tr = pre' ++ d :: post' ∧ e.op.2 = .checkRuns ∧ QuarantinesRun "a" e.answered ∧
            savedId d.answered = some "a" := by
    refine ⟨_, _, rfl, rfl, rfl, [_, _, _, _, _, _, _, _, _, _, _], _, [], [_, _, _, _, _], _, _, rfl, rfl, rfl,
      ⟨_, _, rfl⟩, rfl⟩
  have honoured := h tr cfg (.ofReads _ monotone_const hreads) (run_of_playPollers hplay)
    (by rw [SavedOnce, honce]; decide)
  have hpassed := honoured.notEarly _ _ _ _ _ _ _ hsplit hsplit' hop hmoves hsaved
  exact absurd hpassed (by simp [Clock.TimeoutPassed, Clock.ofReads])

/-- The run is spawning when the other poller checks it, more than five minutes later. -/
def stalledMoves : List ((pollersSystem plainHashing).Move Oracle) :=
  .invoke 0 (unregistered, .pollOnce) :: callsAt 0 12 instant ++
    .invoke 1 (unregistered, .checkRuns) :: callsAt 1 9 (instant + 300001)

def stalledTime (place : ℕ) : ℕ := if place < 12 then instant else instant + 300001

theorem stalledTime_mono : Monotone stalledTime := by
  intro i j hij
  unfold stalledTime
  split_ifs <;> omega

theorem timeout_honoured_stalled : ∃ (tr : List (pollersSystem plainHashing).Event)
    (cfg : (pollersSystem plainHashing).Config) (clock : Clock tr),
    cfg.store.1.pollRuns.map (fun r => (r.id, r.status)) = [("a", .quarantined)] ∧
      TimeoutHonoured tr cfg clock := by
  obtain ⟨tr, cfg, hplay, hreads, honce, hlists, hrows⟩ : ∃ tr cfg, playPollers stalledMoves = some (tr, cfg) ∧
      readsTimes stalledTime tr = true ∧ tr.filterMap (fun e => savedId e.answered) = ["a"] ∧
      listsNoQueued tr = true ∧ cfg.store.1.pollRuns.map (fun r => (r.id, r.status)) = [("a", .quarantined)] :=
    ⟨_, _, rfl, rfl, rfl, rfl, rfl⟩
  refine ⟨tr, cfg, .ofReads stalledTime stalledTime_mono hreads, hrows, ?_⟩
  exact timeout_honoured (run_of_playPollers hplay) _ (by rw [SavedOnce, honce]; decide)
    (late_of_listsNoQueued hlists _)

end Sample

end ForkAgent.Polling

import ForkAgent.Memory.Merge
import ForkAgent.Sessions.Service

/-!
# One active session a project

Starting a session ends the latest active one of the project, and that is the only one as long as
no merge of projects brings two together.
-/

namespace ForkAgent.Sessions

open Effects Storage Memory SessionTable

/-- Each stored project name has at most one session that has not ended. -/
def OneActive (sessions : List SessionFields) : Prop :=
  ∀ project, sessions.countP (isActiveIn project) ≤ 1

/-- The id is the primary key. -/
def Keyed (sessions : List SessionFields) : Prop := (sessions.map (·.id)).Nodup

/-- No session that had ended is changed. -/
def EndedKept (sessions sessions' : List SessionFields) : Prop :=
  ∀ session ∈ sessions, session.endedAt ≠ none → session ∈ sessions'

theorem isActiveIn_iff {project : String} {session : SessionFields} :
    isActiveIn project session = true ↔ session.project = project ∧ session.endedAt = none := by
  simp [isActiveIn, SessionFields.isActive]

theorem Keyed.eq_of_id {sessions : List SessionFields} (h : Keyed sessions) {x y : SessionFields}
    (hx : x ∈ sessions) (hy : y ∈ sessions) (hid : x.id = y.id) : x = y :=
  List.inj_on_of_nodup_map h hx hy hid

theorem EndedKept.refl (sessions : List SessionFields) : EndedKept sessions sessions :=
  fun _ hsession _ => hsession

section Ending

variable {sessionId : String} {endedAt : Nat} {summary : Option String} {s : List SessionFields}

theorem mem_markEnded {session : SessionFields} :
    session ∈ markEnded sessionId endedAt summary s ↔
      (∃ x ∈ s, x.id = sessionId ∧ { x with endedAt := some (endedAt : Int), summary } = session) ∨
        session ∈ s ∧ session.id ≠ sessionId := by
  rw [markEnded, mem_updateWhere]
  simp

theorem ids_markEnded : (markEnded sessionId endedAt summary s).map (·.id) = s.map (·.id) := by
  rw [markEnded, updateWhere, List.map_map]
  refine List.map_congr_left fun session _ => ?_
  rw [Function.comp_apply]
  split_ifs
  · rfl
  · rfl

theorem countP_markEnded (project : String) :
    (markEnded sessionId endedAt summary s).countP (isActiveIn project) =
      s.countP fun session => isActiveIn project session && session.id != sessionId := by
  rw [markEnded, updateWhere, List.countP_map]
  refine List.countP_congr fun session _ => ?_
  rw [Function.comp_apply]
  by_cases hid : session.id = sessionId
  · simp [hid, isActiveIn, SessionFields.isActive]
  · simp [hid]

theorem OneActive.markEnded (h : OneActive s) : OneActive (markEnded sessionId endedAt summary s) := by
  intro project
  rw [countP_markEnded]
  refine (List.countP_mono_left fun session _ hactive => ?_).trans (h project)
  simp only [Bool.and_eq_true] at hactive
  exact hactive.1

/-- The active session of a project is the only one, so that none is left when it is ended. -/
theorem none_active_markEnded (h : OneActive s) {session : SessionFields} (hmem : session ∈ s)
    {project : String} (hactive : isActiveIn project session = true) :
    (SessionTable.markEnded session.id endedAt summary s).countP (isActiveIn project) = 0 := by
  rw [countP_markEnded]
  obtain ⟨before, after, rfl⟩ := List.append_of_mem hmem
  have hone := h project
  rw [List.countP_append, List.countP_cons_of_pos hactive] at hone
  have hothers : ∀ others : List SessionFields,
      others.countP (fun other => isActiveIn project other && other.id != session.id) ≤
        others.countP (isActiveIn project) := by
    intro others
    refine List.countP_mono_left fun other _ hother => ?_
    simp only [Bool.and_eq_true] at hother
    exact hother.1
  have hbefore := hothers before
  have hafter := hothers after
  rw [List.countP_append, List.countP_cons_of_neg (by simp)]
  omega

theorem EndedKept.markEnded (h : Keyed s) {session : SessionFields} (hmem : session ∈ s)
    (hactive : session.endedAt = none) :
    EndedKept s (SessionTable.markEnded session.id endedAt summary s) := by
  intro ended hended hnotNull
  refine mem_markEnded.mpr (.inr ⟨hended, fun hid => ?_⟩)
  rw [h.eq_of_id hended hmem hid] at hnotNull
  exact hnotNull hactive

end Ending

section Steps

variable {s s' : List SessionFields}

theorem step_error {c : SessionCall} {e : Exn} (h : SessionTable.step ⟨c, .error e⟩ s s') : s' = s := by
  obtain hserve | ⟨hsame, -⟩ := h
  · cases c with
    | insert session =>
      simp only [SessionTable.serve] at hserve
      split_ifs at hserve
      · exact hserve.2
      · cases hserve.1
    | endSession sessionId endedAt summary =>
      simp only [SessionTable.serve] at hserve
      split at hserve
      · cases hserve.1
      · exact hserve.2
    | _ => exact hserve.1
  · exact hsame

theorem serve_of_ok {c : SessionCall} {v : c.Value} (h : SessionTable.step ⟨c, .ok v⟩ s s') :
    SessionTable.serve ⟨c, .ok v⟩ s s' := by
  obtain hserve | ⟨-, m, hm⟩ := h
  · exact hserve
  · cases hm

theorem insert_ok {session : Session} {v : Unit}
    (h : SessionTable.step ⟨.insert session, .ok v⟩ s s') :
    session.val.id ∉ s.map (·.id) ∧ s' = s ++ [session.val] := by
  have hserve := serve_of_ok h
  simp only [SessionTable.serve] at hserve
  split_ifs at hserve with hid
  · obtain ⟨⟨m, hm⟩, -⟩ := hserve
    cases hm
  · exact ⟨hid, hserve.2⟩

theorem selectActive_ok {project : String} {row : Option SessionFields}
    (h : SessionTable.step ⟨.selectActive project, .ok row⟩ s s') :
    s' = s ∧ Latest (·.startedAt) (s.filter (isActiveIn project)) row := by
  obtain ⟨hsame, row', hlatest, hr⟩ := serve_of_ok h
  cases hr
  exact ⟨hsame, hlatest⟩

theorem endSession_ok {sessionId : String} {endedAt : Nat} {summary : Option String}
    {session : Session} (h : SessionTable.step ⟨.endSession sessionId endedAt summary, .ok session⟩ s s') :
    s' = markEnded sessionId endedAt summary s := by
  have hserve := serve_of_ok h
  simp only [SessionTable.serve] at hserve
  split at hserve
  · next ended t hended =>
    rw [hserve.2]
    unfold SessionTable.endSession at hended
    split at hended
    · cases hended
    · obtain ⟨read, -, hrest⟩ := bind_eq_ok.mp hended
      obtain ⟨built, -, hpair⟩ := bind_eq_ok.mp hrest
      cases hpair
      rfl
  · cases hserve.1

theorem uuid4_ok {v : String} (h : SessionTable.step ⟨.uuid4, .ok v⟩ s s') : s' = s :=
  (serve_of_ok h).1

theorem timeMs_ok {v : Nat} (h : SessionTable.step ⟨.timeMs, .ok v⟩ s s') : s' = s :=
  (serve_of_ok h).1

end Steps

section Programs

variable {s : List SessionFields} {α : Type}

abbrev Ends (p : SessionProgram α) (Q : Except Exn α → List SessionFields → Prop)
    (s : List SessionFields) : Prop :=
  p.Always SessionTable.step (fun _ _ => True) Q s

theorem sessionCall_bind_ends {f : Exn → Exn} {c : SessionCall} {k : c.Value → SessionProgram α}
    {Q : Except Exn α → List SessionFields → Prop}
    (hok : ∀ v s', SessionTable.step ⟨c, .ok v⟩ s s' → Ends (k v) Q s')
    (herror : ∀ e, Q (.error e) s) : Ends (sessionCall f c >>= k) Q s := by
  refine ⟨trivial, ?_⟩
  rintro (e | v) s' hstep
  · rw [step_error hstep]
    exact herror (f e)
  · exact hok v s' hstep

theorem sessionCall_ends {f : Exn → Exn} {c : SessionCall}
    {Q : Except Exn c.Value → List SessionFields → Prop}
    (hok : ∀ v s', SessionTable.step ⟨c, .ok v⟩ s s' → Q (.ok v) s')
    (herror : ∀ e, Q (.error e) s) : Ends (sessionCall f c) Q s := by
  rw [← Program.bind_ret (sessionCall f c)]
  exact sessionCall_bind_ends (fun v s' hstep => hok v s' hstep) herror

/-- What the table still is while a session is being started. -/
structure Kept (s s' : List SessionFields) : Prop where
  one : OneActive s → OneActive s'
  keyed : Keyed s'
  ended : EndedKept s s'

theorem Kept.refl (hkeyed : Keyed s) : Kept s s := ⟨fun hs => hs, hkeyed, .refl s⟩

theorem getActive_ends {project : String} :
    Ends (SessionRepository.getActive project) (fun out s' => s' = s ∧ ∀ active, out = .ok active →
      Latest (·.startedAt) (s.filter (isActiveIn project)) (active.map (·.val))) s := by
  unfold SessionRepository.getActive
  refine sessionCall_bind_ends (fun row s' hstep => ?_) fun e => ⟨rfl, fun _ hout => nomatch hout⟩
  obtain ⟨rfl, hlatest⟩ := selectActive_ok hstep
  refine (Program.always_ofExcept _).mpr ⟨rfl, fun active hread => ?_⟩
  cases active with
  | none =>
    cases row with
    | none => exact hlatest
    | some row =>
      cases hrow : construct SessionFields.postInit row with
      | error e => simp [hrow] at hread
      | ok session => simp [hrow] at hread
  | some active =>
    obtain ⟨row', rfl, hval⟩ := mapM_construct_eq_some.mp hread
    rw [Option.map_some, hval]
    exact hlatest

theorem endSession_ends {sessionId : String} {summary : Option String} :
    Ends (SessionRepository.endSession sessionId summary) (fun out s' =>
      (∃ session, out = .ok session) ∧ (∃ endedAt, s' = markEnded sessionId endedAt summary s) ∨
        (∃ e, out = .error e) ∧ s' = s) s := by
  unfold SessionRepository.endSession
  refine sessionCall_bind_ends (fun endedAt s' hstep => ?_) fun e => .inr ⟨⟨e, rfl⟩, rfl⟩
  rw [timeMs_ok hstep]
  exact sessionCall_ends (fun session s' hend => .inl ⟨⟨session, rfl⟩, _, endSession_ok hend⟩)
    fun e => .inr ⟨⟨e, rfl⟩, rfl⟩

theorem autoEnd_ends {project : String} {active : Option Session} (hkeyed : Keyed s)
    (hlatest : Latest (·.startedAt) (s.filter (isActiveIn project)) (active.map (·.val))) :
    Ends (SessionService.autoEnd active) (fun out s' => Kept s s' ∧
      ∀ v, out = .ok v → OneActive s → s'.countP (isActiveIn project) = 0) s := by
  cases active with
  | none =>
    refine ⟨.refl hkeyed, fun _ _ _ => ?_⟩
    rw [List.countP_eq_length_filter, hlatest]
    rfl
  | some active =>
    obtain ⟨hmem, -⟩ := hlatest
    obtain ⟨hmem, hactive⟩ := List.mem_filter.mp hmem
    refine Program.Always.bind endSession_ends ?_ ?_
    · rintro ended s' (⟨-, endedAt, rfl⟩ | ⟨⟨e, he⟩, -⟩)
      · refine ⟨⟨OneActive.markEnded, ?_, .markEnded hkeyed hmem (isActiveIn_iff.mp hactive).2⟩, fun _ _ hs => ?_⟩
        · rw [Keyed, ids_markEnded]
          exact hkeyed
        · exact none_active_markEnded hs hmem hactive
      · cases he
    · rintro e s' (⟨⟨session, hsession⟩, -⟩ | ⟨-, rfl⟩)
      · cases hsession
      · exact ⟨.refl hkeyed, fun _ hout => nomatch hout⟩

theorem Kept.insert {t : List SessionFields} {session : SessionFields} (h : Kept s t)
    (hid : session.id ∉ t.map (·.id)) (hnone : OneActive s → t.countP (isActiveIn session.project) = 0) :
    Kept s (t ++ [session]) := by
  refine ⟨fun hs project => ?_, ?_, fun row hrow hended => List.mem_append_left _ (h.ended row hrow hended)⟩
  · rw [List.countP_append, List.countP_singleton]
    have hone := h.one hs project
    by_cases hproject : session.project = project
    · rw [← hproject, hnone hs]
      split_ifs
      · exact Nat.le_refl 1
      · exact Nat.zero_le 1
    · rw [if_neg fun hactive => hproject (isActiveIn_iff.mp hactive).1]
      exact hone
  · rw [Keyed, List.map_append, List.map_singleton]
    exact List.Nodup.append h.keyed (List.nodup_singleton _) (by simpa using hid)

theorem openSession_ends {project directory : String} {goal instructions : Option String}
    (hkeyed : Keyed s) :
    Ends (SessionService.openSession project directory goal instructions)
      (fun _ s' => Kept s s') s := by
  refine Program.Always.bind getActive_ends (fun active t => ?_) ?_
  · rintro ⟨rfl, hlatest⟩
    refine Program.Always.bind (autoEnd_ends hkeyed (hlatest active rfl)) ?_ fun e t h => h.1
    rintro ⟨⟩ t ⟨hkept, hnone⟩
    refine sessionCall_bind_ends (fun sessionId t₁ huuid => ?_) fun _ => hkept
    rw [uuid4_ok huuid]
    refine sessionCall_bind_ends (fun startedAt t₂ htime => ?_) fun _ => hkept
    rw [timeMs_ok htime]
    refine (Program.always_ofExcept_bind _ _).mpr ⟨fun session hbuilt => ?_, fun _ _ => hkept⟩
    have hval := construct_eq_ok.mp hbuilt
    refine sessionCall_bind_ends (fun _ t₃ hinsert => ?_) fun _ => hkept
    obtain ⟨hid, rfl⟩ := insert_ok hinsert
    refine hkept.insert hid ?_
    rw [hval]
    exact hnone () rfl
  · rintro e t ⟨rfl, -⟩
    exact .refl hkeyed

theorem startSession_ends {project directory : String} {goal instructions : Option String}
    (hkeyed : Keyed s) :
    Ends (SessionService.startSession project directory goal instructions)
      (fun _ s' => Kept s s') s :=
  Program.Always.handle (openSession_ends hkeyed) (fun _ _ h => h) fun _ _ h => h

theorem endSession_service_ends {sessionId : String} {summary : Option String} :
    Ends (SessionService.endSession sessionId summary) (fun _ s' =>
      (∃ endedAt, s' = markEnded sessionId endedAt summary s) ∨ s' = s) s := by
  refine Program.Always.handle endSession_ends (fun session s' h => ?_) fun e s' h => ?_
  · exact h.imp (fun h => h.2) fun h => h.2
  · have hsame := h.imp (fun h => h.2) fun h => h.2
    cases e <;> exact hsame

end Programs

section Merges

variable {target : String} {named : List String}

/-- The session stands, or will stand, in the target of a merge. -/
def isActiveAfter (target : String) (named : List String) (session : SessionFields) : Bool :=
  session.isActive && (session.project == target || named.contains session.project)

theorem ids_moveSession (s : List SessionFields) :
    (s.map (moveSession target named)).map (·.id) = s.map (·.id) := by
  rw [List.map_map]
  refine List.map_congr_left fun session _ => ?_
  rw [Function.comp_apply, moveSession, moveRow]
  split_ifs
  · rfl
  · rfl

theorem isActiveIn_moveSession {project : String} {session : SessionFields} :
    isActiveIn project (moveSession target named session) =
      if project = target then isActiveAfter target named session
      else isActiveIn project session && !named.contains session.project := by
  by_cases hnamed : session.project ∈ named
  · have hmoved : moveSession target named session = session.relocate target := by
      simp [moveSession, moveRow, hnamed]
    rw [hmoved]
    by_cases hproject : project = target
    · simp [isActiveIn, isActiveAfter, SessionFields.relocate, SessionFields.isActive, hproject, hnamed]
    · simp [isActiveIn, SessionFields.relocate, hproject, hnamed, Ne.symm hproject]
  · have hstays : moveSession target named session = session := by
      simp [moveSession, moveRow, hnamed]
    rw [hstays]
    by_cases hproject : project = target
    · simp [isActiveIn, isActiveAfter, hproject, hnamed, Bool.and_comm]
    · simp [hproject, hnamed]

theorem oneActive_moveSession {s : List SessionFields} (hs : OneActive s) :
    OneActive (s.map (moveSession target named)) ↔ s.countP (isActiveAfter target named) ≤ 1 := by
  have hcount : ∀ project, (s.map (moveSession target named)).countP (isActiveIn project) =
      s.countP fun session => isActiveIn project (moveSession target named session) :=
    fun project => List.countP_map
  constructor
  · intro h
    have htarget := h target
    rw [hcount] at htarget
    simpa only [isActiveIn_moveSession, if_true] using htarget
  · intro h project
    rw [hcount]
    by_cases hproject : project = target
    · simpa only [isActiveIn_moveSession, hproject, if_true] using h
    · simp only [isActiveIn_moveSession, hproject, if_false]
      refine (List.countP_mono_left fun session _ hactive => ?_).trans (hs project)
      rw [Bool.and_eq_true] at hactive
      exact hactive.1

end Merges

/-- The operations that write the sessions table. -/
inductive Operation where
  | startSession (project directory : String) (goal instructions : Option String)
  | endSession (sessionId : String) (summary : Option String)
  | mergeProjects (fromProjects toProject : String)

variable (svc : MemoryService)

/-- A run of an operation from its start to its end, whatever it returns or raises. -/
def Operation.Runs : Operation → Store → Store → Prop
  | .startSession project directory goal instructions, s, s' => ∃ out sessions,
    (SessionService.startSession project directory goal instructions).Runs SessionTable.step
      s.1.sessions out sessions ∧ s' = ({ s.1 with sessions }, s.2)
  | .endSession sessionId summary, s, s' => ∃ out sessions,
    (SessionService.endSession sessionId summary).Runs SessionTable.step
      s.1.sessions out sessions ∧ s' = ({ s.1 with sessions }, s.2)
  | .mergeProjects fromProjects toProject, s, s' => ∃ out,
    (svc.mergeProjects fromProjects toProject).Runs Store.step s out s'

/-- The stores reached from one without sessions by operations that each meet the condition. -/
inductive Reached (condition : Operation → Store → Prop) : Store → Prop where
  | empty {s} (h : s.1.sessions = []) : Reached condition s
  | operation {s s'} (before : Reached condition s) (op : Operation) (hcondition : condition op s)
      (h : op.Runs svc s s') : Reached condition s'

/-- A merge finds at most one active session in its target and in what it moves there. -/
def BringsOne : Operation → Store → Prop
  | .mergeProjects fromProjects toProject, s =>
    s.1.sessions.countP
      (isActiveAfter (svc.targetOf toProject) (svc.namedBy fromProjects toProject)) ≤ 1
  | _, _ => True

section Runs

variable {svc} {s s' : Store} {op : Operation}

theorem Operation.Runs.keyed (h : op.Runs svc s s') (hkeyed : Keyed s.1.sessions) :
    Keyed s'.1.sessions := by
  cases op with
  | startSession project directory goal instructions =>
    obtain ⟨out, sessions, hrun, rfl⟩ := h
    exact (hrun.always (startSession_ends hkeyed)).keyed
  | endSession sessionId summary =>
    obtain ⟨out, sessions, hrun, rfl⟩ := h
    obtain ⟨endedAt, rfl⟩ | rfl := hrun.always endSession_service_ends
    · rw [Keyed, ids_markEnded]
      exact hkeyed
    · exact hkeyed
  | mergeProjects fromProjects toProject =>
    obtain ⟨out, hrun⟩ := h
    obtain ⟨e, -, rfl⟩ | ⟨stats, -, -, -, hsessions⟩ := mergeProjects_cases hrun
    · exact hkeyed
    · rw [Keyed, hsessions, ids_moveSession]
      exact hkeyed

theorem Operation.Runs.oneActive (h : op.Runs svc s s') (hkeyed : Keyed s.1.sessions)
    (hs : OneActive s.1.sessions) (hbrings : BringsOne svc op s) : OneActive s'.1.sessions := by
  cases op with
  | startSession project directory goal instructions =>
    obtain ⟨out, sessions, hrun, rfl⟩ := h
    exact (hrun.always (startSession_ends hkeyed)).one hs
  | endSession sessionId summary =>
    obtain ⟨out, sessions, hrun, rfl⟩ := h
    obtain ⟨endedAt, rfl⟩ | rfl := hrun.always endSession_service_ends
    · exact hs.markEnded
    · exact hs
  | mergeProjects fromProjects toProject =>
    obtain ⟨out, hrun⟩ := h
    obtain ⟨e, -, rfl⟩ | ⟨stats, -, -, -, hsessions⟩ := mergeProjects_cases hrun
    · exact hs
    · rw [hsessions]
      exact (oneActive_moveSession hs).mpr hbrings

theorem Reached.keyed {condition : Operation → Store → Prop} (h : Reached svc condition s) :
    Keyed s.1.sessions := by
  induction h with
  | empty h =>
    rw [Keyed, h]
    exact List.nodup_nil
  | operation before op hcondition h ih => exact h.keyed ih

theorem Reached.oneActive (h : Reached svc (BringsOne svc) s) : OneActive s.1.sessions := by
  induction h with
  | empty h =>
    intro project
    rw [h]
    exact Nat.zero_le 1
  | operation before op hcondition h ih => exact h.oneActive before.keyed ih hcondition

end Runs

/-- As long as every merge finds at most one active session in its target and in what it moves
there, each project has at most one. Starting a session never changes one that had ended. -/
theorem oneActive_of_bringsOne (svc : MemoryService) :
    (∀ s, Reached svc (BringsOne svc) s → OneActive s.1.sessions) ∧
      ∀ s, Reached svc (fun _ _ => True) s → ∀ project directory goal instructions s',
        (Operation.startSession project directory goal instructions).Runs svc s s' →
        EndedKept s.1.sessions s'.1.sessions := by
  refine ⟨fun s hreached => hreached.oneActive, ?_⟩
  rintro s hreached project directory goal instructions s' ⟨out, sessions, hrun, rfl⟩
  exact (hrun.always (startSession_ends hreached.keyed)).ended

section Example

theorem sessionCall_bind_runs {α : Type} {f : Exn → Exn} {c : SessionCall}
    {k : c.Value → SessionProgram α} {v : c.Value} {s t s' : List SessionFields} {out : Except Exn α}
    (hserve : SessionTable.serve ⟨c, .ok v⟩ s t) (h : (k v).Runs SessionTable.step t out s') :
    (sessionCall f c >>= k).Runs SessionTable.step s out s' :=
  ⟨.ok v, t, .inl hserve, h⟩

theorem startSession_runs {fields : SessionFields} (hvalid : fields.postInit = .ok ())
    (hstarted : ∃ now : Nat, fields.startedAt = now) (hended : fields.endedAt = none)
    (hsummary : fields.summary = none) {s : List SessionFields} (hid : fields.id ∉ s.map (·.id))
    (hnone : s.filter (isActiveIn fields.project) = []) :
    (SessionService.startSession fields.project fields.directory fields.goal
      fields.instructions).Runs SessionTable.step s (.ok ⟨fields, hvalid⟩) (s ++ [fields]) := by
  obtain ⟨now, hnow⟩ := hstarted
  obtain ⟨sessionId, project, directory, startedAt, endedAt, goal, instructions, summary⟩ := fields
  subst hnow hended hsummary
  have hne : sessionId ≠ "" := by
    rintro rfl
    cases hvalid
  refine Program.Runs.handle_ok ?_
  have hactive : (SessionRepository.getActive project).Runs SessionTable.step s (.ok none) s :=
    sessionCall_bind_runs (c := .selectActive project) (v := none) ⟨rfl, none, hnone, rfl⟩ ⟨rfl, rfl⟩
  refine Program.Runs.bind hactive ?_
  refine Program.Runs.bind (b := ()) (t := s) ⟨rfl, rfl⟩ ?_
  refine sessionCall_bind_runs (c := .uuid4) (t := s) (v := sessionId) ⟨rfl, sessionId, hne, rfl⟩ ?_
  refine sessionCall_bind_runs (c := .timeMs) (t := s) (v := now) ⟨rfl, now, rfl⟩ ?_
  refine Program.Runs.ofExcept_bind (construct_of_postInit hvalid) ?_
  refine sessionCall_bind_runs (c := .insert _) (t := s ++ [_]) (v := ()) ?_ ⟨rfl, rfl⟩
  exact (if_neg hid).mpr ⟨rfl, rfl⟩

def sessionOf (id project : String) : SessionFields :=
  { id, project, directory := "/", startedAt := 0 }

def sessionsStore (sessions : List SessionFields) : Store := ({ observations := .empty, sessions }, {})

section Started

variable {svc : MemoryService} {condition : Operation → Store → Prop}
  (hstart : ∀ project directory goal instructions s,
    condition (.startSession project directory goal instructions) s)

include hstart

theorem reached_one : Reached svc condition (sessionsStore [sessionOf "1" "a"]) := by
  have hempty : Reached svc condition (sessionsStore []) := .empty rfl
  refine hempty.operation (.startSession "a" "/" none none) (hstart _ _ _ _ _) ?_
  exact ⟨_, _, @startSession_runs (sessionOf "1" "a") rfl ⟨0, rfl⟩ rfl rfl _ (by decide) rfl,
    rfl⟩

theorem reached_two : Reached svc condition (sessionsStore [sessionOf "1" "a", sessionOf "2" "b"]) := by
  refine (reached_one hstart).operation (.startSession "b" "/" none none) (hstart _ _ _ _ _) ?_
  exact ⟨_, _, @startSession_runs (sessionOf "2" "b") rfl ⟨0, rfl⟩ rfl rfl _ (by decide) rfl, rfl⟩

end Started

theorem merge_two : (Operation.mergeProjects "a" "b").Runs asciiService
    (sessionsStore [sessionOf "1" "a", sessionOf "2" "b"])
    (sessionsStore [sessionOf "1" "b", sessionOf "2" "b"]) := by
  have hcall : asciiService.mergeProjects "a" "b" = asciiService.repository.mergeProjects "b" ["a"] := rfl
  refine ⟨.ok ⟨"b", ["a"], 0, 1⟩, ?_⟩
  rw [hcall]
  refine (ObservationRepository.mergeProjects_runs _).mpr ⟨rfl, .ok (0, 1), ?_, rfl⟩
  exact .inl (serve_mergeProjects.mpr (.inr ⟨0, .empty, rfl, rfl, rfl⟩))

/-- The merge leaves two active sessions of "b". -/
theorem two_active_after_merge :
    ¬ ∀ (svc : MemoryService) (s : Store), Reached svc (fun _ _ => True) s → OneActive s.1.sessions := by
  intro h
  have htwo := h asciiService _
    ((reached_two fun _ _ _ _ _ => trivial).operation _ trivial merge_two) "b"
  revert htwo
  decide

def endedSession : SessionFields := { sessionOf "1" "a" with endedAt := some 1 }

theorem endSession_sessionOf : (Operation.endSession "1" none).Runs asciiService
    (sessionsStore [sessionOf "1" "a"]) (sessionsStore [endedSession]) := by
  refine ⟨.ok ⟨endedSession, rfl⟩, [endedSession], ?_, rfl⟩
  refine Program.Runs.handle_ok ?_
  refine sessionCall_bind_runs (c := .timeMs) (v := Nat.succ 0) ⟨rfl, Nat.succ 0, rfl⟩ ?_
  exact ⟨.ok ⟨endedSession, rfl⟩, [endedSession], .inl ⟨rfl, rfl⟩, rfl, rfl⟩

theorem oneActive_of_bringsOne_two :
    OneActive [sessionOf "1" "a", sessionOf "2" "b"] ∧
      EndedKept [endedSession] [endedSession, sessionOf "2" "a"] := by
  refine ⟨(oneActive_of_bringsOne asciiService).1 _ (reached_two fun _ _ _ _ _ => trivial), ?_⟩
  have hended : Reached asciiService (fun _ _ => True) (sessionsStore [endedSession]) :=
    (reached_one fun _ _ _ _ _ => trivial).operation _ trivial endSession_sessionOf
  refine (oneActive_of_bringsOne asciiService).2 _ hended "a" "/" none none
    (sessionsStore [endedSession, sessionOf "2" "a"])
    ⟨.ok ⟨sessionOf "2" "a", rfl⟩, _, ?_, rfl⟩
  exact @startSession_runs (sessionOf "2" "a") rfl ⟨0, rfl⟩ rfl rfl _ (by decide) rfl

end Example

end ForkAgent.Sessions

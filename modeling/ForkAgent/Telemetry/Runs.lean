import ForkAgent.Telemetry.Service

/-!
# What the operations of the service lead to

One rule for each call, then what the flush and the update of the summary do to the parts of the
state, whether they return or raise.
-/

namespace ForkAgent.Telemetry

open Effects TelemetryRepository

variable {s : TelemetryState} {α β : Type}

/-- However the calls of the program are answered, it ends with such an outcome in such a state. -/
def Leads (p : TelemetryProgram α) (s : TelemetryState) (Q : Except Exn α → TelemetryState → Prop) :
    Prop :=
  p.Always TelemetryState.step (fun _ _ => True) Q s

theorem Leads.of_runs {p : TelemetryProgram α} {Q : Except Exn α → TelemetryState → Prop}
    {out : Except Exn α} {s' : TelemetryState} (h : Leads p s Q)
    (hruns : p.Runs TelemetryState.step s out s') : Q out s' := hruns.always h

theorem Leads.mono {p : TelemetryProgram α} {Q Q' : Except Exn α → TelemetryState → Prop}
    (h : Leads p s Q) (hQ : ∀ out s', Q out s' → Q' out s') : Leads p s Q' :=
  Program.Always.mono h (fun _ _ h => h) hQ

theorem Leads.bind {p : TelemetryProgram β} {f : β → TelemetryProgram α}
    {R : Except Exn β → TelemetryState → Prop} {Q : Except Exn α → TelemetryState → Prop}
    (h : Leads p s R) (hok : ∀ b s', R (.ok b) s' → Leads (f b) s' Q)
    (herror : ∀ e s', R (.error e) s' → Q (.error e) s') : Leads (p >>= f) s Q :=
  Program.Always.bind h hok herror

section Calls

variable {c : TelemetryCall} {f : c.Value → TelemetryProgram α} {v : c.Value} {t : TelemetryState}
  {Q : Except Exn α → TelemetryState → Prop}

theorem leads_served (hc : c.isStatement = false)
    (hserve : ∀ r s', TelemetryState.serve ⟨c, r⟩ s s' ↔ r = .ok v ∧ s' = t) :
    Leads (telemetryCall c >>= f) s Q ↔ Leads (f v) t Q := by
  have hstep : ∀ r s', TelemetryState.step ⟨c, r⟩ s s' ↔ r = .ok v ∧ s' = t := by
    intro r s'
    rw [← hserve]
    constructor
    · rintro (h | ⟨hstatement, -⟩)
      · exact h
      · rw [hc] at hstatement
        cases hstatement
    · exact .inl
  refine (Program.always_perform_bind (σ := telemetrySignature) c f).trans ?_
  constructor
  · intro h
    exact h.2.1 v t ((hstep _ _).mpr ⟨rfl, rfl⟩)
  · intro h
    refine ⟨trivial, fun w s' hw => ?_, fun e s' he => ?_⟩
    · obtain ⟨hv, rfl⟩ := (hstep _ _).mp hw
      cases hv
      exact h
    · cases ((hstep _ _).mp he).1

theorem leads_statement (hc : c.isStatement = true)
    (hserve : ∀ r s', TelemetryState.serve ⟨c, r⟩ s s' ↔ r = .ok v ∧ s' = t) :
    Leads (telemetryCall c >>= f) s Q ↔ Leads (f v) t Q ∧ ∀ e, Q (.error e) s := by
  refine (Program.always_perform_bind (σ := telemetrySignature) c f).trans ?_
  constructor
  · rintro ⟨-, hok, herror⟩
    exact ⟨hok v t (.inl ((hserve _ _).mpr ⟨rfl, rfl⟩)), fun e => herror e s (.inr ⟨hc, rfl, e, rfl⟩)⟩
  · rintro ⟨hok, herror⟩
    refine ⟨trivial, fun w s' hw => ?_, fun e s' he => ?_⟩
    · obtain hw | ⟨-, -, e, he⟩ := hw
      · obtain ⟨hv, rfl⟩ := (hserve _ _).mp hw
        cases hv
        exact hok
      · cases he
    · obtain he | ⟨-, rfl, -⟩ := he
      · cases ((hserve _ _).mp he).1
      · exact herror e

end Calls

section Rules

variable {Q : Except Exn α → TelemetryState → Prop}

@[simp] theorem leads_return (a : α) : Leads (.ret a : TelemetryProgram α) s Q ↔ Q (.ok a) s := Iff.rfl

@[simp] theorem leads_buffer {f : List TelemetryEvent → TelemetryProgram α} :
    Leads (telemetryCall .buffer >>= f) s Q ↔ Leads (f s.buffer) s Q :=
  leads_served (c := .buffer) rfl fun _ _ => and_comm

@[simp] theorem leads_append {event : TelemetryEvent} {f : Unit → TelemetryProgram α} :
    Leads (telemetryCall (.append event) >>= f) s Q ↔
      Leads (f ()) { s with buffer := s.buffer ++ [event] } Q :=
  leads_served (c := .append event) rfl fun _ _ => Iff.rfl

@[simp] theorem leads_clear {f : Unit → TelemetryProgram α} :
    Leads (telemetryCall .clear >>= f) s Q ↔ Leads (f ()) { s with buffer := [] } Q :=
  leads_served (c := .clear) rfl fun _ _ => Iff.rfl

@[simp] theorem leads_session {f : Option String × Option Int → TelemetryProgram α} :
    Leads (telemetryCall .session >>= f) s Q ↔ Leads (f (s.sessionId, s.sessionStart)) s Q :=
  leads_served (c := .session) rfl fun _ _ => and_comm

@[simp] theorem leads_setSession {sessionId : Option String} {sessionStart : Option Int}
    {f : Unit → TelemetryProgram α} :
    Leads (telemetryCall (.setSession sessionId sessionStart) >>= f) s Q ↔
      Leads (f ()) { s with sessionId, sessionStart } Q :=
  leads_served (c := .setSession sessionId sessionStart) rfl fun _ _ => Iff.rfl

@[simp] theorem leads_saveBatch {events : List TelemetryEvent} {f : Unit → TelemetryProgram α} :
    Leads (telemetryCall (.saveBatch events) >>= f) s Q ↔
      Leads (f ()) { s with events := events.foldl TelemetryState.replaceEvent s.events } Q ∧
        ∀ e, Q (.error e) s :=
  leads_statement (c := .saveBatch events) rfl fun _ _ => Iff.rfl

@[simp] theorem leads_selectSession {sessionId : String}
    {f : Option TelemetrySessionRow → TelemetryProgram α} :
    Leads (telemetryCall (.selectSession sessionId) >>= f) s Q ↔
      Leads (f (TelemetryState.selectSession sessionId s.sessions)) s Q ∧ ∀ e, Q (.error e) s :=
  leads_statement (c := .selectSession sessionId) rfl fun _ _ => and_comm

@[simp] theorem leads_replaceSession {row : TelemetrySessionRow} {f : Unit → TelemetryProgram α} :
    Leads (telemetryCall (.replaceSession row) >>= f) s Q ↔
      Leads (f ()) { s with sessions := TelemetryState.replaceSession row s.sessions } Q ∧
        ∀ e, Q (.error e) s :=
  leads_statement (c := .replaceSession row) rfl fun _ _ => Iff.rfl

theorem leads_timeMs {f : Int → TelemetryProgram α} (h : ∀ now, Leads (f now) s Q) :
    Leads (telemetryCall .timeMs >>= f) s Q := by
  apply (Program.always_perform_bind (σ := telemetrySignature) .timeMs f).mpr
  refine ⟨trivial, fun now s' hstep => ?_, fun e s' hstep => ?_⟩
  · obtain ⟨rfl, -⟩ | ⟨hstatement, -⟩ := hstep
    · exact h now
    · cases hstatement
  · obtain ⟨-, now, hnow⟩ | ⟨hstatement, -⟩ := hstep
    · cases hnow
    · cases hstatement

/-- The event is created with an id that no event has, or its category is none. -/
theorem leads_create {sessionId : Option String} {args : TrackArgs}
    {f : TelemetryEvent → TelemetryProgram α}
    (hok : ∀ nowMs uuid event, uuid ∉ s.created.map (·.id) →
      TelemetryEvent.create nowMs uuid sessionId args = .ok event →
        Leads (f event) { s with created := s.created ++ [event] } Q)
    (herror : ∀ nowMs uuid e, TelemetryEvent.create nowMs uuid sessionId args = .error e →
      Q (.error e) s) :
    Leads (telemetryCall (.create sessionId args) >>= f) s Q := by
  apply (Program.always_perform_bind (σ := telemetrySignature) (.create sessionId args) f).mpr
  refine ⟨trivial, fun event s' hstep => ?_, fun e s' hstep => ?_⟩
  · obtain ⟨nowMs, uuid, hfresh, hmatch⟩ | ⟨hstatement, -⟩ := hstep
    · split at hmatch
      · next _ hcreate =>
        obtain ⟨hevent, rfl⟩ := hmatch
        cases hevent
        exact hok nowMs uuid event hfresh hcreate
      · cases hmatch.1
    · cases hstatement
  · obtain ⟨nowMs, uuid, -, hmatch⟩ | ⟨hstatement, -⟩ := hstep
    · split at hmatch
      · cases hmatch.1
      · next _ hcreate =>
        obtain ⟨he, rfl⟩ := hmatch
        cases he
        exact herror nowMs uuid e hcreate
    · cases hstatement

theorem leads_bind_return {p : TelemetryProgram α} :
    Leads (p >>= fun a => .ret a) s Q ↔ Leads p s Q := by
  rw [Program.bind_ret]

end Rules

namespace TelemetryState

/-- The events that are stored or buffered are those that were created, each once. -/
structure Accounted (s : TelemetryState) : Prop where
  once : (s.created.map (·.id)).Nodup
  accounted : (s.events ++ s.buffer).Perm s.created

/-- The summary that is stored for a session. -/
def summary (sessionId : String) (s : TelemetryState) : Option SessionSummary :=
  (selectSession sessionId s.sessions).map (·.toSession)

/-- The sessions, once the event is counted in the summary of its session. -/
def counted (sessionId : String) (event : TelemetryEvent) (s : TelemetryState) :
    List TelemetrySessionRow :=
  match (s.summary sessionId).bind (·.updated event) with
  | none => s.sessions
  | some summary => replaceSession summary.toRow s.sessions

theorem counted_congr {s s' : TelemetryState} {sessionId : String} {event : TelemetryEvent}
    (h : s'.sessions = s.sessions) : s'.counted sessionId event = s.counted sessionId event := by
  unfold counted summary
  rw [h]

theorem exists_of_getD {sessionId : Option String} (h : sessionId.getD "" ≠ "") :
    ∃ id, sessionId = some id := by
  cases sessionId with
  | none => exact absurd rfl h
  | some id => exact ⟨id, rfl⟩

theorem foldl_replaceEvent {events new : List TelemetryEvent}
    (h : ((events ++ new).map (·.id)).Nodup) : new.foldl replaceEvent events = events ++ new := by
  induction new generalizing events with
  | nil => simp
  | cons event new ih =>
    have hfresh : events.filter (·.id ≠ event.id) = events := by
      apply List.filter_eq_self.mpr
      intro other hother
      rw [List.map_append, List.map_cons] at h
      have hne := (List.nodup_append.mp h).2.2 other.id (List.mem_map_of_mem hother) event.id
        List.mem_cons_self
      simpa using hne
    rw [List.foldl_cons, replaceEvent, hfresh, ih (by simpa using h)]
    simp

end TelemetryState

open TelemetryState

/-- A flush that returns leaves nothing in the buffer; one that raises leaves everything as it was. -/
structure Flushed (s : TelemetryState) (out : Except Exn Unit) (s' : TelemetryState) : Prop where
  buffer : out = .ok () → s'.buffer = []
  accounted : s.Accounted → s'.Accounted
  created : s'.created = s.created
  sessionId : s'.sessionId = s.sessionId
  sessions : s'.sessions = s.sessions

theorem Flushed.same (h : s.buffer = []) : Flushed s (.ok ()) s :=
  ⟨fun _ => h, fun h => h, rfl, rfl, rfl⟩

theorem leads_flush : Leads TelemetryService.flush s (Flushed s) := by
  unfold TelemetryService.flush saveBatch
  rw [leads_buffer]
  by_cases hempty : s.buffer = []
  · rw [if_pos hempty]
    exact Flushed.same hempty
  · rw [if_neg hempty, if_neg hempty, leads_saveBatch]
    constructor
    · rw [← leads_bind_return, leads_clear, leads_return]
      refine ⟨fun _ => rfl, fun h => ⟨h.once, ?_⟩, rfl, rfl, rfl⟩
      have hnodup : ((s.events ++ s.buffer).map (·.id)).Nodup :=
        (h.accounted.map (·.id)).nodup_iff.mpr h.once
      show (s.buffer.foldl replaceEvent s.events ++ []).Perm s.created
      rw [foldl_replaceEvent hnodup, List.append_nil]
      exact h.accounted
    · intro e
      refine ⟨fun h => ?_, fun h => h, rfl, rfl, rfl⟩
      cases h

/-- The summary of the session counts the event, unless the database fails; nothing else changes. -/
structure Summed (event : TelemetryEvent) (s : TelemetryState) (out : Except Exn Unit)
    (s' : TelemetryState) : Prop where
  same : s' = { s with sessions := s'.sessions }
  counted : ∀ sessionId, s.sessionId = some sessionId → out = .ok () →
    s'.sessions = s.counted sessionId event
  uncounted : ∀ e, out = .error e → s'.sessions = s.sessions

theorem Summed.unchanged {event : TelemetryEvent}
    (h : ∀ sessionId, s.sessionId = some sessionId → s.counted sessionId event = s.sessions) :
    Summed event s (.ok ()) s :=
  ⟨rfl, fun sessionId hsession _ => (h sessionId hsession).symm, fun _ _ => rfl⟩

theorem Summed.raised {event : TelemetryEvent} (e : Exn) : Summed event s (.error e) s := by
  refine ⟨rfl, fun _ _ h => ?_, fun _ _ => rfl⟩
  cases h

theorem leads_updateSessionSummary {event : TelemetryEvent} :
    Leads (TelemetryService.updateSessionSummary event) s (Summed event s) := by
  unfold TelemetryService.updateSessionSummary getSessionSummary saveSessionSummary
  rw [leads_session]
  cases hsession : s.sessionId with
  | none =>
    apply Summed.unchanged
    intro sessionId h
    rw [hsession] at h
    cases h
  | some sessionId =>
    have hsome : ∀ other, s.sessionId = some other → other = sessionId := by
      intro other h
      rw [hsession] at h
      cases h
      rfl
    simp only [Program.bind_assoc]
    rw [leads_selectSession]
    refine ⟨?_, fun e => Summed.raised e⟩
    cases hrow : selectSession sessionId s.sessions with
    | none =>
      apply Summed.unchanged
      intro other h
      rw [hsome other h]
      simp [counted, summary, hrow]
    | some row =>
      cases hupdated : row.toSession.updated event with
      | none =>
        simp only [Program.pure_eq, Program.ret_bind, Option.map_some, hupdated]
        apply Summed.unchanged
        intro other h
        rw [hsome other h]
        simp [counted, summary, hrow, hupdated]
      | some updated =>
        simp only [Program.pure_eq, Program.ret_bind, Option.map_some, hupdated]
        rw [← leads_bind_return, leads_replaceSession, leads_return]
        refine ⟨⟨rfl, fun other h _ => ?_, fun e h => ?_⟩, fun e => Summed.raised e⟩
        · rw [hsome other h]
          simp [counted, summary, hrow, hupdated]
        · cases h

/-- What tracking adds to the events: one with the given fields, whose id is answered, or none where
the category is none. -/
inductive Tracks (sessionId : Option String) (args : TrackArgs) (out : Except Exn String) :
    List TelemetryEvent → Prop where
  | event {nowMs event} (create : TelemetryEvent.create nowMs event.id sessionId args = .ok event)
      (answer : ∀ id, out = .ok id → id = event.id) : Tracks sessionId args out [event]
  | invalid {e} (category : EventCategory.ofValue args.eventCategory = .error e) :
      Tracks sessionId args out []

theorem create_eq_ok {nowMs : Int} {uuid : String} {sessionId : Option String} {args : TrackArgs}
    {event : TelemetryEvent} (h : TelemetryEvent.create nowMs uuid sessionId args = .ok event) :
    event.id = uuid ∧ event.eventType = args.eventType ∧ event.attributes = args.attributes ∧
      ∃ category, EventCategory.ofValue args.eventCategory = .ok category := by
  obtain ⟨category, hcategory, hevent⟩ := bind_eq_ok.mp h
  cases hevent
  exact ⟨rfl, rfl, rfl, category, hcategory⟩

theorem create_eq_error {nowMs : Int} {uuid : String} {sessionId : Option String}
    {args : TrackArgs} {e : Exn}
    (h : TelemetryEvent.create nowMs uuid sessionId args = .error e) :
    EventCategory.ofValue args.eventCategory = .error e := by
  unfold TelemetryEvent.create at h
  cases hcategory : EventCategory.ofValue args.eventCategory with
  | ok category =>
    rw [hcategory] at h
    cases h
  | error e' =>
    rw [hcategory] at h
    cases h
    rfl

/-- What a call of `track` does: the event is accounted for also where the flush or the update of the
summary raises, and is counted where the call returns. -/
structure Tracked (s : TelemetryState) (args : TrackArgs) (out : Except Exn String)
    (s' : TelemetryState) : Prop where
  created : ∃ events, Tracks s.sessionId args out events ∧ s'.created = s.created ++ events
  accounted : s.Accounted → s'.Accounted
  sessionId : s'.sessionId = s.sessionId
  category : ∀ id, out = .ok id → ∃ category, EventCategory.ofValue args.eventCategory = .ok category
  counted : ∀ id, out = .ok id → ∃ event : TelemetryEvent,
    event.eventType = args.eventType ∧ event.attributes = args.attributes ∧
      s'.sessions = if s.sessionId.getD "" ≠ "" then s.counted (s.sessionId.getD "") event
        else s.sessions
  uncounted : ∀ e, out = .error e → s'.sessions = s.sessions

theorem TelemetryState.Accounted.append (h : s.Accounted) (event : TelemetryEvent)
    (hfresh : event.id ∉ s.created.map (·.id)) : TelemetryState.Accounted
      { s with created := s.created ++ [event], buffer := s.buffer ++ [event] } := by
  constructor
  · rw [List.map_append, List.map_singleton, List.nodup_append]
    refine ⟨h.once, by simp, fun x hx y hy => ?_⟩
    rw [List.mem_singleton.mp hy]
    intro heq
    exact hfresh (heq ▸ hx)
  · rw [← List.append_assoc]
    exact h.accounted.append_right [event]

/-- The event is created and has come into the buffer, wherever it is now. -/
structure Buffered (s : TelemetryState) (event : TelemetryEvent) (s' : TelemetryState) : Prop where
  created : s'.created = s.created ++ [event]
  accounted : s.Accounted → s'.Accounted
  sessionId : s'.sessionId = s.sessionId
  sessions : s'.sessions = s.sessions

theorem Buffered.of_summed {event other : TelemetryEvent} {s₁ s₂ : TelemetryState}
    {out : Except Exn Unit} (h : Buffered s event s₁) (hsummed : Summed other s₁ out s₂) :
    s₂.created = s.created ++ [event] ∧ (s.Accounted → s₂.Accounted) ∧ s₂.sessionId = s.sessionId := by
  rw [hsummed.same]
  refine ⟨h.created, fun hs => ?_, h.sessionId⟩
  exact ⟨(h.accounted hs).once, (h.accounted hs).accounted⟩

theorem leads_flush_if {event : TelemetryEvent} {t : TelemetryState} (h : Buffered s event t)
    {full : Prop} [Decidable full] :
    Leads (if full then TelemetryService.flush else pure ()) t fun _ s' => Buffered s event s' := by
  split
  · apply leads_flush.mono
    intro out s' hflush
    exact ⟨hflush.created.trans h.created, fun hs => hflush.accounted (h.accounted hs),
      hflush.sessionId.trans h.sessionId, hflush.sessions.trans h.sessions⟩
  · exact h

variable {service : TelemetryService} {args : TrackArgs}

theorem leads_track (henabled : service.enabled = true) :
    Leads (service.track args) s (Tracked s args) := by
  unfold TelemetryService.track
  rw [if_neg (by simp [henabled]), leads_session]
  apply leads_create
  · intro nowMs uuid event hfresh hcreate
    obtain ⟨hid, htype, hattributes, hcategory⟩ := create_eq_ok hcreate
    rw [leads_append, leads_buffer]
    have haccounted : s.Accounted → TelemetryState.Accounted
        { s with created := s.created ++ [event], buffer := s.buffer ++ [event] } := by
      intro h
      exact h.append event (hid ▸ hfresh)
    -- from here on the event is accounted for, and is only counted where nothing raises
    have hraised : ∀ {s' : TelemetryState} (e : Exn), s'.created = s.created ++ [event] ∧
        (s.Accounted → s'.Accounted) ∧ s'.sessionId = s.sessionId → s'.sessions = s.sessions →
          Tracked s args (.error e) s' := by
      intro s' e h hsessions
      refine ⟨⟨[event], .event (hid ▸ hcreate) ?_, h.1⟩, h.2.1, h.2.2, fun _ _ => hcategory, ?_,
        fun _ _ => hsessions⟩
      · intro id hout
        cases hout
      · intro id hout
        cases hout
    apply (leads_flush_if (Buffered.mk rfl haccounted rfl rfl)).bind
    · intro _ s₁ hbuffered
      by_cases hsession : s.sessionId.getD "" ≠ ""
      · rw [if_pos hsession]
        apply leads_updateSessionSummary.bind
        · intro _ s₂ hsummed
          have hlater := hbuffered.of_summed hsummed
          refine ⟨⟨[event], .event (hid ▸ hcreate) ?_, hlater.1⟩, hlater.2.1, hlater.2.2,
            fun _ _ => hcategory, ?_, ?_⟩
          · intro id hout
            cases hout
            rfl
          · intro id _
            refine ⟨event, htype, hattributes, ?_⟩
            obtain ⟨sessionId, hsome⟩ := exists_of_getD hsession
            rw [if_pos hsession, hsummed.counted sessionId (hbuffered.sessionId.trans hsome) rfl,
              counted_congr hbuffered.sessions, hsome]
            rfl
          · intro e hout
            cases hout
        · intro e s₂ hsummed
          exact hraised e (hbuffered.of_summed hsummed)
            ((hsummed.uncounted e rfl).trans hbuffered.sessions)
      · rw [if_neg hsession]
        refine ⟨⟨[event], .event (hid ▸ hcreate) ?_, hbuffered.created⟩, hbuffered.accounted,
          hbuffered.sessionId, fun _ _ => hcategory, ?_, ?_⟩
        · intro id hout
          cases hout
          rfl
        · intro id _
          refine ⟨event, htype, hattributes, ?_⟩
          rw [if_neg hsession]
          exact hbuffered.sessions
        · intro e hout
          cases hout
    · intro e s₁ hbuffered
      exact hraised e ⟨hbuffered.created, hbuffered.accounted, hbuffered.sessionId⟩ hbuffered.sessions
  · intro nowMs uuid e hcreate
    refine ⟨⟨[], .invalid (create_eq_error hcreate), by simp⟩, fun h => h, rfl, ?_, ?_, fun _ _ => rfl⟩
    · intro id hout
      cases hout
    · intro id hout
      cases hout

section Served

/-- Answers at time 5, with one id for the event that is created; a batch can be made to fail. -/
def respond (uuid : String) (failing : Bool) : (c : TelemetryCall) → TelemetryState →
    Option (Except Exn c.Value × TelemetryState)
  | .timeMs, s => some (.ok (5 : Int), s)
  | .create sessionId args, s =>
    if uuid ∈ s.created.map (·.id) then none else
      match TelemetryEvent.create 5 uuid sessionId args with
      | .ok event => some (.ok event, { s with created := s.created ++ [event] })
      | .error e => some (.error e, s)
  | .buffer, s => some (.ok s.buffer, s)
  | .append event, s => some (.ok (), { s with buffer := s.buffer ++ [event] })
  | .clear, s => some (.ok (), { s with buffer := [] })
  | .session, s => some (.ok (s.sessionId, s.sessionStart), s)
  | .setSession sessionId sessionStart, s => some (.ok (), { s with sessionId, sessionStart })
  | .saveBatch events, s =>
    if failing then some (.error (.operationalError "disk I/O error"), s)
    else some (.ok (), { s with events := events.foldl replaceEvent s.events })
  | .selectSession sessionId, s => some (.ok (selectSession sessionId s.sessions), s)
  | .replaceSession row, s => some (.ok (), { s with sessions := replaceSession row s.sessions })

theorem respond_step {uuid : String} {failing : Bool} (c : TelemetryCall) (s : TelemetryState)
    (r : Except Exn c.Value) (s' : TelemetryState) (h : respond uuid failing c s = some (r, s')) :
    TelemetryState.step ⟨c, r⟩ s s' := by
  cases c with
  | timeMs =>
    cases h
    exact .inl ⟨rfl, 5, rfl⟩
  | create sessionId args =>
    simp only [respond] at h
    split_ifs at h with hused
    left
    refine ⟨5, uuid, hused, ?_⟩
    cases hcreate : TelemetryEvent.create 5 uuid sessionId args with
    | ok event =>
      rw [hcreate] at h
      cases h
      exact ⟨rfl, rfl⟩
    | error e =>
      rw [hcreate] at h
      cases h
      exact ⟨rfl, rfl⟩
  | saveBatch events =>
    cases failing with
    | true =>
      cases h
      exact .inr ⟨rfl, rfl, _, rfl⟩
    | false =>
      cases h
      exact .inl ⟨rfl, rfl⟩
  | _ =>
    cases h
    exact .inl ⟨rfl, rfl⟩

theorem runs_of_exec (uuid : String) (failing : Bool) {p : TelemetryProgram α} {s s' : TelemetryState}
    {out : Except Exn α} {answers : List (Answered telemetrySignature Exn)}
    (h : p.exec (respond uuid failing) s = some (out, answers, s')) :
    p.Runs TelemetryState.step s out s' :=
  (Program.exec_reaches (σ := telemetrySignature) respond_step h).runs

end Served

end ForkAgent.Telemetry

import ForkAgent.Telemetry.Runs
import Mathlib.Data.List.Forall2

/-!
# Every event once

What is stored together with what is buffered is what was tracked, after every operation and whatever
the database makes of the batches.
-/

namespace ForkAgent.Telemetry

open Effects TelemetryRepository TelemetryState

variable {service : TelemetryService} {s s₀ : TelemetryState}

/-- The events that an operation tracks: one where `track` is called with a category, none where it
only flushes. A session starts and ends with an event, unless a failure comes first. -/
def TracksOp (e : (telemetrySystem service).Performed) (events : List TelemetryEvent) : Prop :=
  match e with
  | ⟨.track args, before, out, _⟩ => Tracks before.sessionId args out events
  | ⟨.flush, _, _, _⟩ => events = []
  | ⟨.startSession sessionId workspaceId, _, out, _⟩ =>
    (∃ r, Tracks (some sessionId) (service.sessionStarted workspaceId) r events) ∨
      events = [] ∧ out ≠ .ok ()
  | ⟨.endSession reason, before, _, _⟩ =>
    (∃ durationMs r, Tracks before.sessionId (TelemetryService.sessionEnded reason durationMs) r events) ∨
      events = [] ∧ before.sessionId.getD "" = ""

/-- What an operation adds to the events that were created, while it keeps the account. -/
structure Adds (s : TelemetryState) (events : List TelemetryEvent) (s' : TelemetryState) : Prop where
  created : s'.created = s.created ++ events
  accounted : s.Accounted → s'.Accounted

theorem Adds.of_tracked {args : TrackArgs} {out : Except Exn String} {s' : TelemetryState}
    (h : Tracked s args out s') : ∃ events, Tracks s.sessionId args out events ∧ Adds s events s' := by
  obtain ⟨events, htracks, hcreated⟩ := h.created
  exact ⟨events, htracks, hcreated, h.accounted⟩

theorem Adds.sessions {events : List TelemetryEvent} {s' : TelemetryState} {sessionId : Option String}
    {sessionStart : Option Int} {sessions : List TelemetrySessionRow}
    (h : Adds { s with sessionId, sessionStart, sessions } events s') : Adds s events s' :=
  ⟨h.created, fun hs => h.accounted ⟨hs.once, hs.accounted⟩⟩

theorem Adds.then_sessions {events : List TelemetryEvent} {s' : TelemetryState} (h : Adds s events s')
    (sessionId : Option String) (sessionStart : Option Int) (sessions : List TelemetrySessionRow) :
    Adds s events { s' with sessionId, sessionStart, sessions } :=
  ⟨h.created, fun hs => ⟨(h.accounted hs).once, (h.accounted hs).accounted⟩⟩

theorem Adds.nothing : Adds s [] s := ⟨by simp, fun h => h⟩

theorem Adds.then_flushed {events : List TelemetryEvent} {out : Except Exn Unit}
    {s₁ s' : TelemetryState} (h : Adds s events s₁) (hflush : Flushed s₁ out s') : Adds s events s' :=
  ⟨hflush.created.trans h.created, fun hs => hflush.accounted (h.accounted hs)⟩

theorem leads_startSession (henabled : service.enabled = true) {sessionId : String}
    {workspaceId : Option String} :
    Leads (service.startSession sessionId workspaceId) s fun out s' =>
      ∃ events, ((∃ r, Tracks (some sessionId) (service.sessionStarted workspaceId) r events) ∨
        events = [] ∧ out ≠ .ok ()) ∧ Adds s events s' := by
  unfold TelemetryService.startSession saveSessionSummary
  rw [if_neg (by simp [henabled])]
  apply leads_timeMs
  intro now
  rw [leads_setSession, leads_replaceSession]
  constructor
  · apply (leads_track henabled).bind
    · intro id s' h
      obtain ⟨events, htracks, hadds⟩ := Adds.of_tracked h
      exact ⟨events, .inl ⟨_, htracks⟩, Adds.sessions (s := s) hadds⟩
    · intro e s' h
      obtain ⟨events, htracks, hadds⟩ := Adds.of_tracked h
      exact ⟨events, .inl ⟨_, htracks⟩, Adds.sessions (s := s) hadds⟩
  · intro e
    exact ⟨[], .inr ⟨rfl, by simp⟩, Adds.sessions (s := s) .nothing⟩

theorem leads_updateEnded {sessionId reason : String} {now durationMs : Int} :
    Leads (TelemetryService.updateEnded sessionId reason now durationMs) s fun _ s' =>
      s' = { s with sessions := s'.sessions } := by
  unfold TelemetryService.updateEnded getSessionSummary saveSessionSummary
  simp only [Program.bind_assoc]
  rw [leads_selectSession]
  refine ⟨?_, fun e => rfl⟩
  cases selectSession sessionId s.sessions with
  | none => exact rfl
  | some row =>
    simp only [Program.pure_eq, Program.ret_bind, Option.map_some]
    rw [← leads_bind_return, leads_replaceSession]
    exact ⟨rfl, fun e => rfl⟩

theorem leads_endSession (henabled : service.enabled = true) {reason : String} :
    Leads (service.endSession reason) s fun _ s' =>
      ∃ events, ((∃ durationMs r,
        Tracks s.sessionId (TelemetryService.sessionEnded reason durationMs) r events) ∨
          events = [] ∧ s.sessionId.getD "" = "") ∧ Adds s events s' := by
  unfold TelemetryService.endSession
  rw [if_neg (by simp [henabled]), leads_session]
  dsimp only
  split
  · next hsession =>
    refine ⟨[], .inr ⟨rfl, ?_⟩, .nothing⟩
    cases hid : s.sessionId with
    | none => rfl
    | some id => simpa [hid, Option.filter] using hsession
  · apply leads_timeMs
    intro now
    apply (leads_track henabled).bind
    · intro id s₁ h
      obtain ⟨events, htracks, hadds⟩ := Adds.of_tracked h
      apply leads_flush.bind
      · intro _ s₂ hflush
        have hflushed := hadds.then_flushed hflush
        apply leads_updateEnded.bind
        · intro _ s₃ hsame
          rw [← leads_bind_return, leads_setSession, leads_return]
          refine ⟨events, .inl ⟨_, _, htracks⟩, ?_⟩
          rw [hsame]
          exact hflushed.then_sessions none none _
        · intro e s₃ hsame
          refine ⟨events, .inl ⟨_, _, htracks⟩, ?_⟩
          rw [hsame]
          exact hflushed.then_sessions _ _ _
      · intro e s₂ hflush
        exact ⟨events, .inl ⟨_, _, htracks⟩, hadds.then_flushed hflush⟩
    · intro e s₁ h
      obtain ⟨events, htracks, hadds⟩ := Adds.of_tracked h
      exact ⟨events, .inl ⟨_, _, htracks⟩, hadds⟩

theorem adds_of_runs (henabled : service.enabled = true) {op : TelemetryOp}
    {out : Except Exn op.Result} {s' : TelemetryState}
    (h : (op.program service).Runs TelemetryState.step s out s') :
    ∃ events, @TracksOp service ⟨op, s, out, s'⟩ events ∧ Adds s events s' := by
  cases op with
  | startSession sessionId workspaceId => exact (leads_startSession henabled).of_runs h
  | endSession reason => exact (leads_endSession henabled).of_runs h
  | track args => exact Adds.of_tracked ((leads_track henabled).of_runs h)
  | flush => exact ⟨[], rfl, Adds.nothing.then_flushed (leads_flush.of_runs h)⟩

theorem Unused.accounted (h : s.Unused) : s.Accounted := by
  constructor
  · rw [h.created]
    exact h.keyed
  · rw [h.buffer, h.created, List.append_nil]

/-- The stored and the buffered events are those that were stored at first and those that were tracked,
each once; and a flush that returns has emptied the buffer. -/
structure EachEventOnce (s₀ : TelemetryState) (tr : List (telemetrySystem service).Performed)
    (s : TelemetryState) : Prop where
  accounted : ∃ tracked, List.Forall₂ TracksOp tr tracked ∧
    (s.events ++ s.buffer).Perm (s₀.events ++ tracked.flatten)
  once : ((s.events ++ s.buffer).map (·.id)).Nodup
  flushed : ∀ before after, ⟨.flush, before, .ok (), after⟩ ∈ tr → after.buffer = []

/-- It is so after any sequence of operations, whichever batches and statements fail in it. -/
theorem events_accounted (henabled : service.enabled = true) (hunused : s₀.Unused)
    {tr : List (telemetrySystem service).Performed} (h : (telemetrySystem service).Performs s₀ tr s) :
    EachEventOnce s₀ tr s := by
  have hadded : ∃ tracked, List.Forall₂ TracksOp tr tracked ∧
      s.created = s₀.created ++ tracked.flatten ∧ s.Accounted := by
    induction h with
    | nil => exact ⟨[], .nil, by simp, Unused.accounted hunused⟩
    | snoc before op runs ih =>
      obtain ⟨tracked, htracked, hcreated, haccounted⟩ := ih
      obtain ⟨events, hevents, hadds⟩ := adds_of_runs henabled runs
      refine ⟨tracked ++ [events], List.rel_append htracked (.cons hevents .nil), ?_,
        hadds.accounted haccounted⟩
      rw [hadds.created, hcreated]
      simp
  obtain ⟨tracked, htracked, hcreated, haccounted⟩ := hadded
  rw [hunused.created] at hcreated
  constructor
  · exact ⟨tracked, htracked, hcreated ▸ haccounted.accounted⟩
  · exact (haccounted.accounted.map (·.id)).nodup_iff.mpr haccounted.once
  · intro before after hmem
    have hruns := (h.of_mem (I := fun _ => True) trivial (fun _ _ _ _ _ _ => trivial) hmem).2
    exact (leads_flush.of_runs hruns).buffer rfl

section Example

/-- A service that writes each event at once. -/
def promptService : TelemetryService where
  bufferSize := 1
  platform := "linux"
  pythonVersion := "3.12"
  forkAgentVersion := "1.0"

def savedMemory : TrackArgs :=
  { eventType := EventType.MEMORY_SAVE, eventCategory := "memory", attributes := [] }

def savedMemoryEvent : TelemetryEvent where
  id := "e1"
  eventType := EventType.MEMORY_SAVE
  eventCategory := "memory"
  timestamp := 5
  receivedAt := 5
  attributes := []
  expiresAt := some 2592000005

/-- The event is created, and its batch has failed. -/
def keptBack : TelemetryState := { buffer := [savedMemoryEvent], created := [savedMemoryEvent] }

def writtenLater : TelemetryState := { events := [savedMemoryEvent], created := [savedMemoryEvent] }

def retried : List (telemetrySystem promptService).Performed :=
  [⟨.track savedMemory, {}, .error (.operationalError "disk I/O error"), keptBack⟩,
    ⟨.flush, keptBack, .ok (), writtenLater⟩]

theorem performs_retried : (telemetrySystem promptService).Performs {} retried writtenLater := by
  have hfailed : (telemetrySystem promptService).Performs {} _ keptBack :=
    System.Performs.nil.snoc (TelemetryOp.track savedMemory) (runs_of_exec "e1" true rfl)
  exact hfailed.snoc TelemetryOp.flush (runs_of_exec "e2" false rfl)

/-- The batch of the first event fails; the flush that follows writes it. -/
theorem events_accounted_retried : EachEventOnce {} retried writtenLater := by
  have hunused : TelemetryState.Unused {} := ⟨rfl, rfl, List.nodup_nil⟩
  exact events_accounted rfl hunused performs_retried

end Example

end ForkAgent.Telemetry

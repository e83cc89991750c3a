import ForkAgent.Telemetry.Runs

/-!
# The counters of a session

Each counter of the stored summary goes up with the events of its types. The counter of the hybrid
dispatches has no column: whenever the summary is saved it is lost.
-/

namespace ForkAgent.Telemetry

open Effects TelemetryRepository TelemetryState

inductive Counter where
  | hooksFired
  | hooksSucceeded
  | hooksFailed
  | agentsSpawned
  | agentsCompleted
  | agentsFailed
  | tmuxSessionsCreated
  | tmuxSessionsKilled
  | memorySaves
  | memorySearches
  | memoryDeletes
  | workflowStarted
  | workflowCompleted
  | workflowAborted
  | cliCommands
  | cliErrors
  | hybridDispatches
  deriving DecidableEq, Repr

namespace Counter

def read : Counter → SessionSummary → Int
  | hooksFired => SessionSummary.hooksFired
  | hooksSucceeded => SessionSummary.hooksSucceeded
  | hooksFailed => SessionSummary.hooksFailed
  | agentsSpawned => SessionSummary.agentsSpawned
  | agentsCompleted => SessionSummary.agentsCompleted
  | agentsFailed => SessionSummary.agentsFailed
  | tmuxSessionsCreated => SessionSummary.tmuxSessionsCreated
  | tmuxSessionsKilled => SessionSummary.tmuxSessionsKilled
  | memorySaves => SessionSummary.memorySaves
  | memorySearches => SessionSummary.memorySearches
  | memoryDeletes => SessionSummary.memoryDeletes
  | workflowStarted => SessionSummary.workflowStarted
  | workflowCompleted => SessionSummary.workflowCompleted
  | workflowAborted => SessionSummary.workflowAborted
  | cliCommands => SessionSummary.cliCommands
  | cliErrors => SessionSummary.cliErrors
  | hybridDispatches => SessionSummary.hybridDispatches

/-- The types of the events that a counter counts. -/
def types : Counter → List String
  | hooksFired => [EventType.HOOK_FIRE]
  | hooksSucceeded => [EventType.HOOK_SUCCESS]
  | hooksFailed => [EventType.HOOK_FAIL]
  | agentsSpawned => [EventType.AGENT_SPAWN]
  | agentsCompleted | agentsFailed => [EventType.AGENT_STOP]
  | tmuxSessionsCreated => [EventType.TMUX_SESSION_CREATE]
  | tmuxSessionsKilled => [EventType.TMUX_SESSION_KILL]
  | memorySaves => [EventType.MEMORY_SAVE]
  | memorySearches => [EventType.MEMORY_SEARCH]
  | memoryDeletes => [EventType.MEMORY_DELETE]
  | workflowStarted => [EventType.WORKFLOW_OUTLINE, EventType.WORKFLOW_EXECUTE]
  | workflowCompleted => [EventType.WORKFLOW_SHIP]
  | workflowAborted => [EventType.WORKFLOW_ABORT]
  | cliCommands => [EventType.CLI_COMMAND]
  | cliErrors => [EventType.CLI_ERROR]
  | hybridDispatches => [EventType.CLI_HYBRID_DISPATCH]

/-- An agent that stops has completed unless its status says otherwise. -/
def completed (attributes : JsonObject) : Bool :=
  attributes.getD "status" (.str "completed") = .str "completed"

/-- Whether the counter counts an event of this type with these attributes. -/
def counts (c : Counter) (eventType : String) (attributes : JsonObject) : Bool :=
  c.types.contains eventType && match c with
    | agentsCompleted => completed attributes
    | agentsFailed => !completed attributes
    | _ => true

/-- The summary with one counter raised. -/
def raise (summary : SessionSummary) : Counter → SessionSummary
  | hooksFired => { summary with hooksFired := summary.hooksFired + 1 }
  | hooksSucceeded => { summary with hooksSucceeded := summary.hooksSucceeded + 1 }
  | hooksFailed => { summary with hooksFailed := summary.hooksFailed + 1 }
  | agentsSpawned => { summary with agentsSpawned := summary.agentsSpawned + 1 }
  | agentsCompleted => { summary with agentsCompleted := summary.agentsCompleted + 1 }
  | agentsFailed => { summary with agentsFailed := summary.agentsFailed + 1 }
  | tmuxSessionsCreated => { summary with tmuxSessionsCreated := summary.tmuxSessionsCreated + 1 }
  | tmuxSessionsKilled => { summary with tmuxSessionsKilled := summary.tmuxSessionsKilled + 1 }
  | memorySaves => { summary with memorySaves := summary.memorySaves + 1 }
  | memorySearches => { summary with memorySearches := summary.memorySearches + 1 }
  | memoryDeletes => { summary with memoryDeletes := summary.memoryDeletes + 1 }
  | workflowStarted => { summary with workflowStarted := summary.workflowStarted + 1 }
  | workflowCompleted => { summary with workflowCompleted := summary.workflowCompleted + 1 }
  | workflowAborted => { summary with workflowAborted := summary.workflowAborted + 1 }
  | cliCommands => { summary with cliCommands := summary.cliCommands + 1 }
  | cliErrors => { summary with cliErrors := summary.cliErrors + 1 }
  | hybridDispatches => { summary with hybridDispatches := summary.hybridDispatches + 1 }

theorem read_raise (c d : Counter) (summary : SessionSummary) :
    c.read (d.raise summary) = c.read summary + if c = d then 1 else 0 := by
  by_cases h : c = d
  · subst h
    rw [if_pos rfl]
    cases c <;> rfl
  · rw [if_neg h, Int.add_zero]
    cases d <;> cases c <;> first | rfl | exact absurd rfl h

theorem sessionId_raise (d : Counter) (summary : SessionSummary) :
    (d.raise summary).sessionId = summary.sessionId := by
  cases d <;> rfl

theorem types_disjoint (c d : Counter) :
    ∀ eventType ∈ c.types, eventType ∈ d.types →
      c = d ∨ c = agentsCompleted ∧ d = agentsFailed ∨ c = agentsFailed ∧ d = agentsCompleted := by
  cases c <;> cases d <;> decide

theorem counts_inj {c d : Counter} {eventType : String} {attributes : JsonObject}
    (hc : c.counts eventType attributes = true) (hd : d.counts eventType attributes = true) :
    c = d := by
  unfold counts at hc hd
  simp only [Bool.and_eq_true, List.contains_eq_mem, decide_eq_true_eq] at hc hd
  obtain h | ⟨rfl, rfl⟩ | ⟨rfl, rfl⟩ := types_disjoint c d eventType hc.1 hd.1
  · exact h
  · simp [hc.2] at hd
  · simp [hd.2] at hc

theorem raise_spec {d : Counter} {eventType : String} {attributes : JsonObject}
    (h : d.counts eventType attributes = true) (summary : SessionSummary) :
    (d.raise summary).sessionId = summary.sessionId ∧ ∀ c : Counter,
      c.read (d.raise summary) = c.read summary + if c.counts eventType attributes then 1 else 0 := by
  refine ⟨sessionId_raise d summary, fun c => ?_⟩
  rw [read_raise]
  by_cases hc : c = d
  · rw [if_pos hc, hc, if_pos h]
  · rw [if_neg hc, if_neg]
    intro hcounts
    exact hc (counts_inj hcounts h)

end Counter

/-- What the update of a summary may be: a counter that counts the event is raised, or there is none. -/
inductive Update (summary : SessionSummary) (event : TelemetryEvent) : Option SessionSummary → Prop where
  | raised (d : Counter) (h : d.counts event.eventType event.attributes = true) :
      Update summary event (some (d.raise summary))
  | none (h : ∀ c : Counter, c.counts event.eventType event.attributes = false) :
      Update summary event none

theorem update_updated (summary : SessionSummary) (event : TelemetryEvent) :
    Update summary event (summary.updated event) := by
  unfold SessionSummary.updated
  refine iteInduction (fun h => .raised .hooksFired (by rw [h]; rfl)) fun h₁ => ?_
  refine iteInduction (fun h => .raised .hooksSucceeded (by rw [h]; rfl)) fun h₂ => ?_
  refine iteInduction (fun h => .raised .hooksFailed (by rw [h]; rfl)) fun h₃ => ?_
  refine iteInduction (fun h => .raised .agentsSpawned (by rw [h]; rfl)) fun h₄ => ?_
  refine iteInduction (fun h => ?_) fun h₅ => ?_
  · refine iteInduction (fun hstatus => ?_) fun hstatus => ?_
    · apply Update.raised .agentsCompleted
      rw [h]
      exact decide_eq_true hstatus
    · apply Update.raised .agentsFailed
      rw [h]
      exact congrArg not (decide_eq_false hstatus)
  refine iteInduction (fun h => .raised .tmuxSessionsCreated (by rw [h]; rfl)) fun h₆ => ?_
  refine iteInduction (fun h => .raised .tmuxSessionsKilled (by rw [h]; rfl)) fun h₇ => ?_
  refine iteInduction (fun h => .raised .memorySaves (by rw [h]; rfl)) fun h₈ => ?_
  refine iteInduction (fun h => .raised .memorySearches (by rw [h]; rfl)) fun h₉ => ?_
  refine iteInduction (fun h => .raised .memoryDeletes (by rw [h]; rfl)) fun h₁₀ => ?_
  refine iteInduction (fun h => ?_) fun h₁₁ => ?_
  · apply Update.raised .workflowStarted
    obtain h | h := h
    · rw [h]
      rfl
    · rw [h]
      rfl
  refine iteInduction (fun h => .raised .workflowCompleted (by rw [h]; rfl)) fun h₁₂ => ?_
  refine iteInduction (fun h => .raised .workflowAborted (by rw [h]; rfl)) fun h₁₃ => ?_
  refine iteInduction (fun h => .raised .cliCommands (by rw [h]; rfl)) fun h₁₄ => ?_
  refine iteInduction (fun h => .raised .cliErrors (by rw [h]; rfl)) fun h₁₅ => ?_
  refine iteInduction (fun h => .raised .hybridDispatches (by rw [h]; rfl)) fun h₁₆ => ?_
  refine .none fun c => ?_
  cases c <;> simp [Counter.counts, Counter.types, *]

section Stored

variable {s : TelemetryState} {sessionId : String}

/-- What the counters of the stored summary say, if there is one. -/
def TelemetryState.counter (c : Counter) (sessionId : String) (s : TelemetryState) : Option Int :=
  (s.summary sessionId).map c.read

theorem selectSession_replaceSession (row : TelemetrySessionRow) (rows : List TelemetrySessionRow) :
    selectSession row.sessionId (replaceSession row rows) = some row := by
  unfold selectSession replaceSession
  rw [List.find?_append, List.find?_eq_none.mpr]
  · simp
  · intro other hother
    have hne := (List.mem_filter.mp hother).2
    simpa using hne

theorem summary_of_replaceSession {saved : SessionSummary} {rows : List TelemetrySessionRow}
    (hid : saved.sessionId = sessionId) (h : s.sessions = replaceSession saved.toRow rows) :
    s.summary sessionId = some { saved with hybridDispatches := 0 } := by
  have hselect := selectSession_replaceSession saved.toRow rows
  rw [← h, show saved.toRow.sessionId = sessionId from hid] at hselect
  unfold TelemetryState.summary
  rw [hselect]
  rfl

theorem sessionId_of_summary {summary : SessionSummary} (h : s.summary sessionId = some summary) :
    summary.sessionId = sessionId ∧ summary.hybridDispatches = 0 := by
  obtain ⟨row, hrow, rfl⟩ := Option.map_eq_some_iff.mp h
  unfold selectSession at hrow
  have hid := List.find?_some hrow
  exact ⟨beq_iff_eq.mp hid, rfl⟩

theorem summary_congr {s' : TelemetryState} (h : s'.sessions = s.sessions) :
    s'.summary sessionId = s.summary sessionId := by
  unfold TelemetryState.summary
  rw [h]

theorem read_dropped {c : Counter} (hc : c ≠ .hybridDispatches) (summary : SessionSummary) :
    c.read { summary with hybridDispatches := 0 } = c.read summary := by
  cases c <;> first | rfl | exact absurd rfl hc

/-- Counting an event raises the stored counters that count it, but for the one without a column. -/
theorem summary_counted {event : TelemetryEvent} {summary : SessionSummary} {s' : TelemetryState}
    (h : s.summary sessionId = some summary) (hs' : s'.sessions = s.counted sessionId event) :
    ∃ summary', s'.summary sessionId = some summary' ∧ ∀ c : Counter, c ≠ .hybridDispatches →
      c.read summary' = c.read summary +
        if c.counts event.eventType event.attributes then 1 else 0 := by
  have hupdate := update_updated summary event
  unfold TelemetryState.counted at hs'
  rw [h, Option.bind_some] at hs'
  cases hresult : summary.updated event with
  | none =>
    rw [hresult] at hs' hupdate
    refine ⟨summary, (summary_congr hs').trans h, fun c _ => ?_⟩
    cases hupdate with
    | none hnone => simp [hnone c]
  | some updated =>
    rw [hresult] at hs' hupdate
    cases hupdate with
    | raised d hd =>
      obtain ⟨hid, hread⟩ := Counter.raise_spec hd summary
      refine ⟨{ d.raise summary with hybridDispatches := 0 }, ?_, fun c hc => ?_⟩
      · exact summary_of_replaceSession (hid.trans (sessionId_of_summary h).1) hs'
      · rw [read_dropped hc, hread]

end Stored

section Session

variable {service : TelemetryService} {s s₀ s₁ s₂ : TelemetryState} {sessionId : String}

/-- An event was tracked by the operation, and the counter counts it. A call of `track` creates its
event and buffers it, also where it raises afterwards; with an unknown category it creates none. -/
def countedBy (c : Counter) (e : (telemetrySystem service).Performed) : Bool :=
  match e with
  | ⟨.track args, _, _, _⟩ =>
    (EventCategory.ofValue args.eventCategory).isOk && c.counts args.eventType args.attributes
  | _ => false

/-- The call of `track` that the counter counts has returned. -/
def returnedBy (c : Counter) (e : (telemetrySystem service).Performed) : Bool :=
  match e with
  | ⟨.track args, _, .ok _, _⟩ => c.counts args.eventType args.attributes
  | _ => false

/-- An operation within a session. -/
def TelemetryOp.WithinSession : TelemetryOp → Prop
  | .track _ | .flush => True
  | .startSession .. | .endSession _ => False

/-- The summary is stored, and each of its counters is the number of the events it counts. -/
def CountsEvents (sessionId : String) (tr : List (telemetrySystem service).Performed)
    (s : TelemetryState) : Prop :=
  ∀ c : Counter, s.counter c sessionId = some (tr.countP (countedBy c) : Int)

/-- What the counters hold after the operations of a session: a session without an id counts nothing. -/
structure Tally (sessionId : String) (tr : List (telemetrySystem service).Performed)
    (s : TelemetryState) : Prop where
  session : s.sessionId = some sessionId
  stored : ∃ summary, s.summary sessionId = some summary ∧ ∀ c : Counter, c ≠ .hybridDispatches →
    c.read summary = if sessionId = "" then 0 else (tr.countP (returnedBy c) : Int)

theorem Tally.congr {tr : List (telemetrySystem service).Performed} {s' : TelemetryState}
    (h : Tally sessionId tr s) (hsession : s'.sessionId = s.sessionId)
    (hsessions : s'.sessions = s.sessions) : Tally sessionId tr s' := by
  obtain ⟨summary, hsummary, hread⟩ := h.stored
  exact ⟨hsession.trans h.session, summary, (summary_congr hsessions).trans hsummary, hread⟩

theorem Tally.uncounted {tr : List (telemetrySystem service).Performed}
    {e : (telemetrySystem service).Performed} (h : Tally sessionId tr s)
    (he : ∀ c, returnedBy c e = false) : Tally sessionId (tr ++ [e]) s := by
  obtain ⟨summary, hsummary, hread⟩ := h.stored
  refine ⟨h.session, summary, hsummary, fun c hc => ?_⟩
  rw [hread c hc, List.countP_append, List.countP_singleton, he c]
  simp

theorem Tally.track {tr : List (telemetrySystem service).Performed} {args : TrackArgs}
    {out : Except Exn String} {s' : TelemetryState} (h : Tally sessionId tr s)
    (htracked : Tracked s args out s') :
    Tally sessionId (tr ++ [⟨.track args, s, out, s'⟩]) s' := by
  cases hout : out with
  | error e =>
    have hkept := h.congr htracked.sessionId (htracked.uncounted e hout)
    exact hkept.uncounted fun c => rfl
  | ok id =>
    obtain ⟨event, htype, hattributes, hsessions⟩ := htracked.counted id hout
    rw [h.session, Option.getD_some] at hsessions
    by_cases hid : sessionId = ""
    · rw [if_neg (by simp [hid])] at hsessions
      obtain ⟨summary, hsummary, hread⟩ := (h.congr htracked.sessionId hsessions).stored
      refine ⟨htracked.sessionId.trans h.session, summary, hsummary, fun c hc => ?_⟩
      rw [hread c hc, if_pos hid, if_pos hid]
    · rw [if_pos hid] at hsessions
      obtain ⟨summary, hsummary, hread⟩ := h.stored
      obtain ⟨summary', hsummary', hread'⟩ := summary_counted hsummary hsessions
      refine ⟨htracked.sessionId.trans h.session, summary', hsummary', fun c hc => ?_⟩
      rw [hread' c hc, hread c hc, if_neg hid, if_neg hid, htype, hattributes, List.countP_append,
        List.countP_singleton]
      unfold returnedBy
      split <;> simp_all

theorem tally_of_performs (henabled : service.enabled = true)
    {tr : List (telemetrySystem service).Performed} (h₁ : @Tally service sessionId [] s₁)
    (h : (telemetrySystem service).Performs s₁ tr s₂) (hops : ∀ e ∈ tr, e.op.WithinSession) :
    Tally sessionId tr s₂ := by
  induction h with
  | nil => exact h₁
  | @snoc tr s s' before op out runs ih =>
    have htally := ih fun e he => hops e (List.mem_append_left _ he)
    have hop : op.WithinSession := hops _ (List.mem_append_right _ (List.mem_singleton_self _))
    cases op with
    | startSession sessionId workspaceId => exact hop.elim
    | endSession reason => exact hop.elim
    | track args => exact htally.track ((leads_track henabled).of_runs runs)
    | flush =>
      have hflush := leads_flush.of_runs runs
      exact (htally.congr hflush.sessionId hflush.sessions).uncounted fun c => rfl

theorem started_uncounted (c : Counter) {event : TelemetryEvent}
    (h : event.eventType = EventType.SESSION_START ∨ event.eventType = EventType.SESSION_END) :
    c.counts event.eventType event.attributes = false := by
  obtain h | h := h
  · rw [h]
    cases c <;> rfl
  · rw [h]
    cases c <;> rfl

theorem Tracked.uncounted_sessions {args : TrackArgs} {out : Except Exn String} {s' : TelemetryState}
    (h : Tracked s args out s')
    (hargs : args.eventType = EventType.SESSION_START ∨ args.eventType = EventType.SESSION_END) :
    s'.sessions = s.sessions := by
  cases hout : out with
  | error e => exact h.uncounted e hout
  | ok id =>
    obtain ⟨event, htype, -, hsessions⟩ := h.counted id hout
    split at hsessions
    · rw [hsessions]
      unfold TelemetryState.counted
      cases hsummary : s.summary (s.sessionId.getD "") with
      | none => rfl
      | some summary =>
        have hupdate := update_updated summary event
        cases hresult : summary.updated event with
        | none => simp [hresult]
        | some updated =>
          rw [hresult] at hupdate
          cases hupdate with
          | raised d hd =>
            rw [started_uncounted d (htype ▸ hargs)] at hd
            cases hd
    · exact hsessions

theorem tally_startSession (henabled : service.enabled = true) {workspaceId : Option String}
    (h : (service.startSession sessionId workspaceId).Runs TelemetryState.step s (.ok ()) s₁) :
    @Tally service sessionId [] s₁ := by
  have hleads : Leads (service.startSession sessionId workspaceId) s fun out s' =>
      out = .ok () → @Tally service sessionId [] s' := by
    unfold TelemetryService.startSession saveSessionSummary
    rw [if_neg (by simp [henabled])]
    apply leads_timeMs
    intro now
    rw [leads_setSession, leads_replaceSession]
    constructor
    · apply (leads_track henabled).bind
      · intro id s' htracked _
        refine ⟨htracked.sessionId, _, summary_of_replaceSession rfl
          (htracked.uncounted_sessions (.inl rfl)), fun c hc => ?_⟩
        rw [read_dropped hc]
        cases c <;> simp [Counter.read]
      · intro e s' _ hout
        cases hout
    · intro e hout
      cases hout
  exact hleads.of_runs h rfl

theorem counter_congr {c : Counter} {s' : TelemetryState} (h : s'.sessions = s.sessions) :
    s'.counter c sessionId = s.counter c sessionId :=
  congrArg (Option.map c.read) (summary_congr h)

theorem leads_updateEnded_counter {reason : String} {now durationMs : Int} :
    Leads (TelemetryService.updateEnded sessionId reason now durationMs) s fun _ s' =>
      ∀ c : Counter, s'.counter c sessionId = s.counter c sessionId := by
  unfold TelemetryService.updateEnded getSessionSummary saveSessionSummary
  simp only [Program.bind_assoc]
  rw [leads_selectSession]
  refine ⟨?_, fun e c => rfl⟩
  cases hrow : selectSession sessionId s.sessions with
  | none => exact fun c => rfl
  | some row =>
    simp only [Program.pure_eq, Program.ret_bind, Option.map_some]
    rw [← leads_bind_return, leads_replaceSession]
    refine ⟨fun c => ?_, fun e c => rfl⟩
    have hsummary : s.summary sessionId = some row.toSession := by
      unfold TelemetryState.summary
      rw [hrow]
      rfl
    have hended : (TelemetryService.ended row.toSession reason now durationMs).sessionId = sessionId :=
      (sessionId_of_summary hsummary).1
    unfold TelemetryState.counter
    rw [hsummary, summary_of_replaceSession hended rfl]
    cases c <;> rfl

/-- Ending the session changes no counter of it, also where it raises. -/
theorem counter_endSession (henabled : service.enabled = true) (hsession : s.sessionId = some sessionId)
    {reason : String} {out : Except Exn Unit} {s' : TelemetryState}
    (h : (service.endSession reason).Runs TelemetryState.step s out s') (c : Counter) :
    s'.counter c sessionId = s.counter c sessionId := by
  have hleads : Leads (service.endSession reason) s fun _ s' =>
      s'.counter c sessionId = s.counter c sessionId := by
    unfold TelemetryService.endSession
    rw [if_neg (by simp [henabled]), leads_session]
    dsimp only
    split
    · rfl
    · next other hother =>
      have hid : other = sessionId := by
        rw [hsession] at hother
        simpa using (Option.filter_eq_some_iff.mp hother).1.symm
      apply leads_timeMs
      intro now
      apply (leads_track henabled).bind
      · intro id s₁ htracked
        have hsame₁ := htracked.uncounted_sessions (.inr rfl)
        apply leads_flush.bind
        · intro _ s₂ hflush
          have hsame₂ := hflush.sessions.trans hsame₁
          apply leads_updateEnded_counter.bind
          · intro _ s₃ hcounter
            rw [← leads_bind_return, leads_setSession, leads_return]
            rw [hid] at hcounter
            exact (hcounter c).trans (counter_congr hsame₂)
          · intro e s₃ hcounter
            rw [hid] at hcounter
            exact (hcounter c).trans (counter_congr hsame₂)
        · intro e s₂ hflush
          exact counter_congr (hflush.sessions.trans hsame₁)
      · intro e s₁ htracked
        exact counter_congr (htracked.uncounted_sessions (.inr rfl))
  exact hleads.of_runs h

/-- The calls that `track` makes, the creation of the event among them. -/
def TrackCalls (args : TrackArgs) : TelemetryCall → Prop
  | .create _ args' => args' = args
  | .timeMs => False
  | _ => True

theorem flush_relays : TelemetryService.flush.Relays := by
  refine .bind (Program.relays_perform (σ := telemetrySignature) _) fun buffer => ?_
  split_ifs with hempty
  · trivial
  refine .bind ?_ fun _ => Program.relays_perform (σ := telemetrySignature) _
  rw [saveBatch, if_neg hempty]
  exact Program.relays_perform (σ := telemetrySignature) _

theorem updateSessionSummary_relays (event : TelemetryEvent) :
    (TelemetryService.updateSessionSummary event).Relays := by
  refine .bind (Program.relays_perform (σ := telemetrySignature) _) fun session => ?_
  obtain ⟨_ | sessionId, start⟩ := session
  · trivial
  refine .bind (.bind (Program.relays_perform (σ := telemetrySignature) _) fun _ => trivial)
    fun summary => ?_
  obtain _ | summary := summary
  · trivial
  cases hupdated : summary.updated event with
  | none => simp [hupdated]
  | some updated =>
    simp only [hupdated]
    exact Program.relays_perform (σ := telemetrySignature) _

theorem track_relays (henabled : service.enabled = true) (args : TrackArgs) :
    (service.track args).Relays := by
  unfold TelemetryService.track
  rw [if_neg (by simp [henabled])]
  refine .bind (Program.relays_perform (σ := telemetrySignature) _) fun session => ?_
  refine .bind (Program.relays_perform (σ := telemetrySignature) _) fun event => ?_
  refine .bind (Program.relays_perform (σ := telemetrySignature) _) fun _ => ?_
  refine .bind (Program.relays_perform (σ := telemetrySignature) _) fun buffer => ?_
  refine .bind ?_ fun _ => .bind ?_ fun _ => trivial
  · split_ifs
    · exact flush_relays
    · trivial
  · split_ifs
    · exact updateSessionSummary_relays event
    · trivial

theorem track_calls (henabled : service.enabled = true) (args : TrackArgs) :
    (service.track args).OnlyCalls (TrackCalls args) := by
  unfold TelemetryService.track
  rw [if_neg (by simp [henabled])]
  refine .bind (.perform trivial) fun session => .bind (.perform rfl) fun event => ?_
  refine .bind (.perform trivial) fun _ => .bind (.perform trivial) fun buffer => ?_
  refine .bind ?_ fun _ => .bind ?_ fun _ => trivial
  · split_ifs
    · refine .bind (.perform trivial) fun buffer => ?_
      split_ifs with hempty
      · trivial
      refine .bind ?_ fun _ => .perform trivial
      rw [saveBatch, if_neg hempty]
      exact .perform trivial
    · trivial
  · split_ifs
    · refine .bind (.perform trivial) fun session => ?_
      obtain ⟨_ | sessionId, start⟩ := session
      · trivial
      refine .bind (.bind (.perform trivial) fun _ => trivial) fun summary => ?_
      obtain _ | summary := summary
      · trivial
      cases hupdated : summary.updated event with
      | none => simp [hupdated]
      | some updated =>
        simp only [hupdated]
        exact .perform trivial
    · trivial

/-- With a known category `track` returns exactly where the database serves its statements. -/
theorem track_served_iff (henabled : service.enabled = true) {args : TrackArgs}
    {category : EventCategory} (hcategory : EventCategory.ofValue args.eventCategory = .ok category)
    {out : Except Exn String} {s' : TelemetryState}
    (h : (service.track args).Runs TelemetryState.step s out s') :
    (service.track args).Runs TelemetryState.serve s out s' ↔ ∃ id, out = .ok id := by
  constructor
  · intro hserved
    refine (track_relays henabled args).runs_returns (track_calls henabled args) ?_ hserved
    intro c e t t' hc hserve
    cases c with
    | timeMs => exact hc
    | create sessionId args' =>
      obtain ⟨nowMs, uuid, -, hmatch⟩ := hserve
      cases hcreate : TelemetryEvent.create nowMs uuid sessionId args' with
      | ok event =>
        rw [hcreate] at hmatch
        cases hmatch.1
      | error e' =>
        have hinvalid := create_eq_error hcreate
        rw [show args' = args from hc, hcategory] at hinvalid
        cases hinvalid
    | buffer => cases hserve.2
    | session => cases hserve.2
    | selectSession sessionId => cases hserve.2
    | _ => cases hserve.1
  · rintro ⟨id, rfl⟩
    refine (track_relays henabled args).runs_ok (fun c v t t' hstep => ?_) h
    rcases hstep with hserve | ⟨-, -, e, he⟩
    · exact hserve
    · cases he

/-- No hybrid dispatch is tracked, the database serves every statement of the call that tracks an event
with a counter, and where the session has no id nothing that is counted is tracked. -/
def OnlyColumns (sessionId : String) (tr : List (telemetrySystem service).Performed) : Prop :=
  ∀ e ∈ tr, ∀ c, countedBy c e = true →
    c ≠ .hybridDispatches ∧ sessionId ≠ "" ∧
      (e.op.program service).Runs TelemetryState.serve e.before e.out e.after

theorem countP_eq_imp {α : Type} {p q : α → Bool} {l : List α}
    (hpq : ∀ x ∈ l, p x = true → q x = true) (h : l.countP p = l.countP q) :
    ∀ x ∈ l, q x = true → p x = true := by
  have hfilter : (l.filter q).countP p = (l.filter q).length := by
    rw [List.countP_filter, ← List.countP_eq_length_filter, ← h]
    refine List.countP_congr fun x hx => ?_
    rw [Bool.and_eq_true]
    exact and_iff_left_of_imp (hpq x hx)
  intro x hx hq
  exact List.countP_eq_length.mp hfilter x (List.mem_filter.mpr ⟨hx, hq⟩)

theorem returnedBy_iff (henabled : service.enabled = true) {e : (telemetrySystem service).Performed}
    (h : (e.op.program service).Runs TelemetryState.step e.before e.out e.after) (c : Counter) :
    returnedBy c e = true ↔ countedBy c e = true ∧
      (e.op.program service).Runs TelemetryState.serve e.before e.out e.after := by
  obtain ⟨op, before, out, after⟩ := e
  cases op with
  | track args =>
    have htracked : Tracked before args out after := (leads_track henabled).of_runs h
    cases hcategory : EventCategory.ofValue args.eventCategory with
    | error e =>
      cases out with
      | error e' => simp [returnedBy, countedBy, hcategory, Except.isOk, Except.toBool]
      | ok id =>
        obtain ⟨category, hvalid⟩ := htracked.category id rfl
        rw [hcategory] at hvalid
        cases hvalid
    | ok category =>
      have hserved := track_served_iff henabled hcategory h
      refine Iff.trans ?_ (and_congr_right fun _ => hserved).symm
      cases out with
      | error e => simp [returnedBy]
      | ok id =>
        simp only [returnedBy, countedBy, hcategory, Except.isOk, Except.toBool, Bool.true_and]
        exact (and_iff_left ⟨id, rfl⟩).symm
  | _ => simp [returnedBy, countedBy]

/-- From the start of a session on, every counter of the stored summary is the number of the tracked
events that it counts exactly as long as no hybrid dispatch is tracked, the session has an id or nothing
to count, and no statement fails where an event with a counter is tracked. Ending the session leaves
every counter as it is. -/
theorem counts_events_iff (henabled : service.enabled = true) {workspaceId : Option String}
    (hstart : (service.startSession sessionId workspaceId).Runs TelemetryState.step s₀ (.ok ()) s₁)
    {tr : List (telemetrySystem service).Performed} (h : (telemetrySystem service).Performs s₁ tr s₂)
    (hops : ∀ e ∈ tr, e.op.WithinSession) :
    (CountsEvents sessionId tr s₂ ↔ OnlyColumns sessionId tr) ∧
      ∀ reason out s', (service.endSession reason).Runs TelemetryState.step s₂ out s' →
        ∀ c : Counter, s'.counter c sessionId = s₂.counter c sessionId := by
  have htally := tally_of_performs henabled (tally_startSession henabled hstart) h hops
  refine ⟨?_, fun reason out s' hend c => counter_endSession henabled htally.session hend c⟩
  obtain ⟨summary, hsummary, hread⟩ := htally.stored
  have hcounter : ∀ c : Counter, s₂.counter c sessionId = some (c.read summary) := by
    intro c
    unfold TelemetryState.counter
    rw [hsummary]
    rfl
  have hhybrid : Counter.hybridDispatches.read summary = 0 := (sessionId_of_summary hsummary).2
  have hreturned : ∀ e ∈ tr, ∀ c, returnedBy c e = true ↔ countedBy c e = true ∧
      (e.op.program service).Runs TelemetryState.serve e.before e.out e.after := by
    intro e he c
    exact returnedBy_iff henabled (h.of_mem (I := fun _ => True) trivial (fun _ _ _ _ _ _ => trivial) he).2 c
  have hnone : ∀ c : Counter, (∀ e ∈ tr, ¬ countedBy c e = true) → (tr.countP (countedBy c) : Int) = 0 :=
    fun c hc => by rw [List.countP_eq_zero.mpr hc]; rfl
  constructor
  · intro hcounts e he c hc
    have hsame : c.read summary = tr.countP (countedBy c) := by
      have := (hcounter c).symm.trans (hcounts c)
      rwa [Option.some.injEq] at this
    have hcounted : c.read summary ≠ 0 := by
      rw [hsame, Ne, Int.natCast_eq_zero, List.countP_eq_zero]
      exact fun hall => hall e he hc
    have hcolumn : c ≠ .hybridDispatches := fun heq => hcounted (heq ▸ hhybrid)
    rw [hread c hcolumn] at hsame hcounted
    have hid : sessionId ≠ "" := fun hid => hcounted (if_pos hid)
    rw [if_neg hid] at hsame
    have hall := countP_eq_imp (fun e he hr => ((hreturned e he c).mp hr).1) (Int.ofNat.inj hsame)
    exact ⟨hcolumn, hid, ((hreturned e he c).mp (hall e he hc)).2⟩
  · intro honly c
    rw [hcounter c]
    by_cases hc : c = .hybridDispatches
    · rw [hc, hhybrid, hnone _ fun e he h => (honly e he _ h).1 rfl]
    rw [hread c hc]
    by_cases hid : sessionId = ""
    · rw [if_pos hid, hnone c fun e he h => (honly e he c h).2.1 hid]
    rw [if_neg hid]
    have hcongr : ∀ e ∈ tr, returnedBy c e = true ↔ countedBy c e = true := by
      intro e he
      rw [hreturned e he c]
      exact and_iff_left_of_imp fun hcounted => (honly e he c hcounted).2.2
    rw [List.countP_congr hcongr]

end Session

section Example

def laptopService : TelemetryService where
  platform := "linux"
  pythonVersion := "3.12"
  forkAgentVersion := "1.0"

def sessionEvent (id eventType eventCategory : String) (attributes : JsonObject) : TelemetryEvent where
  id := id
  eventType := eventType
  eventCategory := eventCategory
  timestamp := 5
  receivedAt := 5
  attributes := attributes
  sessionId := some "s1"
  expiresAt := some 2592000005

def startEvent : TelemetryEvent :=
  { sessionEvent "e0" EventType.SESSION_START "session"
      [("workspace_id", .null), ("platform", .str "linux"), ("python_version", .str "3.12"),
        ("fork_agent_version", .str "1.0")] with
    expiresAt := some 7776000005 }

def startedSummary : SessionSummary where
  sessionId := "s1"
  startedAt := some 5
  platform := some "linux"
  pythonVersion := some "3.12"
  forkAgentVersion := some "1.0"

/-- The service within a session, with these events in its buffer. -/
def inSession (events : List TelemetryEvent) (summary : SessionSummary) : TelemetryState where
  buffer := events
  sessionId := some "s1"
  sessionStart := some 5
  sessions := [summary.toRow]
  created := events

theorem runs_started : (laptopService.startSession "s1" none).Runs TelemetryState.step {} (.ok ())
    (inSession [startEvent] startedSummary) := runs_of_exec "e0" false rfl

def stoppedAgent : TrackArgs :=
  { eventType := EventType.AGENT_STOP, eventCategory := "agent", attributes := [("status", .str "failed")] }

def stoppedEvent : TelemetryEvent :=
  sessionEvent "e1" EventType.AGENT_STOP "agent" [("status", .str "failed")]

def afterStopped : TelemetryState :=
  inSession [startEvent, stoppedEvent] { startedSummary with agentsFailed := 1 }

def stopped : List (telemetrySystem laptopService).Performed :=
  [⟨.track stoppedAgent, inSession [startEvent] startedSummary, .ok "e1", afterStopped⟩]

/-- A failed agent is counted as such, and still is once the session has ended. -/
theorem counts_events_iff_stopped :
    CountsEvents "s1" stopped afterStopped ∧
      ∀ reason out s', (laptopService.endSession reason).Runs TelemetryState.step afterStopped out s' →
        s'.counter .agentsFailed "s1" = some 1 := by
  have hserved : (laptopService.track stoppedAgent).Runs TelemetryState.step
      (inSession [startEvent] startedSummary) (.ok "e1") afterStopped := runs_of_exec "e1" false rfl
  have hstopped : (telemetrySystem laptopService).Performs (inSession [startEvent] startedSummary) _
      afterStopped :=
    System.Performs.nil.snoc (TelemetryOp.track stoppedAgent) (runs_of_exec "e1" false rfl)
  have hwithin : ∀ e ∈ stopped, e.op.WithinSession := by
    intro e he
    rw [List.mem_singleton.mp he]
    trivial
  have hcolumns : OnlyColumns "s1" stopped := by
    intro e he c hc
    rw [List.mem_singleton.mp he] at hc ⊢
    refine ⟨?_, by decide, (track_served_iff rfl rfl hserved).mpr ⟨"e1", rfl⟩⟩
    rintro rfl
    revert hc
    decide
  obtain ⟨hiff, hended⟩ := counts_events_iff rfl runs_started hstopped hwithin
  have hcounts := hiff.mpr hcolumns
  refine ⟨hcounts, fun reason out s' hend => ?_⟩
  rw [hended reason out s' hend, hcounts .agentsFailed]
  rfl

def dispatched : TrackArgs :=
  { eventType := EventType.CLI_HYBRID_DISPATCH, eventCategory := "cli", attributes := [("mode", .str "mcp")] }

def dispatchedEvent : TelemetryEvent :=
  sessionEvent "e1" EventType.CLI_HYBRID_DISPATCH "cli" [("mode", .str "mcp")]

/-- A hybrid dispatch is tracked, and the stored summary says that there was none. -/
theorem hybrid_dispatch_uncounted :
    ¬ ∀ (service : TelemetryService) (sessionId : String) (workspaceId : Option String)
      (s₀ s₁ s₂ : TelemetryState) (tr : List (telemetrySystem service).Performed),
      service.enabled = true →
        (service.startSession sessionId workspaceId).Runs TelemetryState.step s₀ (.ok ()) s₁ →
          (telemetrySystem service).Performs s₁ tr s₂ → (∀ e ∈ tr, e.op.WithinSession) →
            CountsEvents sessionId tr s₂ := by
  intro h
  have hdispatched : (telemetrySystem laptopService).Performs (inSession [startEvent] startedSummary) _
      (inSession [startEvent, dispatchedEvent] startedSummary) :=
    System.Performs.nil.snoc (TelemetryOp.track dispatched) (runs_of_exec "e1" false rfl)
  have hwithin : ∀ e ∈ ([⟨.track dispatched, inSession [startEvent] startedSummary, .ok "e1",
      inSession [startEvent, dispatchedEvent] startedSummary⟩] :
        List (telemetrySystem laptopService).Performed), e.op.WithinSession := by
    intro e he
    rw [List.mem_singleton.mp he]
    trivial
  have hcounts := h _ _ _ _ _ _ _ rfl runs_started hdispatched hwithin .hybridDispatches
  revert hcounts
  decide

end Example

end ForkAgent.Telemetry

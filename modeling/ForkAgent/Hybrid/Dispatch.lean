import ForkAgent.Effects.Sequence
import ForkAgent.Hybrid.Server
import ForkAgent.Memory.Changes
import ForkAgent.Memory.Events
import ForkAgent.Memory.Served

/-!
# Dispatched writes

A command that writes goes to the server, and to the service of the client if there is no server or if
whatever follows the request raises. A request whose answer is lost or cannot be read may have been carried
out all the same, and a save is then made twice. An update never is: the tool and the service give the id of
the observation different names, and each of them refuses the other's.
-/

namespace ForkAgent.Hybrid

open Effects Storage Memory Sync

section Commands

variable (d : Dispatcher)

/-- `result["id"]`. -/
def resultId : Json → Except Exn Json
  | .obj fields => JsonObject.item fields "id"
  | .arr _ => .error (.typeError "list indices must be integers or slices, not str")
  | .str _ => .error (.typeError "string indices must be integers, not 'str'")
  | j => .error (.typeError s!"'{j.typeName}' object is not subscriptable")

/-- `get_by_id` of what an answer holds as an id. An id that is not a string is looked for as the text that
the database binds it as, or cannot be bound. -/
def getByResultId (bindText : Json → Except Exn String) : Json → MemoryProgram Observation
  | .str id => ObservationRepository.getById id
  | j => do
    let id ← .ofExcept (bindText j)
    ObservationRepository.getById id

/-- `_to_observation(result) or self._service.get_by_id(result["id"])`. -/
def readSaved (bindText : Json → Except Exn String) (result : Json) : HybridProgram Observation := do
  let read ← .ofExcept (toObservation result)
  match read with
  | some o => return o
  | none =>
    let id ← .ofExcept (resultId result)
    onService (getByResultId bindText id)

def dispatchSave (bindText : Json → Except Exn String) (args : SaveArgs) :
    HybridProgram (Observation × DispatchReceipt) := do
  .ofExcept (Dispatcher.validateContent args.content)
  d.dispatch "save" (d.remotely "save" "memory_save" (saveArguments args) (readSaved bindText))
    (d.service.save args)

/-- `self._service.update(**kwargs)`. -/
def updateWith (svc : MemoryService) (kwargs : UpdateKwargs) : MemoryProgram Observation :=
  match kwargs.id, kwargs.observationId with
  | some _, _ => throw (.typeError "MemoryService.update() got an unexpected keyword argument 'id'")
  | none, none =>
    throw (.typeError "MemoryService.update() missing 1 required positional argument: 'observation_id'")
  | none, some observationId => svc.update observationId kwargs.args

/-- `_to_observation(result) or self._service.update(**kwargs)`. -/
def readUpdated (kwargs : UpdateKwargs) (result : Json) : HybridProgram Observation := do
  let read ← .ofExcept (toObservation result)
  match read with
  | some o => return o
  | none => onService (updateWith d.service kwargs)

def dispatchUpdate (kwargs : UpdateKwargs) : HybridProgram (Observation × DispatchReceipt) :=
  d.dispatch "update" (d.remotely "update" "memory_update" (updateArguments kwargs) (readUpdated d kwargs))
    (updateWith d.service kwargs)

end Commands

section Service

variable {y : Semantics syncSignature Exn SyncStore} {svc : MemoryService} {s s' : Store}

/-- The observations of a store, whatever becomes of the journal. -/
abbrev observationsOnly (y : Semantics syncSignature Exn SyncStore) : Semantics storeSignature Exn Store :=
  Store.both MemoryStore.step y

def storedIds (s : Store) : List String := s.1.observations.rows.map (·.id)

/-- The second store has the observations of the first, and at most so many more. -/
def Adds (most : Nat) (s s' : Store) : Prop :=
  ∃ new, storedIds s' = storedIds s ++ new ∧ new.length ≤ most

theorem adds_of_same {most : Nat} (h : s'.1 = s.1) : Adds most s s' :=
  ⟨[], by rw [storedIds, h, List.append_nil]; rfl, Nat.zero_le _⟩

theorem Adds.trans {m n : Nat} {t : Store} (h : Adds m s t) (h' : Adds n t s') : Adds (m + n) s s' := by
  obtain ⟨new, hids, hlen⟩ := h
  obtain ⟨more, hids', hlen'⟩ := h'
  refine ⟨new ++ more, ?_, ?_⟩
  · rw [hids', hids, List.append_assoc]
  · rw [List.length_append]
    omega

theorem Adds.mono {m n : Nat} (h : Adds m s s') (hle : m ≤ n) : Adds n s s' := by
  obtain ⟨new, hids, hlen⟩ := h
  exact ⟨new, hids, hlen.trans hle⟩

theorem read_statement_rows {α : Type} {f : Exn → Exn} {c : MemoryCall} (hc : isRead c = true)
    {k : c.Value → MemoryProgram α} {out : Except Exn α}
    (h : (raising f (memoryCall c) >>= k).Runs (observationsOnly y) s out s') :
    s'.1 = s.1 ∨ ∃ v t, t.1 = s.1 ∧ (k v).Runs (observationsOnly y) t out s' := by
  obtain ⟨e, hstep, -, -⟩ | ⟨v, t, hstep, hrest⟩ := statement_bind_runs.mp h
  · exact .inl (step_error hstep)
  · exact .inr ⟨v, (t, s.2), step_read hc hstep, hrest⟩

theorem getById_same {id : String} {out : Except Exn Observation}
    (h : (ObservationRepository.getById id).Runs (observationsOnly y) s out s') : s'.1 = s.1 := by
  obtain hsame | ⟨row, t, ht, hrest⟩ := read_statement_rows rfl h
  · exact hsame
  · cases row with
    | none => rw [hrest.2, ht]
    | some row => rw [(Program.runs_ofExcept.mp hrest).2, ht]

theorem getById_ok {id : String} {o : Observation}
    (h : (ObservationRepository.getById id).Runs (observationsOnly y) s (.ok o) s') :
    ∃ row ∈ s.1.observations.rows, row.id = id ∧ rowToObservation row = .ok o := by
  obtain ⟨e, -, -, hout⟩ | ⟨found, t, hstep, hrest⟩ := statement_bind_runs.mp h
  · cases hout
  obtain ⟨-, hfound⟩ := serve_of_ok hstep
  cases found with
  | none => cases hrest.1
  | some row =>
    have hfind : s.1.observations.rows.find? (fun row => row.id == id) = some row :=
      (Except.ok.inj hfound).symm
    exact ⟨row, List.mem_of_find?_eq_some hfind, by simpa using List.find?_some hfind,
      (Program.runs_ofExcept.mp hrest).1.symm⟩

theorem rowToObservation_revisionCount {row : ObservationRow} {o : Observation}
    (h : rowToObservation row = .ok o) :
    o.val.revisionCount = if row.revisionCount = 0 then 1 else row.revisionCount := by
  have hread := (observation_eq_ok.mp h).revisionCount
  exact (Except.ok.inj hread).symm

theorem existingForTopic_same {args : SaveArgs} {out : Except Exn (Option Observation)}
    (h : (svc.existingForTopic args).Runs (observationsOnly y) s out s') : s'.1 = s.1 := by
  unfold MemoryService.existingForTopic at h
  cases hkey : args.topicKey.filter (· ≠ "") with
  | none =>
    rw [hkey] at h
    rw [h.2]
  | some key =>
    rw [hkey] at h
    obtain hsame | ⟨row, t, ht, hrest⟩ := read_statement_rows rfl h
    · exact hsame
    · rw [(Program.runs_ofExcept.mp hrest).2, ht]

theorem create_adds {repo : ObservationRepository} {o : Observation} {out : Except Exn Unit}
    (h : (repo.create o).Runs (observationsOnly y) s out s') : Adds 1 s s' := by
  obtain ⟨e, hstep, -, -⟩ | ⟨hstep, -, -⟩ := repo.create_runs.mp h
  · exact adds_of_same (step_error hstep)
  · refine ⟨[o.val.id], ?_, Nat.le_refl 1⟩
    rw [storedIds, (insert_ok hstep).2, List.map_append]
    rfl

theorem upsert_ids {repo : ObservationRepository} {o : Observation} {out : Except Exn Observation}
    (h : (repo.upsertTopicKey o).Runs (observationsOnly y) s out s') : storedIds s' = storedIds s := by
  obtain ⟨e, hrefused, -⟩ | ⟨key, hkey, hne, -⟩ := repo.upsertTopicKey_cases o
  · rw [hrefused] at h
    rw [h.2]
  · obtain ⟨e, hstep, -, -⟩ | ⟨result, hstep, -, -⟩ := (repo.upsertTopicKey_runs hkey hne).mp h
    · rw [storedIds, step_error hstep]
      rfl
    · obtain ⟨old, -, -, -, -, hrows⟩ := upsert_row hstep
      rw [storedIds, hrows, updateWhere, List.map_map]
      refine List.map_congr_left fun row _ => ?_
      by_cases hrow : row.id = old.id
      · simp [hrow, revise_id]
      · simp [hrow]

theorem save_adds {args : SaveArgs} {out : Except Exn Observation}
    (h : (svc.save args).Runs (observationsOnly y) s out s') : Adds 1 s s' := by
  obtain ⟨e, hrun, -⟩ | ⟨existing, s₁, hfound, hrest⟩ := Program.runs_bind.mp h
  · exact adds_of_same (existingForTopic_same hrun)
  have hs₁ := existingForTopic_same hfound
  obtain ⟨e, hrun, -⟩ | ⟨id, s₂, hid, hrest⟩ := Program.runs_bind.mp hrest
  · exact adds_of_same ((step_read rfl (memoryCall_runs.mp hrun).1).trans hs₁)
  have hs₂ := (step_read rfl (memoryCall_runs.mp hid).1).trans hs₁
  obtain ⟨e, hrun, -⟩ | ⟨now, s₃, hnow, hrest⟩ := Program.runs_bind.mp hrest
  · exact adds_of_same ((step_read rfl (memoryCall_runs.mp hrun).1).trans hs₂)
  have hs₃ := (step_read rfl (memoryCall_runs.mp hnow).1).trans hs₂
  have hids : storedIds s₃ = storedIds s := by rw [storedIds, hs₃, storedIds]
  obtain ⟨e, hrun, -⟩ | ⟨o, s₄, ho, hwritten⟩ := Program.runs_bind.mp hrest
  · rw [(Program.runs_ofExcept.mp hrun).2]
    exact adds_of_same hs₃
  rw [(Program.runs_ofExcept.mp ho).2] at hwritten
  cases existing with
  | some found => exact ⟨[], by rw [upsert_ids hwritten, hids, List.append_nil], Nat.zero_le 1⟩
  | none =>
    have hcreated : Adds 1 s₃ s' := by
      obtain ⟨e, hrun, -⟩ | ⟨_, s₅, hrun, hret⟩ := Program.runs_bind.mp hwritten
      · exact create_adds hrun
      · rw [hret.2]
        exact create_adds hrun
    exact (adds_of_same hs₃ : Adds 0 _ _).trans hcreated

/-- One row is written anew, under the id it had and with the next revision. -/
def Revises (id : String) (rows rows' : List ObservationRow) : Prop :=
  ∃ old ∈ rows, ∃ new : ObservationRow, old.id = id ∧ new.id = id ∧
    new.revisionCount = (if old.revisionCount = 0 then 1 else old.revisionCount) + 1 ∧
    rows' = updateWhere (fun r => r.id == id) (fun _ => new) rows

/-- An update that raises has changed nothing. -/
theorem update_revises {id : String} {args : UpdateArgs} {out : Except Exn Observation}
    (h : (svc.update id args).Runs (observationsOnly y) s out s') :
    s'.1 = s.1 ∨ Revises id s.1.observations.rows s'.1.observations.rows ∧ ∃ o, out = .ok o := by
  obtain ⟨e, hrun, -⟩ | ⟨existing, s₁, hread, hrest⟩ := Program.runs_bind.mp h
  · exact .inl (getById_same hrun)
  obtain ⟨e, hrun, -⟩ | ⟨o, s₂, ho, hwritten⟩ := Program.runs_bind.mp hrest
  · rw [(Program.runs_ofExcept.mp hrun).2]
    exact .inl (getById_same hread)
  rw [(Program.runs_ofExcept.mp ho).2] at hwritten
  have hs₁ := getById_same hread
  have hval : o.val = svc.updated args existing.val :=
    construct_eq_ok.mp (Program.runs_ofExcept.mp ho).1.symm
  obtain ⟨e, hrun, -⟩ | ⟨_, s₃, hrun, hout, rfl⟩ := Program.runs_bind.mp hwritten
  · obtain ⟨e', hstep, -, -⟩ | ⟨hstep, -, -⟩ | ⟨-, hok, -⟩ := svc.repository.update_runs.mp hrun
    · exact .inl ((step_error hstep).trans hs₁)
    · obtain ⟨hfound, -⟩ | ⟨-, hsame, -⟩ := update_ok hstep
      · cases hfound
      · exact .inl (hsame.trans hs₁)
    · cases hok
  · obtain ⟨e', -, -, hok⟩ | ⟨-, -, hok⟩ | ⟨hstep, -, -⟩ := svc.repository.update_runs.mp hrun
    · cases hok
    · cases hok
    · obtain ⟨row, hrow, hid, hexisting⟩ := getById_ok hread
      obtain ⟨-, old, hold, hsame, hrows⟩ | ⟨hfound, -⟩ := update_ok hstep
      · rw [hs₁] at hold hrows
        have hnew : (svc.repository.row o.val).id = id := by
          rw [← hid, ← rowToObservation_id hexisting, hval]
          rfl
        rw [hnew] at hsame
        rw [hsame] at hrows
        have hrevision : o.val.revisionCount = (if row.revisionCount = 0 then 1 else row.revisionCount) + 1 := by
          rw [hval, ← rowToObservation_revisionCount hexisting]
          rfl
        exact .inr ⟨⟨row, hrow, svc.repository.row o.val, hid, hnew, hrevision, hrows⟩, o, hout⟩
      · cases hfound

end Service

section Requests

variable {svc : MemoryService} {basename : String} {env : Surroundings svc basename}
variable {d : Dispatcher} {s s' : Store} {α : Type}

/-- What a server may have made of the call of a tool. -/
def MayRun (svc : MemoryService) (basename toolName : String) (arguments : JsonObject) (s s' : Store) : Prop :=
  s' = s ∨ ToolRuns svc basename toolName arguments s s'

theorem toolsCallMessage_inj {id id' : Nat} {toolName toolName' : String} {arguments arguments' : JsonObject}
    (h : toolsCallMessage id toolName arguments = toolsCallMessage id' toolName' arguments') :
    toolName = toolName' ∧ arguments = arguments' := by
  simp only [toolsCallMessage, Json.obj.injEq, List.cons.injEq, Prod.mk.injEq, Json.str.injEq, Json.int.injEq] at h
  simpa using h.2.2.2.1

theorem onService_runs {p : MemoryProgram α} {out : Except Exn α} :
    (onService p).Runs env.step s out s' ↔ p.Runs env.own s out s' := by
  refine Program.runs_lift (fun c r s s' => ?_) p
  have hsame : r.map (Equiv.refl (storeSignature.Value c)) = r := by cases r <;> rfl
  show env.own ⟨c, r⟩ s s' ↔ env.own ⟨c, r.map (Equiv.refl (storeSignature.Value c))⟩ s s'
  rw [hsame]

/-- Whatever the database does for the client, it does with the observations what any database may. -/
theorem own_observations {a : Answered storeSignature Exn} (h : env.own a s s') :
    observationsOnly (fun _ _ _ => True) a s s' := by
  obtain ⟨c | c, r⟩ := a
  · obtain hserve | ⟨-, rfl, hfailed⟩ := h
    · exact ⟨.inl hserve.1, hserve.2⟩
    · exact ⟨.inr ⟨rfl, hfailed⟩, rfl⟩
  · obtain hserve | ⟨-, rfl, -⟩ := h
    · exact ⟨trivial, hserve.2⟩
    · exact ⟨trivial, rfl⟩

theorem own_runs {p : MemoryProgram α} {out : Except Exn α} (h : (onService p).Runs env.step s out s') :
    p.Runs (observationsOnly fun _ _ _ => True) s out s' :=
  (onService_runs.mp h).mono fun _ _ _ => own_observations

theorem tool_runs {p : MemoryProgram α} {out : Except Exn α} (h : p.Runs Store.step s out s') :
    p.Runs (observationsOnly fun _ _ _ => True) s out s' := by
  refine h.mono fun a s s' hstep => ?_
  obtain ⟨c | c, r⟩ := a
  · exact hstep
  · exact ⟨trivial, hstep.2⟩

theorem ensureSession_same {client : MCPClient} {out : Except Exn MCPClient}
    (h : (ensureSession client).Runs env.step s out s') : s' = s := by
  unfold ensureSession at h
  cases hsession : client.sessionId with
  | some sessionId =>
    rw [hsession] at h
    exact h.2
  | none =>
    rw [hsession] at h
    -- Neither of the two messages calls a tool.
    have hquiet : ∀ {url session r t t'} {message : Json},
        (∀ id toolName arguments, message ≠ toolsCallMessage id toolName arguments) →
          env.server.answers ⟨url, message, session⟩ t r t' → t' = t := by
      intro url session r t t' message hmessage hanswer
      obtain rfl | ⟨id, toolName, arguments, heq, -⟩ := env.server.applies hanswer
      · rfl
      · exact absurd heq (hmessage id toolName arguments)
    have hstart : ∀ n id toolName arguments, initializeMessage n ≠ toolsCallMessage id toolName arguments := by
      intro n id toolName arguments heq
      simp [initializeMessage, toolsCallMessage] at heq
    have hstarted : ∀ id toolName arguments, initializedMessage ≠ toolsCallMessage id toolName arguments := by
      intro id toolName arguments heq
      simp [initializedMessage, toolsCallMessage] at heq
    obtain ⟨e, hpost, -⟩ | ⟨r, s₁, hpost, hrest⟩ := Program.runs_bind.mp h
    · exact hquiet (hstart _) (Program.runs_perform.mp hpost)
    have hs₁ : s₁ = s := hquiet (hstart _) (Program.runs_perform.mp hpost)
    obtain ⟨e, hraised, -⟩ | ⟨_, s₂, hraised, hrest⟩ := Program.runs_bind.mp hrest
    · exact (Program.runs_ofExcept.mp hraised).2.trans hs₁
    have hs₂ : s₂ = s := (Program.runs_ofExcept.mp hraised).2.trans hs₁
    obtain ⟨e, hpost, -⟩ | ⟨_, s₃, hpost, hret⟩ := Program.runs_bind.mp hrest
    · exact (hquiet hstarted (Program.runs_perform.mp hpost)).trans hs₂
    · exact hret.2.trans ((hquiet hstarted (Program.runs_perform.mp hpost)).trans hs₂)

theorem callToolSync_runs {client : MCPClient} {toolName : String} {arguments : JsonObject}
    {out : Except Exn Json} (h : (callToolSync d.lib client toolName arguments).Runs env.step s out s') :
    MayRun svc basename toolName arguments s s' := by
  obtain ⟨e, hrun, -⟩ | ⟨client', s₁, hsession, hrest⟩ := Program.runs_bind.mp h
  · exact .inl (ensureSession_same hrun)
  rw [ensureSession_same hsession] at hrest
  have happlied : ∀ {r t}, env.server.answers (toolRequest client' toolName arguments) s r t →
      MayRun svc basename toolName arguments s t := by
    intro r t hanswer
    obtain rfl | ⟨id, toolName', arguments', heq, hruns⟩ := env.server.applies hanswer
    · exact .inl rfl
    · obtain ⟨rfl, rfl⟩ := toolsCallMessage_inj heq
      exact .inr hruns
  obtain ⟨e, hpost, -⟩ | ⟨r, s₂, hpost, hread⟩ := Program.runs_bind.mp hrest
  · exact happlied (Program.runs_perform.mp hpost)
  · rw [(Program.runs_ofExcept.mp hread).2]
    exact happlied (Program.runs_perform.mp hpost)

theorem record_runs {receipt : DispatchReceipt} {out : Except Exn Unit}
    (h : (Dispatcher.record receipt).Runs env.step s out s') :
    s' = s ∧ ∀ e, out = .error e → env.receiptRaises e ∧ e.isOSError = false := by
  obtain ⟨_, hwrite, rfl⟩ | ⟨e, s₁, hwrite, hrest⟩ := Program.runs_handle.mp h
  · exact ⟨(Program.runs_perform.mp hwrite).1, fun e he => by cases he⟩
  · obtain ⟨rfl, hraises⟩ := Program.runs_perform.mp hwrite
    cases hos : e.isOSError with
    | true =>
      rw [hos] at hrest
      obtain ⟨rfl, hsame⟩ : out = .ok () ∧ s' = s₁ := hrest
      exact ⟨hsame, fun e' he => by cases he⟩
    | false =>
      rw [hos] at hrest
      obtain ⟨rfl, hsame⟩ : out = .error e ∧ s' = s₁ := hrest
      refine ⟨hsame, fun e' he => ?_⟩
      cases he
      exact ⟨hraises e rfl, hos⟩

theorem getMcpClient_same {out : Except Exn (Option (MCPClient × Int))}
    (h : d.getMcpClient.Runs env.step s out s') : s' = s := by
  unfold Dispatcher.getMcpClient at h
  cases hdisabled : d.disabled with
  | true =>
    rw [hdisabled] at h
    exact h.2
  | false =>
    rw [hdisabled] at h
    obtain ⟨e, hrun, -⟩ | ⟨info, s₁, hrun, hrest⟩ := Program.runs_bind.mp h
    · exact Program.runs_perform.mp hrun
    have hs₁ : s₁ = s := Program.runs_perform.mp hrun
    cases info with
    | some info => exact hrest.2.trans hs₁
    | none =>
      cases hrequired : d.required with
      | true =>
        rw [hrequired] at hrest
        exact hrest.2.trans hs₁
      | false =>
        rw [hrequired] at hrest
        exact hrest.2.trans hs₁

end Requests

section Dispatches

variable {svc : MemoryService} {basename : String} {env : Surroundings svc basename}
variable {d : Dispatcher} {s s' : Store} {α : Type} {command : String}

/-- The mode that the receipt of a call without a server has, or of one that fell back. -/
def directMode (fellBack : Bool) : DispatchMode := if fellBack then .fallback else .direct

theorem directly_runs {fellBack : Bool} {call : MemoryProgram α} {out : Except Exn (α × DispatchReceipt)}
    (h : (Dispatcher.directly command fellBack call).Runs env.step s out s') :
    (∃ e, call.Runs (observationsOnly fun _ _ _ => True) s (.error e) s' ∧ out = .error e) ∨
      ∃ a, call.Runs (observationsOnly fun _ _ _ => True) s (.ok a) s' ∧
        ∀ v, out = .ok v → v.2.mode = directMode fellBack := by
  obtain ⟨e, hrun, rfl⟩ | ⟨a, s₁, hrun, hrest⟩ := Program.runs_bind.mp h
  · exact .inl ⟨e, own_runs hrun, rfl⟩
  · have hrun := own_runs hrun
    obtain ⟨e, hrecord, rfl⟩ | ⟨_, s₂, hrecord, rfl, rfl⟩ := Program.runs_bind.mp hrest
    · rw [← (record_runs hrecord).1] at hrun
      exact .inr ⟨a, hrun, fun v hv => by cases hv⟩
    · rw [← (record_runs hrecord).1] at hrun
      refine .inr ⟨a, hrun, fun v hv => ?_⟩
      cases hv
      cases fellBack <;> rfl

/-- What follows a request: reading what comes back may run more of the service of the client, and only a
receipt that cannot be written makes a call that was read raise. -/
theorem remotely_runs {toolName : String} {arguments : JsonObject} {read : Json → HybridProgram α}
    {client : MCPClient} {pid : Int} {out : Except Exn (α × DispatchReceipt)}
    (h : (d.remotely command toolName arguments read client pid).Runs env.step s out s') :
    ∃ t, MayRun svc basename toolName arguments s t ∧
      ((∃ e, s' = t ∧ out = .error e) ∨
        (∃ result e, (read result).Runs env.step t (.error e) s' ∧ out = .error e) ∨
        ∃ result a, (read result).Runs env.step t (.ok a) s' ∧
          (∀ v, out = .ok v → v.2.mode = .mcpClient) ∧
            ∀ e, out = .error e → env.receiptRaises e ∧ e.isOSError = false) := by
  obtain ⟨e, hrun, rfl⟩ | ⟨result, t, hcall, hrest⟩ := Program.runs_bind.mp h
  · exact ⟨s', callToolSync_runs hrun, .inl ⟨e, rfl, rfl⟩⟩
  refine ⟨t, callToolSync_runs hcall, .inr ?_⟩
  obtain ⟨e, hread, rfl⟩ | ⟨a, s₁, hread, hrest⟩ := Program.runs_bind.mp hrest
  · exact .inl ⟨result, e, hread, rfl⟩
  right
  obtain ⟨e, hrecord, rfl⟩ | ⟨_, s₂, hrecord, rfl, rfl⟩ := Program.runs_bind.mp hrest
  · obtain ⟨rfl, hraised⟩ := record_runs hrecord
    refine ⟨result, a, hread, fun v hv => (by cases hv), fun e' he => ?_⟩
    cases he
    exact hraised e rfl
  · obtain ⟨rfl, -⟩ := record_runs hrecord
    refine ⟨result, a, hread, fun v hv => ?_, fun e he => by cases he⟩
    cases hv
    rfl

/-- The three ways of a dispatch: without a server, with one, and with one first and without it then. -/
theorem dispatch_runs {remote : MCPClient → Int → HybridProgram (α × DispatchReceipt)}
    {direct : MemoryProgram α} {out : Except Exn (α × DispatchReceipt)}
    (h : (d.dispatch command remote direct).Runs env.step s out s') :
    (s' = s ∧ ∃ e, out = .error e) ∨
      (Dispatcher.directly command false direct).Runs env.step s out s' ∨
      ∃ client pid, (∃ v, (remote client pid).Runs env.step s (.ok v) s' ∧ out = .ok v) ∨
        ∃ e t, (remote client pid).Runs env.step s (.error e) t ∧
          ((s' = t ∧ ∃ e, out = .error e) ∨
            d.required = false ∧ (Dispatcher.directly command true direct).Runs env.step t out s') := by
  obtain ⟨e, hrun, rfl⟩ | ⟨client, s₁, hclient, hrest⟩ := Program.runs_bind.mp h
  · exact .inl ⟨getMcpClient_same hrun, e, rfl⟩
  rw [getMcpClient_same hclient] at hrest
  right
  cases client with
  | none => exact .inl hrest
  | some found =>
    right
    obtain ⟨client, pid⟩ := found
    refine ⟨client, pid, ?_⟩
    obtain ⟨v, hrun, rfl⟩ | ⟨e, t, hrun, hhandled⟩ := Program.runs_handle.mp hrest
    · exact .inl ⟨v, hrun, rfl⟩
    · refine .inr ⟨e, t, hrun, ?_⟩
      unfold Dispatcher.onMcpError at hhandled
      cases hrequired : d.required with
      | true =>
        rw [hrequired] at hhandled
        exact .inl ⟨hhandled.2, _, hhandled.1⟩
      | false =>
        rw [hrequired] at hhandled
        exact .inr ⟨rfl, hhandled⟩

end Dispatches

section Saves

variable {svc : MemoryService} {basename : String} {env : Surroundings svc basename}
variable {bindText : Json → Except Exn String} {s s' : Store}

/-- The client fell back, or the dispatch raised. -/
def fellBack {α : Type} : Except Exn (α × DispatchReceipt) → Bool
  | .ok v => v.2.mode = .fallback
  | .error _ => true

theorem getByResultId_same {id : Json} {out : Except Exn Observation}
    (h : (onService (getByResultId bindText id)).Runs env.step s out s') : s'.1 = s.1 := by
  have hrun := own_runs h
  have hbound : ∀ {text : Except Exn String},
      (Program.ofExcept text >>= ObservationRepository.getById).Runs (observationsOnly fun _ _ _ => True) s out s' →
        s'.1 = s.1 := by
    intro text hget
    obtain ⟨e, hraised, -⟩ | ⟨key, s₁, htext, hread⟩ := Program.runs_bind.mp hget
    · rw [(Program.runs_ofExcept.mp hraised).2]
    · rw [getById_same hread, (Program.runs_ofExcept.mp htext).2]
  cases id with
  | str id => exact getById_same hrun
  | _ => exact hbound hrun

theorem readSaved_same {result : Json} {out : Except Exn Observation}
    (h : (readSaved bindText result).Runs env.step s out s') : s'.1 = s.1 := by
  obtain ⟨e, hrun, -⟩ | ⟨read, s₁, hread, hrest⟩ := Program.runs_bind.mp h
  · rw [(Program.runs_ofExcept.mp hrun).2]
  rw [(Program.runs_ofExcept.mp hread).2] at hrest
  cases read with
  | some o => rw [hrest.2]
  | none =>
    obtain ⟨e, hrun, -⟩ | ⟨id, s₂, hid, hget⟩ := Program.runs_bind.mp hrest
    · rw [(Program.runs_ofExcept.mp hrun).2]
    · rw [getByResultId_same hget, (Program.runs_ofExcept.mp hid).2]

theorem mayRun_save_adds {arguments : JsonObject} (h : MayRun svc basename "memory_save" arguments s s') :
    Adds 1 s s' := by
  obtain rfl | ⟨-, args, out, -, hrun⟩ | ⟨hname, -⟩ := h
  · exact adds_of_same rfl
  · obtain ⟨e, hraised, -⟩ | ⟨_, s₁, hraised, hrest⟩ := Program.runs_bind.mp hrun
    · rw [(Program.runs_ofExcept.mp hraised).2]
      exact adds_of_same rfl
    rw [(Program.runs_ofExcept.mp hraised).2] at hrest
    obtain ⟨e, hraised, -⟩ | ⟨_, s₂, hraised, hrest⟩ := Program.runs_bind.mp hrest
    · rw [(Program.runs_ofExcept.mp hraised).2]
      exact adds_of_same rfl
    rw [(Program.runs_ofExcept.mp hraised).2] at hrest
    obtain ⟨e, hsave, -⟩ | ⟨o, s₃, hsave, hret⟩ := Program.runs_bind.mp hrest
    · exact save_adds (tool_runs hsave)
    · rw [hret.2]
      exact save_adds (tool_runs hsave)
  · exact absurd hname (by decide)

theorem directly_adds {d : Dispatcher} {command : String} {args : SaveArgs} {retried : Bool}
    {out : Except Exn (Observation × DispatchReceipt)}
    (h : (Dispatcher.directly command retried (d.service.save args)).Runs env.step s out s') : Adds 1 s s' := by
  obtain ⟨e, hrun, -⟩ | ⟨o, hrun, -⟩ := directly_runs h
  · exact save_adds hrun
  · exact save_adds hrun

/-- One dispatch of a save adds one observation at most, or two if its client fell back or it raised. -/
theorem dispatchSave_adds {d : Dispatcher} {args : SaveArgs} {out : Except Exn (Observation × DispatchReceipt)}
    (h : (dispatchSave d bindText args).Runs env.step s out s') : Adds (1 + (fellBack out).toNat) s s' := by
  obtain ⟨e, hraised, -⟩ | ⟨_, s₁, hvalid, hrest⟩ := Program.runs_bind.mp h
  · rw [(Program.runs_ofExcept.mp hraised).2]
    exact adds_of_same rfl
  rw [(Program.runs_ofExcept.mp hvalid).2] at hrest
  obtain ⟨rfl, -⟩ | hdirect | ⟨client, pid, ⟨v, hremote, -⟩ | ⟨e, t, hremote, hhandled⟩⟩ := dispatch_runs hrest
  · exact adds_of_same rfl
  · exact (directly_adds hdirect).mono (Nat.le_add_right 1 _)
  · obtain ⟨t, hserver, ⟨e, -, he⟩ | ⟨result, e, -, he⟩ | ⟨result, o, hread, -⟩⟩ := remotely_runs hremote
    · cases he
    · cases he
    · exact ((mayRun_save_adds hserver).trans (adds_of_same (readSaved_same hread) : Adds 0 _ _)).mono
        (Nat.le_add_right 1 _)
  · have hserver : Adds 1 s t := by
      obtain ⟨u, hserver, ⟨e, rfl, -⟩ | ⟨result, e, hread, -⟩ | ⟨result, o, hread, -⟩⟩ := remotely_runs hremote
      · exact mayRun_save_adds hserver
      · exact (mayRun_save_adds hserver).trans (adds_of_same (readSaved_same hread) : Adds 0 _ _)
      · exact (mayRun_save_adds hserver).trans (adds_of_same (readSaved_same hread) : Adds 0 _ _)
    obtain ⟨rfl, -⟩ | ⟨-, hdirect⟩ := hhandled
    · exact hserver.mono (Nat.le_add_right 1 _)
    · have hout : fellBack out = true := by
        cases out with
        | error e => rfl
        | ok v =>
          obtain ⟨e, -, he⟩ | ⟨o, -, hmode⟩ := directly_runs hdirect
          · cases he
          · simp [fellBack, hmode v rfl, directMode]
      rw [hout]
      exact hserver.trans (directly_adds hdirect)

/-- Saves that are dispatched one after another, each by a dispatcher of its own. The server acts in the steps of
the surroundings, and nothing else changes the store. -/
def savesSystem (env : Surroundings svc basename) (bindText : Json → Except Exn String) :
    System (hybridSignature.sum storeSignature) Exn Store where
  Op := Dispatcher × SaveArgs
  Result _ := Observation × DispatchReceipt
  program op := dispatchSave op.1 bindText op.2
  step := env.step
  outside _ _ := False
  initial _ := True

/-- However the server answers, the observations that were there stay, and there are at most as many new ones
as there were dispatches, those that fell back or raised counted twice. -/
theorem dispatched_saves_add {tr : List (savesSystem env bindText).Performed}
    (run : (savesSystem env bindText).Performs s tr s') :
    Adds (tr.length + tr.countP fun call => fellBack call.out) s s' := by
  induction run with
  | nil => exact adds_of_same rfl
  | snoc before op runs ih =>
    refine (ih.trans (dispatchSave_adds runs)).mono ?_
    simp only [List.length_append, List.countP_append, List.length_singleton, List.countP_singleton]
    split
    · next hfell =>
      rw [hfell, Bool.toNat_true]
      omega
    · next hfell =>
      rw [Bool.not_eq_true] at hfell
      rw [hfell, Bool.toNat_false]
      omega

section Example

/-- A service that redacts nothing. -/
def openService : MemoryService := ⟨⟨id, true⟩, fun content metadata => (content, metadata)⟩

/-- A server that may carry out what it is asked for, and answers with an empty text. -/
def silentServer : Server openService "work" where
  answers request s r s' := r = .ok { status := 200 } ∧ (s' = s ∨ ∃ id toolName arguments,
    request.message = toolsCallMessage id toolName arguments ∧
      ToolRuns openService "work" toolName arguments s s')
  applies h := h.2

def silence : Surroundings openService "work" := ⟨silentServer, fun _ => False, fun _ => False⟩

def silentDispatcher : Dispatcher :=
  { lib := ⟨fun _ => .error (.jsonDecodeError ""), fun _ => .error (.other "")⟩, service := openService }

def plainSave : SaveArgs := { content := "note" }

/-- The tool saves the note, and so does the client, which has not been told. -/
theorem plainSave_twice : ∃ o s', (dispatchSave silentDispatcher (fun _ => .error (.other "")) plainSave).Runs
    silence.step ({}, {}) (.ok (o, ⟨.fallback, "save", some "protocol_error", none⟩)) s' ∧
      storedIds s' = ["x", "y"] := by
  obtain ⟨out, answers, t, o, answers', s', htool, hown, hids⟩ : ∃ out answers t o answers' s',
      (memorySave openService "work" plainSave).exec (fun c s => some (Store.respond { id := "x" } c s)) ({}, {}) =
        some (out, answers, t) ∧
      (openService.save plainSave).exec (fun c s => some (Store.respond { id := "y" } c s)) t =
        some (.ok o, answers', s') ∧ storedIds s' = ["x", "y"] := ⟨_, _, _, _, _, _, rfl, rfl, rfl⟩
  have hserve : ∀ ω c (s : Store) r s', some (Store.respond ω c s) = some (r, s') → Store.serve ⟨c, r⟩ s s' := by
    intro ω c s r s' h
    have hserve := Store.respond_serve ω c s
    rwa [Option.some.inj h] at hserve
  have htool : ToolRuns openService "work" "memory_save" (saveArguments plainSave) ({}, {}) t :=
    .inl ⟨rfl, plainSave, out, rfl,
      (Program.exec_reaches (fun c s r s' h => Store.step_of_serve (hserve _ c s r s' h)) htool).runs⟩
  have hown : (onService (openService.save plainSave)).Runs silence.step t (.ok o) s' :=
    onService_runs.mpr (Program.exec_reaches (fun c s r s' h => .inl (hserve _ c s r s' h)) hown).runs
  have hremote : (silentDispatcher.remotely "save" "memory_save" (saveArguments plainSave)
      (readSaved fun _ => .error (.other "")) ⟨"http://127.0.0.1:8080/mcp", none, 0⟩ 7).Runs silence.step ({}, {})
        (.error (.runtimeError "No data line in SSE response: ")) t := by
    refine Program.runs_bind.mpr (.inl ⟨_, ?_, rfl⟩)
    refine Program.Runs.bind (t := ({}, {})) (b := ⟨"http://127.0.0.1:8080/mcp", none, 1⟩) ?_ ?_
    · exact .perform_bind (v := { status := 200 }) ⟨rfl, .inl rfl⟩
        (.perform_bind (v := { status := 200 }) ⟨rfl, .inl rfl⟩ ⟨rfl, rfl⟩)
    · exact .perform_bind (v := { status := 200 }) ⟨rfl, .inr ⟨2, _, _, rfl, htool⟩⟩
        (Program.runs_ofExcept.mpr ⟨rfl, rfl⟩)
  have hclient : silentDispatcher.getMcpClient.Runs silence.step ({}, {})
      (.ok (some (⟨"http://127.0.0.1:8080/mcp", none, 0⟩, 7))) ({}, {}) :=
    ⟨.ok (some (⟨"127.0.0.1", 8080, 7⟩ : ServerInfo)), ({}, {}), rfl, rfl, rfl⟩
  refine ⟨o, s', .ofExcept_bind (b := ()) rfl (.bind hclient ?_), hids⟩
  refine Program.runs_handle.mpr (.inr ⟨_, t, hremote, ?_⟩)
  refine .bind (b := ()) ⟨rfl, rfl⟩ (.bind hown (.bind (b := ()) ?_ ⟨rfl, rfl⟩))
  exact .handle_ok (Program.runs_perform.mpr ⟨rfl, fun e he => by cases he⟩)

/-- One dispatch may add two observations. -/
theorem dispatched_plainSave_adds : ∃ (tr : List (savesSystem silence fun _ => .error (.other "")).Performed)
    (s' : Store), tr.length = 1 ∧ storedIds s' = ["x", "y"] ∧
      Adds (tr.length + tr.countP fun call => fellBack call.out) ({}, {}) s' := by
  obtain ⟨o, s', hrun, hids⟩ := plainSave_twice
  have hnone : (savesSystem silence fun _ => .error (.other "")).Performs ({}, {}) [] ({}, {}) := .nil
  have run := hnone.snoc (silentDispatcher, plainSave) hrun
  exact ⟨_, s', rfl, hids, dispatched_saves_add run⟩

end Example

end Saves

section Updates

variable {svc : MemoryService} {basename : String} {env : Surroundings svc basename}
variable {d : Dispatcher} {kwargs : UpdateKwargs} {s s' : Store}

/-- The observations are as they were, or the one that the call names is revised. -/
def UpdatedOnce (kwargs : UpdateKwargs) (s s' : Store) : Prop :=
  s'.1.observations.rows = s.1.observations.rows ∨
    ∃ id, kwargs.id.or kwargs.observationId = some id ∧ Revises id s.1.observations.rows s'.1.observations.rows

theorem updatedOnce_of_same (h : s'.1 = s.1) : UpdatedOnce kwargs s s' := .inl (by rw [h])

theorem updateWith_runs {y : Semantics syncSignature Exn SyncStore} {out : Except Exn Observation}
    (h : (updateWith svc kwargs).Runs (observationsOnly y) s out s') :
    s'.1 = s.1 ∧ (∃ e, out = .error e) ∨ kwargs.id = none ∧ UpdatedOnce kwargs s s' ∧
      ((∃ e, out = .error e) → s'.1 = s.1) := by
  unfold updateWith at h
  cases hid : kwargs.id with
  | some id =>
    rw [hid] at h
    exact .inl ⟨by rw [h.2], _, h.1⟩
  | none =>
    cases hobservation : kwargs.observationId with
    | none =>
      rw [hid, hobservation] at h
      exact .inl ⟨by rw [h.2], _, h.1⟩
    | some id =>
      rw [hid, hobservation] at h
      have hnamed : kwargs.id.or kwargs.observationId = some id := by rw [hid, hobservation]; rfl
      right
      obtain hsame | ⟨hrevised, o, rfl⟩ := update_revises h
      · exact ⟨rfl, updatedOnce_of_same hsame, fun _ => hsame⟩
      · exact ⟨rfl, .inr ⟨id, hnamed, hrevised⟩, fun ⟨e, he⟩ => by cases he⟩

/-- The tool finds the id under no other name than its own. -/
theorem readUpdateArgs_id {id : String} {args : UpdateArgs}
    (h : readUpdateArgs (updateArguments kwargs) = .ok (id, args)) : kwargs.id = some id := by
  obtain ⟨id', hread, hrest⟩ := bind_eq_ok.mp h
  have hsame : id' = id := by
    obtain ⟨_, -, hrest⟩ := bind_eq_ok.mp hrest
    obtain ⟨_, -, hrest⟩ := bind_eq_ok.mp hrest
    obtain ⟨_, -, hrest⟩ := bind_eq_ok.mp hrest
    obtain ⟨_, -, hrest⟩ := bind_eq_ok.mp hrest
    obtain ⟨_, -, hrest⟩ := bind_eq_ok.mp hrest
    obtain ⟨_, -, hrest⟩ := bind_eq_ok.mp hrest
    exact (Prod.ext_iff.mp (Except.ok.inj hrest)).1
  cases hid : kwargs.id with
  | some given =>
    have hlookup : JsonObject.item (updateArguments kwargs) "id" = .ok (.str given) := by
      simp [updateArguments, Hybrid.given, hid, JsonObject.item]
    rw [JsonObject.read, hlookup] at hread
    have hgiven : given = id' := Except.ok.inj hread
    rw [hgiven, hsame]
  | none =>
    have hlookup : JsonObject.item (updateArguments kwargs) "id" = .error (.keyError "'id'") := by
      cases hobservation : kwargs.observationId with
      | none =>
        rw [updateArguments, hid, hobservation]
        rfl
      | some observationId =>
        rw [updateArguments, hid, hobservation]
        rfl
    rw [JsonObject.read, hlookup] at hread
    cases hread

theorem mayRun_update (h : MayRun svc basename "memory_update" (updateArguments kwargs) s s') :
    s'.1 = s.1 ∨ kwargs.id ≠ none ∧ UpdatedOnce kwargs s s' := by
  obtain rfl | ⟨hname, -⟩ | ⟨-, id, args, out, hargs, hrun⟩ := h
  · exact .inl rfl
  · exact absurd hname (by decide)
  · have hid := readUpdateArgs_id hargs
    have hnamed : kwargs.id.or kwargs.observationId = some id := by rw [hid]; rfl
    have hupdated : ∀ {out}, (svc.update id args).Runs Store.step s out s' →
        s'.1 = s.1 ∨ kwargs.id ≠ none ∧ UpdatedOnce kwargs s s' := by
      intro out hupdate
      obtain hsame | ⟨hrevised, -⟩ := update_revises (tool_runs hupdate)
      · exact .inl hsame
      · exact .inr ⟨by simp [hid], .inr ⟨id, hnamed, hrevised⟩⟩
    obtain ⟨e, hraised, -⟩ | ⟨_, s₁, hraised, hrest⟩ := Program.runs_bind.mp hrun
    · rw [(Program.runs_ofExcept.mp hraised).2]
      exact .inl rfl
    rw [(Program.runs_ofExcept.mp hraised).2] at hrest
    obtain ⟨e, hupdate, -⟩ | ⟨o, s₂, hupdate, hret⟩ := Program.runs_bind.mp hrest
    · exact hupdated hupdate
    · rw [← hret.2] at hupdate
      exact hupdated hupdate

theorem readUpdated_runs {result : Json} {out : Except Exn Observation}
    (h : (readUpdated d kwargs result).Runs env.step s out s') :
    s'.1 = s.1 ∨ kwargs.id = none ∧ UpdatedOnce kwargs s s' ∧ ∃ o, out = .ok o := by
  obtain ⟨e, hrun, -⟩ | ⟨read, s₁, hread, hrest⟩ := Program.runs_bind.mp h
  · rw [(Program.runs_ofExcept.mp hrun).2]
    exact .inl rfl
  rw [(Program.runs_ofExcept.mp hread).2] at hrest
  cases read with
  | some o =>
    rw [hrest.2]
    exact .inl rfl
  | none =>
    obtain ⟨hsame, -⟩ | ⟨hid, honce, herror⟩ := updateWith_runs (own_runs hrest)
    · exact .inl hsame
    · cases out with
      | error e => exact .inl (herror ⟨e, rfl⟩)
      | ok o => exact .inr ⟨hid, honce, o, rfl⟩

/-- After the request, the observation has been revised by the server or by the client, and not by both. -/
theorem remote_update {client : MCPClient} {pid : Int} {out : Except Exn (Observation × DispatchReceipt)}
    (hreceipt : kwargs.id = none → ∀ e, env.receiptRaises e → e.isOSError = true)
    (h : (d.remotely "update" "memory_update" (updateArguments kwargs) (readUpdated d kwargs) client pid).Runs
      env.step s out s') :
    UpdatedOnce kwargs s s' ∧ ((∃ e, out = .error e) → kwargs.id = none → s'.1 = s.1) ∧
      ∀ v, out = .ok v → v.2.mode = .mcpClient := by
  obtain ⟨t, hserver, hrest⟩ := remotely_runs h
  have hread : ∀ {result r}, (readUpdated d kwargs result).Runs env.step t r s' →
      UpdatedOnce kwargs s s' ∧ ((∃ e, r = .error e) → kwargs.id = none → s'.1 = s.1) := by
    intro result r hrun
    obtain hserver | ⟨hid, hserver⟩ := mayRun_update hserver
    · obtain hsame | ⟨hid, honce, o, rfl⟩ := readUpdated_runs hrun
      · exact ⟨updatedOnce_of_same (hsame.trans hserver), fun _ _ => hsame.trans hserver⟩
      · unfold UpdatedOnce at honce
        rw [hserver] at honce
        exact ⟨honce, fun ⟨e, he⟩ => by cases he⟩
    · obtain hsame | ⟨hnone, -⟩ := readUpdated_runs hrun
      · unfold UpdatedOnce at hserver ⊢
        rw [hsame]
        exact ⟨hserver, fun _ hnone => absurd hnone hid⟩
      · exact absurd hnone hid
  obtain ⟨e, rfl, rfl⟩ | ⟨result, e, hrun, rfl⟩ | ⟨result, o, hrun, hmode, hraises⟩ := hrest
  · obtain hsame | ⟨hid, honce⟩ := mayRun_update hserver
    · exact ⟨updatedOnce_of_same hsame, fun _ _ => hsame, fun v hv => by cases hv⟩
    · exact ⟨honce, fun _ hnone => absurd hnone hid, fun v hv => by cases hv⟩
  · exact ⟨(hread hrun).1, fun _ => (hread hrun).2 ⟨e, rfl⟩, fun v hv => by cases hv⟩
  · refine ⟨(hread hrun).1, fun ⟨e, he⟩ hnone => ?_, hmode⟩
    obtain ⟨hraised, hos⟩ := hraises e he
    rw [hreceipt hnone e hraised] at hos
    cases hos

/-- However the server answers, a dispatched update takes effect once at most; and the one that the update
command makes, which names the id as the tool does, succeeds through the server alone. -/
theorem dispatched_update_once {out : Except Exn (Observation × DispatchReceipt)}
    (hreceipt : kwargs.id = none → ∀ e, env.receiptRaises e → e.isOSError = true)
    (h : (dispatchUpdate d kwargs).Runs env.step s out s') :
    UpdatedOnce kwargs s s' ∧ (kwargs.id ≠ none → ∀ v, out = .ok v → v.2.mode = .mcpClient) := by
  have hdirectly : ∀ {retried t}, (Dispatcher.directly "update" retried (updateWith d.service kwargs)).Runs
      env.step t out s' → (s'.1 = t.1 ∧ ∃ e, out = .error e) ∨ kwargs.id = none ∧ UpdatedOnce kwargs t s' := by
    intro retried t hrun
    obtain ⟨e, hown, rfl⟩ | ⟨o, hown, -⟩ := directly_runs hrun
    · obtain ⟨hsame, -⟩ | ⟨hid, honce, -⟩ := updateWith_runs hown
      · exact .inl ⟨hsame, e, rfl⟩
      · exact .inr ⟨hid, honce⟩
    · obtain ⟨-, e, he⟩ | ⟨hid, honce, -⟩ := updateWith_runs hown
      · cases he
      · exact .inr ⟨hid, honce⟩
  obtain ⟨rfl, e, rfl⟩ | hdirect | ⟨client, pid, ⟨v, hremote, rfl⟩ | ⟨e, t, hremote, hhandled⟩⟩ := dispatch_runs h
  · exact ⟨.inl rfl, fun _ v hv => by cases hv⟩
  · obtain ⟨hsame, e, rfl⟩ | ⟨hid, honce⟩ := hdirectly hdirect
    · exact ⟨updatedOnce_of_same hsame, fun _ v hv => by cases hv⟩
    · exact ⟨honce, fun hsome => absurd hid hsome⟩
  · obtain ⟨honce, -, hmode⟩ := remote_update hreceipt hremote
    exact ⟨honce, fun _ => hmode⟩
  · obtain ⟨honce, hnone, -⟩ := remote_update hreceipt hremote
    obtain ⟨rfl, e', rfl⟩ | ⟨-, hdirect⟩ := hhandled
    · exact ⟨honce, fun _ v hv => by cases hv⟩
    · obtain ⟨hsame, e', rfl⟩ | ⟨hid, hown⟩ := hdirectly hdirect
      · unfold UpdatedOnce at honce ⊢
        rw [hsame]
        exact ⟨honce, fun _ v hv => by cases hv⟩
      · unfold UpdatedOnce at hown ⊢
        rw [hnone ⟨e, rfl⟩ hid] at hown
        exact ⟨hown, fun hsome => absurd hid hsome⟩

section Example

def told : HttpResponse := { status := 200, text := "data: {}" }

/-- A server that may carry out what it is asked for, and answers with a line of data. -/
def tellingServer : Server openService "work" where
  answers request s r s' := r = .ok told ∧ (s' = s ∨ ∃ id toolName arguments,
    request.message = toolsCallMessage id toolName arguments ∧
      ToolRuns openService "work" toolName arguments s s')
  applies h := h.2

def telling : Surroundings openService "work" := ⟨tellingServer, fun _ => False, fun _ => False⟩

/-- The note as the update leaves it. -/
def revisedNote : ObservationFields :=
  { id := "x", timestamp := 0, content := "text", metadata := some [], revisionCount := 2 }

/-- The update command, which names the id as the tool does. -/
def noteUpdate : UpdateKwargs := { id := some "x", args := { content := some "text" } }

/-- The answer of the tool, around a text. -/
def envelope : Json :=
  .obj [("result", .obj [("content", .arr [.obj [("type", .str "text"), ("text", .str "x")]])])]

/-- The line is read as the answer, and its text as the note. -/
def tellingDispatcher : Dispatcher where
  lib := ⟨fun text => .ok (if text = "{}" then envelope else .obj (serializeObservation revisedNote)),
    fun _ => .error (.other "")⟩
  service := openService

theorem note_updated : ∃ t t', ToolRuns openService "work" "memory_update" (updateArguments noteUpdate) t t' ∧
    t.1.observations.rows.map (fun row => (row.id, row.content)) = [("x", "note")] ∧
    t'.1.observations.rows.map (fun row => (row.id, row.content)) = [("x", "text")] := by
  obtain ⟨o, answers, t, out, answers', t', hsave, hupdate, hrows, hrows'⟩ : ∃ o answers t out answers' t',
      (openService.save plainSave).exec (fun c s => some (Store.respond { id := "x" } c s)) ({}, {}) =
        some (.ok o, answers, t) ∧
      (memoryUpdate openService "x" noteUpdate.args).exec (fun c s => some (Store.respond { id := "y" } c s)) t =
        some (.ok out, answers', t') ∧
      t.1.observations.rows.map (fun row => (row.id, row.content)) = [("x", "note")] ∧
      t'.1.observations.rows.map (fun row => (row.id, row.content)) = [("x", "text")] :=
    ⟨_, _, _, _, _, _, rfl, rfl, rfl, rfl⟩
  have hstep : ∀ c (s : Store) r s', some (Store.respond { id := "y" } c s) = some (r, s') →
      Store.step ⟨c, r⟩ s s' := by
    intro c s r s' h
    have hserve := Store.respond_serve { id := "y" } c s
    rw [Option.some.inj h] at hserve
    exact Store.step_of_serve hserve
  have hruns := (Program.exec_reaches hstep hupdate).runs
  exact ⟨t, t', .inr ⟨rfl, "x", noteUpdate.args, _, rfl, hruns⟩, hrows, hrows'⟩

theorem noteUpdate_told : ∃ o t t', (dispatchUpdate tellingDispatcher noteUpdate).Runs telling.step t
    (.ok (o, ⟨.mcpClient, "update", none, some 7⟩)) t' ∧
      t.1.observations.rows.map (fun row => (row.id, row.content)) = [("x", "note")] ∧
      t'.1.observations.rows.map (fun row => (row.id, row.content)) = [("x", "text")] := by
  obtain ⟨t, t', htool, hrows, hrows'⟩ := note_updated
  obtain ⟨o, hread⟩ : ∃ o, toObservation (.obj (serializeObservation revisedNote)) = .ok (some o) := ⟨_, rfl⟩
  have hclient : tellingDispatcher.getMcpClient.Runs telling.step t
      (.ok (some (⟨"http://127.0.0.1:8080/mcp", none, 0⟩, 7))) t :=
    ⟨.ok (some (⟨"127.0.0.1", 8080, 7⟩ : ServerInfo)), t, rfl, rfl, rfl⟩
  refine ⟨o, t, t', .bind hclient (.handle_ok ?_), hrows, hrows'⟩
  refine .bind (b := .obj (serializeObservation revisedNote)) (t := t') ?_ ?_
  · refine Program.Runs.bind (t := t) (b := ⟨"http://127.0.0.1:8080/mcp", none, 1⟩) ?_ ?_
    · exact .perform_bind (v := told) ⟨rfl, .inl rfl⟩ (.perform_bind (v := told) ⟨rfl, .inl rfl⟩ ⟨rfl, rfl⟩)
    · exact .perform_bind (v := told) ⟨rfl, .inr ⟨2, _, _, rfl, htool⟩⟩ (Program.runs_ofExcept.mpr ⟨rfl, rfl⟩)
  · refine .bind (b := o) (t := t') ?_ (.bind (b := ()) ?_ ⟨rfl, rfl⟩)
    · exact .ofExcept_bind (b := some o) hread ⟨rfl, rfl⟩
    · exact .handle_ok (Program.runs_perform.mpr ⟨rfl, fun e he => by cases he⟩)

theorem noteUpdate_once : ∃ o t t', (dispatchUpdate tellingDispatcher noteUpdate).Runs telling.step t
    (.ok (o, ⟨.mcpClient, "update", none, some 7⟩)) t' ∧ t'.1.observations.rows ≠ t.1.observations.rows ∧
      UpdatedOnce noteUpdate t t' := by
  obtain ⟨o, t, t', hrun, hrows, hrows'⟩ := noteUpdate_told
  obtain ⟨honce, -⟩ := dispatched_update_once (fun h => by cases h) hrun
  refine ⟨o, t, t', hrun, fun hsame => ?_, honce⟩
  rw [hsame, hrows] at hrows'
  revert hrows'
  decide

end Example

end Updates

end ForkAgent.Hybrid

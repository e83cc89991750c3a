import ForkAgent.Messages.Store

/-!
# The cap on messages

The cap is one on the whole table: a save deletes the oldest messages, whoever they are for, when
there are too many in all.
-/

namespace ForkAgent.Messages

open Effects MessageTable

variable {initial : List MessageRow → Prop}

/-- The event is a step of the save of a message, and takes away a row that is unread and has not
expired. -/
structure Deletes (e : (messagesSystem initial).Event) (msg : AgentMessage) (row : MessageRow) :
    Prop where
  save : e.op = MessageOp.save msg
  stored : row ∈ e.before
  gone : row ∉ e.after
  unread : row.isRead = false
  unexpired : ∀ now, e.answered.call = .purge now → ¬ row.expiresAt < now

section Steps

variable {s s' : List MessageRow}

theorem mem_purge_of_unread {now : Int} {row : MessageRow} (hrow : row ∈ s)
    (hunread : row.isRead = false) (hunexpired : ¬ row.expiresAt < now) : row ∈ purge now s := by
  rw [mem_purge]
  refine ⟨hrow, hunexpired, ?_⟩
  rw [hunread]
  simp

theorem purge_eq_self {now : Int} (h : ∀ row ∈ s, row.isRead = false ∧ ¬ row.expiresAt < now) :
    purge now s = s := by
  have hfresh : s.filter (fun row => !expired now row) = s := by
    rw [List.filter_eq_self]
    intro row hrow
    simpa [expired] using (h row hrow).2
  rw [purge, hfresh, List.filter_eq_self]
  intro row hrow
  simp [readLongAgo, (h row hrow).1]

theorem excess_pos : 0 < excess s ↔ MAX_TOTAL_MESSAGES ≤ s.length := by
  unfold excess MAX_TOTAL_MESSAGES
  omega

theorem length_insertCapped {kept : List MessageRow} (h : Evicts (excess s) s kept)
    (row : MessageRow) : (kept ++ [row]).length ≤ MAX_TOTAL_MESSAGES := by
  have hkept := h.length
  unfold excess MAX_TOTAL_MESSAGES at hkept
  unfold MAX_TOTAL_MESSAGES
  rw [List.length_append, List.length_singleton]
  omega

theorem length_step {a : Answered messageSignature Exn} (h : step a s s')
    (hs : s.length ≤ MAX_TOTAL_MESSAGES) : s'.length ≤ MAX_TOTAL_MESSAGES := by
  obtain ⟨c, r⟩ := a
  cases r with
  | error e => rwa [same_of_error h]
  | ok v =>
    cases c with
    | timeMs => rwa [(serve_of_ok h).1]
    | purge now =>
      rw [(serve_of_ok h).2]
      exact ((List.length_filter_le _ _).trans (List.length_filter_le _ _)).trans hs
    | insertCapped row =>
      obtain ⟨kept, hevicts, -, rfl⟩ := insertCapped_ok h
      exact length_insertCapped hevicts row
    | selectFor agentId limit => rwa [(serve_of_ok h).1]
    | markRead ids =>
      rw [(serve_of_ok h).2, markRead, Storage.updateWhere, List.length_map]
      exact hs

/-- The calls of a save. -/
def SaveCall (msg : AgentMessage) : MessageCall → Prop
  | .timeMs | .purge _ => True
  | .insertCapped row => row = msg.toRow
  | _ => False

theorem save_onlyCalls (msg : AgentMessage) : (MessageStore.save msg).OnlyCalls (SaveCall msg) := by
  apply Program.OnlyCalls.bind
  · apply Program.OnlyCalls.bind
    · exact Program.OnlyCalls.perform (σ := messageSignature) (c := .timeMs) trivial
    · intro now
      exact Program.OnlyCalls.perform (σ := messageSignature) (c := .purge now) trivial
  · intro _
    apply Program.OnlyCalls.bind
    · exact Program.OnlyCalls.perform (σ := messageSignature) (c := .insertCapped msg.toRow) rfl
    · intro _
      trivial

end Steps

section Runs

variable {tr : List (messagesSystem initial).Event} {cfg : (messagesSystem initial).Config}

/-- A save takes an unread and unexpired message away only when the table is full, and no message
that it leaves is older. -/
theorem full_of_deletes (run : (messagesSystem initial).Run tr cfg)
    {e : (messagesSystem initial).Event} (he : e ∈ tr) {msg : AgentMessage} {row : MessageRow}
    (h : Deletes e msg row) :
    MAX_TOTAL_MESSAGES ≤ e.before.length ∧
      ∀ other ∈ e.after, other.id ≠ msg.id → row.createdAt ≤ other.createdAt := by
  have hstep := run.step_of_mem he
  have hcall : SaveCall msg e.answered.call := by
    obtain ⟨before, after, htr⟩ := List.append_of_mem he
    apply run.ensures_event htr (Φ := fun _ c => SaveCall msg c) (Ψ := fun _ _ => True)
    rw [h.save]
    exact (save_onlyCalls msg).ensures (fun _ _ hc => hc) fun _ _ => trivial
  obtain ⟨i, op, ⟨c, r⟩, s, s'⟩ := e
  cases r with
  | error e => exact absurd h.stored (same_of_error hstep ▸ h.gone)
  | ok v =>
    cases c with
    | timeMs => exact absurd h.stored ((serve_of_ok hstep).1 ▸ h.gone)
    | purge now =>
      have hgone := h.gone
      rw [show s' = _ from (serve_of_ok hstep).2] at hgone
      exact absurd (mem_purge_of_unread h.stored h.unread (h.unexpired now rfl)) hgone
    | insertCapped new =>
      obtain ⟨kept, hevicts, hid, hs'⟩ := insertCapped_ok hstep
      have hgone : row ∉ kept := by
        intro hkept
        apply h.gone
        rw [show s' = _ from hs']
        exact List.mem_append_left _ hkept
      obtain ⟨hpos, hold⟩ := hevicts.of_not_mem h.stored hgone
      refine ⟨excess_pos.mp hpos, ?_⟩
      intro other hother hnew
      rw [show s' = _ from hs', List.mem_append, List.mem_singleton] at hother
      obtain hkept | rfl := hother
      · exact hold other hkept
      · rw [show other = msg.toRow from hcall] at hnew
        exact absurd rfl hnew
    | selectFor agentId limit => exact hcall.elim
    | markRead ids => exact hcall.elim

theorem length_run (run : (messagesSystem initial).Run tr cfg)
    (hinitial : ∀ s, initial s → s.length ≤ MAX_TOTAL_MESSAGES) :
    cfg.store.length ≤ MAX_TOTAL_MESSAGES := by
  apply run.invariant hinitial
  · intro e he hbefore
    exact length_step (run.step_of_mem he) hbefore
  · intro s s' _ h
    exact h.elim

/-- From any table, a save takes an unread and unexpired message away only if there are 5000
messages, and then one of the oldest; and a table with at most 5000 messages keeps to that, so that
no agent has more. -/
theorem cap_on_all_messages (run : (messagesSystem initial).Run tr cfg) :
    (∀ e ∈ tr, ∀ msg row, Deletes e msg row → MAX_TOTAL_MESSAGES ≤ e.before.length ∧
      ∀ other ∈ e.after, other.id ≠ msg.id → row.createdAt ≤ other.createdAt) ∧
    ((∀ s, initial s → s.length ≤ MAX_TOTAL_MESSAGES) → cfg.store.length ≤ MAX_TOTAL_MESSAGES ∧
      ∀ agentId, (cfg.store.countP (·.toAgent = agentId)) ≤ MAX_TOTAL_MESSAGES) := by
  constructor
  · intro e he msg row h
    exact full_of_deletes run he h
  · intro hinitial
    have hlength := length_run run hinitial
    refine ⟨hlength, ?_⟩
    intro agentId
    exact List.countP_le_length.trans hlength

end Runs

section Example

theorem run_save (initial : List MessageRow → Prop) {s kept : List MessageRow}
    (hinitial : initial s) (hpurge : purge 0 s = s)
    (msg : AgentMessage) (hevicts : Evicts (excess s) s kept) (hid : msg.id ∉ kept.map (·.id)) :
    ∃ tr cfg, (messagesSystem initial).Run tr cfg ∧
      (⟨0, MessageOp.save msg, ⟨MessageCall.insertCapped msg.toRow, .ok ()⟩, s, kept ++ [msg.toRow]⟩ :
        (messagesSystem initial).Event) ∈ tr := by
  let op : (messagesSystem initial).Op := MessageOp.save msg
  have hstart : (messagesSystem initial).Run [] ⟨s, fun _ => none⟩ := .initial hinitial
  have hinvoked := hstart.invoke 0 rfl op
  have hclock := hinvoked.call (i := 0) (o := op) (c := MessageCall.timeMs) (r := .ok (0 : Int))
    (by rw [Function.update_self]; rfl) (show step _ s s from .inl ⟨rfl, _, rfl⟩)
  have hpurged := hclock.call (i := 0) (o := op) (c := MessageCall.purge 0) (r := .ok (0 : Nat))
    (by rw [Function.update_self]; rfl)
    (show step _ s s from .inl ⟨by rw [hpurge, Nat.sub_self], hpurge.symm⟩)
  have hinserted := hpurged.call (i := 0) (o := op) (c := MessageCall.insertCapped msg.toRow)
    (r := .ok ())
    (by rw [Function.update_self]; rfl) (step_insertCapped hevicts hid)
  exact ⟨_, _, hinserted, by simp [op]⟩

def message (id toAgent : String) (createdAt : Int) : AgentMessage :=
  { id, fromAgent := "b", toAgent, messageType := .command, payload := "", createdAt }

/-- Messages between other agents. -/
def flood (n : Nat) : List MessageRow :=
  (List.range n).map fun i => (message (String.ofList (List.replicate (i + 1) 'b')) "b" 1).toRow

def oldest : MessageRow := (message "" "a" 0).toRow

theorem mem_flood {n : Nat} {row : MessageRow} (h : row ∈ flood n) :
    ∃ i, row = (message (String.ofList (List.replicate (i + 1) 'b')) "b" 1).toRow := by
  obtain ⟨i, -, rfl⟩ := List.mem_map.mp h
  exact ⟨i, rfl⟩

theorem id_mem_flood {n : Nat} {id : String} (h : id ∈ (flood n).map (·.id)) :
    ∃ i, id = String.ofList (List.replicate (i + 1) 'b') := by
  obtain ⟨row, hrow, rfl⟩ := List.mem_map.mp h
  obtain ⟨i, rfl⟩ := mem_flood hrow
  exact ⟨i, rfl⟩

theorem stored_flood (n : Nat) : Stored (oldest :: flood n) := by
  constructor
  · rw [List.map_cons, List.nodup_cons]
    constructor
    · intro h
      obtain ⟨i, hi⟩ := id_mem_flood h
      have hlength := congrArg (fun s => s.toList.length) hi
      simp [oldest, message, AgentMessage.toRow] at hlength
    · rw [flood, List.map_map]
      apply List.Nodup.map _ List.nodup_range
      intro i j hij
      have hlength := congrArg (fun s => s.toList.length) hij
      simpa [message, AgentMessage.toRow] using hlength
  · intro row hrow
    obtain rfl | hrow := List.mem_cons.mp hrow
    · exact ⟨_, AgentMessage.toMessage_toRow _⟩
    · obtain ⟨i, rfl⟩ := mem_flood hrow
      exact ⟨_, AgentMessage.toMessage_toRow _⟩

theorem purge_flood (n : Nat) : purge 0 (oldest :: flood n) = oldest :: flood n := by
  apply purge_eq_self
  intro row hrow
  obtain rfl | hrow := List.mem_cons.mp hrow
  · exact ⟨rfl, by decide⟩
  · obtain ⟨i, rfl⟩ := mem_flood hrow
    refine ⟨rfl, ?_⟩
    simp [message, AgentMessage.toRow, DEFAULT_MESSAGE_TTL_MS]

theorem evicts_flood {n : Nat} (hfull : n + 1 = MAX_TOTAL_MESSAGES) :
    Evicts (excess (oldest :: flood n)) (oldest :: flood n) (flood n) := by
  have hlength : (oldest :: flood n).length = MAX_TOTAL_MESSAGES := by
    rw [← hfull]
    simp [flood]
  refine ⟨[oldest], ?_, List.Perm.refl _, ?_⟩
  · rw [excess, hlength]
    rfl
  · intro victim hvictim row hrow
    rw [List.mem_singleton.mp hvictim]
    obtain ⟨i, rfl⟩ := mem_flood hrow
    simp [oldest, message, AgentMessage.toRow]

/-- A table that is full holds one message for an agent, and the next message between others evicts
it. -/
theorem deletes_oldest {n : Nat} (hfull : n + 1 = MAX_TOTAL_MESSAGES) (initial : List MessageRow → Prop)
    (hinitial : initial (oldest :: flood n)) :
    ∃ tr cfg e, (messagesSystem initial).Run tr cfg ∧ e ∈ tr ∧
      Deletes e (message "m" "b" 1) oldest ∧ e.before = oldest :: flood n := by
  have hid : (message "m" "b" 1).id ∉ (flood n).map (·.id) := by
    intro hmem
    obtain ⟨i, hi⟩ := id_mem_flood hmem
    have hchars := congrArg String.toList hi
    rw [String.toList_ofList, List.replicate_succ] at hchars
    have hhead := congrArg List.head? hchars
    simp [message] at hhead
  obtain ⟨tr, cfg, hrun, hevent⟩ := run_save initial hinitial (purge_flood n)
    (message "m" "b" 1) (evicts_flood hfull) hid
  refine ⟨tr, cfg, _, hrun, hevent, ⟨rfl, List.mem_cons_self, ?_, rfl, ?_⟩, rfl⟩
  · intro hmem
    obtain hmem | hmem := List.mem_append.mp hmem
    · obtain ⟨i, hi⟩ := mem_flood hmem
      have hcreated := congrArg MessageRow.createdAt hi
      simp [oldest, message, AgentMessage.toRow] at hcreated
    · have hcreated := congrArg MessageRow.createdAt (List.mem_singleton.mp hmem)
      simp [oldest, message, AgentMessage.toRow] at hcreated
  · intro now hcall
    cases hcall

/-- A message is deleted although its agent has no other. -/
theorem flood_evicts :
    ¬ ∀ tr cfg, (messagesSystem Stored).Run tr cfg → ∀ e ∈ tr, ∀ msg row, Deletes e msg row →
      MAX_TOTAL_MESSAGES ≤ e.before.countP (·.toAgent = row.toAgent) := by
  intro h
  obtain ⟨tr, cfg, e, hrun, hevent, hdeletes, hbefore⟩ :=
    deletes_oldest (n := MAX_TOTAL_MESSAGES - 1) (by decide) Stored (stored_flood _)
  have hcount := h tr cfg hrun e hevent _ _ hdeletes
  have hothers : (flood (MAX_TOTAL_MESSAGES - 1)).countP (·.toAgent = oldest.toAgent) = 0 := by
    rw [List.countP_eq_zero]
    intro row hrow
    obtain ⟨i, rfl⟩ := mem_flood hrow
    simp [oldest, message, AgentMessage.toRow]
  rw [hbefore, List.countP_cons, hothers] at hcount
  revert hcount
  decide

theorem cap_on_all_messages_flood :
    ∃ tr cfg, (messagesSystem (· = oldest :: flood (MAX_TOTAL_MESSAGES - 1))).Run tr cfg ∧
      cfg.store.length ≤ MAX_TOTAL_MESSAGES ∧
      ∃ e ∈ tr, Deletes e (message "m" "b" 1) oldest ∧ MAX_TOTAL_MESSAGES ≤ e.before.length ∧
        ∀ other ∈ e.after, other.id ≠ "m" → oldest.createdAt ≤ other.createdAt := by
  obtain ⟨tr, cfg, e, hrun, hevent, hdeletes, -⟩ :=
    deletes_oldest (n := MAX_TOTAL_MESSAGES - 1) (by decide) (· = oldest :: flood (MAX_TOTAL_MESSAGES - 1)) rfl
  obtain ⟨hfull, hcapped⟩ := cap_on_all_messages hrun
  refine ⟨tr, cfg, hrun, (hcapped ?_).1, e, hevent, hdeletes, hfull e hevent _ _ hdeletes⟩
  intro s hs
  rw [hs, List.length_cons, flood, List.length_map, List.length_range]
  decide

end Example

end ForkAgent.Messages

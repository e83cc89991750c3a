import ForkAgent.Messages.Cap

/-!
# Broadcasts

A broadcast is owed to an agent from the time it is stored until that agent marks it as read, until
its time is over, or until the cap evicts it. There is one read flag for all agents, so that whoever
marks a broadcast as read hides it from everybody.
-/

namespace ForkAgent.Messages

open Effects MessageTable

variable {initial : List MessageRow → Prop}

/-- The event stores this broadcast. -/
def Sends (e : (messagesSystem initial).Event) (row : MessageRow) : Prop :=
  e.answered = Answered.ok (σ := messageSignature) (.insertCapped row) () ∧ row.toAgent = "*"

/-- The agent itself marks the message as read. -/
def MarksAs (agentId : String) (e : (messagesSystem initial).Event) (row : MessageRow) : Prop :=
  ∃ ids count, e.op = MessageOp.markAsRead agentId ids ∧
    e.answered = Answered.ok (σ := messageSignature) (.markRead ids) count ∧ row.id ∈ ids

/-- The clock has passed the end of the message. -/
def Outlives (e : (messagesSystem initial).Event) (row : MessageRow) : Prop :=
  (∃ now, e.answered = Answered.ok (σ := messageSignature) .timeMs now ∧ row.expiresAt < now) ∨
    ∃ now, e.answered.call = .purge now ∧ row.expiresAt < now

/-- A save finds the table full and takes the message away. -/
def EvictedBy (e : (messagesSystem initial).Event) (row : MessageRow) : Prop :=
  (∃ new, e.answered.call = .insertCapped new) ∧ MAX_TOTAL_MESSAGES ≤ e.before.length ∧ row ∉ e.after

/-- The broadcast was stored, and since then the agent has not marked it as read, it has not outlived
its time and it has not been evicted. -/
def Owed (agentId : String) (row : MessageRow) (tr : List (messagesSystem initial).Event) : Prop :=
  ∃ before e after, tr = before ++ e :: after ∧ Sends e row ∧
    ∀ later ∈ after, ¬ MarksAs agentId later row ∧ ¬ Outlives later row ∧ ¬ EvictedBy later row

/-- Every agent is given what it is owed, with a limit that covers its unread messages. -/
def Delivered (agents : Set String) (tr : List (messagesSystem initial).Event)
    (rows : List MessageRow) : Prop :=
  ∀ agentId ∈ agents, ∀ row, Owed agentId row tr → ∀ limit : Int,
    (rows.countP (unreadFor agentId) : Int) ≤ limit →
      ∃ messages msg, (selectFor agentId limit rows).mapM (·.toMessage) = .ok messages ∧
        row.toMessage = .ok msg ∧ msg ∈ messages

/-- The same at every moment of a run. -/
def DeliveredThroughout (agents : Set String) (tr : List (messagesSystem initial).Event) : Prop :=
  ∀ before e after, tr = before ++ e :: after → Delivered agents (before ++ [e]) e.after

/-- No agent marks a broadcast as read that is owed to another one. -/
def MarksOwn (agents : Set String) (tr : List (messagesSystem initial).Event) : Prop :=
  ∀ before e after, tr = before ++ e :: after → ∀ marker row, MarksAs marker e row →
    ∀ agentId ∈ agents, Owed agentId row before → agentId = marker

section Select

variable {s : List MessageRow} {agentId : String} {limit : Int}

theorem mem_selectFor {row : MessageRow} (hlimit : (s.countP (unreadFor agentId) : Int) ≤ limit) :
    row ∈ selectFor agentId limit s ↔ row ∈ s ∧ unreadFor agentId row = true := by
  have hall : ∀ rows : List MessageRow, (rows.length : Int) ≤ limit → limited limit rows = rows := by
    intro rows hrows
    unfold limited
    by_cases hneg : limit < 0
    · rw [if_pos hneg]
    · rw [if_neg hneg]
      apply List.take_of_length_le
      omega
  unfold selectFor
  rw [hall, List.mem_insertionSort, List.mem_filter]
  rw [List.length_insertionSort, ← List.countP_eq_length_filter]
  exact hlimit

theorem id_of_toMessage {row : MessageRow} {msg : AgentMessage} (h : row.toMessage = .ok msg) :
    msg.id = row.id := by
  obtain ⟨messageType, -, hmsg⟩ := bind_eq_ok.mp h
  cases hmsg
  rfl

end Select

section Calls

/-- The calls of an operation. -/
def OpCall : MessageOp → MessageCall → Prop
  | .save msg, c => SaveCall msg c
  | .getForAgent agentId limit, c => c = .selectFor agentId limit
  | .markAsRead _ ids, c => c = .markRead ids
  | .cleanupExpired, c => c = .timeMs ∨ ∃ now, c = .purge now

theorem markAsRead_onlyCalls {A : messageSignature.Call → Prop} {ids : List String}
    (h : A (MessageCall.markRead ids)) : (MessageStore.markAsRead ids).OnlyCalls A := by
  cases ids with
  | nil => trivial
  | cons id ids => exact Program.OnlyCalls.perform h

theorem program_onlyCalls (o : MessageOp) : o.program.OnlyCalls (OpCall o) := by
  cases o with
  | save msg => exact save_onlyCalls msg
  | getForAgent agentId limit =>
    apply Program.OnlyCalls.bind
    · exact Program.OnlyCalls.perform (σ := messageSignature) (c := .selectFor agentId limit) rfl
    · intro rows
      exact Program.OnlyCalls.ofExcept _
  | markAsRead agentId ids => exact markAsRead_onlyCalls rfl
  | cleanupExpired =>
    apply Program.OnlyCalls.bind
    · exact Program.OnlyCalls.perform (σ := messageSignature) (c := .timeMs) (.inl rfl)
    · intro now
      exact Program.OnlyCalls.perform (σ := messageSignature) (c := .purge now) (.inr ⟨now, rfl⟩)

variable {tr : List (messagesSystem initial).Event} {cfg : (messagesSystem initial).Config}
  {e : (messagesSystem initial).Event}

theorem call_of_mem (run : (messagesSystem initial).Run tr cfg) (he : e ∈ tr) :
    OpCall e.op e.answered.call := by
  obtain ⟨before, after, htr⟩ := List.append_of_mem he
  apply run.ensures_event htr (Φ := fun _ c => OpCall e.op c) (Ψ := fun _ _ => True)
  exact (program_onlyCalls e.op).ensures (fun _ _ hc => hc) fun _ _ => trivial

theorem inserted_of_mem (run : (messagesSystem initial).Run tr cfg) (he : e ∈ tr) {row : MessageRow}
    (hcall : e.answered.call = .insertCapped row) : ∃ msg : AgentMessage, row = msg.toRow := by
  have hop := call_of_mem run he
  rw [hcall] at hop
  cases hoperation : (e.op : MessageOp) with
  | save msg =>
    rw [hoperation] at hop
    exact ⟨msg, hop⟩
  | getForAgent agentId limit =>
    rw [hoperation] at hop
    cases hop
  | markAsRead agentId ids =>
    rw [hoperation] at hop
    cases hop
  | cleanupExpired =>
    rw [hoperation] at hop
    obtain h | ⟨now, h⟩ := hop
    · cases h
    · cases h

/-- An unread message stays, unless an agent marks it as read, its time is over or it is evicted. -/
theorem mem_after (run : (messagesSystem initial).Run tr cfg) (he : e ∈ tr) {row : MessageRow}
    (hrow : row ∈ e.before) (hunread : row.isRead = false) (hmarks : ∀ agentId, ¬ MarksAs agentId e row)
    (houtlives : ¬ Outlives e row) (hevicted : ¬ EvictedBy e row) : row ∈ e.after := by
  have hstep := run.step_of_mem he
  have hop := call_of_mem run he
  obtain ⟨i, op, ⟨c, r⟩, s, s'⟩ := e
  cases r with
  | error e =>
    rw [show s' = _ from same_of_error hstep]
    exact hrow
  | ok v =>
    cases c with
    | timeMs =>
      rw [show s' = _ from (serve_of_ok hstep).1]
      exact hrow
    | purge now =>
      rw [show s' = _ from (serve_of_ok hstep).2]
      apply mem_purge_of_unread hrow hunread
      intro hexpired
      exact houtlives (.inr ⟨now, rfl, hexpired⟩)
    | insertCapped new =>
      by_contra hgone
      obtain ⟨kept, hkept, -, hs'⟩ := insertCapped_ok hstep
      have hvictim : row ∉ kept := by
        intro hmem
        apply hgone
        rw [show s' = _ from hs']
        exact List.mem_append_left _ hmem
      have hfull := excess_pos.mp (hkept.of_not_mem hrow hvictim).1
      exact hevicted ⟨⟨new, rfl⟩, hfull, hgone⟩
    | selectFor agentId limit =>
      rw [show s' = _ from (serve_of_ok hstep).1]
      exact hrow
    | markRead ids =>
      obtain ⟨agentId, hagent⟩ : ∃ agentId, op = MessageOp.markAsRead agentId ids := by
        cases op with
        | save msg => exact hop.elim
        | getForAgent agentId limit => cases hop
        | markAsRead agentId ids' =>
          cases hop
          exact ⟨agentId, rfl⟩
        | cleanupExpired =>
          obtain h | ⟨now, h⟩ := hop
          · cases h
          · cases h
      rw [show s' = _ from (serve_of_ok hstep).2, mem_markRead]
      right
      refine ⟨hrow, ?_⟩
      intro hid
      exact hmarks agentId ⟨ids, v, hagent, rfl, hid⟩

end Calls

section Runs

variable {tr : List (messagesSystem initial).Event} {e : (messagesSystem initial).Event}
  {agentId : String} {row : MessageRow}

theorem owed_concat : Owed agentId row (tr ++ [e]) ↔ Sends e row ∨
    Owed agentId row tr ∧ ¬ MarksAs agentId e row ∧ ¬ Outlives e row ∧ ¬ EvictedBy e row := by
  constructor
  · rintro ⟨before, sent, after, htr, hsends, hnone⟩
    obtain rfl | ⟨after, last, rfl⟩ := List.eq_nil_or_concat after
    · have hlast := (List.append_inj' htr rfl).2
      cases hlast
      exact .inl hsends
    · have hsplit : tr ++ [e] = (before ++ sent :: after) ++ [last] := by simpa using htr
      obtain ⟨rfl, hlast⟩ := List.append_inj' hsplit rfl
      cases hlast
      right
      refine ⟨⟨before, sent, after, rfl, hsends, ?_⟩, hnone e (by simp)⟩
      intro later hlater
      exact hnone later (by simp [hlater])
  · rintro (hsends | ⟨⟨before, sent, after, rfl, hsends, hnone⟩, hlast⟩)
    · exact ⟨tr, e, [], rfl, hsends, by simp⟩
    · refine ⟨before, sent, after ++ [e], by simp, hsends, ?_⟩
      intro later hlater
      obtain hlater | hlater := List.mem_append.mp hlater
      · exact hnone later hlater
      · rw [List.mem_singleton.mp hlater]
        exact hlast

variable {cfg : (messagesSystem Stored).Config} {cfg' : (messagesSystem initial).Config}

theorem stored_step {s s' : List MessageRow} {a : Answered messageSignature Exn} (h : step a s s')
    (hinsert : ∀ row, a.call = .insertCapped row → ∃ msg : AgentMessage, row = msg.toRow)
    (hs : Stored s) : Stored s' := by
  obtain ⟨c, r⟩ := a
  cases r with
  | error e =>
    rw [same_of_error h]
    exact hs
  | ok v =>
    cases c with
    | timeMs =>
      rw [(serve_of_ok h).1]
      exact hs
    | purge now =>
      rw [(serve_of_ok h).2]
      have hsublist : (purge now s).Sublist s := List.filter_sublist.trans List.filter_sublist
      exact ⟨hs.keyed.sublist (hsublist.map _), fun row hrow => hs.readable row (hsublist.subset hrow)⟩
    | insertCapped row =>
      obtain ⟨kept, hevicts, hid, rfl⟩ := insertCapped_ok h
      obtain ⟨msg, rfl⟩ := hinsert row rfl
      constructor
      · rw [List.map_append, List.map_singleton]
        exact List.nodup_append.mpr ⟨hevicts.nodup hs.keyed, List.nodup_singleton _, by
          intro x hx y hy hxy
          rw [List.mem_singleton.mp hy] at hxy
          exact hid (hxy ▸ hx)⟩
      · intro row hrow
        obtain hrow | hrow := List.mem_append.mp hrow
        · exact hs.readable row (hevicts.mem_of_mem hrow)
        · rw [List.mem_singleton.mp hrow]
          exact ⟨msg, AgentMessage.toMessage_toRow msg⟩
    | selectFor agentId limit =>
      rw [(serve_of_ok h).1]
      exact hs
    | markRead ids =>
      rw [(serve_of_ok h).2]
      constructor
      · rw [markRead, Storage.updateWhere, List.map_map]
        have hids : s.map ((·.id) ∘ fun row => if ids.contains row.id then { row with isRead := true }
            else row) = s.map (·.id) := by
          apply List.map_congr_left
          intro row _
          rw [Function.comp_apply]
          split_ifs <;> rfl
        rw [hids]
        exact hs.keyed
      · intro row hrow
        obtain ⟨x, hx, -, rfl⟩ | ⟨hrow, -⟩ := mem_markRead.mp hrow
        · exact hs.readable x hx
        · exact hs.readable row hrow

theorem stored_run {tr : List (messagesSystem Stored).Event} (run : (messagesSystem Stored).Run tr cfg) :
    Stored cfg.store := by
  apply run.invariant fun _ h => h
  · intro e he hbefore
    exact stored_step (run.step_of_mem he) (fun row hrow => inserted_of_mem run he hrow) hbefore
  · intro s s' _ h
    exact h.elim

/-- What an agent is owed is in the table, unread, as long as agents only mark their own. -/
theorem present_of_marksOwn {agents : Set String} (run : (messagesSystem initial).Run tr cfg')
    (hmarks : MarksOwn agents tr) : ∀ agentId ∈ agents, ∀ row, Owed agentId row tr →
      row ∈ cfg'.store ∧ row.isRead = false ∧ row.toAgent = "*" := by
  induction run with
  | initial h =>
    rintro agentId _ row ⟨before, e, after, htr, -⟩
    simp at htr
  | invoke run i fresh o ih => exact ih hmarks
  | @call tr s ss run i o c next running r s' step ih =>
    intro agentId hagent row howed
    have hbefore : MarksOwn agents tr := by
      intro before e after htr
      apply hmarks before e (after ++ [⟨i, o, ⟨c, r⟩, s, s'⟩])
      rw [htr, List.append_assoc, List.cons_append]
    have hrun := run.call running step
    obtain ⟨hsends, hto⟩ | ⟨howed, hown, houtlives, hevicted⟩ := owed_concat.mp howed
    · cases hsends
      obtain ⟨msg, hmsg⟩ := inserted_of_mem hrun (e := ⟨i, o, ⟨.insertCapped row, .ok ()⟩, s, s'⟩)
        (by simp) rfl
      obtain ⟨kept, -, -, hs'⟩ := insertCapped_ok step
      refine ⟨?_, ?_, hto⟩
      · show row ∈ s'
        rw [hs']
        simp
      · rw [hmsg]
        rfl
    · obtain ⟨hrow, hunread, hto⟩ := ih hbefore agentId hagent row howed
      refine ⟨?_, hunread, hto⟩
      apply mem_after hrun (e := ⟨i, o, ⟨c, r⟩, s, s'⟩) (by simp) hrow hunread _ houtlives hevicted
      intro marker hmarker
      have hsame := hmarks tr _ [] rfl marker row hmarker agentId hagent howed
      rw [hsame] at hown
      exact hown hmarker
  | outside run h ih => exact h.elim

theorem marksAs_call {marker : String} (h : MarksAs marker e row) :
    ∃ ids, e.answered.call = .markRead ids ∧ row.id ∈ ids := by
  obtain ⟨ids, count, -, hanswered, hid⟩ := h
  exact ⟨ids, by rw [hanswered], hid⟩

theorem owed_of_marksAs {marker : String} (howed : Owed agentId row tr) (hmarks : MarksAs marker e row)
    (hne : agentId ≠ marker) : Owed agentId row (tr ++ [e]) := by
  obtain ⟨ids, hcall, -⟩ := marksAs_call hmarks
  rw [owed_concat]
  right
  refine ⟨howed, ?_, ?_, ?_⟩
  · intro ⟨own, _, hop, _⟩
    obtain ⟨ids', _, hop', _⟩ := hmarks
    rw [hop] at hop'
    cases hop'
    exact hne rfl
  · rintro (⟨now, hanswered, -⟩ | ⟨now, hpurge, -⟩)
    · rw [hanswered] at hcall
      cases hcall
    · rw [hpurge] at hcall
      cases hcall
  · rintro ⟨⟨new, hinsert⟩, -⟩
    rw [hinsert] at hcall
    cases hcall

theorem hidden_of_marksAs {tr : List (messagesSystem initial).Event}
    (run : (messagesSystem initial).Run tr cfg') (he : e ∈ tr) {marker : String}
    (hmarks : MarksAs marker e row) {found : MessageRow} (hfound : found ∈ e.after)
    (hid : found.id = row.id) : found.isRead = true := by
  have hstep := run.step_of_mem he
  obtain ⟨ids, count, -, hanswered, hmem⟩ := hmarks
  rw [hanswered] at hstep
  rw [show e.after = _ from (serve_of_ok hstep).2] at hfound
  obtain ⟨x, -, -, rfl⟩ | ⟨-, hother⟩ := mem_markRead.mp hfound
  · rfl
  · rw [hid] at hother
    exact absurd hmem hother

/-- In every run, all agents are given what they are owed at every moment if and only if no agent
ever marks a broadcast as read that another one is still owed. -/
theorem broadcasts_delivered_iff {agents : Set String} {tr : List (messagesSystem Stored).Event}
    (run : (messagesSystem Stored).Run tr cfg) :
    DeliveredThroughout agents tr ↔ MarksOwn agents tr := by
  constructor
  · intro hdelivered before e after htr marker row hmarks agentId hagent howed
    by_contra hne
    have howed' := owed_of_marksAs howed hmarks hne
    obtain ⟨messages, msg, hmessages, hmsg, hgiven⟩ :=
      hdelivered before e after htr agentId hagent row howed' _ le_rfl
    obtain ⟨found, hfound, hread⟩ := forall₂_exists_left (mapM_eq_ok.mp hmessages) hgiven
    obtain ⟨hstored, hunread⟩ := (mem_selectFor le_rfl).mp hfound
    have hid : found.id = row.id := by rw [← id_of_toMessage hread, id_of_toMessage hmsg]
    have hhidden := hidden_of_marksAs run (by simp [htr]) hmarks hstored hid
    simp [unreadFor, hhidden] at hunread
  · intro hmarks before e after htr agentId hagent row howed limit hlimit
    obtain ⟨ss, hrun⟩ := run.reaches_after htr
    have hown : MarksOwn agents (before ++ [e]) := by
      intro first last rest hsplit
      apply hmarks first last (rest ++ after)
      rw [htr, ← List.singleton_append, ← List.append_assoc, hsplit]
      simp
    obtain ⟨hrow, hunread, hto⟩ := present_of_marksOwn hrun hown agentId hagent row howed
    have hstored := stored_run hrun
    have hselected : row ∈ selectFor agentId limit e.after := by
      rw [mem_selectFor hlimit]
      refine ⟨hrow, ?_⟩
      simp [unreadFor, hunread, hto]
    have hreadable : ∀ row ∈ selectFor agentId limit e.after, ∃ msg, row.toMessage = .ok msg := by
      intro other hother
      exact hstored.readable other ((mem_selectFor hlimit).mp hother).1
    obtain ⟨messages, hmessages⟩ := exists_mapM_eq_ok hreadable
    obtain ⟨msg, hgiven, hmsg⟩ := forall₂_exists_right (mapM_eq_ok.mp hmessages) hselected
    exact ⟨messages, msg, hmessages, hmsg, hgiven⟩

end Runs

section Example

def greeting : AgentMessage := message "m" "*" 0

/-- The event that stores the broadcast in an empty table. -/
def greets : (messagesSystem Stored).Event :=
  ⟨0, MessageOp.save greeting, ⟨MessageCall.insertCapped greeting.toRow, .ok ()⟩, [],
    [greeting.toRow]⟩

/-- The event by which the agent marks it as read. -/
def reads : (messagesSystem Stored).Event :=
  ⟨1, MessageOp.markAsRead "b" ["m"], ⟨MessageCall.markRead ["m"], .ok (1 : Nat)⟩, [greeting.toRow],
    markRead ["m"] [greeting.toRow]⟩

theorem greets_sends : Sends greets greeting.toRow := ⟨rfl, rfl⟩

theorem run_greets : ∃ quiet ss, (messagesSystem Stored).Run (quiet ++ [greets])
    ⟨[greeting.toRow], ss⟩ ∧ ss 1 = none ∧ ∀ e ∈ quiet, ∀ ids, e.answered.call ≠ .markRead ids := by
  let op : (messagesSystem Stored).Op := MessageOp.save greeting
  have hinitial : (messagesSystem Stored).Run [] ⟨[], fun _ => none⟩ := .initial ⟨by simp, by simp⟩
  have hinvoked := hinitial.invoke 0 rfl op
  have hclock := hinvoked.call (i := 0) (o := op) (c := MessageCall.timeMs) (r := .ok (0 : Int))
    (by rw [Function.update_self]; rfl) (show step _ [] [] from .inl ⟨rfl, _, rfl⟩)
  have hpurged := hclock.call (i := 0) (o := op) (c := MessageCall.purge 0) (r := .ok (0 : Nat))
    (by rw [Function.update_self]; rfl) (show step _ [] [] from .inl ⟨rfl, rfl⟩)
  have hinserted := hpurged.call (i := 0) (o := op) (c := MessageCall.insertCapped greeting.toRow)
    (r := .ok ()) (by rw [Function.update_self]; rfl)
    (show step _ [] [greeting.toRow] from .inl ⟨[], ⟨[], rfl, .refl _, by simp⟩, rfl, rfl⟩)
  refine ⟨_, _, hinserted, ?_, ?_⟩
  · simp [Function.update_of_ne]
  · intro e he ids
    simp only [List.nil_append, List.cons_append, List.mem_cons, List.not_mem_nil, or_false] at he
    obtain rfl | rfl := he
    · intro h
      cases h
    · intro h
      cases h

theorem run_reads : ∃ quiet cfg, (messagesSystem Stored).Run (quiet ++ [greets] ++ [reads]) cfg := by
  obtain ⟨quiet, ss, hrun, hfresh, -⟩ := run_greets
  let op : (messagesSystem Stored).Op := MessageOp.markAsRead "b" ["m"]
  have hmarked := (hrun.invoke 1 hfresh op).call (i := 1) (o := op) (c := MessageCall.markRead ["m"])
    (r := .ok (1 : Nat)) (by rw [Function.update_self]; rfl)
    (show step _ [greeting.toRow] (markRead ["m"] [greeting.toRow]) from .inl ⟨rfl, rfl⟩)
  exact ⟨quiet, _, hmarked⟩

theorem broadcasts_delivered_iff_greets : ∃ tr cfg, (messagesSystem Stored).Run tr cfg ∧
    Owed "a" greeting.toRow tr ∧ DeliveredThroughout Set.univ tr := by
  obtain ⟨quiet, ss, hrun, -, hquiet⟩ := run_greets
  refine ⟨_, _, hrun, owed_concat.mpr (.inl greets_sends), (broadcasts_delivered_iff hrun).mpr ?_⟩
  intro before e after htr marker row hmarks
  obtain ⟨ids, hcall, -⟩ := marksAs_call hmarks
  have he : e ∈ quiet ++ [greets] := by simp [htr]
  obtain he | he := List.mem_append.mp he
  · exact absurd hcall (hquiet e he ids)
  · rw [List.mem_singleton.mp he] at hcall
    cases hcall

/-- One agent marks a broadcast as read, and another one never gets it. -/
theorem read_by_one_hides :
    ¬ ∀ (agents : Set String) tr cfg, (messagesSystem Stored).Run tr cfg →
      DeliveredThroughout agents tr := by
  intro h
  obtain ⟨quiet, cfg, hrun⟩ := run_reads
  have hmarks : MarksAs "b" reads greeting.toRow := ⟨["m"], (1 : Nat), rfl, rfl, by decide⟩
  have howed : Owed "a" greeting.toRow (quiet ++ [greets] ++ [reads]) :=
    owed_of_marksAs (owed_concat.mpr (.inl greets_sends)) hmarks (by decide)
  obtain ⟨messages, msg, hmessages, -, hgiven⟩ := h Set.univ _ _ hrun _ reads [] rfl "a" trivial _
    howed 0 (by decide)
  have hnone : (selectFor "a" 0 reads.after).mapM (·.toMessage) = .ok [] := rfl
  rw [hnone] at hmessages
  cases hmessages
  cases hgiven

end Example

end ForkAgent.Messages

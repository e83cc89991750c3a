import ForkAgent.Effects.Interleaving
import ForkAgent.Python.Basic
import ForkAgent.Storage.Table

/-!
# The message store

A message is one row, also where it is sent to everybody. A save first purges what has expired and
then, in a transaction of its own, makes room under a cap on the whole table. Each call below is one
transaction. Times are milliseconds.
-/

namespace ForkAgent.Messages

open Effects Storage

inductive MessageType where
  | command
  | reply
  | handoff
  | progress
  | fileTouched
  | observation
  deriving DecidableEq, Repr

def MessageType.name : MessageType → String
  | command => "COMMAND"
  | reply => "REPLY"
  | handoff => "HANDOFF"
  | progress => "PROGRESS"
  | fileTouched => "FILE_TOUCHED"
  | observation => "OBSERVATION"

/-- `MessageType[name]`. -/
def MessageType.ofName (name : String) : Except Exn MessageType :=
  match [command, reply, handoff, progress, fileTouched, observation].find? (·.name = name) with
  | some messageType => .ok messageType
  | none => .error (.keyError s!"'{name}'")

theorem MessageType.ofName_name (messageType : MessageType) : ofName messageType.name = .ok messageType := by
  cases messageType <;> rfl

structure AgentMessage where
  id : String
  fromAgent : String
  toAgent : String
  messageType : MessageType
  payload : String
  createdAt : Int
  correlationId : Option String := none
  deriving DecidableEq, Repr

/-- A row of `messages`. -/
structure MessageRow where
  id : String
  fromAgent : String
  toAgent : String
  messageType : String
  payload : String
  correlationId : Option String
  createdAt : Int
  expiresAt : Int
  retryCount : Nat := 0
  isRead : Bool := false
  deriving DecidableEq, Repr

/-- 24 hours. -/
def DEFAULT_MESSAGE_TTL_MS : Int := 24 * 60 * 60 * 1000

def MAX_TOTAL_MESSAGES : Nat := 5000

/-- The row that `save` inserts. -/
def AgentMessage.toRow (msg : AgentMessage) : MessageRow where
  id := msg.id
  fromAgent := msg.fromAgent
  toAgent := msg.toAgent
  messageType := msg.messageType.name
  payload := msg.payload
  correlationId := msg.correlationId
  createdAt := msg.createdAt
  expiresAt := msg.createdAt + DEFAULT_MESSAGE_TTL_MS

/-- `_row_to_message`. -/
def MessageRow.toMessage (row : MessageRow) : Except Exn AgentMessage := do
  let messageType ← MessageType.ofName row.messageType
  return { id := row.id, fromAgent := row.fromAgent, toAgent := row.toAgent, messageType,
           payload := row.payload, createdAt := row.createdAt, correlationId := row.correlationId }

theorem AgentMessage.toMessage_toRow (msg : AgentMessage) : msg.toRow.toMessage = .ok msg := by
  unfold MessageRow.toMessage
  rw [show msg.toRow.messageType = msg.messageType.name from rfl, MessageType.ofName_name]
  rfl

namespace MessageTable

def expired (now : Int) (row : MessageRow) : Bool := row.expiresAt < now

/-- Read more than 5 minutes after it was created. -/
def readLongAgo (now : Int) (row : MessageRow) : Bool := row.isRead ∧ row.createdAt < now - 5 * 60 * 1000

/-- The two deletes of `cleanup_expired`. -/
def purge (now : Int) (rows : List MessageRow) : List MessageRow :=
  (rows.filter fun row => !expired now row).filter fun row => !readLongAgo now row

/-- `DELETE` of the `k` oldest rows; SQL leaves the choice among rows of one time open. -/
def Evicts (k : Nat) (rows kept : List MessageRow) : Prop :=
  ∃ victims, victims.length = k ∧ (victims ++ kept).Perm rows ∧
    ∀ victim ∈ victims, ∀ row ∈ kept, victim.createdAt ≤ row.createdAt

/-- How many rows are deleted before a row is inserted. -/
def excess (rows : List MessageRow) : Nat := rows.length - (MAX_TOTAL_MESSAGES - 1)

def unreadFor (agentId : String) (row : MessageRow) : Bool :=
  (row.toAgent = agentId ∨ row.toAgent = "*") ∧ row.isRead = false

/-- `LIMIT`; a negative limit is none. -/
def limited (limit : Int) (rows : List MessageRow) : List MessageRow :=
  if limit < 0 then rows else rows.take limit.toNat

/-- `ORDER BY created_at DESC, id DESC`. -/
def comesFirst (row other : MessageRow) : Bool :=
  other.createdAt < row.createdAt ∨ row.createdAt = other.createdAt ∧ other.id ≤ row.id

/-- The rows of `get_for_agent`. -/
def selectFor (agentId : String) (limit : Int) (rows : List MessageRow) : List MessageRow :=
  limited limit ((rows.filter (unreadFor agentId)).insertionSort fun row other => comesFirst row other)

def markRead (ids : List String) : List MessageRow → List MessageRow :=
  updateWhere (fun row => ids.contains row.id) fun row => { row with isRead := true }

end MessageTable

inductive MessageCall where
  | timeMs
  | purge (now : Int)
  | insertCapped (row : MessageRow)
  | selectFor (agentId : String) (limit : Int)
  | markRead (ids : List String)

def MessageCall.Value : MessageCall → Type
  | .timeMs => Int
  | .purge _ | .markRead _ => Nat
  | .insertCapped _ => Unit
  | .selectFor .. => List MessageRow

def messageSignature : Signature := ⟨MessageCall, MessageCall.Value⟩

abbrev MessageProgram := Program messageSignature Exn

namespace MessageTable

/-- What a call answers and does when the database serves it. -/
def serve : Semantics messageSignature Exn (List MessageRow)
  | ⟨.timeMs, r⟩, s, s' => s' = s ∧ ∃ now, r = .ok now
  | ⟨.purge now, r⟩, s, s' => r = .ok (s.length - (purge now s).length) ∧ s' = purge now s
  | ⟨.insertCapped row, r⟩, s, s' => ∃ kept, Evicts (excess s) s kept ∧
    if row.id ∈ kept.map (·.id) then (∃ m, r = .error (.integrityError m)) ∧ s' = s
    else r = .ok () ∧ s' = kept ++ [row]
  | ⟨.selectFor agentId limit, r⟩, s, s' => s' = s ∧ r = .ok (selectFor agentId limit s)
  | ⟨.markRead ids, r⟩, s, s' =>
    r = .ok (s.countP fun row => ids.contains row.id) ∧ s' = markRead ids s

/-- Any call may instead fail in the database, which then rolls back. -/
def step : Semantics messageSignature Exn (List MessageRow) := fun a s s' =>
  serve a s s' ∨ s' = s ∧ ∃ m, a.answer = .error (.operationalError m)

end MessageTable

namespace MessageStore

def messageCall (c : MessageCall) : MessageProgram c.Value := Program.perform (σ := messageSignature) c

def cleanupExpired : MessageProgram Nat := do
  let now : Int ← messageCall .timeMs
  messageCall (.purge now)

def save (msg : AgentMessage) : MessageProgram String := do
  let _ ← cleanupExpired
  messageCall (.insertCapped msg.toRow)
  return msg.id

def getForAgent (agentId : String) (limit : Int) : MessageProgram (List AgentMessage) := do
  let rows : List MessageRow ← messageCall (.selectFor agentId limit)
  .ofExcept (rows.mapM (·.toMessage))

def markAsRead : List String → MessageProgram Nat
  | [] => return 0
  | id :: ids => messageCall (.markRead (id :: ids))

end MessageStore

/-- The operations of the store. An agent marks what it has read. -/
inductive MessageOp where
  | save (msg : AgentMessage)
  | getForAgent (agentId : String) (limit : Int)
  | markAsRead (agentId : String) (ids : List String)
  | cleanupExpired

def MessageOp.Result : MessageOp → Type
  | .save _ => String
  | .getForAgent .. => List AgentMessage
  | .markAsRead .. | .cleanupExpired => Nat

def MessageOp.program : (o : MessageOp) → MessageProgram o.Result
  | .save msg => MessageStore.save msg
  | .getForAgent agentId limit => MessageStore.getForAgent agentId limit
  | .markAsRead _ ids => MessageStore.markAsRead ids
  | .cleanupExpired => MessageStore.cleanupExpired

/-- A table with a primary key, in which every row is a message. -/
structure Stored (rows : List MessageRow) : Prop where
  keyed : (rows.map (·.id)).Nodup
  readable : ∀ row ∈ rows, ∃ msg, row.toMessage = .ok msg

/-- Any number of agents on one table, which is at first as the condition says. -/
def messagesSystem (initial : List MessageRow → Prop) :
    System messageSignature Exn (List MessageRow) where
  Op := MessageOp
  Result := MessageOp.Result
  program := MessageOp.program
  step := MessageTable.step
  outside _ _ := False
  initial := initial

namespace MessageTable

variable {s s' : List MessageRow}

theorem mem_purge {now : Int} {row : MessageRow} :
    row ∈ purge now s ↔ row ∈ s ∧ ¬ row.expiresAt < now ∧ ¬ (row.isRead = true ∧
      row.createdAt < now - 5 * 60 * 1000) := by
  simp only [purge, List.mem_filter, expired, readLongAgo]
  rw [and_assoc]
  simp [imp_iff_not_or]

theorem Evicts.mem_of_mem {k : Nat} {kept : List MessageRow} (h : Evicts k s kept) {row : MessageRow}
    (hrow : row ∈ kept) : row ∈ s := by
  obtain ⟨victims, -, hperm, -⟩ := h
  exact hperm.subset (List.mem_append_right _ hrow)

theorem Evicts.length {k : Nat} {kept : List MessageRow} (h : Evicts k s kept) :
    kept.length = s.length - k := by
  obtain ⟨victims, hlength, hperm, -⟩ := h
  have hsum := hperm.length_eq
  rw [List.length_append] at hsum
  omega

theorem Evicts.of_not_mem {k : Nat} {kept : List MessageRow} (h : Evicts k s kept) {row : MessageRow}
    (hrow : row ∈ s) (hgone : row ∉ kept) :
    0 < k ∧ ∀ other ∈ kept, row.createdAt ≤ other.createdAt := by
  obtain ⟨victims, hlength, hperm, hold⟩ := h
  obtain hvictim | hkept := List.mem_append.mp (hperm.symm.subset hrow)
  · exact ⟨hlength ▸ List.length_pos_of_mem hvictim, hold row hvictim⟩
  · exact absurd hkept hgone

theorem Evicts.nodup {k : Nat} {kept : List MessageRow} (h : Evicts k s kept)
    (hs : (s.map (·.id)).Nodup) : (kept.map (·.id)).Nodup := by
  obtain ⟨victims, -, hperm, -⟩ := h
  have hall := (hperm.map (·.id)).nodup_iff.mpr hs
  rw [List.map_append] at hall
  exact (List.nodup_append.mp hall).2.1

theorem serve_of_ok {c : MessageCall} {v : c.Value} (h : step ⟨c, .ok v⟩ s s') :
    serve ⟨c, .ok v⟩ s s' := by
  obtain hserve | ⟨-, m, hm⟩ := h
  · exact hserve
  · cases hm

theorem same_of_error {c : MessageCall} {e : Exn} (h : step ⟨c, .error e⟩ s s') : s' = s := by
  obtain hserve | ⟨hsame, -⟩ := h
  · cases c with
    | timeMs => exact hserve.1
    | purge now => cases hserve.1
    | insertCapped row =>
      obtain ⟨kept, -, hif⟩ := hserve
      split_ifs at hif
      · exact hif.2
      · cases hif.1
    | selectFor agentId limit => exact hserve.1
    | markRead ids => cases hserve.1
  · exact hsame

theorem insertCapped_ok {row : MessageRow} {v : Unit} (h : step ⟨.insertCapped row, .ok v⟩ s s') :
    ∃ kept, Evicts (excess s) s kept ∧ row.id ∉ kept.map (·.id) ∧ s' = kept ++ [row] := by
  obtain ⟨kept, hevicts, hif⟩ := serve_of_ok h
  split_ifs at hif with hid
  · obtain ⟨⟨m, hm⟩, -⟩ := hif
    cases hm
  · exact ⟨kept, hevicts, hid, hif.2⟩

theorem step_insertCapped {row : MessageRow} {kept : List MessageRow} (hevicts : Evicts (excess s) s kept)
    (hid : row.id ∉ kept.map (·.id)) : step ⟨.insertCapped row, .ok ()⟩ s (kept ++ [row]) := by
  left
  refine ⟨kept, hevicts, ?_⟩
  rw [if_neg hid]
  exact ⟨rfl, rfl⟩

theorem mem_markRead {ids : List String} {row : MessageRow} :
    row ∈ markRead ids s ↔ (∃ x ∈ s, x.id ∈ ids ∧ { x with isRead := true } = row) ∨
      row ∈ s ∧ row.id ∉ ids := by
  rw [markRead, mem_updateWhere]
  simp

end MessageTable

end ForkAgent.Messages

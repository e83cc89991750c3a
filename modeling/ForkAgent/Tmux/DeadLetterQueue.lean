import ForkAgent.Python.Json

/-!
# The dead letter queue

Messages that could not be delivered wait in a bounded queue. `persist` drains the queue into a file
and `load` puts what a file holds back into it. The queue looks into no item: it is modelled for any
kind of item that can be written as JSON and read back.
-/

namespace ForkAgent.Tmux

/-- `queue.Queue`; with a maximum size of zero or less it has no bound. -/
structure Queue (Item : Type) where
  maxsize : Int
  items : List Item := []

namespace Queue

variable {Item : Type}

def full (q : Queue Item) : Bool := 0 < q.maxsize ∧ q.maxsize ≤ q.items.length

/-- `put_nowait`; there is no queue where it raises `Full`. -/
def putNowait (q : Queue Item) (item : Item) : Option (Queue Item) :=
  if q.full then none else some { q with items := q.items ++ [item] }

end Queue

structure DeadLetterItem where
  timestamp : String
  session : String
  window : Int
  message : JsonObject
  error : String
  attempts : Int
  deriving DecidableEq

namespace DeadLetterItem

/-- An item as `persist` writes it. -/
def dump (item : DeadLetterItem) : Json :=
  .obj [("timestamp", .float item.timestamp), ("session", .str item.session),
    ("window", .int item.window), ("message", .obj item.message), ("error", .str item.error),
    ("attempts", .int item.attempts)]

/-- `item[name]`, at the type that the field was written with. -/
def field {α : Type} (data : JsonObject) (name : String) (read : Json → Option α) : Except Exn α := do
  let value ← data.item name
  match read value with
  | some a => return a
  | none => throw (.typeError name)

/-- An item as `load` reads it. -/
def load : Json → Except Exn DeadLetterItem
  | .obj data => do
    let timestamp ← field data "timestamp" fun | .float text => some text | _ => none
    let session ← field data "session" fun | .str s => some s | _ => none
    let window ← field data "window" fun | .int n => some n | _ => none
    let message ← field data "message" fun | .obj fields => some fields | _ => none
    let error ← field data "error" fun | .str s => some s | _ => none
    let attempts ← field data "attempts" fun | .int n => some n | _ => none
    return { timestamp, session, window, message, error, attempts }
  | _ => .error (.typeError "indices must be strings")

theorem load_dump (item : DeadLetterItem) : load item.dump = .ok item := rfl

end DeadLetterItem

/-- How an item is written into a file and read back. -/
structure ItemCodec (Item Data : Type) where
  dump : Item → Data
  load : Data → Except Exn Item
  load_dump : ∀ item, load (dump item) = .ok item

def DeadLetterItem.codec : ItemCodec DeadLetterItem Json := ⟨dump, load, load_dump⟩

/-- A file of dead letters. What is not a JSON list is damaged. -/
inductive PersistFile (Data : Type) where
  | missing
  | damaged
  | json (data : List Data)

/-- How writing a file goes: it cannot be opened, or the writing stops in the middle. -/
inductive Writing where
  | done
  | notOpened (e : Exn)
  | interrupted (e : Exn)

/-- The queue with the files that it can be persisted to. -/
structure DeadLetterQueue (Item Data : Type) where
  queue : Queue Item
  persistPath : Option String := none
  files : String → PersistFile Data

namespace DeadLetterQueue

variable {Item Data : Type} (codec : ItemCodec Item Data) (d : DeadLetterQueue Item Data)

/-- An item that does not fit is dropped. -/
def put (item : Item) : DeadLetterQueue Item Data :=
  match d.queue.putNowait item with
  | some queue => { d with queue }
  | none => d

/-- The item that `add` is given by its fields, with the time. -/
def add (item : Item) : DeadLetterQueue Item Data := d.put item

def requeue (item : Item) : DeadLetterQueue Item Data := d.put item

def get : Option Item × DeadLetterQueue Item Data :=
  match d.queue.items with
  | [] => (none, d)
  | item :: items => (some item, { d with queue := { d.queue with items } })

def getAll : List Item × DeadLetterQueue Item Data :=
  (d.queue.items, { d with queue := { d.queue with items := [] } })

/-- The queue is drained before the file is opened. -/
def persist (path : Option String) (writing : Writing) :
    Except Exn Unit × DeadLetterQueue Item Data :=
  match path.or d.persistPath with
  | none => (.ok (), d)
  | some p =>
    let (items, d) := d.getAll
    match writing with
    | .done => (.ok (), { d with files := Function.update d.files p (.json (items.map codec.dump)) })
    | .notOpened e => (.error e, d)
    | .interrupted e => (.error e, { d with files := Function.update d.files p .damaged })

/-- The loop of `load`, with the count of what was put. -/
def loadItems : List Data → Queue Item → Except Exn Nat × Queue Item
  | [], q => (.ok 0, q)
  | data :: rest, q =>
    match codec.load data with
    | .error e => (.error e, q)
    | .ok item =>
      match q.putNowait item with
      | none => (.ok 0, q)
      | some q =>
        let (count, q) := loadItems rest q
        (count.map (· + 1), q)

/-- The file is left as it is. -/
def load (path : Option String) : Except Exn Nat × DeadLetterQueue Item Data :=
  match path.or d.persistPath with
  | none => (.ok 0, d)
  | some p =>
    match d.files p with
    | .missing => (.ok 0, d)
    | .damaged => (.error (.jsonDecodeError "Expecting value"), d)
    | .json data =>
      let (count, queue) := loadItems codec data d.queue
      (count, { d with queue })

end DeadLetterQueue

inductive Command (Item : Type) where
  | add (item : Item)
  | requeue (item : Item)
  | get
  | getAll
  | persist (path : Option String) (writing : Writing)
  | load (path : Option String)

namespace Command

variable {Item Data : Type}

/-- What a command hands out, and the queue after it. -/
def run (codec : ItemCodec Item Data) (d : DeadLetterQueue Item Data) :
    Command Item → List Item × DeadLetterQueue Item Data
  | .add item => ([], d.add item)
  | .requeue item => ([], d.requeue item)
  | .get => (d.get.1.toList, d.get.2)
  | .getAll => d.getAll
  | .persist path writing => ([], (d.persist codec path writing).2)
  | .load path => ([], (d.load codec path).2)

/-- The item that a command puts into the queue. -/
def puts : Command Item → Option Item
  | .add item | .requeue item => some item
  | _ => none

/-- The command takes items out for a consumer. -/
def Gets : Command Item → Prop
  | .get | .getAll => True
  | _ => False

/-- The command persists to this path and loads from it, if it does either. -/
def OnPath (persistPath : Option String) (p : String) : Command Item → Prop
  | .persist path _ | .load path => path.or persistPath = some p
  | _ => True

end Command

section Example

def letterA : DeadLetterItem :=
  { timestamp := "1.5", session := "s1", window := 0, message := [], error := "e1", attempts := 1 }

def letterB : DeadLetterItem := { letterA with session := "s2" }

/-- A file outlives the queue: another queue loads what was persisted. -/
example : ((Command.load none).run DeadLetterItem.codec
    { (((Command.persist none .done).run DeadLetterItem.codec
        (({ queue := { maxsize := 1000 }, persistPath := some "dlq.json", files := fun _ => .missing } :
          DeadLetterQueue DeadLetterItem Json).add letterA)).2) with
      queue := { maxsize := 1000 } }).2.queue.items = [letterA] := rfl

end Example

end ForkAgent.Tmux

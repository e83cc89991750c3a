import ForkAgent.Python.Json

/-!
# Formats of JSON documents

A format says in which ways a value may stand in a document, and it reads back what is written in
any of them. A reader that has a default for a field reads an object without it too.
-/

namespace ForkAgent

/-- The ways in which the values of a type may be written as JSON, and how they are read. -/
structure JsonFormat (α : Type) where
  Writes : α → Json → Prop
  read : Json → Except Exn α
  read_of_writes : ∀ {a : α} {j : Json}, Writes a j → read j = .ok a

/-- A list of strings. -/
def Json.ofTexts (items : List String) : Json := .arr (items.map .str)

/-- An integer, or null for `None`. -/
def Json.ofInt : Option Int → Json
  | none => .null
  | some n => .int n

/-- What answers a value of another type than the reader declares. -/
def Json.unexpected (expected : String) (j : Json) : Exn :=
  .typeError (expected ++ " expected, not " ++ j.typeName)

namespace JsonFormat

variable {α : Type}

def text : JsonFormat String where
  Writes s j := j = .str s
  read
    | .str s => .ok s
    | j => .error (j.unexpected "str")
  read_of_writes := by
    intro s j h
    rw [h]

def integer : JsonFormat Int where
  Writes n j := j = .int n
  read
    | .int n => .ok n
    | j => .error (j.unexpected "int")
  read_of_writes := by
    intro n j h
    rw [h]

def boolean : JsonFormat Bool where
  Writes b j := j = .bool b
  read
    | .bool b => .ok b
    | j => .error (j.unexpected "bool")
  read_of_writes := by
    intro b j h
    rw [h]

/-- An object that is kept as it is. -/
def object : JsonFormat JsonObject where
  Writes fields j := j = .obj fields
  read
    | .obj fields => .ok fields
    | j => .error (j.unexpected "dict")
  read_of_writes := by
    intro fields j h
    rw [h]

theorem text_ne_null (s : String) : ¬ text.Writes s .null := by
  intro h
  cases h

theorem object_ne_null (fields : JsonObject) : ¬ object.Writes fields .null := by
  intro h
  cases h

/-- A member of an enumeration, looked up by its value. -/
def member (name : String) (value : α → String) (members : List α)
    (hmembers : ∀ a, members.find? (value · == value a) = some a) : JsonFormat α where
  Writes a j := j = .str (value a)
  read
    | .str s =>
      match members.find? (value · == s) with
      | some a => .ok a
      | none => .error (.valueError ("'" ++ s ++ "' is not a valid " ++ name))
    | j => .error (j.unexpected "str")
  read_of_writes := by
    intro a j h
    rw [h]
    simp only [hmembers a]

/-- A value that may be null. -/
def nullable (format : JsonFormat α) (hnull : ∀ a, ¬ format.Writes a .null) : JsonFormat (Option α) where
  Writes
    | none, j => j = .null
    | some a, j => format.Writes a j
  read
    | .null => .ok none
    | j => some <$> format.read j
  read_of_writes := by
    intro a j h
    cases a with
    | none => rw [show j = .null from h]
    | some a =>
      have hread : format.read j = .ok a := format.read_of_writes h
      cases j with
      | null => exact absurd h (hnull a)
      | _ => simp only [hread]; rfl

def list (format : JsonFormat α) : JsonFormat (List α) where
  Writes as j := ∃ items, j = .arr items ∧ List.Forall₂ format.Writes as items
  read
    | .arr items => items.mapM format.read
    | j => .error (j.unexpected "list")
  read_of_writes := by
    intro as j ⟨items, hj, hitems⟩
    rw [hj]
    refine mapM_eq_ok.mpr (List.Forall₂.flip (hitems.imp ?_))
    intro a item h
    exact format.read_of_writes h

/-- The values of an object under their names. -/
def dict (format : JsonFormat α) : JsonFormat (List (String × α)) where
  Writes entries j := ∃ fields, j = .obj fields ∧
    List.Forall₂ (fun entry field => field.1 = entry.1 ∧ format.Writes entry.2 field.2) entries fields
  read
    | .obj fields => fields.mapM fun field => do
      let a ← format.read field.2
      return (field.1, a)
    | j => .error (j.unexpected "dict")
  read_of_writes := by
    intro entries j ⟨fields, hj, hfields⟩
    rw [hj]
    refine mapM_eq_ok.mpr (List.Forall₂.flip (hfields.imp ?_))
    intro entry field ⟨hname, hwrites⟩
    show (format.read field.2 >>= fun a => .ok (field.1, a)) = .ok entry
    rw [format.read_of_writes hwrites, hname]
    rfl

theorem list_writes (format : JsonFormat α) {encode : α → Json} (h : ∀ a, format.Writes a (encode a))
    (as : List α) : (list format).Writes as (.arr (as.map encode)) := by
  refine ⟨_, rfl, ?_⟩
  induction as with
  | nil => exact .nil
  | cons a as ih => exact .cons (h a) ih

theorem dict_writes (format : JsonFormat α) {encode : α → Json} (h : ∀ a, format.Writes a (encode a))
    (entries : List (String × α)) :
    (dict format).Writes entries (.obj (entries.map fun (name, a) => (name, encode a))) := by
  refine ⟨_, rfl, ?_⟩
  induction entries with
  | nil => exact .nil
  | cons entry entries ih => exact .cons ⟨rfl, h entry.2⟩ ih

end JsonFormat

namespace JsonObject

variable {α : Type} (format : JsonFormat α) (name : String) (default a : α) (fields : JsonObject)

/-- Read `obj[name]`. -/
def read : Except Exn α := fields.item name >>= format.read

/-- Read `obj.get(name, default)`. -/
def readD : Except Exn α :=
  match fields.lookup name with
  | none => .ok default
  | some j => format.read j

/-- The value stands under this name. -/
def Holds : Prop := ∃ j, fields.lookup name = some j ∧ format.Writes a j

/-- The value stands under this name, or it is the default and the name is missing. -/
def HoldsD : Prop := fields.Holds format name a ∨ fields.lookup name = none ∧ a = default

variable {format name default a fields}

theorem Holds.read (h : fields.Holds format name a) : fields.read format name = .ok a := by
  obtain ⟨j, hlookup, hwrites⟩ := h
  unfold JsonObject.read item
  rw [hlookup]
  exact format.read_of_writes hwrites

theorem HoldsD.readD (h : fields.HoldsD format name default a) :
    fields.readD format name default = .ok a := by
  unfold JsonObject.readD
  obtain ⟨j, hlookup, hwrites⟩ | ⟨hlookup, ha⟩ := h
  · rw [hlookup]
    exact format.read_of_writes hwrites
  · rw [hlookup, ha]

end JsonObject

end ForkAgent

import ForkAgent.Python.JsonText

/-!
# Values and their JSON text

A value as Python has it, and what `json.loads` reads from the text that `json.dumps` writes of it:
tuples come back as lists, keys as strings, and of two keys with the same text the last one counts.
-/

namespace ForkAgent

/-- A key of a dictionary; of a key that JSON does not have only the name of its type counts. -/
inductive PyKey where
  | none
  | bool (b : Bool)
  | int (n : Int)
  | float (text : String)
  | str (s : String)
  | other (typeName : String)

inductive PyValue where
  | none
  | bool (b : Bool)
  | int (n : Int)
  | float (text : String)
  | str (s : String)
  | list (items : List PyValue)
  | tuple (items : List PyValue)
  | dict (fields : List (PyKey × PyValue))
  | other (typeName : String)

/-- `int.__repr__`, which refuses very long numbers. -/
def intText (n : Int) : Except Exn String :=
  if n.natAbs < 10 ^ maxStrDigits then .ok (toString n)
  else .error (.valueError
    s!"Exceeds the limit ({maxStrDigits} digits) for integer string conversion")

/-- The name of the field that a key becomes. -/
def PyKey.text : PyKey → Except Exn String
  | .none => .ok "null"
  | .bool b => .ok (if b then "true" else "false")
  | .int n => intText n
  | .float text => .ok text
  | .str s => .ok s
  | .other typeName =>
    .error (.typeError s!"keys must be str, int, float, bool or None, not {typeName}")

namespace PyValue

mutual

/-- `json.loads(json.dumps(value))`. -/
def image : PyValue → Except Exn Json
  | .none => .ok .null
  | .bool b => .ok (.bool b)
  | .int n => do
    let _ ← intText n
    return .int n
  | .float text => .ok (.float text)
  | .str s => .ok (.str s)
  | .list items => do
    let images ← imageItems items
    return .arr images
  | .tuple items => do
    let images ← imageItems items
    return .arr images
  | .dict fields => do
    let images ← imageFields fields []
    return .obj images
  | .other typeName => .error (.typeError s!"Object of type {typeName} is not JSON serializable")

def imageItems : List PyValue → Except Exn (List Json)
  | [] => .ok []
  | item :: items => do
    let first ← image item
    let rest ← imageItems items
    return first :: rest

/-- The fields of a dictionary, after those that have been read. -/
def imageFields : List (PyKey × PyValue) → JsonObject → Except Exn JsonObject
  | [], read => .ok read
  | (key, value) :: fields, read => do
    let name ← key.text
    let first ← image value
    imageFields fields (read.set name first)

end

mutual

/-- A JSON value as `json.loads` builds it. -/
def ofJson : Json → PyValue
  | .null => .none
  | .bool b => .bool b
  | .int n => .int n
  | .float text => .float text
  | .str s => .str s
  | .arr items => .list (ofItems items)
  | .obj fields => .dict (ofFields fields)

def ofItems : List Json → List PyValue
  | [] => []
  | item :: items => ofJson item :: ofItems items

def ofFields : List (String × Json) → List (PyKey × PyValue)
  | [] => []
  | (name, value) :: fields => (.str name, ofJson value) :: ofFields fields

end

end PyValue

namespace Json

mutual

/-- A JSON value that can be written: no object has two fields of one name, no number is too long. -/
def Writable : Json → Prop
  | .null | .bool _ | .float _ | .str _ => True
  | .int n => n.natAbs < 10 ^ maxStrDigits
  | .arr items => WritableItems items
  | .obj fields => (fields.map Prod.fst).Nodup ∧ WritableFields fields

def WritableItems : List Json → Prop
  | [] => True
  | item :: items => Writable item ∧ WritableItems items

def WritableFields : List (String × Json) → Prop
  | [] => True
  | (_, value) :: fields => Writable value ∧ WritableFields fields

end

end Json

theorem JsonObject.set_of_not_mem {fields : JsonObject} {name : String} {value : Json}
    (h : name ∉ fields.map Prod.fst) : fields.set name value = fields ++ [(name, value)] := by
  induction fields with
  | nil => rfl
  | cons field fields ih =>
    obtain ⟨hne, hrest⟩ := not_or.mp (mt List.mem_cons.mpr h)
    rw [JsonObject.set, if_neg (Ne.symm hne), ih hrest]
    rfl

namespace PyValue

mutual

theorem image_ofJson (j : Json) (h : j.Writable) : image (ofJson j) = .ok j := by
  cases j with
  | null => rfl
  | bool b => rfl
  | int n =>
    have hlen : n.natAbs < 10 ^ maxStrDigits := by simpa [Json.Writable] using h
    simp only [ofJson, image, intText, if_pos hlen]
    rfl
  | float text => rfl
  | str s => rfl
  | arr items =>
    have hitems : Json.WritableItems items := by simpa [Json.Writable] using h
    simp only [ofJson, image, imageItems_ofItems items hitems]
    rfl
  | obj fields =>
    obtain ⟨hnames, hfields⟩ : (fields.map Prod.fst).Nodup ∧ Json.WritableFields fields := by
      simpa [Json.Writable] using h
    simp only [ofJson, image, imageFields_ofFields fields [] hfields hnames]
    rfl

theorem imageItems_ofItems (items : List Json) (h : Json.WritableItems items) :
    imageItems (ofItems items) = .ok items := by
  match items with
  | [] => rfl
  | item :: items =>
    obtain ⟨hitem, hitems⟩ : Json.Writable item ∧ Json.WritableItems items := by
      simpa [Json.WritableItems] using h
    simp only [ofItems, imageItems, image_ofJson item hitem, imageItems_ofItems items hitems]
    rfl

theorem imageFields_ofFields (fields : List (String × Json)) (read : JsonObject)
    (h : Json.WritableFields fields) (hnames : ((read ++ fields).map Prod.fst).Nodup) :
    imageFields (ofFields fields) read = .ok (read ++ fields) := by
  match fields with
  | [] => simp [ofFields, imageFields]
  | (name, value) :: fields =>
    obtain ⟨hvalue, hfields⟩ : Json.Writable value ∧ Json.WritableFields fields := by
      simpa [Json.WritableFields] using h
    have hnew : name ∉ read.map Prod.fst := by
      intro hmem
      rw [List.map_append, List.nodup_append] at hnames
      exact hnames.2.2 name hmem name (by simp) rfl
    have hsplit : read ++ (name, value) :: fields = read ++ [(name, value)] ++ fields := by simp
    rw [hsplit] at hnames ⊢
    rw [← JsonObject.set_of_not_mem hnew] at hnames ⊢
    simp only [ofFields, imageFields, PyKey.text, image_ofJson value hvalue]
    exact imageFields_ofFields fields _ hfields hnames

end

end PyValue

end ForkAgent

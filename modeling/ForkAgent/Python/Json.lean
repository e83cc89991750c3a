import ForkAgent.Python.Basic

/-!
# JSON values

`json.loads` and `json.dumps` are the host language's own; a development that needs no more than
their signatures takes them from a `JsonLib`. Objects keep their fields in the order they have.
-/

namespace ForkAgent

/-- A JSON value. A number that is not an integer is kept as its text. -/
inductive Json where
  | null
  | bool (b : Bool)
  | int (n : Int)
  | float (text : String)
  | str (s : String)
  | arr (items : List Json)
  | obj (fields : List (String × Json))

namespace Json

mutual

/-- Whether two values are the same, names of fields in order. -/
def same : Json → Json → Bool
  | null, null => true
  | bool b, bool c => b == c
  | int n, int k => n == k
  | float s, float t => s == t
  | str s, str t => s == t
  | arr xs, arr ys => sameItems xs ys
  | obj xs, obj ys => sameFields xs ys
  | _, _ => false

def sameItems : List Json → List Json → Bool
  | [], [] => true
  | x :: xs, y :: ys => same x y && sameItems xs ys
  | _, _ => false

def sameFields : List (String × Json) → List (String × Json) → Bool
  | [], [] => true
  | (m, x) :: xs, (n, y) :: ys => m == n && same x y && sameFields xs ys
  | _, _ => false

end

mutual

theorem same_iff (x y : Json) : same x y = true ↔ x = y := by
  cases x <;> cases y <;> simp [same, sameItems_iff, sameFields_iff]

theorem sameItems_iff (xs ys : List Json) : sameItems xs ys = true ↔ xs = ys := by
  match xs, ys with
  | [], [] => simp [sameItems]
  | [], _ :: _ => simp [sameItems]
  | _ :: _, [] => simp [sameItems]
  | x :: xs, y :: ys => simp [sameItems, same_iff x y, sameItems_iff xs ys]

theorem sameFields_iff (xs ys : List (String × Json)) : sameFields xs ys = true ↔ xs = ys := by
  match xs, ys with
  | [], [] => simp [sameFields]
  | [], _ :: _ => simp [sameFields]
  | _ :: _, [] => simp [sameFields]
  | (m, x) :: xs, (n, y) :: ys =>
    simp [sameFields, same_iff x y, sameFields_iff xs ys, and_assoc]

end

instance : DecidableEq Json := fun x y => decidable_of_iff (same x y = true) (same_iff x y)

end Json

/-- A JSON object; no name occurs twice. -/
abbrev JsonObject := List (String × Json)

/-- `obj.get(name)`; a name that is missing reads as null. -/
def JsonObject.get (fields : JsonObject) (name : String) : Json := (fields.lookup name).getD .null

/-- `obj.get(name, default)`. -/
def JsonObject.getD (fields : JsonObject) (name : String) (default : Json) : Json :=
  (fields.lookup name).getD default

/-- `obj[name]`. -/
def JsonObject.item (fields : JsonObject) (name : String) : Except Exn Json :=
  match fields.lookup name with
  | some value => .ok value
  | none => .error (.keyError s!"'{name}'")

/-- A string, or null for `None`. -/
def Json.ofText : Option String → Json
  | none => .null
  | some s => .str s

/-- `type(value).__name__`. -/
def Json.typeName : Json → String
  | .null => "NoneType"
  | .bool _ => "bool"
  | .int _ => "int"
  | .float _ => "float"
  | .str _ => "str"
  | .arr _ => "list"
  | .obj _ => "dict"

/-- `bool(value)`. -/
def Json.truthy : Json → Bool
  | .null => false
  | .bool b => b
  | .int n => n ≠ 0
  | .float text => text ≠ "0.0" ∧ text ≠ "-0.0"
  | .str s => s ≠ ""
  | .arr items => !items.isEmpty
  | .obj fields => !fields.isEmpty

/-- `json.loads`, and `json.dumps(sort_keys=True, separators=(",", ":"))`. -/
structure JsonLib where
  loads : String → Except Exn Json
  dumps : Json → Except Exn String

end ForkAgent

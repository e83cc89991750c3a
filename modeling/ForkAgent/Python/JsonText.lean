import ForkAgent.Python.Json
import Mathlib.Algebra.GroupWithZero.Nat

/-!
# The text of a JSON value

What `json.dumps` writes by default: a comma and a blank between the items, a colon and a blank after a
name, and nothing beyond ASCII.
-/

namespace ForkAgent

namespace Json

section Strings

def quotationMark : Char := Char.ofNat 0x22

def backslash : Char := Char.ofNat 0x5c

/-- Four digits of base 16. -/
def hexDigits (n : Nat) : List Char :=
  [n / 0x1000 % 16, n / 0x100 % 16, n / 0x10 % 16, n % 16].map Nat.digitChar

def escapeUnit (n : Nat) : List Char := backslash :: 'u' :: hexDigits n

/-- A character within a string; one beyond the basic plane is written as two surrogates. -/
def escape (c : Char) : List Char :=
  let n := c.toNat
  if c = quotationMark ∨ c = backslash then [backslash, c]
  else if n = 0x0a then [backslash, 'n']
  else if n = 0x0d then [backslash, 'r']
  else if n = 0x09 then [backslash, 't']
  else if n = 0x0c then [backslash, 'f']
  else if n = 0x08 then [backslash, 'b']
  else if 0x20 ≤ n ∧ n ≤ 0x7e then [c]
  else if n < 0x10000 then escapeUnit n
  else escapeUnit (0xd800 + (n - 0x10000) / 0x400 % 0x400) ++ escapeUnit (0xdc00 + (n - 0x10000) % 0x400)

def dumpsStr (s : String) : List Char := quotationMark :: (s.toList.flatMap escape ++ [quotationMark])

end Strings

mutual

/-- `json.dumps(value)`. -/
def dumps : Json → List Char
  | null => "null".toList
  | bool b => if b then "true".toList else "false".toList
  | int n => (toString n).toList
  | float text => text.toList
  | str s => dumpsStr s
  | arr items => '[' :: (dumpsItems items ++ [']'])
  | obj fields => Char.ofNat 0x7b :: (dumpsFields fields ++ [Char.ofNat 0x7d])

def dumpsItems : List Json → List Char
  | [] => []
  | value :: values => dumps value ++ (if values.isEmpty then [] else ", ".toList) ++ dumpsItems values

def dumpsFields : List (String × Json) → List Char
  | [] => []
  | (key, value) :: fields =>
    dumpsStr key ++ ": ".toList ++ dumps value ++ (if fields.isEmpty then [] else ", ".toList) ++ dumpsFields fields

end

theorem length_dumpsItems (values : List Json) :
    (dumpsItems values).length = (values.map fun value => (dumps value).length).sum + 2 * (values.length - 1) := by
  induction values with
  | nil => rfl
  | cons value values ih =>
    rw [dumpsItems, List.length_append, List.length_append, ih]
    cases values with
    | nil => simp
    | cons value' values =>
      simp only [List.isEmpty_cons, Bool.false_eq_true, if_false, List.map_cons, List.sum_cons, List.length_cons]
      have hseparator : ", ".toList.length = 2 := rfl
      omega

theorem length_dumps_arr (values : List Json) : (dumps (.arr values)).length =
    2 + ((values.map fun value => (dumps value).length).sum + 2 * (values.length - 1)) := by
  rw [dumps, List.length_cons, List.length_append, length_dumpsItems, List.length_singleton]
  omega

end Json

/-- `obj[name] = value`. -/
def JsonObject.set (fields : JsonObject) (name : String) (value : Json) : JsonObject :=
  match fields with
  | [] => [(name, value)]
  | (key, old) :: rest => if key = name then (name, value) :: rest else (key, old) :: JsonObject.set rest name value

/-- `obj.setdefault(name, value)`. -/
def JsonObject.setdefault (fields : JsonObject) (name : String) (value : Json) : JsonObject :=
  if (fields.lookup name).isSome then fields else fields.set name value

namespace JsonObject

variable {fields : JsonObject} {name other : String} {value : Json}

theorem lookup_cons_self {rest : JsonObject} : ((name, value) :: rest : JsonObject).lookup name = some value := by
  simp

theorem lookup_cons_of_ne {rest : JsonObject} (hne : other ≠ name) :
    ((name, value) :: rest : JsonObject).lookup other = rest.lookup other := by
  rw [List.lookup_cons, beq_false_of_ne hne]

@[simp] theorem lookup_set_self : (fields.set name value).lookup name = some value := by
  induction fields with
  | nil => exact lookup_cons_self
  | cons field fields ih =>
    rw [set]
    split_ifs with hkey
    · exact lookup_cons_self
    · rw [lookup_cons_of_ne (Ne.symm hkey), ih]

theorem lookup_set_of_ne (hne : other ≠ name) : (fields.set name value).lookup other = fields.lookup other := by
  induction fields with
  | nil => exact lookup_cons_of_ne hne
  | cons field fields ih =>
    obtain ⟨key, old⟩ := field
    rw [set]
    split_ifs with hkey
    · subst hkey
      rw [lookup_cons_of_ne hne, lookup_cons_of_ne hne]
    · rw [List.lookup_cons, List.lookup_cons, ih]

theorem setdefault_of_mem (h : (fields.lookup name).isSome) : fields.setdefault name value = fields := by
  simp [setdefault, h]

end JsonObject

end ForkAgent

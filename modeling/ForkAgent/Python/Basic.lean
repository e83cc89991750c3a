import Mathlib.Data.List.Forall2

/-!
# Exceptions, dataclasses and strings of the host language

The exceptions are those the modelled code raises or distinguishes. A dataclass whose
`__post_init__` raises on an invalid value is the subtype of the values it accepts, so that an
instance carries the proof that it passed.
-/

namespace ForkAgent

/-- The exceptions that cross a modelled function. -/
inductive Exn where
  | valueError (message : String)
  | typeError (message : String)
  | taskTransitionError (message : String)
  | repositoryError (message : String)
  | serviceError (message : String)
  | observationNotFoundError (message : String)
  | sessionNotFoundError (message : String)
  | integrityError (message : String)
  | operationalError (message : String)
  | jsonDecodeError (message : String)
  | keyError (message : String)
  | runtimeError (message : String)
  | osError (message : String)
  | fileNotFoundError (message : String)
  | processLookupError (message : String)
  | timeoutExpired (message : String)
  | attributeError (message : String)
  | phaseSkipError (message : String)
  | gitError (message : String)
  | workspaceNotFoundError (message : String)
  | workspaceNotCleanError (message : String)
  | hookExecutionError (message : String)
  | overflowError (message : String)
  | migrationLoadError (message : String)
  | migrationAlreadyAppliedError (message : String)
  | unsupportedSchemaError (message : String)
  | exit (message : String)
  | other (message : String)
  deriving DecidableEq, Repr

/-- `str(e)`. -/
def Exn.message : Exn → String
  | .valueError m | .typeError m | .taskTransitionError m | .repositoryError m | .serviceError m |
    .observationNotFoundError m | .sessionNotFoundError m | .integrityError m | .operationalError m |
    .jsonDecodeError m | .keyError m | .runtimeError m | .osError m | .fileNotFoundError m |
    .processLookupError m | .timeoutExpired m | .attributeError m | .phaseSkipError m | .gitError m |
    .workspaceNotFoundError m | .workspaceNotCleanError m | .hookExecutionError m |
    .overflowError m | .migrationLoadError m | .migrationAlreadyAppliedError m |
    .unsupportedSchemaError m | .exit m | .other m => m

/-- Instances of `ValueError`, its subclasses included. -/
def Exn.isValueError : Exn → Bool
  | .valueError _ | .taskTransitionError _ | .jsonDecodeError _ => true
  | _ => false

/-- Instances of `OSError`, its subclasses included. -/
def Exn.isOSError : Exn → Bool
  | .osError _ | .fileNotFoundError _ | .processLookupError _ => true
  | _ => false

/-- The values that a `__post_init__` accepts. -/
def Validated {α : Type} (postInit : α → Except Exn Unit) : Type := { a : α // postInit a = .ok () }

/-- Call the constructor of a dataclass. -/
def construct {α : Type} (postInit : α → Except Exn Unit) (a : α) :
    Except Exn (Validated postInit) :=
  match h : postInit a with
  | .ok () => .ok ⟨a, h⟩
  | .error e => .error e

theorem construct_eq_ok {α : Type} {postInit : α → Except Exn Unit} {a : α}
    {v : Validated postInit} : construct postInit a = .ok v ↔ v.val = a := by
  unfold construct
  constructor
  · split
    · intro h; cases h; rfl
    · intro h; cases h
  · rintro rfl
    split
    · rfl
    · next e h => rw [v.property] at h; cases h

theorem construct_of_postInit {α : Type} {postInit : α → Except Exn Unit} {a : α}
    (h : postInit a = .ok ()) : construct postInit a = .ok ⟨a, h⟩ := construct_eq_ok.mpr rfl

theorem construct_of_error {α : Type} {postInit : α → Except Exn Unit} {a : α} {e : Exn}
    (h : postInit a = .error e) : construct postInit a = .error e := by
  cases hc : construct postInit a with
  | ok v =>
    have hval := v.property
    rw [construct_eq_ok.mp hc, h] at hval
    cases hval
  | error e' =>
    unfold construct at hc
    split at hc
    · cases hc
    · next e'' he =>
      cases hc
      rw [h] at he
      cases he
      rfl

theorem mapM_construct_eq_some {α β : Type} {postInit : β → Except Exn Unit} {row : Option α}
    {f : α → β} {v : Validated postInit} :
    (row.mapM fun a => construct postInit (f a)) = .ok (some v) ↔
      ∃ a, row = some a ∧ v.val = f a := by
  cases row with
  | none => exact ⟨fun h => (by cases h), fun ⟨a, h, _⟩ => (by cases h)⟩
  | some a =>
    have hconstruct : (Option.mapM (fun a => construct postInit (f a)) (some a) = .ok (some v)) ↔
        construct postInit (f a) = .ok v := by
      cases hc : construct postInit (f a) <;> simp [hc]
    rw [hconstruct, construct_eq_ok]
    simp

/-- A check of a `__post_init__`: raise unless the condition holds. -/
def require (condition : Bool) (e : Exn) : Except Exn Unit := if condition then .ok () else .error e

@[simp] theorem require_eq_ok {condition : Bool} {e : Exn} {u : Unit} :
    require condition e = .ok u ↔ condition = true := by
  cases condition <;> simp [require]

theorem eq_of_require_eq_error {condition : Bool} {e e' : Exn} (h : require condition e = .error e') : e' = e := by
  cases condition
  · cases h
    rfl
  · cases h

theorem bind_eq_error {α β : Type} {x : Except Exn α} {f : α → Except Exn β} {e : Exn} :
    (x >>= f) = .error e ↔ x = .error e ∨ ∃ a, x = .ok a ∧ f a = .error e := by
  cases x with
  | error e' =>
    constructor
    · intro h
      cases h
      exact .inl rfl
    · rintro (h | ⟨a, h, -⟩)
      · cases h
        rfl
      · cases h
  | ok a =>
    refine ⟨fun h => .inr ⟨a, rfl, h⟩, ?_⟩
    rintro (h | ⟨b, h, hf⟩)
    · cases h
    · cases h
      exact hf

theorem bind_eq_ok {α β : Type} {x : Except Exn α} {f : α → Except Exn β} {b : β} :
    (x >>= f) = .ok b ↔ ∃ a, x = .ok a ∧ f a = .ok b := by
  cases x with
  | error e => exact ⟨fun h => (by cases h), fun ⟨_, h, _⟩ => (by cases h)⟩
  | ok a => exact ⟨fun h => ⟨a, rfl, h⟩, fun ⟨_, h, hf⟩ => by cases h; exact hf⟩

section MapM

variable {α β : Type} {f : α → Except Exn β} {as : List α} {bs : List β}

theorem mapM_eq_ok : as.mapM f = .ok bs ↔ List.Forall₂ (fun a b => f a = .ok b) as bs := by
  induction as generalizing bs with
  | nil =>
    constructor
    · intro h
      cases h
      exact .nil
    · intro h
      cases h
      rfl
  | cons a as ih =>
    rw [List.mapM_cons, bind_eq_ok]
    constructor
    · rintro ⟨b, hb, hrest⟩
      obtain ⟨more, hmore, heq⟩ := bind_eq_ok.mp hrest
      cases heq
      exact .cons hb (ih.mp hmore)
    · intro h
      cases h with
      | cons hb hmore => exact ⟨_, hb, bind_eq_ok.mpr ⟨_, ih.mpr hmore, rfl⟩⟩

theorem exists_mapM_eq_ok (h : ∀ a ∈ as, ∃ b, f a = .ok b) : ∃ bs, as.mapM f = .ok bs := by
  induction as with
  | nil => exact ⟨[], rfl⟩
  | cons a as ih =>
    rw [List.forall_mem_cons] at h
    obtain ⟨b, hb⟩ := h.1
    obtain ⟨bs, hbs⟩ := ih h.2
    exact ⟨b :: bs, mapM_eq_ok.mpr (.cons hb (mapM_eq_ok.mp hbs))⟩

theorem mem_of_mapM_eq_error {e : Exn} (h : as.mapM f = .error e) : ∃ a ∈ as, f a = .error e := by
  by_contra hnone
  simp only [not_exists, not_and] at hnone
  induction as with
  | nil => cases h
  | cons a as ih =>
    rw [List.forall_mem_cons] at hnone
    rw [List.mapM_cons] at h
    cases ha : f a with
    | error e' =>
      rw [ha] at h
      cases h
      exact hnone.1 ha
    | ok b =>
      rw [ha] at h
      cases has : as.mapM f with
      | error e' =>
        rw [has] at h
        cases h
        exact ih has hnone.2
      | ok bs =>
        rw [has] at h
        cases h

variable {R : α → β → Prop}

theorem forall₂_exists_right {a : α} (h : List.Forall₂ R as bs) (ha : a ∈ as) : ∃ b ∈ bs, R a b := by
  obtain ⟨i, hi, rfl⟩ := List.getElem_of_mem ha
  obtain ⟨hlength, hread⟩ := List.forall₂_iff_get.mp h
  exact ⟨bs[i], List.getElem_mem (hlength ▸ hi), hread i hi (hlength ▸ hi)⟩

theorem forall₂_exists_left {b : β} (h : List.Forall₂ R as bs) (hb : b ∈ bs) : ∃ a ∈ as, R a b := by
  obtain ⟨i, hi, rfl⟩ := List.getElem_of_mem hb
  obtain ⟨hlength, hread⟩ := List.forall₂_iff_get.mp h
  exact ⟨as[i], List.getElem_mem (hlength ▸ hi), hread i (hlength ▸ hi) hi⟩

theorem listMapM_construct_eq_ok {postInit : α → Except Exn Unit} {vs : List (Validated postInit)}
    (h : as.mapM (construct postInit) = .ok vs) : vs.map (·.val) = as := by
  induction mapM_eq_ok.mp h with
  | nil => rfl
  | cons hhead htail ih => rw [List.map_cons, construct_eq_ok.mp hhead, ih (mapM_eq_ok.mpr htail)]

end MapM

/-- `str.isspace` of one character. -/
def isSpace (c : Char) : Bool :=
  let n := c.toNat
  (0x09 ≤ n && n ≤ 0x0d) || (0x1c ≤ n && n ≤ 0x20) || n == 0x85 || n == 0xa0 || n == 0x1680 ||
    (0x2000 ≤ n && n ≤ 0x200a) || n == 0x2028 || n == 0x2029 || n == 0x202f || n == 0x205f ||
    n == 0x3000

/-- `str.strip()`. -/
def strip (s : String) : String :=
  String.ofList ((s.toList.dropWhile isSpace).reverse.dropWhile isSpace).reverse

/-- The zeros of the decimal digits; nine more digits follow each of them. -/
def decimalZeros : List Nat :=
  [0x30, 0x660, 0x6f0, 0x7c0, 0x966, 0x9e6, 0xa66, 0xae6, 0xb66, 0xbe6, 0xc66, 0xce6, 0xd66, 0xde6,
    0xe50, 0xed0, 0xf20, 0x1040, 0x1090, 0x17e0, 0x1810, 0x1946, 0x19d0, 0x1a80, 0x1a90, 0x1b50,
    0x1bb0, 0x1c40, 0x1c50, 0xa620, 0xa8d0, 0xa900, 0xa9d0, 0xa9f0, 0xaa50, 0xabf0, 0xff10, 0x104a0,
    0x10d30, 0x11066, 0x110f0, 0x11136, 0x111d0, 0x112f0, 0x11450, 0x114d0, 0x11650, 0x116c0, 0x11730,
    0x118e0, 0x11950, 0x11c50, 0x11d50, 0x11da0, 0x16a60, 0x16ac0, 0x16b50, 0x1d7ce, 0x1d7d8, 0x1d7e2,
    0x1d7ec, 0x1d7f6, 0x1e140, 0x1e2f0, 0x1e950, 0x1fbf0]

/-- The other digits: superscripts, circled digits and the like, from the first to the last of each range. -/
def otherDigits : List (Nat × Nat) :=
  [(0xb2, 0xb3), (0xb9, 0xb9), (0x1369, 0x1371), (0x19da, 0x19da), (0x2070, 0x2070), (0x2074, 0x2079),
    (0x2080, 0x2089), (0x2460, 0x2468), (0x2474, 0x247c), (0x2488, 0x2490), (0x24ea, 0x24ea),
    (0x24f5, 0x24fd), (0x24ff, 0x24ff), (0x2776, 0x277e), (0x2780, 0x2788), (0x278a, 0x2792),
    (0x10a40, 0x10a43), (0x10e60, 0x10e68), (0x11052, 0x1105a), (0x1f100, 0x1f10a)]

/-- `unicodedata.decimal`. -/
def decimal (c : Char) : Option Nat :=
  (decimalZeros.find? fun first => first ≤ c.toNat && c.toNat < first + 10).map (c.toNat - ·)

/-- `str.isdigit()`. -/
def isDigits (s : String) : Bool :=
  s ≠ "" && s.toList.all fun c =>
    (decimal c).isSome || otherDigits.any fun range => range.1 ≤ c.toNat && c.toNat ≤ range.2

/-- `sys.int_info.default_max_str_digits`. -/
def maxStrDigits : Nat := 4300

/-- `int(s)` of a text of digits. Its decimal digits are counted up to the first digit of another kind. -/
def intOfDigits (s : String) : Except Exn Int :=
  let digits := (s.toList.takeWhile fun c => (decimal c).isSome).filterMap decimal
  if maxStrDigits < digits.length then
    .error (.valueError (s!"Exceeds the limit ({maxStrDigits} digits) for integer string conversion: " ++
      s!"value has {digits.length} digits; use sys.set_int_max_str_digits() to increase the limit"))
  else if digits.length < s.toList.length then
    .error (.valueError ("invalid literal for int() with base 10: " ++
      String.ofList (s!"'{s}'".toList.take 200)))
  else .ok (digits.foldl (fun n digit => 10 * n + digit) 0 : Nat)

end ForkAgent

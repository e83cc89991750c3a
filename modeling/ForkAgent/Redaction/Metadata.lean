import ForkAgent.Redaction.Service

/-!
# What is left of redacted metadata

Objects are searched for sensitive keys and private blocks, however deep they are nested. Arrays are left
as they are.
-/

namespace ForkAgent.Redaction

open Text

section Content

variable {s : List Char} {state : List Char × Bool} {rule : Rule}

theorem apart_privateTag {tail : List Char} (h : '<' ∉ '[' :: tail) : privateTag.Apart ('[' :: tail) := by
  refine ⟨h, '[', tail, rfl, ?_⟩
  have hall : (privateTag.first :: (privateTag.opening ++ privateTag.closing)).all
      (fun c => !privateTag.same c '[') = true := by decide
  intro c hc
  simpa using List.all_eq_true.mp hall c hc

theorem apart_secretPatterns : ∀ rule ∈ secretPatterns, privateTag.Apart rule.replacement := by
  have hredacted : privateTag.Apart "[REDACTED]".toList := apart_privateTag (by decide)
  have haws : privateTag.Apart "[REDACTED_AWS_KEY]".toList := apart_privateTag (by decide)
  have hprivate : privateTag.Apart "[REDACTED_PRIVATE_KEY]".toList := apart_privateTag (by decide)
  intro rule hrule
  simp only [secretPatterns, List.mem_cons, List.not_mem_nil, or_false] at hrule
  obtain rfl | rfl | rfl | rfl | rfl | rfl | rfl := hrule
  · exact hredacted
  · exact hredacted
  · exact hredacted
  · exact hredacted
  · exact hredacted
  · exact haws
  · exact hprivate

theorem substitute_eq : (substitute state rule).1 = (rule.subn state.1).1 := by
  unfold substitute
  by_cases hcount : 0 < (rule.subn state.1).2
  · simp [hcount]
  · simp [hcount, rule.subn_of_count (Nat.eq_zero_of_not_pos hcount)]

theorem not_block_foldl {rules : List Rule} (hrules : ∀ rule ∈ rules, privateTag.Apart rule.replacement)
    (h : ¬ privateTag.Block state.1) : ¬ privateTag.Block (rules.foldl substitute state).1 := by
  induction rules generalizing state with
  | nil => exact h
  | cons rule rules ih =>
    rw [List.forall_mem_cons] at hrules
    apply ih hrules.2
    rw [substitute_eq]
    intro hblock
    exact h (hblock.of_subn hrules.1)

theorem not_block_redactContent (content : String) :
    ¬ privateTag.Block (redactContent content).1.toList := by
  rw [redactContent, String.toList_ofList]
  apply not_block_foldl apart_secretPatterns
  rw [substitute_eq]
  exact Delimiters.not_block_hideBlocks (apart_privateTag (by decide))

end Content

section Keys

/-- What is relied upon of `str.lower`: the letters of ASCII have their lower case, and no upper case
letter of ASCII is left. -/
structure LowersLetters (lower : String → String) : Prop where
  ascii : ∀ s : String, (∀ c ∈ s.toList, c.toNat < 128) → lower s = String.ofList (s.toList.map Char.toLower)
  noUpper : ∀ s : String, ∀ c ∈ (lower s).toList, c.isUpper = false

/-- The key has a sensitive word in it, in any letter case. -/
def NamesSecret (lower : String → String) (key : String) : Prop :=
  ∃ word ∈ sensitiveKeys, (lower word).toList <:+: (lower key).toList

variable {lower : String → String} {key : String}

instance : Decidable (NamesSecret lower key) := inferInstanceAs (Decidable (∃ word ∈ sensitiveKeys, _))

theorem isSensitive_iff (hlower : LowersLetters lower) : isSensitive lower key = true ↔ NamesSecret lower key := by
  have hlowered : ∀ word ∈ sensitiveKeys, lower word = String.ofList (word.toList.map Char.toLower) := by
    have hascii : ∀ word ∈ sensitiveKeys, word.toList.all (fun c => c.toNat < 128) = true := by decide
    intro word hword
    apply hlower.ascii
    intro c hc
    simpa using List.all_eq_true.mp (hascii word hword) c hc
  simp only [isSensitive, List.any_eq_true, decide_eq_true_eq]
  constructor
  · rintro ⟨word, hword, hwithin⟩
    -- Of the words, only the last has an upper case letter, which no lowered key has.
    have hword' : ∀ word ∈ sensitiveKeys, 'A' ∈ word.toList ∨ String.ofList (word.toList.map Char.toLower) = word := by
      decide
    obtain hupper | hsame := hword' word hword
    · have hnot := hlower.noUpper key 'A' (hwithin.subset hupper)
      cases hnot
    · refine ⟨word, hword, ?_⟩
      rw [hlowered word hword, hsame]
      exact hwithin
  · rintro ⟨word, hword, hwithin⟩
    have hpart : ∀ word ∈ sensitiveKeys, ∃ part ∈ sensitiveKeys,
        part.toList <:+: (String.ofList (word.toList.map Char.toLower)).toList := by decide
    obtain ⟨part, hmem, hpart⟩ := hpart word hword
    refine ⟨part, hmem, hpart.trans ?_⟩
    rw [← hlowered word hword]
    exact hwithin

end Keys

section Trees

mutual

/-- What a value may be redacted to: at every depth, the values of sensitive keys are redacted, and the
strings have no private block; the other keys and values are as they were. -/
def Redacted (lower : String → String) : Json → Json → Prop
  | .str _, out => ∃ s, out = .str s ∧ ¬ privateTag.Block s.toList
  | .arr items, out => ∃ items', out = .arr items' ∧ RedactedItems lower items items'
  | .obj fields, out => ∃ fields', out = .obj fields' ∧ RedactedFields lower fields fields'
  | value, out => out = value

def RedactedItems (lower : String → String) : List Json → List Json → Prop
  | [], out => out = []
  | value :: values, out => ∃ value' values', out = value' :: values' ∧ Redacted lower value value' ∧
      RedactedItems lower values values'

def RedactedFields (lower : String → String) : List (String × Json) → List (String × Json) → Prop
  | [], out => out = []
  | (key, value) :: fields, out => ∃ value' fields', out = (key, value') :: fields' ∧
      (NamesSecret lower key → value' = .str "[REDACTED]") ∧
      (¬ NamesSecret lower key → Redacted lower value value') ∧ RedactedFields lower fields fields'

end

mutual

/-- There is nothing in a value to redact. -/
def Clean (lower : String → String) : Json → Prop
  | .str s => ¬ privateTag.Block s.toList
  | .arr items => CleanItems lower items
  | .obj fields => CleanFields lower fields
  | _ => True

def CleanItems (lower : String → String) : List Json → Prop
  | [] => True
  | value :: values => Clean lower value ∧ CleanItems lower values

def CleanFields (lower : String → String) : List (String × Json) → Prop
  | [] => True
  | (key, value) :: fields => (NamesSecret lower key → value = .str "[REDACTED]") ∧
      (¬ NamesSecret lower key → Clean lower value) ∧ CleanFields lower fields

end

mutual

/-- There is nothing to redact in the arrays of a value that no sensitive key stands before. -/
def ArraysClean (lower : String → String) : Json → Prop
  | .arr items => CleanItems lower items
  | .obj fields => FieldsArraysClean lower fields
  | _ => True

def FieldsArraysClean (lower : String → String) : List (String × Json) → Prop
  | [] => True
  | (key, value) :: fields => (¬ NamesSecret lower key → ArraysClean lower value) ∧
      FieldsArraysClean lower fields

end

variable {lower : String → String}

mutual

theorem redacted_self (lower : String → String) (value : Json) : Redacted lower value value ↔ Clean lower value := by
  cases value with
  | str s => simp [Redacted, Clean]
  | arr items => simp [Redacted, Clean, redactedItems_self lower items]
  | obj fields => simp [Redacted, Clean, redactedFields_self lower fields]
  | null => simp [Redacted, Clean]
  | bool b => simp [Redacted, Clean]
  | int n => simp [Redacted, Clean]
  | float text => simp [Redacted, Clean]

theorem redactedItems_self (lower : String → String) (items : List Json) :
    RedactedItems lower items items ↔ CleanItems lower items := by
  match items with
  | [] => simp [RedactedItems, CleanItems]
  | value :: values =>
    simp [RedactedItems, CleanItems, redacted_self lower value, redactedItems_self lower values]

theorem redactedFields_self (lower : String → String) (fields : List (String × Json)) :
    RedactedFields lower fields fields ↔ CleanFields lower fields := by
  match fields with
  | [] => simp [RedactedFields, CleanFields]
  | (key, value) :: fields =>
    simp [RedactedFields, CleanFields, redacted_self lower value, redactedFields_self lower fields]

end

mutual

theorem redactValue_iff (hlower : LowersLetters lower) (value : Json) :
    Redacted lower value (redactValue lower value).1 ↔ ArraysClean lower value := by
  cases value with
  | str s => exact iff_of_true ⟨_, rfl, not_block_redactContent s⟩ trivial
  | arr items => exact redacted_self lower (.arr items)
  | obj fields =>
    rw [redactValue, Redacted, ArraysClean, ← redactMetadata_iff hlower fields]
    simp
  | null => simp [redactValue, Redacted, ArraysClean]
  | bool b => simp [redactValue, Redacted, ArraysClean]
  | int n => simp [redactValue, Redacted, ArraysClean]
  | float text => simp [redactValue, Redacted, ArraysClean]

theorem redactMetadata_iff (hlower : LowersLetters lower) (fields : List (String × Json)) :
    RedactedFields lower fields (redactMetadata lower fields).1 ↔ FieldsArraysClean lower fields := by
  match fields with
  | [] => simp [redactMetadata, RedactedFields, FieldsArraysClean]
  | (key, value) :: fields =>
    rw [redactMetadata, RedactedFields, FieldsArraysClean, ← redactMetadata_iff hlower fields]
    by_cases hkey : NamesSecret lower key
    · simp [(isSensitive_iff hlower).mpr hkey, hkey]
    · have hnot : isSensitive lower key = false := by
        rw [Bool.eq_false_iff, Ne, isSensitive_iff hlower]
        exact hkey
      simp [hnot, hkey, ← redactValue_iff hlower value]

end

/-- Metadata are redacted at every depth exactly when there is nothing to redact in their arrays. -/
theorem redactMetadata_redacts_iff (hlower : LowersLetters lower) (metadata : JsonObject) :
    RedactedFields lower metadata (redactMetadata lower metadata).1 ↔ FieldsArraysClean lower metadata :=
  redactMetadata_iff hlower metadata

section Example

def asciiLower (s : String) : String := String.ofList (s.toList.map Char.toLower)

theorem isUpper_toLower (c : Char) : c.toLower.isUpper = false := by
  have hupper : ∀ c : Char, c.isUpper = decide (c.val ≥ 'A'.val ∧ c.val ≤ 'Z'.val) :=
    fun _ => rfl
  unfold Char.toLower
  split_ifs with hletter
  · have hlow : 65 ≤ c.val.toNat := UInt32.le_iff_toNat_le.mp hletter.1
    have hhigh : c.val.toNat ≤ 90 := UInt32.le_iff_toNat_le.mp hletter.2
    have hval : (c.val + ('a'.val - 'A'.val)).toNat = c.val.toNat + 32 := by
      rw [UInt32.toNat_add]
      exact Nat.mod_eq_of_lt (by show c.val.toNat + 32 < _; omega)
    rw [hupper, decide_eq_false_iff_not]
    intro h
    have hz : (c.val + ('a'.val - 'A'.val)).toNat ≤ 90 := UInt32.le_iff_toNat_le.mp h.2
    omega
  · simpa [hupper] using hletter

theorem lowersLetters_asciiLower : LowersLetters asciiLower where
  ascii _ _ := rfl
  noUpper := by
    intro s c hc
    obtain ⟨d, -, rfl⟩ := List.mem_map.mp (String.toList_ofList ▸ hc)
    exact isUpper_toLower d

/-- A password in a list of accounts. -/
def accounts : JsonObject := [("accounts", .arr [.obj [("password", .str "hunter2")]])]

theorem accounts_unclean : ¬ FieldsArraysClean asciiLower accounts := by
  intro h
  have hclean : CleanFields asciiLower [("password", .str "hunter2")] := (h.1 (by decide)).1
  have hvalue := hclean.1 (by decide)
  revert hvalue
  decide

theorem accounts_unredacted : ¬ ∀ (lower : String → String), LowersLetters lower → ∀ metadata : JsonObject,
    RedactedFields lower metadata (redactMetadata lower metadata).1 := by
  intro h
  exact accounts_unclean ((redactMetadata_iff lowersLetters_asciiLower _).mp
    (h asciiLower lowersLetters_asciiLower accounts))

/-- A password in an account, with a list of numbers beside it. -/
def account : JsonObject := [("account", .obj [("Password", .str "hunter2"), ("ports", .arr [.int 22])])]

theorem redactMetadata_redacts_accounts :
    RedactedFields asciiLower account (redactMetadata asciiLower account).1 ∧
      ¬ RedactedFields asciiLower accounts (redactMetadata asciiLower accounts).1 := by
  constructor
  · rw [redactMetadata_redacts_iff lowersLetters_asciiLower]
    simp [account, FieldsArraysClean, ArraysClean, CleanItems, Clean]
  · rw [redactMetadata_redacts_iff lowersLetters_asciiLower]
    exact accounts_unclean

end Example

end Trees

end ForkAgent.Redaction

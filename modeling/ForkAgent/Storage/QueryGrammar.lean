import Mathlib.Data.List.Basic

/-!
# Queries of a full-text index

The part of the query language that lists words: a bareword stands for itself, a star after it for
every continuation of it, and words side by side must all match.
-/

namespace Storage

/-- A character of a bareword: a letter, a digit, an underscore, the substitute character, or any that
is not ASCII. -/
def isBarewordChar (c : Char) : Bool := c.isAlphanum || c == '_' || c.toNat == 0x1a || 128 ≤ c.toNat

structure IsBareword (w : String) : Prop where
  nonempty : w ≠ ""
  chars : ∀ c ∈ w.toList, isBarewordChar c = true

/-- The barewords that are operators. -/
def queryOperators : List String := ["AND", "OR", "NOT"]

/-- The words, each with a star. -/
def wordQuery (words : List String) : String := " ".intercalate (words.map (· ++ "*"))

/-- The query is a list of words, each of them a bareword with a star. -/
def IsWordQuery (query : String) : Prop :=
  ∃ words, words ≠ [] ∧ (∀ w ∈ words, IsBareword w ∧ w ∉ queryOperators) ∧ query = wordQuery words

/-- A parser of queries that takes such lists. -/
structure QueryParser where
  accepts : String → Bool
  accepts_words : ∀ query, IsWordQuery query → accepts query = true

theorem mem_wordQuery {words : List String} {c : Char} :
    c ∈ (wordQuery words).toList ↔
      (∃ w ∈ words, c ∈ w.toList) ∨ (words ≠ [] ∧ c = '*') ∨ (2 ≤ words.length ∧ c = ' ') := by
  unfold wordQuery
  induction words with
  | nil => simp
  | cons w words ih =>
    cases words with
    | nil => simp
    | cons w' words =>
      rw [List.map_cons] at ih
      rw [List.map_cons, List.map_cons, String.intercalate_cons_cons]
      simp only [String.toList_append, List.mem_append, ih]
      simp
      grind

theorem IsWordQuery.chars {query : String} (h : IsWordQuery query) {c : Char} (hc : c ∈ query.toList) :
    isBarewordChar c = true ∨ c = '*' ∨ c = ' ' := by
  obtain ⟨words, -, hwords, rfl⟩ := h
  obtain ⟨w, hw, hmem⟩ | ⟨-, hstar⟩ | ⟨-, hspace⟩ := mem_wordQuery.mp hc
  · exact .inl ((hwords w hw).1.chars c hmem)
  · exact .inr (.inl hstar)
  · exact .inr (.inr hspace)

theorem wordQuery_eq_empty {words : List String} : wordQuery words = "" ↔ words = [] := by
  constructor
  · intro h
    by_contra hne
    have hstar : '*' ∈ (wordQuery words).toList := mem_wordQuery.mpr (.inr (.inl ⟨hne, rfl⟩))
    rw [h] at hstar
    simp at hstar
  · rintro rfl
    rfl

end Storage

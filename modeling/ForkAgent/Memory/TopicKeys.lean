import ForkAgent.Memory.Query
import ForkAgent.Text.Substitution
import Mathlib.Data.List.Infix

/-!
# Suggested topic keys

A suggested key has a family, which is known from the type or from a word of the text, or else is the type
itself, and a segment, which is made of the title or of the first words of the content. Each of the two is cut
to a hundred characters, so that together they may be longer than a topic key can be.
-/

namespace ForkAgent.Memory

open Text ObservationRepository

section Suggest

def topicFamilyMap : List (String × String) :=
  [("architecture", "architecture"), ("design", "architecture"), ("adr", "architecture"),
    ("refactor", "architecture"), ("bug", "bug"), ("bugfix", "bug"), ("fix", "bug"), ("incident", "bug"),
    ("hotfix", "bug"), ("decision", "decision"), ("pattern", "pattern"), ("convention", "pattern"),
    ("guideline", "pattern"), ("config", "config"), ("setup", "config"), ("infra", "config"),
    ("infrastructure", "config"), ("ci", "config"), ("discovery", "discovery"),
    ("investigation", "discovery"), ("root_cause", "discovery"), ("root-cause", "discovery"),
    ("learning", "learning"), ("learn", "learning"), ("session-summary", "session")]

def topicKeywords : List String :=
  ["bug", "architecture", "decision", "pattern", "config", "discovery", "learning"]

/-- `[a-z0-9]`. -/
def isSegmentChar (c : Char) : Bool := ('a' ≤ c && c ≤ 'z') || ('0' ≤ c && c ≤ '9')

/-- `[^a-z0-9]+`, each run of which a space replaces. -/
def otherChars : Rule := substitute (.many (fun c => !isSegmentChar c) 1) [' '] (by decide)

variable (lower : String → String)

/-- The words of a text, joined with hyphens. -/
def hyphenated (text : String) : String :=
  "-".intercalate (splitWords (otherChars.subn (strip (lower text)).toList).1 [])

def normalizeTopicSegment (text : String) : String :=
  if 100 < (hyphenated lower text).length then String.ofList ((hyphenated lower text).toList.take 100)
  else hyphenated lower text

/-- The first keyword that the text has. -/
def keywordIn (combined : String) : Option String :=
  topicKeywords.find? fun keyword => keyword.toList <:+: combined.toList

/-- The family of a type that is known, or of a keyword. -/
def knownFamily (obsType : Option String) (title content : String) : Option String :=
  ((obsType.filter (· ≠ "")).bind fun type => topicFamilyMap.lookup (strip (lower type))).or
    ((keywordIn (lower (title ++ " " ++ content))).map fun keyword =>
      (topicFamilyMap.lookup keyword).getD "topic")

def inferTopicFamily (obsType : Option String) (title content : String) : String :=
  match knownFamily lower obsType title content with
  | some family => family
  | none =>
    match obsType.filter (· ≠ "") with
    | some type => if normalizeTopicSegment lower type = "" then "topic" else normalizeTopicSegment lower type
    | none => "topic"

/-- The title normalised, or the first words of the content. -/
def textSegment (title content : String) : String :=
  if normalizeTopicSegment lower title = "" then
    normalizeTopicSegment lower (" ".intercalate ((splitWords (lower content).toList []).take 8))
  else normalizeTopicSegment lower title

/-- The segment before the family is taken off it. -/
def topicSegment (title content : String) : String :=
  if textSegment lower title content = "" then "general" else textSegment lower title content

/-- The segment without the family in front of it. -/
def withoutFamily (family segment : String) : String :=
  let segment :=
    if (family ++ "-").toList <+: segment.toList then String.ofList (segment.toList.drop (family.length + 1))
    else segment
  if segment = "" ∨ segment = family then "general" else segment

def suggestTopicKey (obsType : Option String) (title content : String) : String :=
  let family := inferTopicFamily lower obsType title content
  family ++ "/" ++ withoutFamily family (topicSegment lower title content)

end Suggest

section Usable

/-- A part of a key. -/
structure IsKeyPart (part : String) : Prop where
  nonempty : part ≠ ""
  chars : ∀ c ∈ part.toList, isSegmentChar c = true ∨ c = '-'

/-- A key of two parts that an observation accepts. -/
structure Usable (key : String) : Prop where
  parts : ∃ family segment, key = family ++ "/" ++ segment ∧ IsKeyPart family ∧ IsKeyPart segment
  length : key.length ≤ maxTopicKeyLength
  accepted : ∀ f : ObservationFields, f.Valid → { f with topicKey := some key }.Valid

/-- A type that is its own family, and with which the segment makes a key that is too long: the segment is not
the type, and does not start with it. -/
def TooLong (lower : String → String) (obsType : Option String) (title content : String) : Prop :=
  knownFamily lower obsType title content = none ∧
    ∃ type ∈ obsType, type ≠ "" ∧ normalizeTopicSegment lower type ≠ "" ∧
      topicSegment lower title content ≠ normalizeTopicSegment lower type ∧
        ¬ (normalizeTopicSegment lower type ++ "-").toList <+: (topicSegment lower title content).toList ∧
          maxTopicKeyLength < (normalizeTopicSegment lower type).length + 1 +
            (topicSegment lower title content).length

end Usable

section Normalized

variable {lower : String → String} {text : String}

theorem mem_joined {words : List String} {c : Char} (h : c ∈ ("-".intercalate words).toList) :
    c = '-' ∨ ∃ w ∈ words, c ∈ w.toList := by
  induction words with
  | nil => simp at h
  | cons w words ih =>
    cases words with
    | nil => exact .inr ⟨w, by simp, by simpa using h⟩
    | cons w' words =>
      rw [String.intercalate_cons_cons] at h
      simp only [String.toList_append, List.mem_append] at h
      obtain (h | h) | h := h
      · exact .inr ⟨w, by simp, h⟩
      · exact .inl (by simpa using h)
      · cases ih h with
        | inl h => exact .inl h
        | inr h =>
          obtain ⟨v, hv, hc⟩ := h
          exact .inr ⟨v, List.mem_cons_of_mem w hv, hc⟩

/-- The characters of a normalised text, and its length. -/
theorem normalizeTopicSegment_chars :
    (∀ c ∈ (normalizeTopicSegment lower text).toList, isSegmentChar c = true ∨ c = '-') ∧
      (normalizeTopicSegment lower text).length ≤ 100 := by
  have hchars : ∀ c ∈ (hyphenated lower text).toList, isSegmentChar c = true ∨ c = '-' := by
    intro c hc
    cases mem_joined hc with
    | inl hc => exact .inr hc
    | inr hc =>
      obtain ⟨w, hw, hc⟩ := hc
      obtain ⟨-, hword⟩ := word_of_splitWords (by simp) hw
      obtain ⟨hspace, hmem⟩ := hword c hc
      have hmem' : c ∈ (otherChars.subn (strip (lower text)).toList).1 := by simpa using hmem
      cases mem_substitute_many hmem' with
      | inl hblank =>
        rw [List.mem_singleton.mp hblank] at hspace
        have hblank : isSpace ' ' = true := by decide
        rw [hblank] at hspace
        cases hspace
      | inr hkept => exact .inl (by simpa using hkept.2)
  unfold normalizeTopicSegment
  generalize hyphenated lower text = value at hchars ⊢
  by_cases hlong : 100 < value.length
  · rw [if_pos hlong]
    constructor
    · intro c hc
      rw [String.toList_ofList] at hc
      exact hchars c (List.mem_of_mem_take hc)
    · rw [String.length_ofList, List.length_take]
      omega
  · rw [if_neg hlong]
    exact ⟨hchars, by omega⟩

theorem general_isKeyPart : IsKeyPart "general" := by
  refine ⟨by decide, ?_⟩
  intro c hc
  have hall : ("general".toList.all fun c => isSegmentChar c || c == '-') = true := by decide
  simpa using List.all_eq_true.mp hall c hc

theorem topicSegment_isKeyPart (title content : String) :
    IsKeyPart (topicSegment lower title content) ∧ (topicSegment lower title content).length ≤ 100 := by
  have hsegment : (∀ c ∈ (textSegment lower title content).toList, isSegmentChar c = true ∨ c = '-') ∧
      (textSegment lower title content).length ≤ 100 := by
    unfold textSegment
    split
    · exact normalizeTopicSegment_chars
    · exact normalizeTopicSegment_chars
  unfold topicSegment
  by_cases hempty : textSegment lower title content = ""
  · rw [if_pos hempty]
    exact ⟨general_isKeyPart, by decide⟩
  · rw [if_neg hempty]
    exact ⟨⟨hempty, hsegment.1⟩, hsegment.2⟩

theorem topicFamilyMap_isKeyPart {name family : String} (h : topicFamilyMap.lookup name = some family) :
    IsKeyPart family ∧ family.length ≤ 12 := by
  have hmap : (topicFamilyMap.all fun entry => entry.2 ≠ "" ∧
      (entry.2.toList.all fun c => isSegmentChar c || c == '-') = true ∧ entry.2.length ≤ 12) = true := by decide
  obtain ⟨before, after, hentry, -⟩ := List.lookup_eq_some_iff.mp h
  have hmem : (name, family) ∈ topicFamilyMap := by
    rw [hentry]
    simp
  obtain ⟨hne, hchars, hlength⟩ := of_decide_eq_true (List.all_eq_true.mp hmap _ hmem)
  refine ⟨⟨hne, ?_⟩, hlength⟩
  intro c hc
  simpa using List.all_eq_true.mp hchars c hc

theorem knownFamily_isKeyPart {obsType : Option String} {title content family : String}
    (h : knownFamily lower obsType title content = some family) : IsKeyPart family ∧ family.length ≤ 12 := by
  unfold knownFamily at h
  rw [Option.or_eq_some_iff] at h
  cases h with
  | inl h =>
    obtain ⟨type, -, hlookup⟩ := Option.bind_eq_some_iff.mp h
    exact topicFamilyMap_isKeyPart hlookup
  | inr h =>
    obtain ⟨keyword, hkeyword, hfamily⟩ := Option.map_eq_some_iff.mp h.2
    have hknown : ∀ keyword ∈ topicKeywords, (topicFamilyMap.lookup keyword).isSome = true := by decide
    obtain ⟨found, hfound⟩ := Option.isSome_iff_exists.mp (hknown keyword (List.mem_of_find?_eq_some hkeyword))
    rw [hfound, Option.getD_some] at hfamily
    exact topicFamilyMap_isKeyPart (hfamily ▸ hfound)

/-- The family is a short word, or the type. -/
theorem inferTopicFamily_cases (obsType : Option String) (title content : String) :
    (IsKeyPart (inferTopicFamily lower obsType title content) ∧
      (inferTopicFamily lower obsType title content).length ≤ 12 ∧ ¬ TooLong lower obsType title content) ∨
    (knownFamily lower obsType title content = none ∧ ∃ type, obsType = some type ∧ type ≠ "" ∧
      normalizeTopicSegment lower type ≠ "" ∧
        inferTopicFamily lower obsType title content = normalizeTopicSegment lower type) := by
  have htopic : IsKeyPart "topic" ∧ "topic".length ≤ 12 := by
    refine ⟨⟨by decide, ?_⟩, by decide⟩
    intro c hc
    have hall : ("topic".toList.all fun c => isSegmentChar c || c == '-') = true := by decide
    simpa using List.all_eq_true.mp hall c hc
  unfold inferTopicFamily
  cases hknown : knownFamily lower obsType title content with
  | some family =>
    left
    obtain ⟨hpart, hshort⟩ := knownFamily_isKeyPart hknown
    refine ⟨hpart, hshort, ?_⟩
    intro h
    rw [h.1] at hknown
    cases hknown
  | none =>
    cases obsType with
    | none =>
      left
      refine ⟨htopic.1, htopic.2, ?_⟩
      intro h
      obtain ⟨-, type, htype, -⟩ := h
      cases htype
    | some type =>
      by_cases hempty : type = ""
      · left
        have hfilter : (some type).filter (· ≠ "") = none := by simp [hempty]
        rw [hfilter]
        refine ⟨htopic.1, htopic.2, ?_⟩
        intro h
        obtain ⟨-, type', htype, hne, -⟩ := h
        exact hne (Option.some.inj htype ▸ hempty)
      · have hfilter : (some type).filter (· ≠ "") = some type := by simp [hempty]
        rw [hfilter]
        by_cases hnothing : normalizeTopicSegment lower type = ""
        · left
          simp only [if_pos hnothing]
          refine ⟨htopic.1, htopic.2, ?_⟩
          intro h
          obtain ⟨-, type', htype, -, hne, -⟩ := h
          exact hne (Option.some.inj htype ▸ hnothing)
        · right
          simp only [if_neg hnothing]
          exact ⟨trivial, type, rfl, hempty, hnothing, rfl⟩

end Normalized

section Keys

variable {lower : String → String} {family segment : String}

/-- What is left of a segment: the word for none, the segment, or what follows the family in it. -/
theorem withoutFamily_cases (family segment : String) :
    withoutFamily family segment = "general" ∨
      withoutFamily family segment ≠ "" ∧ withoutFamily family segment ≠ family ∧
        ((¬ (family ++ "-").toList <+: segment.toList ∧ withoutFamily family segment = segment) ∨
          ((family ++ "-").toList <+: segment.toList ∧
            withoutFamily family segment = String.ofList (segment.toList.drop (family.length + 1)))) := by
  unfold withoutFamily
  by_cases hstarts : (family ++ "-").toList <+: segment.toList
  · simp only [if_pos hstarts]
    by_cases hnone : String.ofList (segment.toList.drop (family.length + 1)) = "" ∨
        String.ofList (segment.toList.drop (family.length + 1)) = family
    · exact .inl (if_pos hnone)
    · rw [if_neg hnone]
      exact .inr ⟨(not_or.mp hnone).1, (not_or.mp hnone).2, .inr ⟨hstarts, rfl⟩⟩
  · simp only [if_neg hstarts]
    by_cases hnone : segment = "" ∨ segment = family
    · exact .inl (if_pos hnone)
    · rw [if_neg hnone]
      exact .inr ⟨(not_or.mp hnone).1, (not_or.mp hnone).2, .inl ⟨hstarts, rfl⟩⟩

theorem withoutFamily_isKeyPart (h : IsKeyPart segment) : IsKeyPart (withoutFamily family segment) := by
  obtain hgeneral | ⟨hne, -, ⟨-, hsame⟩ | ⟨-, hrest⟩⟩ := withoutFamily_cases family segment
  · rw [hgeneral]
    exact general_isKeyPart
  · rw [hsame]
    exact h
  · refine ⟨hne, ?_⟩
    intro c hc
    rw [hrest, String.toList_ofList] at hc
    exact h.chars c (List.mem_of_mem_drop hc)

theorem length_withoutFamily_le (hlength : segment.length ≤ 100) :
    (withoutFamily family segment).length ≤ 100 := by
  obtain hgeneral | ⟨-, -, ⟨-, hsame⟩ | ⟨-, hrest⟩⟩ := withoutFamily_cases family segment
  · rw [hgeneral]
    decide
  · rw [hsame]
    exact hlength
  · rw [hrest, String.length_ofList, List.length_drop, String.length_toList]
    omega

theorem length_withoutFamily (hfamily : family.length ≤ 100) (hlength : segment.length ≤ 100)
    (h : segment = family ∨ (family ++ "-").toList <+: segment.toList) :
    family.length + 1 + (withoutFamily family segment).length ≤ maxTopicKeyLength := by
  have hmax : maxTopicKeyLength = 128 := rfl
  obtain hgeneral | ⟨-, hother, ⟨hstarts, hsame⟩ | ⟨hstarts, hrest⟩⟩ := withoutFamily_cases family segment
  · have hword : "general".length = 7 := by decide
    rw [hgeneral, hword]
    omega
  · cases h with
    | inl h => exact absurd (hsame.trans h) hother
    | inr h => exact absurd h hstarts
  · have hle := hstarts.length_le
    rw [String.length_toList, String.length_toList, String.length_append] at hle
    rw [hrest, String.length_ofList, List.length_drop, String.length_toList]
    have hdash : "-".length = 1 := rfl
    omega

theorem withoutFamily_eq (hne : segment ≠ "") (hsame : segment ≠ family)
    (hstarts : ¬ (family ++ "-").toList <+: segment.toList) : withoutFamily family segment = segment := by
  simp only [withoutFamily, if_neg hstarts]
  exact if_neg (not_or.mpr ⟨hne, hsame⟩)

theorem keyPart_ne {part : String} (h : IsKeyPart part) {c : Char} (hc : c ∈ part.toList) : c ≠ ' ' ∧ c ≠ '\x00' := by
  have hspace : ¬ (isSegmentChar ' ' = true ∨ ' ' = '-') := by decide
  have hnull : ¬ (isSegmentChar '\x00' = true ∨ '\x00' = '-') := by decide
  constructor
  · intro heq
    exact hspace (heq ▸ h.chars c hc)
  · intro heq
    exact hnull (heq ▸ h.chars c hc)

/-- A key of two parts that is short enough is accepted. -/
theorem usable_iff (hfamily : IsKeyPart family) (hsegment : IsKeyPart segment) :
    Usable (family ++ "/" ++ segment) ↔ family.length + 1 + segment.length ≤ maxTopicKeyLength := by
  have hlength : (family ++ "/" ++ segment).length = family.length + 1 + segment.length := by
    rw [String.length_append, String.length_append]
    rfl
  have hchars : ∀ c ∈ (family ++ "/" ++ segment).toList, c ≠ ' ' ∧ c ≠ '\x00' := by
    intro c hc
    rw [String.toList_append, String.toList_append, List.mem_append, List.mem_append] at hc
    obtain (hc | hc) | hc := hc
    · exact keyPart_ne hfamily hc
    · rw [List.mem_singleton.mp hc]
      decide
    · exact keyPart_ne hsegment hc
  have hne : family ++ "/" ++ segment ≠ "" := by
    intro hempty
    have hzero := congrArg String.length hempty
    rw [hlength, String.length_empty] at hzero
    omega
  constructor
  · intro h
    rw [← hlength]
    exact h.length
  · intro h
    rw [← hlength] at h
    refine ⟨⟨family, segment, rfl, hfamily, hsegment⟩, h, ?_⟩
    intro f hf
    exact { hf with
      topicKey := by
        intro k hk
        cases hk
        exact hne
      topicKeySpaces := by
        intro k hk hmem
        cases hk
        exact (hchars ' ' hmem).1 rfl
      topicKeyNull := by
        intro k hk hmem
        cases hk
        exact (hchars '\x00' hmem).2 rfl
      topicKeyLength := by
        intro k hk
        cases hk
        exact h }

theorem usable_suggested (lower : String → String) (obsType : Option String) (title content : String) :
    Usable (suggestTopicKey lower obsType title content) ↔
      (inferTopicFamily lower obsType title content).length + 1 +
        (withoutFamily (inferTopicFamily lower obsType title content) (topicSegment lower title content)).length ≤
          maxTopicKeyLength := by
  have hsegment : IsKeyPart (topicSegment lower title content) := (topicSegment_isKeyPart title content).1
  unfold suggestTopicKey
  apply usable_iff
  · obtain ⟨hfamily, -⟩ | ⟨-, type, -, -, hnothing, hinfer⟩ : _ ∨ (knownFamily lower obsType title content = none ∧ _) :=
      inferTopicFamily_cases obsType title content
    · exact hfamily
    · rw [hinfer]
      exact ⟨hnothing, normalizeTopicSegment_chars.1⟩
  · exact withoutFamily_isKeyPart hsegment

/-- A suggested key is usable exactly where its type, where that is its own family, and its segment are not too
long together. -/
theorem suggestTopicKey_usable_iff (lower : String → String) (obsType : Option String) (title content : String) :
    Usable (suggestTopicKey lower obsType title content) ↔ ¬ TooLong lower obsType title content := by
  obtain ⟨hsegment, hlength⟩ : IsKeyPart (topicSegment lower title content) ∧
    (topicSegment lower title content).length ≤ 100 := topicSegment_isKeyPart title content
  have hmax : maxTopicKeyLength = 128 := rfl
  rw [usable_suggested]
  obtain ⟨-, hshort, hnot⟩ | ⟨hknown, type, htype, hne, hnothing, hinfer⟩ :
      _ ∨ knownFamily lower obsType title content = none ∧ _ := inferTopicFamily_cases obsType title content
  · have hle : (withoutFamily (inferTopicFamily lower obsType title content)
        (topicSegment lower title content)).length ≤ 100 := length_withoutFamily_le hlength
    constructor
    · intro _
      exact hnot
    · intro _
      omega
  · have hcut : (normalizeTopicSegment lower type).length ≤ 100 := normalizeTopicSegment_chars.2
    rw [hinfer]
    constructor
    · intro h htoo
      obtain ⟨-, type', htype', -, -, hsame, hstarts, hlong⟩ := htoo
      rw [htype] at htype'
      cases htype'
      rw [withoutFamily_eq hsegment.nonempty hsame hstarts] at h
      omega
    · intro h
      by_cases hsame : topicSegment lower title content = normalizeTopicSegment lower type
      · exact length_withoutFamily hcut hlength (.inl hsame)
      · by_cases hstarts : (normalizeTopicSegment lower type ++ "-").toList <+:
            (topicSegment lower title content).toList
        · exact length_withoutFamily hcut hlength (.inr hstarts)
        · rw [withoutFamily_eq hsegment.nonempty hsame hstarts]
          by_contra hlong
          exact h ⟨hknown, type, htype, hne, hnothing, hsame, hstarts, by omega⟩

section Example

/-- `str.lower` of the letters of ASCII. -/
def asciiLower (s : String) : String := s.map Char.toLower

def longType : String := String.ofList (List.replicate 64 'x')

def longTitle : String := String.ofList (List.replicate 64 'y')

theorem long_type_unusable : strip longTitle ≠ "" ∧
    ¬ Usable (suggestTopicKey asciiLower (some longType) longTitle "") := by
  rw [usable_suggested]
  decide +kernel

end Example

end Keys

end ForkAgent.Memory

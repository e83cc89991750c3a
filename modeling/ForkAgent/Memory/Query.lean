import ForkAgent.Memory.Readable
import ForkAgent.Storage.QueryGrammar

/-!
# What a search asks for

The sanitiser blanks out the characters of a list and drops the reserved words. A character that is in
no list, such as a question mark, comes through to the index.
-/

namespace ForkAgent.Memory

open Effects Storage Sync MemoryStore

section Words

open ObservationRepository

/-- A word is not empty, and its characters are those of the text that are no spaces. -/
theorem word_of_splitWords {cs word : List Char} (hword : ∀ c ∈ word, isSpace c = false) {w : String}
    (hw : w ∈ splitWords cs word) : w ≠ "" ∧ ∀ c ∈ w.toList, isSpace c = false ∧ (c ∈ cs ∨ c ∈ word) := by
  induction cs generalizing word w with
  | nil =>
    rw [splitWords] at hw
    split_ifs at hw with hempty
    · simp at hw
    · rw [List.mem_singleton.mp hw]
      refine ⟨by simpa using hempty, fun c hc => ?_⟩
      have hc : c ∈ word := by simpa using hc
      exact ⟨hword c hc, .inr hc⟩
  | cons d cs ih =>
    have hrest : ∀ {w : String}, w ∈ splitWords cs [] →
        w ≠ "" ∧ ∀ c ∈ w.toList, isSpace c = false ∧ (c ∈ d :: cs ∨ c ∈ word) := by
      intro w hw
      have hnil : ∀ c ∈ ([] : List Char), isSpace c = false := by simp
      obtain ⟨hne, hchars⟩ := ih hnil hw
      refine ⟨hne, fun c hc => ⟨(hchars c hc).1, .inl ?_⟩⟩
      have hmem : c ∈ cs ∨ c ∈ [] := (hchars c hc).2
      exact List.mem_cons_of_mem _ (by simpa using hmem)
    rw [splitWords] at hw
    split_ifs at hw with hspace hempty
    · exact hrest hw
    · obtain rfl | hw := List.mem_cons.mp hw
      · refine ⟨by simpa using hempty, fun c hc => ?_⟩
        have hc : c ∈ word := by simpa using hc
        exact ⟨hword c hc, .inr hc⟩
      · exact hrest hw
    · have hword' : ∀ c ∈ d :: word, isSpace c = false :=
        List.forall_mem_cons.mpr ⟨by simpa using hspace, hword⟩
      obtain ⟨hne, hchars⟩ := ih hword' hw
      refine ⟨hne, fun c hc => ?_⟩
      obtain ⟨hnot, hmem⟩ := hchars c hc
      refine ⟨hnot, ?_⟩
      simp only [List.mem_cons] at hmem ⊢
      tauto

/-- A character that is no space is in one of the words. -/
theorem mem_splitWords {cs word : List Char} {c : Char} (h : c ∈ word ∨ (c ∈ cs ∧ isSpace c = false)) :
    ∃ w ∈ splitWords cs word, c ∈ w.toList := by
  induction cs generalizing word with
  | nil =>
    obtain h | ⟨h, -⟩ := h
    · rw [splitWords, if_neg (List.ne_nil_of_mem h)]
      exact ⟨_, List.mem_singleton_self _, by simpa using h⟩
    · simp at h
  | cons d cs ih =>
    rw [splitWords]
    split_ifs with hspace hempty
    · apply ih
      obtain h | ⟨h, hc⟩ := h
      · rw [hempty] at h
        simp at h
      · obtain rfl | h := List.mem_cons.mp h
        · rw [hspace] at hc
          cases hc
        · exact .inr ⟨h, hc⟩
    · obtain h | ⟨h, hc⟩ := h
      · exact ⟨_, List.mem_cons_self, by simpa using h⟩
      · obtain rfl | h := List.mem_cons.mp h
        · rw [hspace] at hc
          cases hc
        · obtain ⟨w, hw, hmem⟩ := ih (.inr ⟨h, hc⟩)
          exact ⟨w, List.mem_cons_of_mem _ hw, hmem⟩
    · apply ih
      simp only [List.mem_cons] at h ⊢
      tauto

end Words

section Sanitize

open ObservationRepository

/-- A character that the sanitiser passes on, or takes out: white space, one of its list, or one that may
stand in a bareword. -/
def Harmless (c : Char) : Prop := isSpace c = true ∨ c ∈ ftsSyntax ∨ isBarewordChar c = true

instance (c : Char) : Decidable (Harmless c) := inferInstanceAs (Decidable (_ ∨ _ ∨ _))

/-- The words that are left of a query. -/
def queryWords (query : String) : List String :=
  (splitWords (query.toList.map fun c => if c ∈ ftsSyntax then ' ' else c) []).filter fun w =>
    String.ofList (w.toList.map Char.toUpper) ∉ ftsReserved

theorem sanitizeFtsQuery_eq (query : String) : sanitizeFtsQuery query = wordQuery (queryWords query) := rfl

theorem isSpace_space : isSpace ' ' = true := by decide

theorem mem_query_of_word {query w : String} {c : Char} (hw : w ∈ queryWords query) (hc : c ∈ w.toList) :
    c ∈ query.toList ∧ isSpace c = false ∧ c ∉ ftsSyntax := by
  have hsplit := (List.mem_filter.mp hw).1
  obtain ⟨hspace, hmem⟩ := (word_of_splitWords (by simp) hsplit).2 c hc
  obtain ⟨d, hd, rfl⟩ : ∃ d ∈ query.toList, (if d ∈ ftsSyntax then ' ' else d) = c := by
    simpa using hmem
  by_cases hsyntax : d ∈ ftsSyntax
  · rw [if_pos hsyntax, isSpace_space] at hspace
    cases hspace
  · rw [if_neg hsyntax] at hspace ⊢
    exact ⟨hd, hspace, hsyntax⟩

theorem bareword_of_reserved {w : String} (h : String.ofList (w.toList.map Char.toUpper) ∈ ftsReserved) :
    ∀ c ∈ w.toList, isBarewordChar c = true := by
  have hword : ∀ c : Char, isBarewordChar c =
      (c.isUpper || c.isLower || c.isDigit || c == '_' || c.toNat == 0x1a || decide (128 ≤ c.toNat)) :=
    fun _ => rfl
  have hupper : ∀ c : Char, c.toUpper.isUpper = true → isBarewordChar c = true := by
    intro c hc
    by_cases hlower : c.isLower = true
    · simp [hword, hlower]
    · have hsame : c.toUpper = c := by
        unfold Char.toUpper
        rw [dif_neg]
        intro h
        have hlowered : c.isLower = (decide (c.val ≥ 'a'.val) && decide (c.val ≤ 'z'.val)) := rfl
        exact hlower (by simpa [hlowered] using h)
      rw [hsame] at hc
      simp [hword, hc]
  have hreserved : ∀ r ∈ ftsReserved, r.toList.all Char.isUpper = true := by decide
  intro c hc
  apply hupper
  apply List.all_eq_true.mp (hreserved _ h)
  simpa using ⟨c, hc, rfl⟩

/-- What the sanitiser makes of a query is nothing or a list of words exactly when every character of the
query is harmless. -/
theorem sanitized_iff (query : String) :
    (sanitizeFtsQuery query = "" ∨ IsWordQuery (sanitizeFtsQuery query)) ↔
      ∀ c ∈ query.toList, Harmless c := by
  constructor
  · intro h c hc
    by_cases hspace : isSpace c = true
    · exact .inl hspace
    by_cases hsyntax : c ∈ ftsSyntax
    · exact .inr (.inl hsyntax)
    refine .inr (.inr ?_)
    have hmem : c ∈ query.toList.map fun c => if c ∈ ftsSyntax then ' ' else c :=
      List.mem_map.mpr ⟨c, hc, if_neg hsyntax⟩
    obtain ⟨w, hw, hcw⟩ := mem_splitWords (.inr ⟨hmem, by simpa using hspace⟩)
    by_cases hreserved : String.ofList (w.toList.map Char.toUpper) ∈ ftsReserved
    · exact bareword_of_reserved hreserved c hcw
    · have hkept : w ∈ queryWords query := List.mem_filter.mpr ⟨hw, by simpa using hreserved⟩
      have hquery : c ∈ (sanitizeFtsQuery query).toList := mem_wordQuery.mpr (.inl ⟨w, hkept, hcw⟩)
      obtain hempty | hwords := h
      · rw [hempty] at hquery
        simp at hquery
      · obtain hbare | rfl | rfl := hwords.chars hquery
        · exact hbare
        · exact absurd (by decide) hsyntax
        · exact absurd isSpace_space hspace
  · intro h
    by_cases hnone : queryWords query = []
    · left
      rw [sanitizeFtsQuery_eq, wordQuery_eq_empty]
      exact hnone
    · right
      refine ⟨queryWords query, hnone, fun w hw => ?_, sanitizeFtsQuery_eq query⟩
      obtain ⟨hsplit, hkept⟩ := List.mem_filter.mp hw
      constructor
      · refine ⟨(word_of_splitWords (by simp) hsplit).1, fun c hc => ?_⟩
        obtain ⟨hquery, hspace, hsyntax⟩ := mem_query_of_word hw hc
        obtain h | h | h := h c hquery
        · rw [hspace] at h
          cases h
        · exact absurd h hsyntax
        · exact h
      · intro hoperator
        have hreserved : ∀ op ∈ queryOperators,
            String.ofList (op.toList.map Char.toUpper) ∈ ftsReserved := by decide
        simp [hreserved w hoperator] at hkept

end Sanitize

section Search

variable {repo : ObservationRepository} {parser : QueryParser}

/-- The database with its full-text index, which takes no other queries than its parser does. -/
def MemoryStore.searchable (parser : QueryParser) : Semantics memorySignature Exn MemoryStore
  | ⟨.search query project limit, r⟩, s, s' =>
    if parser.accepts query then MemoryStore.serve ⟨.search query project limit, r⟩ s s'
    else s' = s ∧ ∃ m, r = .error (.operationalError ("fts5: syntax error near " ++ m))
  | ⟨c, r⟩, s, s' => MemoryStore.serve ⟨c, r⟩ s s'

theorem searchable_accepted {query : String} (h : parser.accepts query = true) {project : Option String}
    {limit : Option Int} {r : Except Exn (List ObservationRow)} {s s' : MemoryStore} :
    MemoryStore.searchable parser ⟨.search query project limit, r⟩ s s' ↔
      MemoryStore.serve ⟨.search query project limit, r⟩ s s' := by
  show (if parser.accepts query then _ else _) ↔ _
  rw [if_pos h]

/-- The query comes to nothing or to a list of words, and the search for it returns a list wherever the
rows can be read. -/
structure SearchHolds (parser : QueryParser) (repo : ObservationRepository) (query : String) : Prop where
  words : ObservationRepository.sanitizeFtsQuery query = "" ∨
    IsWordQuery (ObservationRepository.sanitizeFtsQuery query)
  returns : ∀ (limit : Option Int) (project : Option String) (s s' : Store) out,
    (∀ row ∈ s.1.observations.rows, Readable row) →
      (repo.search query limit project).Runs
        (Store.both (MemoryStore.searchable parser) SyncStore.serve) s out s' →
        ∃ observations, out = .ok observations

/-- A search for a list of words is served. -/
theorem search_returns {query : String}
    (h : ObservationRepository.sanitizeFtsQuery query = "" ∨
      IsWordQuery (ObservationRepository.sanitizeFtsQuery query))
    {limit : Option Int} {project : Option String} {s s' : Store} {out : Except Exn (List Observation)}
    (hreadable : ∀ row ∈ s.1.observations.rows, Readable row)
    (hruns : (repo.search query limit project).Runs
      (Store.both (MemoryStore.searchable parser) SyncStore.serve) s out s') :
    ∃ observations, out = .ok observations := by
  unfold ObservationRepository.search at hruns
  by_cases hempty : ObservationRepository.sanitizeFtsQuery query = ""
  · rw [if_pos hempty] at hruns
    exact ⟨[], hruns.1⟩
  · rw [if_neg hempty] at hruns
    have haccepts := parser.accepts_words _ (h.resolve_left hempty)
    have hserve : ∀ r, (memoryCall (.search (ObservationRepository.sanitizeFtsQuery query)
        (repo.projectFilter project) limit)).Runs
          (Store.both (MemoryStore.searchable parser) SyncStore.serve) s r s' →
        MemoryStore.serve ⟨.search (ObservationRepository.sanitizeFtsQuery query)
          (repo.projectFilter project) limit, r⟩ s.1 s'.1 := by
      intro r hr
      exact (searchable_accepted haccepts).mp (memoryCall_runs.mp hr).1
    obtain ⟨e, hcall, -⟩ | ⟨rows, hcall, rfl⟩ := ObservationRepository.readRows_runs.mp hruns
    · obtain ⟨-, hit, rows, -, hr⟩ := hserve _ hcall
      cases hr
    · obtain ⟨-, hit, listed, hlisting, hr⟩ := hserve _ hcall
      cases hr
      apply exists_mapM_eq_ok
      intro row hrow
      exact hreadable row (List.mem_of_mem_filter ((hlisting.mem_iff row).mp (mem_of_page hrow)))

/-- A search is for a list of words, and then returns, exactly when every character of its query is
white space, one that the sanitiser blanks out, or one of a bareword. -/
theorem search_holds_iff (parser : QueryParser) (repo : ObservationRepository) (query : String) :
    SearchHolds parser repo query ↔ ∀ c ∈ query.toList, Harmless c := by
  rw [← sanitized_iff]
  constructor
  · intro h
    exact h.words
  · intro h
    exact ⟨h, fun limit project s s' out hreadable hruns => search_returns h hreadable hruns⟩

section Example

/-- A parser that takes what is made of the characters of word lists. -/
def wordParser : QueryParser where
  accepts query := query.toList.all fun c => isBarewordChar c || c == '*' || c == ' '
  accepts_words := by
    intro query h
    apply List.all_eq_true.mpr
    intro c hc
    obtain h | h | h := h.chars hc <;> simp [h]

/-- An ordinary question. -/
theorem question_breaks_search :
    ¬ ∀ (parser : QueryParser) (repo : ObservationRepository) (query : String),
      SearchHolds parser repo query := by
  intro h
  have hwords := (h wordParser ⟨fun name => name, true⟩ "what is FastAPI?").words
  rw [sanitized_iff] at hwords
  have hmark : ¬ Harmless '?' := by decide
  exact hmark (hwords '?' (by decide))

end Example

end Search

end ForkAgent.Memory

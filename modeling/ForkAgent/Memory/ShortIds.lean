import ForkAgent.Memory.Recall
import Mathlib.Data.List.Infix

/-!
# Short ids

A short id is looked up exactly first, and then as a pattern: its own percent signs and underscores are
wildcards of the pattern, the letters of ASCII match in either case, and a null character ends the
pattern. A pattern that is too long is an error.
-/

namespace ForkAgent.Memory

open Effects Storage Sync MemoryStore ObservationRepository

section Like

/-- Two characters that `LIKE` takes for the same. -/
def sameFolded (c d : Char) : Bool := c.toLower == d.toLower

/-- `LIKE` on texts without null characters. -/
def like : List Char → List Char → Bool
  | [], text => text.isEmpty
  | '%' :: pattern, text => text.tails.any (like pattern)
  | '_' :: pattern, text =>
    match text with
    | [] => false
    | _ :: rest => like pattern rest
  | p :: pattern, text =>
    match text with
    | [] => false
    | c :: rest => sameFolded p c && like pattern rest

theorem like_percent {pattern text : List Char} :
    like ('%' :: pattern) text = true ↔ ∃ rest, rest <:+ text ∧ like pattern rest = true := by
  simp [like]

theorem like_cons {c : Char} {pattern rest : List Char} (h : like pattern rest = true) :
    like (c :: pattern) (c :: rest) = true := by
  unfold like
  split
  · next heq => cases heq
  · next heq =>
    cases heq
    exact like_percent.mpr ⟨rest, List.suffix_cons _ _, h⟩
  · next heq =>
    cases heq
    exact h
  · next heq =>
    cases heq
    simp [sameFolded, h]

theorem like_of_isPrefix {text whole : List Char} (h : text <+: whole) : like (text ++ ['%']) whole = true := by
  induction text generalizing whole with
  | nil =>
    rw [List.nil_append, like_percent]
    exact ⟨[], List.nil_suffix, rfl⟩
  | cons c text ih =>
    obtain ⟨rest, rfl⟩ := h
    exact like_cons (ih (List.prefix_append text rest))

/-- `LIKE` reads pattern and text up to their first null characters. -/
def untilNull (text : List Char) : List Char := text.takeWhile (· ≠ '\x00')

/-- `text LIKE pattern`. -/
def likeText (pattern text : String) : Bool := like (untilNull pattern.toList) (untilNull text.toList)

theorem like_self (text : List Char) : like text text = true := by
  induction text with
  | nil => rfl
  | cons c text ih => exact like_cons ih

theorem likeText_of_isPrefix {text whole : String} (h : text.toList <+: whole.toList) :
    likeText (text ++ "%") whole = true := by
  obtain ⟨rest, hrest⟩ := h
  unfold likeText
  rw [String.toList_append, ← hrest]
  by_cases hnull : ∀ c ∈ text.toList, decide (c ≠ '\x00') = true
  · rw [untilNull, untilNull, List.takeWhile_append_of_pos hnull, List.takeWhile_append_of_pos hnull]
    exact like_of_isPrefix (List.prefix_append text.toList _)
  · have hends : ∀ more, untilNull (text.toList ++ more) = untilNull text.toList := by
      intro more
      unfold untilNull
      rw [List.takeWhile_append, if_neg fun hlength => ?_]
      have hwhole := (List.takeWhile_prefix (p := (· ≠ '\x00')) (l := text.toList)).eq_of_length hlength
      exact hnull (List.takeWhile_eq_self_iff.mp hwhole)
    rw [hends, hends]
    exact like_self _

end Like

section Lookup

/-- The statement that short ids add to those of the store. -/
inductive PatternCall where
  | selectByIdLike (pattern : String)

abbrev PatternCall.Value : PatternCall → Type
  | .selectByIdLike _ => List ObservationRow

def patternSignature : Signature := ⟨PatternCall, PatternCall.Value⟩

def shortIdSignature : Signature := storeSignature.sum patternSignature

abbrev ShortIdProgram := Program shortIdSignature Exn

/-- `id LIKE pattern`. -/
def idsLike (pattern : String) (rows : List ObservationRow) : List ObservationRow :=
  rows.filter fun row => likeText pattern row.id

/-- `SQLITE_MAX_LIKE_PATTERN_LENGTH`, in bytes. -/
def maxPatternLength : Nat := 50000

/-- The first row that is compared with too long a pattern is an error. -/
def PatternTooLong (pattern : String) (rows : List ObservationRow) : Prop :=
  maxPatternLength < pattern.utf8ByteSize ∧ rows.isEmpty = false

instance (pattern : String) (rows : List ObservationRow) : Decidable (PatternTooLong pattern rows) :=
  inferInstanceAs (Decidable (_ ∧ _))

/-- What the statement answers. -/
def selectLike (pattern : String) (rows : List ObservationRow) : Except Exn (List ObservationRow) :=
  if PatternTooLong pattern rows then .error (.operationalError "LIKE or GLOB pattern too complex")
  else .ok (idsLike pattern rows)

def Store.matching : Semantics shortIdSignature Exn Store
  | ⟨.inl c, r⟩, s, s' => Store.serving ⟨c, r⟩ s s'
  | ⟨.inr (.selectByIdLike pattern), r⟩, s, s' => s' = s ∧ r = selectLike pattern s.1.observations.rows

def selectByIdLike (pattern : String) : ShortIdProgram (List ObservationRow) :=
  .perform (σ := shortIdSignature) (.inr (.selectByIdLike pattern))

/-- The operations of the store, as they are. -/
def stored {α : Type} (p : MemoryProgram α) : ShortIdProgram α := p.lift (.inl storeSignature patternSignature)

def getByIdPrefix (text : String) : ShortIdProgram (List Observation) := do
  let rows ← (selectByIdLike (text ++ "%")).handle fun e =>
    .fail (sqliteErrorAs "Failed to get observations by prefix" e)
  .ofExcept (rows.mapM rowToObservation)

/-- The one match, if there is no other. -/
def onlyMatch (observationId : String) (found : List Observation) : Except Exn Observation :=
  match found with
  | [o] => .ok o
  | [] => .error (.observationNotFoundError s!"Observation not found: {observationId}")
  | _ => .error (.valueError s!"Ambiguous ID '{observationId}' matches {found.length} observations")

def resolveObservationId (observationId : String) : ShortIdProgram Observation :=
  (stored (getById observationId)).handle fun e =>
    match e with
    | .observationNotFoundError _ => do
      let found ← getByIdPrefix observationId
      .ofExcept (onlyMatch observationId found)
    | _ => throw e

/-- The tail of the command that deletes; its project check may only stop it before. -/
def deleteByShortId (repo : ObservationRepository) (observationId : String) : ShortIdProgram Unit := do
  let resolved ← resolveObservationId observationId
  stored (repo.delete resolved.val.id)

def updateByShortId (svc : MemoryService) (observationId : String) (args : UpdateArgs) :
    ShortIdProgram Observation := do
  let resolved ← resolveObservationId observationId
  stored (svc.update resolved.val.id args)

variable {s s' : Store} {α : Type}

theorem stored_runs {p : MemoryProgram α} {out : Except Exn α} :
    (stored p).Runs Store.matching s out s' ↔ p.Runs Store.serving s out s' := by
  apply Program.runs_lift
  intro c r s s'
  cases r with
  | error e => exact Iff.rfl
  | ok v => exact Iff.rfl

theorem getById_served {observationId : String} {out : Except Exn Observation} :
    (getById observationId).Runs Store.serving s out s' ↔
      s' = s ∧ out = match findId observationId s.1.observations.rows with
        | some row => rowToObservation row
        | none => .error (notFound observationId) := by
  constructor
  · intro h
    obtain ⟨e, hfetch, -⟩ | ⟨found, t, hfetch, hrest⟩ := statement_bind_runs.mp h
    · cases hfetch.2
    · obtain ⟨rfl, hfound⟩ := hfetch
      have hfound : found = findId observationId s.1.observations.rows := Except.ok.inj hfound
      rw [hfound] at hrest
      cases hfind : findId observationId s.1.observations.rows with
      | none =>
        rw [hfind] at hrest
        exact ⟨hrest.2, hrest.1⟩
      | some row =>
        rw [hfind] at hrest
        exact (Program.runs_ofExcept.mp hrest).symm
  · rintro ⟨rfl, rfl⟩
    cases hfind : findId observationId s'.1.observations.rows with
    | none => exact statement_bind_runs.mpr (.inr ⟨none, s'.1, ⟨rfl, congrArg Except.ok hfind.symm⟩, rfl, rfl⟩)
    | some row =>
      exact statement_bind_runs.mpr (.inr ⟨some row, s'.1, ⟨rfl, congrArg Except.ok hfind.symm⟩,
        Program.runs_ofExcept.mpr ⟨rfl, rfl⟩⟩)

/-- The observations that a pattern finds, or the error that it raises. -/
def found (text : String) (rows : List ObservationRow) : Except Exn (List Observation) :=
  if PatternTooLong (text ++ "%") rows then
    .error (.repositoryError "Failed to get observations by prefix: LIKE or GLOB pattern too complex")
  else (idsLike (text ++ "%") rows).mapM rowToObservation

theorem getByIdPrefix_runs {text : String} {out : Except Exn (List Observation)} :
    (getByIdPrefix text).Runs Store.matching s out s' ↔
      s' = s ∧ out = found text s.1.observations.rows := by
  have hselect : ∀ r s₁, Store.matching ⟨.inr (.selectByIdLike (text ++ "%")), r⟩ s s₁ ↔
      s₁ = s ∧ r = selectLike (text ++ "%") s.1.observations.rows := fun _ _ => Iff.rfl
  by_cases hlong : PatternTooLong (text ++ "%") s.1.observations.rows
  · simp only [selectLike, if_pos hlong] at hselect
    rw [found, if_pos hlong]
    constructor
    · rintro ⟨r, s₁, hstep, hrest⟩
      obtain ⟨rfl, rfl⟩ := (hselect r s₁).mp hstep
      exact And.comm.mp hrest
    · rintro ⟨rfl, rfl⟩
      exact ⟨_, s', (hselect _ _).mpr ⟨rfl, rfl⟩, rfl, rfl⟩
  · simp only [selectLike, if_neg hlong] at hselect
    rw [found, if_neg hlong]
    constructor
    · rintro ⟨r, s₁, hstep, hrest⟩
      obtain ⟨rfl, rfl⟩ := (hselect r s₁).mp hstep
      exact (Program.runs_ofExcept.mp hrest).symm
    · rintro ⟨rfl, rfl⟩
      exact ⟨_, s', (hselect _ _).mpr ⟨rfl, rfl⟩, Program.runs_ofExcept.mpr ⟨rfl, rfl⟩⟩

/-- What an id resolves to. -/
def resolved (observationId : String) (rows : List ObservationRow) : Except Exn Observation :=
  match findId observationId rows with
  | some row => rowToObservation row
  | none => found observationId rows >>= onlyMatch observationId

theorem resolve_runs {observationId : String} {out : Except Exn Observation} :
    (resolveObservationId observationId).Runs Store.matching s out s' ↔
      s' = s ∧ out = resolved observationId s.1.observations.rows := by
  have hpattern : ∀ {u : Store}, (do
      let found ← getByIdPrefix observationId
      .ofExcept (onlyMatch observationId found) : ShortIdProgram Observation).Runs Store.matching u out s' ↔
        s' = u ∧ out = found observationId u.1.observations.rows >>= onlyMatch observationId := by
    intro u
    rw [Program.runs_bind]
    simp only [getByIdPrefix_runs, Program.runs_ofExcept]
    cases found observationId u.1.observations.rows with
    | error e => simp [bind, Except.bind]
    | ok os => simp [bind, Except.bind, and_comm]
  have hget : ∀ {r u}, (stored (getById observationId)).Runs Store.matching s r u ↔
      u = s ∧ r = match findId observationId s.1.observations.rows with
        | some row => rowToObservation row
        | none => .error (notFound observationId) := stored_runs.trans getById_served
  unfold resolveObservationId resolved
  rw [Program.runs_handle]
  cases hfind : findId observationId s.1.observations.rows with
  | some row =>
    simp only [hget, hfind]
    cases hread : rowToObservation row with
    | ok o => simp [and_comm]
    | error e =>
      have hvalidation := checks_rowToObservation row e hread
      cases e with
      | typeError m => simp [and_comm]
      | valueError m => simp [and_comm]
      | _ => exact hvalidation.elim
  | none =>
    simp only [hget, hfind]
    constructor
    · rintro (⟨o, ⟨-, h⟩, -⟩ | ⟨e, u, ⟨rfl, he⟩, hrest⟩)
      · cases h
      · cases he
        exact hpattern.mp hrest
    · intro h
      exact .inr ⟨_, s, ⟨rfl, rfl⟩, hpattern.mpr h⟩

end Lookup

section Exactness

variable {repo : ObservationRepository} {svc : MemoryService} {text : String} {rows : List ObservationRow}
  {s s' : Store}

/-- The id of a row starts with a text. -/
def StartsWith (text : String) (row : ObservationRow) : Prop := text.toList <+: row.id.toList

instance : DecidablePred (StartsWith text) := fun _ => inferInstanceAs (Decidable (_ <+: _))

def idsFrom (text : String) (rows : List ObservationRow) : List ObservationRow :=
  rows.filter fun row => StartsWith text row

/-- The row that a text stands for: the one with that id or, if there is none, the only one whose id
starts with the text. -/
def StandsFor (text : String) (rows : List ObservationRow) (row : ObservationRow) : Prop :=
  findId text rows = some row ∨ findId text rows = none ∧ idsFrom text rows = [row]

/-- What is due of an outcome: the observation that the text stands for, an error that says that the text
is ambiguous, or that it is unknown. -/
structure IsDue (text : String) (rows : List ObservationRow) (out : Except Exn Observation) : Prop where
  returns : ∀ o, out = .ok o ↔ ∃ row, StandsFor text rows row ∧ rowToObservation row = .ok o
  ambiguous : (∃ m, out = .error (.valueError m)) ↔
    findId text rows = none ∧ 2 ≤ (idsFrom text rows).length
  missing : (∃ m, out = .error (.observationNotFoundError m)) ↔ idsFrom text rows = []

/-- A text resolves to what is due, and what is deleted or updated by it starts with it. -/
structure ResolvesExactly (svc : MemoryService) (text : String) (s : Store) : Prop where
  due : ∀ out s', (resolveObservationId text).Runs Store.matching s out s' →
    IsDue text s.1.observations.rows out
  deletes : ∀ out s', (deleteByShortId svc.repository text).Runs Store.matching s out s' →
    ∀ row ∈ s.1.observations.rows, ¬ StartsWith text row → row ∈ s'.1.observations.rows
  updates : ∀ args out s', (updateByShortId svc text args).Runs Store.matching s out s' →
    ∀ row ∈ s.1.observations.rows, ¬ StartsWith text row → row ∈ s'.1.observations.rows

theorem mem_idsFrom {row : ObservationRow} : row ∈ idsFrom text rows ↔ row ∈ rows ∧ StartsWith text row := by
  simp [idsFrom]

theorem StandsFor.mem {row : ObservationRow} (h : StandsFor text rows row) : row ∈ idsFrom text rows := by
  obtain h | ⟨-, h⟩ := h
  · obtain ⟨hmem, hid⟩ := mem_of_findId h
    refine mem_idsFrom.mpr ⟨hmem, ?_⟩
    rw [StartsWith, hid]
  · rw [h]
    exact List.mem_singleton_self row

theorem StandsFor.unique {row row' : ObservationRow} (h : StandsFor text rows row)
    (h' : StandsFor text rows row') : row = row' := by
  obtain h | ⟨hnone, h⟩ := h
  · obtain h' | ⟨hnone', -⟩ := h'
    · exact Option.some.inj (h.symm.trans h')
    · rw [h] at hnone'
      cases hnone'
  · obtain h' | ⟨-, h'⟩ := h'
    · rw [h'] at hnone
      cases hnone
    · exact List.singleton_inj.mp (h.symm.trans h')

theorem stands_or (text : String) (rows : List ObservationRow) :
    (∃ row, StandsFor text rows row) ∨ (findId text rows = none ∧ 2 ≤ (idsFrom text rows).length) ∨
      findId text rows = none ∧ idsFrom text rows = [] := by
  cases hfind : findId text rows with
  | some row => exact .inl ⟨row, .inl hfind⟩
  | none =>
    match hfrom : idsFrom text rows with
    | [] => exact .inr (.inr ⟨rfl, rfl⟩)
    | [row] => exact .inl ⟨row, .inr ⟨hfind, hfrom⟩⟩
    | _ :: _ :: _ => exact .inr (.inl ⟨rfl, by simp⟩)

theorem idsFrom_sublist : (idsFrom text rows).Sublist (idsLike (text ++ "%") rows) := by
  apply List.monotone_filter_right
  intro row h
  exact likeText_of_isPrefix (of_decide_eq_true h)

/-- The rows that are read: the one with that id or, if there is none, those that match the pattern. -/
def consulted (text : String) (rows : List ObservationRow) : List ObservationRow :=
  match findId text rows with
  | some row => [row]
  | none => idsLike (text ++ "%") rows

/-- The state a text resolves exactly in: where the rows that are read can be read, there is one with that
id, or two ids start with it, or the pattern matches no other ids; where they cannot, or where the
pattern is too long, the error that this raises is the one that is due. -/
def Decides (text : String) (rows : List ObservationRow) : Prop :=
  if findId text rows = none ∧ PatternTooLong (text ++ "%") rows then ∃ row, StandsFor text rows row ∧ ¬ Readable row
  else match (consulted text rows).mapM rowToObservation with
  | .ok _ => findId text rows ≠ none ∨ 2 ≤ (idsFrom text rows).length ∨
      idsLike (text ++ "%") rows = idsFrom text rows
  | .error (.valueError _) => findId text rows = none ∧ 2 ≤ (idsFrom text rows).length
  | .error _ => ∃ row, StandsFor text rows row ∧ ¬ Readable row

theorem StandsFor.not_ambiguous {row : ObservationRow} (h : StandsFor text rows row) :
    ¬ (findId text rows = none ∧ 2 ≤ (idsFrom text rows).length) := by
  rintro ⟨hnone, hlength⟩
  obtain h | ⟨-, h⟩ := h
  · rw [hnone] at h
    cases h
  · rw [h] at hlength
    simp at hlength

theorem StandsFor.idsFrom_ne {row : ObservationRow} (h : StandsFor text rows row) : idsFrom text rows ≠ [] :=
  List.ne_nil_of_mem h.mem

theorem isDue_ok {row : ObservationRow} {o : Observation} (h : StandsFor text rows row)
    (hread : rowToObservation row = .ok o) : IsDue text rows (.ok o) where
  returns o' := by
    constructor
    · intro heq
      cases heq
      exact ⟨row, h, hread⟩
    · rintro ⟨row', h', hread'⟩
      rw [← h.unique h', hread] at hread'
      exact hread'
  ambiguous := iff_of_false (by simp) h.not_ambiguous
  missing := iff_of_false (by simp) h.idsFrom_ne

theorem isDue_valueError {m : String} :
    IsDue text rows (.error (.valueError m)) ↔ findId text rows = none ∧ 2 ≤ (idsFrom text rows).length := by
  constructor
  · intro h
    exact h.ambiguous.mp ⟨m, rfl⟩
  · intro h
    have hnone : ∀ row, ¬ StandsFor text rows row := fun row hrow => hrow.not_ambiguous h
    have hne : idsFrom text rows ≠ [] := List.ne_nil_of_length_pos (by omega)
    exact ⟨fun o => iff_of_false (by simp) fun ⟨row, hrow, _⟩ => hnone row hrow,
      iff_of_true ⟨m, rfl⟩ h, iff_of_false (by simp) hne⟩

theorem isDue_error {e : Exn} (hvalue : ∀ m, e ≠ .valueError m)
    (hmissing : ∀ m, e ≠ .observationNotFoundError m) :
    IsDue text rows (.error e) ↔ ∃ row, StandsFor text rows row ∧ ¬ Readable row := by
  constructor
  · intro h
    obtain ⟨row, hrow⟩ | hambiguous | ⟨-, hnil⟩ := stands_or text rows
    · refine ⟨row, hrow, ?_⟩
      rintro ⟨o, ho⟩
      cases (h.returns o).mpr ⟨row, hrow, ho⟩
    · obtain ⟨m, hm⟩ := h.ambiguous.mpr hambiguous
      exact absurd (Except.error.inj hm) (hvalue m)
    · obtain ⟨m, hm⟩ := h.missing.mpr hnil
      exact absurd (Except.error.inj hm) (hmissing m)
  · rintro ⟨row, hrow, hunread⟩
    refine ⟨fun o => iff_of_false (by simp) ?_, iff_of_false ?_ hrow.not_ambiguous,
      iff_of_false ?_ hrow.idsFrom_ne⟩
    · rintro ⟨row', hrow', hread⟩
      rw [← hrow.unique hrow'] at hread
      exact hunread ⟨o, hread⟩
    · rintro ⟨m, hm⟩
      exact hvalue m (Except.error.inj hm)
    · rintro ⟨m, hm⟩
      exact hmissing m (Except.error.inj hm)

/-- Where the rows that match the pattern can be read, it is only the pattern that may go wrong. -/
theorem isDue_onlyMatch {os : List Observation} (hnone : findId text rows = none)
    (hread : (idsLike (text ++ "%") rows).mapM rowToObservation = .ok os) :
    IsDue text rows (onlyMatch text os) ↔
      2 ≤ (idsFrom text rows).length ∨ idsLike (text ++ "%") rows = idsFrom text rows := by
  have hsublist : (idsFrom text rows).Sublist (idsLike (text ++ "%") rows) := idsFrom_sublist
  have hlength := (mapM_eq_ok.mp hread).length_eq
  match os, hread, hlength with
  | [], hread, hlength =>
    have hlike : idsLike (text ++ "%") rows = [] := List.length_eq_zero_iff.mp hlength
    rw [hlike, List.sublist_nil] at hsublist
    have hstands : ∀ row, ¬ StandsFor text rows row := fun row hrow => hrow.idsFrom_ne hsublist
    refine iff_of_true ⟨fun o => iff_of_false (by simp [onlyMatch]) ?_, iff_of_false (by simp [onlyMatch]) ?_,
      iff_of_true ⟨_, rfl⟩ hsublist⟩ (.inr (hlike.trans hsublist.symm))
    · rintro ⟨row, hrow, -⟩
      exact hstands row hrow
    · simp [hsublist]
  | [o], hread, hlength =>
    obtain ⟨row, hlike⟩ := List.length_eq_one_iff.mp hlength
    have hrow : rowToObservation row = .ok o := by
      rw [hlike, mapM_eq_ok] at hread
      cases hread with
      | cons h => exact h
    have hle := hsublist.length_le
    rw [hlike, List.length_singleton] at hle
    constructor
    · intro h
      obtain ⟨row', hrow', hread'⟩ := (h.returns o).mp rfl
      obtain hfind | ⟨-, hfrom⟩ := hrow'
      · rw [hnone] at hfind
        cases hfind
      · right
        rw [hlike, hfrom] at hsublist
        rw [hlike, hfrom, List.eq_of_mem_singleton (hsublist.subset (List.mem_singleton_self _))]
    · rintro (h | h)
      · omega
      · exact isDue_ok (.inr ⟨hnone, h.symm.trans hlike⟩) hrow
  | o :: o' :: os, hread, hlength =>
    have hmany : 2 ≤ (idsLike (text ++ "%") rows).length := by
      rw [hlength]
      simp
    refine isDue_valueError.trans ⟨fun h => .inl h.2, ?_⟩
    rintro (h | h)
    · exact ⟨hnone, h⟩
    · rw [h] at hmany
      exact ⟨hnone, hmany⟩

theorem resolved_isDue (text : String) (rows : List ObservationRow) :
    IsDue text rows (resolved text rows) ↔ Decides text rows := by
  have herror : ∀ row e, rowToObservation row = .error e →
      (∃ m, e = .typeError m) ∨ ∃ m, e = .valueError m := by
    intro row e he
    have hchecks := checks_rowToObservation row e he
    cases e with
    | typeError m => exact .inl ⟨m, rfl⟩
    | valueError m => exact .inr ⟨m, rfl⟩
    | _ => exact hchecks.elim
  unfold resolved Decides consulted
  cases hfind : findId text rows with
  | some row =>
    have hstands : StandsFor text rows row := .inl hfind
    rw [if_neg (by simp)]
    show IsDue text rows (rowToObservation row) ↔ _
    cases hread : rowToObservation row with
    | ok o =>
      rw [mapM_eq_ok.mpr (.cons hread .nil)]
      exact iff_of_true (isDue_ok hstands hread) (.inl (by simp))
    | error e =>
      have hmapM : [row].mapM rowToObservation = .error e := by
        rw [List.mapM_cons, hread]
        rfl
      rw [hmapM]
      obtain ⟨m, rfl⟩ | ⟨m, rfl⟩ := herror row e hread
      · exact isDue_error nofun nofun
      · exact isDue_valueError.trans (by rw [hfind])
  | none =>
    by_cases hlong : PatternTooLong (text ++ "%") rows
    · rw [if_pos ⟨rfl, hlong⟩, found, if_pos hlong]
      exact isDue_error nofun nofun
    rw [if_neg (by simp [hlong]), found, if_neg hlong]
    cases hread : (idsLike (text ++ "%") rows).mapM rowToObservation with
    | ok os => exact (isDue_onlyMatch hfind hread).trans (by simp)
    | error e =>
      obtain ⟨row, -, hrow⟩ := mem_of_mapM_eq_error hread
      obtain ⟨m, rfl⟩ | ⟨m, rfl⟩ := herror row e hrow
      · exact isDue_error nofun nofun
      · exact isDue_valueError.trans (by rw [hfind])

theorem delete_others {id : String} {out : Except Exn Unit}
    (h : (repo.delete id).Runs Store.serving s out s') {row : ObservationRow}
    (hrow : row ∈ s.1.observations.rows) (hid : row.id ≠ id) : row ∈ s'.1.observations.rows := by
  obtain ⟨r, hserve⟩ : ∃ r, MemoryStore.serve ⟨.delete id, r⟩ s.1 s'.1 := by
    obtain ⟨e, hserve, -⟩ | ⟨hserve, -⟩ | ⟨hserve, -⟩ := repo.delete_runs.mp h
    · exact ⟨_, hserve⟩
    · exact ⟨_, hserve⟩
    · exact ⟨_, hserve⟩
  rw [hserve.2]
  exact List.mem_filter.mpr ⟨hrow, by simpa using hid⟩

/-- An update leaves the rows of other ids. -/
theorem update_others {id : String} {args : UpdateArgs} {out : Except Exn Observation}
    (h : (svc.update id args).Runs Store.serving s out s') {row : ObservationRow}
    (hrow : row ∈ s.1.observations.rows) (hid : row.id ≠ id) : row ∈ s'.1.observations.rows := by
  obtain ⟨e, hget, -⟩ | ⟨existing, s₁, hget, hrest⟩ := Program.runs_bind.mp h
  · rw [(getById_served.mp hget).1]
    exact hrow
  obtain ⟨rfl, hfound⟩ := getById_served.mp hget
  obtain ⟨e, hconstruct, -⟩ | ⟨o, s₂, hconstruct, hstore⟩ := Program.runs_bind.mp hrest
  · rw [(Program.runs_ofExcept.mp hconstruct).2]
    exact hrow
  obtain ⟨hval, rfl⟩ := Program.runs_ofExcept.mp hconstruct
  have hupdated : o.val.id = id := by
    rw [construct_eq_ok.mp hval.symm]
    show existing.val.id = id
    cases hfind : findId id s₂.1.observations.rows with
    | none =>
      rw [hfind] at hfound
      cases hfound
    | some old =>
      rw [hfind] at hfound
      rw [← (mem_of_findId hfind).2]
      exact (Except.ok.inj (observation_eq_ok.mp hfound.symm).id).symm
  obtain ⟨r, hupdate⟩ : ∃ r, (svc.repository.update o).Runs Store.serving s₂ r s' := by
    obtain ⟨e, hupdate, -⟩ | ⟨_, s₃, hupdate, -, rfl⟩ := Program.runs_bind.mp hstore
    · exact ⟨_, hupdate⟩
    · exact ⟨_, hupdate⟩
  obtain ⟨e, hserve, -⟩ | ⟨hserve, -⟩ | ⟨hserve, -⟩ := svc.repository.update_runs.mp hupdate
  · rw [step_error (.inl hserve)]
    exact hrow
  · obtain ⟨hfalse, -⟩ | ⟨-, hsame, -⟩ := update_ok (.inl hserve)
    · cases hfalse
    · rw [hsame]
      exact hrow
  · obtain ⟨-, old, -, hold, hrows⟩ | ⟨hfalse, -⟩ := update_ok (.inl hserve)
    · rw [hrows, mem_updateWhere]
      refine .inr ⟨hrow, ?_⟩
      rw [hold, show (svc.repository.row o.val).id = id from hupdated]
      simpa using hid
    · cases hfalse

theorem resolve_startsWith (hdue : IsDue text s.1.observations.rows (resolved text s.1.observations.rows))
    {o : Observation} (hout : .ok o = resolved text s.1.observations.rows) {row : ObservationRow}
    (hrow : ¬ StartsWith text row) : row.id ≠ o.val.id := by
  obtain ⟨found, hstands, hread⟩ := (hdue.returns o).mp hout.symm
  have hid : found.id = o.val.id := Except.ok.inj (observation_eq_ok.mp hread).id
  intro hsame
  apply hrow
  rw [StartsWith, hsame, ← hid]
  exact (mem_idsFrom.mp hstands.mem).2

section Example

/-- The only observation there is. -/
def lone : Observation := ⟨{ id := "abc", timestamp := 0, content := "note" }, rfl⟩

def loneService : MemoryService := ⟨plainRepository, fun content metadata => (content, metadata)⟩

end Example

end Exactness

end ForkAgent.Memory

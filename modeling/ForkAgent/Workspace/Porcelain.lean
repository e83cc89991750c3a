import ForkAgent.Python.Lines

/-!
# The listing of worktrees

A listing in the porcelain format has a block of lines for each worktree, ended by an empty line. The executor splits
what git writes at every break that `str.splitlines` knows, strips each line and looks at how it begins.
-/

namespace ForkAgent.Workspace

/-- A block of a listing: the lines that the executor looks for, and the other lines. -/
structure WorktreeBlock where
  path : String
  head : Option String := none
  branch : Option String := none
  others : List String := []

namespace WorktreeBlock

def lines (b : WorktreeBlock) : List String :=
  ["worktree " ++ b.path] ++ (b.head.map ("HEAD " ++ ·)).toList ++ (b.branch.map ("branch " ++ ·)).toList ++
    b.others ++ [""]

/-- The text of a listing. -/
def text (blocks : List WorktreeBlock) : String :=
  String.ofList (unlines ((blocks.flatMap lines).map String.toList))

end WorktreeBlock

/-- One dictionary of the list that the executor makes of the output. -/
structure WorktreeEntry where
  path : Option String := none
  head : Option String := none
  branch : Option String := none
  deriving DecidableEq, Repr

/-- `text.startswith(start)`. -/
def startsWith (start text : String) : Bool := start.toList.isPrefixOf text.toList

/-- `line.split(" ", 1)[1]`, of a line that has a blank. -/
def afterBlank (line : String) : String := String.ofList ((line.toList.dropWhile (· ≠ ' ')).drop 1)

/-- The dictionary after one more line. -/
def WorktreeEntry.note (entry : WorktreeEntry) (line : String) : WorktreeEntry :=
  if startsWith "worktree " line then { entry with path := some (afterBlank line) }
  else if startsWith "branch " line then { entry with branch := some (afterBlank line) }
  else if line = "HEAD" then entry
  else if startsWith "HEAD " line then { entry with head := some (afterBlank line) }
  else entry

/-- The dictionaries that are finished, and the one that is not. -/
abbrev Listing := List WorktreeEntry × WorktreeEntry

def Listing.close (listing : Listing) : List WorktreeEntry :=
  if listing.2 = {} then listing.1 else listing.1 ++ [listing.2]

/-- One line of the output. -/
def Listing.read (listing : Listing) (line : List Char) : Listing :=
  let line := strip (String.ofList line)
  if line = "" then (listing.close, {}) else (listing.1, listing.2.note line)

/-- `GitCommandExecutor.worktree_list`, from the output of git. -/
def worktreeList (stdout : String) : List WorktreeEntry :=
  ((splitlines stdout.toList).foldl Listing.read (([], {}) : Listing)).close

/-- The dictionary that stands for the block. -/
def WorktreeBlock.entry (b : WorktreeBlock) : WorktreeEntry := ⟨some b.path, b.head, b.branch⟩

/-- A text that a line can end with: nothing breaks it, and no blank at its end is stripped. -/
structure Readable (text : String) : Prop where
  nonempty : text ≠ ""
  unbroken : Unbroken text.toList
  ends : ∀ c ∈ text.toList.getLast?, isSpace c = false

/-- A line that the executor passes over. -/
structure PassedOver (line : String) : Prop where
  unbroken : Unbroken line.toList
  nonempty : strip line ≠ ""
  wordless : ∀ word ∈ ["worktree ", "branch ", "HEAD "], startsWith word (strip line) = false

/-- All that is to be read of the entry is readable. -/
structure WorktreeEntry.Readable (entry : WorktreeEntry) : Prop where
  path : ∀ text ∈ entry.path, Workspace.Readable text
  head : ∀ text ∈ entry.head, Workspace.Readable text
  branch : ∀ text ∈ entry.branch, Workspace.Readable text

instance (line : String) : Decidable (PassedOver line) :=
  decidable_of_iff (Unbroken line.toList ∧ strip line ≠ "" ∧
      ∀ word ∈ ["worktree ", "branch ", "HEAD "], startsWith word (strip line) = false)
    ⟨fun h => ⟨h.1, h.2.1, h.2.2⟩, fun h => ⟨h.unbroken, h.nonempty, h.wordless⟩⟩

instance (text : String) : Decidable (Readable text) :=
  have : Decidable (∀ c ∈ text.toList.getLast?, isSpace c = false) := Option.decidableForallMem _
  decidable_of_iff (text ≠ "" ∧ Unbroken text.toList ∧ ∀ c ∈ text.toList.getLast?, isSpace c = false)
    ⟨fun h => ⟨h.1, h.2.1, h.2.2⟩, fun h => ⟨h.nonempty, h.unbroken, h.ends⟩⟩

instance (entry : WorktreeEntry) : Decidable entry.Readable :=
  decidable_of_iff ((∀ text ∈ entry.path, Readable text) ∧ (∀ text ∈ entry.head, Readable text) ∧
      ∀ text ∈ entry.branch, Readable text)
    ⟨fun h => ⟨h.1, h.2.1, h.2.2⟩, fun h => ⟨h.path, h.head, h.branch⟩⟩

section Strip

variable {text : String} {c : Char} {cs : List Char}

theorem toList_strip (text : String) :
    (strip text).toList = ((text.toList.dropWhile isSpace).reverse.dropWhile isSpace).reverse := by
  rw [strip, String.toList_ofList]

theorem infix_strip (text : String) : (strip text).toList <:+: text.toList := by
  rw [toList_strip]
  have hend : ((text.toList.dropWhile isSpace).reverse.dropWhile isSpace).reverse <+:
      text.toList.dropWhile isSpace := by
    have hsuffix := List.dropWhile_suffix isSpace (l := (text.toList.dropWhile isSpace).reverse)
    simpa using List.reverse_prefix.mpr hsuffix
  exact hend.isInfix.trans (List.dropWhile_suffix isSpace).isInfix

theorem ends_strip (text : String) : ∀ c ∈ (strip text).toList.getLast?, isSpace c = false := by
  intro c hc
  rw [toList_strip, List.getLast?_reverse] at hc
  have hhead := List.head?_dropWhile_not isSpace (text.toList.dropWhile isSpace).reverse
  rw [hc] at hhead
  simpa using hhead

theorem strip_of_ends (hstarts : ∀ c ∈ text.toList.head?, isSpace c = false)
    (hends : ∀ c ∈ text.toList.getLast?, isSpace c = false) : strip text = text := by
  have hdrop : ∀ l : List Char, (∀ c ∈ l.head?, isSpace c = false) → l.dropWhile isSpace = l := by
    intro l hl
    cases l with
    | nil => rfl
    | cons c l => exact List.dropWhile_cons_of_neg (by simpa using hl)
  rw [strip, hdrop _ hstarts, hdrop]
  · simp
  · intro c hc
    rw [List.head?_reverse] at hc
    exact hends c hc

end Strip

section Lines

variable {text : String} {entry : WorktreeEntry} {listing : Listing}

theorem strip_line {word : String} {c : Char} {cs : List Char} (htext : Readable text)
    (hword : word.toList = c :: cs) (hspace : isSpace c = false) : strip (word ++ text) = word ++ text := by
  apply strip_of_ends
  · intro d hd
    rw [String.toList_append, hword, List.cons_append, List.head?_cons] at hd
    rw [← Option.some.inj hd]
    exact hspace
  · have htextne : text.toList ≠ [] := fun h => htext.nonempty (String.toList_inj.mp h)
    rw [String.toList_append, List.getLast?_append_of_ne_nil _ htextne]
    exact htext.ends

theorem note_path (text : String) : entry.note ("worktree " ++ text) = { entry with path := some text } := by
  simp [WorktreeEntry.note, startsWith, afterBlank]

theorem note_branch (text : String) : entry.note ("branch " ++ text) = { entry with branch := some text } := by
  simp [WorktreeEntry.note, startsWith, afterBlank]

theorem note_head (text : String) : entry.note ("HEAD " ++ text) = { entry with head := some text } := by
  have hne : "HEAD " ++ text ≠ "HEAD" := by
    intro heq
    have hlength := congrArg String.length heq
    rw [String.length_append, show "HEAD ".length = 5 from rfl, show "HEAD".length = 4 from rfl] at hlength
    omega
  simp [WorktreeEntry.note, startsWith, afterBlank, hne]

theorem read_of_strip {line : String} (hstrip : strip line = line) (hne : line ≠ "") :
    listing.read line.toList = (listing.1, listing.2.note line) := by
  rw [Listing.read, String.ofList_toList, hstrip]
  exact if_neg hne

theorem read_empty : listing.read "".toList = (listing.close, {}) := by
  rw [Listing.read, String.ofList_toList, show strip "" = "" by decide]
  exact if_pos rfl

theorem read_line {word : String} {c : Char} {cs : List Char} (htext : Readable text)
    (hword : word.toList = c :: cs) (hspace : isSpace c = false) :
    listing.read (word ++ text).toList = (listing.1, listing.2.note (word ++ text)) := by
  apply read_of_strip (strip_line htext hword hspace)
  intro hempty
  have hlist := congrArg String.toList hempty
  rw [String.toList_append, hword] at hlist
  cases hlist

theorem read_passedOver {line : String} (h : PassedOver line) : listing.read line.toList = listing := by
  rw [Listing.read, String.ofList_toList]
  simp only [if_neg h.nonempty]
  have hworktree := h.wordless "worktree " (by simp)
  have hbranch := h.wordless "branch " (by simp)
  have hhead := h.wordless "HEAD " (by simp)
  simp [WorktreeEntry.note, hworktree, hbranch, hhead]

end Lines

section RoundTrip

variable {w : WorktreeBlock} {blocks : List WorktreeBlock}

theorem foldl_read_others {others : List String} (h : ∀ line ∈ others, PassedOver line) (listing : Listing) :
    (others.map String.toList).foldl Listing.read listing = listing := by
  induction others with
  | nil => rfl
  | cons line others ih =>
    obtain ⟨hline, hothers⟩ := List.forall_mem_cons.mp h
    rw [List.map_cons, List.foldl_cons, read_passedOver hline, ih hothers]

/-- The lines of one block. -/
theorem foldl_read_lines (hothers : ∀ line ∈ w.others, PassedOver line) (h : w.entry.Readable) (finished : List WorktreeEntry) :
    (w.lines.map String.toList).foldl Listing.read (finished, {}) = (finished ++ [w.entry], {}) := by
  have hpath := @read_line w.path (finished, {}) "worktree " _ _ (h.path w.path rfl) rfl (by decide)
  rw [note_path] at hpath
  have hhead : ∀ entry : WorktreeEntry, ((w.head.map ("HEAD " ++ ·)).toList.map String.toList).foldl Listing.read
      (finished, entry) = (finished, { entry with head := w.head.or entry.head }) := by
    intro entry
    cases hw : w.head with
    | none => rfl
    | some text =>
      have hread := @read_line text (finished, entry) "HEAD " _ _ (h.head text hw) rfl (by decide)
      rw [note_head] at hread
      simp only [Option.map_some, Option.toList_some, List.map_cons, List.map_nil, List.foldl_cons, List.foldl_nil,
        hread, Option.some_or]
  have hbranch : ∀ entry : WorktreeEntry, ((w.branch.map ("branch " ++ ·)).toList.map String.toList).foldl
      Listing.read (finished, entry) = (finished, { entry with branch := w.branch.or entry.branch }) := by
    intro entry
    cases hw : w.branch with
    | none => rfl
    | some text =>
      have hread := @read_line text (finished, entry) "branch " _ _ (h.branch text hw) rfl (by decide)
      rw [note_branch] at hread
      simp only [Option.map_some, Option.toList_some, List.map_cons, List.map_nil, List.foldl_cons, List.foldl_nil,
        hread, Option.some_or]
  simp only [WorktreeBlock.lines, List.map_append, List.foldl_append, List.map_cons, List.map_nil, List.foldl_cons,
    List.foldl_nil, hpath, hhead, hbranch]
  rw [foldl_read_others hothers, read_empty]
  simp [Listing.close, WorktreeBlock.entry]

theorem foldl_read_blocks (hothers : ∀ w ∈ blocks, ∀ line ∈ w.others, PassedOver line)
    (h : ∀ w ∈ blocks, w.entry.Readable) (finished : List WorktreeEntry) :
    ((blocks.flatMap WorktreeBlock.lines).map String.toList).foldl Listing.read (finished, {}) =
      (finished ++ blocks.map WorktreeBlock.entry, {}) := by
  induction blocks generalizing finished with
  | nil => simp
  | cons w blocks ih =>
    obtain ⟨hw, hothers⟩ := List.forall_mem_cons.mp hothers
    obtain ⟨hreadable, h⟩ := List.forall_mem_cons.mp h
    rw [List.flatMap_cons, List.map_append, List.foldl_append, foldl_read_lines hw hreadable, ih hothers h]
    simp

theorem unbroken_append {a b : String} (ha : Unbroken a.toList) (hb : Unbroken b.toList) :
    Unbroken (a ++ b).toList := by
  intro c hc
  rw [String.toList_append] at hc
  rcases List.mem_append.mp hc with hc | hc
  · exact ha c hc
  · exact hb c hc

theorem unbroken_lines (hothers : ∀ line ∈ w.others, PassedOver line) (h : w.entry.Readable) :
    ∀ line ∈ w.lines, Unbroken line.toList := by
  intro line hline
  simp only [WorktreeBlock.lines, List.mem_append, List.mem_singleton, Option.mem_toList,
    Option.map_eq_some_iff] at hline
  rcases hline with (((rfl | ⟨text, htext, rfl⟩) | ⟨text, htext, rfl⟩) | hline) | rfl
  · exact unbroken_append (by decide) (h.path w.path rfl).unbroken
  · exact unbroken_append (by decide) (h.head text htext).unbroken
  · exact unbroken_append (by decide) (h.branch text htext).unbroken
  · exact (hothers line hline).unbroken
  · exact List.forall_mem_nil _

theorem worktreeList_of_readable (hothers : ∀ w ∈ blocks, ∀ line ∈ w.others, PassedOver line)
    (h : ∀ w ∈ blocks, w.entry.Readable) :
    worktreeList (WorktreeBlock.text blocks) = blocks.map WorktreeBlock.entry := by
  rw [worktreeList, WorktreeBlock.text, String.toList_ofList, splitlines_unlines, foldl_read_blocks hothers h]
  · simp [Listing.close]
  · intro line hline
    obtain ⟨text, htext, rfl⟩ := List.mem_map.mp hline
    obtain ⟨w, hw, htext⟩ := List.mem_flatMap.mp htext
    exact unbroken_lines (hothers w hw) (h w hw) text htext

theorem readable_behind {word text : String} (hunbroken : Unbroken (word ++ text).toList)
    (hends : ∀ c ∈ (word ++ text).toList.getLast?, isSpace c = false)
    (hword : ∃ c ∈ word.toList.getLast?, isSpace c = true) : Readable text := by
  rw [String.toList_append] at hunbroken hends
  have hne : text ≠ "" := by
    rintro rfl
    obtain ⟨c, hc, hspace⟩ := hword
    rw [String.toList_empty, List.append_nil] at hends
    rw [hends c hc] at hspace
    cases hspace
  have hlist : text.toList ≠ [] := fun h => hne (String.toList_inj.mp h)
  rw [List.getLast?_append_of_ne_nil _ hlist] at hends
  exact ⟨hne, fun c hc => hunbroken c (List.mem_append_right _ hc), hends⟩

theorem exists_of_startsWith {word line : String} (h : startsWith word line = true) :
    ∃ text, line = word ++ text := by
  obtain ⟨rest, hrest⟩ := List.isPrefixOf_iff_prefix.mp h
  refine ⟨String.ofList rest, String.toList_inj.mp ?_⟩
  rw [String.toList_append, String.toList_ofList, hrest]

theorem WorktreeEntry.Readable.note {entry : WorktreeEntry} {line : String} (h : entry.Readable)
    (hunbroken : Unbroken line.toList) (hends : ∀ c ∈ line.toList.getLast?, isSpace c = false) :
    (entry.note line).Readable := by
  by_cases hpath : startsWith "worktree " line = true
  · obtain ⟨text, rfl⟩ := exists_of_startsWith hpath
    have htext := readable_behind hunbroken hends ⟨' ', rfl, rfl⟩
    rw [note_path]
    exact ⟨fun t ht => Option.some.inj ht ▸ htext, h.head, h.branch⟩
  by_cases hbranch : startsWith "branch " line = true
  · obtain ⟨text, rfl⟩ := exists_of_startsWith hbranch
    have htext := readable_behind hunbroken hends ⟨' ', rfl, rfl⟩
    rw [note_branch]
    exact ⟨h.path, h.head, fun t ht => Option.some.inj ht ▸ htext⟩
  by_cases hhead : startsWith "HEAD " line = true
  · obtain ⟨text, rfl⟩ := exists_of_startsWith hhead
    have htext := readable_behind hunbroken hends ⟨' ', rfl, rfl⟩
    rw [note_head]
    exact ⟨h.path, fun t ht => Option.some.inj ht ▸ htext, h.branch⟩
  · have hsame : entry.note line = entry := by
      simp [WorktreeEntry.note, hpath, hbranch, hhead]
    rw [hsame]
    exact h

theorem readable_empty : ({} : WorktreeEntry).Readable := ⟨nofun, nofun, nofun⟩

/-- All that has been read so far is readable. -/
def Listing.Readable (listing : Listing) : Prop := (∀ entry ∈ listing.1, entry.Readable) ∧ listing.2.Readable

theorem Listing.Readable.close {listing : Listing} (h : listing.Readable) :
    ∀ entry ∈ listing.close, entry.Readable := by
  intro entry hentry
  unfold Listing.close at hentry
  split_ifs at hentry
  · exact h.1 entry hentry
  · rcases List.mem_append.mp hentry with hentry | hentry
    · exact h.1 entry hentry
    · rw [List.mem_singleton.mp hentry]
      exact h.2

theorem Listing.Readable.read {listing : Listing} {line : List Char} (h : listing.Readable)
    (hline : Unbroken line) : (listing.read line).Readable := by
  have hstrip : Unbroken (strip (String.ofList line)).toList := by
    intro c hc
    have hmem := (infix_strip (String.ofList line)).subset hc
    rw [String.toList_ofList] at hmem
    exact hline c hmem
  by_cases hempty : strip (String.ofList line) = ""
  · rw [Listing.read]
    simp only [if_pos hempty]
    exact ⟨h.close, readable_empty⟩
  · have hnote : (listing.2.note (strip (String.ofList line))).Readable := h.2.note hstrip (ends_strip _)
    rw [Listing.read]
    simp only [if_neg hempty, Listing.Readable]
    exact ⟨h.1, hnote⟩

theorem readable_of_mem_worktreeList {stdout : String} {entry : WorktreeEntry} (h : entry ∈ worktreeList stdout) :
    entry.Readable := by
  have hall : ∀ (lines : List (List Char)) (listing : Listing), (∀ line ∈ lines, Unbroken line) →
      listing.Readable → (lines.foldl Listing.read listing).Readable := by
    intro lines
    induction lines with
    | nil => exact fun listing _ h => h
    | cons line lines ih =>
      intro listing hlines hlisting
      rw [List.foldl_cons]
      apply ih
      · exact fun other hother => hlines other (List.mem_cons_of_mem line hother)
      · exact hlisting.read (hlines line List.mem_cons_self)
  have hend := hall (splitlines stdout.toList) ([], {}) (fun line hline => unbroken_of_mem_splitlines hline)
    ⟨List.forall_mem_nil _, readable_empty⟩
  exact hend.close entry h

/-- A listing, whose other lines are passed over, is read back if and only if all that is to be read is readable. -/
theorem worktreeList_text_iff (hothers : ∀ w ∈ blocks, ∀ line ∈ w.others, PassedOver line) :
    worktreeList (WorktreeBlock.text blocks) = blocks.map WorktreeBlock.entry ↔ ∀ w ∈ blocks, w.entry.Readable := by
  constructor
  · intro h w hw
    have hmem : w.entry ∈ worktreeList (WorktreeBlock.text blocks) := by
      rw [h]
      exact List.mem_map_of_mem hw
    exact readable_of_mem_worktreeList hmem
  · exact worktreeList_of_readable hothers

/-- A locked worktree on a branch and a detached one are read back; a worktree whose path ends with a blank is not. -/
theorem worktreeList_text_locked :
    worktreeList (WorktreeBlock.text
        [⟨"/repo", some "1a", some "refs/heads/main", []⟩, ⟨"/w t", some "2b", none, ["detached", "locked kept on a disk"]⟩]) =
      [⟨some "/repo", some "1a", some "refs/heads/main"⟩, ⟨some "/w t", some "2b", none⟩] ∧
    worktreeList (WorktreeBlock.text [⟨"/w ", none, none, ["bare"]⟩]) ≠ [⟨some "/w ", none, none⟩] := by
  constructor
  · exact (worktreeList_text_iff (by decide)).mpr (by decide)
  · intro h
    exact absurd ((worktreeList_text_iff (by decide)).mp h) (by decide)

end RoundTrip

end ForkAgent.Workspace

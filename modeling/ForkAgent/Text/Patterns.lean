import Mathlib.Data.List.Forall2

/-!
# Patterns

A pattern lists the ways in which a text may start with it, in the order in which a backtracking matcher
tries them. A rule replaces a part of each match; the text is read from left to right and the matches do
not overlap.
-/

namespace Text

/-- The patterns: a character of a class, as many of a class as there are (but no fewer than the least),
or as few. -/
inductive Pattern where
  | empty
  | one (p : Char → Bool)
  | many (p : Char → Bool) (least : Nat)
  | few (p : Char → Bool) (least : Nat)
  | seq (first second : Pattern)
  | alt (first second : Pattern)

section Ways

/-- The ways to start a text with characters of a class, the shortest first. -/
def runs (p : Char → Bool) : List Char → List (List Char × List Char)
  | [] => [([], [])]
  | c :: s => ([], c :: s) :: if p c then (runs p s).map fun way => (c :: way.1, way.2) else []

namespace Pattern

/-- What is matched, and the rest of the text. -/
@[simp] def ways : Pattern → List Char → List (List Char × List Char)
  | empty, s => [([], s)]
  | one _, [] => []
  | one p, c :: s => if p c then [([c], s)] else []
  | many p least, s => ((runs p s).filter fun way => least ≤ way.1.length).reverse
  | few p least, s => (runs p s).filter fun way => least ≤ way.1.length
  | seq first second, s => (first.ways s).flatMap fun way =>
      (second.ways way.2).map fun more => (way.1 ++ more.1, more.2)
  | alt first second, s => first.ways s ++ second.ways s

/-- An optional pattern, which is rather matched than not. -/
def opt (pattern : Pattern) : Pattern := alt pattern empty

/-- A word, whose characters are compared in a given way. -/
def word (same : Char → Char → Bool) : List Char → Pattern
  | [] => empty
  | c :: w => seq (one (same c)) (word same w)

/-- A given number of characters of a class. -/
def exactly (p : Char → Bool) : Nat → Pattern
  | 0 => empty
  | n + 1 => seq (one p) (exactly p n)

/-- No match is shorter. -/
def least : Pattern → Nat
  | empty => 0
  | one _ => 1
  | many _ least | few _ least => least
  | seq first second => first.least + second.least
  | alt first second => min first.least second.least

end Pattern

variable {p : Char → Bool} {s m r : List Char}

theorem mem_runs : (m, r) ∈ runs p s ↔ m ++ r = s ∧ ∀ c ∈ m, p c = true := by
  induction s generalizing m with
  | nil =>
    simp only [runs, List.mem_singleton, Prod.mk.injEq, List.append_eq_nil_iff]
    constructor
    · rintro ⟨rfl, rfl⟩
      simp
    · intro h
      exact h.1
  | cons c s ih =>
    rw [runs, List.mem_cons, Prod.mk.injEq]
    cases m with
    | nil =>
      constructor
      · rintro (⟨-, rfl⟩ | h)
        · simp
        · split_ifs at h <;> simp at h
      · rintro ⟨rfl, -⟩
        exact .inl ⟨rfl, rfl⟩
    | cons d m =>
      have hrest : (d :: m, r) ∈ (if p c then (runs p s).map fun way => (c :: way.1, way.2) else []) ↔
          p c = true ∧ c = d ∧ (m, r) ∈ runs p s := by
        by_cases hp : p c = true
        · simp [hp, and_comm]
        · simp [hp]
      rw [hrest, ih]
      simp only [reduceCtorEq, false_and, false_or, List.cons_append, List.cons.injEq, List.forall_mem_cons]
      constructor
      · rintro ⟨hp, rfl, h, hall⟩
        exact ⟨⟨rfl, h⟩, hp, hall⟩
      · rintro ⟨⟨rfl, h⟩, hp, hall⟩
        exact ⟨hp, rfl, h, hall⟩

namespace Pattern

variable {pattern first second : Pattern} {least : Nat}

theorem mem_ways_empty : (m, r) ∈ empty.ways s ↔ m = [] ∧ r = s := by
  simp [ways]

theorem mem_ways_one : (m, r) ∈ (one p).ways s ↔ ∃ c, p c = true ∧ m = [c] ∧ s = c :: r := by
  cases s with
  | nil => simp [ways]
  | cons c s =>
    by_cases hp : p c = true
    · simp only [ways, if_pos hp, List.mem_singleton, Prod.mk.injEq, List.cons.injEq]
      constructor
      · rintro ⟨rfl, rfl⟩
        exact ⟨c, hp, rfl, rfl, rfl⟩
      · rintro ⟨_, -, rfl, rfl, rfl⟩
        exact ⟨rfl, rfl⟩
    · simp only [ways, if_neg hp, List.not_mem_nil, false_iff, List.cons.injEq]
      rintro ⟨_, hd, -, rfl, -⟩
      exact hp hd

theorem mem_ways_many : (m, r) ∈ (many p least).ways s ↔
    m ++ r = s ∧ (∀ c ∈ m, p c = true) ∧ least ≤ m.length := by
  simp [ways, mem_runs, and_assoc]

theorem mem_ways_few : (m, r) ∈ (few p least).ways s ↔
    m ++ r = s ∧ (∀ c ∈ m, p c = true) ∧ least ≤ m.length := by
  simp [ways, mem_runs, and_assoc]

theorem mem_ways_seq : (m, r) ∈ (seq first second).ways s ↔
    ∃ m₁ m₂ r₁, (m₁, r₁) ∈ first.ways s ∧ (m₂, r) ∈ second.ways r₁ ∧ m = m₁ ++ m₂ := by
  simp only [ways, List.mem_flatMap, List.mem_map, Prod.exists, Prod.mk.injEq]
  constructor
  · rintro ⟨m₁, r₁, h₁, m₂, _, h₂, rfl, rfl⟩
    exact ⟨m₁, m₂, r₁, h₁, h₂, rfl⟩
  · rintro ⟨m₁, m₂, r₁, h₁, h₂, rfl⟩
    exact ⟨m₁, r₁, h₁, m₂, r, h₂, rfl, rfl⟩

theorem mem_ways_alt : (m, r) ∈ (alt first second).ways s ↔
    (m, r) ∈ first.ways s ∨ (m, r) ∈ second.ways s := by
  simp [ways]

theorem append_of_mem_ways (h : (m, r) ∈ pattern.ways s) : m ++ r = s := by
  induction pattern generalizing s m r with
  | empty =>
    obtain ⟨rfl, rfl⟩ := mem_ways_empty.mp h
    rfl
  | one p =>
    obtain ⟨c, -, rfl, rfl⟩ := mem_ways_one.mp h
    rfl
  | many p least => exact (mem_ways_many.mp h).1
  | few p least => exact (mem_ways_few.mp h).1
  | seq first second ihfirst ihsecond =>
    obtain ⟨m₁, m₂, r₁, h₁, h₂, rfl⟩ := mem_ways_seq.mp h
    rw [List.append_assoc, ihsecond h₂, ihfirst h₁]
  | alt first second ihfirst ihsecond =>
    obtain h | h := mem_ways_alt.mp h
    · exact ihfirst h
    · exact ihsecond h

theorem least_le_of_mem_ways (h : (m, r) ∈ pattern.ways s) : pattern.least ≤ m.length := by
  induction pattern generalizing s m r with
  | empty => exact Nat.zero_le _
  | one p =>
    obtain ⟨c, -, rfl, -⟩ := mem_ways_one.mp h
    exact Nat.le_refl _
  | many p least => exact (mem_ways_many.mp h).2.2
  | few p least => exact (mem_ways_few.mp h).2.2
  | seq first second ihfirst ihsecond =>
    obtain ⟨m₁, m₂, r₁, h₁, h₂, rfl⟩ := mem_ways_seq.mp h
    rw [List.length_append]
    exact Nat.add_le_add (ihfirst h₁) (ihsecond h₂)
  | alt first second ihfirst ihsecond =>
    obtain h | h := mem_ways_alt.mp h
    · exact Nat.le_trans (Nat.min_le_left _ _) (ihfirst h)
    · exact Nat.le_trans (Nat.min_le_right _ _) (ihsecond h)

variable {same : Char → Char → Bool} {w : List Char}

theorem mem_ways_word : (m, r) ∈ (word same w).ways s ↔
    m ++ r = s ∧ List.Forall₂ (fun c d => same c d = true) w m := by
  induction w generalizing s m with
  | nil =>
    rw [List.forall₂_nil_left_iff]
    simp only [word, ways, List.mem_singleton, Prod.mk.injEq]
    constructor
    · rintro ⟨rfl, rfl⟩
      exact ⟨rfl, rfl⟩
    · rintro ⟨h, rfl⟩
      exact ⟨rfl, h⟩
  | cons c w ih =>
    rw [word, mem_ways_seq, List.forall₂_cons_left_iff]
    constructor
    · rintro ⟨m₁, m₂, r₁, h₁, h₂, rfl⟩
      obtain ⟨d, hd, rfl, rfl⟩ := mem_ways_one.mp h₁
      obtain ⟨rfl, hw⟩ := ih.mp h₂
      exact ⟨rfl, d, m₂, hd, hw, rfl⟩
    · rintro ⟨rfl, d, m₂, hd, hw, rfl⟩
      exact ⟨[d], m₂, m₂ ++ r, mem_ways_one.mpr ⟨d, hd, rfl, rfl⟩, ih.mpr ⟨rfl, hw⟩, rfl⟩

end Pattern

end Ways

section Rules

/-- A rule keeps what comes before and after the secret in a match, and puts its replacement in the place
of the secret. No match is empty. -/
structure Rule where
  before : Pattern
  secret : Pattern
  after : Pattern
  replacement : List Char
  consumes : 0 < before.least + secret.least + after.least

/-- A match, and the rest of the text. -/
structure Found where
  before : List Char
  secret : List Char
  after : List Char
  rest : List Char

/-- The length of the match. -/
def Found.length (f : Found) : Nat := f.before.length + f.secret.length + f.after.length

/-- A character of the text that stays, or a secret that is replaced. -/
inductive Atom where
  | keep (c : Char)
  | hide (secret : List Char)
  deriving DecidableEq

def Atom.source : Atom → List Char
  | keep c => [c]
  | hide secret => secret

def Atom.render (replacement : List Char) : Atom → List Char
  | keep c => [c]
  | hide _ => replacement

/-- The text that the atoms were made of. -/
def source (atoms : List Atom) : List Char := atoms.flatMap Atom.source

/-- The text with the secrets replaced. -/
def render (replacement : List Char) (atoms : List Atom) : List Char := atoms.flatMap (Atom.render replacement)

def Found.atoms (f : Found) : List Atom :=
  f.before.map .keep ++ .hide f.secret :: f.after.map .keep

namespace Rule

/-- The ways to match the rule at the start of a text. -/
def ways (rule : Rule) (s : List Char) : List Found :=
  (rule.before.ways s).flatMap fun b => (rule.secret.ways b.2).flatMap fun w =>
    (rule.after.ways w.2).map fun a => ⟨b.1, w.1, a.1, a.2⟩

/-- The text after as many characters of a match that are still to be passed. -/
def atoms (rule : Rule) : Nat → List Char → List Atom
  | _, [] => []
  | passed + 1, _ :: s => rule.atoms passed s
  | 0, c :: s =>
    match (rule.ways (c :: s)).head? with
    | none => .keep c :: rule.atoms 0 s
    | some f => f.atoms ++ rule.atoms (f.length - 1) s

/-- The text with every match replaced, and the number of the matches. -/
def subn (rule : Rule) (s : List Char) : List Char × Nat :=
  let atoms := rule.atoms 0 s
  (render rule.replacement atoms, atoms.countP fun
    | .hide _ => true
    | .keep _ => false)

variable {rule : Rule} {s : List Char} {f : Found}

theorem mem_ways : f ∈ rule.ways s ↔ ∃ r r', (f.before, r) ∈ rule.before.ways s ∧
    (f.secret, r') ∈ rule.secret.ways r ∧ (f.after, f.rest) ∈ rule.after.ways r' := by
  simp only [ways, List.mem_flatMap, List.mem_map, Prod.exists]
  constructor
  · rintro ⟨b, r, hb, w, r', hw, a, rest, ha, rfl⟩
    exact ⟨r, r', hb, hw, ha⟩
  · rintro ⟨r, r', hb, hw, ha⟩
    exact ⟨f.before, r, hb, f.secret, r', hw, f.after, f.rest, ha, rfl⟩

theorem append_of_mem_ways (h : f ∈ rule.ways s) : f.before ++ (f.secret ++ (f.after ++ f.rest)) = s := by
  obtain ⟨r, r', hb, hw, ha⟩ := mem_ways.mp h
  rw [Pattern.append_of_mem_ways ha, Pattern.append_of_mem_ways hw, Pattern.append_of_mem_ways hb]

theorem length_pos_of_mem_ways (h : f ∈ rule.ways s) : 0 < f.length := by
  obtain ⟨r, r', hb, hw, ha⟩ := mem_ways.mp h
  have hbefore := Pattern.least_le_of_mem_ways hb
  have hsecret := Pattern.least_le_of_mem_ways hw
  have hafter := Pattern.least_le_of_mem_ways ha
  have hconsumes := rule.consumes
  rw [Found.length]
  omega

end Rule

@[simp] theorem source_append (as bs : List Atom) : source (as ++ bs) = source as ++ source bs :=
  List.flatMap_append

@[simp] theorem source_keep (m : List Char) : source (m.map .keep) = m := by
  induction m with
  | nil => rfl
  | cons c m ih =>
    show c :: source (m.map .keep) = c :: m
    rw [ih]

@[simp] theorem source_cons (a : Atom) (as : List Atom) : source (a :: as) = a.source ++ source as := rfl

theorem Found.source_atoms (f : Found) : source f.atoms = f.before ++ (f.secret ++ f.after) := by
  simp [Found.atoms, Atom.source]

theorem Rule.source_atoms (rule : Rule) (passed : Nat) (s : List Char) :
    source (rule.atoms passed s) = s.drop passed := by
  induction s generalizing passed with
  | nil => simp [Rule.atoms, source]
  | cons c s ih =>
    cases passed with
    | succ passed => exact ih passed
    | zero =>
      rw [Rule.atoms]
      split
      · simp [ih, Atom.source]
      · next f hf =>
        have hf := List.mem_of_mem_head? hf
        have hlength := length_pos_of_mem_ways hf
        have happend : (f.before ++ (f.secret ++ f.after)) ++ f.rest = c :: s := by
          rw [← append_of_mem_ways hf, List.append_assoc, List.append_assoc]
        have hmatch : (c :: s).drop f.length = f.rest := by
          rw [← happend]
          apply List.drop_left'
          simp [Found.length, Nat.add_assoc]
        have hdrop : s.drop (f.length - 1) = f.rest := by
          rw [← hmatch, ← List.drop_succ_cons (a := c), Nat.sub_add_cancel hlength]
        rw [source_append, Found.source_atoms, ih, hdrop, happend]
        rfl

variable {replacement : List Char} {atoms : List Atom}

@[simp] theorem render_append (as bs : List Atom) :
    render replacement (as ++ bs) = render replacement as ++ render replacement bs := List.flatMap_append

@[simp] theorem render_keep (m : List Char) : render replacement (m.map .keep) = m := by
  induction m with
  | nil => rfl
  | cons c m ih =>
    show c :: render replacement (m.map .keep) = c :: m
    rw [ih]

@[simp] theorem render_cons (a : Atom) (as : List Atom) :
    render replacement (a :: as) = a.render replacement ++ render replacement as := rfl

/-- A character that no replacement has is one that stayed. -/
theorem keep_of_render {c : Char} (hc : c ∉ replacement) {x y : List Char}
    (h : render replacement atoms = x ++ c :: y) :
    ∃ as bs, atoms = as ++ .keep c :: bs ∧ render replacement as = x ∧ render replacement bs = y := by
  induction atoms generalizing x with
  | nil =>
    have hlength := congrArg List.length h
    simp [render] at hlength
  | cons a atoms ih =>
    cases a with
    | keep d =>
      cases x with
      | nil =>
        obtain ⟨rfl, hrest⟩ := List.cons.inj h
        exact ⟨[], atoms, rfl, rfl, hrest⟩
      | cons e x =>
        obtain ⟨rfl, hrest⟩ := List.cons.inj h
        obtain ⟨as, bs, rfl, rfl, rfl⟩ := ih hrest
        exact ⟨.keep d :: as, bs, rfl, rfl, rfl⟩
    | hide w =>
      have h : replacement ++ render replacement atoms = x ++ c :: y := h
      have hpast : ∃ x', x = replacement ++ x' ∧ render replacement atoms = x' ++ c :: y := by
        obtain hpast | ⟨z, hreplacement, hrest⟩ := List.append_eq_append_iff.mp h
        · exact hpast
        · cases z with
          | nil => exact ⟨[], by simpa using hreplacement.symm, by simpa using hrest.symm⟩
          | cons d z =>
            obtain ⟨rfl, -⟩ := List.cons.inj hrest
            exact absurd (by simp [hreplacement]) hc
      obtain ⟨x', rfl, hrest⟩ := hpast
      obtain ⟨as, bs, rfl, rfl, rfl⟩ := ih hrest
      exact ⟨.hide w :: as, bs, rfl, rfl, rfl⟩

/-- A word at the start of the rendered text, in which no character may start the replacement, is made
of characters that stayed. -/
theorem keeps_of_render {head : Char} {tail : List Char} {m r : List Char} (hm : head ∉ m)
    (h : render (head :: tail) atoms = m ++ r) :
    ∃ bs, atoms = m.map .keep ++ bs ∧ render (head :: tail) bs = r := by
  induction m generalizing atoms with
  | nil => exact ⟨atoms, rfl, h⟩
  | cons c m ih =>
    rw [List.mem_cons, not_or] at hm
    cases atoms with
    | nil => cases h
    | cons a atoms =>
      cases a with
      | keep d =>
        obtain ⟨rfl, hrest⟩ := List.cons.inj h
        obtain ⟨bs, rfl, hbs⟩ := ih hm.2 hrest
        exact ⟨bs, rfl, hbs⟩
      | hide w =>
        obtain ⟨hhead, -⟩ := List.cons.inj h
        exact absurd hhead hm.1

theorem render_of_count (h : (atoms.countP fun
    | .hide _ => true
    | .keep _ => false) = 0) : render replacement atoms = source atoms := by
  induction atoms with
  | nil => rfl
  | cons a atoms ih =>
    cases a with
    | keep c => exact congrArg (c :: ·) (ih (by simpa using h))
    | hide w => simp at h

theorem Rule.subn_of_count {rule : Rule} {s : List Char} (h : (rule.subn s).2 = 0) : (rule.subn s).1 = s :=
  (render_of_count h).trans (rule.source_atoms 0 s)

end Rules

section Blocks

/-- A pair of words that both begin with a character that nothing else is taken for. -/
structure Delimiters where
  same : Char → Char → Bool
  first : Char
  opening : List Char
  closing : List Char
  only : ∀ c, same first c = true → c = first

namespace Delimiters

/-- What is taken for a word. -/
def Spells (d : Delimiters) (w m : List Char) : Prop := List.Forall₂ (fun c e => d.same c e = true) (d.first :: w) m

/-- The first word, and the second one after it. -/
def Block (d : Delimiters) (s : List Char) : Prop :=
  ∃ before opening inner closing after, s = before ++ (opening ++ (inner ++ (closing ++ after))) ∧
    d.Spells d.opening opening ∧ d.Spells d.closing closing

/-- A replacement that can be no part of a word. -/
structure Apart (d : Delimiters) (replacement : List Char) : Prop where
  first : d.first ∉ replacement
  head : ∃ head tail, replacement = head :: tail ∧
    ∀ c ∈ d.first :: (d.opening ++ d.closing), d.same c head = false

variable {d : Delimiters} {replacement : List Char} {atoms : List Atom} {rule : Rule} {s w m : List Char}

theorem Spells.cons (h : d.Spells w m) : ∃ m', m = d.first :: m' := by
  obtain ⟨c, m', hc, -, rfl⟩ := List.forall₂_cons_left_iff.mp h
  rw [d.only c hc]
  exact ⟨m', rfl⟩

theorem Spells.not_mem {c : Char} (h : d.Spells w m) (hc : ∀ e ∈ d.first :: w, d.same e c = false) : c ∉ m := by
  intro hmem
  obtain ⟨e, he, hsame⟩ : ∃ e ∈ d.first :: w, d.same e c = true := by
    obtain ⟨i, hi, rfl⟩ := List.getElem_of_mem hmem
    obtain ⟨hlength, hget⟩ := List.forall₂_iff_get.mp h
    exact ⟨_, List.getElem_mem (hlength ▸ hi), hget i (hlength ▸ hi) hi⟩
  rw [hc e he] at hsame
  cases hsame

theorem Spells.of_render (hapart : d.Apart replacement) (hw : ∀ c ∈ w, c ∈ d.opening ++ d.closing)
    (h : d.Spells w m) {x y : List Char} (hrender : render replacement atoms = x ++ (m ++ y)) :
    ∃ as bs, atoms = as ++ (m.map .keep ++ bs) ∧ render replacement as = x ∧ render replacement bs = y := by
  obtain ⟨m', rfl⟩ := h.cons
  obtain ⟨head, tail, hreplacement, hhead⟩ := hapart.head
  obtain ⟨as, bs, rfl, hx, hrest⟩ := keep_of_render hapart.first hrender
  have hnot : head ∉ m' := by
    intro hmem
    apply h.not_mem (c := head) _ (List.mem_cons_of_mem _ hmem)
    intro e he
    apply hhead e
    obtain rfl | he := List.mem_cons.mp he
    · exact List.mem_cons_self
    · exact List.mem_cons_of_mem _ (hw e he)
  rw [hreplacement] at hrest
  obtain ⟨bs', rfl, hy⟩ := keeps_of_render hnot hrest
  rw [← hreplacement] at hy
  exact ⟨as, bs', rfl, hx, hy⟩

theorem Block.of_render (hapart : d.Apart replacement) (h : d.Block (render replacement atoms)) :
    ∃ as opening bs closing cs, atoms = as ++ (opening.map .keep ++ (bs ++ (closing.map .keep ++ cs))) ∧
      d.Spells d.opening opening ∧ d.Spells d.closing closing := by
  obtain ⟨before, opening, inner, closing, after, hrender, hopening, hclosing⟩ := h
  obtain ⟨as, bs, rfl, -, hrest⟩ := hopening.of_render hapart
    (fun c hc => List.mem_append_left _ hc) hrender
  obtain ⟨bs', cs, rfl, -, -⟩ := hclosing.of_render hapart
    (fun c hc => List.mem_append_right _ hc) hrest
  exact ⟨as, opening, bs', closing, cs, rfl, hopening, hclosing⟩

theorem Block.source (hapart : d.Apart replacement) (h : d.Block (render replacement atoms)) :
    d.Block (source atoms) := by
  obtain ⟨as, opening, bs, closing, cs, rfl, hopening, hclosing⟩ := h.of_render hapart
  refine ⟨Text.source as, opening, Text.source bs, closing, Text.source cs, by simp, hopening, hclosing⟩

theorem Block.of_subn (hapart : d.Apart rule.replacement) (h : d.Block (rule.subn s).1) : d.Block s := by
  have hsource := h.source hapart
  rw [rule.source_atoms] at hsource
  exact hsource

/-- The rule that replaces whole blocks, the shortest that start where one can. -/
def hideBlocks (d : Delimiters) (replacement : List Char) : Rule where
  before := .empty
  secret := .seq (.word d.same (d.first :: d.opening))
    (.seq (.few (fun _ => true) 0) (.word d.same (d.first :: d.closing)))
  after := .empty
  replacement := replacement
  consumes := by
    simp only [Pattern.least, Pattern.word]
    omega

theorem mem_hideBlocks {f : Found} : f ∈ (d.hideBlocks replacement).ways s ↔
    ∃ opening inner closing, f.before = [] ∧ f.after = [] ∧ f.secret = opening ++ (inner ++ closing) ∧
      f.secret ++ f.rest = s ∧ d.Spells d.opening opening ∧ d.Spells d.closing closing := by
  rw [Rule.mem_ways]
  simp only [hideBlocks, Pattern.mem_ways_empty]
  constructor
  · rintro ⟨_, r', ⟨hbefore, rfl⟩, hsecret, hafter, rfl⟩
    obtain ⟨opening, _, r₁, hopening, hrest, hmatched⟩ := Pattern.mem_ways_seq.mp hsecret
    obtain ⟨inner, closing, r₂, -, hclosing, rfl⟩ := Pattern.mem_ways_seq.mp hrest
    exact ⟨opening, inner, closing, hbefore, hafter, hmatched, Pattern.append_of_mem_ways hsecret,
      (Pattern.mem_ways_word.mp hopening).2, (Pattern.mem_ways_word.mp hclosing).2⟩
  · rintro ⟨opening, inner, closing, hbefore, hafter, hsecret, rfl, hopening, hclosing⟩
    refine ⟨_, f.rest, ⟨hbefore, rfl⟩, Pattern.mem_ways_seq.mpr ⟨opening, inner ++ closing,
      inner ++ closing ++ f.rest, ?_, ?_, hsecret⟩, hafter, rfl⟩
    · exact Pattern.mem_ways_word.mpr ⟨by simp [hsecret], hopening⟩
    · refine Pattern.mem_ways_seq.mpr ⟨inner, closing, closing ++ f.rest, ?_, ?_, rfl⟩
      · exact Pattern.mem_ways_few.mpr ⟨by simp, by simp, Nat.zero_le _⟩
      · exact Pattern.mem_ways_word.mpr ⟨rfl, hclosing⟩

theorem ways_of_keep {as bs : List Atom} {c : Char} {passed : Nat}
    (h : (d.hideBlocks replacement).atoms passed s = as ++ .keep c :: bs) :
    (d.hideBlocks replacement).ways (Text.source (.keep c :: bs)) = [] := by
  induction s generalizing as passed with
  | nil => simp [Rule.atoms] at h
  | cons e s ih =>
    cases passed with
    | succ passed => exact ih h
    | zero =>
      rw [Rule.atoms] at h
      split at h
      · next hnone =>
        cases as with
        | nil =>
          obtain ⟨hkeep, rfl⟩ := List.cons.inj h
          cases hkeep
          rw [source_cons, Rule.source_atoms]
          exact List.head?_eq_none_iff.mp hnone
        | cons a as => exact ih (List.cons.inj h).2
      · next f hf =>
        obtain ⟨-, -, -, hbefore, hafter, -⟩ := mem_hideBlocks.mp (List.mem_of_mem_head? hf)
        rw [Found.atoms, hbefore, hafter] at h
        cases as with
        | nil => cases h
        | cons a as => exact ih (List.cons.inj h).2

theorem not_block_hideBlocks (hapart : d.Apart replacement) : ¬ d.Block ((d.hideBlocks replacement).subn s).1 := by
  intro h
  obtain ⟨as, opening, bs, closing, cs, hatoms, hopening, hclosing⟩ := h.of_render hapart
  obtain ⟨m', rfl⟩ := hopening.cons
  have hnone : (d.hideBlocks replacement).ways
      (Text.source (.keep d.first :: (m'.map .keep ++ (bs ++ (closing.map .keep ++ cs))))) = [] :=
    ways_of_keep hatoms
  have hmem : (⟨[], d.first :: m' ++ (Text.source bs ++ closing), [], Text.source cs⟩ : Found) ∈
      (d.hideBlocks replacement).ways
        (Text.source (.keep d.first :: (m'.map .keep ++ (bs ++ (closing.map .keep ++ cs))))) :=
    mem_hideBlocks.mpr ⟨d.first :: m', Text.source bs, closing, rfl, rfl, rfl, by simp [Atom.source], hopening,
      hclosing⟩
  rw [hnone] at hmem
  cases hmem

end Delimiters

end Blocks

end Text

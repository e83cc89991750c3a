import ForkAgent.Text.Patterns

/-!
# First matches

What a backtracking matcher takes is the first of the ways to match. A way is the first one where nothing
that is tried before it leads to a match.
-/

namespace Text

variable {p : Char → Bool} {s m r : List Char}

theorem runs_append (hm : ∀ c ∈ m, p c = true) (hr : ∀ c ∈ r.head?, p c = false) :
    ∃ shorter, runs p (m ++ r) = shorter ++ [(m, r)] := by
  induction m with
  | nil =>
    refine ⟨[], ?_⟩
    cases r with
    | nil => rfl
    | cons c r =>
      rw [List.nil_append, runs, if_neg (by simp [hr c rfl])]
      rfl
  | cons c m ih =>
    rw [List.forall_mem_cons] at hm
    obtain ⟨shorter, hruns⟩ := ih hm.2
    refine ⟨([], c :: (m ++ r)) :: shorter.map fun way => (c :: way.1, way.2), ?_⟩
    rw [List.cons_append, runs, if_pos hm.1, hruns]
    simp

theorem head?_flatMap_runs {α : Type} {f : List Char × List Char → List α} {y : α}
    (hshorter : ∀ m₁ m₂, m = m₁ ++ m₂ → m₂ ≠ [] → f (m₁, m₂ ++ r) = [])
    (hf : (f (m, r)).head? = some y) :
    ((runs (fun _ => true) (m ++ r)).flatMap f).head? = some y := by
  induction m generalizing f with
  | nil =>
    cases r with
    | nil => simpa [runs] using hf
    | cons c r =>
      rw [List.nil_append, runs, List.flatMap_cons, List.head?_append, hf]
      rfl
  | cons c m ih =>
    have hnone : f ([], c :: (m ++ r)) = [] := hshorter [] (c :: m) rfl (List.cons_ne_nil _ _)
    rw [List.cons_append, runs, List.flatMap_cons, hnone, List.nil_append, if_pos rfl, List.flatMap_map]
    apply ih
    · intro m₁ m₂ hm hne
      exact hshorter (c :: m₁) m₂ (by rw [hm]; rfl) hne
    · exact hf

theorem head?_flatMap_of_head? {α β : Type} {l : List α} {f : α → List β} {x : α} {y : β}
    (hx : l.head? = some x) (hy : (f x).head? = some y) : (l.flatMap f).head? = some y := by
  cases l with
  | nil => cases hx
  | cons z l =>
    cases hx
    rw [List.flatMap_cons, List.head?_append, hy]
    rfl

namespace Pattern

/-- The first way to match. -/
def First (pattern : Pattern) (s m r : List Char) : Prop := (pattern.ways s).head? = some (m, r)

/-- The text itself, letter by letter. -/
def lit (w : List Char) : Pattern := word (· == ·) w

variable {first second : Pattern} {least : Nat} {m' r' : List Char}

theorem ways_lit_append (w r : List Char) : (lit w).ways (w ++ r) = [(w, r)] := by
  induction w with
  | nil => simp [lit, word]
  | cons c w ih =>
    rw [lit] at ih
    simp [lit, word, ih]

theorem ways_lit_of_not_prefix {w : List Char} (h : ¬ w <+: s) : (lit w).ways s = [] := by
  induction w generalizing s with
  | nil => exact absurd List.nil_prefix h
  | cons c w ih =>
    cases s with
    | nil => simp [lit, word]
    | cons d s =>
      by_cases hcd : c = d
      · subst hcd
        have hrest : ¬ w <+: s := by simpa [List.cons_prefix_cons] using h
        have hnone := ih hrest
        rw [lit] at hnone
        simp [lit, word, hnone]
      · simp [lit, word, hcd]

theorem first_lit (w r : List Char) : First (lit w) (w ++ r) w r := by
  rw [First, ways_lit_append]
  rfl

theorem first_many (hm : ∀ c ∈ m, p c = true) (hr : ∀ c ∈ r.head?, p c = false) (hleast : least ≤ m.length) :
    First (many p least) (m ++ r) m r := by
  obtain ⟨shorter, hruns⟩ := runs_append hm hr
  rw [First, ways, hruns, List.filter_append, List.reverse_append]
  simp [hleast]

theorem First.seq (h : First first s m r) (h' : First second r m' r') :
    First (.seq first second) s (m ++ m') r' := by
  rw [First, ways]
  apply head?_flatMap_of_head? h
  rw [List.head?_map, h']
  rfl

theorem First.opt (h : First first s m r) : First first.opt s m r := by
  rw [First, Pattern.opt, ways, List.head?_append, h]
  rfl

theorem first_opt_of_ways (h : first.ways s = []) : First first.opt s [] s := by
  rw [First, Pattern.opt, ways, h]
  rfl

theorem first_one {c : Char} (h : p c = true) : First (one p) (c :: r) [c] r := by
  rw [First, ways, if_pos h]
  rfl

theorem ways_one_of_head (h : ∀ c ∈ s.head?, p c = false) : (one p).ways s = [] := by
  cases s with
  | nil => rfl
  | cons c s =>
    rw [ways, if_neg]
    simp [h c rfl]

end Pattern

/-- The ways to match a pattern with two groups, each with what the groups hold. -/
def groups (before group after rest : Pattern) (s : List Char) : List (List Char × List Char) :=
  (before.ways s).flatMap fun b => (group.ways b.2).flatMap fun g => (after.ways g.2).flatMap fun a =>
    (rest.ways a.2).map fun t => (g.1, t.1)

/-- The first group is as short as possible: no shorter one is followed by the pattern after it. -/
theorem head?_groups {before after : Pattern} {b fm a body : List Char}
    (hbefore : before.First s b (fm ++ r))
    (hshorter : ∀ m₁ m₂, fm = m₁ ++ m₂ → m₂ ≠ [] → after.ways (m₂ ++ r) = [])
    (hafter : after.First r a body) :
    (groups before (.few (fun _ => true) 0) after (.many (fun _ => true) 0) s).head? = some (fm, body) := by
  apply head?_flatMap_of_head? hbefore
  have hruns : (Pattern.few (fun _ => true) 0).ways (fm ++ r) = runs (fun _ => true) (fm ++ r) := by
    simp
  rw [hruns]
  apply head?_flatMap_runs
  · intro m₁ m₂ hm hne
    simp only
    rw [hshorter m₁ m₂ hm hne]
    rfl
  · apply head?_flatMap_of_head? hafter
    have hrest : (Pattern.many (fun _ => true) 0).First (body ++ []) body [] :=
      Pattern.first_many (fun _ _ => rfl) (by simp) (Nat.zero_le _)
    rw [List.append_nil] at hrest
    rw [List.head?_map, hrest]
    rfl

end Text

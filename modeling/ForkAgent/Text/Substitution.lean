import ForkAgent.Text.FirstMatch

/-!
# Substitutions

A rule that replaces whole matches. Where no match can start, the text stays as it is.
-/

namespace Text

/-- `re.sub` and `str.replace`: what is matched is replaced as a whole. -/
def substitute (pattern : Pattern) (replacement : List Char) (h : 0 < pattern.least) : Rule where
  before := .empty
  secret := pattern
  after := .empty
  replacement := replacement
  consumes := by simpa [Pattern.least] using h

variable {pattern : Pattern} {replacement s : List Char} {h : 0 < pattern.least} {p : Char → Bool}

theorem ways_substitute : (substitute pattern replacement h).ways s =
    (pattern.ways s).map fun way => ⟨[], way.1, [], way.2⟩ := by
  rw [List.map_eq_flatMap]
  simp [Rule.ways, substitute]

theorem substitute_of_not_mem {c : Char} (hstart : ∀ d s, d ≠ c → pattern.ways (d :: s) = []) (hc : c ∉ s) :
    ((substitute pattern replacement h).subn s).1 = s := by
  induction s with
  | nil => rfl
  | cons d s ih =>
    rw [List.mem_cons, not_or] at hc
    have hnone : ((substitute pattern replacement h).ways (d :: s)).head? = none := by
      rw [ways_substitute, hstart d s (Ne.symm hc.1)]
      rfl
    have hatoms : (substitute pattern replacement h).atoms 0 (d :: s) =
        .keep d :: (substitute pattern replacement h).atoms 0 s := by
      rw [Rule.atoms, hnone]
    rw [Rule.subn, hatoms]
    exact congrArg (d :: ·) (ih hc.2)

theorem substitute_each (hways : ∀ c s, pattern.ways (c :: s) = if p c then [([c], s)] else []) :
    ((substitute pattern replacement h).subn s).1 = s.flatMap fun c => if p c then replacement else [c] := by
  induction s with
  | nil => rfl
  | cons c s ih =>
    rw [List.flatMap_cons, ← ih]
    by_cases hc : p c = true
    · have hfirst : ((substitute pattern replacement h).ways (c :: s)).head? = some ⟨[], [c], [], s⟩ := by
        rw [ways_substitute, hways, if_pos hc]
        rfl
      have hatoms : (substitute pattern replacement h).atoms 0 (c :: s) =
          .hide [c] :: (substitute pattern replacement h).atoms 0 s := by
        rw [Rule.atoms, hfirst]
        rfl
      rw [Rule.subn, hatoms, if_pos hc]
      rfl
    · have hnone : ((substitute pattern replacement h).ways (c :: s)).head? = none := by
        rw [ways_substitute, hways, if_neg hc]
        rfl
      have hatoms : (substitute pattern replacement h).atoms 0 (c :: s) =
          .keep c :: (substitute pattern replacement h).atoms 0 s := by
        rw [Rule.atoms, hnone]
      rw [Rule.subn, hatoms, if_neg hc]
      rfl

theorem ways_lit_single {c d : Char} :
    (Pattern.lit [c]).ways (d :: s) = if decide (d = c) = true then [([d], s)] else [] := by
  by_cases hcd : d = c
  · simp [Pattern.lit, Pattern.word, hcd]
  · simp [Pattern.lit, Pattern.word, hcd, Ne.symm hcd]

/-- After runs of a class are replaced, none of the class is left but what the replacement has. -/
theorem mem_substitute_many {h : 0 < (Pattern.many p 1).least} {c : Char}
    (hc : c ∈ ((substitute (.many p 1) replacement h).subn s).1) :
    c ∈ replacement ∨ (c ∈ s ∧ p c = false) := by
  have hatoms : ∀ passed, c ∈ render replacement ((substitute (.many p 1) replacement h).atoms passed s) →
      c ∈ replacement ∨ (c ∈ s ∧ p c = false) := by
    clear hc
    induction s with
    | nil =>
      intro passed hc
      cases passed <;> simp [Rule.atoms, render] at hc
    | cons d s ih =>
      have hrest : ∀ passed, c ∈ render replacement ((substitute (.many p 1) replacement h).atoms passed s) →
          c ∈ replacement ∨ (c ∈ d :: s ∧ p c = false) := by
        intro passed hc
        cases ih passed hc with
        | inl hc => exact .inl hc
        | inr hc => exact .inr ⟨List.mem_cons_of_mem d hc.1, hc.2⟩
      intro passed hc
      cases passed with
      | succ passed =>
        rw [Rule.atoms] at hc
        exact hrest passed hc
      | zero =>
        rw [Rule.atoms] at hc
        cases hfirst : ((substitute (.many p 1) replacement h).ways (d :: s)).head? with
        | none =>
          rw [hfirst, render_cons, List.mem_append] at hc
          cases hc with
          | inl hd =>
            have hcd : c = d := List.mem_singleton.mp hd
            have hp : p d = false := by
              by_contra hp
              have hway : ([d], s) ∈ (Pattern.many p 1).ways (d :: s) :=
                Pattern.mem_ways_many.mpr ⟨rfl, by simpa using hp, Nat.le_refl 1⟩
              rw [ways_substitute, List.head?_eq_none_iff, List.map_eq_nil_iff] at hfirst
              rw [hfirst] at hway
              cases hway
            rw [hcd]
            exact .inr ⟨List.mem_cons_self, hp⟩
          | inr hc => exact hrest 0 hc
        | some f =>
          rw [hfirst, render_append, List.mem_append] at hc
          cases hc with
          | inl hc =>
            left
            have hf := List.mem_of_mem_head? hfirst
            rw [ways_substitute] at hf
            obtain ⟨way, -, hway⟩ := List.mem_map.mp hf
            rw [← hway] at hc
            simpa [Found.atoms, render, Atom.render] using hc
          | inr hc => exact hrest _ hc
  exact hatoms 0 hc

theorem ways_lit_of_ne {c d : Char} {w : List Char} (hd : d ≠ c) : (Pattern.lit (c :: w)).ways (d :: s) = [] := by
  apply Pattern.ways_lit_of_not_prefix
  intro hstarts
  exact hd (List.cons_prefix_cons.mp hstarts).1.symm

end Text

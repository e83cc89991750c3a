import ForkAgent.Output.Service

/-!
# Capped responses are faithful

Whatever is kept is a copy of an observation, in order; only the last one may be truncated, and of it only
the content is shortened.
-/

namespace ForkAgent.Output

variable {obs : ObservationDict} {observations : List ObservationDict} {out : List JsonObject}
  {remainingChars safeContentChars : Nat} {text : List Char}

/-- A part of the content from its start on, and of the marker. -/
def IsCut (obs : ObservationDict) (text : List Char) : Prop :=
  ∃ kept marker, kept <+: obs.content ∧ marker <+: truncationMarker ∧ text = kept ++ marker

/-- A truncated copy: it says so, and nothing else than the content is different. -/
structure Truncates (obs : ObservationDict) (out : JsonObject) : Prop where
  content : ∃ text, IsCut obs text ∧ out.lookup "content" = some (.str (String.ofList text))
  truncated : out.lookup "_truncated" = some (.bool true)
  tokens : out.lookup "_full_content_tokens" =
    some (.int (estimateTokens (Json.dumps (.obj obs.fields)) : Nat))
  others : ∀ key, key ∉ ["content", "_truncated", "_full_content_tokens"] → out.lookup key = obs.fields.lookup key

/-- Copies of observations, of which the last may be truncated. -/
inductive Copies : List ObservationDict → List JsonObject → Prop
  | nil : Copies [] []
  | whole {o : ObservationDict} {os : List ObservationDict} {items : List JsonObject} :
      Copies os items → Copies (o :: os) (o.fields :: items)
  | truncated {o : ObservationDict} {item : JsonObject} : Truncates o item → Copies [o] [item]

section Cuts

theorem isCut_nil : IsCut obs [] := ⟨[], [], List.nil_prefix, List.nil_prefix, rfl⟩

theorem isCut_take (n : Nat) : IsCut obs (obs.content.take n) :=
  ⟨_, [], List.take_prefix _ _, List.nil_prefix, (List.append_nil _).symm⟩

theorem isCut_take_marker (n : Nat) : IsCut obs (obs.content.take n ++ truncationMarker) :=
  ⟨_, _, List.take_prefix _ _, List.prefix_rfl, rfl⟩

theorem IsCut.take (h : IsCut obs text) (n : Nat) : IsCut obs (text.take n) := by
  obtain ⟨kept, marker, hkept, hmarker, rfl⟩ := h
  rw [List.take_append]
  exact ⟨_, _, (List.take_prefix _ _).trans hkept, (List.take_prefix _ _).trans hmarker, rfl⟩

theorem isCut_firstTry : IsCut obs (obs.firstTry safeContentChars) := by
  unfold ObservationDict.firstTry
  split_ifs
  · exact ⟨_, _, List.prefix_rfl, List.prefix_rfl, rfl⟩
  · exact isCut_take_marker _
  · exact isCut_take _

theorem isCut_shrunk (h : IsCut obs text) : IsCut obs (obs.shrunk safeContentChars remainingChars text) := by
  simp only [ObservationDict.shrunk]
  split_ifs
  · exact h
  · exact h.take _
  · exact isCut_take _
  · exact isCut_nil

theorem isCut_cut : IsCut obs (obs.cut remainingChars) := by
  simp only [ObservationDict.cut]
  split_ifs
  · exact isCut_nil
  · exact isCut_shrunk isCut_firstTry

end Cuts

section Copies

open JsonObject

theorem setdefault_content : obs.fields.setdefault "content" (.str "") = obs.fields := by
  obtain ⟨s, hs⟩ := obs.text
  exact setdefault_of_mem (by rw [hs]; rfl)

theorem truncates_capped (h : IsCut obs text) : Truncates obs (obs.capped text) where
  content := ⟨text, h, lookup_set_self⟩
  truncated := by
    rw [ObservationDict.capped, lookup_set_of_ne (by decide), ObservationDict.annotated,
      lookup_set_of_ne (by decide), lookup_set_self]
  tokens := by
    rw [ObservationDict.capped, lookup_set_of_ne (by decide), ObservationDict.annotated, lookup_set_self]
    rfl
  others key hkey := by
    simp only [List.mem_cons, List.not_mem_nil, or_false, not_or] at hkey
    rw [ObservationDict.capped, lookup_set_of_ne hkey.1, ObservationDict.annotated,
      lookup_set_of_ne hkey.2.2, lookup_set_of_ne hkey.2.1, setdefault_content]

theorem capFrom_copies (observations : List ObservationDict) (remainingChars : Nat) :
    ∃ kept, kept.Sublist observations ∧ Copies kept (capFrom observations remainingChars) := by
  induction observations generalizing remainingChars with
  | nil => exact ⟨[], List.Sublist.refl _, .nil⟩
  | cons obs observations ih =>
    simp only [capFrom, setdefault_content]
    split_ifs
    · exact ⟨[], List.nil_sublist _, .nil⟩
    · obtain ⟨kept, hkept, hcopies⟩ := ih (remainingChars - size obs.fields)
      exact ⟨obs :: kept, hkept.cons_cons obs, .whole hcopies⟩
    · obtain ⟨kept, hkept, hcopies⟩ := ih remainingChars
      exact ⟨kept, hkept.cons obs, hcopies⟩
    · refine ⟨[obs], ?_, .truncated (truncates_capped isCut_cut)⟩
      exact (List.nil_sublist _).cons_cons obs
    · exact ⟨[], List.nil_sublist _, .nil⟩

/-- The items of a capped response are copies of some of the observations, in order; the last may be
truncated. -/
theorem capResponse_copies (observations : List ObservationDict) (maxTokens : Int) :
    ∃ kept, kept.Sublist observations ∧ Copies kept (capResponse observations maxTokens) := by
  unfold capResponse
  split_ifs
  · exact ⟨[], List.nil_sublist _, .nil⟩
  · exact capFrom_copies _ _

end Copies

end ForkAgent.Output

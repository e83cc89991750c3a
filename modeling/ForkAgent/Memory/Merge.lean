import ForkAgent.Memory.Journal

/-!
# Merging projects

Observations are stored under their project's normalised name, sessions under the name as it was
given. A merge names its rows by equality with the normalised sources, which the repository
normalises once more. What a merge leaves behind is said of both tables at once: a table is a list
of rows, each of which has a project or none.
-/

namespace ForkAgent.Memory

open Effects Storage Sync Sessions

section Tables

variable {α : Type} (project : α → Option String) (relocate : String → α → α)

/-- What the statements of a merge make of a row. -/
def moveRow (canonical : String) (sources : List String) (row : α) : α :=
  if (project row).any (· ∈ sources) then relocate canonical row else row

variable (normalize : String → String)

/-- The row stands in a project whose normalised name is one of the sources. -/
def OfSources (sources : List String) (row : α) : Prop :=
  ∃ name, project row = some name ∧ normalize name ∈ sources

/-- No row is left in a source, the rows of the sources differ in their project only, and the other
rows are what they were. -/
structure Merged (sources : List String) (rows rows' : List α) : Prop where
  gone : ∀ row ∈ rows', ¬ OfSources project normalize sources row
  framed : List.Forall₂ (fun row row' =>
    (OfSources project normalize sources row → ∃ name, row' = relocate name row) ∧
      (¬ OfSources project normalize sources row → row' = row)) rows rows'

/-- The statements of a merge, which move the rows of the `named` projects to the target, treat a
stored name as its normalised name calls for. -/
def Fits (target : String) (named sources : List String) (name : String) : Prop :=
  if name ∈ named then normalize target ∉ sources ∧ (normalize name ∈ sources ∨ name = target)
  else normalize name ∉ sources

variable {project relocate normalize}

theorem moveRow_of_mem {canonical name : String} {sources : List String} {row : α}
    (hname : project row = some name) (h : name ∈ sources) :
    moveRow project relocate canonical sources row = relocate canonical row := by
  simp [moveRow, hname, h]

theorem moveRow_of_not_mem {canonical : String} {sources : List String} {row : α}
    (h : ∀ name, project row = some name → name ∉ sources) :
    moveRow project relocate canonical sources row = row := by
  unfold moveRow
  cases hname : project row with
  | none => simp
  | some name => simp [h name hname]

variable (hproject : ∀ name row, project (relocate name row) = some name)
  (hrelocate : ∀ name row, project row = some name → relocate name row = row)

include hproject hrelocate

/-- A table is merged as it should be exactly when the statements fit its names. -/
theorem merged_iff {target : String} {named sources : List String} {rows : List α} :
    Merged project relocate normalize sources rows
        (rows.map (moveRow project relocate target named)) ↔
      ∀ row ∈ rows, ∀ name, project row = some name →
        Fits normalize target named sources name := by
  constructor
  · rintro ⟨hgone, hframed⟩ row hrow name hname
    rw [List.forall₂_map_right_iff, List.forall₂_same] at hframed
    obtain ⟨-, hkept⟩ := hframed row hrow
    have hleft := hgone _ (List.mem_map_of_mem hrow)
    unfold Fits
    split_ifs with hmem
    · rw [moveRow_of_mem hname hmem] at hleft hkept
      refine ⟨fun h => hleft ⟨_, hproject _ _, h⟩, ?_⟩
      by_contra hneither
      rw [not_or] at hneither
      have hother : ¬ OfSources project normalize sources row := by
        rintro ⟨name', hname', h⟩
        rw [hname] at hname'
        cases hname'
        exact hneither.1 h
      have hsame := congrArg project (hkept hother)
      rw [hproject, hname] at hsame
      exact hneither.2 (Option.some.inj hsame).symm
    · have hstays : ∀ name', project row = some name' → name' ∉ named := by
        intro name' hname'
        rw [hname] at hname'
        cases hname'
        exact hmem
      rw [moveRow_of_not_mem hstays] at hleft
      exact fun h => hleft ⟨name, hname, h⟩
  · intro hfits
    refine ⟨?_, ?_⟩
    · rw [List.forall_mem_map]
      rintro row hrow ⟨name', hname', h⟩
      by_cases hmoved : ∃ name, project row = some name ∧ name ∈ named
      · obtain ⟨name, hname, hmem⟩ := hmoved
        have hfit := hfits row hrow name hname
        rw [Fits, if_pos hmem] at hfit
        rw [moveRow_of_mem hname hmem, hproject] at hname'
        cases hname'
        exact hfit.1 h
      · have hstays : ∀ name, project row = some name → name ∉ named :=
          fun name hname hmem => hmoved ⟨name, hname, hmem⟩
        rw [moveRow_of_not_mem hstays] at hname'
        have hfit := hfits row hrow name' hname'
        rw [Fits, if_neg (hstays name' hname')] at hfit
        exact hfit h
    · rw [List.forall₂_map_right_iff, List.forall₂_same]
      intro row hrow
      by_cases hmoved : ∃ name, project row = some name ∧ name ∈ named
      · obtain ⟨name, hname, hmem⟩ := hmoved
        have hfit := hfits row hrow name hname
        rw [Fits, if_pos hmem] at hfit
        rw [moveRow_of_mem hname hmem]
        refine ⟨fun _ => ⟨_, rfl⟩, fun hother => ?_⟩
        rcases hfit.2 with h | rfl
        · exact absurd ⟨name, hname, h⟩ hother
        · exact hrelocate _ _ hname
      · rw [moveRow_of_not_mem fun name hname hmem => hmoved ⟨name, hname, hmem⟩]
        refine ⟨?_, fun _ => rfl⟩
        rintro ⟨name, hname, -⟩
        exact ⟨name, (hrelocate name row hname).symm⟩

omit hrelocate in
theorem moveRow_cons (canonical src : String) (sources : List String) (row : α)
    (hsame : ∀ row, relocate canonical (relocate canonical row) = relocate canonical row) :
    moveRow project relocate canonical (src :: sources) row =
      moveRow project relocate canonical sources
        (if project row = some src then relocate canonical row else row) := by
  by_cases hsrc : project row = some src
  · rw [if_pos hsrc, moveRow_of_mem hsrc List.mem_cons_self]
    by_cases hmem : canonical ∈ sources
    · rw [moveRow_of_mem (hproject canonical row) hmem, hsame]
    · refine (moveRow_of_not_mem fun name hname => ?_).symm
      rw [hproject] at hname
      cases hname
      exact hmem
  · rw [if_neg hsrc]
    unfold moveRow
    cases hname : project row with
    | none => rfl
    | some name =>
      have hne : name ≠ src := fun h => hsrc (by rw [hname, h])
      simp [hne]

end Tables

section Statements

variable {canonical : String}

abbrev moveObservation := moveRow ObservationRow.project MemoryStore.relocate

abbrev moveSession := moveRow (fun session => some session.project) SessionFields.relocate

theorem merged_eq (sources : List String) (row : ObservationRow) :
    merged canonical sources row = moveObservation canonical sources row := by
  induction sources generalizing row with
  | nil => exact (moveRow_of_not_mem fun _ _ => List.not_mem_nil).symm
  | cons src sources ih =>
    have hcons := @moveRow_cons _ ObservationRow.project MemoryStore.relocate
      (fun _ _ => rfl) canonical src sources row fun _ => rfl
    rw [merged_cons, ih, moveObservation, hcons]
    simp

theorem moveProjects_map {sources : List String} {t t' : ObservationTable} {count : Nat}
    (h : ObservationTable.moveProjects (some canonical) sources t = some (count, t')) :
    t'.rows = t.rows.map (moveObservation canonical sources) := by
  rw [moveProjects_rows h]
  exact List.map_congr_left fun row _ => merged_eq sources row

theorem moveSessions_map (sources : List String) (sessions : List SessionFields) :
    (moveSessions canonical sources sessions).2 = sessions.map (moveSession canonical sources) := by
  induction sources generalizing sessions with
  | nil =>
    refine (List.map_id _).symm.trans (List.map_congr_left fun session _ => ?_)
    exact (moveRow_of_not_mem fun _ _ => List.not_mem_nil).symm
  | cons src sources ih =>
    rw [moveSessions, ih, List.map_map]
    refine List.map_congr_left fun session _ => ?_
    have hcons := @moveRow_cons _ (fun session : SessionFields => some session.project)
      SessionFields.relocate (fun _ _ => rfl) canonical src sources session fun _ => rfl
    rw [moveSession, hcons]
    simp

end Statements

namespace MemoryService

variable (svc : MemoryService) (fromProjects toProject : String)

/-- The normalised sources of a merge: those that are not empty and not the target. -/
def sourcesOf : List String :=
  let normalize := normalizeProjectName svc.repository.lower
  ((splitCommas fromProjects.toList []).map normalize).filter fun src =>
    src ≠ "" ∧ src ≠ normalize toProject

/-- The names that the statements of a merge look for. Nothing is merged into an empty name. -/
def namedBy : List String :=
  let normalize := normalizeProjectName svc.repository.lower
  if normalize toProject = "" then [] else (svc.sourcesOf fromProjects toProject).map normalize

/-- The name that the statements of a merge write. -/
def targetOf : String :=
  let normalize := normalizeProjectName svc.repository.lower
  normalize (normalize toProject)

end MemoryService

theorem moveRow_nil {α : Type} {project : α → Option String} {relocate : String → α → α}
    (canonical : String) (rows : List α) : rows.map (moveRow project relocate canonical []) = rows := by
  refine (List.map_congr_left fun row _ => ?_).trans (List.map_id _)
  exact moveRow_of_not_mem fun _ _ => List.not_mem_nil

/-- A name that a stored observation or session stands under. -/
def MemoryStore.Names (s : MemoryStore) (name : String) : Prop :=
  (∃ row ∈ s.observations.rows, row.project = some name) ∨ ∃ session ∈ s.sessions, session.project = name

/-- Both tables are merged as they should be. -/
structure MergedStore (normalize : String → String) (sources : List String) (s s' : MemoryStore) :
    Prop where
  observations : Merged ObservationRow.project MemoryStore.relocate normalize sources
    s.observations.rows s'.observations.rows
  sessions : Merged (fun session => some session.project) SessionFields.relocate normalize sources
    s.sessions s'.sessions

section Runs

variable {svc : MemoryService} {fromProjects toProject : String} {s s' : Store}
  {out : Except Exn ObservationRepository.MergeStats}

/-- A merge raises and changes nothing, or it moves the rows of both tables. -/
theorem mergeProjects_cases
    (h : (svc.mergeProjects fromProjects toProject).Runs Store.step s out s') :
    (∃ e, out = .error e ∧ s' = s) ∨ ∃ stats, out = .ok stats ∧ s'.2 = s.2 ∧
      s'.1.observations.rows = s.1.observations.rows.map
        (moveObservation (svc.targetOf toProject) (svc.namedBy fromProjects toProject)) ∧
      s'.1.sessions = s.1.sessions.map
        (moveSession (svc.targetOf toProject) (svc.namedBy fromProjects toProject)) := by
  have hnothing : svc.namedBy fromProjects toProject = [] → s' = s → s'.2 = s.2 ∧
      s'.1.observations.rows = s.1.observations.rows.map
        (moveObservation (svc.targetOf toProject) (svc.namedBy fromProjects toProject)) ∧
      s'.1.sessions = s.1.sessions.map
        (moveSession (svc.targetOf toProject) (svc.namedBy fromProjects toProject)) := by
    rintro hnamed rfl
    rw [hnamed, moveObservation, moveSession, moveRow_nil, moveRow_nil]
    exact ⟨rfl, rfl, rfl⟩
  unfold MemoryService.mergeProjects at h
  dsimp only at h
  split_ifs at h with hempty hsources
  · obtain ⟨rfl, hsame⟩ := h
    exact .inr ⟨_, rfl, hnothing (by rw [MemoryService.namedBy, if_pos hempty]) hsame⟩
  · obtain ⟨rfl, hsame⟩ := h
    refine .inr ⟨_, rfl, hnothing ?_ hsame⟩
    rw [MemoryService.namedBy, if_neg hempty, MemoryService.sourcesOf, hsources, List.map_nil]
  · obtain ⟨hsync, r, hstep, rfl⟩ := (ObservationRepository.mergeProjects_runs svc.repository).mp h
    obtain e | moved := r
    · exact .inl ⟨_, rfl, Prod.ext (step_error hstep) hsync⟩
    · rw [MemoryService.namedBy, if_neg hempty]
      obtain ⟨-, ⟨m, hm⟩, -⟩ | ⟨count, t, hmoved, -, hafter⟩ :=
        serve_mergeProjects.mp (serve_of_ok hstep)
      · cases hm
      · refine .inr ⟨_, rfl, hsync, ?_, ?_⟩
        · rw [hafter]
          exact moveProjects_map hmoved
        · rw [hafter]
          exact moveSessions_map _ _

end Runs

/-- A merge that raises leaves both tables as they were. One that returns has merged both tables
exactly when its statements fit every stored name. -/
theorem merge_complete_iff {svc : MemoryService} {fromProjects toProject : String} {s s' : Store}
    {out : Except Exn ObservationRepository.MergeStats}
    (h : (svc.mergeProjects fromProjects toProject).Runs Store.step s out s') :
    (∀ e, out = .error e → s' = s) ∧
      (∀ stats, out = .ok stats →
        (MergedStore (normalizeProjectName svc.repository.lower) (svc.sourcesOf fromProjects toProject)
            s.1 s'.1 ↔
          ∀ name, s.1.Names name → Fits (normalizeProjectName svc.repository.lower)
            (svc.targetOf toProject) (svc.namedBy fromProjects toProject)
            (svc.sourcesOf fromProjects toProject) name)) := by
  obtain ⟨e, rfl, rfl⟩ | ⟨stats, rfl, -, hobservations, hsessions⟩ := mergeProjects_cases h
  · exact ⟨fun _ _ => rfl, fun _ hout => nomatch hout⟩
  · refine ⟨fun _ hout => (nomatch hout), fun _ _ => ?_⟩
    have hrows := @merged_iff _ ObservationRow.project MemoryStore.relocate
      (normalizeProjectName svc.repository.lower) (fun _ _ => rfl)
      (fun name row hname => by rw [MemoryStore.relocate, ← hname])
      (svc.targetOf toProject) (svc.namedBy fromProjects toProject)
      (svc.sourcesOf fromProjects toProject) s.1.observations.rows
    have hmembers := @merged_iff _ (fun session : SessionFields => some session.project)
      SessionFields.relocate (normalizeProjectName svc.repository.lower) (fun _ _ => rfl)
      (fun name session hname => by rw [SessionFields.relocate, ← Option.some.inj hname])
      (svc.targetOf toProject) (svc.namedBy fromProjects toProject)
      (svc.sourcesOf fromProjects toProject) s.1.sessions
    rw [← hobservations] at hrows
    rw [← hsessions] at hmembers
    constructor
    · rintro ⟨hmerged, hmoved⟩ name (⟨row, hrow, hname⟩ | ⟨session, hsession, hname⟩)
      · exact hrows.mp hmerged row hrow name hname
      · exact hmembers.mp hmoved session hsession name (congrArg some hname)
    · intro hfits
      exact ⟨hrows.mpr fun row hrow name hname => hfits name (.inl ⟨row, hrow, hname⟩),
        hmembers.mpr fun session hsession name hname =>
          hfits name (.inr ⟨session, hsession, Option.some.inj hname⟩)⟩

theorem fits_of_normalized {svc : MemoryService} {fromProjects toProject name : String}
    (hname : normalizeProjectName svc.repository.lower name = name)
    (hsources : ∀ src ∈ svc.sourcesOf fromProjects toProject,
      normalizeProjectName svc.repository.lower src = src)
    (htarget : normalizeProjectName svc.repository.lower toProject = toProject)
    (hne : toProject ≠ "") :
    Fits (normalizeProjectName svc.repository.lower) (svc.targetOf toProject)
      (svc.namedBy fromProjects toProject) (svc.sourcesOf fromProjects toProject) name := by
  have hnamed : svc.namedBy fromProjects toProject = svc.sourcesOf fromProjects toProject := by
    rw [MemoryService.namedBy, htarget, if_neg hne]
    exact (List.map_congr_left hsources).trans (List.map_id _)
  have hother : toProject ∉ svc.sourcesOf fromProjects toProject := by
    intro hmem
    rw [MemoryService.sourcesOf, List.mem_filter] at hmem
    simp [htarget] at hmem
  rw [Fits, hnamed, hname, MemoryService.targetOf, htarget, htarget, htarget]
  split_ifs with hmem
  · exact ⟨hother, .inl hmem⟩
  · exact hmem

section Example

def asciiService : MemoryService where
  repository := { lower := sqlLower }
  redactObservationData := fun content metadata => (content, metadata)

/-- Nothing but one session of this project. -/
def sessionStore (project : String) : Store :=
  ({ observations := .empty, sessions := [{ id := "1", project, directory := "/", startedAt := 0 }] },
    {})

theorem merge_sessionStore (project : String) :
    (asciiService.mergeProjects "A" "b").Runs Store.step (sessionStore project)
      (.ok ⟨"b", ["a"], 0, if project = "a" then 1 else 0⟩)
      (sessionStore (if project = "a" then "b" else project)) := by
  have hcall : asciiService.mergeProjects "A" "b" = asciiService.repository.mergeProjects "b" ["a"] := rfl
  rw [hcall]
  have hsource : normalizeProjectName asciiService.repository.lower "a" = "a" := rfl
  have htarget : normalizeProjectName asciiService.repository.lower "b" = "b" := rfl
  refine (ObservationRepository.mergeProjects_runs _).mpr
    ⟨rfl, .ok (0, if project = "a" then 1 else 0), ?_, rfl⟩
  refine .inl (serve_mergeProjects.mpr (.inr ⟨0, .empty, rfl, ?_, ?_⟩))
  · by_cases hproject : project = "a"
    · simp [sessionStore, moveSessions, hproject, hsource]
      rfl
    · simp [sessionStore, moveSessions, hproject, hsource]
      rfl
  · by_cases hproject : project = "a"
    · simp [sessionStore, moveSessions, hproject, hsource, htarget, SessionFields.relocate]
    · simp [sessionStore, moveSessions, hproject, hsource]

/-- The source "A" is normalised to "a", and the session was stored as "A". -/
theorem merged_session_left :
    ¬ ∀ (svc : MemoryService) (fromProjects toProject : String) (s s' : Store)
      (stats : ObservationRepository.MergeStats),
      (svc.mergeProjects fromProjects toProject).Runs Store.step s (.ok stats) s' →
      MergedStore (normalizeProjectName svc.repository.lower) (svc.sourcesOf fromProjects toProject)
        s.1 s'.1 := by
  intro h
  have hmerged := h _ _ _ _ _ _ (merge_sessionStore "A")
  have hleft := hmerged.sessions.gone { id := "1", project := "A", directory := "/", startedAt := 0 }
  exact hleft (by decide) ⟨"A", rfl, by decide⟩

theorem merge_complete_iff_session :
    MergedStore (normalizeProjectName sqlLower) (asciiService.sourcesOf "A" "b")
      (sessionStore "a").1 (sessionStore "b").1 := by
  refine ((merge_complete_iff (merge_sessionStore "a")).2 _ rfl).mpr ?_
  rintro name (⟨row, hrow, -⟩ | ⟨session, hsession, rfl⟩)
  · cases hrow
  · rw [List.mem_singleton.mp hsession]
    exact fits_of_normalized rfl (by decide) rfl (by decide)

end Example

end ForkAgent.Memory

import ForkAgent.Obsidian.Export
import Mathlib.Data.List.Nodup

/-!
# Where exported notes lie

Each note has a file of its own where the paths and the short ids of the observations set them apart: a note
whose path an earlier note has gets its short id added to its name, and that name may be taken as well.
-/

namespace ForkAgent.Obsidian

open Effects Memory

section Spots

/-- The path that is built for a note, and its short id where an earlier note has the path. -/
structure Spot where
  path : Path
  short : Option String

def Spot.name (spot : Spot) : String :=
  match spot.short with
  | none => spot.path.name
  | some short => nameStem spot.path.name ++ "_" ++ short ++ nameSuffix spot.path.name

/-- The short id can be a part of a name. -/
def Spot.Plain (spot : Spot) : Prop := ∀ short ∈ spot.short, '/' ∉ short.toList

def Spot.target (spot : Spot) : Path := spot.path.rename spot.name

variable (svc : ObsidianExportService) (fs : FileSystem) (base : Path)

def spotOf (seen : List Path) (o : Observation) : Spot where
  path := svc.buildPath fs o base
  short := if svc.buildPath fs o base ∈ seen then some (shortId o) else none

def spots : List Path → List Observation → List Spot
  | _, [] => []
  | seen, o :: os => spotOf svc fs base seen o :: spots (svc.buildPath fs o base :: seen) os

end Spots

section Names

variable {svc : ObsidianExportService} {fs : FileSystem} {base : Path} {o : Observation} {seen : List Path}

theorem ne_dots_of_mem {s : String} {c : Char} (hc : c ∈ s.toList) (hdot : c ≠ '.') :
    s ≠ ".." ∧ s ≠ "." ∧ s ≠ "" := by
  refine ⟨?_, ?_, ?_⟩
  · intro h
    simp [h, hdot] at hc
  · intro h
    simp [h, hdot] at hc
  · intro h
    simp [h] at hc

/-- A name of one part that leads into a directory. -/
structure PlainName (name : String) : Prop where
  slash : '/' ∉ name.toList
  nonempty : name ≠ ""
  dot : name ≠ "."
  dots : name ≠ ".."

theorem sanitize_plain {segment : String} (hslash : '/' ∉ segment.toList) (hne : segment ≠ "") :
    PlainName (svc.sanitize segment) := by
  unfold ObsidianExportService.sanitize
  by_cases hdots : (segment.map fun c => if svc.isWordChar c ∨ c = '-' ∨ c = '.' then c else '_') = "." ∨
      (segment.map fun c => if svc.isWordChar c ∨ c = '-' ∨ c = '.' then c else '_') = ".."
  · simp only [if_pos hdots]
    exact ⟨by decide, by decide, by decide, by decide⟩
  · simp only [if_neg hdots]
    rw [not_or] at hdots
    refine ⟨?_, ?_, hdots.1, hdots.2⟩
    · rw [String.toList_map]
      intro hmem
      obtain ⟨c, hc, heq⟩ := List.mem_map.mp hmem
      by_cases hkept : svc.isWordChar c = true ∨ c = '-' ∨ c = '.'
      · rw [if_pos hkept] at heq
        exact hslash (heq ▸ hc)
      · rw [if_neg hkept] at heq
        revert heq
        decide
    · intro hempty
      have hlist := congrArg String.toList hempty
      rw [String.toList_map] at hlist
      exact hne (by simpa using hlist)

theorem topicParts_plain {topicKey part : String} (h : part ∈ topicParts topicKey) :
    '/' ∉ part.toList ∧ part ≠ "" := by
  obtain ⟨segment, hsegment, heq⟩ := List.mem_map.mp h
  obtain ⟨hmem, hne⟩ := List.mem_filter.mp hsegment
  rw [← heq]
  constructor
  · rw [String.toList_ofList]
    exact Path.not_mem_of_mem_splitOn hmem
  · intro hempty
    have hlist := congrArg String.toList hempty
    rw [String.toList_ofList] at hlist
    simp [hlist] at hne

theorem foldl_join_plain {names : List String} (h : ∀ name ∈ names, PlainName name) (p : Path) :
    names.foldl Path.join p = { p with parts := p.parts ++ names } := by
  induction names generalizing p with
  | nil => simp
  | cons name names ih =>
    rw [List.forall_mem_cons] at h
    rw [List.foldl_cons, ih h.2, Path.join_of_plain p h.1.slash h.1.nonempty h.1.dot]
    simp

theorem foldl_enter_plain {names : List String} (h : ∀ name ∈ names, name ≠ "..") (from' : List String) :
    names.foldl FileSystem.enter from' = from' ++ names := by
  induction names generalizing from' with
  | nil => simp
  | cons name names ih =>
    rw [List.forall_mem_cons] at h
    rw [List.foldl_cons, ih h.2, FileSystem.enter, if_neg h.1, List.append_assoc]
    rfl

/-- The path of a topic lies under the directory. -/
theorem topicPath_parts (topicKey : String) (base : Path) : ∃ folders stem, (∀ name ∈ folders, name ≠ "..") ∧
    '/' ∉ stem.toList ∧
      svc.topicPath topicKey base = { base with parts := base.parts ++ (folders ++ [stem ++ ".md"]) } := by
  have hnames : ∃ folders last, (∀ name ∈ folders ++ [last], PlainName name) ∧
      (if (topicParts topicKey).map svc.sanitize = [] then ["_root"] else (topicParts topicKey).map svc.sanitize) =
        folders ++ [last] := by
    by_cases hnone : (topicParts topicKey).map svc.sanitize = []
    · rw [if_pos hnone]
      refine ⟨[], "_root", ?_, rfl⟩
      intro name hname
      rw [List.mem_singleton.mp hname]
      exact ⟨by decide, by decide, by decide, by decide⟩
    · rw [if_neg hnone]
      refine ⟨_, _, ?_, (List.dropLast_concat_getLast hnone).symm⟩
      intro name hname
      rw [List.dropLast_concat_getLast hnone] at hname
      obtain ⟨part, hpart, heq⟩ := List.mem_map.mp hname
      rw [← heq]
      exact sanitize_plain (topicParts_plain hpart).1 (topicParts_plain hpart).2
  obtain ⟨folders, last, hplain, heq⟩ := hnames
  refine ⟨folders, nameStem last, ?_, ?_, ?_⟩
  · intro name hname
    exact (hplain name (List.mem_append_left _ hname)).dots
  · intro hmem
    rw [nameStem, String.toList_ofList] at hmem
    exact (hplain last (by simp)).slash (List.mem_of_mem_take hmem)
  · rw [ObsidianExportService.topicPath, heq]
    simp only [foldl_join_plain hplain]
    rw [Path.rename, Path.name]
    simp [withSuffix, ← List.append_assoc]

theorem buildPath_topic {topicKey : String} (h : given o.val.topicKey = some topicKey) :
    svc.buildPath fs o base = svc.topicPath topicKey base ∧
      fs.resolve base <+: fs.resolve (svc.topicPath topicKey base) := by
  obtain ⟨folders, stem, hdots, -, hpath⟩ : ∃ folders stem, (∀ name ∈ folders, name ≠ "..") ∧ '/' ∉ stem.toList ∧
      svc.topicPath topicKey base = { base with parts := base.parts ++ (folders ++ [stem ++ ".md"]) } :=
    topicPath_parts topicKey base
  have hnames : ∀ name ∈ folders ++ [stem ++ ".md"], name ≠ ".." := by
    intro name hname
    cases List.mem_append.mp hname with
    | inl hname => exact hdots name hname
    | inr hname =>
      rw [List.mem_singleton.mp hname]
      exact (ne_dots_of_mem (c := 'm') (by simp) (by decide)).1
  have hinside : fs.resolve base <+: fs.resolve (svc.topicPath topicKey base) := by
    rw [hpath, FileSystem.resolve, FileSystem.resolve, List.foldl_append, foldl_enter_plain hnames]
    exact List.prefix_append _ _
  unfold ObsidianExportService.buildPath
  rw [h]
  exact ⟨if_pos hinside, hinside⟩

theorem buildPath_parts (svc : ObsidianExportService) (fs : FileSystem) (o : Observation) (base : Path) :
    ∃ folders stem, '/' ∉ stem.toList ∧ (svc.buildPath fs o base).parts = folders ++ [stem ++ ".md"] := by
  cases hkey : given o.val.topicKey with
  | none =>
    obtain ⟨folders, stem, h⟩ : ∃ folders stem, Path.partsOf (shortId o ++ ".md") = folders ++ [stem ++ ".md"] :=
      Path.partsOf_append (shortId o) (by decide) (by decide) (by decide)
    have hslash : '/' ∉ (stem ++ ".md").toList := Path.not_mem_of_mem_partsOf (by rw [h]; simp)
    have hstem : '/' ∉ stem.toList := by
      intro hmem
      exact hslash (by simp [hmem])
    have hbuilt : svc.buildPath fs o base = orphanPath o base := by
      unfold ObsidianExportService.buildPath
      rw [hkey]
    rw [hbuilt, orphanPath, Path.join]
    by_cases hroot : Path.rootOf (shortId o ++ ".md") = ""
    · rw [if_pos hroot, h]
      exact ⟨_, stem, hstem, (List.append_assoc _ _ _).symm⟩
    · rw [if_neg hroot, h]
      exact ⟨folders, stem, hstem, rfl⟩
  | some topicKey =>
    obtain ⟨folders, stem, -, hstem, hpath⟩ : ∃ folders stem, (∀ name ∈ folders, name ≠ "..") ∧
      '/' ∉ stem.toList ∧ svc.topicPath topicKey base = { base with parts := base.parts ++ (folders ++ [stem ++ ".md"]) } :=
      topicPath_parts topicKey base
    rw [(buildPath_topic hkey).1, hpath]
    exact ⟨_, stem, hstem, (List.append_assoc _ _ _).symm⟩

theorem buildPath_ne_nil : (svc.buildPath fs o base).parts ≠ [] := by
  obtain ⟨folders, stem, -, h⟩ := buildPath_parts svc fs o base
  simp [h]

theorem buildPath_name : ∃ stem, '/' ∉ stem.toList ∧ (svc.buildPath fs o base).name = stem ++ ".md" := by
  obtain ⟨folders, stem, hstem, h⟩ := buildPath_parts svc fs o base
  exact ⟨stem, hstem, by simp [Path.name, h]⟩

theorem spotOf_name : (spotOf svc fs base seen o).name ≠ ".." ∧ (spotOf svc fs base seen o).name ≠ "." ∧
    (spotOf svc fs base seen o).name ≠ "" := by
  unfold spotOf Spot.name
  by_cases hseen : svc.buildPath fs o base ∈ seen
  · simp only [if_pos hseen]
    exact ne_dots_of_mem (c := '_') (by simp) (by decide)
  · simp only [if_neg hseen]
    obtain ⟨stem, -, hname⟩ : ∃ stem, _ ∧ (svc.buildPath fs o base).name = stem ++ ".md" := buildPath_name
    rw [hname]
    exact ne_dots_of_mem (c := 'm') (by simp) (by decide)

theorem not_mem_stem_suffix {name : String} {c : Char} (h : c ∉ name.toList) (hdot : c ≠ '.') :
    c ∉ (nameStem name).toList ∧ c ∉ (nameSuffix name).toList := by
  constructor
  · intro hmem
    rw [nameStem, String.toList_ofList] at hmem
    exact h (List.mem_of_mem_take hmem)
  · intro hmem
    unfold nameSuffix at hmem
    dsimp only at hmem
    split at hmem
    · rw [String.toList_ofList, List.mem_cons] at hmem
      cases hmem with
      | inl hc => exact hdot hc
      | inr hmem => exact h ((List.rtakeWhile_suffix _ _).subset hmem)
    · simp at hmem

/-- The path that the loop takes: the target of the spot, where the short id can be a part of a name. -/
theorem path_eq : (∀ path, (if svc.buildPath fs o base ∈ seen then (svc.buildPath fs o base).withStem
      (nameStem (svc.buildPath fs o base).name ++ "_" ++ shortId o) else .ok (svc.buildPath fs o base)) = .ok path ↔
    (spotOf svc fs base seen o).Plain ∧ path = (spotOf svc fs base seen o).target) := by
  intro path
  by_cases hseen : svc.buildPath fs o base ∈ seen
  · obtain ⟨stem, hstem, hname⟩ : ∃ stem, '/' ∉ stem.toList ∧ (svc.buildPath fs o base).name = stem ++ ".md" :=
      buildPath_name
    have hslash : '/' ∉ (svc.buildPath fs o base).name.toList := by
      rw [hname, String.toList_append, List.mem_append, not_or]
      exact ⟨hstem, by decide⟩
    have hne : (svc.buildPath fs o base).name ≠ "" := by
      rw [hname]
      exact (ne_dots_of_mem (c := 'm') (by simp) (by decide)).2.2
    have hspot : spotOf svc fs base seen o = ⟨svc.buildPath fs o base, some (shortId o)⟩ := by
      rw [spotOf, if_pos hseen]
    have hspecial : (spotOf svc fs base seen o).name ≠ ".." ∧ (spotOf svc fs base seen o).name ≠ "." ∧
        (spotOf svc fs base seen o).name ≠ "" := spotOf_name
    obtain ⟨hstem, hsuffix⟩ := not_mem_stem_suffix hslash (by decide)
    have hmem : '/' ∈ (nameStem (svc.buildPath fs o base).name ++ "_" ++ shortId o ++
        nameSuffix (svc.buildPath fs o base).name).toList ↔ '/' ∈ (shortId o).toList := by
      simp [hstem, hsuffix]
    rw [hspot] at hspecial ⊢
    rw [if_pos hseen, Path.withStem, Path.withName, if_neg hne]
    simp only [Spot.target, Spot.name] at hspecial ⊢
    generalize nameStem (svc.buildPath fs o base).name ++ "_" ++ shortId o ++
      nameSuffix (svc.buildPath fs o base).name = name at hspecial hmem ⊢
    have hinvalid : name = "" ∨ '/' ∈ name.toList ∨ name = "." ↔ '/' ∈ (shortId o).toList := by
      rw [or_iff_right hspecial.2.2, or_iff_left hspecial.2.1, hmem]
    by_cases hshort : '/' ∈ (shortId o).toList
    · rw [if_pos (hinvalid.mpr hshort)]
      constructor
      · intro h
        cases h
      · intro h
        exact absurd hshort (h.1 (shortId o) rfl)
    · rw [if_neg fun h => hshort (hinvalid.mp h)]
      constructor
      · intro h
        refine ⟨?_, (Except.ok.inj h).symm⟩
        intro short heq
        cases heq
        exact hshort
      · intro h
        rw [h.2]
  · rw [if_neg hseen]
    have hspot : spotOf svc fs base seen o = ⟨svc.buildPath fs o base, none⟩ := by
      rw [spotOf, if_neg hseen]
    rw [hspot, Spot.target, Spot.name, Path.rename_name buildPath_ne_nil]
    constructor
    · intro h
      exact ⟨by simp [Spot.Plain], (Except.ok.inj h).symm⟩
    · intro h
      rw [h.2]

end Names

section Runs

variable {svc : ObsidianExportService} {fs : FileSystem} {base : Path} {seen : List Path} {os : List Observation}
  {files : List (Path × String)} {tree tree' : Tree} {paths : List Path}

/-- The files that an export of some notes writes. -/
def Written (svc : ObsidianExportService) (fs : FileSystem) (base : Path) :
    List Path → List Observation → List (Path × String) → Prop
  | _, [], files => files = []
  | seen, o :: os, files => (spotOf svc fs base seen o).Plain ∧ ∃ text rest, svc.render o = .ok text ∧
      files = ((spotOf svc fs base seen o).target, text) :: rest ∧
        Written svc fs base (svc.buildPath fs o base :: seen) os rest

theorem target_parent (spot : Spot) : spot.target.parent = spot.path.parent := Path.parent_rename _ _

theorem exportEach_ok (h : (svc.exportEach fs base seen os).Runs fs.serve tree (.ok paths) tree') :
    ∃ files, Written svc fs base seen os files ∧ paths = files.map (·.1) ∧ Laid fs files tree tree' := by
  induction os generalizing seen tree tree' paths with
  | nil => exact ⟨[], rfl, Except.ok.inj h.1, h.2⟩
  | cons o os ih =>
    rw [ObsidianExportService.exportEach] at h
    obtain ⟨e, -, herror⟩ | ⟨path, tree₀, hpath, hmake⟩ := Program.runs_bind.mp h
    · cases herror
    · obtain ⟨hvalue, rfl⟩ := Program.runs_ofExcept.mp hpath
      obtain ⟨hplain, htarget⟩ := (path_eq path).mp hvalue.symm
      obtain ⟨hpass, hrendering⟩ := FileSystem.runs_mkdir_bind_ok hmake
      obtain ⟨e, -, herror⟩ | ⟨text, tree₁, hrender, hwriting⟩ := Program.runs_bind.mp hrendering
      · cases herror
      · obtain ⟨htext, rfl⟩ := Program.runs_ofExcept.mp hrender
        obtain ⟨hwritable, hothers⟩ := FileSystem.runs_writeText_bind_ok hwriting
        obtain ⟨e, -, herror⟩ | ⟨created, tree₂, hrest, hend⟩ := Program.runs_bind.mp hothers
        · cases herror
        · obtain ⟨rest, hwritten, hcreated, hlaid⟩ := ih hrest
          rw [htarget] at hpass hwritable hlaid hend
          refine ⟨((spotOf svc fs base seen o).target, text) :: rest, ⟨hplain, text, rest, htext.symm, rfl, hwritten⟩,
            ?_, hpass, hwritable, ?_⟩
          · rw [Except.ok.inj hend.1, hcreated]
            rfl
          · rw [hend.2]
            exact hlaid

theorem exportEach_of_allFit (hwritten : Written svc fs base seen os files) (hfits : AllFit fs (files.map (·.1)) tree)
    {out : Except Exn (List Path)} (h : (svc.exportEach fs base seen os).Runs fs.serve tree out tree') :
    out = .ok (files.map (·.1)) ∧ Laid fs files tree tree' := by
  induction os generalizing seen tree files out with
  | nil =>
    cases hwritten
    exact ⟨h.1, h.2⟩
  | cons o os ih =>
    obtain ⟨hplain, text, rest, hrender, rfl, hrest⟩ := hwritten
    have hpath := (path_eq _).mpr ⟨hplain, rfl⟩
    obtain ⟨hpass, hwritable, hfits'⟩ := (allFit_cons text).mp hfits
    rw [ObsidianExportService.exportEach] at h
    simp only [hpath, hrender, Program.ofExcept_ok, Program.ret_bind] at h
    have hcreate := FileSystem.runs_writeText_bind hwritable (FileSystem.runs_mkdir_bind hpass h)
    obtain ⟨e, herror, -⟩ | ⟨created, tree₃, hcreated, hend⟩ := Program.runs_bind.mp hcreate
    · cases (ih hrest hfits' herror).1
    · obtain ⟨hout, rfl⟩ := hend
      obtain ⟨hvalue, hlaid⟩ := ih hrest hfits' hcreated
      rw [hout, Except.ok.inj hvalue]
      exact ⟨rfl, hpass, hwritable, hlaid⟩

theorem Written.targets (h : Written svc fs base seen os files) :
    files.map (·.1) = (spots svc fs base seen os).map Spot.target := by
  induction os generalizing seen files with
  | nil =>
    cases h
    rfl
  | cons o os ih =>
    obtain ⟨-, text, rest, -, rfl, hrest⟩ := h
    rw [List.map_cons, ih hrest]
    rfl

theorem Written.renders (h : Written svc fs base seen os files) :
    List.Forall₂ (fun o file => svc.render o = .ok file.2) os files := by
  induction os generalizing seen files with
  | nil =>
    cases h
    exact .nil
  | cons o os ih =>
    obtain ⟨-, text, rest, hrender, rfl, hrest⟩ := h
    exact .cons hrender (ih hrest)

theorem exists_written : (∃ files, Written svc fs base seen os files) ↔
    (∀ spot ∈ spots svc fs base seen os, spot.Plain) ∧ ∀ o ∈ os, ∃ text, svc.render o = .ok text := by
  induction os generalizing seen with
  | nil => simp [Written, spots]
  | cons o os ih =>
    rw [spots, List.forall_mem_cons, List.forall_mem_cons]
    constructor
    · intro h
      obtain ⟨files, hplain, text, rest, hrender, -, hrest⟩ := h
      obtain ⟨hplains, hrenders⟩ := ih.mp ⟨rest, hrest⟩
      exact ⟨⟨hplain, hplains⟩, ⟨text, hrender⟩, hrenders⟩
    · intro h
      obtain ⟨⟨hplain, hplains⟩, ⟨text, hrender⟩, hrenders⟩ := h
      obtain ⟨rest, hrest⟩ := ih.mpr ⟨hplains, hrenders⟩
      exact ⟨_, hplain, text, rest, hrender, rfl, hrest⟩

/-- A note can be rendered where its timestamp is a date. -/
theorem render_iff {o : Observation} : (∃ text, svc.render o = .ok text) ↔
    (o.val.timestamp ≠ 0 → ∃ date, svc.isoformat o.val.timestamp = .ok date) := by
  unfold ObsidianExportService.render ObsidianExportService.created
  by_cases hzero : o.val.timestamp = 0
  · rw [if_pos hzero]
    constructor
    · intro _ hne
      exact absurd hzero hne
    · intro _
      exact ⟨_, rfl⟩
  · rw [if_neg hzero]
    cases hdate : svc.isoformat o.val.timestamp with
    | ok date =>
      constructor
      · intro _ _
        exact ⟨date, rfl⟩
      · intro _
        exact ⟨_, rfl⟩
    | error e =>
      constructor
      · intro h
        obtain ⟨text, h⟩ := h
        cases h
      · intro h
        obtain ⟨date, h⟩ := h hzero
        cases h

theorem mem_spots {spot : Spot} (h : spot ∈ spots svc fs base seen os) :
    ∃ o ∈ os, ∃ seen, spot = spotOf svc fs base seen o := by
  induction os generalizing seen with
  | nil => cases h
  | cons o os ih =>
    rw [spots, List.mem_cons] at h
    cases h with
    | inl h => exact ⟨o, List.mem_cons_self, seen, h⟩
    | inr h =>
      obtain ⟨o', ho', hspot⟩ := ih h
      exact ⟨o', List.mem_cons_of_mem o ho', hspot⟩

/-- The first note with a path lies there. -/
theorem exists_target {o : Observation} (ho : o ∈ os) : svc.buildPath fs o base ∈ seen ∨
    ∃ spot ∈ spots svc fs base seen os, spot.target = svc.buildPath fs o base := by
  induction os generalizing seen with
  | nil => cases ho
  | cons first os ih =>
    by_cases hseen : svc.buildPath fs o base ∈ seen
    · exact .inl hseen
    · right
      by_cases hfirst : svc.buildPath fs o base = svc.buildPath fs first base
      · refine ⟨_, List.mem_cons_self, ?_⟩
        rw [hfirst] at hseen
        rw [spotOf, if_neg hseen, Spot.target, Spot.name, Path.rename_name buildPath_ne_nil, hfirst]
      · have hrest : o ∈ os := by
          cases List.mem_cons.mp ho with
          | inl heq => exact absurd (by rw [heq]) hfirst
          | inr ho => exact ho
        have hpaths : svc.buildPath fs o base ∈ svc.buildPath fs first base :: seen ∨
            ∃ spot ∈ spots svc fs base (svc.buildPath fs first base :: seen) os,
              spot.target = svc.buildPath fs o base := ih hrest
        cases hpaths with
        | inl hmem =>
          rw [List.mem_cons] at hmem
          exact absurd hmem (not_or.mpr ⟨hfirst, hseen⟩)
        | inr hspot =>
          obtain ⟨spot, hmem, htarget⟩ := hspot
          exact ⟨spot, List.mem_cons_of_mem _ hmem, htarget⟩

end Runs

section Exported

variable (svc : ObsidianExportService) (fs : FileSystem) (base : Path) (observations : List Observation) (tree : Tree)

/-- However an export runs, it returns paths that lead to files of their own inside the directory, and each file
holds its note. -/
def Exported : Prop :=
  ∀ out tree', (svc.exportAll fs observations base).Runs fs.serve tree out tree' →
    ∃ paths, out = .ok paths ∧ (paths.map fs.resolve).Nodup ∧ (∀ p ∈ paths, fs.resolve base <+: fs.resolve p) ∧
      List.Forall₂ (fun o p => ∃ text, svc.render o = .ok text ∧ tree' (fs.resolve p) = some (.file text))
        observations paths

/-- The notes have places of their own: the timestamps are dates, short ids that are added to a name have no
slash, a note without a topic does not lead out of the directory, no two notes of one folder have one name, and
neither files nor folders are in the way of each other. -/
structure OwnPlaces : Prop where
  dated : ∀ o ∈ observations, o.val.timestamp ≠ 0 → ∃ date, svc.isoformat o.val.timestamp = .ok date
  plain : ∀ spot ∈ spots svc fs base [] observations, spot.Plain
  inside : ∀ o ∈ observations, given o.val.topicKey = none → fs.resolve base <+: fs.resolve (orphanPath o base)
  apart : ((spots svc fs base [] observations).map fun spot => (fs.resolve spot.path.parent, spot.name)).Nodup
  accepts : fs.accepts base ∧
    ∀ spot ∈ spots svc fs base [] observations, fs.accepts spot.path.parent ∧ fs.accepts (spot.path.rename spot.name)
  clear : ∀ folder ∈ base :: (spots svc fs base [] observations).map (·.path.parent), ∀ q ∈ fs.walk folder,
    ¬ tree.IsFile q ∧ ∀ spot ∈ spots svc fs base [] observations, q ≠ fs.resolve spot.path.parent ++ [spot.name]
  free : ∀ spot ∈ spots svc fs base [] observations,
    tree (fs.resolve spot.path.parent ++ [spot.name]) ≠ some .dir

variable {svc fs base observations tree}

theorem resolve_target {seen : List Path} {spot : Spot} (h : spot ∈ spots svc fs base seen observations) :
    fs.resolve spot.target = fs.resolve spot.path.parent ++ [spot.name] := by
  obtain ⟨o, -, seen', hspot⟩ := mem_spots h
  rw [Spot.target]
  apply fs.resolve_rename
  rw [hspot]
  exact spotOf_name.1

theorem nodup_targets : ((spots svc fs base [] observations).map fun spot => fs.resolve spot.target).Nodup ↔
    ((spots svc fs base [] observations).map fun spot => (fs.resolve spot.path.parent, spot.name)).Nodup := by
  have hmap : (spots svc fs base [] observations).map (fun spot => fs.resolve spot.target) =
      ((spots svc fs base [] observations).map fun spot => (fs.resolve spot.path.parent, spot.name)).map
        fun place => place.1 ++ [place.2] := by
    rw [List.map_map]
    apply List.map_congr_left
    intro spot hspot
    exact resolve_target hspot
  have hinj : Function.Injective fun place : List String × String => place.1 ++ [place.2] := by
    intro x y h
    obtain ⟨hfolder, hname⟩ := List.append_inj' h rfl
    exact Prod.ext hfolder (by simpa using hname)
  rw [hmap, List.nodup_map_iff hinj]

/-- What fits after the directory was made is what is clear and free before. -/
theorem allFit_makeDirs (hpass : fs.Passable tree base) :
    AllFit fs ((spots svc fs base [] observations).map Spot.target) (tree.makeDirs (fs.walk base)) ↔
      (∀ spot ∈ spots svc fs base [] observations, fs.accepts spot.path.parent ∧
        fs.accepts (spot.path.rename spot.name)) ∧
      (∀ folder ∈ base :: (spots svc fs base [] observations).map (·.path.parent), ∀ q ∈ fs.walk folder,
        ¬ tree.IsFile q ∧ ∀ spot ∈ spots svc fs base [] observations,
          q ≠ fs.resolve spot.path.parent ++ [spot.name]) ∧
      ∀ spot ∈ spots svc fs base [] observations, tree (fs.resolve spot.path.parent ++ [spot.name]) ≠ some .dir := by
  have hdir : ∀ q, tree.makeDirs (fs.walk base) q ≠ some .dir ↔ q ∉ fs.walk base ∧ tree q ≠ some .dir := by
    intro q
    rw [ne_eq, makeDirs_eq_dir, not_or]
  constructor
  · intro h
    refine ⟨?_, ?_, ?_⟩
    · intro spot hspot
      have haccepts := h.accepts spot.target (List.mem_map_of_mem hspot)
      rw [target_parent] at haccepts
      exact haccepts
    · intro folder hfolder q hq
      cases List.mem_cons.mp hfolder with
      | inl hbase =>
        rw [hbase] at hq
        refine ⟨hpass.clear q hq, ?_⟩
        intro spot hspot heq
        have hfree := h.free spot.target (List.mem_map_of_mem hspot)
        rw [hdir, resolve_target hspot, ← heq] at hfree
        exact hfree.1 hq
      | inr hfolder =>
        obtain ⟨spot, hspot, hparent⟩ := List.mem_map.mp hfolder
        rw [← hparent, ← target_parent] at hq
        constructor
        · have hclear := h.clear spot.target (List.mem_map_of_mem hspot) q hq
          rwa [isFile_makeDirs hpass.clear] at hclear
        · intro other hother heq
          rw [← resolve_target hother] at heq
          exact h.apart other.target (List.mem_map_of_mem hother) spot.target (List.mem_map_of_mem hspot) (heq ▸ hq)
    · intro spot hspot
      have hfree := h.free spot.target (List.mem_map_of_mem hspot)
      rw [hdir, resolve_target hspot] at hfree
      exact hfree.2
  · intro h
    obtain ⟨haccepts, hclear, hfree⟩ := h
    have hfolders : ∀ spot ∈ spots svc fs base [] observations, ∀ q ∈ fs.walk spot.target.parent,
        ¬ tree.IsFile q ∧ ∀ other ∈ spots svc fs base [] observations,
          q ≠ fs.resolve other.path.parent ++ [other.name] := by
      intro spot hspot q hq
      rw [target_parent] at hq
      exact hclear spot.path.parent (List.mem_cons_of_mem _ (List.mem_map_of_mem hspot)) q hq
    constructor
    · intro p hp
      obtain ⟨spot, hspot, heq⟩ := List.mem_map.mp hp
      rw [← heq, target_parent]
      exact haccepts spot hspot
    · intro p hp q hq
      obtain ⟨spot, hspot, heq⟩ := List.mem_map.mp hp
      rw [isFile_makeDirs hpass.clear]
      exact (hfolders spot hspot q (heq ▸ hq)).1
    · intro p hp
      obtain ⟨spot, hspot, heq⟩ := List.mem_map.mp hp
      rw [← heq, hdir, resolve_target hspot]
      refine ⟨?_, hfree spot hspot⟩
      intro hmem
      exact (hclear base List.mem_cons_self _ hmem).2 spot hspot rfl
    · intro p hp q hq hmem
      obtain ⟨spot, hspot, heq⟩ := List.mem_map.mp hp
      obtain ⟨other, hother, heq'⟩ := List.mem_map.mp hq
      rw [← heq, ← heq', resolve_target hspot] at hmem
      exact (hfolders other hother _ hmem).2 spot hspot rfl

/-- A note in its place is inside the directory, whether it is the first there or not. -/
theorem inside_of_places (h : OwnPlaces svc fs base observations tree) {spot : Spot}
    (hspot : spot ∈ spots svc fs base [] observations) : fs.resolve base <+: fs.resolve spot.target := by
  obtain ⟨o, ho, seen, heq⟩ := mem_spots hspot
  have hbuilt : fs.resolve base <+: fs.resolve (svc.buildPath fs o base) := by
    cases hkey : given o.val.topicKey with
    | none =>
      have horphan : svc.buildPath fs o base = orphanPath o base := by
        unfold ObsidianExportService.buildPath
        rw [hkey]
      rw [horphan]
      exact h.inside o ho hkey
    | some topicKey =>
      obtain ⟨hpath, hinside⟩ := buildPath_topic hkey
      rw [hpath]
      exact hinside
  have hpath : spot.path = svc.buildPath fs o base := by
    rw [heq]
    rfl
  obtain ⟨stem, -, hname⟩ : ∃ stem, _ ∧ (svc.buildPath fs o base).name = stem ++ ".md" := buildPath_name
  have hdots : (svc.buildPath fs o base).name ≠ ".." := by
    rw [hname]
    exact (ne_dots_of_mem (c := 'm') (by simp) (by decide)).1
  have hresolve := fs.resolve_rename (svc.buildPath fs o base) hdots
  rw [Path.rename_name buildPath_ne_nil] at hresolve
  rw [resolve_target hspot, hpath]
  rw [hresolve, List.prefix_concat_iff] at hbuilt
  cases hbuilt with
  | inr hfolder => exact hfolder.trans (List.prefix_append _ _)
  | inl hsame =>
    -- The directory itself would be the file of the first note with the path.
    obtain hnone | ⟨first, hfirst, htarget⟩ : svc.buildPath fs o base ∈ [] ∨
        ∃ spot ∈ spots svc fs base [] observations, spot.target = svc.buildPath fs o base := exists_target ho
    · cases hnone
    · rw [← hresolve, ← htarget, resolve_target hfirst] at hsame
      exact absurd hsame ((h.clear base List.mem_cons_self _ (fs.resolve_mem_walk base)).2 first hfirst)

/-- Where each note has a file of its own it has a place of its own. -/
theorem ownPlaces_of_exported (h : Exported svc fs base observations tree) :
    OwnPlaces svc fs base observations tree := by
  obtain ⟨out, tree', hrun⟩ := Program.exists_runs fs.serve_total (svc.exportAll fs observations base) tree
  obtain ⟨paths, rfl, hnodup, hinside, -⟩ := h out tree' hrun
  obtain ⟨hpass, hexport⟩ := FileSystem.runs_mkdir_bind_ok hrun
  obtain ⟨files, hwritten, hpaths, hlaid⟩ := exportEach_ok hexport
  obtain ⟨hplain, hrenders⟩ := exists_written.mp ⟨files, hwritten⟩
  have htargets : paths = (spots svc fs base [] observations).map Spot.target := hpaths.trans hwritten.targets
  have hfits := exists_laid.mp ⟨tree', hlaid⟩
  rw [← hpaths, htargets] at hfits
  obtain ⟨haccepts, hclear, hfree⟩ := (allFit_makeDirs hpass).mp hfits
  refine ⟨?_, hplain, ?_, ?_, ⟨hpass.accepts, haccepts⟩, hclear, hfree⟩
  · intro o ho
    exact render_iff.mp (hrenders o ho)
  · intro o ho hkey
    have horphan : svc.buildPath fs o base = orphanPath o base := by
      unfold ObsidianExportService.buildPath
      rw [hkey]
    obtain hnone | ⟨spot, hspot, htarget⟩ : svc.buildPath fs o base ∈ [] ∨
        ∃ spot ∈ spots svc fs base [] observations, spot.target = svc.buildPath fs o base := exists_target ho
    · cases hnone
    · rw [← horphan, ← htarget]
      apply hinside
      rw [htargets]
      exact List.mem_map_of_mem hspot
  · rw [← nodup_targets]
    rw [htargets, List.map_map] at hnodup
    exact hnodup

theorem exported_of_ownPlaces (h : OwnPlaces svc fs base observations tree) :
    Exported svc fs base observations tree := by
  intro out tree' hrun
  have hpass : fs.Passable tree base := ⟨h.accepts.1, fun q hq => (h.clear base List.mem_cons_self q hq).1⟩
  obtain ⟨files, hwritten⟩ := exists_written.mpr ⟨h.plain, fun o ho => render_iff.mpr (h.dated o ho)⟩
  have hfits := (allFit_makeDirs hpass).mpr ⟨h.accepts.2, h.clear, h.free⟩
  rw [← hwritten.targets] at hfits
  obtain ⟨hout, hlaid⟩ := exportEach_of_allFit hwritten hfits (FileSystem.runs_mkdir_bind hpass hrun)
  have hnodup : (files.map fun file => fs.resolve file.1).Nodup := by
    have hmap := congrArg (List.map fs.resolve) hwritten.targets
    rw [List.map_map, List.map_map] at hmap
    have htargets := nodup_targets.mpr h.apart
    exact hmap ▸ htargets
  refine ⟨_, hout, ?_, ?_, ?_⟩
  · rw [List.map_map]
    exact hnodup
  · intro p hp
    rw [hwritten.targets] at hp
    obtain ⟨spot, hspot, heq⟩ := List.mem_map.mp hp
    rw [← heq]
    exact inside_of_places h hspot
  · rw [List.forall₂_map_right_iff]
    have hholds : ∀ file ∈ files, tree' (fs.resolve file.1) = some (.file file.2) := by
      intro file hfile
      exact hlaid.holds hnodup hfile
    have hboth := (List.forall₂_and_left _ _).mpr ⟨hholds, hwritten.renders.flip⟩
    apply hboth.flip.imp
    intro o file hfile
    exact ⟨file.2, hfile.2, hfile.1⟩

/-- Each note has a file of its own exactly where it has a place of its own. -/
theorem exported_iff (svc : ObsidianExportService) (fs : FileSystem) (base : Path)
    (observations : List Observation) (tree : Tree) :
    Exported svc fs base observations tree ↔ OwnPlaces svc fs base observations tree := by
  constructor
  · intro h
    exact ownPlaces_of_exported h
  · intro h
    exact exported_of_ownPlaces h

section Example

/-- Three notes with one topic; the ids of the last two start alike. -/
def planNotes : List Observation :=
  [⟨{ id := "11111111-a", timestamp := 0, content := "first", topicKey := some "plans" }, rfl⟩,
    ⟨{ id := "22222222-a", timestamp := 0, content := "second", topicKey := some "plans" }, rfl⟩,
    ⟨{ id := "22222222-b", timestamp := 0, content := "third", topicKey := some "plans" }, rfl⟩]

def noYaml : Yaml where
  dump _ := ""
  safeLoad _ := .ok .null
  isYamlError _ := false

theorem planNotes_collide : (planNotes.map (·.val.id)).Nodup ∧
    ¬ Exported ⟨noYaml, fun _ => .ok "", Char.isAlphanum⟩ ⟨[], fun _ => True⟩ ⟨"/", ["vault"]⟩ planNotes
      (fun _ => none) := by
  constructor
  · decide
  · intro h
    have hapart := (ownPlaces_of_exported h).apart
    revert hapart
    decide +kernel

end Example

end Exported

end ForkAgent.Obsidian

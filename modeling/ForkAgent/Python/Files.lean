import ForkAgent.Effects.Execution
import ForkAgent.Python.Basic
import ForkAgent.Python.Paths
import Mathlib.Data.List.Infix

/-!
# Paths and the tree of files

A path is followed name by name from the root of the tree or from the working directory. Nothing in the tree
is a link, so that a path leads where its names say.
-/

namespace ForkAgent

open Effects

/-- `PurePosixPath`, whose root is empty where it is relative. -/
structure Path where
  root : String
  parts : List String
  deriving DecidableEq

namespace Path

/-- The parts of a text, without the empty ones and the single dots. -/
def partsOf (text : String) : List String :=
  ((text.toList.splitOn '/').map String.ofList).filter fun part => part ≠ "" ∧ part ≠ "."

/-- Exactly two slashes are a root of their own. -/
def rootOf (text : String) : String :=
  match text.toList with
  | '/' :: '/' :: '/' :: _ => "/"
  | '/' :: '/' :: _ => "//"
  | '/' :: _ => "/"
  | _ => ""

/-- `path / text`: an absolute text replaces the path. -/
def join (p : Path) (text : String) : Path :=
  if rootOf text = "" then { p with parts := p.parts ++ partsOf text } else ⟨rootOf text, partsOf text⟩

def name (p : Path) : String := p.parts.getLast?.getD ""

def parent (p : Path) : Path := { p with parts := p.parts.dropLast }

/-- The path with another name, where it has one. -/
def rename (p : Path) (name : String) : Path := { p with parts := p.parts.dropLast ++ [name] }

def withName (p : Path) (name : String) : Except Exn Path :=
  if p.name = "" then .error (.valueError ("PosixPath('" ++ p.root ++ "') has an empty name"))
  else if name = "" ∨ '/' ∈ name.toList ∨ name = "." then .error (.valueError ("Invalid name '" ++ name ++ "'"))
  else .ok (p.rename name)

def withStem (p : Path) (stem : String) : Except Exn Path := p.withName (stem ++ nameSuffix p.name)

@[simp] theorem parent_rename (p : Path) (name : String) : (p.rename name).parent = p.parent := by
  simp [rename, parent]

@[simp] theorem name_rename (p : Path) (name : String) : (p.rename name).name = name := by
  simp [rename, Path.name]

theorem rename_name {p : Path} (h : p.parts ≠ []) : p.rename p.name = p := by
  rw [rename, Path.name, List.getLast?_eq_some_getLast h, Option.getD_some, List.dropLast_concat_getLast h]

theorem join_of_plain (p : Path) {text : String} (hslash : '/' ∉ text.toList) (hne : text ≠ "") (hdot : text ≠ ".") :
    p.join text = { p with parts := p.parts ++ [text] } := by
  have hroot : rootOf text = "" := by
    unfold rootOf
    cases htext : text.toList with
    | nil => rfl
    | cons c cs =>
      have hc : c ≠ '/' := by
        intro heq
        apply hslash
        rw [htext, heq]
        exact List.mem_cons_self
      simp [hc]
  have hparts : partsOf text = [text] := by
    rw [partsOf, List.splitOn_eq_singleton hslash, List.map_singleton, String.ofList_toList]
    simp [hne, hdot]
  rw [join, if_pos hroot, hparts]

theorem not_mem_of_mem_splitOn {c : Char} {cs segment : List Char} (h : segment ∈ cs.splitOn c) : c ∉ segment := by
  induction cs generalizing segment with
  | nil => simp_all
  | cons d cs ih =>
    rw [List.splitOn_cons_eq_if_modifyHead] at h
    by_cases hd : (d == c) = true
    · rw [if_pos hd, List.mem_cons] at h
      cases h with
      | inl h => simp [h]
      | inr h => exact ih h
    · rw [if_neg hd] at h
      obtain ⟨first, segments, hsplit⟩ := List.exists_cons_of_ne_nil (List.splitOn_ne_nil c cs)
      rw [hsplit, List.modifyHead_cons, List.mem_cons] at h
      rw [hsplit] at ih
      cases h with
      | inl h =>
        rw [h, List.mem_cons, not_or]
        refine ⟨?_, ih List.mem_cons_self⟩
        intro heq
        exact hd (by simp [heq])
      | inr h => exact ih (List.mem_cons_of_mem first h)

theorem not_mem_of_mem_partsOf {text part : String} (h : part ∈ partsOf text) : '/' ∉ part.toList := by
  obtain ⟨segment, hsegment, heq⟩ := List.mem_map.mp (List.mem_of_mem_filter h)
  rw [← heq, String.toList_ofList]
  exact not_mem_of_mem_splitOn hsegment

/-- The last part of a text with a suffix. -/
theorem partsOf_append (text : String) {suffix : String} (hslash : '/' ∉ suffix.toList) (hne : suffix ≠ "")
    (hlast : suffix.toList.getLast? ≠ some '.') :
    ∃ folders stem, partsOf (text ++ suffix) = folders ++ [stem ++ suffix] := by
  have hsplit : ∃ segments stem, (text ++ suffix).toList.splitOn '/' = segments ++ [stem ++ suffix.toList] := by
    rw [String.toList_append]
    induction text.toList with
    | nil =>
      refine ⟨[], [], ?_⟩
      rw [List.nil_append, List.splitOn_eq_singleton hslash]
      rfl
    | cons c cs ih =>
      obtain ⟨segments, stem, h⟩ := ih
      by_cases hc : c = '/'
      · refine ⟨[] :: segments, stem, ?_⟩
        simp [List.splitOn_cons_eq_if_modifyHead, hc, h]
      · cases segments with
        | nil =>
          refine ⟨[], c :: stem, ?_⟩
          simp [List.splitOn_cons_eq_if_modifyHead, hc, h]
        | cons segment segments =>
          refine ⟨(c :: segment) :: segments, stem, ?_⟩
          simp [List.splitOn_cons_eq_if_modifyHead, hc, h]
  obtain ⟨segments, stem, h⟩ := hsplit
  have hlist : suffix.toList ≠ [] := by simpa using hne
  have hkept : stem ++ suffix.toList ≠ [] ∧ stem ++ suffix.toList ≠ ['.'] := by
    constructor
    · simp [hne]
    · intro hdot
      apply hlast
      rw [← List.getLast?_append_of_ne_nil stem hlist, hdot]
      rfl
  have htext : String.ofList (stem ++ suffix.toList) = String.ofList stem ++ suffix := by
    simp
  refine ⟨(segments.map String.ofList).filter fun part => part ≠ "" ∧ part ≠ ".", String.ofList stem, ?_⟩
  rw [partsOf, h, List.map_append, List.filter_append, ← htext]
  congr 1
  have hnotEmpty : String.ofList (stem ++ suffix.toList) ≠ "" := by
    intro hempty
    exact hkept.1 (by simpa using congrArg String.toList hempty)
  have hnotDot : String.ofList (stem ++ suffix.toList) ≠ "." := by
    intro hdot
    have hchars := congrArg String.toList hdot
    rw [String.toList_ofList] at hchars
    exact hkept.2 hchars
  have hpart : decide (String.ofList (stem ++ suffix.toList) ≠ "" ∧
      String.ofList (stem ++ suffix.toList) ≠ ".") = true := decide_eq_true ⟨hnotEmpty, hnotDot⟩
  rw [List.map_singleton, List.filter_singleton, hpart]
  rfl

end Path

section Tree

inductive Node where
  | dir
  | file (text : String)
  deriving DecidableEq

/-- What lies under the names that lead from the root. -/
abbrev Tree := List String → Option Node

namespace Tree

def IsFile (tree : Tree) (at' : List String) : Prop := ∃ text, tree at' = some (.file text)

def makeDirs (tree : Tree) (dirs : List (List String)) : Tree := fun q => if q ∈ dirs then some .dir else tree q

def write (tree : Tree) (file : List String) (text : String) : Tree := Function.update tree file (some (.file text))

end Tree

/-- The working directory, and the paths that are short enough and hold no null character. -/
structure FileSystem where
  cwd : List String
  accepts : Path → Prop

namespace FileSystem

variable (fs : FileSystem)

/-- One name further; the root is its own parent. -/
def enter (at' : List String) (name : String) : List String :=
  if name = ".." then at'.dropLast else at' ++ [name]

/-- `path.resolve()`. -/
def resolve (p : Path) : List String := p.parts.foldl enter (if p.root = "" then fs.cwd else [])

/-- The directories that are passed on the way, and the end of it. -/
def walk (p : Path) : List (List String) := p.parts.inits.map fun parts => fs.resolve { p with parts }

theorem resolve_mem_walk (p : Path) : fs.resolve p ∈ fs.walk p := by
  apply List.mem_map.mpr
  exact ⟨p.parts, List.mem_inits _ _ |>.mpr List.prefix_rfl, rfl⟩

theorem resolve_rename (p : Path) {name : String} (h : name ≠ "..") :
    fs.resolve (p.rename name) = fs.resolve p.parent ++ [name] := by
  rw [resolve, Path.rename, List.foldl_append, List.foldl_cons, List.foldl_nil, enter, if_neg h]
  rfl

end FileSystem

/-- `mkdir(parents=True, exist_ok=True)` and `write_text`. -/
inductive FileCall where
  | mkdir (p : Path)
  | writeText (p : Path) (text : String)

def FileCall.Value : FileCall → Type
  | .mkdir _ => Unit
  | .writeText .. => Unit

def fileSignature : Signature := ⟨FileCall, FileCall.Value⟩

abbrev FileProgram := Program fileSignature Exn

def mkdir (p : Path) : FileProgram Unit := .perform (σ := fileSignature) (.mkdir p)

def writeText (p : Path) (text : String) : FileProgram Unit := .perform (σ := fileSignature) (.writeText p text)

namespace FileSystem

variable (fs : FileSystem)

/-- No file lies on the way. -/
structure Passable (tree : Tree) (p : Path) : Prop where
  accepts : fs.accepts p
  clear : ∀ q ∈ fs.walk p, ¬ tree.IsFile q

/-- The directory exists, and no directory lies where the file goes. -/
structure Writable (tree : Tree) (p : Path) : Prop where
  accepts : fs.accepts p
  dirs : ∀ q ∈ fs.walk p.parent, tree q = some .dir
  free : tree (fs.resolve p) ≠ some .dir

/-- Where directories cannot be made, some of them may have been made before. -/
def serve : Semantics fileSignature Exn Tree
  | ⟨.mkdir p, r⟩, tree, tree' =>
    (fs.Passable tree p ∧ r = .ok () ∧ tree' = tree.makeDirs (fs.walk p)) ∨
      (¬ fs.Passable tree p ∧ (∃ m, r = .error (.osError m)) ∧
        ∃ made ⊆ fs.walk p, (∀ q ∈ made, ¬ tree.IsFile q) ∧ tree' = tree.makeDirs made)
  | ⟨.writeText p text, r⟩, tree, tree' =>
    (fs.Writable tree p ∧ r = .ok () ∧ tree' = tree.write (fs.resolve p) text) ∨
      (¬ fs.Writable tree p ∧ (∃ m, r = .error (.osError m)) ∧ tree' = tree)

theorem serve_total (c : FileCall) (tree : Tree) : ∃ r tree', fs.serve ⟨c, r⟩ tree tree' := by
  cases c with
  | mkdir p =>
    by_cases h : fs.Passable tree p
    · exact ⟨_, _, .inl ⟨h, rfl, rfl⟩⟩
    · exact ⟨_, _, .inr ⟨h, ⟨"", rfl⟩, [], by simp, by simp, rfl⟩⟩
  | writeText p text =>
    by_cases h : fs.Writable tree p
    · exact ⟨_, _, .inl ⟨h, rfl, rfl⟩⟩
    · exact ⟨_, _, .inr ⟨h, ⟨"", rfl⟩, rfl⟩⟩

variable {fs : FileSystem} {tree tree' : Tree} {p : Path} {text : String}

variable {α : Type} {f : Unit → FileProgram α}

theorem runs_mkdir_bind {out : Except Exn α} (h : fs.Passable tree p)
    (hrun : (mkdir p >>= f).Runs fs.serve tree out tree') :
    (f ()).Runs fs.serve (tree.makeDirs (fs.walk p)) out tree' := by
  obtain ⟨r, tree₁, ⟨-, rfl, rfl⟩ | ⟨hnot, -⟩, hrest⟩ := hrun
  · exact hrest
  · exact absurd h hnot

theorem runs_writeText_bind {out : Except Exn α} (h : fs.Writable tree p)
    (hrun : (writeText p text >>= f).Runs fs.serve tree out tree') :
    (f ()).Runs fs.serve (tree.write (fs.resolve p) text) out tree' := by
  obtain ⟨r, tree₁, ⟨-, rfl, rfl⟩ | ⟨hnot, -⟩, hrest⟩ := hrun
  · exact hrest
  · exact absurd h hnot

theorem runs_mkdir_bind_ok {a : α} (hrun : (mkdir p >>= f).Runs fs.serve tree (.ok a) tree') :
    fs.Passable tree p ∧ (f ()).Runs fs.serve (tree.makeDirs (fs.walk p)) (.ok a) tree' := by
  obtain ⟨r, tree₁, ⟨h, rfl, rfl⟩ | ⟨-, ⟨m, rfl⟩, -⟩, hrest⟩ := hrun
  · exact ⟨h, hrest⟩
  · cases hrest.1

theorem runs_writeText_bind_ok {a : α} (hrun : (writeText p text >>= f).Runs fs.serve tree (.ok a) tree') :
    fs.Writable tree p ∧ (f ()).Runs fs.serve (tree.write (fs.resolve p) text) (.ok a) tree' := by
  obtain ⟨r, tree₁, ⟨h, rfl, rfl⟩ | ⟨-, ⟨m, rfl⟩, -⟩, hrest⟩ := hrun
  · exact ⟨h, hrest⟩
  · cases hrest.1

end FileSystem

end Tree

section Laid

variable (fs : FileSystem)

/-- Files that are written one after another, each into its directory. -/
def Laid : List (Path × String) → Tree → Tree → Prop
  | [], tree, tree' => tree' = tree
  | (p, text) :: files, tree, tree' =>
    fs.Passable tree p.parent ∧ fs.Writable (tree.makeDirs (fs.walk p.parent)) p ∧
      Laid files ((tree.makeDirs (fs.walk p.parent)).write (fs.resolve p) text) tree'

/-- What it takes that all files can be written. -/
structure AllFit (paths : List Path) (tree : Tree) : Prop where
  accepts : ∀ p ∈ paths, fs.accepts p.parent ∧ fs.accepts p
  clear : ∀ p ∈ paths, ∀ q ∈ fs.walk p.parent, ¬ tree.IsFile q
  free : ∀ p ∈ paths, tree (fs.resolve p) ≠ some .dir
  apart : ∀ p ∈ paths, ∀ q ∈ paths, fs.resolve p ∉ fs.walk q.parent

variable {fs} {tree tree' : Tree} {p : Path} {text : String} {paths : List Path} {files : List (Path × String)}

theorem isFile_makeDirs {dirs : List (List String)} {q : List String} (h : ∀ d ∈ dirs, ¬ tree.IsFile d) :
    (tree.makeDirs dirs).IsFile q ↔ tree.IsFile q := by
  unfold Tree.IsFile Tree.makeDirs
  by_cases hq : q ∈ dirs
  · rw [if_pos hq]
    constructor
    · intro hfile
      obtain ⟨text, hfile⟩ := hfile
      cases hfile
    · intro hfile
      exact absurd hfile (h q hq)
  · rw [if_neg hq]

theorem makeDirs_eq_dir {dirs : List (List String)} {q : List String} :
    tree.makeDirs dirs q = some .dir ↔ q ∈ dirs ∨ tree q = some .dir := by
  unfold Tree.makeDirs
  by_cases hq : q ∈ dirs
  · simp [hq]
  · simp [hq]

theorem isFile_write {f q : List String} : (tree.write f text).IsFile q ↔ q = f ∨ tree.IsFile q := by
  unfold Tree.IsFile Tree.write
  by_cases hq : q = f
  · simp [hq]
  · simp [hq]

theorem write_eq_dir {f q : List String} :
    tree.write f text q = some .dir ↔ q ≠ f ∧ tree q = some .dir := by
  unfold Tree.write
  by_cases hq : q = f
  · simp [hq]
  · simp [hq]

theorem writable_makeDirs : fs.Writable (tree.makeDirs (fs.walk p.parent)) p ↔
    fs.accepts p ∧ fs.resolve p ∉ fs.walk p.parent ∧ tree (fs.resolve p) ≠ some .dir := by
  constructor
  · intro h
    have hfree := h.free
    rw [ne_eq, makeDirs_eq_dir, not_or] at hfree
    exact ⟨h.accepts, hfree⟩
  · intro h
    refine ⟨h.1, ?_, ?_⟩
    · intro q hq
      exact makeDirs_eq_dir.mpr (.inl hq)
    · rw [ne_eq, makeDirs_eq_dir, not_or]
      exact h.2

/-- The first file can be written, and the others fit into what it leaves. -/
theorem allFit_cons (text : String) : AllFit fs (p :: paths) tree ↔ fs.Passable tree p.parent ∧
    fs.Writable (tree.makeDirs (fs.walk p.parent)) p ∧
      AllFit fs paths ((tree.makeDirs (fs.walk p.parent)).write (fs.resolve p) text) := by
  rw [writable_makeDirs]
  constructor
  · intro h
    have hself : p ∈ p :: paths := List.mem_cons_self
    have hclear := h.clear p hself
    refine ⟨⟨(h.accepts p hself).1, hclear⟩, ⟨(h.accepts p hself).2, h.apart p hself p hself, h.free p hself⟩, ?_⟩
    constructor
    · intro q hq
      exact h.accepts q (List.mem_cons_of_mem p hq)
    · intro q hq d hd
      rw [isFile_write, isFile_makeDirs hclear, not_or]
      constructor
      · intro heq
        exact h.apart p hself q (List.mem_cons_of_mem p hq) (heq ▸ hd)
      · exact h.clear q (List.mem_cons_of_mem p hq) d hd
    · intro q hq hdir
      rw [write_eq_dir, makeDirs_eq_dir] at hdir
      obtain ⟨-, hwalk | hdir⟩ := hdir
      · exact h.apart q (List.mem_cons_of_mem p hq) p hself hwalk
      · exact h.free q (List.mem_cons_of_mem p hq) hdir
    · intro q hq r hr
      exact h.apart q (List.mem_cons_of_mem p hq) r (List.mem_cons_of_mem p hr)
  · intro h
    obtain ⟨hpass, ⟨haccepts, hwalk, hfree⟩, hfits⟩ := h
    have hclear : ∀ q ∈ paths, ∀ d ∈ fs.walk q.parent, d ≠ fs.resolve p ∧ ¬ tree.IsFile d := by
      intro q hq d hd
      have hfile := hfits.clear q hq d hd
      rw [isFile_write, isFile_makeDirs hpass.clear, not_or] at hfile
      exact hfile
    have hdirs : ∀ q ∈ paths, fs.resolve q ∉ fs.walk p.parent ∧ tree (fs.resolve q) ≠ some .dir := by
      intro q hq
      by_cases hsame : fs.resolve q = fs.resolve p
      · rw [hsame]
        exact ⟨hwalk, hfree⟩
      · have hdir := hfits.free q hq
        rw [ne_eq, write_eq_dir, makeDirs_eq_dir, not_and, not_or] at hdir
        exact hdir hsame
    constructor
    · intro q hq
      cases List.mem_cons.mp hq with
      | inl heq => exact heq ▸ ⟨hpass.accepts, haccepts⟩
      | inr hq => exact hfits.accepts q hq
    · intro q hq d hd
      cases List.mem_cons.mp hq with
      | inl heq => exact hpass.clear d (heq ▸ hd)
      | inr hq => exact (hclear q hq d hd).2
    · intro q hq
      cases List.mem_cons.mp hq with
      | inl heq => exact heq ▸ hfree
      | inr hq => exact (hdirs q hq).2
    · intro q hq r hr
      cases List.mem_cons.mp hq with
      | inl heq =>
        cases List.mem_cons.mp hr with
        | inl heq' => exact heq ▸ heq' ▸ hwalk
        | inr hr =>
          intro hmem
          exact (hclear r hr _ hmem).1 (by rw [heq])
      | inr hq =>
        cases List.mem_cons.mp hr with
        | inl heq => exact heq ▸ (hdirs q hq).1
        | inr hr => exact hfits.apart q hq r hr

theorem exists_laid : (∃ tree', Laid fs files tree tree') ↔ AllFit fs (files.map (·.1)) tree := by
  induction files generalizing tree with
  | nil =>
    constructor
    · intro h
      constructor <;> simp
    · intro h
      exact ⟨tree, rfl⟩
  | cons file files ih =>
    rw [List.map_cons, allFit_cons file.2]
    simp only [Laid, exists_and_left, ih]

theorem Laid.other (h : Laid fs files tree tree') {q : List String}
    (hfile : ∀ file ∈ files, q ≠ fs.resolve file.1) (hdirs : ∀ file ∈ files, q ∉ fs.walk file.1.parent) :
    tree' q = tree q := by
  induction files generalizing tree with
  | nil => exact congrFun h q
  | cons file files ih =>
    obtain ⟨-, -, hrest⟩ := h
    rw [List.forall_mem_cons] at hfile hdirs
    rw [ih hrest hfile.2 hdirs.2, Tree.write, Function.update_of_ne hfile.1, Tree.makeDirs, if_neg hdirs.1]

theorem Laid.holds (h : Laid fs files tree tree') (hnodup : (files.map fun file => fs.resolve file.1).Nodup)
    {file : Path × String} (hmem : file ∈ files) : tree' (fs.resolve file.1) = some (.file file.2) := by
  have hfits : AllFit fs (files.map (·.1)) tree := exists_laid.mp ⟨tree', h⟩
  induction files generalizing tree with
  | nil => cases hmem
  | cons first files ih =>
    rw [List.map_cons, List.nodup_cons] at hnodup
    have hrest := h.2.2
    cases List.mem_cons.mp hmem with
    | inl heq =>
      rw [heq, hrest.other, Tree.write, Function.update_self]
      · intro other hother hsame
        exact hnodup.1 (hsame ▸ List.mem_map_of_mem hother)
      · intro other hother
        exact hfits.apart first.1 (by simp) other.1 (by simp [List.mem_map_of_mem hother])
    | inr hmem => exact ih hrest hnodup.2 hmem (exists_laid.mp ⟨tree', hrest⟩)

end Laid

end ForkAgent

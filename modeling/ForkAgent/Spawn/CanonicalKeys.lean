import ForkAgent.Spawn.Surfaces

/-!
# Canonical keys

A key is the name of its surface and what is left of an id when it is cleaned: stripped, its runs of white
space replaced by hyphens, and cut. Cleaning replaces no other character, and it forgets what it replaces
and cuts off.
-/

namespace ForkAgent.Spawn

open Polling Launch AgentLaunchFields

/-- `build_api_key`. The name of a task is hashed. -/
def buildApiKey (sha256Hex : String → String) (agentType : String) (task : Option String) : String :=
  let sanitizedType := sanitize agentType 64
  let normalizedTask := sanitize (task.getD "") 4096
  let taskHash := if normalizedTask = "" then "untitled" else upTo 12 (sha256Hex normalizedTask)
  "api:" ++ sanitizedType ++ ":" ++ taskHash

section Keys

/-- A digest is written with hexadecimal digits. -/
def HexDigest (sha256Hex : String → String) : Prop :=
  ∀ text, ∀ c ∈ (sha256Hex text).toList, c ∈ "0123456789abcdef".toList

/-- Cleaning leaves only characters that a key may have. -/
def Clean (maxLength : Nat) (value : String) : Prop :=
  (sanitize value maxLength).toList.all canonicalKeyChar = true

instance (maxLength : Nat) (value : String) : Decidable (Clean maxLength value) :=
  inferInstanceAs (Decidable (_ = _))

/-- The keys of two surfaces are never the same. -/
structure SurfacesApart (sha256Hex : String → String) : Prop where
  taskWorkflow : ∀ id id', buildTaskKey id ≠ buildWorkflowKey id'
  taskManager : ∀ id name, buildTaskKey id ≠ buildManagerKey name
  taskApi : ∀ id type task, buildTaskKey id ≠ buildApiKey sha256Hex type task
  workflowManager : ∀ id name, buildWorkflowKey id ≠ buildManagerKey name
  workflowApi : ∀ id type task, buildWorkflowKey id ≠ buildApiKey sha256Hex type task
  managerApi : ∀ name type task, buildManagerKey name ≠ buildApiKey sha256Hex type task

variable {sha256Hex : String → String} {value : String} {n : Nat}

theorem length_sanitize : (sanitize value n).toList.length ≤ n := by
  simp [sanitize, List.length_take]

theorem matches_of_chars {key : String} (hchars : ∀ c ∈ key.toList, canonicalKeyChar c = true)
    (hne : key.toList ≠ []) (hlength : key.toList.length ≤ 256) : matchesCanonicalKey key = true := by
  have hlast : key.toList.getLast? ≠ some '\n' := by
    intro h
    have hallowed := hchars '\n' (List.mem_of_getLast? h)
    revert hallowed
    decide
  have hpos := List.length_pos_of_ne_nil hne
  unfold matchesCanonicalKey
  rw [if_neg hlast]
  simp only [Bool.and_eq_true, decide_eq_true_eq, List.all_eq_true]
  exact ⟨⟨hchars, hpos⟩, hlength⟩

theorem matches_surface {surface : String} (hsurface : surface.toList.all canonicalKeyChar = true)
    (hlength : surface.toList.length ≤ 128) (hne : surface.toList ≠ []) (hclean : Clean 128 value) :
    matchesCanonicalKey (surface ++ sanitize value 128) = true := by
  have hcut : (sanitize value 128).toList.length ≤ 128 := length_sanitize
  apply matches_of_chars
  · intro c hc
    rw [String.toList_append] at hc
    cases List.mem_append.mp hc with
    | inl hc => exact List.all_eq_true.mp hsurface c hc
    | inr hc => exact List.all_eq_true.mp hclean c hc
  · simp [String.toList_append, hne]
  · rw [String.toList_append, List.length_append]
    omega

theorem matches_api (hhex : HexDigest sha256Hex) {agentType : String} (hclean : Clean 64 agentType)
    (task : Option String) : matchesCanonicalKey (buildApiKey sha256Hex agentType task) = true := by
  have hdigits : "0123456789abcdef".toList.all canonicalKeyChar = true := by decide
  have huntitled : "untitled".toList.all canonicalKeyChar = true := by decide
  have hhash : ∀ text, (upTo 12 (sha256Hex text)).toList.length ≤ 12 ∧
      ∀ c ∈ (upTo 12 (sha256Hex text)).toList, canonicalKeyChar c = true := by
    intro text
    simp only [upTo, String.toList_ofList, List.length_take]
    constructor
    · omega
    · intro c hc
      exact List.all_eq_true.mp hdigits c (hhex text c (List.mem_of_mem_take hc))
  have hcut : (sanitize agentType 64).toList.length ≤ 64 := length_sanitize
  unfold buildApiKey
  simp only
  apply matches_of_chars
  · intro c hc
    simp only [String.toList_append, List.mem_append] at hc
    obtain ((hc | hc) | hc) | hc := hc
    · have hapi : "api:".toList.all canonicalKeyChar = true := by decide
      exact List.all_eq_true.mp hapi c hc
    · exact List.all_eq_true.mp hclean c hc
    · have hcolon : ":".toList.all canonicalKeyChar = true := by decide
      exact List.all_eq_true.mp hcolon c hc
    · split at hc
      · exact List.all_eq_true.mp huntitled c hc
      · exact (hhash _).2 c hc
  · simp [String.toList_append]
  · simp only [String.toList_append, List.length_append]
    have hapi : "api:".toList.length = 4 := by decide
    have hcolon : ":".toList.length = 1 := by decide
    split
    · have hlength : "untitled".toList.length = 8 := by decide
      omega
    · have hlength := (hhash (sanitize (task.getD "") 4096)).1
      omega

theorem ne_of_head {a b : String} (h : a.toList.head? ≠ b.toList.head?) : a ≠ b := by
  intro hab
  exact h (by rw [hab])

theorem surfaces_apart (sha256Hex : String → String) : SurfacesApart sha256Hex where
  taskWorkflow id id' := ne_of_head (by simp [buildTaskKey, buildWorkflowKey])
  taskManager id name := ne_of_head (by simp [buildTaskKey, buildManagerKey])
  taskApi id type task := ne_of_head (by simp [buildTaskKey, buildApiKey])
  workflowManager id name := ne_of_head (by simp [buildWorkflowKey, buildManagerKey])
  workflowApi id type task := ne_of_head (by simp [buildWorkflowKey, buildApiKey])
  managerApi name type task := ne_of_head (by simp [buildManagerKey, buildApiKey])

theorem surface_inj (surface : String) {a b : String} : surface ++ a = surface ++ b ↔ a = b := by
  constructor
  · intro h
    have hlist := congrArg String.toList h
    rw [String.toList_append, String.toList_append, List.append_right_inj] at hlist
    exact String.toList_injective hlist
  · intro h
    rw [h]

theorem collapseSpaces_of_plain {cs : List Char} (h : ∀ c ∈ cs, isSpace c = false) :
    collapseSpaces false cs = cs := by
  induction cs with
  | nil => rfl
  | cons c cs ih =>
    have hc := h c (by simp)
    rw [collapseSpaces, if_neg (by simp [hc]), ih fun d hd => h d (List.mem_cons_of_mem _ hd)]

theorem sanitize_of_plain (hplain : ∀ c ∈ (strip value).toList, isSpace c = false)
    (hlength : (strip value).toList.length ≤ n) : sanitize value n = strip value := by
  rw [sanitize, collapseSpaces_of_plain hplain, List.take_of_length_le hlength, String.ofList_toList]

/-- Where cleaning leaves allowed characters the keys are valid; the keys of two surfaces are never the same;
and on one surface two ids have the same key exactly when they are cleaned to the same text, which is the stripped
id unless there is white space in it or it is too long. -/
theorem canonical_keys (hhex : HexDigest sha256Hex) :
    (∀ id, Clean 128 id → matchesCanonicalKey (buildTaskKey id) = true ∧
      matchesCanonicalKey (buildWorkflowKey id) = true ∧ matchesCanonicalKey (buildManagerKey id) = true) ∧
    (∀ type task, Clean 64 type → matchesCanonicalKey (buildApiKey sha256Hex type task) = true) ∧
    SurfacesApart sha256Hex ∧
    (∀ id id', (buildTaskKey id = buildTaskKey id' ↔ sanitize id 128 = sanitize id' 128) ∧
      (buildWorkflowKey id = buildWorkflowKey id' ↔ sanitize id 128 = sanitize id' 128) ∧
      (buildManagerKey id = buildManagerKey id' ↔ sanitize id 128 = sanitize id' 128)) ∧
    ∀ id, (∀ c ∈ (strip id).toList, isSpace c = false) → (strip id).toList.length ≤ 128 →
      sanitize id 128 = strip id := by
  refine ⟨?_, fun type task hclean => matches_api hhex hclean task, surfaces_apart sha256Hex, ?_,
    fun id hplain hlength => sanitize_of_plain hplain hlength⟩
  · intro id hclean
    exact ⟨matches_surface (by decide) (by decide) (by decide) hclean,
      matches_surface (by decide) (by decide) (by decide) hclean,
      matches_surface (by decide) (by decide) (by decide) hclean⟩
  · intro id id'
    exact ⟨surface_inj "task:", surface_inj "workflow:", surface_inj "manager:"⟩

/-- The digest of the one task that is hashed below. -/
def digest (_ : String) : String := "0a76cd9b6c5c0754f94af169ce41a6d55ee585a418270af26cbdd0195216a50a"

theorem canonical_keys_opencode :
    buildApiKey digest "opencode" (some " test task") = "api:opencode:0a76cd9b6c5c" ∧
      matchesCanonicalKey (buildApiKey digest "opencode" (some " test task")) = true := by
  have hhex : HexDigest digest := by
    have hdigits : (digest "").toList.all (fun c => "0123456789abcdef".toList.contains c) = true := by decide
    intro text c hc
    simpa using List.all_eq_true.mp hdigits c hc
  exact ⟨by decide, (canonical_keys hhex).2.1 "opencode" (some " test task") (by decide)⟩

/-- A character that is neither white space nor allowed stays in the key, and a blank becomes the hyphen that
another id has there. -/
theorem unclean_key_invalid :
    ¬ (∀ id, id ≠ "" → matchesCanonicalKey (buildTaskKey id) = true) ∧
    ¬ (∀ id id', id ≠ "" → id' ≠ "" → strip id ≠ strip id' → buildTaskKey id ≠ buildTaskKey id') := by
  constructor
  · intro hvalid
    have hkey := hvalid "task#1" (by decide)
    revert hkey
    decide
  · intro hinjective
    exact hinjective "fix bug" "fix-bug" (by decide) (by decide) (by decide) (by decide)

end Keys

end ForkAgent.Spawn

import Mathlib.Data.List.Pairwise
import Mathlib.Data.List.Perm.Basic
import Mathlib.Data.List.Sort
import Mathlib.Order.Basic

/-!
# Tables with unique indexes

A table is the list of its rows. A unique index is given by the key under which it files a row,
`none` for a row that a partial index leaves out; a primary key is an index that leaves out no row.
-/

namespace Storage

variable {α κ : Type}

/-- No two rows are filed under one key. -/
def UniqueOn (key : α → Option κ) (rows : List α) : Prop :=
  rows.Pairwise fun x y => ∀ k, key x = some k → key y ≠ some k

/-- Whether the index would refuse one more row. -/
def conflicts [DecidableEq κ] (key : α → Option κ) (rows : List α) (row : α) : Bool :=
  rows.any fun r => (key row).isSome && key r == key row

/-- `UPDATE ... SET f WHERE p`. -/
def updateWhere (p : α → Bool) (f : α → α) (rows : List α) : List α :=
  rows.map fun r => if p r then f r else r

/-- `ORDER BY key DESC LIMIT 1`; SQL leaves the choice among equal keys open. -/
def Latest [LE κ] (key : α → κ) (rows : List α) : Option α → Prop
  | none => rows = []
  | some x => x ∈ rows ∧ ∀ y ∈ rows, key y ≤ key x

/-- `ORDER BY key DESC`; SQL leaves the order among equal keys open. -/
def Ordered [LE κ] (key : α → κ) (rows answer : List α) : Prop :=
  answer.Perm rows ∧ answer.Pairwise fun x y => key y ≤ key x

/-- `ORDER BY key DESC`, with equal keys in the order of the table. -/
def orderDesc [LE κ] [DecidableLE κ] (key : α → κ) (rows : List α) : List α :=
  rows.insertionSort fun x y => key y ≤ key x

/-- A transaction commits its result or, on an error, leaves the store as it was. -/
def Transaction {ε S : Type} (result : Except ε S) (s : S) (answer : Except ε Unit) (s' : S) :
    Prop :=
  match result with
  | .ok s₁ => answer = .ok () ∧ s' = s₁
  | .error e => answer = .error e ∧ s' = s

theorem Transaction.ok {ε S : Type} {result : Except ε S} {s s' : S}
    (h : Transaction result s (.ok ()) s') : result = .ok s' := by
  unfold Transaction at h
  split at h
  · rw [h.2]
  · cases h.1

theorem Transaction.elim {ε S : Type} {result : Except ε S} {s s' : S} {answer : Except ε Unit}
    (h : Transaction result s answer s') {P : S → Prop} (hs : P s)
    (hresult : ∀ s₁, result = .ok s₁ → P s₁) : P s' := by
  unfold Transaction at h
  split at h
  · next s₁ heq => rw [h.2]; exact hresult _ rfl
  · rw [h.2]; exact hs

theorem Ordered.mem_iff [LE κ] {key : α → κ} {rows answer : List α} (h : Ordered key rows answer)
    (x : α) : x ∈ answer ↔ x ∈ rows := h.1.mem_iff

theorem orderDesc_ordered [LinearOrder κ] (key : α → κ) (rows : List α) :
    Ordered key rows (orderDesc key rows) := by
  have : Std.Total fun x y : α => key y ≤ key x := ⟨fun x y => le_total (key y) (key x)⟩
  have : IsTrans α fun x y : α => key y ≤ key x := ⟨fun _ _ _ h h' => h'.trans h⟩
  exact ⟨List.perm_insertionSort _ rows, List.pairwise_insertionSort _ rows⟩

theorem head?_latest [LinearOrder κ] {key : α → κ} {rows answer : List α}
    (h : Ordered key rows answer) : Latest key rows answer.head? := by
  cases answer with
  | nil => exact h.1.nil_eq.symm
  | cons x answer =>
    refine ⟨h.1.subset List.mem_cons_self, fun y hy => ?_⟩
    rcases List.mem_cons.mp (h.1.mem_iff.mpr hy) with rfl | hy
    · exact le_refl _
    · exact List.rel_of_pairwise_cons h.2 hy

theorem mem_updateWhere {p : α → Bool} {f : α → α} {rows : List α} {y : α} :
    y ∈ updateWhere p f rows ↔ (∃ x ∈ rows, p x = true ∧ f x = y) ∨ (y ∈ rows ∧ p y = false) := by
  simp only [updateWhere, List.mem_map]
  constructor
  · rintro ⟨x, hx, rfl⟩
    cases hp : p x
    · exact .inr ⟨by simpa using hx, by simp [hp]⟩
    · exact .inl ⟨x, hx, hp, by simp⟩
  · rintro (⟨x, hx, hp, rfl⟩ | ⟨hy, hp⟩)
    · exact ⟨x, hx, by simp [hp]⟩
    · exact ⟨y, hy, by simp [hp]⟩

theorem updateWhere_of_mem {p : α → Bool} {f : α → α} {rows : List α} {x : α} (hx : x ∈ rows) :
    (if p x then f x else x) ∈ updateWhere p f rows :=
  List.mem_map.mpr ⟨x, hx, rfl⟩

theorem UniqueOn.eq_of_mem {key : α → Option κ} {rows : List α} (h : UniqueOn key rows) {x y : α}
    {k : κ} (hx : x ∈ rows) (hy : y ∈ rows) (hkx : key x = some k) (hky : key y = some k) :
    x = y := by
  by_contra hne
  have : Std.Symm fun x y : α => ∀ k, key x = some k → key y ≠ some k :=
    ⟨fun _ _ hab k hb ha => hab k ha hb⟩
  exact List.Pairwise.forall h hx hy hne k hkx hky

theorem UniqueOn.nil (key : α → Option κ) : UniqueOn key [] := List.Pairwise.nil

theorem UniqueOn.of_nodup {key : α → Option κ} {rows : List α} (h : (rows.filterMap key).Nodup) :
    UniqueOn key rows := by
  refine (List.pairwise_filterMap.mp h).imp fun hne k hx hy => ?_
  exact hne k hx k hy rfl

theorem UniqueOn.filter {key : α → Option κ} {rows : List α} (h : UniqueOn key rows)
    (p : α → Bool) : UniqueOn key (rows.filter p) := List.Pairwise.filter _ h

theorem UniqueOn.perm {key : α → Option κ} {rows rows' : List α} (h : UniqueOn key rows)
    (hperm : rows.Perm rows') : UniqueOn key rows' :=
  (hperm.pairwise_iff fun hab k hb ha => hab k ha hb).mp h

theorem UniqueOn.length_le_one [DecidableEq κ] {key : α → Option κ} {rows : List α}
    (h : UniqueOn key rows) (k : κ) : (rows.filter fun r => key r == some k).length ≤ 1 := by
  have hfilter : ∀ r ∈ rows.filter (fun r => key r == some k), key r = some k := by
    intro r hr
    simpa using (List.mem_filter.mp hr).2
  have hunique := h.filter fun r => key r == some k
  match hrows : rows.filter fun r => key r == some k with
  | [] => simp
  | [r] => simp
  | r₁ :: r₂ :: rest =>
    rw [hrows] at hunique hfilter
    have hmem : r₂ ∈ r₂ :: rest := by simp
    have hne := List.rel_of_pairwise_cons hunique hmem k (hfilter r₁ (by simp))
    exact absurd (hfilter r₂ (by simp)) hne

theorem conflicts_eq_false [DecidableEq κ] {key : α → Option κ} {rows : List α} {row : α} :
    conflicts key rows row = false ↔ ∀ r ∈ rows, ∀ k, key row = some k → key r ≠ some k := by
  simp only [conflicts, List.any_eq_false, Bool.and_eq_true, beq_iff_eq, not_and]
  constructor
  · intro h r hr k hk hr'
    exact h r hr (by simp [hk]) (by rw [hr', hk])
  · intro h r hr hsome heq
    obtain ⟨k, hk⟩ := Option.isSome_iff_exists.mp hsome
    exact h r hr k hk (by rw [heq, hk])

/-- Whether the index files no two of the rows under one key. -/
def unique [DecidableEq κ] (key : α → Option κ) : List α → Bool
  | [] => true
  | row :: rows => !conflicts key rows row && unique key rows

theorem unique_iff [DecidableEq κ] {key : α → Option κ} {rows : List α} :
    unique key rows = true ↔ UniqueOn key rows := by
  induction rows with
  | nil => simp [unique, UniqueOn.nil]
  | cons row rows ih =>
    have hcons : UniqueOn key (row :: rows) ↔
        (∀ r ∈ rows, ∀ k, key row = some k → key r ≠ some k) ∧ UniqueOn key rows :=
      List.pairwise_cons
    rw [unique, Bool.and_eq_true, Bool.not_eq_true', ih, conflicts_eq_false, hcons]

theorem uniqueOn_concat {key : α → Option κ} {rows : List α} {row : α} :
    UniqueOn key (rows ++ [row]) ↔
      UniqueOn key rows ∧ ∀ r ∈ rows, ∀ k, key row = some k → key r ≠ some k := by
  unfold UniqueOn
  rw [List.pairwise_append]
  constructor
  · rintro ⟨hrows, -, hrow⟩
    refine ⟨hrows, fun r hr k hk hr' => ?_⟩
    exact hrow r hr row (List.mem_singleton_self _) k hr' hk
  · rintro ⟨hrows, hrow⟩
    refine ⟨hrows, List.pairwise_singleton _ _, fun r hr x hx k hk hx' => ?_⟩
    rw [List.mem_singleton.mp hx] at hx'
    exact hrow r hr k hx' hk

theorem UniqueOn.insert [DecidableEq κ] {key : α → Option κ} {rows : List α}
    (h : UniqueOn key rows) {row : α} (hc : conflicts key rows row = false) :
    UniqueOn key (rows ++ [row]) :=
  uniqueOn_concat.mpr ⟨h, conflicts_eq_false.mp hc⟩

theorem UniqueOn.map {key : α → Option κ} {rows : List α} (h : UniqueOn key rows) {f : α → α}
    (hf : ∀ x ∈ rows, key (f x) = key x) : UniqueOn key (rows.map f) := by
  unfold UniqueOn
  rw [List.pairwise_map]
  refine List.Pairwise.imp_of_mem ?_ h
  intro x y hx hy hxy k hkx
  rw [hf x hx] at hkx
  rw [hf y hy]
  exact hxy k hkx

theorem UniqueOn.updateWhere {key : α → Option κ} {rows : List α} (h : UniqueOn key rows)
    {p : α → Bool} {f : α → α} (hf : ∀ x ∈ rows, p x → key (f x) = key x ∨ key (f x) = none) :
    UniqueOn key (updateWhere p f rows) := by
  unfold UniqueOn Storage.updateWhere
  rw [List.pairwise_map]
  have key_le : ∀ x ∈ rows, ∀ k, key (if p x then f x else x) = some k → key x = some k := by
    intro x hx k hk
    cases hp : p x
    · simpa [hp] using hk
    · simp only [hp, if_true] at hk
      rcases hf x hx hp with hsame | hnone
      · rw [← hsame]; exact hk
      · rw [hnone] at hk; cases hk
  refine List.Pairwise.imp_of_mem ?_ h
  intro x y hx hy hxy k hkx hky
  exact hxy k (key_le x hx k hkx) (key_le y hy k hky)

end Storage

import Mathlib.Data.List.Nodup

/-!
# Lineages

Nodes with a link to a parent each, as the list of the pairs. A lineage is what following the
links goes through; in a bounded forest every node has one, without repetition and of bounded
length. Such a forest grows at its leaves.
-/

namespace Storage

variable {κ : Type} {links links' : List (κ × Option κ)} {k : κ} {parent : Option κ}
  {ids ids' : List κ} {bound : Nat}

/-- Following the links from a parent goes through exactly these nodes and ends. -/
inductive Lineage (links : List (κ × Option κ)) : Option κ → List κ → Prop where
  | root : Lineage links none []
  | node {k : κ} {parent : Option κ} {ids : List κ} (linked : (k, parent) ∈ links)
      (rest : Lineage links parent ids) : Lineage links (some k) (k :: ids)

theorem Lineage.mono (h : Lineage links parent ids) (hlinks : links ⊆ links') :
    Lineage links' parent ids := by
  induction h with
  | root => exact .root
  | node linked _ ih => exact .node (hlinks linked) ih

theorem Lineage.mem_keys (h : Lineage links parent ids) : ∀ k ∈ ids, k ∈ links.map Prod.fst := by
  induction h with
  | root => simp
  | node linked _ ih =>
    intro k hk
    rcases List.mem_cons.mp hk with rfl | hk
    · exact List.mem_map_of_mem linked
    · exact ih k hk

theorem parent_unique (hkeys : (links.map Prod.fst).Nodup) {p q : Option κ} (hp : (k, p) ∈ links)
    (hq : (k, q) ∈ links) : p = q :=
  congrArg Prod.snd (List.inj_on_of_nodup_map hkeys hp hq rfl)

theorem Lineage.unique (hkeys : (links.map Prod.fst).Nodup) (h : Lineage links parent ids)
    (h' : Lineage links parent ids') : ids = ids' := by
  induction h generalizing ids' with
  | root =>
    cases h'
    rfl
  | node linked _ ih =>
    obtain _ | ⟨linked', rest'⟩ := h'
    obtain rfl := parent_unique hkeys linked linked'
    rw [ih rest']

/-- Every node has a lineage of bounded length that does not come back to a node. -/
structure BoundedForest (bound : Nat) (links : List (κ × Option κ)) : Prop where
  keys : (links.map Prod.fst).Nodup
  lineage : ∀ k parent, (k, parent) ∈ links →
    ∃ ids, Lineage links parent ids ∧ (k :: ids).Nodup ∧ ids.length ≤ bound

theorem BoundedForest.nil : BoundedForest bound ([] : List (κ × Option κ)) :=
  ⟨.nil, fun _ _ h => absurd h List.not_mem_nil⟩

theorem BoundedForest.nodup (hlinks : BoundedForest bound links) (h : Lineage links parent ids) :
    ids.Nodup := by
  cases h with
  | root => exact .nil
  | node linked rest =>
    obtain ⟨ids', h', hnodup, -⟩ := hlinks.lineage _ _ linked
    rw [rest.unique hlinks.keys h']
    exact hnodup

theorem BoundedForest.insert (hlinks : BoundedForest bound links) (hfresh : k ∉ links.map Prod.fst)
    (hparent : Lineage links parent ids) (hlength : ids.length ≤ bound) :
    BoundedForest bound (links ++ [(k, parent)]) := by
  have hgrow : links ⊆ links ++ [(k, parent)] := List.subset_append_left _ _
  refine ⟨?_, fun k' parent' h => ?_⟩
  · rw [List.map_append, List.nodup_append]
    refine ⟨hlinks.keys, List.nodup_singleton k, fun a ha b hb hab => ?_⟩
    rw [hab, List.mem_singleton.mp hb] at ha
    exact hfresh ha
  · rcases List.mem_append.mp h with h | h
    · obtain ⟨ids', hids', hnodup, hlength'⟩ := hlinks.lineage _ _ h
      exact ⟨ids', hids'.mono hgrow, hnodup, hlength'⟩
    · cases List.mem_singleton.mp h
      refine ⟨ids, hparent.mono hgrow, List.nodup_cons.mpr ⟨?_, hlinks.nodup hparent⟩, hlength⟩
      exact fun hk => hfresh (hparent.mem_keys _ hk)

end Storage

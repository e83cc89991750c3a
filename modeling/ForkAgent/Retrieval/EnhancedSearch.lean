import ForkAgent.Memory.Diff
import ForkAgent.Storage.Selection

/-!
# Enhanced retrieval

A query is planned into candidate queries. Each of them is searched for up to a limit, and only what these
searches return is then filtered, ranked and cut to the limit of the caller.
-/

namespace ForkAgent.Retrieval

open Effects Storage Sync Memory

/-- Which of a plan's two lists a candidate query comes from. -/
inductive Source where
  | expanded
  | bridge
  deriving DecidableEq, Repr

/-- The service with its planner, the expansions by bridges and the score, whose values are ordered. -/
structure EnhancedRetrievalSearchService (κ : Type) where
  repository : ObservationRepository
  fts5Queries : String → List String
  expandQueryWithBridge : String → List String
  scoreObservation : Observation → String → κ

/-- `limit or 5`. -/
def effectiveLimit (limit : Option Int) : Int :=
  match limit with
  | none => 5
  | some n => if n = 0 then 5 else n

def candidateLimit (limit : Int) : Int := max limit (min (limit * 4) 20)

/-- `xs[:n]`. -/
def upTo {α : Type} (n : Int) (xs : List α) : List α :=
  if 0 ≤ n then xs.take n.toNat else xs.take (xs.length - n.natAbs)

def inScope (project type sessionId : Option String) (o : Observation) : Bool :=
  project.all (fun p => o.val.project = some p) && type.all (fun t => o.val.type = some t) &&
    sessionId.all fun id => o.val.sessionId = some id

def dedupeResults (observations : List (Observation × Source)) : List (Observation × Source) :=
  firstOfEach (·.1.val.id) observations []

namespace EnhancedRetrievalSearchService

variable {κ : Type} (svc : EnhancedRetrievalSearchService κ)

/-- The queries of the plan, and the expansions that are not among them. -/
def candidates (query : String) : List String :=
  (svc.expandQueryWithBridge query).foldl
    (fun found expanded => if expanded ∈ found then found else found ++ [expanded]) (svc.fts5Queries query)

/-- The candidates with the list that each one counts to. -/
def sourced (query : String) : List (String × Source) :=
  (svc.candidates query).zipIdx.map fun candidate =>
    (candidate.1, if (svc.fts5Queries query).length ≤ candidate.2 then .bridge else .expanded)

/-- The searches, one for each candidate. -/
def collect (limit : Int) : List (String × Source) → List (Observation × Source) →
    MemoryProgram (List (Observation × Source))
  | [], collected => return collected
  | (candidate, source) :: rest, collected => do
    let results ← svc.repository.search candidate (some limit) none
    collect limit rest (collected ++ results.map fun o => (o, source))

def rank (query : String) (o : Observation) : κ ×ₗ Int :=
  toLex (svc.scoreObservation o query, o.val.timestamp)

def search [LinearOrder κ] (query : String) (limit : Option Int) (project type sessionId : Option String) :
    MemoryProgram (List Observation) := do
  let collected ← svc.collect (candidateLimit (effectiveLimit limit)) (svc.sourced query) []
  let ranked := orderDesc (fun item => svc.rank query item.1) (dedupeResults collected)
  return upTo (effectiveLimit limit) ((ranked.map (·.1)).filter (inScope project type sessionId))

end EnhancedRetrievalSearchService

/-- A full-text index: the rows that a query hits, and how rows are listed, which is by time. -/
structure SearchIndex where
  hits : String → ObservationRow → Bool
  order : List ObservationRow → List ObservationRow
  ordered : ∀ rows, MemoryStore.Listing rows (order rows)

namespace SearchIndex

variable (index : SearchIndex)

/-- The database with this index. -/
def answers : Semantics memorySignature Exn MemoryStore
  | ⟨.search query project limit, r⟩, s, s' =>
    s' = s ∧ r = .ok (MemoryStore.page limit none (index.order (s.observations.rows.filter fun row =>
      index.hits query row && MemoryStore.matchesFilter project row.project)))
  | ⟨c, r⟩, s, s' => MemoryStore.serve ⟨c, r⟩ s s'

def serving : Semantics storeSignature Exn Store := Store.both index.answers SyncStore.step

/-- Whether a query finds a row. Nothing is found where the sanitiser leaves nothing of the query. -/
def finds (query : String) (row : ObservationRow) : Bool :=
  ObservationRepository.sanitizeFtsQuery query ≠ "" &&
    index.hits (ObservationRepository.sanitizeFtsQuery query) row

/-- The rows that a query finds, newest first. -/
def found (rows : List ObservationRow) (query : String) : List ObservationRow :=
  index.order (rows.filter (index.finds query))

theorem answers_serves {a : Answered memorySignature Exn} {s s' : MemoryStore} (h : index.answers a s s') :
    MemoryStore.serve a s s' := by
  obtain ⟨c, r⟩ := a
  cases c with
  | search query project limit => exact ⟨h.1, _, _, index.ordered _, h.2⟩
  | _ => exact h

end SearchIndex

section Holds

variable {κ : Type}

/-- What is asked of the observations that a retrieval returns. -/
structure RetrievalHolds [LinearOrder κ] (svc : EnhancedRetrievalSearchService κ) (index : SearchIndex)
    (rows : List ObservationRow) (query : String) (limit : Int) (scope : Observation → Bool)
    (result : List Observation) : Prop where
  distinct : result.Pairwise fun o o' => o.val.id ≠ o'.val.id
  filtered : ∀ o ∈ result, scope o = true
  atMost : (result.length : Int) ≤ limit
  ranked : result.Pairwise fun o o' => svc.scoreObservation o' query ≤ svc.scoreObservation o query
  complete : (result.length : Int) < limit → ∀ row ∈ rows, ∀ o, rowToObservation row = .ok o →
    scope o = true → (∃ candidate ∈ svc.candidates query, index.finds candidate row = true) → o ∈ result

/-- Whether a candidate query finds the row among its first ones, up to the candidate limit. -/
def reached (svc : EnhancedRetrievalSearchService κ) (index : SearchIndex) (rows : List ObservationRow)
    (query : String) (limit : Int) (row : ObservationRow) : Bool :=
  (svc.candidates query).any fun candidate =>
    row ∈ (index.found rows candidate).take (candidateLimit limit).toNat

/-- Of the rows in scope, as many as the limit are reached, or all that a candidate query finds. -/
def Covers (svc : EnhancedRetrievalSearchService κ) (index : SearchIndex) (rows : List ObservationRow)
    (query : String) (limit : Int) (scope : Observation → Bool) : Prop :=
  limit ≤ ((rows.filter fun row => (rowToObservation row).toOption.any scope &&
    reached svc index rows query limit row).length : Int) ∨
  ∀ row ∈ rows, ∀ o, rowToObservation row = .ok o → scope o = true →
    (∃ candidate ∈ svc.candidates query, index.finds candidate row = true) →
      reached svc index rows query limit row = true

end Holds

section Searches

variable {κ : Type} {svc : EnhancedRetrievalSearchService κ} {index : SearchIndex} {s s' : Store} {limit : Int}

theorem candidateLimit_nonneg (h : 1 ≤ limit) : 0 ≤ candidateLimit limit := by
  unfold candidateLimit
  omega

theorem upTo_of_nonneg {α : Type} (h : 0 ≤ limit) (xs : List α) : upTo limit xs = xs.take limit.toNat := by
  rw [upTo, if_pos h]

theorem map_fst_sourced (svc : EnhancedRetrievalSearchService κ) (query : String) :
    (svc.sourced query).map (·.1) = svc.candidates query := by
  rw [EnhancedRetrievalSearchService.sourced, List.map_map]
  exact List.zipIdx_map_fst 0 _

theorem found_eq_nil {rows : List ObservationRow} {candidate : String}
    (h : ObservationRepository.sanitizeFtsQuery candidate = "") : index.found rows candidate = [] := by
  have hnone : rows.filter (index.finds candidate) = [] := by
    simp [SearchIndex.finds, h]
  rw [SearchIndex.found, hnone]
  exact (index.ordered []).1.eq_nil

/-- One search returns the first rows that its query finds. -/
theorem search_finds {candidate : String} {out : Except Exn (List Observation)} (hlimit : 0 ≤ limit)
    (hreadable : ∀ row ∈ s.1.observations.rows, Readable row)
    (hrun : (svc.repository.search candidate (some limit) none).Runs index.serving s out s') :
    s' = s ∧ ∃ list, out = .ok list ∧
      ((index.found s.1.observations.rows candidate).take limit.toNat).mapM rowToObservation = .ok list := by
  unfold ObservationRepository.search at hrun
  by_cases hempty : ObservationRepository.sanitizeFtsQuery candidate = ""
  · rw [if_pos hempty] at hrun
    refine ⟨hrun.2, [], hrun.1, ?_⟩
    rw [found_eq_nil hempty, List.take_nil]
    rfl
  · rw [if_neg hempty] at hrun
    have hfinds : index.finds candidate =
        fun row => index.hits (ObservationRepository.sanitizeFtsQuery candidate) row := by
      funext row
      simp [SearchIndex.finds, hempty]
    have hfound : MemoryStore.page (some limit) none (index.order (s.1.observations.rows.filter fun row =>
        index.hits (ObservationRepository.sanitizeFtsQuery candidate) row &&
          MemoryStore.matchesFilter (svc.repository.projectFilter none) row.project)) =
        (index.found s.1.observations.rows candidate).take limit.toNat := by
      simp [MemoryStore.page, MemoryStore.matchesFilter, ObservationRepository.projectFilter,
        normalizeProject, SearchIndex.found, hfinds, hlimit]
    obtain ⟨e, hcall, -⟩ | ⟨rows, hcall, hout⟩ := ObservationRepository.readRows_runs.mp hrun
    · obtain ⟨⟨-, hanswer⟩, -⟩ := memoryCall_runs.mp hcall
      cases hanswer
    · obtain ⟨⟨hsame, hanswer⟩, hsync⟩ := memoryCall_runs.mp hcall
      rw [hfound] at hanswer
      rw [Except.ok.inj hanswer] at hout
      obtain ⟨list, hlist⟩ : ∃ list,
          ((index.found s.1.observations.rows candidate).take limit.toNat).mapM rowToObservation =
            .ok list := by
        apply exists_mapM_eq_ok
        intro row hrow
        have hmem := ((index.ordered _).mem_iff row).mp (List.mem_of_mem_take hrow)
        exact hreadable row (List.mem_of_mem_filter hmem)
      exact ⟨Prod.ext hsame hsync, list, hout.trans hlist, hlist⟩

/-- What is collected is what the searches return, one after the other. -/
theorem collect_finds (hlimit : 0 ≤ limit) (hreadable : ∀ row ∈ s.1.observations.rows, Readable row)
    {queries : List (String × Source)} {collected : List (Observation × Source)}
    {out : Except Exn (List (Observation × Source))}
    (hrun : (svc.collect limit queries collected).Runs index.serving s out s') :
    ∃ all, out = .ok all ∧ ∀ o, o ∈ all.map (·.1) ↔ o ∈ collected.map (·.1) ∨
      ∃ candidate ∈ queries.map (·.1),
        ∃ row ∈ (index.found s.1.observations.rows candidate).take limit.toNat,
          rowToObservation row = .ok o := by
  induction queries generalizing collected with
  | nil =>
    refine ⟨collected, hrun.1, ?_⟩
    intro o
    simp
  | cons entry rest ih =>
    obtain ⟨candidate, source⟩ := entry
    obtain ⟨e, hsearch, -⟩ | ⟨results, s₁, hsearch, hrest⟩ := Program.runs_bind.mp hrun
    · obtain ⟨-, list, hlist, -⟩ := search_finds hlimit hreadable hsearch
      cases hlist
    · obtain ⟨rfl, list, hlist, hread⟩ := search_finds hlimit hreadable hsearch
      cases hlist
      obtain ⟨all, hout, hall⟩ := ih hrest
      refine ⟨all, hout, ?_⟩
      intro o
      have hresults : o ∈ (results.map fun o => (o, source)).map (·.1) ↔
          ∃ row ∈ (index.found s₁.1.observations.rows candidate).take limit.toNat,
            rowToObservation row = .ok o := by
        rw [List.map_map, ← mem_of_mapM hread]
        simp
      rw [hall, List.map_append, List.mem_append, hresults, List.map_cons, List.exists_mem_cons_iff, or_assoc]

/-- The searches of a store whose rows can be read come to an end, and the retrieval with them. -/
theorem collect_exists {svc : EnhancedRetrievalSearchService κ} {index : SearchIndex}
    (hlimit : 0 ≤ limit) (hreadable : ∀ row ∈ s.1.observations.rows, Readable row)
    (queries : List (String × Source)) (collected : List (Observation × Source)) :
    ∃ all, (svc.collect limit queries collected).Runs index.serving s (.ok all) s := by
  induction queries generalizing collected with
  | nil => exact ⟨collected, rfl, rfl⟩
  | cons entry rest ih =>
    obtain ⟨candidate, source⟩ := entry
    obtain ⟨out, hsearch⟩ : ∃ out,
        (svc.repository.search candidate (some limit) none).Runs index.serving s out s := by
      unfold ObservationRepository.search
      split
      · exact ⟨_, rfl, rfl⟩
      · exact ⟨_, ObservationRepository.readRows_runs.mpr
          (.inr ⟨_, memoryCall_runs.mpr ⟨⟨rfl, rfl⟩, rfl⟩, rfl⟩)⟩
    obtain ⟨-, results, rfl, -⟩ := search_finds hlimit hreadable hsearch
    obtain ⟨all, hall⟩ := ih (collected ++ results.map fun o => (o, source))
    exact ⟨all, Program.runs_bind.mpr (.inr ⟨results, s, hsearch, hall⟩)⟩

end Searches

section Rows

variable {rows : List ObservationRow} {o o' : Observation} {row row' : ObservationRow}

theorem id_of_read (h : rowToObservation row = .ok o) : o.val.id = row.id :=
  (Except.ok.inj (observation_eq_ok.mp h).id).symm

theorem row_of_id (hindexed : Indexed rows) (h : row ∈ rows) (h' : row' ∈ rows) (hid : row.id = row'.id) :
    row = row' := hindexed.ids.eq_of_mem h h' rfl (congrArg some hid.symm)

theorem nodup_ids (hindexed : Indexed rows) : (rows.map (·.id)).Nodup := by
  rw [List.Nodup, List.pairwise_map]
  apply hindexed.ids.imp
  intro row row' hne hid
  exact hne row.id rfl (congrArg some hid.symm)

end Rows

section Selection

variable {κ : Type} {svc : EnhancedRetrievalSearchService κ} {index : SearchIndex}
  {rows : List ObservationRow} {query : String} {limit : Int} {scope : Observation → Bool}
  {all : List (Observation × Source)} {o : Observation}

theorem reached_iff {row : ObservationRow} : reached svc index rows query limit row = true ↔
    ∃ candidate ∈ svc.candidates query,
      row ∈ (index.found rows candidate).take (candidateLimit limit).toNat := by
  simp [reached]

theorem mem_of_found {candidate : String} {n : Nat} {row : ObservationRow}
    (h : row ∈ (index.found rows candidate).take n) : row ∈ rows ∧ index.finds candidate row = true := by
  have hfound := ((index.ordered _).mem_iff row).mp (List.mem_of_mem_take h)
  exact List.mem_filter.mp hfound

/-- The collected observations are those of the rows that are reached. -/
def Collected (svc : EnhancedRetrievalSearchService κ) (index : SearchIndex) (rows : List ObservationRow)
    (query : String) (limit : Int) (all : List (Observation × Source)) : Prop :=
  ∀ o, o ∈ all.map (·.1) ↔ ∃ row ∈ rows, rowToObservation row = .ok o ∧
    reached svc index rows query limit row = true

variable [LinearOrder κ]

/-- What is left of the collected observations before they are cut to the limit. -/
def chosen (svc : EnhancedRetrievalSearchService κ) (query : String) (scope : Observation → Bool)
    (all : List (Observation × Source)) : List Observation :=
  ((orderDesc (fun item => svc.rank query item.1) (dedupeResults all)).map (·.1)).filter scope

theorem mem_chosen (hindexed : Indexed rows) (hall : Collected svc index rows query limit all) :
    o ∈ chosen svc query scope all ↔ scope o = true ∧
      ∃ row ∈ rows, rowToObservation row = .ok o ∧ reached svc index rows query limit row = true := by
  rw [chosen, List.mem_filter, List.mem_map, and_comm]
  refine and_congr_right fun _ => ?_
  constructor
  · intro h
    obtain ⟨item, hitem, rfl⟩ := h
    have hdeduped := ((orderDesc_ordered _ _).mem_iff item).mp hitem
    exact (hall item.1).mp (List.mem_map.mpr ⟨item, (mem_of_mem_firstOfEach hdeduped).1, rfl⟩)
  · intro h
    obtain ⟨item, hitem, hsame⟩ := List.mem_map.mp ((hall o).mpr h)
    obtain ⟨row, hrow, hread, -⟩ := h
    obtain ⟨first, hfirst, hid⟩ : ∃ first ∈ dedupeResults all, first.1.val.id = item.1.val.id :=
      exists_mem_firstOfEach hitem List.not_mem_nil
    refine ⟨first, ((orderDesc_ordered _ _).mem_iff first).mpr hfirst, ?_⟩
    have hmem : first.1 ∈ all.map (·.1) := List.mem_map.mpr ⟨first, (mem_of_mem_firstOfEach hfirst).1, rfl⟩
    obtain ⟨row', hrow', hread', -⟩ := (hall first.1).mp hmem
    have hrows : row' = row := by
      apply row_of_id hindexed hrow' hrow
      rw [← id_of_read hread', ← id_of_read hread, ← hsame]
      exact hid
    rw [hrows, hread] at hread'
    exact (Except.ok.inj hread').symm

theorem nodup_chosen (svc : EnhancedRetrievalSearchService κ) (query : String) (scope : Observation → Bool)
    (all : List (Observation × Source)) : ((chosen svc query scope all).map (·.val.id)).Nodup := by
  have hdeduped : ((dedupeResults all).map (·.1.val.id)).Nodup := nodup_firstOfEach _ _ _
  have hperm := (orderDesc_ordered (fun item => svc.rank query item.1) (dedupeResults all)).1
  have hranked : (((orderDesc (fun item => svc.rank query item.1) (dedupeResults all)).map (·.1)).map
      (·.val.id)).Nodup := by
    rw [List.map_map]
    exact (hperm.map (·.1.val.id)).nodup_iff.mpr hdeduped
  exact hranked.sublist (List.filter_sublist.map _)

/-- As many observations are left as there are rows in scope that are reached. -/
theorem length_chosen (hindexed : Indexed rows) (hall : Collected svc index rows query limit all) :
    (chosen svc query scope all).length = (rows.filter fun row =>
      (rowToObservation row).toOption.any scope && reached svc index rows query limit row).length := by
  suffices hperm : ((chosen svc query scope all).map (·.val.id)).Perm ((rows.filter fun row =>
      (rowToObservation row).toOption.any scope && reached svc index rows query limit row).map (·.id)) by
    simpa using hperm.length_eq
  have hrows := (nodup_ids hindexed).sublist ((List.filter_sublist (l := rows) (p := fun row =>
    (rowToObservation row).toOption.any scope && reached svc index rows query limit row)).map (·.id))
  rw [List.perm_ext_iff_of_nodup (nodup_chosen svc query scope all) hrows]
  intro id
  rw [List.mem_map, List.mem_map]
  constructor
  · intro h
    obtain ⟨o, ho, rfl⟩ := h
    obtain ⟨hscope, row, hrow, hread, hreached⟩ := (mem_chosen hindexed hall).mp ho
    refine ⟨row, List.mem_filter.mpr ⟨hrow, ?_⟩, (id_of_read hread).symm⟩
    rw [hread]
    exact Bool.and_eq_true_iff.mpr ⟨hscope, hreached⟩
  · intro h
    obtain ⟨row, hrow, rfl⟩ := h
    obtain ⟨hmem, hboth⟩ := List.mem_filter.mp hrow
    obtain ⟨hscope, hreached⟩ := Bool.and_eq_true_iff.mp hboth
    cases hread : rowToObservation row with
    | error e =>
      rw [hread] at hscope
      cases hscope
    | ok o =>
      rw [hread] at hscope
      exact ⟨o, (mem_chosen hindexed hall).mpr ⟨hscope, row, hmem, hread, hreached⟩, id_of_read hread⟩

theorem chosen_ranked (svc : EnhancedRetrievalSearchService κ) (query : String) (scope : Observation → Bool)
    (all : List (Observation × Source)) :
    (chosen svc query scope all).Pairwise fun o o' =>
      svc.scoreObservation o' query ≤ svc.scoreObservation o query := by
  have hordered := (orderDesc_ordered (fun item => svc.rank query item.1) (dedupeResults all)).2
  apply List.Pairwise.filter
  rw [List.pairwise_map]
  apply hordered.imp
  intro item item' hle
  cases Prod.Lex.le_iff.mp hle with
  | inl hlt => exact le_of_lt hlt
  | inr heq => exact le_of_eq heq.1

/-- The first of what is left are as they should be exactly when the searches cover what is asked for. -/
theorem chosen_holds_iff (hlimit : 1 ≤ limit) (hindexed : Indexed rows)
    (hall : Collected svc index rows query limit all) :
    RetrievalHolds svc index rows query limit scope ((chosen svc query scope all).take limit.toNat) ↔
      Covers svc index rows query limit scope := by
  let wanted : Observation → Prop := fun o => ∃ row ∈ rows, rowToObservation row = .ok o ∧ scope o = true ∧
    ∃ candidate ∈ svc.candidates query, index.finds candidate row = true
  have hcomplete : (((chosen svc query scope all).take limit.toNat).length < limit.toNat →
      ∀ o, wanted o → o ∈ (chosen svc query scope all).take limit.toNat) ↔
      limit.toNat ≤ (chosen svc query scope all).length ∨ ∀ o, wanted o → o ∈ chosen svc query scope all :=
    complete_take_iff
  have hlength : (chosen svc query scope all).length = (rows.filter fun row =>
      (rowToObservation row).toOption.any scope && reached svc index rows query limit row).length :=
    length_chosen hindexed hall
  constructor
  · intro h
    have hshort := hcomplete.mp fun hlt o ho => by
      obtain ⟨row, hrow, hread, hscope, hfinds⟩ := ho
      exact h.complete (by omega) row hrow o hread hscope hfinds
    cases hshort with
    | inl hle => exact .inl (by omega)
    | inr hmatched =>
      right
      intro row hrow o hread hscope hfinds
      obtain ⟨-, row', hrow', hread', hreached⟩ :=
        (mem_chosen hindexed hall).mp (hmatched o ⟨row, hrow, hread, hscope, hfinds⟩)
      have hrows : row' = row := by
        apply row_of_id hindexed hrow' hrow
        rw [← id_of_read hread', ← id_of_read hread]
      rw [← hrows]
      exact hreached
  · intro h
    constructor
    · have hnodup := nodup_chosen svc query scope all
      rw [List.Nodup, List.pairwise_map] at hnodup
      exact hnodup.sublist (List.take_sublist _ _)
    · intro o ho
      exact (List.mem_filter.mp (List.mem_of_mem_take ho)).2
    · rw [List.length_take]
      omega
    · exact (chosen_ranked svc query scope all).sublist (List.take_sublist _ _)
    · intro hshort row hrow o hread hscope hfinds
      have hcovered : limit.toNat ≤ (chosen svc query scope all).length ∨
          ∀ o, (∃ row ∈ rows, rowToObservation row = .ok o ∧ scope o = true ∧
            ∃ candidate ∈ svc.candidates query, index.finds candidate row = true) →
              o ∈ chosen svc query scope all := by
        cases h with
        | inl hle => exact .inl (by omega)
        | inr hreaches =>
          right
          intro o ho
          obtain ⟨row, hrow, hread, hscope, hfinds⟩ := ho
          have hreached := hreaches row hrow o hread hscope hfinds
          exact (mem_chosen hindexed hall).mpr ⟨hscope, row, hrow, hread, hreached⟩
      exact hcomplete.mpr hcovered (by omega) o ⟨row, hrow, hread, hscope, hfinds⟩

end Selection

section Retrieval

variable {κ : Type} [LinearOrder κ] {s s' : Store} {limit : Int}

/-- A retrieval returns the first of what is left of the collected observations. -/
theorem search_runs {svc : EnhancedRetrievalSearchService κ} {index : SearchIndex} {query : String}
    {project type sessionId : Option String} (hlimit : 1 ≤ limit)
    (hreadable : ∀ row ∈ s.1.observations.rows, Readable row) {out : Except Exn (List Observation)}
    (hrun : (svc.search query (some limit) project type sessionId).Runs index.serving s out s') :
    ∃ all, Collected svc index s.1.observations.rows query limit all ∧
      out = .ok ((chosen svc query (inScope project type sessionId) all).take limit.toNat) := by
  have heffective : effectiveLimit (some limit) = limit := by
    unfold effectiveLimit
    simp only
    rw [if_neg (by omega)]
  rw [EnhancedRetrievalSearchService.search, heffective] at hrun
  obtain ⟨e, hcollect, -⟩ | ⟨all, s₁, hcollect, hrest⟩ := Program.runs_bind.mp hrun
  · obtain ⟨all, hall, -⟩ := collect_finds (candidateLimit_nonneg hlimit) hreadable hcollect
    cases hall
  · obtain ⟨_, heq, hmem⟩ := collect_finds (candidateLimit_nonneg hlimit) hreadable hcollect
    cases heq
    refine ⟨all, ?_, ?_⟩
    · intro o
      rw [hmem, map_fst_sourced]
      simp only [reached_iff]
      constructor
      · intro h
        obtain h | ⟨candidate, hcandidate, row, hrow, hread⟩ := h
        · cases h
        · exact ⟨row, (mem_of_found hrow).1, hread, candidate, hcandidate, hrow⟩
      · intro h
        obtain ⟨row, -, hread, candidate, hcandidate, hrow⟩ := h
        exact .inr ⟨candidate, hcandidate, row, hrow, hread⟩
    · rw [hrest.1, upTo_of_nonneg (by omega)]
      rfl

end Retrieval

section Example

/-- The plan of the query `note`. -/
def notePlan : EnhancedRetrievalSearchService ℕ where
  repository := plainRepository
  fts5Queries _ := ["note"]
  expandQueryWithBridge _ := ["note", "where are fork sessions created", "how to create fork sessions",
    "fork session creation endpoint", "fork sessions endpoint", "sessions created via api",
    "post endpoint for sessions",
    "fork session sessions create created creation endpoint post route api agents localhost",
    "archive old memory after pilot", "what to do with memory after pilot", "keep archive memory files",
    "archive policy memory", "memory files after pilot", "keep memory as historical",
    "archive memory pilot keep delete historical raw diary migrate lot validation"]
  scoreObservation _ _ := 13

/-- An index over notes. -/
def noteIndex : SearchIndex where
  hits query _ := query == "note*"
  order := orderDesc (·.timestamp)
  ordered := orderDesc_ordered _

def notedRow (n : Nat) : ObservationRow :=
  { id := String.ofList (List.replicate (n + 1) 'n'), timestamp := n, content := "note",
    project := some (if n = 0 then "a" else "b") }

def notes : ObservationTable := ⟨(List.range 5).map notedRow, indexed_iff.mp (by decide)⟩

def noteStore : Store := ({ observations := notes }, {})

theorem notes_readable : ∀ row ∈ notes.rows, Readable row := by
  obtain ⟨read, hread⟩ : ∃ read, notes.rows.mapM rowToObservation = .ok read := ⟨_, rfl⟩
  exact readable_of_mapM hread

theorem notes_retrieval (project : String) : ∃ out, (notePlan.search "note" (some 1) (some project) none none).Runs
    noteIndex.serving noteStore (.ok out) noteStore := by
  obtain ⟨all, hall⟩ :
      ∃ all, (notePlan.collect (candidateLimit (effectiveLimit (some 1))) (notePlan.sourced "note") []).Runs
        noteIndex.serving noteStore (.ok all) noteStore :=
    collect_exists (by decide) notes_readable (notePlan.sourced "note") []
  exact ⟨_, Program.runs_bind.mpr (.inr ⟨all, noteStore, hall, rfl, rfl⟩)⟩

/-- The note of the project is older than four notes of another one. -/
theorem note_out_of_reach : reached notePlan noteIndex notes.rows "note" 1 (notedRow 0) = false := by
  rw [← Bool.not_eq_true, reached_iff]
  intro h
  obtain ⟨candidate, -, hrow⟩ := h
  have hfound : noteIndex.found notes.rows candidate = noteIndex.order notes.rows ∨
      noteIndex.found notes.rows candidate = noteIndex.order [] := by
    have hsame : ∀ row, noteIndex.finds candidate row = noteIndex.finds candidate (notedRow 0) := fun _ => rfl
    unfold SearchIndex.found
    cases hfinds : noteIndex.finds candidate (notedRow 0) with
    | true =>
      left
      rw [List.filter_eq_self.mpr]
      intro row _
      rw [hsame, hfinds]
    | false =>
      right
      rw [List.filter_eq_nil_iff.mpr]
      intro row _
      rw [hsame, hfinds]
      exact Bool.false_ne_true
  revert hrow
  cases hfound with
  | inl hall =>
    rw [hall]
    decide
  | inr hnone =>
    rw [hnone]
    decide

theorem later_out_of_scope (n : Nat) :
    (rowToObservation (notedRow (n + 1))).toOption.any (inScope (some "a") none none) = false := by
  cases hread : rowToObservation (notedRow (n + 1)) with
  | error e => rfl
  | ok o =>
    have hproject : some "b" = o.val.project := Except.ok.inj (observation_eq_ok.mp hread).project
    show inScope (some "a") none none o = false
    simp [inScope, ← hproject]

theorem older_note_uncovered : ¬ Covers notePlan noteIndex notes.rows "note" 1 (inScope (some "a") none none) := by
  rintro (hlength | hreaches)
  · have hnone : notes.rows.filter (fun row => (rowToObservation row).toOption.any
        (inScope (some "a") none none) && reached notePlan noteIndex notes.rows "note" 1 row) = [] := by
      rw [List.filter_eq_nil_iff]
      intro row hrow
      obtain ⟨n, hn, rfl⟩ := List.mem_map.mp hrow
      cases n with
      | zero =>
        rw [note_out_of_reach, Bool.and_false]
        exact Bool.false_ne_true
      | succ n =>
        rw [later_out_of_scope, Bool.false_and]
        exact Bool.false_ne_true
    rw [hnone] at hlength
    exact absurd hlength (by decide)
  · obtain ⟨o, hread, hscope⟩ : ∃ o, rowToObservation (notedRow 0) = .ok o ∧
        inScope (some "a") none none o = true := ⟨_, rfl, rfl⟩
    have hreached := hreaches (notedRow 0) (List.mem_cons_self) o hread hscope ⟨"note", List.mem_cons_self, by decide⟩
    rw [note_out_of_reach] at hreached
    cases hreached

theorem newest_note_covered : Covers notePlan noteIndex notes.rows "note" 1 (inScope (some "b") none none) := by
  left
  have hreached : reached notePlan noteIndex notes.rows "note" 1 (notedRow 4) = true :=
    reached_iff.mpr ⟨"note", List.mem_cons_self, by decide⟩
  have hscope : (rowToObservation (notedRow 4)).toOption.any (inScope (some "b") none none) = true := rfl
  have hmem : notedRow 4 ∈ notes.rows.filter fun row => (rowToObservation row).toOption.any
      (inScope (some "b") none none) && reached notePlan noteIndex notes.rows "note" 1 row := by
    refine List.mem_filter.mpr ⟨List.mem_map_of_mem (by decide), ?_⟩
    rw [hscope, hreached]
    rfl
  exact Int.ofNat_le.mpr (List.length_pos_of_mem hmem)

end Example

end ForkAgent.Retrieval

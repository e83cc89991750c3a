import ForkAgent.Memory.Recall
import ForkAgent.Storage.LatestBy
import Mathlib.Data.List.Dedup

/-!
# The diff of two times

The observations up to the first time are compared with those after it up to the second one, key by key. A
key that has none of the latter counts as removed, although its observations are still there.
-/

namespace ForkAgent.Memory

open Effects Storage Sync MemoryStore

inductive ChangeType where
  | added
  | removed
  | modified
  deriving DecidableEq, Repr

structure DiffItem where
  topicKey : String
  changeType : ChangeType
  fromContent : Option String := none
  toContent : Option String := none
  fromId : Option String := none
  toId : Option String := none
  deriving DecidableEq

structure DiffResult where
  added : Nat
  modified : Nat
  removed : Nat
  items : List DiffItem
  fromTimestamp : Int
  toTimestamp : Int
  deriving DecidableEq

/-- The key under which an observation is compared: its topic key, or else the start of its id. -/
def diffKey (o : Observation) : String :=
  (o.val.topicKey.filter (· ≠ "")).getD (String.ofList (o.val.id.toList.take 8))

/-- `_build_map`. -/
def buildMap (os : List Observation) : AList fun _ : String => Observation :=
  latestBy diffKey (·.val.timestamp) os

/-- What is reported of a key. -/
def diffItem (key : String) : Option Observation → Option Observation → Option DiffItem
  | some f, none => some
    { topicKey := key, changeType := .removed, fromContent := f.val.content, fromId := f.val.id }
  | none, some t => some
    { topicKey := key, changeType := .added, toContent := t.val.content, toId := t.val.id }
  | some f, some t =>
    if f.val.content ≠ t.val.content then some
      { topicKey := key, changeType := .modified, fromContent := f.val.content, toContent := t.val.content,
        fromId := f.val.id, toId := t.val.id }
    else none
  | none, none => none

/-- The filters of a diff that are given and not empty. -/
def passes (project obsType : Option String) (o : Observation) : Bool :=
  (project.filter (· ≠ "")).all (fun p => o.val.project = some p) &&
    (obsType.filter (· ≠ "")).all fun t => o.val.type = some t

/-- The comparison of the two lists. -/
def compareMaps (fromTs toTs : Int) (fromObs toObs : List Observation) : DiffResult :=
  let fromMap := buildMap fromObs
  let toMap := buildMap toObs
  let allKeys := (fromMap.keys ++ toMap.keys).dedup.mergeSort (· ≤ ·)
  let items := allKeys.filterMap fun key => diffItem key (fromMap.lookup key) (toMap.lookup key)
  { added := items.countP (·.changeType = .added)
    modified := items.countP (·.changeType = .modified)
    removed := items.countP (·.changeType = .removed)
    items, fromTimestamp := fromTs, toTimestamp := toTs }

def MemoryService.diff (svc : MemoryService) (fromTs toTs : Int) (project obsType : Option String) :
    MemoryProgram DiffResult :=
  if toTs ≤ fromTs then throw (.valueError "from must be before to")
  else do
    let fromObs ← svc.repository.getByTimestampRange 0 fromTs none
    let toObs ← svc.repository.getByTimestampRange (fromTs + 1) toTs none
    return compareMaps fromTs toTs (fromObs.filter (passes project obsType)) (toObs.filter (passes project obsType))

section Snapshots

/-- Under each key, the latest observation up to a time: any of them, where several are of that time. -/
def Snapshot (os : List Observation) (ts : Int) (latest : String → Option Observation) : Prop :=
  ∀ key, Latest (·.val.timestamp) ((os.filter fun o => o.val.timestamp ≤ ts).filter fun o => diffKey o = key)
    (latest key)

/-- How what was there differs from what is there. -/
def change : Option Observation → Option Observation → Option ChangeType
  | none, some _ => some .added
  | some _, none => some .removed
  | some f, some t => if f.val.content ≠ t.val.content then some .modified else none
  | none, none => none

/-- The diff compares the snapshots of the two times, and no two observations without a topic key have one
key. -/
structure ComparesSnapshots (os : List Observation) (result : DiffResult) : Prop where
  reports : ∃ before after, Snapshot os result.fromTimestamp before ∧ Snapshot os result.toTimestamp after ∧
    ∀ key c, (∃ item ∈ result.items, item.topicKey = key ∧ item.changeType = c) ↔
      change (before key) (after key) = some c
  apart : ∀ o ∈ os, ∀ o' ∈ os, o.val.timestamp ≤ result.toTimestamp → o'.val.timestamp ≤ result.toTimestamp →
    o.val.topicKey.filter (· ≠ "") = none → o'.val.topicKey.filter (· ≠ "") = none → o.val.id ≠ o'.val.id →
    diffKey o ≠ diffKey o'

/-- Every key that has an observation up to the first time has one between the two times. -/
def KeysReturn (os : List Observation) (fromTs toTs : Int) : Prop :=
  ∀ o ∈ os, o.val.timestamp ≤ fromTs →
    ∃ o' ∈ os, diffKey o' = diffKey o ∧ fromTs < o'.val.timestamp ∧ o'.val.timestamp ≤ toTs

/-- The ids of the observations without a topic key differ in their first eight characters. -/
def ShortIdsDiffer (os : List Observation) (toTs : Int) : Prop :=
  ∀ o ∈ os, ∀ o' ∈ os, o.val.timestamp ≤ toTs → o'.val.timestamp ≤ toTs →
    o.val.topicKey.filter (· ≠ "") = none → o'.val.topicKey.filter (· ≠ "") = none → o.val.id ≠ o'.val.id →
    o.val.id.toList.take 8 ≠ o'.val.id.toList.take 8

variable {os fromObs toObs : List Observation} {fromTs toTs : Int} {key : String} {o : Observation}

theorem diffKey_of_topicless (h : o.val.topicKey.filter (· ≠ "") = none) :
    diffKey o = String.ofList (o.val.id.toList.take 8) := by
  rw [diffKey, h]
  rfl

theorem diffItem_key {f t : Option Observation} {item : DiffItem} (h : diffItem key f t = some item) :
    item.topicKey = key := by
  unfold diffItem at h
  split at h
  · rw [← Option.some.inj h]
  · rw [← Option.some.inj h]
  · split at h
    · rw [← Option.some.inj h]
    · cases h
  · cases h

theorem diffItem_change (key : String) (f t : Option Observation) :
    (diffItem key f t).map (·.changeType) = change f t := by
  unfold diffItem change
  cases f with
  | none => cases t <;> rfl
  | some f =>
    cases t with
    | none => rfl
    | some t =>
      simp only
      split <;> rfl

/-- A change of a key is reported exactly when the latest observations of the two lists differ so. -/
theorem compareMaps_items {c : ChangeType} :
    (∃ item ∈ (compareMaps fromTs toTs fromObs toObs).items, item.topicKey = key ∧ item.changeType = c) ↔
      change ((buildMap fromObs).lookup key) ((buildMap toObs).lookup key) = some c := by
  rw [← diffItem_change key, Option.map_eq_some_iff]
  constructor
  · intro h
    obtain ⟨item, hitem, hkey, hchange⟩ := h
    obtain ⟨key', -, hdiff⟩ := List.mem_filterMap.mp hitem
    have hsame : key' = key := (diffItem_key hdiff).symm.trans hkey
    rw [hsame] at hdiff
    exact ⟨item, hdiff, hchange⟩
  · intro h
    obtain ⟨item, hdiff, hchange⟩ := h
    refine ⟨item, List.mem_filterMap.mpr ⟨key, ?_, hdiff⟩, diffItem_key hdiff, hchange⟩
    rw [List.mem_mergeSort, List.mem_dedup, List.mem_append]
    by_cases hfrom : key ∈ (buildMap fromObs).keys
    · exact .inl hfrom
    · by_cases hto : key ∈ (buildMap toObs).keys
      · exact .inr hto
      · rw [AList.lookup_eq_none.mpr hfrom, AList.lookup_eq_none.mpr hto] at hdiff
        cases hdiff

/-- The two lists that are compared: what there is up to the first time, and what is after it up to the
second one. -/
structure Windows (os fromObs toObs : List Observation) (fromTs toTs : Int) : Prop where
  before : ∀ o, o ∈ fromObs ↔ o ∈ os ∧ o.val.timestamp ≤ fromTs
  between : ∀ o, o ∈ toObs ↔ o ∈ os ∧ fromTs < o.val.timestamp ∧ o.val.timestamp ≤ toTs

theorem latest_buildMap (list : List Observation) (key : String) :
    Latest (·.val.timestamp) (list.filter fun o => diffKey o = key) ((buildMap list).lookup key) :=
  latest_latestBy list key

theorem lookup_eq_none {list : List Observation} :
    (buildMap list).lookup key = none ↔ ∀ o ∈ list, diffKey o ≠ key := by
  rw [(latest_buildMap list key).eq_none_iff]
  simp

theorem mem_snapshot {ts : Int} :
    o ∈ (os.filter fun o => o.val.timestamp ≤ ts).filter (fun o => diffKey o = key) ↔
      (o ∈ os ∧ o.val.timestamp ≤ ts) ∧ diffKey o = key := by
  rw [List.mem_filter, List.mem_filter]
  simp

section Compared

variable (hwindows : Windows os fromObs toObs fromTs toTs)
include hwindows

theorem snapshot_before : Snapshot os fromTs (buildMap fromObs).lookup := by
  intro key
  apply (latest_buildMap fromObs key).of_mem_iff
  intro o
  rw [mem_snapshot, List.mem_filter, hwindows.before]
  simp

/-- The snapshot of the second time: what the second map has, and else what the first one has. -/
theorem snapshot_after (hle : fromTs ≤ toTs) :
    Snapshot os toTs fun key => ((buildMap toObs).lookup key).or ((buildMap fromObs).lookup key) := by
  intro key
  have hbefore := snapshot_before hwindows key
  have hbetween := latest_buildMap toObs key
  simp only
  cases hto : (buildMap toObs).lookup key with
  | none =>
    rw [Option.none_or]
    apply hbefore.of_mem_iff
    intro o
    rw [mem_snapshot, mem_snapshot]
    constructor
    · intro h
      exact ⟨⟨h.1.1, h.1.2.trans hle⟩, h.2⟩
    · intro h
      refine ⟨⟨h.1.1, ?_⟩, h.2⟩
      by_contra hlater
      exact lookup_eq_none.mp hto o ((hwindows.between o).mpr ⟨h.1.1, not_le.mp hlater, h.1.2⟩) h.2
  | some t =>
    rw [Option.some_or]
    rw [hto] at hbetween
    obtain ⟨ht, hlatest⟩ : t ∈ toObs.filter (fun o => diffKey o = key) ∧
      ∀ o ∈ toObs.filter (fun o => diffKey o = key), o.val.timestamp ≤ t.val.timestamp := hbetween
    obtain ⟨htmem, htkey⟩ := List.mem_filter.mp ht
    obtain ⟨hos, hlater, hupto⟩ := (hwindows.between t).mp htmem
    constructor
    · exact mem_snapshot.mpr ⟨⟨hos, hupto⟩, by simpa using htkey⟩
    · intro o ho
      obtain ⟨⟨hmem, hts⟩, hkey⟩ := mem_snapshot.mp ho
      by_cases hold : o.val.timestamp ≤ fromTs
      · exact hold.trans hlater.le
      · apply hlatest
        rw [List.mem_filter]
        exact ⟨(hwindows.between o).mpr ⟨hmem, not_le.mp hold, hts⟩, by simpa using hkey⟩

/-- The comparison of the windows is that of the snapshots exactly when every key comes back between the two
times and no two of the short ids are one. -/
theorem compareMaps_iff (hlt : fromTs < toTs) :
    ComparesSnapshots os (compareMaps fromTs toTs fromObs toObs) ↔
      KeysReturn os fromTs toTs ∧ ShortIdsDiffer os toTs := by
  constructor
  · intro h
    obtain ⟨before, after, hbefore, hafter, hreports⟩ := h.reports
    constructor
    · intro o ho hts
      by_contra hgone
      have hto : (buildMap toObs).lookup (diffKey o) = none := by
        rw [lookup_eq_none]
        intro o' ho' hkey
        obtain ⟨hmem, hwindow⟩ := (hwindows.between o').mp ho'
        exact hgone ⟨o', hmem, hkey, hwindow⟩
      obtain ⟨f, hfrom⟩ : ∃ f, (buildMap fromObs).lookup (diffKey o) = some f := by
        rw [← Option.ne_none_iff_exists']
        intro hnone
        exact lookup_eq_none.mp hnone o ((hwindows.before o).mpr ⟨ho, hts⟩) rfl
      have hremoved : change (before (diffKey o)) (after (diffKey o)) = some .removed := by
        rw [← hreports, compareMaps_items, hfrom, hto]
        rfl
      have hnone : after (diffKey o) = none := by
        unfold change at hremoved
        split at hremoved
        · cases hremoved
        · assumption
        · split at hremoved <;> cases hremoved
        · assumption
      have hempty := (hafter (diffKey o)).eq_none_iff.mp hnone o
      rw [mem_snapshot] at hempty
      exact hempty ⟨⟨ho, hts.trans hlt.le⟩, rfl⟩
    · intro o ho o' ho' hts hts' htopic htopic' hne hshort
      apply h.apart o ho o' ho' hts hts' htopic htopic' hne
      rw [diffKey_of_topicless htopic, diffKey_of_topicless htopic', hshort]
  · intro h
    obtain ⟨hreturn, hshort⟩ := h
    constructor
    · refine ⟨_, _, snapshot_before hwindows, snapshot_after hwindows hlt.le, ?_⟩
      intro key c
      rw [compareMaps_items]
      suffices hsame : change ((buildMap fromObs).lookup key) ((buildMap toObs).lookup key) =
          change ((buildMap fromObs).lookup key)
            (((buildMap toObs).lookup key).or ((buildMap fromObs).lookup key)) by rw [hsame]
      cases hto : (buildMap toObs).lookup key with
      | some t => rfl
      | none =>
        cases hfrom : (buildMap fromObs).lookup key with
        | none => rfl
        | some f =>
          have hlatest := latest_buildMap fromObs key
          rw [hfrom] at hlatest
          obtain ⟨hf, hkey⟩ := List.mem_filter.mp hlatest.1
          obtain ⟨hos, hts⟩ := (hwindows.before f).mp hf
          obtain ⟨o, ho, hsame, hwindow⟩ := hreturn f hos hts
          have hmiss := lookup_eq_none.mp hto o ((hwindows.between o).mpr ⟨ho, hwindow⟩)
          exact absurd (hsame.trans (by simpa using hkey)) hmiss
    · intro o ho o' ho' hts hts' htopic htopic' hne hkey
      apply hshort o ho o' ho' hts hts' htopic htopic' hne
      rw [diffKey_of_topicless htopic, diffKey_of_topicless htopic'] at hkey
      exact String.ofList_injective hkey

end Compared

end Snapshots

section Diff

variable {svc : MemoryService} {os : List Observation} {s s' : Store} {start stop fromTs toTs : Int}
  {project obsType : Option String} {o : Observation}

theorem mem_of_mapM {rows : List ObservationRow} (h : rows.mapM rowToObservation = .ok os) :
    o ∈ os ↔ ∃ row ∈ rows, rowToObservation row = .ok o := by
  induction mapM_eq_ok.mp h with
  | nil => simp
  | cons hread _ ih =>
    rw [List.mem_cons, ih (mapM_eq_ok.mpr ‹_›)]
    simp [hread, eq_comm]

theorem readable_of_mapM {rows : List ObservationRow} (h : rows.mapM rowToObservation = .ok os) :
    ∀ row ∈ rows, Readable row := by
  induction mapM_eq_ok.mp h with
  | nil => simp
  | cons hread _ ih => exact List.forall_mem_cons.mpr ⟨⟨_, hread⟩, ih (mapM_eq_ok.mpr ‹_›)⟩

theorem timestamp_of_read {row : ObservationRow} (h : rowToObservation row = .ok o) :
    o.val.timestamp = row.timestamp := (Except.ok.inj (observation_eq_ok.mp h).timestamp).symm

/-- The observations of a range of times are those that are stored of it. -/
theorem getByTimestampRange_returns {repo : ObservationRepository} {out : Except Exn (List Observation)}
    (hos : s.1.observations.rows.mapM rowToObservation = .ok os)
    (hrun : (repo.getByTimestampRange start stop none).Runs Store.serving s out s') :
    s' = s ∧ ∃ list, out = .ok list ∧
      ∀ o, o ∈ list ↔ o ∈ os ∧ start ≤ o.val.timestamp ∧ o.val.timestamp ≤ stop := by
  obtain ⟨e, hcall, -⟩ | ⟨rows, hcall, hout⟩ := ObservationRepository.readRows_runs.mp hrun
  · obtain ⟨⟨-, rows, -, hanswer⟩, -⟩ := memoryCall_runs.mp hcall
    cases hanswer
  · obtain ⟨⟨hsame, listed, hlisting, hanswer⟩, hsync⟩ := memoryCall_runs.mp hcall
    have hrows : rows = listed := Except.ok.inj hanswer
    subst hrows
    have hmem : ∀ row, row ∈ rows ↔
        row ∈ s.1.observations.rows ∧ start ≤ row.timestamp ∧ row.timestamp ≤ stop := by
      intro row
      rw [hlisting.mem_iff, List.mem_filter]
      simp [MemoryStore.matchesFilter, ObservationRepository.projectFilter, normalizeProject]
    refine ⟨Prod.ext hsame hsync, ?_⟩
    obtain ⟨list, hlist⟩ : ∃ list, rows.mapM rowToObservation = .ok list := by
      apply exists_mapM_eq_ok
      intro row hrow
      exact readable_of_mapM hos row ((hmem row).mp hrow).1
    refine ⟨list, hout.trans hlist, ?_⟩
    intro o
    rw [mem_of_mapM hlist, mem_of_mapM hos]
    constructor
    · intro h
      obtain ⟨row, hrow, hread⟩ := h
      rw [timestamp_of_read hread]
      exact ⟨⟨row, ((hmem row).mp hrow).1, hread⟩, ((hmem row).mp hrow).2⟩
    · intro h
      obtain ⟨⟨row, hrow, hread⟩, hrange⟩ := h
      rw [timestamp_of_read hread] at hrange
      exact ⟨row, (hmem row).mpr ⟨hrow, hrange⟩, hread⟩

/-- A diff compares the windows of the observations that pass its filters. -/
theorem diff_runs {out : Except Exn DiffResult} (hlt : fromTs < toTs)
    (hos : s.1.observations.rows.mapM rowToObservation = .ok os)
    (hrun : (svc.diff fromTs toTs project obsType).Runs Store.serving s out s') :
    ∃ fromObs toObs, out = .ok (compareMaps fromTs toTs fromObs toObs) ∧
      Windows (os.filter (passes project obsType)) fromObs toObs fromTs toTs := by
  rw [MemoryService.diff, if_neg (not_le.mpr hlt)] at hrun
  obtain ⟨e, hfrom, -⟩ | ⟨fromObs, s₁, hfrom, hrest⟩ := Program.runs_bind.mp hrun
  · obtain ⟨-, list, hlist, -⟩ := getByTimestampRange_returns hos hfrom
    cases hlist
  · obtain ⟨rfl, list, hlist, hbefore⟩ := getByTimestampRange_returns hos hfrom
    cases hlist
    obtain ⟨e, hto, -⟩ | ⟨toObs, s₂, hto, hret⟩ := Program.runs_bind.mp hrest
    · obtain ⟨-, list, hlist, -⟩ := getByTimestampRange_returns hos hto
      cases hlist
    · obtain ⟨rfl, list, hlist, hbetween⟩ := getByTimestampRange_returns hos hto
      cases hlist
      refine ⟨_, _, hret.1, ?_, ?_⟩
      · intro o
        have hts : 0 ≤ o.val.timestamp := (postInit_eq_ok.mp o.property).timestamp
        rw [List.mem_filter, List.mem_filter, hbefore]
        constructor
        · intro h
          exact ⟨⟨h.1.1, h.2⟩, h.1.2.2⟩
        · intro h
          exact ⟨⟨h.1.1, hts, h.2⟩, h.1.2⟩
      · intro o
        rw [List.mem_filter, List.mem_filter, hbetween]
        constructor
        · intro h
          exact ⟨⟨h.1.1, h.2⟩, Int.lt_of_add_one_le h.1.2.1, h.1.2.2⟩
        · intro h
          exact ⟨⟨h.1.1, Int.add_one_le_of_lt h.2.1, h.2.2⟩, h.1.2⟩

section Example

/-- A note on a topic, of time zero. -/
def topicNote : Observation := ⟨{ id := "n", timestamp := 0, content := "note", topicKey := some "t" }, rfl⟩

def diffService : MemoryService := ⟨plainRepository, fun content metadata => (content, metadata)⟩

theorem topicNote_diff : ∃ (s s' : Store) (read : Observation) (out : Except Exn DiffResult),
    s.1.observations.rows.mapM rowToObservation = .ok [read] ∧ read.val.timestamp = 0 ∧
      (diffService.diff 1 2 none none).Runs Store.serving s out s' := by
  obtain ⟨s, hcreate⟩ : ∃ s, (plainRepository.create topicNote).Runs Store.serving ({}, {}) (.ok ()) s ∧
      ∃ (read : Observation) (out : Except Exn DiffResult) (s' : Store),
        s.1.observations.rows.mapM rowToObservation = .ok [read] ∧ read.val.timestamp = 0 ∧
          (diffService.diff 1 2 none none).Runs Store.serving s out s' :=
    ⟨_, runs_of_exec rfl, _, _, _, rfl, rfl, runs_of_exec rfl⟩
  obtain ⟨-, read, out, s', hread, hts, hrun⟩ := hcreate
  exact ⟨s, s', read, out, hread, hts, hrun⟩

/-- A note on the topic for a project, of the later time. -/
def newerNote : Observation :=
  ⟨{ id := "m", timestamp := 2, content := "newer", topicKey := some "t", project := some "p" }, rfl⟩

theorem revisited_diff : ∃ (s s' : Store) (os : List Observation) (out : Except Exn DiffResult),
    s.1.observations.rows.mapM rowToObservation = .ok os ∧
      os.map (fun o => (o.val.timestamp, o.val.topicKey)) = [(0, some "t"), (2, some "t")] ∧
      (diffService.diff 1 2 none none).Runs Store.serving s out s' := by
  obtain ⟨s₁, s₂, -, -, hread⟩ : ∃ s₁ s₂,
      (plainRepository.create topicNote).Runs Store.serving ({}, {}) (.ok ()) s₁ ∧
      (plainRepository.create newerNote).Runs Store.serving s₁ (.ok ()) s₂ ∧
      ∃ (os : List Observation) (out : Except Exn DiffResult) (s' : Store),
        s₂.1.observations.rows.mapM rowToObservation = .ok os ∧
        os.map (fun o => (o.val.timestamp, o.val.topicKey)) = [(0, some "t"), (2, some "t")] ∧
          (diffService.diff 1 2 none none).Runs Store.serving s₂ out s' :=
    ⟨_, _, runs_of_exec rfl, runs_of_exec rfl, _, _, _, rfl, rfl, runs_of_exec rfl⟩
  obtain ⟨os, out, s', hos, hread, hrun⟩ := hread
  exact ⟨s₂, s', os, out, hos, hread, hrun⟩

end Example

end Diff

end ForkAgent.Memory

import ForkAgent.Memory.Readable

/-!
# Saves under one topic

A save looks for its topic key in small letters, and for its project as it is given; a new row keeps
the key as it is given, and has its project normalised. After the first save of a topic the others
find its row when the two spellings agree.
-/

namespace ForkAgent.Memory

open Effects Storage Sync MemoryStore

/-- The arguments make an observation, whatever its id and time. -/
def Accepted (svc : MemoryService) (args : SaveArgs) : Prop :=
  ∀ id now, id ≠ "" → (svc.saved args id now).Valid

theorem accepted_of_valid {svc : MemoryService} {args : SaveArgs} {id : String} {now : Nat}
    (h : (svc.saved args id now).Valid) : Accepted svc args := by
  intro id' now' hid
  exact ⟨hid, Int.natCast_nonneg _, h.contentNull, h.content, h.idempotencyKey, h.topicKey, h.topicKeySpaces,
    h.topicKeyNull, h.topicKeyLength, h.revisionCount, h.type, h.project, h.projectNull⟩

namespace MemoryService

variable (svc : MemoryService)

/-- The save, once it knows which observation is there. -/
def saveFound (args : SaveArgs) (existing : Option Observation) : MemoryProgram Observation := do
  let id ← memoryCall .uuid4
  let now ← memoryCall .timeMs
  let observation ← .ofExcept (construct ObservationFields.postInit (svc.saved args id now))
  match existing with
  | some _ => svc.repository.upsertTopicKey observation
  | none =>
    svc.repository.create observation
    return observation

theorem save_eq (args : SaveArgs) :
    svc.save args = svc.existingForTopic args >>= fun existing => svc.saveFound args existing := rfl

end MemoryService

section Statements

variable {svc : MemoryService} {args : SaveArgs} {s : Store}
variable {Q : Except Exn Observation → Store → Prop}

theorem existingForTopic_eq {key : String} (hkey : args.topicKey = some key) (hne : key ≠ "") :
    svc.existingForTopic args = svc.repository.getByTopicKey key args.project := by
  have hfilter : args.topicKey.filter (· ≠ "") = some key := by
    rw [hkey]
    exact if_pos (decide_eq_true hne)
  rw [MemoryService.existingForTopic, hfilter]

theorem getByTopicKey_always {repo : ObservationRepository} {key : String} {project : Option String} :
    (repo.getByTopicKey key project).Always Store.serve (fun _ _ => True)
      (fun r u => u = s ∧ ∃ row, s.1.observations.Finds (normalizeTopicKey repo.lower key)
        (project.filter (· ≠ "")) row ∧ r = row.mapM rowToObservation) s := by
  refine statement_always.mpr ⟨trivial, fun row u hserve => ?_, fun e u hserve => ?_⟩
  · obtain ⟨⟨hmemory, row', hfinds, heq⟩, hsync⟩ := hserve
    cases heq
    exact (Program.always_ofExcept _).mpr ⟨Prod.ext hmemory hsync, row, hfinds, rfl⟩
  · obtain ⟨⟨-, row, -, heq⟩, -⟩ := hserve
    cases heq

theorem save_always {key : String} (hkey : args.topicKey = some key) (hne : key ≠ "")
    (hlookup : ∀ row, s.1.observations.Finds (normalizeTopicKey svc.repository.lower key)
      (args.project.filter (· ≠ "")) row →
      (∀ e, row.mapM rowToObservation = .error e → Q (.error e) s) ∧
        ∀ existing, row.mapM rowToObservation = .ok existing →
          (svc.saveFound args existing).Always Store.serve (fun _ _ => True) Q s) :
    (svc.save args).Always Store.serve (fun _ _ => True) Q s := by
  rw [svc.save_eq, existingForTopic_eq hkey hne]
  refine getByTopicKey_always.bind ?_ ?_
  · rintro existing u ⟨rfl, row, hfinds, heq⟩
    exact (hlookup row hfinds).2 existing heq.symm
  · rintro e u ⟨rfl, row, hfinds, heq⟩
    exact (hlookup row hfinds).1 e heq.symm

/-- A save makes its observation under a fresh id, or is refused. -/
theorem saveFound_always {existing : Option Observation}
    (hrefused : ∀ e, ¬ Accepted svc args → Q (.error e) s)
    (hmade : ∀ (o : Observation) id now, Accepted svc args → o.val = svc.saved args id now →
      Program.Always Store.serve (fun _ _ => True) Q (match existing with
        | some _ => svc.repository.upsertTopicKey o
        | none => do
          svc.repository.create o
          return o) s) :
    (svc.saveFound args existing).Always Store.serve (fun _ _ => True) Q s := by
  refine memoryCall_always.mpr ⟨trivial, fun id u hserve => ?_, fun e u hserve => ?_⟩
  · obtain ⟨⟨hmemory, id', hid, heq⟩, hsync⟩ := hserve
    cases heq
    obtain rfl : u = s := Prod.ext hmemory hsync
    refine memoryCall_always.mpr ⟨trivial, fun now v hserve => ?_, fun e v hserve => ?_⟩
    · obtain rfl : v = u := Prod.ext hserve.1.1 hserve.2
      refine (Program.always_ofExcept_bind _ _).mpr ⟨fun o ho => ?_, fun e he => ?_⟩
      · have ho := construct_eq_ok.mp ho
        have hvalid : (svc.saved args id now).Valid := ho ▸ postInit_eq_ok.mp o.property
        exact hmade o id now (accepted_of_valid hvalid) ho
      · refine hrefused e fun haccepted => ?_
        have hvalid := postInit_eq_ok.mpr (haccepted id now hid)
        have hconstruct : construct ObservationFields.postInit (svc.saved args id now) = .ok ⟨_, hvalid⟩ :=
          construct_eq_ok.mpr rfl
        rw [hconstruct] at he
        cases he
    · obtain ⟨⟨-, now, heq⟩, -⟩ := hserve
      cases heq
  · obtain ⟨⟨-, id, -, heq⟩, -⟩ := hserve
    cases heq

variable {repo : ObservationRepository} {o : Observation}

/-- The row of an upsert after its revision. -/
def ObservationRepository.revised (repo : ObservationRepository) (o : ObservationFields) (key : String)
    (row : ObservationRow) : ObservationRow :=
  ObservationTable.revise o (normalizeTopicKey repo.lower key) (normalizeProject repo.lower o.project) row

/-- What the subquery of an upsert may pick. -/
def ObservationRepository.Selects (repo : ObservationRepository) (t : ObservationTable) (key : String)
    (project : Option String) (row : Option ObservationRow) : Prop :=
  t.Picks (normalizeTopicKey repo.lower key) (normalizeProject repo.lower project) row

theorem recordMutation_serves {op : MutationOp} {entityKey : String} {project : Option String}
    {payload : JsonObject} :
    (repo.recordMutation op entityKey project payload).Always Store.serve (fun _ _ => True)
      (fun r u => r = .ok () ∧ u.1 = s.1) s := by
  unfold ObservationRepository.recordMutation
  split_ifs
  · refine ⟨trivial, ?_⟩
    rintro (e | v) u ⟨hserve, hmemory⟩
    · cases hserve.1
    · exact ⟨rfl, hmemory⟩
  · exact ⟨rfl, rfl⟩

/-- A new row is added, unless an index refuses it. -/
theorem create_always
    (hrefused : ∀ e, ¬ s.1.observations.Admits (repo.row o.val) → Q (.error e) s)
    (hcreated : ∀ u : Store, s.1.observations.Admits (repo.row o.val) →
      u.1.observations.rows = s.1.observations.rows ++ [repo.row o.val] → Q (.ok o) u) :
    (do repo.create o
        return o).Always Store.serve (fun _ _ => True) Q s := by
  unfold ObservationRepository.create
  rw [Program.bind_assoc]
  refine statement_always.mpr ⟨trivial, fun v u hserve => ?_, fun e u hserve => ?_⟩
  · obtain ⟨hadmits, hrows⟩ := insert_ok (.inl hserve.1)
    refine recordMutation_serves.bind ?_ ?_
    · rintro _ x ⟨-, hmemory⟩
      refine hcreated x hadmits ?_
      rw [hmemory]
      exact hrows
    · rintro e x ⟨he, -⟩
      cases he
  · obtain rfl : u = s := Prod.ext (step_error (.inl hserve.1)) hserve.2
    refine hrefused _ fun hadmits => ?_
    obtain ⟨hwrite, hsync⟩ := hserve
    have hwrite : Write u.1 (u.1.observations.insert (repo.row o.val)) () (.error e) u.1 := hwrite
    cases hinsert : u.1.observations.insert (repo.row o.val) with
    | none => exact ObservationTable.insert_eq_none.mp hinsert hadmits
    | some t =>
      rw [hinsert] at hwrite
      cases hwrite.1

/-- The row that the upsert picks is revised, unless that is refused. -/
theorem upsertTopicKey_always {key : String} (hkey : o.val.topicKey = some key)
    (hempty : ∀ e, normalizeTopicKey repo.lower key = "" → Q (.error e) s)
    (hnone : ∀ e, repo.Selects s.1.observations key o.val.project none → Q (.error e) s)
    (hrefused : ∀ e row, repo.Selects s.1.observations key o.val.project (some row) →
      (∀ t result, ¬ (s.1.observations.update (repo.revised o.val key row) = some t ∧
        rowToObservation (repo.revised o.val key row) = .ok result)) → Q (.error e) s)
    (hrevised : ∀ row t result (u : Store), normalizeTopicKey repo.lower key ≠ "" →
      repo.Selects s.1.observations key o.val.project (some row) →
      s.1.observations.update (repo.revised o.val key row) = some t →
      rowToObservation (repo.revised o.val key row) = .ok result →
      u.1.observations = t → Q (.ok result) u) :
    (repo.upsertTopicKey o).Always Store.serve (fun _ _ => True) Q s := by
  obtain ⟨e, hrefused, hK⟩ | ⟨key', hkey', hK, hprogram⟩ := repo.upsertTopicKey_cases o
  · rw [hrefused]
    exact hempty e (hK key hkey)
  · obtain rfl : key = key' := Option.some.inj (hkey.symm.trans hkey')
    rw [hprogram]
    refine statement_always.mpr ⟨trivial, fun result u hserve => ?_, fun e u hserve => ?_⟩
    · obtain ⟨⟨row, hpicks, hupsert⟩, hsync⟩ := hserve
      obtain ⟨old, t, rfl, hupdate, hread, hu⟩ := upsert_ok hupsert
      refine recordMutation_serves.bind ?_ ?_
      · rintro _ x ⟨-, hmemory⟩
        refine hrevised old t result x hK hpicks hupdate hread ?_
        rw [hmemory, hu]
      · rintro e x ⟨he, -⟩
        cases he
    · obtain rfl : u = s := Prod.ext (step_error (.inl hserve.1)) hserve.2
      obtain ⟨⟨row, hpicks, hupsert⟩, -⟩ := hserve
      cases row with
      | none => exact hnone _ hpicks
      | some row =>
        refine hrefused _ row hpicks fun t result => ?_
        rintro ⟨hupdate, hread⟩
        unfold ObservationRepository.revised at hupdate hread
        unfold Upsert at hupsert
        simp only [hupdate, hread] at hupsert
        cases hupsert.1

theorem save_unaccepted (h : ¬ Accepted svc args) :
    (svc.save args).Always Store.serve (fun _ _ => True) (fun out _ => ∃ e, out = .error e) s := by
  have hfound : ∀ existing, (svc.saveFound args existing).Always Store.serve (fun _ _ => True)
      (fun out _ => ∃ e, out = .error e) s := by
    intro existing
    exact saveFound_always (fun e _ => ⟨e, rfl⟩) fun o id now haccepted _ => absurd haccepted h
  by_cases hkey : args.topicKey.filter (· ≠ "") = none
  · have hnone : svc.existingForTopic args = return none := by
      rw [MemoryService.existingForTopic, hkey]
    rw [svc.save_eq, hnone]
    exact hfound none
  · obtain ⟨key, hkey⟩ := Option.ne_none_iff_exists'.mp hkey
    rw [Option.filter_eq_some_iff] at hkey
    refine save_always hkey.1 (of_decide_eq_true hkey.2) fun row _ => ⟨fun e _ => ⟨e, rfl⟩, fun existing _ => hfound existing⟩

end Statements

section Letters

theorem toLower_idem (c : Char) : c.toLower.toLower = c.toLower := by
  delta Char.toLower
  grind

theorem toLower_eq {c d : Char} (hd : d.val < 97) (h : c.toLower = d) : c = d := by
  delta Char.toLower at h
  split_ifs at h with hupper
  · subst h
    grind
  · exact h

theorem sqlLower_idem (text : String) : sqlLower (sqlLower text) = sqlLower text := by
  simp only [sqlLower, String.toList_ofList, List.map_map]
  congr 1
  exact List.map_congr_left fun c _ => toLower_idem c

theorem mem_sqlLower {c : Char} (hc : c.val < 97) {text : String} (h : c ∈ (sqlLower text).toList) :
    c ∈ text.toList := by
  rw [sqlLower, String.toList_ofList] at h
  obtain ⟨d, hd, heq⟩ := List.mem_map.mp h
  rw [← toLower_eq hc heq]
  exact hd

theorem length_sqlLower (text : String) : (sqlLower text).length = text.length := by
  rw [sqlLower, String.length_ofList, List.length_map, String.length_toList]

end Letters

section OneRow

variable {svc : MemoryService} {args : SaveArgs} {s : Store} {row : ObservationRow} {key stored name : String}

theorem withTopicKey_single (hrows : s.1.observations.rows = [row]) (hstored : row.topicKey = some stored) (K : String) :
    s.1.observations.withTopicKey K = if sqlLower stored = K then [row] else [] := by
  by_cases hK : sqlLower stored = K <;> simp [ObservationTable.withTopicKey, hrows, hstored, hK]

/-- The only row of a topic is found by a save that spells the topic and the project as it does. -/
theorem finds_single (hrows : s.1.observations.rows = [row]) (hstored : row.topicKey = some stored)
    (hproject : row.project = some name) {K p : String} {found : Option ObservationRow}
    (h : s.1.observations.Finds K (some p) found) :
    found = if sqlLower stored = K ∧ p = name then some row else none := by
  unfold ObservationTable.Finds at h
  rw [withTopicKey_single hrows hstored] at h
  by_cases hK : sqlLower stored = K
  · by_cases hp : p = name
    · simp only [hK, hp, if_true, and_self] at h ⊢
      cases found with
      | none => simp [Latest, hproject] at h
      | some r => simpa using List.mem_of_mem_filter h.1
    · simp only [hK, hp, if_true, and_false, if_false] at h ⊢
      cases found with
      | none => rfl
      | some r =>
        have hmem := h.1
        simp [hproject, Ne.symm hp] at hmem
  · simp only [hK, if_false, false_and] at h ⊢
    cases found with
    | none => rfl
    | some r => simp [Latest] at h

/-- The row of a topic after some saves. -/
structure TopicRow (name stored content : String) (revisions : Int) (row : ObservationRow) : Prop where
  project : row.project = some name
  topicKey : row.topicKey = some stored
  content : row.content = content
  revisionCount : row.revisionCount = revisions
  valid : (bareFields row).Valid

theorem TopicRow.readable {content : String} {revisions : Int} (h : TopicRow name stored content revisions row)
    (hname : strip name ≠ "") (hnull : '\x00' ∉ name.toList) : Readable row := by
  refine readable_iff.mpr ⟨h.valid, ?_⟩
  have hne : name ≠ "" := by
    rintro rfl
    exact hname rfl
  rw [h.project, ObservationRow.readProject, if_pos hne]
  exact ⟨hname, hnull⟩

/-- What a save makes of the row that it revises. -/
theorem TopicRow.revised {content : String} {revisions : Int} (h : TopicRow name stored content revisions row)
    {o : ObservationFields} (ho : o.Valid) (hkey : normalizeTopicKey svc.repository.lower key = sqlLower stored)
    (hname : normalizeProject svc.repository.lower o.project = some name) :
    TopicRow name (sqlLower stored) o.content (revisions + 1) (svc.repository.revised o key row) := by
  have hstored : ∀ k ∈ (bareFields row).topicKey, k = stored := by
    intro k hk
    exact Option.some.inj (hk.symm.trans h.topicKey)
  have hmem : stored ∈ (bareFields row).topicKey := h.topicKey
  have hcount := h.valid.revisionCount
  refine ⟨hname, congrArg some hkey, rfl, congrArg (· + 1) h.revisionCount, ?_⟩
  have hsmall : ∀ k ∈ (bareFields (svc.repository.revised o key row)).topicKey, k = sqlLower stored := by
    intro k hk
    exact (Option.some.inj hk).symm.trans hkey
  refine ⟨h.valid.id, ho.timestamp, ho.contentNull, ho.content, h.valid.idempotencyKey, ?_, ?_, ?_, ?_, ?_,
    readType_allowed, by simp [bareFields], by simp [bareFields]⟩
  · intro k hk hempty
    rw [hsmall k hk] at hempty
    have hlength := congrArg String.length hempty
    rw [length_sqlLower] at hlength
    exact h.valid.topicKey stored hmem (String.length_eq_zero_iff.mp hlength)
  · intro k hk hspace
    rw [hsmall k hk] at hspace
    exact h.valid.topicKeySpaces stored hmem (mem_sqlLower (by decide) hspace)
  · intro k hk hnull
    rw [hsmall k hk] at hnull
    exact h.valid.topicKeyNull stored hmem (mem_sqlLower (by decide) hnull)
  · intro k hk
    rw [hsmall k hk, length_sqlLower]
    exact h.valid.topicKeyLength stored hmem
  · show 1 ≤ if row.revisionCount + 1 = 0 then 1 else row.revisionCount + 1
    have hcount : 1 ≤ if row.revisionCount = 0 then 1 else row.revisionCount := hcount
    split_ifs at hcount ⊢ <;> omega

theorem save_joins {content : String} {revisions : Int} (hrows : s.1.observations.rows = [row])
    (hrow : TopicRow name stored content revisions row) (hkey : args.topicKey = some key)
    (hsame : normalizeTopicKey svc.repository.lower key = sqlLower stored)
    (hproject : args.project = some name) (hname : normalizeProjectName svc.repository.lower name = name)
    (haccepted : Accepted svc args) :
    (svc.save args).Always Store.serve (fun _ _ => True) (fun out u => (∃ result, out = .ok result) ∧
      ∃ row', u.1.observations.rows = [row'] ∧
        TopicRow name (sqlLower stored) (svc.redactObservationData args.content args.metadata).1 (revisions + 1) row') s := by
  have hvalid := haccepted "a" 0 (by decide)
  have hproject' : (svc.saved args "a" 0).project = some name := hproject
  have hblank := hvalid.project name hproject'
  have hreadable := hrow.readable hblank (hvalid.projectNull name hproject')
  have hne : name ≠ "" := by
    rintro rfl
    exact hblank rfl
  refine save_always hkey (hvalid.topicKey key hkey) fun found hfinds => ?_
  have hfilter : args.project.filter (· ≠ "") = some name := by
    rw [hproject]
    exact if_pos (decide_eq_true hne)
  rw [hfilter] at hfinds
  have hfound := finds_single hrows hrow.topicKey hrow.project hfinds
  rw [if_pos ⟨hsame.symm, rfl⟩] at hfound
  subst hfound
  obtain ⟨read, hread⟩ := hreadable
  have hmapM : (some row).mapM rowToObservation = .ok (some read) := by
    simp [hread]
  refine ⟨fun e he => ?_, fun existing hexisting => ?_⟩
  · rw [hmapM] at he
    cases he
  rw [hmapM] at hexisting
  cases hexisting
  refine saveFound_always (fun e h => absurd haccepted h) fun o id now _ ho => ?_
  have hkey' : o.val.topicKey = some key := by
    rw [ho]
    exact hkey
  have hproject' : normalizeProject svc.repository.lower o.val.project = some name := by
    rw [ho]
    show args.project.map (normalizeProjectName svc.repository.lower) = some name
    rw [hproject, Option.map_some, hname]
  have hrow' := hrow.revised (postInit_eq_ok.mp o.property) hsame hproject'
  have hcontent : o.val.content = (svc.redactObservationData args.content args.metadata).1 := by
    rw [ho]
    rfl
  -- the only row is picked, and nothing stands in the way of its revision
  have hselects : ∀ pick, svc.repository.Selects s.1.observations key o.val.project pick → pick = some row := by
    intro pick hpick
    have hfilter : (normalizeProject svc.repository.lower o.val.project).filter (· ≠ "") = some name := by
      rw [hproject']
      exact if_pos (decide_eq_true hne)
    unfold ObservationRepository.Selects ObservationTable.Picks at hpick
    rw [hfilter, hsame, withTopicKey_single hrows hrow.topicKey, if_pos rfl] at hpick
    cases pick with
    | none => cases hpick
    | some picked => rw [List.mem_singleton.mp hpick.1]
  have hupdate : ∃ t, s.1.observations.update (svc.repository.revised o.val key row) = some t ∧
      t.rows = [svc.repository.revised o.val key row] := by
    have hindexed : Indexed [svc.repository.revised o.val key row] :=
      ⟨List.pairwise_singleton _ _, List.pairwise_singleton _ _, List.pairwise_singleton _ _⟩
    have hset : updateWhere (fun r => r.id == (svc.repository.revised o.val key row).id)
        (fun _ => svc.repository.revised o.val key row) s.1.observations.rows =
          [svc.repository.revised o.val key row] := by
      rw [hrows]
      simp [updateWhere, ObservationRepository.revised, ObservationTable.revise]
    refine ⟨⟨_, hindexed⟩, ?_, rfl⟩
    unfold ObservationTable.update
    rw [hset]
    exact ObservationTable.commit_of_indexed hindexed
  obtain ⟨t, hupdate, ht⟩ := hupdate
  have hreadable' := hrow'.readable hblank (hvalid.projectNull name (by assumption))
  obtain ⟨result, hresult⟩ := hreadable'
  refine upsertTopicKey_always hkey' ?_ ?_ ?_ ?_
  · intro e hempty
    rw [hsame] at hempty
    have hlength := congrArg String.length hempty
    rw [length_sqlLower] at hlength
    exact absurd (String.length_eq_zero_iff.mp hlength) (hrow.valid.topicKey stored hrow.topicKey)
  · intro e hpick
    cases hselects none hpick
  · intro e picked hpick hrefused
    cases hselects _ hpick
    exact absurd ⟨hupdate, hresult⟩ (hrefused t result)
  · intro picked t' result' u _ hpick hupdate' hread' hu
    cases hselects _ hpick
    rw [hupdate] at hupdate'
    cases hupdate'
    refine ⟨⟨result', rfl⟩, _, (congrArg ObservationTable.rows hu).trans ht, ?_⟩
    rw [← hcontent]
    exact hrow'

/-- A save that spells the topic or the project in another way makes a second row, or raises. -/
theorem save_misses {content : String} {revisions : Int} (hrows : s.1.observations.rows = [row])
    (hrow : TopicRow name stored content revisions row) (hkey : args.topicKey = some key)
    (hmiss : ¬ (sqlLower stored = normalizeTopicKey svc.repository.lower key ∧ args.project = some name))
    {p : String} (hproject : args.project = some p) :
    (svc.save args).Always Store.serve (fun _ _ => True) (fun out u => (∃ e, out = .error e) ∨
      u.1.observations.rows.length = 2) s := by
  by_cases haccepted : Accepted svc args
  · have hvalid := haccepted "a" 0 (by decide)
    have hne : p ≠ "" := by
      rintro rfl
      exact hvalid.project "" hproject rfl
    refine save_always hkey (hvalid.topicKey key hkey) fun found hfinds => ⟨fun e _ => .inl ⟨e, rfl⟩, ?_⟩
    have hfilter : args.project.filter (· ≠ "") = some p := by
      rw [hproject]
      exact if_pos (decide_eq_true hne)
    rw [hfilter] at hfinds
    have hfound := finds_single hrows hrow.topicKey hrow.project hfinds
    rw [hproject, Option.some.injEq] at hmiss
    rw [if_neg hmiss] at hfound
    subst hfound
    intro existing hexisting
    cases hexisting
    refine saveFound_always (fun e _ => .inl ⟨e, rfl⟩) fun o id now _ ho => ?_
    refine create_always (fun e _ => .inl ⟨e, rfl⟩) fun u _ hu => .inr ?_
    rw [hu, hrows]
    rfl
  · exact (save_unaccepted haccepted).mono (fun _ _ h => h) fun _ _ h => .inl h

/-- The first save of a topic. -/
theorem save_starts (hrows : s.1.observations.rows = []) (hkey : args.topicKey = some key) {p : String}
    (hproject : args.project = some p) (haccepted : Accepted svc args) :
    (svc.save args).Always Store.serve (fun _ _ => True) (fun out u => (∃ result, out = .ok result) ∧
      ∃ row, u.1.observations.rows = [row] ∧ TopicRow (normalizeProjectName svc.repository.lower p) key
        (svc.redactObservationData args.content args.metadata).1 1 row) s := by
  have hvalid := haccepted "a" 0 (by decide)
  refine save_always hkey (hvalid.topicKey key hkey) fun found hfinds => ?_
  have hnone : found = none := by
    cases found with
    | none => rfl
    | some row =>
      have hmem : row ∈ s.1.observations.rows := by
        unfold ObservationTable.Finds at hfinds
        split at hfinds
        · exact List.mem_of_mem_filter hfinds.1
        · exact List.mem_of_mem_filter (List.mem_of_mem_filter hfinds.1)
      rw [hrows] at hmem
      cases hmem
  subst hnone
  refine ⟨fun e he => ?_, fun existing hexisting => ?_⟩
  · cases he
  cases hexisting
  refine saveFound_always (fun e h => absurd haccepted h) fun o id now _ ho => ?_
  refine create_always (fun e hrefused => ?_) fun u _ hu => ⟨⟨o, rfl⟩, svc.repository.row o.val, ?_, ?_⟩
  · refine absurd ⟨?_, ?_, ?_⟩ hrefused <;> simp [hrows]
  · rw [hu, hrows]
    rfl
  · refine ⟨?_, ?_, ?_, ?_, bareFields_valid (postInit_eq_ok.mp o.property)⟩
    · rw [ho]
      show args.project.map (normalizeProjectName svc.repository.lower) = _
      rw [hproject]
      rfl
    · rw [ho]
      exact hkey
    · rw [ho]
      rfl
    · rw [ho]
      rfl

end OneRow

section Growth

variable {svc : MemoryService} {args : SaveArgs}

/-- The calls of a save: none of them removes a row. -/
def Keeps : storeSignature.Call → Prop
  | .inl (.insert _) | .inl (.upsertTopicKey ..) => True
  | .inl c => isRead c = true
  | .inr _ => True

theorem keeps_grows {a : Answered storeSignature Exn} {s s' : Store} (hcall : Keeps a.call)
    (h : Store.serve a s s') : s.1.observations.rows.length ≤ s'.1.observations.rows.length := by
  obtain ⟨c | c, r⟩ := a
  · have hstep : MemoryStore.step ⟨c, r⟩ s.1 s'.1 := .inl h.1
    cases r with
    | error e => rw [step_error hstep]
    | ok v =>
      cases c with
      | insert row =>
        rw [(insert_ok hstep).2, List.length_append]
        omega
      | upsertTopicKey o key project =>
        obtain ⟨old, -, -, -, -, hrows⟩ := upsert_row hstep
        rw [hrows, updateWhere, List.length_map]
      | update row => cases hcall
      | delete id => cases hcall
      | mergeProjects canonical sources => cases hcall
      | deleteOlderThan cutoff => cases hcall
      | _ => rw [(serve_of_ok hstep).1]
  · rw [h.2]

theorem keeps_statement {f : Exn → Exn} {c : MemoryCall} (hc : Keeps (.inl c)) :
    (raising f (memoryCall c)).OnlyCalls Keeps := by
  have hcall : (memoryCall c).OnlyCalls Keeps := .perform (σ := storeSignature) hc
  exact hcall.handle fun e => Program.onlyCalls_fail (f e)

theorem keeps_recordMutation {repo : ObservationRepository} {op : MutationOp} {entityKey : String}
    {project : Option String} {payload : JsonObject} :
    (repo.recordMutation op entityKey project payload).OnlyCalls Keeps := by
  unfold ObservationRepository.recordMutation
  split_ifs
  · have hcall : (syncCall (.recordMutation entityKey op payload (project.getD ""))).OnlyCalls Keeps :=
      .perform (σ := storeSignature) trivial
    exact (hcall.bind fun _ => Program.onlyCalls_ret ()).handle fun _ => Program.onlyCalls_ret ()
  · trivial

theorem keeps_upsert {repo : ObservationRepository} {o : Observation} :
    (repo.upsertTopicKey o).OnlyCalls Keeps := by
  obtain ⟨e, hrefused, -⟩ | ⟨key, -, -, hprogram⟩ := repo.upsertTopicKey_cases o
  · rw [hrefused]
    exact Program.onlyCalls_fail e
  · rw [hprogram]
    refine (keeps_statement (c := repo.upsertCall o key) trivial).bind fun result => ?_
    exact keeps_recordMutation.bind fun _ => Program.onlyCalls_ret result

theorem keeps_save : (svc.save args).OnlyCalls Keeps := by
  have huuid : (memoryCall .uuid4).OnlyCalls Keeps := .perform (σ := storeSignature) rfl
  have htime : (memoryCall .timeMs).OnlyCalls Keeps := .perform (σ := storeSignature) rfl
  have hlookup : (svc.existingForTopic args).OnlyCalls Keeps := by
    unfold MemoryService.existingForTopic
    cases args.topicKey.filter (· ≠ "") with
    | none => trivial
    | some key => exact (keeps_statement (c := .selectByTopicKey _ _) rfl).bind fun row => Program.OnlyCalls.ofExcept _
  rw [svc.save_eq]
  refine hlookup.bind fun existing => huuid.bind fun id => htime.bind fun now => ?_
  refine (Program.OnlyCalls.ofExcept _).bind fun o => ?_
  cases existing with
  | some existing => exact keeps_upsert
  | none =>
    have hcreate : (svc.repository.create o).OnlyCalls Keeps :=
      (keeps_statement (c := .insert _) trivial).bind fun _ => keeps_recordMutation
    exact hcreate.bind fun _ => Program.onlyCalls_ret o

end Growth

section Sequences

/-- Saves one after another, each with what it returned or raised. -/
inductive Saves (svc : MemoryService) : Store → List (SaveArgs × Except Exn Observation) → Store → Prop where
  | nil (s) : Saves svc s [] s
  | cons {s t u args out calls} (run : (svc.save args).Runs Store.serve s out t)
      (rest : Saves svc t calls u) : Saves svc s ((args, out) :: calls) u

variable {svc : MemoryService} {s t : Store} {calls : List (SaveArgs × Except Exn Observation)}

theorem Saves.grows (h : Saves svc s calls t) :
    s.1.observations.rows.length ≤ t.1.observations.rows.length := by
  induction h with
  | nil => exact Nat.le_refl _
  | @cons s t u args out calls run rest ih =>
    refine Nat.le_trans ?_ ih
    have hstep : ∀ c r (s s' : Store), Keeps c → Store.serve ⟨c, r⟩ s s' →
        s.1.observations.rows.length ≤ s'.1.observations.rows.length := fun c r s s' hc hserve => keeps_grows (a := ⟨c, r⟩) hc hserve
    have hsave : (svc.save args).OnlyCalls Keeps := keeps_save
    have hrespects := hsave.respects
      (K := fun s s' : Store => s.1.observations.rows.length ≤ s'.1.observations.rows.length)
      (fun _ => Nat.le_refl _) (fun _ _ _ => Nat.le_trans) hstep
    exact run.always (hrespects _)

/-- The key of a row is one of those that were given, or the one that they are looked up under. -/
def UnderKey (repo : ObservationRepository) (lowered : String) (row : ObservationRow) : Prop :=
  ∃ key, row.topicKey = some key ∧ (repo.lower key = lowered ∨ key = strip lowered)

/-- What `name` and `key` stand for in a sequence of saves of one topic. -/
structure OneTopic (repo : ObservationRepository) (lowered name : String) (args : SaveArgs) : Prop where
  key : ∃ key, args.topicKey = some key ∧ repo.lower key = lowered
  project : ∃ p, args.project = some p ∧ normalizeProjectName repo.lower p = name

/-- Later saves that all succeed and leave one row have spelt the topic and the project alike. -/
theorem Saves.joined {row : ObservationRow} {name lowered stored content : String} {revisions : Int}
    (h : Saves svc s calls t) (hrows : s.1.observations.rows = [row])
    (hrow : TopicRow name stored content revisions row)
    (htopic : ∀ call ∈ calls, OneTopic svc.repository lowered name call.1)
    (hok : ∀ call ∈ calls, ∃ o, call.2 = .ok o) (hone : t.1.observations.rows.length = 1) :
    (∀ call ∈ calls, Accepted svc call.1 ∧ call.1.project = some name) ∧
      (calls ≠ [] → sqlLower stored = strip lowered) := by
  induction h generalizing row stored content revisions with
  | nil => simp
  | @cons s t u args out calls run rest ih =>
    rw [List.forall_mem_cons] at htopic hok
    obtain ⟨⟨key, hkey, rfl⟩, p, hproject, hname⟩ := htopic.1
    obtain ⟨o, rfl⟩ := hok.1
    have haccepted : Accepted svc args := by
      by_contra hrefused
      obtain ⟨e, he⟩ := run.always (save_unaccepted hrefused)
      cases he
    by_cases hjoins : sqlLower stored = normalizeTopicKey svc.repository.lower key ∧ args.project = some name
    · have hself : normalizeProjectName svc.repository.lower name = name := by
        rw [hjoins.2] at hproject
        cases hproject
        exact hname
      obtain ⟨-, row', hrows', hrow'⟩ := run.always
        (save_joins hrows hrow hkey hjoins.1.symm hjoins.2 hself haccepted)
      obtain ⟨hrest, -⟩ := ih hrows' hrow' htopic.2 hok.2 hone
      refine ⟨List.forall_mem_cons.mpr ⟨⟨haccepted, hjoins.2⟩, hrest⟩, fun _ => hjoins.1⟩
    · rcases run.always (save_misses hrows hrow hkey hjoins hproject) with ⟨e, he⟩ | htwo
      · cases he
      · have hgrows := rest.grows
        omega

/-- Later saves that spell the topic and the project alike all revise the one row. -/
theorem Saves.joins {row : ObservationRow} {name lowered stored content : String} {revisions : Int}
    (h : Saves svc s calls t) (hrows : s.1.observations.rows = [row])
    (hrow : TopicRow name stored content revisions row)
    (htopic : ∀ call ∈ calls, OneTopic svc.repository lowered name call.1)
    (haccepted : ∀ call ∈ calls, Accepted svc call.1 ∧ call.1.project = some name)
    (hkeys : calls ≠ [] → sqlLower stored = strip lowered) :
    (∀ call ∈ calls, ∃ o, call.2 = .ok o) ∧ ∃ row' stored', t.1.observations.rows = [row'] ∧
      (stored' = stored ∨ stored' = strip lowered) ∧
      TopicRow name stored' ((calls.getLast?.map fun call =>
        (svc.redactObservationData call.1.content call.1.metadata).1).getD content)
        (revisions + calls.length) row' := by
  induction h generalizing row stored content revisions with
  | nil =>
    refine ⟨by simp, row, stored, hrows, .inl rfl, ?_⟩
    simpa using hrow
  | @cons s t u args out calls run rest ih =>
    rw [List.forall_mem_cons] at htopic haccepted
    obtain ⟨⟨key, hkey, rfl⟩, p, hproject, hname⟩ := htopic.1
    have hstored := hkeys (List.cons_ne_nil _ _)
    have hself : normalizeProjectName svc.repository.lower name = name := by
      rw [haccepted.1.2] at hproject
      cases hproject
      exact hname
    obtain ⟨hok, row', hrows', hrow'⟩ := run.always
      (save_joins hrows hrow hkey hstored.symm haccepted.1.2 hself haccepted.1.1)
    obtain ⟨hoks, row'', stored'', hrows'', hstored'', hrow''⟩ := ih hrows' hrow' htopic.2 haccepted.2
      fun _ => (sqlLower_idem stored).trans hstored
    refine ⟨List.forall_mem_cons.mpr ⟨hok, hoks⟩, row'', stored'', hrows'', ?_, ?_⟩
    · rw [hstored, or_self] at hstored''
      exact .inr hstored''
    · have hcount : revisions + 1 + (calls.length : Int) = revisions + (calls.length + 1 : Nat) := by
        push_cast
        omega
      rw [List.length_cons, ← hcount]
      cases calls with
      | nil => exact hrow''
      | cons call more =>
        rw [List.getLast?_cons_cons]
        rw [List.getLast?_cons] at hrow'' ⊢
        exact hrow''

/-- There is one row, under the key, with the content of the last save and a revision for each. -/
def OneRow (svc : MemoryService) (lowered : String) (calls : List (SaveArgs × Except Exn Observation))
    (rows : List ObservationRow) : Prop :=
  ∃ row, rows = [row] ∧ UnderKey svc.repository lowered row ∧
    (∀ call ∈ calls.getLast?, row.content = (svc.redactObservationData call.1.content call.1.metadata).1) ∧
    row.revisionCount = calls.length

/-- All saves are accepted, and if there are several, the first spells its key so that the database's
small letters are those of the program, and the others give the project in its normal form. -/
structure Alike (svc : MemoryService) (lowered : String) (first : SaveArgs) (others : List SaveArgs) : Prop where
  accepted : ∀ args ∈ first :: others, Accepted svc args
  key : others ≠ [] → first.topicKey.map sqlLower = some (strip lowered)
  project : ∀ args ∈ others, args.project = normalizeProject svc.repository.lower args.project

/-- Saves of one topic into an empty table all succeed and leave one row exactly when they spell the
topic and the project alike. -/
theorem one_row_iff_alike {first : SaveArgs × Except Exn Observation} {lowered name : String}
    (h : Saves svc s (first :: calls) t) (hempty : s.1.observations.rows = [])
    (htopic : ∀ call ∈ first :: calls, OneTopic svc.repository lowered name call.1) :
    ((∀ call ∈ first :: calls, ∃ o, call.2 = .ok o) ∧
        OneRow svc lowered (first :: calls) t.1.observations.rows) ↔
      Alike svc lowered first.1 (calls.map (·.1)) := by
  cases h with
  | @cons s t₁ t args out calls run rest =>
    rw [List.forall_mem_cons] at htopic
    obtain ⟨⟨⟨key, hkey, rfl⟩, p, hproject, rfl⟩, htopic⟩ := htopic
    constructor
    · rintro ⟨hok, row, hrow, -⟩
      rw [List.forall_mem_cons] at hok
      obtain ⟨⟨o, rfl⟩, hok⟩ := hok
      have haccepted : Accepted svc args := by
        by_contra hrefused
        obtain ⟨e, he⟩ := run.always (save_unaccepted hrefused)
        cases he
      obtain ⟨-, row₁, hrows₁, hrow₁⟩ := run.always (save_starts hempty hkey hproject haccepted)
      obtain ⟨hothers, hspelt⟩ := rest.joined hrows₁ hrow₁ htopic hok (by rw [hrow]; rfl)
      refine ⟨List.forall_mem_cons.mpr ⟨haccepted, List.forall_mem_map.mpr fun call hcall => (hothers call hcall).1⟩,
        fun hne => ?_, List.forall_mem_map.mpr fun call hcall => ?_⟩
      · show args.topicKey.map sqlLower = _
        rw [hkey, Option.map_some, hspelt (mt List.map_eq_nil_iff.mpr hne)]
      · obtain ⟨p', hp', hname⟩ := (htopic call hcall).project
        have hsame := (hothers call hcall).2
        rw [hp'] at hsame ⊢
        cases hsame
        exact congrArg some hname.symm
    · intro h
      have haccepted := List.forall_mem_cons.mp h.accepted
      obtain ⟨hok, row₁, hrows₁, hrow₁⟩ := run.always (save_starts hempty hkey hproject haccepted.1)
      have hothers : ∀ call ∈ calls, Accepted svc call.1 ∧
          call.1.project = some (normalizeProjectName svc.repository.lower p) := by
        intro call hcall
        obtain ⟨p', hp', hname⟩ := (htopic call hcall).project
        refine ⟨haccepted.2 _ (List.mem_map_of_mem hcall), ?_⟩
        have hsame := h.project _ (List.mem_map_of_mem hcall)
        rw [hp'] at hsame ⊢
        exact hsame.trans (congrArg some hname)
      have hspelt : calls ≠ [] → sqlLower key = strip (svc.repository.lower key) := by
        intro hne
        have hmap := h.key (mt List.map_eq_nil_iff.mp hne)
        rw [show (args, out).1.topicKey = some key from hkey] at hmap
        exact Option.some.inj hmap
      obtain ⟨hoks, row, stored, hrows, hstored, hrow⟩ := rest.joins hrows₁ hrow₁ htopic hothers hspelt
      refine ⟨List.forall_mem_cons.mpr ⟨hok, hoks⟩, row, hrows, ⟨stored, hrow.topicKey, ?_⟩, ?_, ?_⟩
      · rcases hstored with rfl | rfl
        · exact .inl rfl
        · exact .inr rfl
      · intro call hcall
        rw [hrow.content]
        rw [List.getLast?_cons, Option.mem_def, Option.some.injEq] at hcall
        rw [← hcall]
        cases calls.getLast? <;> rfl
      · rw [hrow.revisionCount, List.length_cons]
        push_cast
        omega

section Sample

/-- A service that redacts nothing. -/
def plainMemory : MemoryService where
  repository := plainRepository
  redactObservationData := fun content metadata => (content, metadata)

/-- A save of the topic `k`. -/
def noteArgs (project content : String) : SaveArgs := { content, topicKey := some "k", project := some project }

theorem notes_topic {project : String} (hproject : normalizeProjectName plainRepository.lower project = "a")
    (out out' : Except Exn Observation) :
    ∀ call ∈ [(noteArgs "a/" "first", out), (noteArgs project "second", out')],
      OneTopic plainRepository "k" "a" call.1 := by
  intro call hcall
  simp only [List.mem_cons, List.not_mem_nil, or_false] at hcall
  rcases hcall with rfl | rfl
  · exact ⟨⟨"k", rfl, rfl⟩, "a/", rfl, rfl⟩
  · exact ⟨⟨"k", rfl, rfl⟩, project, rfl, hproject⟩

theorem saves_of_exec {project : String} {out out' : Except Exn Observation}
    {answers answers' : List (Answered storeSignature Exn)} {s t : Store}
    (hfirst : (plainMemory.save (noteArgs "a/" "first")).exec
      (fun c s => some (Store.respond { id := "x" } c s)) ({}, {}) = some (out, answers, s))
    (hsecond : (plainMemory.save (noteArgs project "second")).exec
      (fun c s => some (Store.respond { id := "y" } c s)) s = some (out', answers', t)) :
    Saves plainMemory ({}, {}) [(noteArgs "a/" "first", out), (noteArgs project "second", out')] t := by
  have hserve : ∀ ω c (s : Store) r s', some (Store.respond ω c s) = some (r, s') → Store.serve ⟨c, r⟩ s s' := by
    intro ω c s r s' h
    have hserve := Store.respond_serve ω c s
    rwa [Option.some.inj h] at hserve
  exact .cons (Program.exec_reaches (hserve _) hfirst).runs
    (.cons (Program.exec_reaches (hserve _) hsecond).runs (.nil _))

/-- The second save looks for the project as it is given, finds nothing, and is refused by the index. -/
theorem notes_saved :
    ∃ o e t, Saves plainMemory ({}, {}) [(noteArgs "a/" "first", .ok o), (noteArgs "a/" "second", .error e)] t :=
  ⟨_, _, _, saves_of_exec rfl rfl⟩

/-- The second save raises. -/
theorem second_save_raises :
    ¬ ∀ (svc : MemoryService) s first calls t lowered name, Saves svc s (first :: calls) t →
      s.1.observations.rows = [] → (∀ call ∈ first :: calls, OneTopic svc.repository lowered name call.1) →
      (∀ call ∈ first :: calls, ∃ o, call.2 = .ok o) ∧
        OneRow svc lowered (first :: calls) t.1.observations.rows := by
  intro h
  obtain ⟨o, e, t, hsaves⟩ := notes_saved
  have hnormal : normalizeProjectName plainRepository.lower "a/" = "a" := rfl
  obtain ⟨hok, -⟩ := h _ _ _ _ _ "k" "a" hsaves rfl (notes_topic hnormal _ _)
  obtain ⟨o', ho'⟩ := hok (noteArgs "a/" "second", .error e) (by simp)
  cases ho'

theorem alike_notes : Alike plainMemory "k" (noteArgs "a/" "first") [noteArgs "a" "second"] := by
  refine ⟨?_, fun _ => rfl, ?_⟩
  · intro args hargs
    simp only [List.mem_cons, List.not_mem_nil, or_false] at hargs
    rcases hargs with rfl | rfl
    · exact accepted_of_valid (postInit_eq_ok.mp rfl : (plainMemory.saved (noteArgs "a/" "first") "x" 0).Valid)
    · exact accepted_of_valid (postInit_eq_ok.mp rfl : (plainMemory.saved (noteArgs "a" "second") "y" 0).Valid)
  · intro args hargs
    rw [List.mem_singleton.mp hargs]
    rfl

theorem revision_saved :
    ∃ o o' t, Saves plainMemory ({}, {}) [(noteArgs "a/" "first", .ok o), (noteArgs "a" "second", .ok o')] t := by
  obtain ⟨o, o', answers₁, s₁, answers₂, s₂, hfirst, hsecond⟩ : ∃ o o' answers₁ s₁ answers₂ s₂,
      (plainMemory.save (noteArgs "a/" "first")).exec (fun c s => some (Store.respond { id := "x" } c s)) ({}, {}) =
        some (.ok o, answers₁, s₁) ∧
      (plainMemory.save (noteArgs "a" "second")).exec (fun c s => some (Store.respond { id := "y" } c s)) s₁ =
        some (.ok o', answers₂, s₂) := ⟨_, _, _, _, _, _, rfl, rfl⟩
  exact ⟨o, o', s₂, saves_of_exec hfirst hsecond⟩
theorem one_row_iff_alike_notes :
    (∃ o o' t, Saves plainMemory ({}, {}) [(noteArgs "a/" "first", .ok o), (noteArgs "a" "second", .ok o')] t ∧
      OneRow plainMemory "k" [(noteArgs "a/" "first", .ok o), (noteArgs "a" "second", .ok o')]
          t.1.observations.rows) ∧
      ¬ Alike plainMemory "k" (noteArgs "a/" "first") [noteArgs "a/" "second"] := by
  constructor
  · obtain ⟨o, o', t, hsaves⟩ := revision_saved
    have hnormal : normalizeProjectName plainRepository.lower "a" = "a" := rfl
    have hboth := (one_row_iff_alike hsaves rfl (notes_topic hnormal _ _)).mpr alike_notes
    exact ⟨o, o', t, hsaves, hboth.2⟩
  · intro halike
    obtain ⟨o, e, t, hsaves⟩ := notes_saved
    have hnormal : normalizeProjectName plainRepository.lower "a/" = "a" := rfl
    obtain ⟨hok, -⟩ := (one_row_iff_alike hsaves rfl (notes_topic hnormal _ _)).mpr halike
    obtain ⟨o', ho'⟩ := hok (noteArgs "a/" "second", .error e) (by simp)
    cases ho'

end Sample

end Sequences

end ForkAgent.Memory

import ForkAgent.Memory.Served

/-!
# Events

Clients that save an event under one idempotency key, side by side. A call looks for the key, and
where it finds none it inserts a row under it, in a transaction of its own.
-/

namespace ForkAgent.Memory

open Effects Storage Sync

/-- The arguments of one call of `save_event`, apart from the key. -/
structure EventArgs where
  repository : ObservationRepository
  content : String
  metadata : JsonObject

/-- Calls of `save_event` with one idempotency key, from any store; recording may fail. -/
def eventSystem (key : String) : System storeSignature Exn Store where
  Op := EventArgs
  Result _ := String
  program args := args.repository.saveEvent args.content args.metadata key
  step := Store.both MemoryStore.serve SyncStore.step
  outside _ _ := False
  initial _ := True

/-- What the observation's own checks ask of an event. -/
structure EventArgs.Accepted (args : EventArgs) (key : String) : Prop where
  content : args.content ≠ ""
  contentNull : '\x00' ∉ args.content.toList
  key : key ≠ ""

theorem event_valid {args : EventArgs} {key : String} {now : Nat} {id : String} (hid : id ≠ "") :
    (ObservationRepository.event args.content args.metadata key now id).Valid ↔ args.Accepted key := by
  constructor
  · intro h
    exact ⟨h.content, h.contentNull, h.idempotencyKey key rfl⟩
  · intro h
    constructor
    case id => exact hid
    case timestamp => exact Int.natCast_nonneg now
    case contentNull => exact h.contentNull
    case content => exact h.content
    case idempotencyKey =>
      intro k hk
      cases hk
      exact h.key
    case revisionCount => exact Int.le_refl 1
    all_goals exact fun k hk => nomatch hk

/-- A row was found, and it cannot be read. -/
def Unreadable (found : Option ObservationRow) : Prop :=
  ∃ row ∈ found, ∀ o, rowToObservation row ≠ .ok o

/-- The answers that make a call raise: an error, a row that cannot be read, and an id for an event
that the observation's checks refuse. -/
def Blames (key : String) (args : EventArgs) : Answered storeSignature Exn → Prop
  | ⟨.inl _, .error _⟩ => True
  | ⟨.inl (.selectByIdempotencyKey _), .ok found⟩ => Unreadable found
  | ⟨.inl .uuid4, .ok id⟩ =>
    ¬ (ObservationRepository.event args.content args.metadata key 0 id).Valid
  | _ => False

theorem not_blames_time {key : String} {args : EventArgs} (now : Nat) :
    ¬ Blames key args ⟨.inl .timeMs, .ok now⟩ := id

theorem not_blames_insert {key : String} {args : EventArgs} (row : ObservationRow) :
    ¬ Blames key args ⟨.inl (.insert row), .ok ()⟩ := id

theorem not_blames_sync {key : String} {args : EventArgs} {c : SyncCall} {r} :
    ¬ Blames key args ⟨.inr c, r⟩ := by
  rcases r with e | v <;> exact id

/-- A row that a call may insert: under the key, in a call whose lookup has found none. -/
def Issued (key : String) (h : List (Answered storeSignature Exn)) : storeSignature.Call → Prop
  | .inl (.insert row) =>
    ⟨.inl (.selectByIdempotencyKey key), .ok none⟩ ∈ h ∧ ⟨.inl .uuid4, .ok row.id⟩ ∈ h ∧
      row.idempotencyKey = some key ∧ row.topicKey = none
  | .inl (.selectByIdempotencyKey key') => key' = key
  | .inl c => c = .timeMs ∨ c = .uuid4
  | .inr _ => True

/-- An id that a call may return: of the row it has found, or of the one it has inserted. -/
def Returned (key : String) (h : List (Answered storeSignature Exn)) (id : String) : Prop :=
  (∃ row, ⟨.inl (.selectByIdempotencyKey key), .ok (some row)⟩ ∈ h ∧ row.id = id) ∨
    ∃ row, ⟨.inl (.insert row), .ok ()⟩ ∈ h ∧ row.id = id ∧
      row.idempotencyKey = some key

def eventGuard (key : String) (args : EventArgs) (h : List (Answered storeSignature Exn))
    (c : storeSignature.Call) : Prop := (∀ a ∈ h, ¬ Blames key args a) ∧ Issued key h c

def eventOutcome (key : String) (args : EventArgs) (h : List (Answered storeSignature Exn)) :
    Except Exn String → Prop
  | .ok id => (∀ a ∈ h, ¬ Blames key args a) ∧ Returned key h id
  | .error _ => ∃ a ∈ h, Blames key args a

section Call

variable {key : String} {args : EventArgs} {h : List (Answered storeSignature Exn)}

theorem unblamed_concat {a : Answered storeSignature Exn} (hh : ∀ a ∈ h, ¬ Blames key args a)
    (ha : ¬ Blames key args a) : ∀ b ∈ h ++ [a], ¬ Blames key args b := by
  intro b hb
  rcases List.mem_append.mp hb with hb | hb
  · exact hh b hb
  · rw [List.mem_singleton.mp hb]
    exact ha

theorem blamed_concat {a : Answered storeSignature Exn} (ha : Blames key args a) :
    ∃ b ∈ h ++ [a], Blames key args b := ⟨a, List.mem_append_right _ (List.mem_singleton_self a), ha⟩

theorem mem_concat (h : List (Answered storeSignature Exn)) (a : Answered storeSignature Exn) :
    a ∈ h ++ [a] := List.mem_append_right _ (List.mem_singleton_self a)

theorem event_valid_now {now : Nat} {id : String} :
    (ObservationRepository.event args.content args.metadata key now id).Valid ↔
      (ObservationRepository.event args.content args.metadata key 0 id).Valid := by
  by_cases hid : id = ""
  · constructor
    · intro h
      exact absurd hid h.id
    · intro h
      exact absurd hid h.id
  · rw [event_valid hid, event_valid hid]

/-- The lookup, answered with a row that can be read or with none. -/
def lookupOutcome (key : String) (args : EventArgs) (h : List (Answered storeSignature Exn)) :
    Except Exn (Option Observation) → Prop
  | .ok none => h = [⟨.inl (.selectByIdempotencyKey key), .ok (none : Option ObservationRow)⟩]
  | .ok (some o) => ∃ row : ObservationRow, rowToObservation row = .ok o ∧
      h = [⟨.inl (.selectByIdempotencyKey key), .ok (some row : Option ObservationRow)⟩]
  | .error _ => ∃ a ∈ h, Blames key args a

theorem lookup_ensures :
    (ObservationRepository.getByIdempotencyKey key).Ensures (eventGuard key args)
      (lookupOutcome key args) [] := by
  refine statement_ensures.mpr ⟨⟨fun a ha => absurd ha List.not_mem_nil, rfl⟩, ?_,
    fun e => blamed_concat trivial⟩
  rintro (_ | row)
  · exact rfl
  · cases hread : rowToObservation row with
    | ok o =>
      have hmap : (some row).mapM rowToObservation = .ok (some o) := by
        simp [hread]
      show (Program.ofExcept ((some row).mapM rowToObservation)).Ensures _ _ _
      rw [hmap]
      exact ⟨row, hread, rfl⟩
    | error e =>
      have hmap : (some row).mapM rowToObservation = .error e := by
        simp [hread]
      show (Program.ofExcept ((some row).mapM rowToObservation)).Ensures _ _ _
      rw [hmap]
      refine blamed_concat ⟨row, rfl, fun o ho => ?_⟩
      rw [hread] at ho
      cases ho

theorem rowToObservation_id {row : ObservationRow} {o : Observation}
    (h : rowToObservation row = .ok o) : o.val.id = row.id :=
  (Except.ok.inj (observation_eq_ok.mp h).id).symm

theorem create_event_ensures {o : Observation}
    (hh : ∀ a ∈ h, ¬ Blames key args a)
    (hlookup : ⟨.inl (.selectByIdempotencyKey key), .ok none⟩ ∈ h)
    (hid : ⟨.inl .uuid4, .ok o.val.id⟩ ∈ h) (hkey : o.val.idempotencyKey = some key)
    (htopic : o.val.topicKey = none) :
    (do args.repository.create o
        return o.val.id).Ensures (eventGuard key args) (eventOutcome key args) h := by
  unfold ObservationRepository.create
  rw [Program.bind_assoc]
  have hrow : (args.repository.row o.val).idempotencyKey = some key := hkey
  refine statement_ensures.mpr ⟨⟨hh, hlookup, hid, hrow, htopic⟩, fun _ => ?_,
    fun e => blamed_concat trivial⟩
  have hinserted := unblamed_concat hh (not_blames_insert (args.repository.row o.val))
  have hreturned : Returned key (h ++ [⟨.inl (.insert (args.repository.row o.val)), .ok ()⟩])
      o.val.id := .inr ⟨_, mem_concat _ _, rfl, hrow⟩
  refine recordMutation_ensures (fun _ => ⟨hinserted, trivial⟩) (fun _ => ⟨hinserted, hreturned⟩) ?_
  intro _ r
  refine ⟨unblamed_concat hinserted not_blames_sync, .inr ⟨_, ?_, rfl, hrow⟩⟩
  exact List.mem_append_left _ (mem_concat _ _)

theorem saveNew_ensures (hh : ∀ a ∈ h, ¬ Blames key args a)
    (hlookup : ⟨.inl (.selectByIdempotencyKey key), .ok none⟩ ∈ h) :
    (args.repository.saveNew args.content args.metadata key).Ensures (eventGuard key args)
      (eventOutcome key args) h := by
  refine memoryCall_ensures.mpr ⟨⟨hh, .inl rfl⟩, fun (now : Nat) => ?_, fun e => blamed_concat trivial⟩
  have htime := unblamed_concat hh (not_blames_time now)
  refine memoryCall_ensures.mpr ⟨⟨htime, .inr rfl⟩, fun (id : String) => ?_, fun e => blamed_concat trivial⟩
  refine (Program.ensures_ofExcept_bind _ _).mpr ⟨fun o ho => ?_, fun e he => ?_⟩
  · have hval := construct_eq_ok.mp ho
    have hvalid := postInit_eq_ok.mp o.property
    rw [hval, event_valid_now] at hvalid
    have hid : o.val.id = id := congrArg ObservationFields.id hval
    subst hid
    have hblames := unblamed_concat htime (a := ⟨.inl .uuid4, .ok o.val.id⟩) (not_not_intro hvalid)
    refine create_event_ensures hblames ?_ (mem_concat _ _)
      (congrArg ObservationFields.idempotencyKey hval) (congrArg ObservationFields.topicKey hval)
    exact List.mem_append_left _ (List.mem_append_left _ hlookup)
  · refine blamed_concat fun hvalid => ?_
    have hpost := postInit_eq_ok.mpr ((event_valid_now.mpr hvalid : (ObservationRepository.event _ _ _ now _).Valid))
    have hok := construct_eq_ok (v := ⟨_, hpost⟩).mpr rfl
    rw [hok] at he
    cases he

theorem save_event_ensures (args : EventArgs) :
    (args.repository.saveEvent args.content args.metadata key).Ensures (eventGuard key args)
      (eventOutcome key args) [] := by
  refine lookup_ensures.bind ?_ fun _ _ h => h
  rintro h (_ | o) houtcome
  · obtain rfl : h = _ := houtcome
    refine saveNew_ensures (fun a ha => ?_) (List.mem_singleton_self _)
    rw [List.mem_singleton.mp ha]
    rintro ⟨row, hrow, -⟩
    cases hrow
  · obtain ⟨row, hread, rfl⟩ := houtcome
    refine ⟨fun a ha => ?_, .inl ⟨row, List.mem_singleton_self _, (rowToObservation_id hread).symm⟩⟩
    rw [List.mem_singleton.mp ha]
    rintro ⟨row', hrow', hunreadable⟩
    cases hrow'
    exact hunreadable o hread

end Call

section Run

/-- A row is stored under the key. -/
def HasKey (key : String) (s : Store) : Prop :=
  ∃ row ∈ s.1.observations.rows, row.idempotencyKey = some key

/-- The call has inserted a row. -/
def Inserts : Answered storeSignature Exn → Prop
  | ⟨.inl (.insert _), .ok _⟩ => True
  | _ => False

def IsInsert (c : storeSignature.Call) : Prop := ∃ row, c = .inl (.insert row)

/-- Nothing is in the way of any call: what it finds can be read, what it saves is accepted under a
fresh id, and no other call inserts between its lookup and its insert. -/
structure Undisturbed (key : String) (tr : List (eventSystem key).Event) : Prop where
  readable : ∀ e ∈ tr, e.answered.call = .inl (.selectByIdempotencyKey key) →
    ∀ row ∈ e.before.1.observations.rows, row.idempotencyKey = some key → ∃ o, rowToObservation row = .ok o
  accepted : ∀ e ∈ tr, e.answered.call = .inl .uuid4 → e.op.Accepted key
  fresh : ∀ e ∈ tr, ∀ row, e.answered.call = .inl (.insert row) →
    ∀ r ∈ e.before.1.observations.rows, r.id ≠ row.id
  alone : ∀ pre d mid e post, tr = pre ++ d :: (mid ++ e :: post) → d.caller = e.caller →
    IsInsert e.answered.call → ∀ x ∈ mid, ¬ Inserts x.answered

variable {key : String} {tr : List (eventSystem key).Event} {cfg : (eventSystem key).Config}
variable {s s' : Store} {h : List (Answered storeSignature Exn)}

theorem insert_served {row : ObservationRow} {r : Except Exn Unit}
    (hstep : (eventSystem key).step ⟨.inl (.insert row), r⟩ s s') :
    (r = .ok () ∧ s'.1.observations.rows = s.1.observations.rows ++ [row] ∧
        s.1.observations.Admits row) ∨
      (∃ e, r = .error e) ∧ s'.1 = s.1 ∧ ¬ s.1.observations.Admits row := by
  obtain ⟨hwrite, -⟩ := hstep
  have hwrite : MemoryStore.Write s.1 (s.1.observations.insert row) () r s'.1 := hwrite
  cases hinsert : s.1.observations.insert row with
  | none =>
    rw [hinsert] at hwrite
    obtain ⟨⟨message, rfl⟩, hsame⟩ := hwrite
    exact .inr ⟨⟨_, rfl⟩, hsame, ObservationTable.insert_eq_none.mp hinsert⟩
  | some t =>
    rw [hinsert] at hwrite
    obtain ⟨rfl, hafter⟩ := hwrite
    refine .inl ⟨rfl, ?_, ?_⟩
    · rw [hafter]
      exact ObservationTable.insert_eq_some.mp hinsert
    · by_contra hrefused
      rw [ObservationTable.insert_eq_none.mpr hrefused] at hinsert
      cases hinsert

theorem admits_event {t : ObservationTable} {row : ObservationRow}
    (hkey : row.idempotencyKey = some key) (htopic : row.topicKey = none) :
    t.Admits row ↔ (∀ r ∈ t.rows, r.id ≠ row.id) ∧ ¬ ∃ r ∈ t.rows, r.idempotencyKey = some key := by
  constructor
  · rintro h
    refine ⟨h.id, ?_⟩
    rintro ⟨r, hr, hk⟩
    exact h.idempotencyKey r hr key hkey hk
  · rintro ⟨hid, hfree⟩
    refine ⟨hid, fun r hr k hk hr' => ?_, fun r hr k hk => ?_⟩
    · rw [hkey] at hk
      cases hk
      exact hfree ⟨r, hr, hr'⟩
    · rw [rowTopic, htopic] at hk
      cases hk

theorem event_step {a : Answered storeSignature Exn} (hissued : Issued key h a.call)
    (hstep : (eventSystem key).step a s s') :
    s'.1.observations.rows = s.1.observations.rows ∧ ¬ Inserts a ∨
      ∃ row, a = ⟨.inl (.insert row), .ok ()⟩ ∧ row.idempotencyKey = some key ∧
        s'.1.observations.rows = s.1.observations.rows ++ [row] := by
  obtain ⟨c | c, r⟩ := a
  · cases c with
    | insert row =>
      rcases insert_served hstep with ⟨rfl, hrows, -⟩ | ⟨⟨e, rfl⟩, hsame, -⟩
      · exact .inr ⟨row, rfl, hissued.2.2.1, hrows⟩
      · exact .inl ⟨by rw [hsame], id⟩
    | selectByIdempotencyKey key' => exact .inl ⟨by rw [hstep.1.1], by cases r <;> exact id⟩
    | timeMs => exact .inl ⟨by rw [hstep.1.1], by cases r <;> exact id⟩
    | uuid4 => exact .inl ⟨by rw [hstep.1.1], by cases r <;> exact id⟩
    | _ => rcases hissued with hc | hc <;> cases hc
  · exact .inl ⟨by rw [hstep.2], by cases r <;> exact id⟩

theorem hasKey_step {a : Answered storeSignature Exn} (hissued : Issued key h a.call)
    (hstep : (eventSystem key).step a s s') : HasKey key s' ↔ HasKey key s ∨ Inserts a := by
  unfold HasKey
  rcases event_step hissued hstep with ⟨hrows, hkept⟩ | ⟨row, rfl, hkey, hrows⟩
  · rw [hrows, or_iff_left hkept]
  · rw [hrows]
    constructor
    · intro _
      exact .inr trivial
    · intro _
      exact ⟨row, List.mem_append_right _ (List.mem_singleton_self _), hkey⟩

theorem lookup_served {r : Except Exn (Option ObservationRow)}
    (hstep : (eventSystem key).step ⟨.inl (.selectByIdempotencyKey key), r⟩ s s') :
    ∃ found : Option ObservationRow, r = .ok found ∧ s'.1 = s.1 ∧
      ∀ row, found = some row ↔ row ∈ s.1.observations.rows ∧ row.idempotencyKey = some key := by
  obtain ⟨⟨hsame, hfound⟩, -⟩ := hstep
  refine ⟨_, hfound, hsame, fun row => ?_⟩
  constructor
  · intro hrow
    exact ⟨List.mem_of_find?_eq_some hrow, by simpa using List.find?_some hrow⟩
  · rintro ⟨hrow, hkey⟩
    cases hfind : s.1.observations.rows.find? fun row => row.idempotencyKey == some key with
    | none =>
      have := List.find?_eq_none.mp hfind row hrow
      simp [hkey] at this
    | some other =>
      have hother : other.idempotencyKey = some key := by simpa using List.find?_some hfind
      rw [s.1.observations.isIndexed.idempotencyKeys.eq_of_mem hrow
        (List.mem_of_find?_eq_some hfind) hkey hother]

theorem guarded (run : (eventSystem key).Run tr cfg) {pre post : List (eventSystem key).Event}
    {e : (eventSystem key).Event} (h : tr = pre ++ e :: post) :
    eventGuard key e.op (System.Run.history e.caller pre) e.answered.call :=
  run.ensures_event h (Φ := eventGuard key e.op) (save_event_ensures e.op)

theorem issued (run : (eventSystem key).Run tr cfg) {e : (eventSystem key).Event} (he : e ∈ tr) :
    ∃ h, Issued key h e.answered.call := by
  obtain ⟨pre, post, hsplit⟩ := List.append_of_mem he
  exact ⟨_, (guarded run hsplit).2⟩

theorem fails_iff (run : (eventSystem key).Run tr cfg) {i : Nat} {args : EventArgs}
    {p : MemoryProgram String} (hs : cfg.sessions i = some ⟨args, p⟩) :
    (∃ e, p = .fail e) ↔ ∃ a ∈ System.Run.history i tr, Blames key args a := by
  have hensures := (run.follows hs).ensures (save_event_ensures args)
  rw [List.nil_append] at hensures
  cases p with
  | ret id =>
    constructor
    · rintro ⟨e, he⟩
      cases he
    · rintro ⟨a, ha, hblames⟩
      exact absurd hblames (hensures.1 a ha)
  | fail e =>
    constructor
    · intro _
      exact hensures
    · intro _
      exact ⟨e, rfl⟩
  | call c next =>
    constructor
    · rintro ⟨e, he⟩
      cases he
    · rintro ⟨a, ha, hblames⟩
      exact absurd hblames (hensures.1.1 a ha)

theorem no_failure_iff (run : (eventSystem key).Run tr cfg) :
    (∀ i args e, cfg.sessions i ≠ some ⟨args, .fail e⟩) ↔
      ∀ e ∈ tr, ¬ Blames key e.op e.answered := by
  constructor
  · intro hnone e he hblames
    obtain ⟨p, hs⟩ := run.session_of_mem he
    have hmem : e.answered ∈ System.Run.history e.caller tr :=
      List.mem_map_of_mem (System.Run.mem_own.mpr ⟨he, rfl⟩)
    obtain ⟨error, rfl⟩ := (fails_iff run hs).mpr ⟨_, hmem, hblames⟩
    exact hnone _ _ _ hs
  · intro hblameless i args error hs
    obtain ⟨a, ha, hblames⟩ := (fails_iff run hs).mp ⟨error, rfl⟩
    obtain ⟨e, he, rfl⟩ := List.mem_map.mp ha
    obtain ⟨hmem, rfl⟩ := System.Run.mem_own.mp he
    obtain ⟨p, hs'⟩ := run.session_of_mem hmem
    rw [hs] at hs'
    cases hs'
    exact hblameless e hmem hblames

section Steps

variable {args : EventArgs}

theorem blames_lookup {r : Except Exn (Option ObservationRow)}
    (hstep : (eventSystem key).step ⟨.inl (.selectByIdempotencyKey key), r⟩ s s') :
    Blames key args ⟨.inl (.selectByIdempotencyKey key), r⟩ ↔
      ∃ row ∈ s.1.observations.rows, row.idempotencyKey = some key ∧
        ∀ o, rowToObservation row ≠ .ok o := by
  obtain ⟨found, rfl, -, hfound⟩ := lookup_served hstep
  constructor
  · rintro ⟨row, hrow, hunreadable⟩
    obtain ⟨hmem, hkey⟩ := (hfound row).mp hrow
    exact ⟨row, hmem, hkey, hunreadable⟩
  · rintro ⟨row, hmem, hkey, hunreadable⟩
    exact ⟨row, (hfound row).mpr ⟨hmem, hkey⟩, hunreadable⟩

theorem blames_uuid {r : Except Exn String} (hstep : (eventSystem key).step ⟨.inl .uuid4, r⟩ s s') :
    Blames key args ⟨.inl .uuid4, r⟩ ↔ ¬ args.Accepted key := by
  obtain ⟨⟨-, id, hid, rfl⟩, -⟩ := hstep
  exact not_congr (event_valid hid)

theorem not_blames_timeMs {r : Except Exn Nat} (hstep : (eventSystem key).step ⟨.inl .timeMs, r⟩ s s') :
    ¬ Blames key args ⟨.inl .timeMs, r⟩ := by
  obtain ⟨⟨-, now, rfl⟩, -⟩ := hstep
  exact not_blames_time now

theorem blames_insert {row : ObservationRow} {r : Except Exn Unit}
    (hstep : (eventSystem key).step ⟨.inl (.insert row), r⟩ s s') :
    Blames key args ⟨.inl (.insert row), r⟩ ↔ ¬ s.1.observations.Admits row := by
  rcases insert_served hstep with ⟨rfl, -, hadmits⟩ | ⟨⟨e, rfl⟩, -, hrefused⟩
  · exact iff_of_false (not_blames_insert row) (not_not_intro hadmits)
  · exact iff_of_true trivial hrefused

end Steps

theorem hasKey_grows (run : (eventSystem key).Run tr cfg) :
    tr.Pairwise (fun d e => HasKey key d.after → HasKey key e.before) := by
  refine (run.grows (R := fun s s' => HasKey key s → HasKey key s') (fun _ h => h)
    (fun _ _ _ h h' hs => h' (h hs)) (fun e he hbefore => ?_) fun _ _ h => h.elim).1
  obtain ⟨h, hissued⟩ := issued run he
  exact (hasKey_step hissued (run.step_of_mem he)).mpr (.inl hbefore)

/-- The key is taken when a call inserts, exactly if another has inserted since the call began. -/
theorem hasKey_iff_overtaken (run : (eventSystem key).Run tr cfg)
    {pre post : List (eventSystem key).Event} {e : (eventSystem key).Event}
    (hsplit : tr = pre ++ e :: post) (hinsert : IsInsert e.answered.call) :
    HasKey key e.before ↔ ∃ first d mid, pre = first ++ d :: mid ∧ d.caller = e.caller ∧
      ∃ x ∈ mid, Inserts x.answered := by
  constructor
  · intro hkey
    have hguard := (guarded run hsplit).2
    obtain ⟨row, hrow⟩ := hinsert
    rw [hrow] at hguard
    obtain ⟨d, hd, hlookup⟩ := List.mem_map.mp hguard.1
    obtain ⟨hd, hcaller⟩ := System.Run.mem_own.mp hd
    obtain ⟨first, mid, rfl⟩ := List.append_of_mem hd
    have hsplit' : tr = first ++ d :: (mid ++ e :: post) := by simpa using hsplit
    have hstep := run.step_of_mem (e := d) (by simp [hsplit'])
    rw [hlookup] at hstep
    obtain ⟨found, hfound, hsame, hrows⟩ := lookup_served hstep
    cases hfound
    have habsent : ¬ HasKey key d.after := by
      rintro ⟨row, hrow, hkey⟩
      rw [hsame] at hrow
      cases (hrows row).mpr ⟨hrow, hkey⟩
    obtain ⟨x, hx, hbefore, hafter⟩ := run.undone_between (P := fun s => ¬ HasKey key s)
      (fun _ _ h => h.elim) hsplit' habsent (not_not_intro hkey)
    have hmem : x ∈ tr := by simp [hsplit', hx]
    obtain ⟨h, hissued⟩ := issued run hmem
    have hstored := (hasKey_step hissued (run.step_of_mem hmem)).mp (not_not.mp hafter)
    exact ⟨first, d, mid, rfl, hcaller, x, hx, hstored.resolve_left hbefore⟩
  · rintro ⟨first, d, mid, rfl, -, x, hx, hinserts⟩
    have hmem : x ∈ tr := by simp [hsplit, hx]
    obtain ⟨h, hissued⟩ := issued run hmem
    have hafter := (hasKey_step hissued (run.step_of_mem hmem)).mpr (.inr hinserts)
    have hgrows := hasKey_grows run
    rw [hsplit] at hgrows
    exact (List.pairwise_append.mp hgrows).2.2 x (by simp [hx]) e List.mem_cons_self hafter

/-- What makes a call raise, told of the store it is made in. -/
theorem blames_iff {args : EventArgs} {a : Answered storeSignature Exn}
    (hissued : Issued key h a.call) (hstep : (eventSystem key).step a s s') :
    Blames key args a ↔
      (a.call = .inl (.selectByIdempotencyKey key) ∧ ∃ row ∈ s.1.observations.rows,
        row.idempotencyKey = some key ∧ ∀ o, rowToObservation row ≠ .ok o) ∨
      (a.call = .inl .uuid4 ∧ ¬ args.Accepted key) ∨
      ∃ row, a.call = .inl (.insert row) ∧
        ((∃ r ∈ s.1.observations.rows, r.id = row.id) ∨ HasKey key s) := by
  obtain ⟨c | c, r⟩ := a
  · cases c with
    | insert row =>
      rw [blames_insert hstep, admits_event hissued.2.2.1 hissued.2.2.2]
      constructor
      · intro hrefused
        refine .inr (.inr ⟨row, rfl, ?_⟩)
        by_contra hnone
        obtain ⟨hid, hkey⟩ := not_or.mp hnone
        exact hrefused ⟨fun r hr heq => hid ⟨r, hr, heq⟩, hkey⟩
      · rintro (⟨hc, -⟩ | ⟨hc, -⟩ | ⟨row', hc, htaken⟩) ⟨hid, hkey⟩
        · cases hc
        · cases hc
        · cases hc
          rcases htaken with ⟨r, hr, heq⟩ | htaken
          · exact hid r hr heq
          · exact hkey htaken
    | selectByIdempotencyKey key' =>
      obtain rfl : key' = key := hissued
      rw [blames_lookup hstep]
      constructor
      · exact fun hrow => .inl ⟨rfl, hrow⟩
      · rintro (⟨-, hrow⟩ | ⟨hc, -⟩ | ⟨row, hc, -⟩)
        · exact hrow
        · cases hc
        · cases hc
    | uuid4 =>
      rw [blames_uuid hstep]
      constructor
      · exact fun hrefused => .inr (.inl ⟨rfl, hrefused⟩)
      · rintro (⟨hc, -⟩ | ⟨-, hrefused⟩ | ⟨row, hc, -⟩)
        · cases hc
        · exact hrefused
        · cases hc
    | timeMs =>
      refine iff_of_false (not_blames_timeMs hstep) ?_
      rintro (⟨hc, -⟩ | ⟨hc, -⟩ | ⟨row, hc, -⟩) <;> cases hc
    | _ => rcases hissued with hc | hc <;> cases hc
  · refine iff_of_false not_blames_sync ?_
    rintro (⟨hc, -⟩ | ⟨hc, -⟩ | ⟨row, hc, -⟩) <;> cases hc

/-- No call is to blame exactly when nothing is in the way of any. -/
theorem blameless_iff_undisturbed (run : (eventSystem key).Run tr cfg) :
    (∀ e ∈ tr, ¬ Blames key e.op e.answered) ↔ Undisturbed key tr := by
  constructor
  · intro hblameless
    have hclear : ∀ e ∈ tr, ¬ _ := fun e he hobstructed => by
      obtain ⟨h, hissued⟩ := issued run he
      exact hblameless e he ((blames_iff hissued (run.step_of_mem he)).mpr hobstructed)
    constructor
    · intro e he hcall row hrow hkey
      by_contra hunreadable
      exact hclear e he (.inl ⟨hcall, row, hrow, hkey, fun o ho => hunreadable ⟨o, ho⟩⟩)
    · intro e he hcall
      by_contra hrefused
      exact hclear e he (.inr (.inl ⟨hcall, hrefused⟩))
    · intro e he row hcall r hr hid
      exact hclear e he (.inr (.inr ⟨row, hcall, .inl ⟨r, hr, hid⟩⟩))
    · intro pre d mid e post hsplit hcaller hinsert x hx hinserts
      have hsplit' : tr = (pre ++ d :: mid) ++ e :: post := by simpa using hsplit
      have htaken := (hasKey_iff_overtaken run hsplit' hinsert).mpr
        ⟨pre, d, mid, rfl, hcaller, x, hx, hinserts⟩
      obtain ⟨row, hcall⟩ := hinsert
      exact hclear e (by simp [hsplit]) (.inr (.inr ⟨row, hcall, .inr htaken⟩))
  · intro hclear e he hblames
    obtain ⟨pre, post, hsplit⟩ := List.append_of_mem he
    have hissued := (guarded run hsplit).2
    rcases (blames_iff hissued (run.step_of_mem he)).mp hblames with
      ⟨hcall, row, hrow, hkey, hunreadable⟩ | ⟨hcall, hrefused⟩ | ⟨row, hcall, ⟨r, hr, hid⟩ | htaken⟩
    · obtain ⟨o, ho⟩ := hclear.readable e he hcall row hrow hkey
      exact hunreadable o ho
    · exact hrefused (hclear.accepted e he hcall)
    · exact hclear.fresh e he row hcall r hr hid
    · obtain ⟨first, d, mid, rfl, hcaller, x, hx, hinserts⟩ :=
        (hasKey_iff_overtaken run hsplit ⟨row, hcall⟩).mp htaken
      exact hclear.alone first d mid e post (by simpa using hsplit) hcaller ⟨row, hcall⟩ x hx hinserts

theorem rows_grow (run : (eventSystem key).Run tr cfg) {e : (eventSystem key).Event} (he : e ∈ tr)
    {row : ObservationRow} (hrow : row ∈ e.after.1.observations.rows) :
    row ∈ cfg.store.1.observations.rows := by
  refine (run.grows (R := fun s s' => row ∈ s.1.observations.rows → row ∈ s'.1.observations.rows)
    (fun _ h => h) (fun _ _ _ h h' hs => h' (h hs)) (fun d hd hbefore => ?_) fun _ _ h => h.elim).2 e he hrow
  obtain ⟨h, hissued⟩ := issued run hd
  rcases event_step hissued (run.step_of_mem hd) with ⟨hrows, -⟩ | ⟨added, -, -, hrows⟩
  · rw [hrows]
    exact hbefore
  · rw [hrows]
    exact List.mem_append_left _ hbefore

/-- A call that has returned has returned the id of the one row under the key. -/
theorem returned (run : (eventSystem key).Run tr cfg) {i : Nat} {args : EventArgs} {id : String}
    (hs : cfg.sessions i = some ⟨args, .ret id⟩) :
    ∃ row ∈ cfg.store.1.observations.rows, row.idempotencyKey = some key ∧ row.id = id ∧
      ∀ other ∈ cfg.store.1.observations.rows, other.idempotencyKey = some key → other = row := by
  have hstored : ∃ row ∈ cfg.store.1.observations.rows, row.idempotencyKey = some key ∧ row.id = id := by
    have houtcome := run.ensures_outcome hs (Ψ := eventOutcome key args) (save_event_ensures args)
    rcases houtcome.2 with ⟨row, hanswer, hid⟩ | ⟨row, hanswer, hid, hkey⟩
    · obtain ⟨e, he, heq⟩ := List.mem_map.mp hanswer
      have hmem := (System.Run.mem_own.mp he).1
      have hstep := run.step_of_mem hmem
      rw [heq] at hstep
      obtain ⟨found, hfound, hsame, hrows⟩ := lookup_served hstep
      cases hfound
      obtain ⟨hrow, hkey⟩ := (hrows row).mp rfl
      rw [← hsame] at hrow
      exact ⟨row, rows_grow run hmem hrow, hkey, hid⟩
    · obtain ⟨e, he, heq⟩ := List.mem_map.mp hanswer
      have hmem := (System.Run.mem_own.mp he).1
      have hstep := run.step_of_mem hmem
      rw [heq] at hstep
      rcases insert_served hstep with ⟨-, hrows, -⟩ | ⟨⟨error, herror⟩, -, -⟩
      · have hrow : row ∈ e.after.1.observations.rows := by simp [hrows]
        exact ⟨row, rows_grow run hmem hrow, hkey, hid⟩
      · cases herror
  obtain ⟨row, hrow, hkey, hid⟩ := hstored
  refine ⟨row, hrow, hkey, hid, fun other hother hother' => ?_⟩
  exact cfg.store.1.observations.isIndexed.idempotencyKeys.eq_of_mem hother hrow hother' hkey

/-- Every call that returns has returned the id of the one row under the key, and none raises exactly
when nothing is in the way of any. -/
theorem save_event_iff_undisturbed (run : (eventSystem key).Run tr cfg) :
    (∀ i args id, cfg.sessions i = some ⟨args, .ret id⟩ →
      ∃ row ∈ cfg.store.1.observations.rows, row.idempotencyKey = some key ∧ row.id = id ∧
        ∀ other ∈ cfg.store.1.observations.rows, other.idempotencyKey = some key → other = row) ∧
    ((∀ i args e, cfg.sessions i ≠ some ⟨args, .fail e⟩) ↔ Undisturbed key tr) := by
  constructor
  · intro i args id hs
    exact returned run hs
  · exact (no_failure_iff run).trans (blameless_iff_undisturbed run)

section Sample

def playEvents (moves : List ((eventSystem "key").Move Surroundings)) :
    Option (List (eventSystem "key").Event × (eventSystem "key").Config) :=
  (eventSystem "key").play (fun ω c s => some (Store.respond ω c s)) moves ⟨({}, {}), fun _ => none⟩

theorem run_of_playEvents {moves : List ((eventSystem "key").Move Surroundings)}
    {tr : List (eventSystem "key").Event} {cfg : (eventSystem "key").Config}
    (h : playEvents moves = some (tr, cfg)) : (eventSystem "key").Run tr cfg := by
  have hinitial : (eventSystem "key").Run [] ⟨({}, {}), fun _ => none⟩ := .initial trivial
  refine hinitial.play (fun ω c s r s' hrespond => ?_) h
  have hserve := Store.respond_serve ω c s
  rw [Option.some.inj hrespond] at hserve
  cases c with
  | inl c => exact hserve
  | inr c => exact ⟨.inl hserve.1, hserve.2⟩

def sampleEvent : EventArgs where
  repository := { lower := id }
  content := "done"
  metadata := []

/-- Both calls look for the key before either inserts. -/
def crossedEvents : List ((eventSystem "key").Move Surroundings) :=
  [.invoke 0 sampleEvent, .invoke 1 sampleEvent, .call 0 { id := "a" }, .call 1 { id := "b" }] ++
    List.replicate 4 (.call 0 { id := "a" }) ++ List.replicate 3 (.call 1 { id := "b" })

/-- The one that inserts second raises. -/
theorem second_event_raises :
    ¬ ∀ key tr cfg, (eventSystem key).Run tr cfg →
      ∀ i args e, cfg.sessions i ≠ some ⟨args, .fail e⟩ := by
  intro h
  obtain ⟨tr, cfg, hplay, hs⟩ : ∃ tr cfg, playEvents crossedEvents = some (tr, cfg) ∧
      cfg.sessions 1 = some ⟨sampleEvent, .fail (ObservationRepository.alreadyExists "b")⟩ :=
    ⟨_, _, rfl, rfl⟩
  exact h "key" tr cfg (run_of_playEvents hplay) 1 _ _ hs

theorem save_event_iff_undisturbed_crossed :
    ∃ tr cfg, (eventSystem "key").Run tr cfg ∧
      (∀ i args id, cfg.sessions i = some ⟨args, .ret id⟩ →
        ∃ row ∈ cfg.store.1.observations.rows, row.idempotencyKey = some "key" ∧ row.id = id ∧
          ∀ other ∈ cfg.store.1.observations.rows, other.idempotencyKey = some "key" → other = row) ∧
      ((∀ i args e, cfg.sessions i ≠ some ⟨args, .fail e⟩) ↔ Undisturbed "key" tr) ∧
      cfg.sessions 0 = some ⟨sampleEvent, .ret "a"⟩ := by
  obtain ⟨tr, cfg, hplay, hs⟩ : ∃ tr cfg, playEvents crossedEvents = some (tr, cfg) ∧
      cfg.sessions 0 = some ⟨sampleEvent, .ret "a"⟩ := ⟨_, _, rfl, rfl⟩
  have hrun := run_of_playEvents hplay
  obtain ⟨hreturned, hraises⟩ := save_event_iff_undisturbed hrun
  exact ⟨tr, cfg, hrun, hreturned, hraises, hs⟩

end Sample

end Run

end ForkAgent.Memory

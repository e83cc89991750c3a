import ForkAgent.Launch.Exclusion
import Mathlib.Data.List.Induction

/-!
# The launch that a caller claimed

What a caller tried on a launch since it claimed it, with the answers it got. As long as no one
else moves the launch these tell its status, so that no compare-and-set of the caller fails.
-/

namespace ForkAgent.Launch

open Effects Storage

/-- A compare-and-set of one launch: what it expected, what it was to set and whether it did. -/
structure Attempt where
  expected : LaunchStatus
  new : LaunchStatus
  ok : Bool
  deriving DecidableEq, Repr

/-- What is known of the launch after one more answer; a claim reserves it. -/
def note (launchId : String) (known : Option (List Attempt)) :
    Answered launchSignature Exn → Option (List Attempt)
  | ⟨.insert row, .ok true⟩ => if row.launchId = launchId ∧ row.status = .reserved then some [] else known
  | ⟨.casUpdate id expected new _, .ok ok⟩ =>
    if id = launchId then known.map fun attempts => attempts ++ [⟨expected, new, ok⟩] else known
  | _ => known

/-- The compare-and-sets on the launch since it was claimed; `none` when it was not claimed. -/
def sinceClaim (launchId : String) (h : List (Answered launchSignature Exn)) :
    Option (List Attempt) := h.foldl (note launchId) none

@[simp] theorem sinceClaim_concat (launchId : String) (h : List (Answered launchSignature Exn))
    (a : Answered launchSignature Exn) :
    sinceClaim launchId (h ++ [a]) = note launchId (sinceClaim launchId h) a := by
  simp [sinceClaim]

/-- The calls that claim a launch or compare and set one. -/
def claimsOrSets : LaunchCall → Bool
  | .insert _ | .casUpdate .. => true
  | _ => false

theorem note_of_not_claimsOrSets {launchId : String} {known : Option (List Attempt)}
    {a : Answered launchSignature Exn} (h : claimsOrSets a.call = false) :
    note launchId known a = known := by
  obtain ⟨c, r⟩ := a
  cases c with
  | insert row => cases h
  | casUpdate => cases h
  | _ => rfl

/-- The status after an attempt; `none` when the answer does not fit. -/
def attempted (status : LaunchStatus) (a : Attempt) : Option LaunchStatus :=
  if a.ok = (status == a.expected) then some (if a.ok then a.new else status) else none

/-- The status of a claimed launch after these attempts, if its only user made them. -/
def statusAfter (attempts : List Attempt) : Option LaunchStatus := attempts.foldlM attempted .reserved

theorem statusAfter_concat (attempts : List Attempt) (a : Attempt) :
    statusAfter (attempts ++ [a]) = (statusAfter attempts).bind fun reached => attempted reached a := by
  simp [statusAfter]

/-- The row of the launch has the status that the attempts tell. -/
def Known (launchId : String) (attempts : List Attempt) (s : LaunchStore) : Prop :=
  ∃ r ∈ s.agentLaunchRegistry, r.launchId = launchId ∧
    statusAfter attempts = some r.status

/-- The call sets the status of the launch. -/
def SetsStatus (launchId : String) (a : Answered launchSignature Exn) : Prop :=
  ∃ expected new columns, a = .ok (.casUpdate launchId expected new columns) true

namespace LaunchStore

variable {s s' : LaunchStore} {a : Answered launchSignature Exn}

theorem ids_step (hs : UniqueOn rowId s.agentLaunchRegistry) (h : step a s s') :
    UniqueOn rowId s'.agentLaunchRegistry := by
  rcases step_cases h with rfl | ⟨row, -, hrow, -, heq⟩ | ⟨id, expected, new, columns, -, rfl⟩
  · exact hs
  · rw [heq]
    exact hs.insert hrow
  · exact hs.updateWhere fun _ _ _ => .inl rfl

theorem casUpdate_ok {launchId : String} {expected new : LaunchStatus} {columns : CasColumns}
    {b : Bool} (h : step (.ok (.casUpdate launchId expected new columns) b) s s') :
    b = s.agentLaunchRegistry.any (guarded launchId expected) ∧
      s' = s.casUpdate launchId expected new columns := by
  rcases h with ⟨hanswer, heq⟩ | ⟨-, m, hm⟩
  · exact ⟨Except.ok.inj hanswer, heq⟩
  · cases hm

theorem casUpdate_error {launchId : String} {expected new : LaunchStatus} {columns : CasColumns}
    {e : Exn} (h : step ⟨.casUpdate launchId expected new columns, .error e⟩ s s') : s' = s := by
  rcases h with ⟨hanswer, -⟩ | ⟨heq, -⟩
  · cases hanswer
  · exact heq

theorem casUpdate_of_refused {launchId : String} {expected new : LaunchStatus}
    {columns : CasColumns} (h : s.agentLaunchRegistry.any (guarded launchId expected) = false) :
    s.casUpdate launchId expected new columns = s := by
  have hrows : updateWhere (guarded launchId expected) (set new columns) s.agentLaunchRegistry =
      s.agentLaunchRegistry := by
    unfold updateWhere
    conv_rhs => rw [← List.map_id s.agentLaunchRegistry]
    refine List.map_congr_left fun r hr => ?_
    have hguard := List.any_eq_false.mp h r hr
    simp [hguard]
  unfold casUpdate
  rw [hrows]

theorem row_kept (h : step a s s') {r : AgentLaunchFields} (hr : r ∈ s.agentLaunchRegistry)
    (ha : ¬ SetsStatus r.launchId a) : r ∈ s'.agentLaunchRegistry := by
  rcases step_cases h with rfl | ⟨row, -, -, -, heq⟩ | ⟨id, expected, new, columns, hcall, heq⟩
  · exact hr
  · rw [heq]
    exact List.mem_append_left _ hr
  obtain ⟨c, answer⟩ := a
  cases hcall
  cases answer with
  | error e => rwa [casUpdate_error h]
  | ok b =>
    rw [heq]
    refine mem_updateWhere.mpr (.inr ⟨hr, ?_⟩)
    by_contra hguard
    have hguarded : guarded id expected r = true := by simpa using hguard
    have hid : r.launchId = id := by
      simp only [guarded, Bool.and_eq_true, beq_iff_eq] at hguarded
      exact hguarded.1
    have hany : s.agentLaunchRegistry.any (guarded id expected) = true :=
      List.any_eq_true.mpr ⟨r, hr, hguarded⟩
    have hb := (casUpdate_ok h).1
    rw [hany] at hb
    subst hb
    exact ha ⟨expected, new, columns, by rw [hid]⟩

theorem any_guarded (hs : UniqueOn rowId s.agentLaunchRegistry) {r : AgentLaunchFields}
    (hr : r ∈ s.agentLaunchRegistry) (expected : LaunchStatus) :
    s.agentLaunchRegistry.any (guarded r.launchId expected) = (r.status == expected) := by
  cases hstatus : r.status == expected with
  | true => exact List.any_eq_true.mpr ⟨r, hr, by simp [guarded, hstatus]⟩
  | false =>
    refine List.any_eq_false.mpr fun x hx => ?_
    by_contra hguard
    have hguarded : guarded r.launchId expected x = true := by simpa using hguard
    simp only [guarded, Bool.and_eq_true, beq_iff_eq] at hguarded
    have hsame : x = r := hs.eq_of_mem hx hr (by simp [rowId, hguarded.1]) rfl
    rw [hsame] at hguarded
    simp [hguarded.2] at hstatus

end LaunchStore

section Known

variable {s s' : LaunchStore} {a : Answered launchSignature Exn} {launchId : String}

theorem Known.other {attempts : List Attempt} (hk : Known launchId attempts s)
    (h : LaunchStore.step a s s') (ha : ¬ SetsStatus launchId a) : Known launchId attempts s' := by
  obtain ⟨r, hr, rfl, hstatus⟩ := hk
  exact ⟨r, LaunchStore.row_kept h hr ha, rfl, hstatus⟩

theorem known_insert {row : AgentLaunchFields} (h : LaunchStore.step (.ok (.insert row) true) s s')
    (hreserved : row.status = .reserved) : Known row.launchId [] s' := by
  refine ⟨row, (claims_after h hreserved).2, rfl, ?_⟩
  rw [hreserved]
  rfl

theorem Known.attempt (hs : UniqueOn LaunchStore.rowId s.agentLaunchRegistry)
    {attempts : List Attempt} (hk : Known launchId attempts s) {expected new : LaunchStatus}
    {columns : CasColumns} {ok : Bool}
    (h : LaunchStore.step (.ok (.casUpdate launchId expected new columns) ok) s s') :
    Known launchId (attempts ++ [⟨expected, new, ok⟩]) s' := by
  obtain ⟨r, hr, rfl, hstatus⟩ := hk
  obtain ⟨hok, rfl⟩ := LaunchStore.casUpdate_ok h
  rw [LaunchStore.any_guarded hs hr] at hok
  have hnext : statusAfter (attempts ++ [⟨expected, new, ok⟩]) = some (if ok then new else r.status) := by
    rw [statusAfter_concat, hstatus, Option.bind_some, attempted, if_pos hok]
  cases ok with
  | true =>
    have hguard : LaunchStore.guarded r.launchId expected r = true := by
      simp [LaunchStore.guarded, ← hok]
    exact ⟨_, mem_updateWhere.mpr (.inl ⟨r, hr, hguard, rfl⟩), rfl, hnext⟩
  | false =>
    rw [← LaunchStore.any_guarded hs hr] at hok
    rw [LaunchStore.casUpdate_of_refused hok.symm]
    exact ⟨r, hr, rfl, hnext⟩

/-- Every answer that the caller itself gets keeps the status known. -/
theorem known_note (hs : UniqueOn LaunchStore.rowId s.agentLaunchRegistry)
    (h : LaunchStore.step a s s') {known : Option (List Attempt)}
    (hk : ∀ attempts, known = some attempts → Known launchId attempts s)
    {attempts : List Attempt} (hnote : note launchId known a = some attempts) :
    Known launchId attempts s' := by
  obtain ⟨c, r⟩ := a
  cases c with
  | insert row =>
    have hother : ¬ SetsStatus launchId ⟨.insert row, r⟩ := by
      rintro ⟨expected, new, columns, heq⟩
      cases heq
    obtain e | _ | _ := r
    · exact (hk attempts hnote).other h hother
    · exact (hk attempts hnote).other h hother
    · simp only [note] at hnote
      split_ifs at hnote with hclaims
      · cases hnote
        exact hclaims.1 ▸ known_insert h hclaims.2
      · exact (hk attempts hnote).other h hother
  | casUpdate id expected new columns =>
    have hother (hne : id ≠ launchId) : ¬ SetsStatus launchId ⟨.casUpdate id expected new columns, r⟩ := by
      rintro ⟨_, _, _, heq⟩
      cases heq
      exact hne rfl
    obtain e | ok := r
    · refine (hk attempts hnote).other h ?_
      rintro ⟨_, _, _, heq⟩
      cases heq
    · simp only [note] at hnote
      split_ifs at hnote with hid
      · subst hid
        obtain ⟨before, hbefore, rfl⟩ := Option.map_eq_some_iff.mp hnote
        exact (hk before hbefore).attempt hs h
      · exact (hk attempts hnote).other h (hother hid)
  | _ =>
    refine (hk attempts hnote).other h ?_
    rintro ⟨_, _, _, heq⟩
    cases heq

end Known

/-- Attempts are noted of a launch that was claimed. -/
theorem claim_of_sinceClaim {launchId : String} {attempts : List Attempt}
    {h : List (Answered launchSignature Exn)} (hh : sinceClaim launchId h = some attempts) :
    ∃ row, row.launchId = launchId ∧ .ok (.insert row) true ∈ h := by
  induction h using List.reverseRecOn generalizing attempts with
  | nil => cases hh
  | append_singleton h a ih =>
    rw [sinceClaim_concat] at hh
    by_cases hclaim : ∃ row, row.launchId = launchId ∧ a = .ok (.insert row) true
    · obtain ⟨row, hid, rfl⟩ := hclaim
      exact ⟨row, hid, by simp⟩
    have hbefore : ∃ before, sinceClaim launchId h = some before := by
      obtain ⟨c, r⟩ := a
      cases c with
      | insert row =>
        obtain e | _ | _ := r
        · exact ⟨_, hh⟩
        · exact ⟨_, hh⟩
        · simp only [note] at hh
          split_ifs at hh with hid
          · exact absurd ⟨row, hid.1, rfl⟩ hclaim
          · exact ⟨_, hh⟩
      | casUpdate id expected new columns =>
        obtain e | ok := r
        · exact ⟨_, hh⟩
        · simp only [note] at hh
          split_ifs at hh with hid
          · obtain ⟨before, hbefore, -⟩ := Option.map_eq_some_iff.mp hh
            exact ⟨before, hbefore⟩
          · exact ⟨_, hh⟩
      | _ => exact ⟨_, hh⟩
    obtain ⟨before, hbefore⟩ := hbefore
    obtain ⟨row, hid, hmem⟩ := ih hbefore
    exact ⟨row, hid, List.mem_append_left _ hmem⟩

section Programs

/-- A launch that was looked up by its id has that id. -/
def Honest (h : List (Answered launchSignature Exn)) : Prop :=
  ∀ launchId launch, .ok (.getByLaunchId launchId) (some launch) ∈ h →
    launch.val.launchId = launchId

theorem Honest.left {h h' : List (Answered launchSignature Exn)} (hh : Honest (h ++ h')) : Honest h :=
  fun launchId launch hmem => hh launchId launch (List.mem_append_left _ hmem)

theorem casUpdateStatus_noted (launchId : String) (expected new : LaunchStatus)
    (columns : CasColumns) {attempts : List Attempt} {h : List (Answered launchSignature Exn)}
    (hclaimed : sinceClaim launchId h = some attempts) :
    (casUpdateStatus launchId expected new columns).Ensures (fun _ _ => True)
      (fun h r => ∀ ok, r = .ok ok →
        sinceClaim launchId h = some (attempts ++ [⟨expected, new, ok⟩])) h := by
  have hwhen (condition : Bool) {h : List (Answered launchSignature Exn)}
      (hh : sinceClaim launchId h = some attempts) : (nowWhen condition).Ensures (fun _ _ => True)
        (fun h _ => sinceClaim launchId h = some attempts) h := by
    cases condition with
    | false => exact hh
    | true =>
      refine (Program.ensures_perform_bind _ _).mpr ⟨trivial, fun (now : Int) => ?_, fun e => ?_⟩ <;>
      · change sinceClaim launchId _ = _
        rw [sinceClaim_concat, hh]
        rfl
  refine (hwhen _ hclaimed).bind (fun h endedAt hh => ?_) fun h e _ ok hok => nomatch hok
  refine (hwhen _ hh).bind (fun h spawnStartedAt hh => ?_) fun h e _ ok hok => nomatch hok
  refine (hwhen _ hh).bind (fun h spawnConfirmedAt hh => ?_) fun h e _ ok hok => nomatch hok
  refine ⟨trivial, ?_⟩
  rintro (e | b) ok hok
  · cases hok
  · cases hok
    rw [sinceClaim_concat, hh]
    simp [note]

/-- A request that answers `claimed` has claimed the launch that it answers. -/
def claimedOwn (h : List (Answered launchSignature Exn)) (r : Except Exn LaunchAttempt) : Prop :=
  Honest h → ∀ attempt, r = .ok attempt → attempt.decision = .claimed →
    ∃ launch, attempt.launch = some launch ∧ sinceClaim launch.val.launchId h = some []

theorem claimedOwn_of_decision {h : List (Answered launchSignature Exn)} {attempt : LaunchAttempt}
    (hdecision : attempt.decision = .suppressed ∨ attempt.decision = .error) :
    claimedOwn h (.ok attempt) := by
  rintro - attempt' hattempt hclaimed
  cases hattempt
  rw [hclaimed] at hdecision
  rcases hdecision with hd | hd <;> cases hd

theorem claimedOwn_error {h : List (Answered launchSignature Exn)} {e : Exn} :
    claimedOwn h (.error e) := by
  rintro - attempt hattempt
  cases hattempt

theorem claim_owned (launchId canonicalKey surface ownerType ownerId : String)
    (leaseExpiresAt : Int) (role parentLaunchId model : Option String)
    (h : List (Answered launchSignature Exn)) :
    (claim launchId canonicalKey surface ownerType ownerId leaseExpiresAt role parentLaunchId
      model).Ensures (fun _ _ => True) (fun h r => Honest h → ∀ launch, r = .ok (some launch) →
        sinceClaim launch.val.launchId h = some []) h := by
  refine (Program.ensures_perform_bind _ _).mpr
    ⟨trivial, fun now => ?_, fun e _ launch hlaunch => nomatch hlaunch⟩
  refine (Program.ensures_perform_bind _ _).mpr
    ⟨trivial, fun inserted => ?_, fun e _ launch hlaunch => nomatch hlaunch⟩
  obtain _ | _ := inserted
  · exact fun _ launch hlaunch => nomatch hlaunch
  refine ⟨trivial, ?_⟩
  rintro (e | found) hhonest launch hlaunch
  · cases hlaunch
  · cases hlaunch
    have hid := hhonest launchId launch (List.mem_append_right _ (List.mem_singleton_self _))
    rw [sinceClaim_concat, sinceClaim_concat, hid]
    simp [note]

theorem claimLaunch_owned (request : LaunchRequest) (h : List (Answered launchSignature Exn)) :
    (claimLaunch request).Ensures (fun _ _ => True) claimedOwn h := by
  refine (Program.ensures_perform_bind _ _).mpr
    ⟨trivial, fun launchId => ?_, fun e => claimedOwn_error⟩
  refine ((checkParent request.parentLaunchId launchId).ensures_true _).bind (fun h refusal _ => ?_) fun h e _ => claimedOwn_error
  obtain _ | reason := refusal
  swap
  · exact claimedOwn_of_decision (.inr rfl)
  refine (Program.ensures_perform_bind _ _).mpr ⟨trivial, fun now => ?_, fun e => claimedOwn_error⟩
  refine (claim_owned launchId request.canonicalKey request.surface request.ownerType request.ownerId
    _ _ _ _ _).bind (fun h claimed hclaimed => ?_) fun h e _ => claimedOwn_error
  obtain _ | launch := claimed
  · exact (Program.ensures_perform_bind _ _).mpr
      ⟨trivial, fun winner => claimedOwn_of_decision (.inl rfl), fun e => claimedOwn_error⟩
  · intro hhonest attempt hattempt _
    cases hattempt
    exact ⟨launch, rfl, hclaimed hhonest launch rfl⟩

theorem requestLaunch_owned (request : LaunchRequest) (h : List (Answered launchSignature Exn)) :
    (requestLaunch request).Ensures (fun _ _ => True) claimedOwn h := by
  refine Program.Ensures.handle (Q := claimedOwn) ?_ (fun _ _ hok => hok)
    fun h e _ => claimedOwn_of_decision (.inr rfl)
  refine (Program.ensures_perform_bind _ _).mpr ⟨trivial, fun existing => ?_, fun e => claimedOwn_error⟩
  obtain _ | existing := existing
  · exact claimLaunch_owned request _
  refine ((leaseIsValid existing).ensures_true _).bind (fun h valid _ => ?_) fun h e _ => claimedOwn_error
  obtain _ | _ := valid
  · exact ((clearExpired existing).ensures_true h).bind (fun h _ _ => claimLaunch_owned request h)
      fun h e _ => claimedOwn_error
  · exact claimedOwn_of_decision (.inl rfl)

/-- The launch that a request names as the one in its way is one that its lookup found. -/
def existingFound (canonicalKey : String) (h : List (Answered launchSignature Exn))
    (r : Except Exn LaunchAttempt) : Prop :=
  ∀ attempt existing, r = .ok attempt → attempt.existingLaunch = some existing →
    .ok (.findActiveByCanonicalKey canonicalKey) (some existing) ∈ h

theorem existingFound_error {canonicalKey : String} {h : List (Answered launchSignature Exn)} {e : Exn} :
    existingFound canonicalKey h (.error e) := fun _ _ hr => nomatch hr

theorem existingFound_none {canonicalKey : String} {h : List (Answered launchSignature Exn)}
    {attempt : LaunchAttempt} (hnone : attempt.existingLaunch = none) :
    existingFound canonicalKey h (.ok attempt) := by
  rintro _ existing ⟨⟩ hsome
  cases hnone.symm.trans hsome

theorem claimLaunch_existing (request : LaunchRequest) (h : List (Answered launchSignature Exn)) :
    (claimLaunch request).Ensures (fun _ _ => True) (existingFound request.canonicalKey) h := by
  refine (Program.ensures_perform_bind _ _).mpr
    ⟨trivial, fun launchId => ?_, fun e => existingFound_error⟩
  refine ((checkParent request.parentLaunchId launchId).ensures_true _).bind (fun h refusal _ => ?_)
    fun h e _ => existingFound_error
  obtain _ | reason := refusal
  swap
  · exact existingFound_none rfl
  refine (Program.ensures_perform_bind _ _).mpr ⟨trivial, fun now => ?_, fun e => existingFound_error⟩
  refine (Program.ensures_true _ _).bind (fun h claimed _ => ?_) fun h e _ => existingFound_error
  obtain _ | launch := claimed
  swap
  · exact existingFound_none rfl
  refine (Program.ensures_perform_bind _ _).mpr ⟨trivial, fun winner => ?_, fun e => existingFound_error⟩
  rintro attempt existing hattempt hexisting
  cases hattempt
  cases hexisting
  exact List.mem_append_right _ (List.mem_singleton_self _)

theorem requestLaunch_existing (request : LaunchRequest) (h : List (Answered launchSignature Exn)) :
    (requestLaunch request).Ensures (fun _ _ => True) (existingFound request.canonicalKey) h := by
  refine Program.Ensures.handle (Q := existingFound request.canonicalKey) ?_ (fun _ _ hok => hok)
    fun h e _ => existingFound_none rfl
  refine (Program.ensures_perform_bind _ _).mpr
    ⟨trivial, fun existing => ?_, fun e => existingFound_error⟩
  obtain _ | existing := existing
  · exact claimLaunch_existing request _
  refine (((leaseIsValid existing).ensures_true _).extends).bind (fun h valid hvalid => ?_)
    fun h e _ => existingFound_error
  obtain _ | _ := valid
  · exact ((clearExpired existing).ensures_true h).bind (fun h _ _ => claimLaunch_existing request h)
      fun h e _ => existingFound_error
  · rintro attempt existing' hattempt hexisting
    cases hattempt
    cases hexisting
    exact hvalid.2.subset (List.mem_append_right _ (List.mem_singleton_self _))

end Programs

section Seen

variable {σ : Signature} {α : Type} (seen : Answered σ Exn → Option (Answered launchSignature Exn))

/-- A caller whose answers from the registry are these has claimed the launch and has tried these
edges on it since. -/
def Owns (launchId : Option String) (edges : List (LaunchStatus × LaunchStatus))
    (h : List (Answered σ Exn)) : Prop :=
  Honest (h.filterMap seen) → ∃ id attempts, launchId = some id ∧
    sinceClaim id (h.filterMap seen) = some attempts ∧
    attempts.map (fun a => (a.expected, a.new)) = edges

variable {seen} {launchId : Option String} {edges : List (LaunchStatus × LaunchStatus)}
variable {h : List (Answered σ Exn)}

theorem Owns.concat (hown : Owns seen launchId edges h) {a : Answered σ Exn}
    (ha : ∀ a', seen a = some a' → claimsOrSets a'.call = false) :
    Owns seen launchId edges (h ++ [a]) := by
  intro hhonest
  rw [List.filterMap_append] at hhonest ⊢
  obtain ⟨id, attempts, hid, hattempts, hedges⟩ := hown hhonest.left
  refine ⟨id, attempts, hid, ?_, hedges⟩
  rw [List.filterMap_cons, List.filterMap_nil]
  cases hseen : seen a with
  | none => simpa using hattempts
  | some a' =>
    change sinceClaim id (_ ++ [a']) = _
    rw [sinceClaim_concat, note_of_not_claimsOrSets (ha a' hseen), hattempts]

theorem Owns.none (hown : Owns seen .none edges h) (edges' : List (LaunchStatus × LaunchStatus)) :
    Owns seen .none edges' h := by
  intro hhonest
  obtain ⟨id, attempts, hid, -⟩ := hown hhonest
  cases hid

theorem dishonest_stays (p : Program σ Exn α) (hdishonest : ¬ Honest (h.filterMap seen)) :
    p.Ensures (fun _ _ => True) (fun h _ => ¬ Honest (h.filterMap seen)) h := by
  induction p generalizing h with
  | ret a => exact hdishonest
  | fail e => exact hdishonest
  | call c next ih =>
    refine ⟨trivial, fun r => ih r fun hhonest => hdishonest ?_⟩
    rw [List.filterMap_append] at hhonest
    exact hhonest.left

variable {i : Embedding launchSignature σ} (hseen : ∀ a, seen (.lift i a) = some a)
include hseen

theorem ensures_seen {p : LaunchProgram α} {Ψ : List (Answered launchSignature Exn) → Except Exn α → Prop}
    (hp : p.Ensures (fun _ _ => True) Ψ (h.filterMap seen)) :
    (p.lift i).Ensures (fun _ _ => True) (fun h r => Ψ (h.filterMap seen) r) h := by
  have hall : ∀ own : List (Answered launchSignature Exn),
      (h ++ own.map (Answered.lift i)).filterMap seen = h.filterMap seen ++ own := by
    intro own
    rw [List.filterMap_append, List.filterMap_map]
    congr 1
    rw [show seen ∘ Answered.lift i = some from funext hseen, List.filterMap_some]
  rw [← List.append_nil (h.filterMap seen)] at hp
  have hlift := Program.Ensures.lift (Φ := fun _ _ => True)
    (Ψ := fun h r => Ψ (h.filterMap seen) r) (h := h) i (k := [])
    (p := p) (hp.shift.mono (fun _ _ _ => trivial) fun own r hr => by rwa [hall])
  simpa using hlift

theorem requestLaunch_owns (request : LaunchRequest) (h : List (Answered σ Exn)) :
    ((requestLaunch request).lift i).Ensures (fun _ _ => True) (fun h r => ∀ attempt, r = .ok attempt →
      attempt.decision = .claimed → Owns seen (attempt.launch.map (·.val.launchId)) [] h) h := by
  refine (ensures_seen hseen (requestLaunch_owned request _)).mono (fun _ _ _ => trivial) ?_
  intro h r hown attempt hattempt hdecision hhonest
  obtain ⟨launch, hlaunch, hclaimed⟩ := hown hhonest attempt hattempt hdecision
  exact ⟨_, [], by rw [hlaunch]; rfl, hclaimed, rfl⟩

theorem requestLaunch_existing_seen (request : LaunchRequest) (h : List (Answered σ Exn)) :
    ((requestLaunch request).lift i).Ensures (fun _ _ => True) (fun h r => ∀ attempt existing,
      r = .ok attempt → attempt.existingLaunch = some existing →
        .ok (.findActiveByCanonicalKey request.canonicalKey) (some existing) ∈ h.filterMap seen) h :=
  ensures_seen hseen (requestLaunch_existing request _)

theorem casUpdateStatus_owns {id : String} (hown : Owns seen (some id) edges h)
    (expected new : LaunchStatus) (columns : CasColumns) :
    ((casUpdateStatus id expected new columns).lift i).Ensures (fun _ _ => True)
      (fun h r => ∀ ok, r = .ok ok → Owns seen (some id) (edges ++ [(expected, new)]) h) h := by
  by_cases hhonest : Honest (h.filterMap seen)
  swap
  · refine (dishonest_stays _ hhonest).mono (fun _ _ h => h) ?_
    exact fun h r hdishonest ok _ hhonest => absurd hhonest hdishonest
  obtain ⟨id', attempts, hid, hattempts, hedges⟩ := hown hhonest
  cases hid
  refine (ensures_seen hseen (casUpdateStatus_noted id expected new columns hattempts)).mono
    (fun _ _ h => h) ?_
  intro h r hnoted ok hok _
  exact ⟨id, _, rfl, hnoted ok hok, by rw [List.map_append, hedges]; rfl⟩

end Seen

end ForkAgent.Launch

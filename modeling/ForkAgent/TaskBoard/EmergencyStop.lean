import ForkAgent.Effects.Serial
import ForkAgent.TaskBoard.Served
import ForkAgent.TaskBoard.Writes

/-!
# The emergency stop

`mark_fail` marks the proposal that was active when it looked, and a start asks the gate before it
writes. Between a marker on the active proposal and a start that asks after it, the target has got
another sealed proposal.
-/

namespace ForkAgent.TaskBoard

open Effects Storage Fpel Fpel.FpelStore

variable {H : Hashing} {tr : List (boardSystem H).Event} {cfg : (boardSystem H).Config}

/-- The last call of a `mark_fail` of the target, which marks the proposal. -/
def MarksFailed (targetId frozenProposalId : String) (e : (boardSystem H).Event) : Prop :=
  (∃ reason, e.op = .fpel (.markFail targetId reason)) ∧
    ∃ reason, e.answered = .ok (.inr (.markFailed frozenProposalId reason)) ()

/-- The write with which a start of the task commits. -/
def Starts (taskId : String) (e : (boardSystem H).Event) : Prop :=
  (∃ owner requestedBy, e.op = .start taskId owner requestedBy) ∧
    ∃ task expected, e.answered = .ok (.inl (.casSave task expected)) true

/-- A legacy snapshot of the target. -/
def SnapshotsLegacy (targetId : String) (e : (boardSystem H).Event) : Prop :=
  ∃ (proposal : FrozenProposal H) (verdict : SealedVerdict) (supersedeIds : List String),
    e.answered = .ok (.inr (.saveFrozenWithSealedVerdict proposal verdict supersedeIds)) () ∧
    proposal.val.targetId = targetId

/-- A freeze of the target and then a seal of the proposal it saved. -/
def FreezesThenSeals (targetId : String) (d e : (boardSystem H).Event) : Prop :=
  ∃ (proposal : FrozenProposal H) (supersedeIds : List String) (verdict : SealedVerdict),
    d.answered = .ok (.inr (.saveFrozenProposal proposal supersedeIds)) () ∧
    proposal.val.targetId = targetId ∧ e.answered = .ok (.inr (.saveSealedVerdict verdict)) () ∧
    verdict.val.frozenProposalId = proposal.val.frozenProposalId

/-- The target was sealed anew. -/
def Reopened (targetId : String) (mid : List (boardSystem H).Event) : Prop :=
  (∃ e ∈ mid, SnapshotsLegacy targetId e) ∨
    ∃ d e, [d, e].Sublist mid ∧ FreezesThenSeals targetId d e

/-- Between the marker of a `mark_fail` and the write of a start the target was sealed anew. -/
def EmergencyStop (tr : List (boardSystem H).Event) : Prop :=
  ∀ targetId frozenProposalId pre m mid e post, tr = pre ++ m :: (mid ++ e :: post) →
    MarksFailed targetId frozenProposalId m → Starts targetId e → Reopened targetId mid

theorem board_references (run : (boardSystem H).Run tr cfg) : cfg.store.2.References := by
  refine run.invariant (I := fun s => s.2.References) ?_ ?_ ?_
  · rintro s rfl v hv
    cases hv
  · intro e he hs
    have hstep := run.step_of_mem he
    obtain ⟨i, o, ⟨c | c, r⟩, s, s'⟩ := e
    · rw [hstep.2]
      exact hs
    · exact hs.step hstep.1
  · rintro s s' hs ⟨-, report, hreport⟩
    rw [insertReport_ok hreport]
    exact hs

/-- A legacy snapshot seals the proposal that it saves. -/
def sealsOwn : (boardSignature H).Call → Prop
  | .inr (.saveFrozenWithSealedVerdict proposal verdict _) =>
    verdict.val.frozenProposalId = proposal.val.frozenProposalId
  | _ => True

theorem fpel_sealsOwn (op : FpelOp) : ((op.program H).lift (.inr taskSignature _)).OnlyCalls sealsOwn := by
  refine .lift (Program.Ensures.onlyCalls (Ψ := fun _ _ => True) (h := []) ?_)
  refine (program_guarded op).mono (fun h c hc => ?_) fun _ _ h => h
  cases c with
  | saveFrozenWithSealedVerdict proposal verdict ids => exact hc.2.1
  | _ => trivial

theorem verdict_of_snapshot (run : (boardSystem H).Run tr cfg) {e : (boardSystem H).Event}
    (he : e ∈ tr) {proposal : FrozenProposal H} {verdict : SealedVerdict} {ids : List String}
    (hcall : e.answered = .ok (.inr (.saveFrozenWithSealedVerdict proposal verdict ids)) ()) :
    verdict.val.frozenProposalId = proposal.val.frozenProposalId := by
  obtain ⟨pre, post, htr⟩ := List.append_of_mem he
  have hwrites := (run.ensures_event htr (program_writes e.op)).2
  rw [hcall] at hwrites
  obtain ⟨op, hop⟩ : ∃ op, e.op = .fpel op := by
    rcases hwrites with hop | hsaves
    · exact hop
    · cases hsaves
  have hown : ((boardSystem H).program e.op).Ensures (fun _ c => sealsOwn c) (fun _ _ => True) [] := by
    rw [hop]
    exact (fpel_sealsOwn op).ensures (fun _ _ hc => hc) fun _ _ => trivial
  have hseals := run.ensures_event htr hown
  rw [hcall] at hseals
  exact hseals

theorem gate_of_start (run : (boardSystem H).Run tr cfg) {pre post : List (boardSystem H).Event}
    {e : (boardSystem H).Event} (htr : tr = pre ++ e :: post) {taskId : String}
    (he : Starts taskId e) :
    ∃ (a f v : (boardSystem H).Event) (frozen : FrozenProposal H) (verdict : SealedVerdict),
      [a, f, v].Sublist pre ∧ a.caller = e.caller ∧
      a.answered = .ok (.inr (.getActiveFrozenProposal taskId)) (some frozen) ∧
      f.answered = .ok (.inr (.isFailed frozen.val.frozenProposalId)) false ∧
      v.answered = .ok (.inr (.getSealedVerdict frozen.val.frozenProposalId)) (some verdict) := by
  obtain ⟨⟨owner, requestedBy, hop⟩, task, expected, hcas⟩ := he
  have hguard : startGuard taskId (System.Run.history e.caller pre) e.answered.call := by
    obtain ⟨i, o, a, before, after⟩ := e
    cases hop
    exact run.ensures_event htr (start_guarded taskId owner requestedBy)
  rw [hcas] at hguard
  obtain ⟨-, read, hash, frozen, verdict, hread, -, -, -⟩ := hguard
  obtain ⟨es, hes, hcaller, hanswers⟩ := System.Run.events_of_history hread
  obtain ⟨t, es, rfl, ht, hanswers⟩ := List.map_eq_cons_iff.mp hanswers
  obtain ⟨a, es, rfl, ha, hanswers⟩ := List.map_eq_cons_iff.mp hanswers
  obtain ⟨f, es, rfl, hf, hanswers⟩ := List.map_eq_cons_iff.mp hanswers
  obtain ⟨v, es, rfl, hv, hanswers⟩ := List.map_eq_cons_iff.mp hanswers
  obtain rfl := List.map_eq_nil_iff.mp hanswers
  exact ⟨a, f, v, frozen, verdict, (List.sublist_cons_self t _).trans hes, hcaller a (by simp), ha,
    hf, hv⟩

theorem indexed_before (run : (boardSystem H).Run tr cfg) {e : (boardSystem H).Event} (he : e ∈ tr) :
    e.before.2.Indexed := by
  obtain ⟨pre, ss, hbefore⟩ := run.reaches_before he
  exact board_indexed hbefore

theorem fpel_step (run : (boardSystem H).Run tr cfg) {e : (boardSystem H).Event} (he : e ∈ tr)
    {c : FpelCall H} {v : c.Value} (hanswered : e.answered = .ok (.inr c) v) :
    FpelStore.step H (.ok c v) e.before.2 e.after.2 := by
  have hstep := run.step_of_mem he
  rw [hanswered] at hstep
  exact hstep.1

/-- A proposal that is active and unfailed after the active one was marked is a new one. -/
theorem fresh_of_unfailed (run : (boardSystem H).Run tr cfg) {m a f : (boardSystem H).Event}
    (horder : [m, a, f].Sublist tr) {targetId markedId : String} (hm : MarksFailed targetId markedId m)
    {marked row : ProposalRow} (hmarked : marked ∈ m.before.2.activeRows targetId)
    (hid : marked.frozenProposalId = markedId) (hrow : row ∈ a.before.2.activeRows targetId)
    (hf : f.answered = .ok (.inr (.isFailed row.frozenProposalId)) false) :
    m.after.2.hasProposal row.frozenProposalId = false := by
  obtain ⟨-, reason, hmark⟩ := hm
  have hmem : ∀ e ∈ [m, a, f], e ∈ tr := fun e he => horder.subset he
  have hgrow := (board_grows run).1.sublist horder
  simp only [List.pairwise_cons, List.mem_cons, List.not_mem_nil] at hgrow
  obtain ⟨hfailed, hkept⟩ := markFailed_ok (fpel_step run (hmem m (by simp)) hmark)
  obtain ⟨-, hunfailed⟩ := isFailed_ok (fpel_step run (hmem f (by simp)) hf)
  have hmAfter : m.after.2.Indexed := by
    have hbefore := indexed_before run (hmem m (by simp))
    exact hbefore.step (fpel_step run (hmem m (by simp)) hmark)
  obtain ⟨hrowmem, hactive, htarget⟩ := mem_activeRows.mp hrow
  by_contra hthere
  obtain ⟨old, hold, holdid⟩ := List.any_eq_true.mp (eq_true_of_ne_false hthere)
  have hsucc := (hgrow.1 a (by simp)).succeeds (indexed_before run (hmem a (by simp))) hold hrowmem
    (beq_iff_eq.mp holdid).symm
  -- it would have been active beside the marked one
  have holdrow : old ∈ m.after.2.activeRows targetId :=
    mem_activeRows.mpr ⟨hold, hsucc.active hactive, by rw [← hsucc.targetId, htarget]⟩
  have hmarkedrow : marked ∈ m.after.2.activeRows targetId := by
    obtain ⟨hstored, hrest⟩ := mem_activeRows.mp hmarked
    exact mem_activeRows.mpr ⟨by rw [hkept]; exact hstored, hrest⟩
  have hsame : marked = old := by
    have hone := hmAfter.activeRows_eq holdrow
    rw [hone, List.mem_singleton] at hmarkedrow
    exact hmarkedrow
  have hlater := (hgrow.1 f (by simp)).failures markedId hfailed
  rw [← hid, hsame, ← hsucc.frozenProposalId, ← hunfailed] at hlater
  cases hlater

theorem fpel_changed (run : (boardSystem H).Run tr cfg) {e : (boardSystem H).Event} (he : e ∈ tr)
    {P : FpelStore → Prop} (hbefore : P e.before.2) (hafter : ¬ P e.after.2) :
    ∃ (c : FpelCall H) (r : Except Exn c.Value), e.answered = ⟨.inr c, r⟩ ∧
      FpelStore.step H ⟨c, r⟩ e.before.2 e.after.2 := by
  have hstep := run.step_of_mem he
  obtain ⟨i, o, ⟨c | c, r⟩, s, s'⟩ := e
  · have hsame : s'.2 = s.2 := hstep.2
    exact absurd (hsame ▸ hbefore) hafter
  · exact ⟨c, r, rfl, hstep.1⟩

theorem targetId_of_saved (run : (boardSystem H).Run tr cfg) {d e : (boardSystem H).Event}
    (horder : [d, e].Sublist tr) {proposal : FrozenProposal H} {row : ProposalRow}
    (hsaved : ∃ r ∈ d.after.2.frozenProposals, r.toFrozenProposalFields = proposal.val)
    (hrow : row ∈ e.before.2.frozenProposals)
    (hid : proposal.val.frozenProposalId = row.frozenProposalId) :
    proposal.val.targetId = row.targetId := by
  obtain ⟨r, hr, hfields⟩ := hsaved
  have hgrow : Grows d.after.2 e.before.2 :=
    List.rel_of_pairwise_cons ((board_grows run).1.sublist horder) (by simp)
  have hsucc := hgrow.succeeds (indexed_before run (horder.subset (by simp))) hr hrow
    (by rw [← hid, ← hfields])
  rw [← hfields, hsucc.targetId]

theorem pair_sublist {α : Type} {x y : α} {l : List α} (xs ys zs : List α)
    (h : l = xs ++ x :: (ys ++ y :: zs)) : [x, y].Sublist l := by
  rw [h]
  exact ((List.singleton_sublist.mpr (by simp)).cons_cons x).trans (List.sublist_append_right xs _)

/-- A proposal that was not there at the marker and is sealed later was saved and sealed in
between. -/
theorem reopened_of_fresh (run : (boardSystem H).Run tr cfg)
    {pre early late rest post : List (boardSystem H).Event} {m a v e : (boardSystem H).Event}
    (htr : tr = pre ++ m :: ((early ++ a :: (late ++ v :: rest)) ++ e :: post)) {targetId : String}
    {row : ProposalRow} (hrow : row ∈ a.before.2.activeRows targetId)
    (hfresh : m.after.2.hasProposal row.frozenProposalId = false) {verdict : SealedVerdict}
    (hv : v.answered = .ok (.inr (.getSealedVerdict row.frozenProposalId)) (some verdict)) :
    Reopened targetId (early ++ a :: (late ++ v :: rest)) := by
  obtain ⟨hrowmem, -, htarget⟩ := mem_activeRows.mp hrow
  have hthere : a.before.2.hasProposal row.frozenProposalId = true :=
    List.any_eq_true.mpr ⟨row, hrowmem, by simp⟩
  -- the proposal is saved
  have hsplit : tr = pre ++ m :: (early ++ a :: (late ++ v :: (rest ++ e :: post))) := by
    simp [htr]
  obtain ⟨x, hx, hxbefore, hxafter⟩ := run.undone_between
    (P := fun s => s.2.hasProposal row.frozenProposalId = false)
    (by rintro s s' ⟨-, report, hreport⟩ hs; rw [insertReport_ok hreport]; exact hs)
    hsplit hfresh (by rw [hthere]; decide)
  have hxmem : x ∈ tr := by simp [htr, hx]
  obtain ⟨c, r, hxanswered, hxstep⟩ := fpel_changed run hxmem
    (P := fun s => s.hasProposal row.frozenProposalId = false) hxbefore hxafter
  obtain ⟨proposal, hpid, hsaved, hcall⟩ :=
    proposal_inserted hxstep hxbefore (eq_true_of_ne_false hxafter)
  obtain ⟨early₁, early₂, rfl⟩ := List.append_of_mem hx
  have hxa : [x, a].Sublist tr :=
    pair_sublist (pre ++ m :: early₁) early₂ (late ++ v :: (rest ++ e :: post)) (by simp [htr])
  have hptarget : proposal.val.targetId = targetId := by
    rw [targetId_of_saved run hxa hsaved hrowmem hpid, htarget]
  rcases hcall with ⟨ids, hsave, hverdicts⟩ | ⟨w, ids, hsave⟩
  swap
  · cases hsave
    exact .inl ⟨x, by simp, proposal, w, ids, hxanswered, hptarget⟩
  cases hsave
  -- and then sealed: at first no verdict is about it
  obtain ⟨prex, ss, hxrun⟩ := run.reaches_before hxmem
  have hunsealed : ∀ w ∈ x.after.2.sealedVerdicts, w.frozenProposalId ≠ row.frozenProposalId := by
    intro w hw heq
    rw [hverdicts] at hw
    have hreferences := board_references hxrun w hw
    rw [heq, hxbefore] at hreferences
    cases hreferences
  have hvmem : v ∈ tr := by simp [htr]
  obtain ⟨-, hverdictmem, hverdictid⟩ := getSealedVerdict_ok (fpel_step run hvmem hv)
  have hsplit' : tr = (pre ++ m :: early₁) ++ x :: ((early₂ ++ a :: late) ++ v ::
      (rest ++ e :: post)) := by
    simp [htr]
  obtain ⟨y, hy, hybefore, hyafter⟩ := run.undone_between
    (P := fun s => ∀ w ∈ s.2.sealedVerdicts, w.frozenProposalId ≠ row.frozenProposalId)
    (by rintro s s' ⟨-, report, hreport⟩ hs; rw [insertReport_ok hreport]; exact hs)
    hsplit' hunsealed (fun h => h _ hverdictmem hverdictid)
  have hymid : y ∈ early₁ ++ x :: early₂ ++ a :: (late ++ v :: rest) := by
    simp only [List.mem_append, List.mem_cons] at hy ⊢
    tauto
  have hymem : y ∈ tr := by
    rw [htr]
    exact List.mem_append_right _ (List.mem_cons_of_mem _ (List.mem_append_left _ hymid))
  obtain ⟨c, r, hyanswered, hystep⟩ := fpel_changed run hymem
    (P := fun s => ∀ w ∈ s.sealedVerdicts, w.frozenProposalId ≠ row.frozenProposalId) hybefore hyafter
  obtain ⟨w, hw, hwid⟩ : ∃ w ∈ y.after.2.sealedVerdicts, w.frozenProposalId = row.frozenProposalId := by
    simpa using hyafter
  obtain ⟨between₁, between₂, hbetween⟩ := List.append_of_mem hy
  rcases verdict_inserted hystep (fun hmem => hybefore w hmem hwid) hw with
    ⟨verdict', rfl, hsave⟩ | ⟨proposal', verdict', ids', rfl, hsave, hsaved'⟩
  · cases hsave
    refine .inr ⟨x, y, ?_, proposal, ids, verdict', hxanswered, hptarget, hyanswered, ?_⟩
    · refine pair_sublist early₁ between₁ (between₂ ++ v :: rest) ?_
      have := congrArg (fun l => early₁ ++ x :: (l ++ v :: rest)) hbetween
      simpa using this
    · rw [hwid, hpid]
  · cases hsave
    have hid' := verdict_of_snapshot run hymem hyanswered
    have hxv : [x, v].Sublist tr := by
      exact pair_sublist (pre ++ m :: early₁) (early₂ ++ a :: late) (rest ++ e :: post)
        (by simp [htr])
    have hyv : [y, v].Sublist tr := by
      refine pair_sublist (pre ++ m :: (early₁ ++ x :: between₁)) between₂ (rest ++ e :: post) ?_
      have := congrArg (fun l => pre ++ m :: (early₁ ++ x :: (l ++ v :: (rest ++ e :: post)))) hbetween
      simpa [htr] using this
    -- the row that was saved is still of the target when the verdict is read
    obtain ⟨saved, hsavedmem, hfields⟩ := hsaved
    have hgrow : Grows x.after.2 v.before.2 :=
      List.rel_of_pairwise_cons ((board_grows run).1.sublist hxv) (by simp)
    obtain ⟨later, hlater, hsucc⟩ := hgrow.proposals saved hsavedmem
    have hytarget : proposal'.val.targetId = targetId := by
      rw [targetId_of_saved run hyv hsaved' hlater, hsucc.targetId, ← hptarget, ← hfields]
      rw [hsucc.frozenProposalId, ← hid', hwid, ← hpid, ← hfields]
    exact .inl ⟨y, hymid, proposal', verdict', ids', hyanswered, hytarget⟩

theorem sublist_after {α : Type} {x y : α} {l xs ys : List α} (h : (x :: l).Sublist (xs ++ y :: ys))
    (hxs : x ∉ xs) (hy : x ≠ y) : (x :: l).Sublist ys := by
  obtain ⟨before, after, heq, hbefore, hafter⟩ := List.sublist_append_iff.mp h
  obtain _ | ⟨z, before⟩ := before
  · rw [List.nil_append] at heq
    rw [← heq] at hafter
    rcases List.sublist_cons_iff.mp hafter with hys | ⟨rest, hrest, -⟩
    · exact hys
    · exact absurd (List.cons.inj hrest).1 hy
  · rw [(List.cons.inj heq).1] at hxs
    exact absurd (hbefore.subset List.mem_cons_self) hxs

/-- The emergency stop is effective in every run in which each `mark_fail` marks the proposal that
is still active, and no start that writes after a marker had looked up the active proposal before
it. -/
theorem emergency_stop_effective (run : (boardSystem H).Run tr cfg)
    (hactive : ∀ targetId frozenProposalId, ∀ m ∈ tr, MarksFailed targetId frozenProposalId m →
      ∃ row ∈ m.before.2.activeRows targetId, row.frozenProposalId = frozenProposalId)
    (hlate : ∀ targetId frozenProposalId pre m mid e post, tr = pre ++ m :: (mid ++ e :: post) →
      MarksFailed targetId frozenProposalId m → Starts targetId e → ∀ a ∈ pre, a.caller = e.caller →
        ∀ found, a.answered ≠ .ok (.inr (.getActiveFrozenProposal targetId)) found) :
    EmergencyStop tr := by
  intro targetId frozenProposalId pre m mid e post htr hm he
  have hsplit : tr = (pre ++ m :: mid) ++ e :: post := by simp [htr]
  obtain ⟨a, f, v, frozen, verdict, hreads, hcaller, ha, hf, hv⟩ := gate_of_start run hsplit he
  -- the three reads of the gate come after the marker
  have hmid : [a, f, v].Sublist mid := by
    refine sublist_after hreads (fun hpre => ?_) fun heq => ?_
    · exact hlate targetId frozenProposalId pre m mid e post htr hm he a hpre hcaller _ ha
    · obtain ⟨-, reason, hmark⟩ := hm
      rw [heq, hmark] at ha
      cases ha
  have horder : [m, a, f].Sublist tr := by
    rw [htr]
    have haf := (List.sublist_append_left [a, f] [v]).trans hmid
    exact ((haf.trans (List.sublist_append_left mid _)).cons_cons m).trans
      (List.sublist_append_right pre _)
  obtain ⟨early, rest, rfl, hearly, hfv⟩ := List.cons_sublist_iff.mp hmid
  obtain ⟨early, late, rfl⟩ := List.append_of_mem hearly
  obtain ⟨late', rest', hv'⟩ := List.append_of_mem (hfv.subset (by simp : v ∈ [f, v]))
  have hmem : m ∈ tr := by simp [htr]
  have hamem : a ∈ tr := by simp [htr]
  obtain ⟨marked, hmarked, hid⟩ := hactive targetId frozenProposalId m hmem hm
  obtain ⟨-, row, hrow, hfields⟩ := getActiveFrozenProposal_ok (fpel_step run hamem ha)
  have hrowid : frozen.val.frozenProposalId = row.frozenProposalId := by rw [← hfields]
  rw [hrowid] at hf hv
  have hfresh := fresh_of_unfailed run horder hm hmarked hid hrow hf
  have hwhole : tr = pre ++ m :: ((early ++ a :: ((late ++ late') ++ v :: rest')) ++ e :: post) := by
    rw [htr, hv']
    simp
  have hreopened := reopened_of_fresh run hwhole hrow hfresh hv
  rw [hv']
  simpa using hreopened

/-- A legacy snapshot of the planned task by a caller that has returned. -/
private def snapshotPlan : BoardOp :=
  .fpel (.snapshotLegacyTask "task-1" (some "plan") "subject" none)

private def sealedBoard : (boardSystem planHashing).Config :=
  ⟨({}, planStore), Function.update (fun _ => none) 0
    (some ⟨snapshotPlan, .ofExcept (.ok (planProposal, planVerdict))⟩)⟩

private theorem sealed_plan : ∃ tr, (boardSystem planHashing).Run tr sealedBoard ∧
    ∀ e ∈ tr, e.op = snapshotPlan := by
  have hinitial : (boardSystem planHashing).Run [] ⟨({}, {}), fun _ => none⟩ := .initial rfl
  have hruns : ((boardSystem planHashing).program snapshotPlan).Runs (boardSystem planHashing).step
      ({}, {}) (.ok (planProposal, planVerdict)) ({}, planStore) := snapshot_plan.lift_inr
  obtain ⟨h, hreaches⟩ := Program.Runs.reaches hruns
  obtain ⟨tr, hrun, -, hop⟩ := (hinitial.invoke 0 rfl snapshotPlan).advance
    (Function.update_self 0 _ _) hreaches.disturbed
  exact ⟨tr, by simpa [sealedBoard] using hrun, fun e he => (hop e he).2⟩

/-- The planned task, as it was approved and sealed. -/
private def approvedMoves : Moves :=
  perform 1 (.create "subject" none none) 3 ++ perform 2 (.submitPlan "task-1" "plan" none) 3 ++
    perform 3 (.approve "task-1" "lead" none) 3

/-- A `mark_fail` that marks a proposal which is active. -/
private def marksActive (e : (boardSystem planHashing).Event) : Bool :=
  match e with
  | ⟨_, .fpel (.markFail targetId _), ⟨.inr (.markFailed frozenProposalId _), .ok ()⟩, s, _⟩ =>
    (s.2.activeRows targetId).any (·.frozenProposalId == frozenProposalId)
  | _ => true

private def commitsStart (e : (boardSystem planHashing).Event) : Bool :=
  match e with
  | ⟨_, .start .., ⟨.inl (.casSave ..), .ok true⟩, _, _⟩ => true
  | _ => false

/-- A start that asks the gate after the marker is refused. -/
theorem emergency_stop_effective_plan :
    ∃ tr cfg, (boardSystem planHashing).Run tr cfg ∧ EmergencyStop tr ∧
      (∃ m ∈ tr, MarksFailed "task-1" "fp-0123456789ab" m) ∧
      cfg.store.1.orchestrationTasks.map (·.val.status) = [.approved] := by
  obtain ⟨tr, hsealed, hsnapshot⟩ := sealed_plan
  obtain ⟨tr', cfg, hplay, hactive, hstarts, hstatus, m, hm, hmark⟩ : ∃ tr' cfg,
      playBoard (approvedMoves ++ perform 4 (.fpel (.markFail "task-1" none)) 2 ++
        perform 5 (.start "task-1" "agent" none) 3) sealedBoard = some (tr', cfg) ∧
      tr'.all marksActive = true ∧ tr'.any commitsStart = false ∧
      cfg.store.1.orchestrationTasks.map (·.val.status) = [.approved] ∧
      ∃ m ∈ tr'[10]?, m.op = .fpel (.markFail "task-1" none) ∧
        m.answered = .ok (.inr (.markFailed "fp-0123456789ab" none)) () :=
    ⟨_, _, rfl, rfl, rfl, rfl, _, rfl, rfl, rfl⟩
  have hrun := run_of_play hsealed hplay
  have hnone : ∀ e ∈ tr ++ tr', ∀ targetId, ¬ Starts targetId e := by
    rintro e he targetId ⟨⟨owner, requestedBy, hop⟩, task, expected, hcas⟩
    rcases List.mem_append.mp he with he | he
    · have hops := hop.symm.trans (hsnapshot e he)
      cases hops
    · have hcommits := List.any_eq_false.mp hstarts e he
      obtain ⟨i, o, a, s, s'⟩ := e
      cases hop
      cases hcas
      exact hcommits rfl
  refine ⟨_, _, hrun, emergency_stop_effective hrun ?_ ?_, ⟨m, ?_, ⟨none, hmark.1⟩, none, hmark.2⟩,
    hstatus⟩
  · rintro targetId frozenProposalId e he ⟨⟨reason, hop⟩, why, hmarks⟩
    rcases List.mem_append.mp he with he | he
    · have hops := hop.symm.trans (hsnapshot e he)
      cases hops
    · have hany := List.all_eq_true.mp hactive e he
      obtain ⟨i, o, a, s, s'⟩ := e
      cases hop
      cases hmarks
      obtain ⟨row, hrow, hid⟩ := List.any_eq_true.mp hany
      exact ⟨row, hrow, beq_iff_eq.mp hid⟩
  · intro targetId frozenProposalId pre m mid e post htr hm he
    exact absurd he (hnone e (by simp [htr]) targetId)
  · exact List.mem_append_right _ (List.mem_of_getElem? hm)

/-- A start that was past the gate when the proposal was marked commits after the marker. -/
theorem start_after_mark_fail :
    ¬ ∀ tr cfg, (boardSystem planHashing).Run tr cfg → EmergencyStop tr := by
  intro h
  obtain ⟨tr, hsealed, -⟩ := sealed_plan
  obtain ⟨tr', cfg, hplay, m, e, hsplit, hm, hmark, he, task, hcas⟩ : ∃ tr' cfg,
      playBoard (approvedMoves ++ invoke 5 (.start "task-1" "agent" none) ++ calls 5 5 ++
        perform 4 (.fpel (.markFail "task-1" none)) 2 ++ calls 5 1) sealedBoard = some (tr', cfg) ∧
      ∃ m e, tr' = tr'.take 15 ++ [m, e] ∧ m.op = .fpel (.markFail "task-1" none) ∧
      m.answered = .ok (.inr (.markFailed "fp-0123456789ab" none)) () ∧
      e.op = .start "task-1" "agent" none ∧
      ∃ task, e.answered = .ok (.inl (.casSave task .approved)) true :=
    ⟨_, _, rfl, _, _, rfl, rfl, rfl, rfl, _, rfl⟩
  have hrun := run_of_play hsealed hplay
  have hreopened := h _ _ hrun "task-1" "fp-0123456789ab" (tr ++ tr'.take 15) m [] e [] ?_
    ⟨⟨none, hm⟩, none, hmark⟩ ⟨⟨"agent", none, he⟩, task, .approved, hcas⟩
  · rcases hreopened with ⟨e, he, -⟩ | ⟨d, e, hde, -⟩
    · cases he
    · cases hde
  · conv_lhs => rw [hsplit]
    simp

end ForkAgent.TaskBoard

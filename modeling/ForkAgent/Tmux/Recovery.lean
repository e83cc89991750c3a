import ForkAgent.Tmux.Tripping
import Mathlib.Data.List.DropRight

/-!
# Whether a breaker lets a call through again

Time opens a breaker half, but nothing but an outcome gives back a half-open call. Where as many calls were
let through as the policy allows and no outcome is recorded of them, no time is long enough.
-/

namespace ForkAgent.Tmux

open Effects TmuxCircuitBreaker

/-- The failures since the last success or reset. -/
def failuresSince (h : List circuitBreaking.Done) : Nat :=
  ((h.rtakeWhile fun e => e.op ≠ .recordSuccess ∧ e.op ≠ .reset).filter fun e => e.op = .recordFailure).length

/-- The calls that were let through since the last outcome or reset. -/
def admissionsSince (h : List circuitBreaking.Done) : Nat :=
  (admissions (h.rtakeWhile fun e => e.op = .canExecute ∨ e.op = .state)).length

/-- The breaker is not closed, and as many calls as the policy allows wait for their outcome. -/
def Exhausted (policy : ResiliencePolicy) (h : List circuitBreaking.Done) : Prop :=
  (0 < failuresSince h ∧ policy.failureThreshold ≤ failuresSince h) ∧
    policy.halfOpenMaxCalls ≤ admissionsSince h

instance (policy : ResiliencePolicy) (h : List circuitBreaking.Done) : Decidable (Exhausted policy h) :=
  inferInstanceAs (Decidable (_ ∧ _))

/-- Whenever the recovery timeout is over after every failure and every half-open call that was let through,
a call is let through. -/
def Recovers (breaker : TmuxCircuitBreaker) (h : List circuitBreaking.Done) : Prop :=
  ∀ now, (∀ e ∈ h, e.time ≤ now) →
    (∀ e ∈ h, e.op = .recordFailure → breaker.policy.recoveryTimeoutSeconds ≤ now - e.time) →
    (∀ e ∈ h, BreakerCall.admits e.op e.value = true → e.after.state = .halfOpen →
      breaker.policy.recoveryTimeoutSeconds ≤ now - e.time) →
    (breaker.canExecute now).1 = true

section Tracks

/-- What the state of a breaker says of the calls that led to it. -/
structure Tracks (policy : ResiliencePolicy) (h : List circuitBreaking.Done) (breaker : TmuxCircuitBreaker) :
    Prop where
  made : breaker.policy = policy
  failures : breaker.failureCount = failuresSince h
  closed : breaker.state = .closed ↔ ¬ (0 < failuresSince h ∧ policy.failureThreshold ≤ failuresSince h)
  failed : breaker.state = .open → ∃ e ∈ h, e.op = .recordFailure ∧ e.time = breaker.lastFailureTime
  waiting : breaker.state = .open → admissionsSince h = 0
  trying : breaker.state = .halfOpen → breaker.halfOpenCalls = admissionsSince h

variable {policy : ResiliencePolicy} {breaker after : TmuxCircuitBreaker} {h : List circuitBreaking.Done}
  {e : circuitBreaking.Done} {now : ℚ}

theorem failuresSince_snoc : failuresSince (h ++ [e]) =
    if e.op = .recordSuccess ∨ e.op = .reset then 0
    else failuresSince h + if e.op = .recordFailure then 1 else 0 := by
  simp only [failuresSince, List.rtakeWhile_concat]
  by_cases hsuccess : e.op = .recordSuccess
  · simp [hsuccess]
  · by_cases hreset : e.op = .reset
    · simp [hreset]
    · by_cases hfailure : e.op = .recordFailure
      · simp [hfailure]
      · simp [hsuccess, hreset, hfailure]

theorem admissionsSince_snoc : admissionsSince (h ++ [e]) =
    if e.op = .canExecute ∨ e.op = .state then
      admissionsSince h + if BreakerCall.admits e.op e.value = true then 1 else 0
    else 0 := by
  simp only [admissionsSince, List.rtakeWhile_concat]
  by_cases hlooks : e.op = .canExecute ∨ e.op = .state
  · by_cases hadmits : BreakerCall.admits e.op e.value = true
    · simp [hlooks, admissions, hadmits]
    · simp [hlooks, admissions, hadmits]
  · simp [hlooks, admissions]

theorem Tracks.readState (ht : Tracks policy h breaker) : Tracks policy h (breaker.readState now).2 := by
  by_cases hopens :
      breaker.state = .open ∧ breaker.policy.recoveryTimeoutSeconds ≤ now - breaker.lastFailureTime
  · rw [readState_open hopens.1 hopens.2]
    have hclosed := ht.closed
    rw [hopens.1] at hclosed
    refine ⟨ht.made, ht.failures, ?_, ?_, ?_, ?_⟩
    · simpa using hclosed
    · intro hopen
      cases hopen
    · intro hopen
      cases hopen
    · intro _
      simp [ht.waiting hopens.1]
  · rw [readState_of_not hopens]
    exact ht

theorem Tracks.failed_snoc (ht : Tracks policy h breaker) (hopen : breaker.state = .open) :
    ∃ d ∈ h ++ [e], d.op = .recordFailure ∧ d.time = breaker.lastFailureTime := by
  obtain ⟨d, hd, hop⟩ := ht.failed hopen
  exact ⟨d, List.mem_append_left _ hd, hop⟩

theorem Tracks.look (ht : Tracks policy h breaker) (hlooks : e.op = .canExecute ∨ e.op = .state)
    (hnot : BreakerCall.admits e.op e.value = true → breaker.state = .closed) :
    Tracks policy (h ++ [e]) breaker := by
  have hfailures : failuresSince (h ++ [e]) = failuresSince h := by
    rw [failuresSince_snoc]
    obtain hop | hop := hlooks
    · simp [hop]
    · simp [hop]
  have hadmissions : breaker.state ≠ .closed → admissionsSince (h ++ [e]) = admissionsSince h := by
    intro hne
    rw [admissionsSince_snoc, if_pos hlooks, if_neg fun hadmits => hne (hnot hadmits), Nat.add_zero]
  refine ⟨ht.made, ?_, ?_, ht.failed_snoc, ?_, ?_⟩
  · rw [hfailures]
    exact ht.failures
  · rw [hfailures]
    exact ht.closed
  · intro hopen
    rw [hadmissions (by simp [hopen])]
    exact ht.waiting hopen
  · intro hhalf
    rw [hadmissions (by simp [hhalf])]
    exact ht.trying hhalf

theorem Tracks.tried (ht : Tracks policy h breaker) (hcall : e.op = .canExecute)
    (hadmits : BreakerCall.admits e.op e.value = true) (hhalf : breaker.state = .halfOpen) :
    Tracks policy (h ++ [e]) { breaker with halfOpenCalls := breaker.halfOpenCalls + 1 } := by
  have hfailures : failuresSince (h ++ [e]) = failuresSince h := by simp [failuresSince_snoc, hcall]
  refine ⟨ht.made, ?_, ?_, fun hopen => ?_, fun hopen => ?_, fun _ => ?_⟩
  · rw [hfailures]
    exact ht.failures
  · rw [hfailures]
    exact ht.closed
  · rw [hhalf] at hopen
    cases hopen
  · rw [hhalf] at hopen
    cases hopen
  · rw [admissionsSince_snoc, if_pos (.inl hcall), if_pos hadmits]
    simp [ht.trying hhalf]

theorem Tracks.closes (ht : Tracks policy h breaker) (hcloses : e.op = .recordSuccess ∨ e.op = .reset) :
    Tracks policy (h ++ [e]) { breaker with failureCount := 0, state := .closed } := by
  have hfailures : failuresSince (h ++ [e]) = 0 := by rw [failuresSince_snoc, if_pos hcloses]
  refine ⟨ht.made, ?_, ?_, fun hopen => ?_, fun hopen => ?_, fun hhalf => ?_⟩
  · simp [hfailures]
  · simp [hfailures]
  · cases hopen
  · cases hopen
  · cases hhalf

theorem Tracks.fails (ht : Tracks policy h breaker) (hfailure : e.op = .recordFailure) (htime : e.time = now) :
    Tracks policy (h ++ [e]) (breaker.recordFailure now) := by
  have hfailures : failuresSince (h ++ [e]) = failuresSince h + 1 := by simp [failuresSince_snoc, hfailure]
  have hadmissions : admissionsSince (h ++ [e]) = 0 := by simp [admissionsSince_snoc, hfailure]
  have hcount := ht.failures
  unfold recordFailure
  simp only [ht.made]
  split
  · rename_i hreached
    refine ⟨rfl, ?_, ?_, fun _ => ⟨e, by simp, hfailure, htime⟩, fun _ => hadmissions, fun hhalf => ?_⟩
    · simp only [hfailures]
      omega
    · simp only [hfailures, reduceCtorEq, false_iff, not_not]
      omega
    · cases hhalf
  · rename_i hfew
    have hclosed : breaker.state = .closed := by
      rw [ht.closed]
      omega
    refine ⟨rfl, ?_, ?_, fun hopen => ?_, fun _ => hadmissions, fun hhalf => ?_⟩
    · simp only [hfailures]
      omega
    · simp only [hfailures, hclosed, true_iff]
      omega
    · rw [hclosed] at hopen
      cases hopen
    · rw [hclosed] at hhalf
      cases hhalf

/-- One call is tracked. -/
theorem Tracks.snoc (ht : Tracks policy h e.before)
    (hdone : (e.value, e.after) = circuitBreaking.step e.time e.op e.before) :
    Tracks policy (h ++ [e]) e.after := by
  obtain ⟨t, call, before, value, after⟩ := e
  simp only at ht hdone ⊢
  have hread : Tracks policy h (before.readState t).2 := ht.readState
  cases call with
  | canExecute =>
    have hvalue : value = (before.canExecute t).1 := congrArg Prod.fst hdone
    have hafter : after = (before.canExecute t).2 := congrArg Prod.snd hdone
    rw [canExecute_after] at hafter
    split at hafter
    · rename_i hadmitted
      rw [hafter]
      exact hread.tried rfl (hvalue.trans hadmitted.1) hadmitted.2
    · rename_i hnot
      rw [hafter]
      apply hread.look (.inl rfl)
      intro hadmits
      have hadmitted : (before.canExecute t).1 = true := hvalue.symm.trans hadmits
      obtain hclosed | hhalf := canExecute_iff.mp hadmitted
      · exact hclosed
      · exact absurd ⟨hadmitted, hhalf.1⟩ hnot
  | recordSuccess =>
    rw [show after = before.recordSuccess from congrArg Prod.snd hdone]
    exact ht.closes (.inl rfl)
  | recordFailure =>
    rw [show after = before.recordFailure t from congrArg Prod.snd hdone]
    exact ht.fails rfl rfl
  | state =>
    rw [show after = (before.readState t).2 from congrArg Prod.snd hdone]
    exact hread.look (.inr rfl) (by simp [BreakerCall.admits])
  | reset =>
    rw [show after = before.reset from congrArg Prod.snd hdone]
    exact ht.closes (.inr rfl)

theorem tracks_of_histories (hh : circuitBreaking.Histories { policy } h breaker) : Tracks policy h breaker := by
  apply hh.invariant
  · refine ⟨rfl, rfl, ?_, fun hopen => ?_, fun hopen => ?_, fun hhalf => ?_⟩
    · simp [failuresSince]
    · cases hopen
    · cases hopen
    · cases hhalf
  · intro h e _ hdone ih
    exact ih.snoc hdone

/-- When the recovery timeout is over after every failure, a call is let through unless the half-open calls
are exhausted. -/
theorem Tracks.canExecute_iff (ht : Tracks policy h breaker)
    (hover : ∀ e ∈ h, e.op = .recordFailure → breaker.policy.recoveryTimeoutSeconds ≤ now - e.time) :
    (breaker.canExecute now).1 = true ↔ ¬ Exhausted policy h := by
  have hread : Tracks policy h (breaker.readState now).2 := ht.readState
  have hnot : (breaker.readState now).2.state ≠ .open := by
    by_cases hopen : breaker.state = .open
    · obtain ⟨d, hd, hfailure, htime⟩ := ht.failed hopen
      have htimeout := hover d hd hfailure
      rw [htime] at htimeout
      simp [readState_open hopen htimeout]
    · rw [readState_of_not fun h => hopen h.1]
      exact hopen
  rw [TmuxCircuitBreaker.canExecute_iff, hread.made, hread.closed]
  unfold Exhausted
  cases hstate : (breaker.readState now).2.state with
  | closed =>
    have hclosed := hread.closed.mp hstate
    tauto
  | «open» => exact absurd hstate hnot
  | halfOpen =>
    have hcalls := hread.trying hstate
    have hfew : ¬ (policy.halfOpenMaxCalls ≤ admissionsSince h) ↔
        (breaker.readState now).2.halfOpenCalls < policy.halfOpenMaxCalls := by
      rw [hcalls, not_le]
    rw [← hfew]
    tauto

end Tracks

section Theorem

theorem exists_late (h : List circuitBreaking.Done) (timeout : ℚ) :
    ∃ now : ℚ, ∀ e ∈ h, e.time ≤ now ∧ timeout ≤ now - e.time := by
  induction h with
  | nil => exact ⟨0, by simp⟩
  | cons e h ih =>
    obtain ⟨now, hnow⟩ := ih
    refine ⟨max now (max e.time (timeout + e.time)), ?_⟩
    intro d hd
    obtain hd | hd := List.mem_cons.mp hd
    · rw [hd]
      have htime : e.time ≤ max e.time (timeout + e.time) := le_max_left _ _
      have htimeout : timeout + e.time ≤ max e.time (timeout + e.time) := le_max_right _ _
      have hmax : max e.time (timeout + e.time) ≤ max now (max e.time (timeout + e.time)) := le_max_right _ _
      constructor
      · linarith
      · linarith
    · have hlate := hnow d hd
      have hmax : now ≤ max now (max e.time (timeout + e.time)) := le_max_left _ _
      constructor
      · linarith [hlate.1]
      · linarith [hlate.2]

/-- However a breaker is used, it lets a call through again exactly when the calls that were let through since
the last outcome are fewer than the policy allows, or it is closed. -/
theorem recovers_iff {policy : ResiliencePolicy} {h : List circuitBreaking.Done} {breaker : TmuxCircuitBreaker}
    (hh : circuitBreaking.Histories { policy } h breaker) : Recovers breaker h ↔ ¬ Exhausted policy h := by
  have ht := tracks_of_histories hh
  constructor
  · intro hrecovers
    obtain ⟨now, hlate⟩ := exists_late h breaker.policy.recoveryTimeoutSeconds
    have hover : ∀ e ∈ h, e.op = .recordFailure → breaker.policy.recoveryTimeoutSeconds ≤ now - e.time :=
      fun e he _ => (hlate e he).2
    rw [← ht.canExecute_iff hover]
    exact hrecovers now (fun e he => (hlate e he).1) hover fun e he _ _ => (hlate e he).2
  · intro hleft now _ hover _
    exact (ht.canExecute_iff hover).mpr hleft

/-- A call that is let through and whose success is recorded leaves the breaker able to let calls through. -/
theorem recovers_iff_reported :
    Recovers (circuitBreaking.play { policy := ⟨1, 10, 1⟩ }
        [(0, .recordFailure), (10, .canExecute), (11, .recordSuccess)]).2
      (circuitBreaking.play { policy := ⟨1, 10, 1⟩ }
        [(0, .recordFailure), (10, .canExecute), (11, .recordSuccess)]).1 :=
  (recovers_iff (circuitBreaking.histories_play _ (by decide +kernel))).mpr (by decide +kernel)

/-- An agent fails three times; from then on only the health check asks, which records no outcome. -/
def unreported : List (ℚ × BreakerCall) :=
  [(0, .recordFailure), (1, .recordFailure), (2, .recordFailure), (32, .canExecute), (42, .canExecute)]

theorem unreported_refused : ¬ ∀ (policy : ResiliencePolicy) (h : List circuitBreaking.Done)
    (breaker : TmuxCircuitBreaker), circuitBreaking.Histories { policy } h breaker → Recovers breaker h := by
  intro hall
  have hclock : (unreported.map (·.1)).Pairwise (· ≤ ·) := by decide +kernel
  have hrecovers := hall DEFAULT_POLICY _ _ (circuitBreaking.histories_play _ hclock)
  have hadmitted := hrecovers 1000 (by decide +kernel) (by decide +kernel) (by decide +kernel)
  revert hadmitted
  decide +kernel

end Theorem

end ForkAgent.Tmux

import ForkAgent.Tmux.CircuitBreaker
import Mathlib.Tactic.Linarith

/-!
# What an open breaker guarantees

A breaker that is not closed has counted as many failures as its policy allows. So a failure that opens it
keeps it open until the recovery timeout is over, and a failure in a half-open period opens it again.
-/

namespace ForkAgent.Tmux

open Effects TmuxCircuitBreaker

/-- What holds of every breaker that can be reached under a policy. -/
structure Sound (policy : ResiliencePolicy) (breaker : TmuxCircuitBreaker) : Prop where
  made : breaker.policy = policy
  counted : breaker.state ≠ .closed → policy.failureThreshold ≤ breaker.failureCount
  nonneg : 0 ≤ breaker.halfOpenCalls
  within : breaker.halfOpenCalls ≤ policy.halfOpenMaxCalls

/-- The calls of a history that were let through. -/
def admissions (h : List circuitBreaking.Done) : List circuitBreaking.Done :=
  h.filter fun e => BreakerCall.admits e.op e.value

/-- What a breaker guarantees of a history of calls. -/
structure Guards (policy : ResiliencePolicy) (h : List circuitBreaking.Done) : Prop where
  counted : ∀ e ∈ h, e.after.state ≠ .closed → policy.failureThreshold ≤ e.after.failureCount
  refuses : ∀ h₁ f mid e h₂, h = h₁ ++ f :: mid ++ e :: h₂ → f.op = .recordFailure → f.after.state = .open →
    (∀ d ∈ mid, d.op ≠ .recordSuccess ∧ d.op ≠ .reset) → e.time < f.time + (policy.recoveryTimeoutSeconds : ℚ) →
    BreakerCall.admits e.op e.value = false
  limited : ∀ h₁ mid h₂, h = h₁ ++ mid ++ h₂ → (∀ e ∈ mid, e.after.state = .halfOpen) →
    (admissions mid).length ≤ policy.halfOpenMaxCalls
  reopens : ∀ e ∈ h, e.op = .recordFailure → e.before.state = .halfOpen → e.after.state = .open

section Steps

variable {policy : ResiliencePolicy} {breaker : TmuxCircuitBreaker} {now : ℚ}

theorem Sound.readState (h : Sound policy breaker) : Sound policy (breaker.readState now).2 := by
  by_cases hopens :
      breaker.state = .open ∧ breaker.policy.recoveryTimeoutSeconds ≤ now - breaker.lastFailureTime
  · rw [readState_open hopens.1 hopens.2]
    have hcounted := h.counted (by simp [hopens.1])
    exact ⟨h.made, fun _ => hcounted, le_refl 0, le_trans h.nonneg h.within⟩
  · rw [readState_of_not hopens]
    exact h

/-- Each call leaves a sound breaker. -/
theorem Sound.step (h : Sound policy breaker) (now : ℚ) (call : BreakerCall) :
    Sound policy (circuitBreaking.step now call breaker).2 := by
  cases call with
  | canExecute =>
    have hread : Sound policy (breaker.readState now).2 := h.readState
    show Sound policy (breaker.canExecute now).2
    rw [canExecute_after]
    split
    · rename_i hadmitted
      have hroom := canExecute_iff.mp hadmitted.1
      rw [hadmitted.2, hread.made] at hroom
      simp only [reduceCtorEq, false_or, true_and] at hroom
      have hnonneg := hread.nonneg
      refine ⟨hread.made, hread.counted, ?_, ?_⟩
      · simp only
        omega
      · simp only
        omega
    · exact hread
  | recordSuccess => exact ⟨h.made, fun hne => absurd rfl hne, h.nonneg, h.within⟩
  | recordFailure =>
    show Sound policy (breaker.recordFailure now)
    unfold recordFailure
    simp only
    split
    · rename_i hreached
      rw [h.made] at hreached
      exact ⟨h.made, fun _ => hreached, h.nonneg, h.within⟩
    · refine ⟨h.made, fun hne => ?_, h.nonneg, h.within⟩
      have hcounted := h.counted hne
      simp only
      omega
  | state => exact h.readState
  | reset => exact ⟨h.made, fun hne => absurd rfl hne, h.nonneg, h.within⟩

theorem Sound.recordFailure_open (h : Sound policy breaker) (hne : breaker.state ≠ .closed) :
    (breaker.recordFailure now).state = .open := by
  have hcounted := h.counted hne
  unfold recordFailure
  simp only [h.made]
  rw [if_pos (by omega)]

theorem lastFailureTime_recordFailure : (breaker.recordFailure now).lastFailureTime = now := by
  unfold recordFailure
  simp only
  split <;> rfl

theorem canExecute_of_early (hopen : breaker.state = .open)
    (hearly : now - breaker.lastFailureTime < breaker.policy.recoveryTimeoutSeconds) :
    breaker.canExecute now = (false, breaker) := by
  have hread : (breaker.readState now).2 = breaker := readState_of_not fun h => absurd h.2 (not_le.mpr hearly)
  have hrefused : (breaker.canExecute now).1 = false := by
    rw [Bool.eq_false_iff]
    intro h
    simp [canExecute_iff, hread, hopen] at h
  have hafter : (breaker.canExecute now).2 = breaker := by
    rw [canExecute_after, hrefused, hread]
    simp
  exact Prod.ext hrefused hafter

/-- The half-open calls that are counted while the state is half open. -/
def spent (breaker : TmuxCircuitBreaker) : Int := if breaker.state = .halfOpen then breaker.halfOpenCalls else 0

theorem Sound.spent_nonneg (h : Sound policy breaker) : 0 ≤ spent breaker := by
  unfold spent
  split
  · exact h.nonneg
  · exact le_refl 0

theorem Sound.spent_le (h : Sound policy breaker) (hmax : 0 ≤ policy.halfOpenMaxCalls) :
    spent breaker ≤ policy.halfOpenMaxCalls := by
  unfold spent
  split
  · exact h.within
  · exact hmax

theorem spent_readState : spent (breaker.readState now).2 = spent breaker := by
  by_cases hopens :
      breaker.state = .open ∧ breaker.policy.recoveryTimeoutSeconds ≤ now - breaker.lastFailureTime
  · rw [readState_open hopens.1 hopens.2]
    simp [spent, hopens.1]
  · rw [readState_of_not hopens]

/-- A call that leaves the state half open is counted if it is let through. -/
theorem Sound.spent_step (h : Sound policy breaker) (now : ℚ) (call : BreakerCall)
    (hhalf : (circuitBreaking.step now call breaker).2.state = .halfOpen) :
    spent (circuitBreaking.step now call breaker).2 = spent breaker +
      if BreakerCall.admits call (circuitBreaking.step now call breaker).1 = true then 1 else 0 := by
  cases call with
  | canExecute =>
    change (breaker.canExecute now).2.state = .halfOpen at hhalf
    show spent (breaker.canExecute now).2 = spent breaker + if (breaker.canExecute now).1 = true then 1 else 0
    have hspent : spent (breaker.readState now).2 = spent breaker := spent_readState
    rw [canExecute_after] at hhalf ⊢
    rw [← hspent]
    by_cases hadmitted : (breaker.canExecute now).1 = true
    · have hread : (breaker.readState now).2.state = .halfOpen := by
        split at hhalf <;> exact hhalf
      simp [spent, hadmitted, hread]
    · simp [hadmitted]
  | recordSuccess => cases hhalf
  | recordFailure =>
    change (breaker.recordFailure now).state = .halfOpen at hhalf
    by_cases hclosed : breaker.state = .closed
    · unfold recordFailure at hhalf
      simp only [hclosed] at hhalf
      split at hhalf <;> cases hhalf
    · rw [h.recordFailure_open hclosed] at hhalf
      cases hhalf
  | state => exact spent_readState.trans (Int.add_zero _).symm
  | reset => cases hhalf

end Steps

section Runs

variable {policy : ResiliencePolicy} {breaker : TmuxCircuitBreaker} {h h₁ h₂ mid : List circuitBreaking.Done}
  {e f : circuitBreaking.Done}

theorem sound_of_histories (hmax : 0 ≤ policy.halfOpenMaxCalls)
    (hh : circuitBreaking.Histories { policy } h breaker) : Sound policy breaker := by
  apply hh.invariant
  · exact ⟨rfl, fun hne => absurd rfl hne, le_refl 0, hmax⟩
  · intro h e _ hdone ih
    rw [show e.after = _ from congrArg Prod.snd hdone]
    exact ih.step e.time e.op

/-- A breaker that a failure opened stays open while the recovery timeout runs, whatever but a success or
a reset is recorded. -/
theorem open_of_histories (hmax : 0 ≤ policy.halfOpenMaxCalls)
    (hh : circuitBreaking.Histories { policy } (h₁ ++ [f] ++ mid) breaker) (hfailure : f.op = .recordFailure)
    (hopen : f.after.state = .open) (hmid : ∀ d ∈ mid, d.op ≠ .recordSuccess ∧ d.op ≠ .reset)
    (htime : ∀ d ∈ mid, d.time < f.time + (policy.recoveryTimeoutSeconds : ℚ)) :
    Sound policy breaker ∧ breaker.state = .open ∧ f.time ≤ breaker.lastFailureTime := by
  apply hh.segment
  · intro s₁ hfirst
    have hsound := sound_of_histories hmax hfirst
    obtain ⟨-, hdone, rfl, -⟩ := hfirst.last
    refine ⟨hsound, hopen, ?_⟩
    obtain ⟨t, call, before, value, after⟩ := f
    simp only at hfailure
    subst hfailure
    rw [show after = before.recordFailure t from congrArg Prod.snd hdone, lastFailureTime_recordFailure]
  · intro h d hd hclock hdone ih
    obtain ⟨hsound, hstate, hlast⟩ := ih
    have hearly := htime d hd
    have hcall := hmid d hd
    have hlate : f.time ≤ d.time := hclock f (by simp)
    have hafter : d.after = _ := congrArg Prod.snd hdone
    have hkept := hsound.step d.time d.op
    rw [← hdone] at hkept
    refine ⟨hkept, ?_⟩
    obtain ⟨t, call, before, value, after⟩ := d
    simp only at *
    have hrefused : t - before.lastFailureTime < before.policy.recoveryTimeoutSeconds := by
      rw [hsound.made]
      linarith
    cases call with
    | canExecute =>
      rw [show after = (before.canExecute t).2 from hafter, canExecute_of_early hstate hrefused]
      exact ⟨hstate, hlast⟩
    | recordSuccess => exact absurd rfl hcall.1
    | recordFailure =>
      rw [show after = before.recordFailure t from hafter, lastFailureTime_recordFailure]
      exact ⟨hsound.recordFailure_open (by simp [hstate]), hlate⟩
    | state =>
      have hread : (before.readState t).2 = before := readState_of_not fun h => absurd h.2 (not_le.mpr hrefused)
      rw [show after = (before.readState t).2 from hafter, hread]
      exact ⟨hstate, hlast⟩
    | reset => exact absurd rfl hcall.2

theorem admissions_le_spent (hmax : 0 ≤ policy.halfOpenMaxCalls)
    (hh : circuitBreaking.Histories { policy } (h₁ ++ mid) breaker) (hhalf : ∀ e ∈ mid, e.after.state = .halfOpen) :
    Sound policy breaker ∧ (admissions mid).length ≤ spent breaker := by
  apply hh.segment
  · intro s₁ hfirst
    have hsound := sound_of_histories hmax hfirst
    exact ⟨hsound, hsound.spent_nonneg⟩
  · intro h d hd _ hdone ih
    obtain ⟨hsound, hspent⟩ := ih
    have hhalf := hhalf d hd
    have hstep := hsound.spent_step d.time d.op
    have hkept := hsound.step d.time d.op
    rw [← hdone] at hstep hkept
    refine ⟨hkept, ?_⟩
    rw [hstep hhalf, admissions, List.filter_append, List.length_append, List.filter_singleton]
    split <;> simp_all [admissions]

/-- Whatever is called in whichever order, a breaker keeps what it guarantees. -/
theorem breaker_guards (hmax : 0 < policy.halfOpenMaxCalls)
    (hh : circuitBreaking.Histories { policy } h breaker) : Guards policy h where
  counted := by
    intro e he hne
    obtain ⟨h₁, h₂, rfl⟩ := List.append_of_mem he
    obtain ⟨hbefore, hdone, -⟩ := hh.done
    have hsound := (sound_of_histories (le_of_lt hmax) hbefore).step e.time e.op
    rw [← hdone] at hsound
    exact hsound.counted hne
  refuses := by
    intro h₁ f mid e h₂ heq hfailure hopen hmid hearly
    subst heq
    obtain ⟨hbefore, hdone, hclock⟩ := hh.done
    rw [List.append_cons] at hbefore
    have htime : ∀ d ∈ mid, d.time < f.time + (policy.recoveryTimeoutSeconds : ℚ) := by
      intro d hd
      exact lt_of_le_of_lt (hclock d (by simp [hd])) hearly
    obtain ⟨hsound, hstate, hlast⟩ := open_of_histories (le_of_lt hmax) hbefore hfailure hopen hmid htime
    obtain ⟨t, call, before, value, after⟩ := e
    simp only at *
    cases call with
    | canExecute =>
      have hrefused : before.canExecute t = (false, before) := by
        apply canExecute_of_early hstate
        rw [hsound.made]
        linarith
      exact congrArg Prod.fst (hdone.trans hrefused)
    | recordSuccess => rfl
    | recordFailure => rfl
    | state => rfl
    | reset => rfl
  limited := by
    intro h₁ mid h₂ heq hhalf
    subst heq
    obtain ⟨s₁, hleft⟩ := hh.left
    obtain ⟨hsound, hspent⟩ := admissions_le_spent (le_of_lt hmax) hleft hhalf
    exact le_trans hspent (hsound.spent_le (le_of_lt hmax))
  reopens := by
    intro e he hfailure hhalf
    obtain ⟨h₁, h₂, rfl⟩ := List.append_of_mem he
    obtain ⟨hbefore, hdone, -⟩ := hh.done
    have hsound := sound_of_histories (le_of_lt hmax) hbefore
    obtain ⟨t, call, before, value, after⟩ := e
    simp only at *
    subst hfailure
    rw [show after = before.recordFailure t from congrArg Prod.snd hdone]
    exact hsound.recordFailure_open (by simp [hhalf])

/-- A failure opens the breaker, a call is let through when the timeout is over, and its failure opens the
breaker again. -/
def reopened : List (ℚ × BreakerCall) :=
  [(0, .recordFailure), (9, .canExecute), (10, .canExecute), (11, .canExecute), (12, .recordFailure)]

theorem breaker_guards_reopened :
    ((circuitBreaking.play { policy := ⟨1, 10, 1⟩ } reopened).1.map fun e => e.after.state) =
      [.open, .open, .halfOpen, .halfOpen, .open] ∧
    Guards ⟨1, 10, 1⟩ (circuitBreaking.play { policy := ⟨1, 10, 1⟩ } reopened).1 := by
  constructor
  · decide +kernel
  · exact breaker_guards (by decide) (circuitBreaking.histories_play _ (by decide +kernel))

end Runs

end ForkAgent.Tmux

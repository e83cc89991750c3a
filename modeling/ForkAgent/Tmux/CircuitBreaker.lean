import ForkAgent.Effects.Clocked

/-!
# The circuit breaker

After too many failures the breaker opens and refuses calls. When the recovery timeout is over, the first
call that looks at the state finds it half open, and a few calls are let through to try.
-/

namespace ForkAgent.Tmux

open Effects

inductive CircuitState where
  | closed
  | open
  | halfOpen
  deriving DecidableEq, Repr

structure ResiliencePolicy where
  failureThreshold : Int
  recoveryTimeoutSeconds : Int
  halfOpenMaxCalls : Int
  deriving DecidableEq, Repr

def DEFAULT_POLICY : ResiliencePolicy := ⟨3, 30, 2⟩

/-- A breaker, with the policy that it was made with. -/
structure TmuxCircuitBreaker where
  policy : ResiliencePolicy := DEFAULT_POLICY
  state : CircuitState := .closed
  failureCount : Int := 0
  lastFailureTime : ℚ := 0
  halfOpenCalls : Int := 0
  deriving DecidableEq

namespace TmuxCircuitBreaker

variable (now : ℚ) (breaker : TmuxCircuitBreaker)

/-- The property `state`: to read it may open the breaker half. -/
def readState : CircuitState × TmuxCircuitBreaker :=
  if breaker.state = .open ∧ breaker.policy.recoveryTimeoutSeconds ≤ now - breaker.lastFailureTime then
    (.halfOpen, { breaker with state := .halfOpen, halfOpenCalls := 0 })
  else (breaker.state, breaker)

def recordSuccess : TmuxCircuitBreaker := { breaker with failureCount := 0, state := .closed }

def recordFailure : TmuxCircuitBreaker :=
  let failed := { breaker with failureCount := breaker.failureCount + 1, lastFailureTime := now }
  if failed.policy.failureThreshold ≤ failed.failureCount then { failed with state := .open } else failed

def canExecute : Bool × TmuxCircuitBreaker :=
  match breaker.readState now with
  | (.closed, breaker) => (true, breaker)
  | (.open, breaker) => (false, breaker)
  | (.halfOpen, breaker) =>
    if breaker.halfOpenCalls < breaker.policy.halfOpenMaxCalls then
      (true, { breaker with halfOpenCalls := breaker.halfOpenCalls + 1 })
    else (false, breaker)

def reset : TmuxCircuitBreaker := { breaker with failureCount := 0, state := .closed }

variable {now : ℚ} {breaker : TmuxCircuitBreaker}

theorem readState_fst : (breaker.readState now).1 = (breaker.readState now).2.state := by
  unfold readState
  split <;> rfl

theorem readState_open (hopen : breaker.state = .open)
    (htime : breaker.policy.recoveryTimeoutSeconds ≤ now - breaker.lastFailureTime) :
    (breaker.readState now).2 = { breaker with state := .halfOpen, halfOpenCalls := 0 } := by
  simp [readState, hopen, htime]

theorem readState_of_not
    (h : ¬ (breaker.state = .open ∧ breaker.policy.recoveryTimeoutSeconds ≤ now - breaker.lastFailureTime)) :
    (breaker.readState now).2 = breaker := by
  simp [readState, h]

theorem canExecute_iff : (breaker.canExecute now).1 = true ↔
    (breaker.readState now).2.state = .closed ∨ (breaker.readState now).2.state = .halfOpen ∧
      (breaker.readState now).2.halfOpenCalls < (breaker.readState now).2.policy.halfOpenMaxCalls := by
  have hfst : (breaker.readState now).1 = (breaker.readState now).2.state := readState_fst
  unfold canExecute
  generalize breaker.readState now = r at hfst
  obtain ⟨state, b⟩ := r
  simp only at hfst
  cases state with
  | closed => simp [← hfst]
  | «open» => simp [← hfst]
  | halfOpen =>
    by_cases hroom : b.halfOpenCalls < b.policy.halfOpenMaxCalls
    · simp [hroom, ← hfst]
    · simp [hroom, ← hfst]

theorem canExecute_after : (breaker.canExecute now).2 =
    if (breaker.canExecute now).1 = true ∧ (breaker.readState now).2.state = .halfOpen then
      { (breaker.readState now).2 with halfOpenCalls := (breaker.readState now).2.halfOpenCalls + 1 }
    else (breaker.readState now).2 := by
  have hfst : (breaker.readState now).1 = (breaker.readState now).2.state := readState_fst
  unfold canExecute
  generalize breaker.readState now = r at hfst
  obtain ⟨state, b⟩ := r
  simp only at hfst
  cases state with
  | closed => simp [← hfst]
  | «open» => simp [← hfst]
  | halfOpen =>
    by_cases hroom : b.halfOpenCalls < b.policy.halfOpenMaxCalls
    · simp [hroom, ← hfst]
    · simp [hroom, ← hfst]

end TmuxCircuitBreaker

inductive BreakerCall where
  | canExecute
  | recordSuccess
  | recordFailure
  | state
  | reset
  deriving DecidableEq

def BreakerCall.Value : BreakerCall → Type
  | canExecute => Bool
  | state => CircuitState
  | recordSuccess | recordFailure | reset => Unit

/-- The breaker as it is called. -/
abbrev circuitBreaking : Machine TmuxCircuitBreaker where
  Op := BreakerCall
  Value := BreakerCall.Value
  step
    | now, .canExecute, breaker => breaker.canExecute now
    | _, .recordSuccess, breaker => ((), breaker.recordSuccess)
    | now, .recordFailure, breaker => ((), breaker.recordFailure now)
    | now, .state, breaker => breaker.readState now
    | _, .reset, breaker => ((), breaker.reset)

/-- The call asked whether to execute and was let through. -/
def BreakerCall.admits : (call : BreakerCall) → call.Value → Bool
  | canExecute, admitted => admitted
  | recordSuccess, _ | recordFailure, _ | state, _ | reset, _ => false

end ForkAgent.Tmux

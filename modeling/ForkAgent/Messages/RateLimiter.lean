import ForkAgent.Effects.Clocked

/-!
# The rate limiter

The limiter remembers, for each key, when its calls were allowed. What has left the window is forgotten
when the key is next asked for.
-/

namespace ForkAgent.Messages

open Effects

structure RateLimitEntry where
  timestamps : List ℚ := []

structure RateLimiter where
  maxRequests : Int := 30
  windowSeconds : ℚ := 60
  entries : String → Option RateLimitEntry := fun _ => none

namespace RateLimiter

variable (limiter : RateLimiter)

def setEntry (key : String) (entry : Option RateLimitEntry) : RateLimiter :=
  { limiter with entries := fun k => if k = key then entry else limiter.entries k }

/-- What has not left the window. -/
def active (now : ℚ) (timestamps : List ℚ) : List ℚ :=
  timestamps.filter fun ts => now - limiter.windowSeconds < ts

def isAllowed (now : ℚ) (key : String) : Bool × RateLimiter :=
  let entry := (limiter.entries key).getD {}
  let timestamps := limiter.active now entry.timestamps
  if limiter.maxRequests ≤ timestamps.length then
    (false, limiter.setEntry key (some ⟨timestamps⟩))
  else
    (true, limiter.setEntry key (some ⟨timestamps ++ [now]⟩))

def reset (key : Option String) : RateLimiter :=
  match key with
  | none => { limiter with entries := fun _ => none }
  | some key => limiter.setEntry key none

def getRemaining (now : ℚ) (key : String) : Int :=
  match limiter.entries key with
  | none => limiter.maxRequests
  | some entry => max 0 (limiter.maxRequests - (limiter.active now entry.timestamps).length)

end RateLimiter

inductive RateLimitCall where
  | isAllowed (key : String)
  | getRemaining (key : String)
  | reset (key : Option String)
  deriving DecidableEq

def RateLimitCall.Value : RateLimitCall → Type
  | isAllowed _ => Bool
  | getRemaining _ => Int
  | reset _ => Unit

/-- The limiter as it is called. -/
def rateLimiting : Machine RateLimiter where
  Op := RateLimitCall
  Value := RateLimitCall.Value
  step
    | now, .isAllowed key, limiter => limiter.isAllowed now key
    | now, .getRemaining key, limiter => (limiter.getRemaining now key, limiter)
    | _, .reset key, limiter => ((), limiter.reset key)

namespace RateLimitCall

/-- The call is one of the key's own. -/
def OfKey (key : String) : RateLimitCall → Prop
  | isAllowed k | getRemaining k => k = key
  | reset _ => False

instance (key : String) : DecidablePred (OfKey key) := fun
  | isAllowed k | getRemaining k => inferInstanceAs (Decidable (k = key))
  | reset _ => inferInstanceAs (Decidable False)

/-- The call asked for the key and was allowed. -/
def allows (key : String) : (call : RateLimitCall) → call.Value → Bool
  | isAllowed k, allowed => k = key && allowed
  | getRemaining _, _ => false
  | reset _, _ => false

end RateLimitCall

end ForkAgent.Messages

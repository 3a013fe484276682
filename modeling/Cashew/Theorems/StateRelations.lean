import Cashew.Ledger.State
import Cashew.Lib.TwoSided

/-!
# What the derived state stores twice

Membership is kept in `NodeState::networks` and `NetworkState::members`, hosting
in `NodeState::hosted_things` and `ThingState::hosts`. The handlers that add and
remove a pair edit both sides. The ones that make a record do not look at the
other side: a node that joins again, or that is made anew after it was cleaned
up, starts with empty sets, and so does a network that is created again, while
the other side still lists them. `relations_agree_iff` says that nothing else
makes the two sides differ.

What a record stores twice by itself is always exact (`counters_exact`): the
replication count and the availability of a thing, and the roles of a network.
-/

namespace Cashew.Theorems.StateRelations

open Cashew Cashew.Lib

/-! ## The two relations -/

/-- The two directions of each relation agree for the entities present. -/
structure RelationsAgree (s : StateManager) : Prop where
  membership : ∀ n node x net, s.nodes.find? n = some node → s.networks.find? x = some net →
    (n ∈ net.members ↔ x ∈ node.networks)
  hosting : ∀ h node c thing, s.nodes.find? h = some node → s.things.find? c = some thing →
    (h ∈ thing.hosts ↔ c ∈ node.hostedThings)

/-- Who is in which network. -/
def membership (s : StateManager) : TwoSided NodeID Hash256 where
  left := s.nodes.view (·.networks)
  right := s.networks.view (·.members)

/-- Who hosts what. -/
def hosting (s : StateManager) : TwoSided NodeID ContentHash where
  left := s.nodes.view (·.hostedThings)
  right := s.things.view (·.hosts)

theorem relationsAgree_iff (s : StateManager) :
    RelationsAgree s ↔ (membership s).Agree ∧ (hosting s).Agree := by
  constructor
  · intro h
    refine ⟨?_, ?_⟩
    · intro n networks x members hn hx
      obtain ⟨node, hnode, rfl⟩ := Option.map_eq_some_iff.mp hn
      obtain ⟨net, hnet, rfl⟩ := Option.map_eq_some_iff.mp hx
      exact (h.membership n node x net hnode hnet).symm
    · intro n hosted c hosts hn hc
      obtain ⟨node, hnode, rfl⟩ := Option.map_eq_some_iff.mp hn
      obtain ⟨thing, hthing, rfl⟩ := Option.map_eq_some_iff.mp hc
      exact (h.hosting n node c thing hnode hthing).symm
  · rintro ⟨hmembership, hhosting⟩
    refine ⟨?_, ?_⟩
    · intro n node x net hnode hnet
      exact (hmembership n _ x _ (by simp [membership, OrdMap.view, hnode])
        (by simp [membership, OrdMap.view, hnet])).symm
    · intro h node c thing hnode hthing
      exact (hhosting h _ c _ (by simp [hosting, OrdMap.view, hnode])
        (by simp [hosting, OrdMap.view, hthing])).symm

/-! ## Calls as edits -/

/-- What an event does to the memberships and to the hostings. -/
def eventEdits (s : StateManager) (e : LedgerEvent) :
    Edit NodeID Hash256 × Edit NodeID ContentHash :=
  match e.eventType with
  | .listed .nodeJoined => (.resetLeft e.sourceNode, .resetLeft e.sourceNode)
  | .listed .keyIssued | .listed .keyRevoked =>
    match (KeyIssuanceData.fromBytes e.data).toOption with
    | none => (.keep, .keep)
    | some _ => (.touchLeft e.sourceNode, .touchLeft e.sourceNode)
  | .listed .networkCreated =>
    match ((do Decoder.require 32; FixedBytes.decoder 32).run e.data).toOption with
    | none => (.keep, .keep)
    | some networkId => (.resetRight networkId, .keep)
  | .listed .networkMemberAdded =>
    match (NetworkMembershipData.fromBytes e.data).toOption with
    | none => (.keep, .keep)
    | some d => (.link d.memberNode d.networkId, .touchLeft d.memberNode)
  | .listed .networkMemberRemoved =>
    match (NetworkMembershipData.fromBytes e.data).toOption with
    | none => (.keep, .keep)
    | some d => (.unlink d.memberNode d.networkId, .keep)
  | .listed .thingReplicated =>
    match (ThingReplicationData.fromBytes e.data).toOption with
    | none => (.keep, .keep)
    | some d => (.touchLeft d.hostingNode, .link d.hostingNode d.contentHash)
  | .listed .thingRemoved =>
    match (ThingReplicationData.fromBytes e.data).toOption with
    | none => (.keep, .keep)
    | some d =>
      -- an unknown thing is not looked for among what the node hosts
      if s.things.contains d.contentHash then (.keep, .unlink d.hostingNode d.contentHash)
      else (.keep, .keep)
  | .listed .reputationUpdated =>
    match (ReputationUpdateData.fromBytes e.data).toOption with
    | none => (.keep, .keep)
    | some d => (.touchLeft d.subjectNode, .touchLeft d.subjectNode)
  | .listed .powSolutionSubmitted | .listed .postakeContribution =>
    (.touchLeft e.sourceNode, .touchLeft e.sourceNode)
  | _ => (.keep, .keep)

/-- What a call does to them. -/
def edits (s : StateManager) : StateInput → Edit NodeID Hash256 × Edit NodeID ContentHash
  | .applyEvent e => eventEdits s e
  | .updateNodeActivity _ _ => (.keep, .keep)
  | .cleanupStaleState now =>
    (.dropLeft fun n => (s.nodes.find? n).any (StateManager.isStale · now),
     .dropLeft fun n => (s.nodes.find? n).any (StateManager.isStale · now))

/-- A state is the other after these edits of its two relations. -/
structure Edited (s s' : StateManager)
    (e : Edit NodeID Hash256 × Edit NodeID ContentHash) : Prop where
  membership : membership s' = e.1.apply (membership s)
  hosting : hosting s' = e.2.apply (hosting s)

theorem Edited.refl (s : StateManager) : Edited s s (.keep, .keep) := ⟨rfl, rfl⟩

section Handlers

variable (s : StateManager) (e : LedgerEvent)

/-- A change of a node that leaves its sets alone only makes it if it is missing. -/
theorem updateNode_edited (id : NodeID) {f : NodeState → NodeState}
    (hnetworks : ∀ n, (f n).networks = n.networks)
    (hhosted : ∀ n, (f n).hostedThings = n.hostedThings) :
    Edited s (s.updateNode id f) (.touchLeft id, .touchLeft id) := by
  refine ⟨TwoSided.ext ?_ rfl, TwoSided.ext ?_ rfl⟩
  · exact OrdMap.view_upsert (h := fun set => set) s.nodes id hnetworks {}
  · exact OrdMap.view_upsert (h := fun set => set) s.nodes id hhosted {}

theorem applyNodeJoined_edited :
    Edited s (s.applyNodeJoined e) (.resetLeft e.sourceNode, .resetLeft e.sourceNode) := by
  refine ⟨TwoSided.ext ?_ rfl, TwoSided.ext ?_ rfl⟩
  · exact OrdMap.view_insert ..
  · exact OrdMap.view_insert ..

theorem applyNodeLeft_edited : Edited s (s.applyNodeLeft e) (.keep, .keep) := by
  refine ⟨TwoSided.ext ?_ rfl, TwoSided.ext ?_ rfl⟩
  · exact OrdMap.view_modify_of_same s.nodes e.sourceNode (by intro _; rfl)
  · exact OrdMap.view_modify_of_same s.nodes e.sourceNode (by intro _; rfl)

theorem insertNetwork_edited (networkId : Hash256) {net : NetworkState} (h : net.members = ∅) :
    Edited s { s with networks := s.networks.insert networkId net }
      (.resetRight networkId, .keep) := by
  refine ⟨TwoSided.ext rfl ?_, rfl⟩
  refine (OrdMap.view_insert _ s.networks networkId net).trans ?_
  rw [h]
  rfl

/-- Adding a member makes the network and the node if they are missing. -/
theorem addMember_edited (d : NetworkMembershipData) :
    Edited s
      ({ s with
          networks := s.networks.upsert d.networkId {} fun net =>
            { net with
              members := insert d.memberNode net.members
              memberRoles := net.memberRoles.insert d.memberNode d.role } }.updateNode
        d.memberNode fun n => { n with networks := insert d.networkId n.networks })
      (.link d.memberNode d.networkId, .touchLeft d.memberNode) := by
  refine ⟨TwoSided.ext ?_ ?_, TwoSided.ext ?_ rfl⟩
  · exact OrdMap.view_upsert (h := insert d.networkId) s.nodes d.memberNode (by intro _; rfl) {}
  · exact OrdMap.view_upsert (h := insert d.memberNode) s.networks d.networkId (by intro _; rfl) {}
  · exact OrdMap.view_upsert (h := fun set => set) s.nodes d.memberNode (by intro _; rfl) {}

theorem removeMember_edited (d : NetworkMembershipData) :
    Edited s
      { s with
        networks := s.networks.modify d.networkId fun net =>
          { net with
            members := net.members.erase d.memberNode
            memberRoles := net.memberRoles.erase d.memberNode }
        nodes := s.nodes.modify d.memberNode fun n =>
          { n with networks := n.networks.erase d.networkId } }
      (.unlink d.memberNode d.networkId, .keep) := by
  refine ⟨TwoSided.ext ?_ ?_, TwoSided.ext ?_ rfl⟩
  · exact OrdMap.view_modify (h := (Finset.erase · d.networkId)) s.nodes d.memberNode
      (by intro _; rfl)
  · exact OrdMap.view_modify (h := (Finset.erase · d.memberNode)) s.networks d.networkId
      (by intro _; rfl)
  · exact OrdMap.view_modify_of_same s.nodes d.memberNode (by intro _; rfl)

/-- So does adding a host, with the thing in place of the network. -/
theorem addHost_edited (d : ThingReplicationData) {f : ThingState → ThingState}
    (hf : ∀ t, (f t).hosts = insert d.hostingNode t.hosts) :
    Edited s
      ({ s with things := s.things.upsert d.contentHash {} f }.updateNode d.hostingNode fun n =>
        { n with hostedThings := insert d.contentHash n.hostedThings })
      (.touchLeft d.hostingNode, .link d.hostingNode d.contentHash) := by
  refine ⟨TwoSided.ext ?_ rfl, TwoSided.ext ?_ ?_⟩
  · exact OrdMap.view_upsert (h := fun set => set) s.nodes d.hostingNode (by intro _; rfl) {}
  · exact OrdMap.view_upsert (h := insert d.contentHash) s.nodes d.hostingNode (by intro _; rfl) {}
  · exact OrdMap.view_upsert s.things d.contentHash hf {}

theorem removeHost_edited (d : ThingReplicationData) {t t' : ThingState}
    (ht : s.things.find? d.contentHash = some t) (hhosts : t'.hosts = t.hosts.erase d.hostingNode) :
    Edited s
      { s with
        things := s.things.insert d.contentHash t'
        nodes := s.nodes.modify d.hostingNode fun n =>
          { n with hostedThings := n.hostedThings.erase d.contentHash } }
      (.keep, .unlink d.hostingNode d.contentHash) := by
  refine ⟨TwoSided.ext ?_ rfl, TwoSided.ext ?_ ?_⟩
  · exact OrdMap.view_modify_of_same s.nodes d.hostingNode (by intro _; rfl)
  · exact OrdMap.view_modify (h := (Finset.erase · d.contentHash)) s.nodes d.hostingNode
      (by intro _; rfl)
  · refine (OrdMap.view_insert _ s.things d.contentHash t').trans ?_
    have hview : s.things.view (·.hosts) d.contentHash = some t.hosts := by simp [OrdMap.view, ht]
    rw [hhosts]
    simp [Edit.apply, hosting, hview]

theorem updateNodeActivity_edited (ledger : Ledger) (now : Time) :
    Edited s (s.updateNodeActivity ledger now) (.keep, .keep) := by
  refine ⟨TwoSided.ext ?_ rfl, TwoSided.ext ?_ rfl⟩
  · refine OrdMap.view_mapValues_of_same s.nodes ?_
    intro id n
    dsimp only
    split
    · rfl
    · split <;> rfl
  · refine OrdMap.view_mapValues_of_same s.nodes ?_
    intro id n
    dsimp only
    split
    · rfl
    · split <;> rfl

theorem cleanupStaleState_edited (now : Time) :
    Edited s (s.cleanupStaleState now)
      (.dropLeft fun n => (s.nodes.find? n).any (StateManager.isStale · now),
       .dropLeft fun n => (s.nodes.find? n).any (StateManager.isStale · now)) := by
  refine ⟨TwoSided.ext ?_ rfl, TwoSided.ext ?_ rfl⟩
  · refine (OrdMap.view_filter _ s.nodes _).trans ?_
    simp [Edit.apply, membership]
  · refine (OrdMap.view_filter _ s.nodes _).trans ?_
    simp [Edit.apply, hosting]

/-- Each handler does what `eventEdits` says. -/
theorem applyEvent_edited : Edited s (s.applyEvent e) (eventEdits s e) := by
  unfold StateManager.applyEvent eventEdits
  cases htype : e.eventType with
  | unlisted code hcode => exact .refl s
  | listed type =>
    cases type with
    | nodeJoined => exact applyNodeJoined_edited s e
    | nodeLeft => exact applyNodeLeft_edited s e
    | keyIssued =>
      cases hd : (KeyIssuanceData.fromBytes e.data).toOption with
      | none => simpa [StateManager.applyKeyIssued, hd] using Edited.refl s
      | some d =>
        simpa [StateManager.applyKeyIssued, hd] using
          updateNode_edited s e.sourceNode (by intro _; rfl) (by intro _; rfl)
    | keyRevoked =>
      cases hd : (KeyIssuanceData.fromBytes e.data).toOption with
      | none => simpa [StateManager.applyKeyRevoked, hd] using Edited.refl s
      | some d =>
        simpa [StateManager.applyKeyRevoked, hd] using
          updateNode_edited s e.sourceNode (by intro _; rfl) (by intro _; rfl)
    | networkCreated =>
      cases hd : ((do Decoder.require 32; FixedBytes.decoder 32 : Decoder Hash256).run
          e.data).toOption with
      | none => simpa [StateManager.applyNetworkCreated, hd] using Edited.refl s
      | some networkId =>
        simpa [StateManager.applyNetworkCreated, hd] using
          insertNetwork_edited s networkId (by rfl)
    | networkMemberAdded =>
      cases hd : (NetworkMembershipData.fromBytes e.data).toOption with
      | none => simpa [StateManager.applyNetworkMemberAdded, hd] using Edited.refl s
      | some d => simpa [StateManager.applyNetworkMemberAdded, hd] using addMember_edited s d
    | networkMemberRemoved =>
      cases hd : (NetworkMembershipData.fromBytes e.data).toOption with
      | none => simpa [StateManager.applyNetworkMemberRemoved, hd] using Edited.refl s
      | some d => simpa [StateManager.applyNetworkMemberRemoved, hd] using removeMember_edited s d
    | thingReplicated =>
      cases hd : (ThingReplicationData.fromBytes e.data).toOption with
      | none => simpa [StateManager.applyThingReplicated, hd] using Edited.refl s
      | some d =>
        simpa [StateManager.applyThingReplicated, hd] using addHost_edited s d (by intro _; rfl)
    | thingRemoved =>
      cases hd : (ThingReplicationData.fromBytes e.data).toOption with
      | none => simpa [StateManager.applyThingRemoved, hd] using Edited.refl s
      | some d =>
        cases ht : s.things.find? d.contentHash with
        | none =>
          simpa [StateManager.applyThingRemoved, hd, ht, OrdMap.contains] using Edited.refl s
        | some t =>
          simpa [StateManager.applyThingRemoved, hd, ht, OrdMap.contains] using
            removeHost_edited s d ht rfl
    | reputationUpdated =>
      cases hd : (ReputationUpdateData.fromBytes e.data).toOption with
      | none => simpa [StateManager.applyReputationUpdated, hd] using Edited.refl s
      | some d =>
        simpa [StateManager.applyReputationUpdated, hd] using
          updateNode_edited s d.subjectNode (by intro _; rfl) (by intro _; rfl)
    | powSolutionSubmitted =>
      exact updateNode_edited s e.sourceNode (by intro _; rfl) (by intro _; rfl)
    | postakeContribution =>
      exact updateNode_edited s e.sourceNode (by intro _; rfl) (by intro _; rfl)
    | _ => exact .refl s

theorem step_edited (input : StateInput) :
    Edited s (stateMachine.step s input).1 (edits s input) := by
  cases input with
  | applyEvent e => exact applyEvent_edited s e
  | updateNodeActivity ledger now => exact updateNodeActivity_edited s ledger now
  | cleanupStaleState now => exact cleanupStaleState_edited s now

end Handlers

/-! ## Runs -/

/-- A call does not make or empty a record that the other side lists: a node that
joins is in no network and hosts nothing; a network that is created is listed by
no node; and a node that any other event makes is listed nowhere else. -/
def Preserving (s : StateManager) (input : StateInput) : Prop :=
  (edits s input).1.Sound (membership s) ∧ (edits s input).2.Sound (hosting s)

/-- What a node lists exists. -/
def AllBacked (s : StateManager) : Prop := (membership s).Backed ∧ (hosting s).Backed

theorem step_allBacked (s : StateManager) (input : StateInput) (h : AllBacked s) :
    AllBacked (stateMachine.step s input).1 := by
  have hedited := step_edited s input
  refine ⟨?_, ?_⟩
  · rw [hedited.membership]
    exact h.1.apply _
  · rw [hedited.hosting]
    exact h.2.apply _

theorem step_relationsAgree_iff (s : StateManager) (input : StateInput) (hbacked : AllBacked s)
    (h : RelationsAgree s) :
    RelationsAgree (stateMachine.step s input).1 ↔ Preserving s input := by
  have hedited := step_edited s input
  obtain ⟨hmembership, hhosting⟩ := (relationsAgree_iff s).mp h
  rw [relationsAgree_iff, hedited.membership, hedited.hosting,
    TwoSided.agree_apply_iff hmembership hbacked.1, TwoSided.agree_apply_iff hhosting hbacked.2]
  rfl

/-- **The relations agree.** Along every run of events, activity updates and
cleanups from the empty state, the two directions of both relations agree in
every state reached exactly when every call is preserving. -/
theorem relations_agree_iff (inputs : List StateInput) :
    stateMachine.Always RelationsAgree {} inputs ↔
      stateMachine.StepsMeet Preserving {} inputs := by
  refine stateMachine.always_iff (P := AllBacked) step_allBacked step_relationsAgree_iff ?_ ?_
    inputs
  · exact ⟨fun _ _ _ h => (by cases h), fun _ _ _ h => (by cases h)⟩
  · exact ⟨fun _ _ _ _ h => (by cases h), fun _ _ _ _ h => (by cases h)⟩

/-- An event of node 1. -/
def sampleEvent (type : EventType) (data : Bytes) : StateInput :=
  .applyEvent { sampleJoin with eventType := .listed type, data }

/-- Node 1 joins, becomes a member of a network, and joins again. -/
def joinsAgain : List StateInput :=
  [sampleEvent .nodeJoined [],
    sampleEvent .networkMemberAdded (NetworkMembershipData.toBytes
      { networkId := FixedBytes.zero, memberNode := sampleNode 1, role := [] }),
    sampleEvent .nodeJoined []]

/-- The network lists a node that does not list the network. -/
theorem joinsAgain_disagrees : ¬ stateMachine.Always RelationsAgree {} joinsAgain := by
  intro hall
  have hend : RelationsAgree (stateMachine.run {} joinsAgain).1 := hall.2.2.2
  have hnode : ((stateMachine.run {} joinsAgain).1.nodes.find? (sampleNode 1)).map (·.networks) =
      some ∅ := by
    decide
  have hnet : ((stateMachine.run {} joinsAgain).1.networks.find? FixedBytes.zero).map
      (·.members) = some {sampleNode 1} := by
    decide
  obtain ⟨node, hfind, hnetworks⟩ := Option.map_eq_some_iff.mp hnode
  obtain ⟨net, hfind', hmembers⟩ := Option.map_eq_some_iff.mp hnet
  have hsides := hend.membership _ node _ net hfind hfind'
  simp [hnetworks, hmembers] at hsides

/-! ## What a record stores twice -/

/-- The replication count is the number of hosts, and a thing is available when
it has one. -/
structure ThingExact (t : ThingState) : Prop where
  replicationCount : t.replicationCount.toNat = t.hosts.card
  isAvailable : t.isAvailable = true ↔ t.hosts.Nonempty

/-- The members are those with a role. -/
def RolesExact (net : NetworkState) : Prop :=
  ∀ n, (net.memberRoles.find? n).isSome = true ↔ n ∈ net.members

structure CountersExact (s : StateManager) : Prop where
  things : s.things.AllValues ThingExact
  networks : s.networks.AllValues RolesExact

/-- A thing has fewer hosts than a `uint32_t` counts. -/
def FewHosts (s : StateManager) : Prop := s.things.AllValues fun t => t.hosts.card < 2 ^ 32

instance : DecidablePred FewHosts := fun s =>
  inferInstanceAs (Decidable (s.things.AllValues fun t => t.hosts.card < 2 ^ 32))

theorem rolesExact_add {net : NetworkState} (h : RolesExact net) (d : NetworkMembershipData) :
    RolesExact { net with
      members := insert d.memberNode net.members
      memberRoles := net.memberRoles.insert d.memberNode d.role } := by
  intro n
  by_cases hn : d.memberNode = n
  · subst hn
    simp
  · simp [OrdMap.find?_insert, hn, h n, Ne.symm hn]

theorem rolesExact_remove {net : NetworkState} (h : RolesExact net) (d : NetworkMembershipData) :
    RolesExact { net with
      members := net.members.erase d.memberNode
      memberRoles := net.memberRoles.erase d.memberNode } := by
  intro n
  by_cases hn : d.memberNode = n
  · subst hn
    simp [OrdMap.find?_erase]
  · simp [OrdMap.find?_erase, hn, h n, Ne.symm hn]

/-- A count that is taken of few hosts is exact. -/
theorem ofNat_card {hosts : Finset NodeID} (h : hosts.card < 2 ^ 32) :
    (UInt32.ofNat hosts.card).toNat = hosts.card := by
  rw [UInt32.toNat_ofNat']
  exact Nat.mod_eq_of_lt h

/-- A thing that has lost a host is available if it has one left. -/
theorem thingExact_remove {t : ThingState} (h : ThingExact t) (n : NodeID)
    (hfew : (t.hosts.erase n).card < 2 ^ 32) :
    ThingExact { t with
      hosts := t.hosts.erase n
      replicationCount := UInt32.ofNat (t.hosts.erase n).card
      isAvailable :=
        if UInt32.ofNat (t.hosts.erase n).card = 0 then false else t.isAvailable } := by
  have hcount := ofNat_card hfew
  refine ⟨hcount, ?_⟩
  have hzero : UInt32.ofNat (t.hosts.erase n).card = 0 ↔ t.hosts.erase n = ∅ := by
    rw [← UInt32.toNat_inj, hcount, UInt32.toNat_zero, Finset.card_eq_zero]
  by_cases hempty : t.hosts.erase n = ∅
  · simp [hempty]
  · have hleft : (t.hosts.erase n).Nonempty := Finset.nonempty_iff_ne_empty.mpr hempty
    have hbefore : t.isAvailable = true := h.isAvailable.mpr (hleft.mono (Finset.erase_subset _ _))
    show (if _ then _ else _) = true ↔ (t.hosts.erase n).Nonempty
    rw [if_neg (fun hcard => hempty (hzero.mp hcard))]
    exact iff_of_true hbefore hleft

section Handlers

variable {s : StateManager}

/-- Key, reputation and contribution events touch the nodes alone. -/
theorem applyKeyIssued_frame (e : LedgerEvent) :
    (s.applyKeyIssued e).networks = s.networks ∧ (s.applyKeyIssued e).things = s.things := by
  unfold StateManager.applyKeyIssued
  split <;> exact ⟨rfl, rfl⟩

theorem applyKeyRevoked_frame (e : LedgerEvent) :
    (s.applyKeyRevoked e).networks = s.networks ∧ (s.applyKeyRevoked e).things = s.things := by
  unfold StateManager.applyKeyRevoked
  split <;> exact ⟨rfl, rfl⟩

theorem applyReputationUpdated_frame (e : LedgerEvent) :
    (s.applyReputationUpdated e).networks = s.networks ∧
      (s.applyReputationUpdated e).things = s.things := by
  unfold StateManager.applyReputationUpdated
  split <;> exact ⟨rfl, rfl⟩

/-- Every event keeps the roles of a network those of its members. -/
theorem rolesExact_applyEvent (h : s.networks.AllValues RolesExact) (e : LedgerEvent) :
    (s.applyEvent e).networks.AllValues RolesExact := by
  have hnone : RolesExact {} := fun n => iff_of_false (by intro hfound; cases hfound) (by simp)
  unfold StateManager.applyEvent
  cases htype : e.eventType with
  | unlisted code hcode => exact h
  | listed type =>
    cases type with
    | networkCreated =>
      dsimp only
      unfold StateManager.applyNetworkCreated
      split
      · exact h
      · exact h.insert _ hnone
    -- the two events that change the roles change the members with them
    | networkMemberAdded =>
      dsimp only
      unfold StateManager.applyNetworkMemberAdded
      split
      · exact h
      · rename_i d _
        exact h.upsert _ hnone fun net hnet => rolesExact_add hnet d
    | networkMemberRemoved =>
      dsimp only
      unfold StateManager.applyNetworkMemberRemoved
      split
      · exact h
      · rename_i d _
        exact h.modify _ fun net hnet => rolesExact_remove hnet d
    | thingReplicated =>
      dsimp only
      unfold StateManager.applyThingReplicated
      split <;> exact h
    | thingRemoved =>
      dsimp only
      unfold StateManager.applyThingRemoved
      split
      · exact h
      · split <;> exact h
    -- the events about nodes leave the networks as they are
    | keyIssued =>
      dsimp only
      rw [(applyKeyIssued_frame e).1]
      exact h
    | keyRevoked =>
      dsimp only
      rw [(applyKeyRevoked_frame e).1]
      exact h
    | reputationUpdated =>
      dsimp only
      rw [(applyReputationUpdated_frame e).1]
      exact h
    | _ => exact h

/-- So do the other calls. -/
theorem step_rolesExact (s : StateManager) (input : StateInput)
    (h : s.networks.AllValues RolesExact) :
    (stateMachine.step s input).1.networks.AllValues RolesExact := by
  cases input with
  | applyEvent e => exact rolesExact_applyEvent h e
  | updateNodeActivity ledger now => exact h
  | cleanupStaleState now => exact h

theorem thingExact_applyThingReplicated (h : s.things.AllValues ThingExact) (e : LedgerEvent)
    (hfew : FewHosts (s.applyThingReplicated e)) :
    (s.applyThingReplicated e).things.AllValues ThingExact := by
  unfold StateManager.applyThingReplicated at hfew ⊢
  split at hfew
  · exact h
  · rename_i d _
    refine h.insert _ ⟨ofNat_card ?_, ?_⟩
    · exact hfew d.contentHash _ (OrdMap.find?_insert_self _ _ _)
    · exact iff_of_true rfl (Finset.insert_nonempty _ _)

theorem thingExact_applyThingRemoved (h : s.things.AllValues ThingExact) (e : LedgerEvent)
    (hfew : FewHosts (s.applyThingRemoved e)) :
    (s.applyThingRemoved e).things.AllValues ThingExact := by
  unfold StateManager.applyThingRemoved at hfew ⊢
  split at hfew
  · exact h
  · rename_i d _
    dsimp only at hfew ⊢
    cases ht : s.things.find? d.contentHash with
    | none => exact h
    | some t =>
      rw [ht] at hfew
      refine h.insert _ (thingExact_remove (h _ t ht) d.hostingNode ?_)
      exact hfew d.contentHash _ (OrdMap.find?_insert_self _ _ _)

/-- Every event keeps the counts of a thing exact while it has few hosts. -/
theorem thingExact_applyEvent (h : s.things.AllValues ThingExact) (e : LedgerEvent)
    (hfew : FewHosts (s.applyEvent e)) : (s.applyEvent e).things.AllValues ThingExact := by
  unfold StateManager.applyEvent at hfew ⊢
  cases htype : e.eventType with
  | unlisted code hcode => exact h
  | listed type =>
    rw [htype] at hfew
    cases type with
    | thingReplicated => exact thingExact_applyThingReplicated h e hfew
    | thingRemoved => exact thingExact_applyThingRemoved h e hfew
    -- no other event touches a thing
    | networkCreated =>
      dsimp only
      unfold StateManager.applyNetworkCreated
      split <;> exact h
    | networkMemberAdded =>
      dsimp only
      unfold StateManager.applyNetworkMemberAdded
      split <;> exact h
    | networkMemberRemoved =>
      dsimp only
      unfold StateManager.applyNetworkMemberRemoved
      split <;> exact h
    | keyIssued =>
      dsimp only
      rw [(applyKeyIssued_frame e).2]
      exact h
    | keyRevoked =>
      dsimp only
      rw [(applyKeyRevoked_frame e).2]
      exact h
    | reputationUpdated =>
      dsimp only
      rw [(applyReputationUpdated_frame e).2]
      exact h
    | _ => exact h

theorem step_countersExact (s : StateManager) (input : StateInput) (h : CountersExact s)
    (hfew : FewHosts (stateMachine.step s input).1) :
    CountersExact (stateMachine.step s input).1 := by
  refine ⟨?_, step_rolesExact s input h.networks⟩
  cases input with
  | applyEvent e => exact thingExact_applyEvent h.things e hfew
  | updateNodeActivity ledger now => exact h.things
  | cleanupStaleState now => exact h.things

end Handlers

/-- **Counters are exact.** Along every run of events, activity updates and
cleanups from the empty state in which no thing gets `2 ^ 32` hosts, in every
state reached the replication count of a thing is the number of its hosts, it is
available exactly when it has one, and the roles of a network are those of its
members. -/
theorem counters_exact (inputs : List StateInput)
    (hfew : stateMachine.Always FewHosts {} inputs) :
    stateMachine.Always CountersExact {} inputs := by
  refine Machine.Always.invariant step_countersExact hfew ⟨?_, ?_⟩
  · intro c t ht
    cases ht
  · intro x net hnet
    cases hnet

/-- Node 1 hosts a thing and gives it up again. -/
def hostsOnce : List StateInput :=
  [.thingReplicated, .thingRemoved].map fun type =>
    sampleEvent type (ThingReplicationData.toBytes
      { contentHash := default, networkId := FixedBytes.zero, hostingNode := sampleNode 1,
        sizeBytes := 1 })

theorem hostsOnce_exact : stateMachine.Always CountersExact {} hostsOnce :=
  counters_exact hostsOnce (by decide)

end Cashew.Theorems.StateRelations

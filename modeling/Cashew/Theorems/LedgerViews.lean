import Cashew.Theorems.StateRelations
import Cashew.Logic.LedgerWf

/-!
# Two views of one log

A ledger's index and a state manager both fold the ledger's events into who is
in which network and who hosts which thing. For each of the two an event is one
`Change` of a table of sets. The state manager makes every change; the index
only those that add, so a member who leaves, a host who drops a thing and a
network that is created again keep their old entries there. `viewsAgree_iff`
says that the two views part exactly at such an event.
-/

namespace Cashew.Theorems.LedgerViews

open Cashew Cashew.Lib StateRelations

/-! ## Changes of a table of sets -/

/-- What an event says about a table that lists nodes under keys. -/
inductive Change (K : Type) where
  | keep
  | add (k : K) (n : NodeID)
  | remove (k : K) (n : NodeID)
  | clear (k : K)

namespace Change

variable {K : Type} [DecidableEq K]

/-- The table after the change. -/
def apply : Change K → (K → Finset NodeID) → K → Finset NodeID
  | .keep, table => table
  | .add k n, table => Function.update table k (insert n (table k))
  | .remove k n, table => Function.update table k ((table k).erase n)
  | .clear k, table => Function.update table k ∅

/-- The part of a change that adds. -/
def addsOnly : Change K → Change K
  | .add k n => .add k n
  | _ => .keep

/-- A removal that finds nothing to remove. -/
def Harmless : Change K → (K → Finset NodeID) → Prop
  | .remove k n, table => n ∉ table k
  | .clear k, table => table k = ∅
  | _, _ => True

omit [DecidableEq K] in
/-- From a table that lists nobody nothing can be removed. -/
theorem harmless_of_empty (c : Change K) {table : K → Finset NodeID} (h : ∀ k, table k = ∅) :
    c.Harmless table := by
  cases c <;> simp [Harmless, h]

/-- Leaving out the removals shows exactly when there was something to remove. -/
theorem addsOnly_apply_eq_iff (c : Change K) (table : K → Finset NodeID) :
    c.addsOnly.apply table = c.apply table ↔ c.Harmless table := by
  cases c with
  | keep => simp [addsOnly, Harmless]
  | add k n => simp [addsOnly, Harmless]
  | remove k n =>
    show table = Function.update table k ((table k).erase n) ↔ n ∉ table k
    rw [Function.eq_update_iff, eq_comm, Finset.erase_eq_self]
    simp
  | clear k =>
    show table = Function.update table k ∅ ↔ table k = ∅
    rw [Function.eq_update_iff]
    simp

end Change

/-- What an event says about the members of networks. -/
def memberChange (e : LedgerEvent) : Change Hash256 :=
  match e.eventType with
  | .listed .networkCreated =>
    match ((do Decoder.require 32; FixedBytes.decoder 32).run e.data).toOption with
    | none => .keep
    | some networkId => .clear networkId
  | .listed .networkMemberAdded =>
    match (NetworkMembershipData.fromBytes e.data).toOption with
    | none => .keep
    | some d => .add d.networkId d.memberNode
  | .listed .networkMemberRemoved =>
    match (NetworkMembershipData.fromBytes e.data).toOption with
    | none => .keep
    | some d => .remove d.networkId d.memberNode
  | _ => .keep

/-- What an event says about the hosts of things. -/
def hostChange (e : LedgerEvent) : Change ContentHash :=
  match e.eventType with
  | .listed .thingReplicated =>
    match (ThingReplicationData.fromBytes e.data).toOption with
    | none => .keep
    | some d => .add d.contentHash d.hostingNode
  | .listed .thingRemoved =>
    match (ThingReplicationData.fromBytes e.data).toOption with
    | none => .keep
    | some d => .remove d.contentHash d.hostingNode
  | _ => .keep

/-! ## What a reader of either view sees -/

/-- The members of a network according to the state manager; a network it does
not know has none. -/
def memberSet (s : StateManager) (networkId : Hash256) : Finset NodeID :=
  match s.getNetworkState networkId with
  | none => ∅
  | some net => net.members

/-- Both views answer alike. -/
structure ViewsAgree (ix : LedgerIndex) (s : StateManager) : Prop where
  members : ∀ networkId, (ix.getNetworkMembers networkId).toFinset = memberSet s networkId
  hosts : ∀ contentHash, ix.getThingHosts contentHash = s.getThingHosts contentHash

/-- The member table of an index. -/
def indexMembers (ix : LedgerIndex) (networkId : Hash256) : Finset NodeID :=
  (ix.networkMembers.find? networkId).getD ∅

/-- The host table of an index. -/
def indexHosts (ix : LedgerIndex) (contentHash : ContentHash) : Finset NodeID :=
  (ix.thingHosts.find? contentHash).getD ∅

/-- The host table of a state. -/
def hostSet (s : StateManager) (contentHash : ContentHash) : Finset NodeID :=
  match s.things.find? contentHash with
  | none => ∅
  | some t => t.hosts

theorem viewsAgree_iff_tables (ix : LedgerIndex) (s : StateManager) :
    ViewsAgree ix s ↔ indexMembers ix = memberSet s ∧ indexHosts ix = hostSet s := by
  have hlist : ∀ contentHash,
      s.getThingHosts contentHash = NodeID.sorted (hostSet s contentHash) := by
    intro contentHash
    unfold StateManager.getThingHosts hostSet
    cases s.things.find? contentHash with
    | none => exact NodeID.sorted_empty.symm
    | some t => rfl
  constructor
  · intro h
    refine ⟨funext fun networkId => ?_, funext fun contentHash => ?_⟩
    · rw [← h.members networkId]
      exact (NodeID.sorted_toFinset _).symm
    · have hsort := (h.hosts contentHash).trans (hlist contentHash)
      have hsets := congrArg List.toFinset hsort
      rw [LedgerIndex.getThingHosts, NodeID.sorted_toFinset, NodeID.sorted_toFinset] at hsets
      exact hsets
  · rintro ⟨hmembers, hhosts⟩
    refine ⟨?_, ?_⟩
    · intro networkId
      rw [← congrFun hmembers networkId]
      exact NodeID.sorted_toFinset _
    · intro contentHash
      rw [hlist contentHash, ← congrFun hhosts contentHash]
      rfl

/-! ## One event -/

section Edits

variable {K : Type} [DecidableEq K]

/-- The sets on the right of a relation, an absent record listing nothing. -/
def sets (t : TwoSided NodeID K) (k : K) : Finset NodeID := (t.right k).getD ∅

/-- What an edit of a relation is for these sets. -/
def rightChange : Edit NodeID K → Change K
  | .resetRight k => .clear k
  | .link n k => .add k n
  | .unlink n k => .remove k n
  | _ => .keep

theorem sets_apply (edit : Edit NodeID K) (t : TwoSided NodeID K) :
    sets (edit.apply t) = (rightChange edit).apply (sets t) := by
  funext j
  cases edit with
  | resetRight k => by_cases hj : j = k <;> simp [sets, Edit.apply, rightChange, Change.apply, hj]
  | link n k => by_cases hj : j = k <;> simp [sets, Edit.apply, rightChange, Change.apply, hj]
  | unlink n k =>
    by_cases hj : j = k
    · subst hj
      cases hright : t.right j <;> simp [sets, Edit.apply, rightChange, Change.apply, hright]
    · simp [sets, Edit.apply, rightChange, Change.apply, hj]
  | _ => rfl

end Edits

/-- `table[k].insert(n)` on a map of sets. -/
theorem getD_upsert {K : Type} [LinearOrder K] (m : OrdMap K (Finset NodeID)) (k : K)
    (n : NodeID) :
    (fun j => ((m.upsert k ∅ (insert n)).find? j).getD ∅) =
      (Change.add k n).apply fun j => (m.find? j).getD ∅ := by
  funext j
  rw [OrdMap.find?_upsert]
  by_cases hj : k = j
  · subst hj
    simp [Change.apply]
  · simp [Change.apply, hj, Ne.symm hj]

theorem memberSet_eq_sets (s : StateManager) : memberSet s = sets (membership s) := by
  funext networkId
  cases h : s.networks.find? networkId <;>
    simp [memberSet, StateManager.getNetworkState, sets, membership, OrdMap.view, h]

theorem hostSet_eq_sets (s : StateManager) : hostSet s = sets (hosting s) := by
  funext contentHash
  cases h : s.things.find? contentHash <;> simp [hostSet, sets, hosting, OrdMap.view, h]

/-- What an event's edits do to the sets of members and of hosts. -/
theorem rightChange_eventEdits (s : StateManager) (e : LedgerEvent) :
    rightChange (eventEdits s e).1 = memberChange e ∧
      (rightChange (eventEdits s e).2).apply (sets (hosting s)) =
        (hostChange e).apply (sets (hosting s)) := by
  unfold eventEdits memberChange hostChange
  cases e.eventType with
  | unlisted code hcode => exact ⟨rfl, rfl⟩
  | listed type =>
    cases type with
    | keyIssued | keyRevoked =>
      cases (KeyIssuanceData.fromBytes e.data).toOption <;> exact ⟨rfl, rfl⟩
    | networkCreated =>
      cases ((do Decoder.require 32; FixedBytes.decoder 32 : Decoder Hash256).run
        e.data).toOption <;> exact ⟨rfl, rfl⟩
    | networkMemberAdded | networkMemberRemoved =>
      cases (NetworkMembershipData.fromBytes e.data).toOption <;> exact ⟨rfl, rfl⟩
    | thingReplicated =>
      cases (ThingReplicationData.fromBytes e.data).toOption <;> exact ⟨rfl, rfl⟩
    | thingRemoved =>
      cases (ThingReplicationData.fromBytes e.data).toOption with
      | none => exact ⟨rfl, rfl⟩
      | some d =>
        cases hthing : s.things.find? d.contentHash with
        | some t => simp [OrdMap.contains, hthing, rightChange]
        | none =>
          -- an unknown thing has no host to lose
          have hempty : sets (hosting s) d.contentHash = ∅ := by
            simp [sets, hosting, OrdMap.view, hthing]
          simp [OrdMap.contains, hthing, rightChange, Change.apply, hempty]
    | reputationUpdated =>
      cases (ReputationUpdateData.fromBytes e.data).toOption <;> exact ⟨rfl, rfl⟩
    | _ => exact ⟨rfl, rfl⟩

/-- The state manager makes the whole change. -/
theorem memberSet_applyEvent (s : StateManager) (e : LedgerEvent) :
    memberSet (s.applyEvent e) = (memberChange e).apply (memberSet s) := by
  rw [memberSet_eq_sets, memberSet_eq_sets, (applyEvent_edited s e).membership, sets_apply,
    (rightChange_eventEdits s e).1]

theorem hostSet_applyEvent (s : StateManager) (e : LedgerEvent) :
    hostSet (s.applyEvent e) = (hostChange e).apply (hostSet s) := by
  rw [hostSet_eq_sets, hostSet_eq_sets, (applyEvent_edited s e).hosting, sets_apply,
    (rightChange_eventEdits s e).2]

/-- The index makes the part of it that adds. -/
theorem indexTables_addEvent (ix : LedgerIndex) (e : LedgerEvent) :
    indexMembers (ix.addEvent e) = (memberChange e).addsOnly.apply (indexMembers ix) ∧
      indexHosts (ix.addEvent e) = (hostChange e).addsOnly.apply (indexHosts ix) := by
  unfold LedgerIndex.addEvent LedgerIndex.addTyped memberChange hostChange
  cases e.eventType with
  | unlisted code hcode => exact ⟨rfl, rfl⟩
  | listed type =>
    cases type with
    | keyIssued => cases (KeyIssuanceData.fromBytes e.data).toOption <;> exact ⟨rfl, rfl⟩
    | networkCreated =>
      cases ((do Decoder.require 32; FixedBytes.decoder 32 : Decoder Hash256).run
        e.data).toOption <;> exact ⟨rfl, rfl⟩
    | networkMemberAdded =>
      cases (NetworkMembershipData.fromBytes e.data).toOption with
      | none => exact ⟨rfl, rfl⟩
      | some d => exact ⟨getD_upsert ix.networkMembers d.networkId d.memberNode, rfl⟩
    | networkMemberRemoved =>
      cases (NetworkMembershipData.fromBytes e.data).toOption <;> exact ⟨rfl, rfl⟩
    | thingReplicated =>
      cases (ThingReplicationData.fromBytes e.data).toOption with
      | none => exact ⟨rfl, rfl⟩
      | some d => exact ⟨rfl, getD_upsert ix.thingHosts d.contentHash d.hostingNode⟩
    | thingRemoved =>
      cases (ThingReplicationData.fromBytes e.data).toOption <;> exact ⟨rfl, rfl⟩
    | _ => exact ⟨rfl, rfl⟩

/-- An event takes nothing away: whoever it removes is not listed, and a network
it creates has no members. -/
def Preserving (s : StateManager) (e : LedgerEvent) : Prop :=
  (memberChange e).Harmless (memberSet s) ∧ (hostChange e).Harmless (hostSet s)

/-- Views that agree still agree after an event exactly when it takes nothing
away. -/
theorem viewsAgree_step_iff {ix : LedgerIndex} {s : StateManager} (h : ViewsAgree ix s)
    (e : LedgerEvent) : ViewsAgree (ix.addEvent e) (s.applyEvent e) ↔ Preserving s e := by
  obtain ⟨hmembers, hhosts⟩ := (viewsAgree_iff_tables ix s).mp h
  obtain ⟨hmembersNext, hhostsNext⟩ := indexTables_addEvent ix e
  rw [viewsAgree_iff_tables, hmembersNext, memberSet_applyEvent, hhostsNext, hostSet_applyEvent,
    hmembers, hhosts, Change.addsOnly_apply_eq_iff, Change.addsOnly_apply_eq_iff]
  rfl

/-! ## A whole log -/

/-- The two views of a ledger agree now, and did after each of its events. -/
structure AgreeThroughout (l : Ledger) : Prop where
  now : ViewsAgree l.index (StateManager.rebuildState l.events)
  before : ∀ front, front <+: l.events →
    ViewsAgree (LedgerIndex.rebuildFromEvents front) (StateManager.rebuildState front)

theorem viewsAgree_nil :
    ViewsAgree (LedgerIndex.rebuildFromEvents []) (StateManager.rebuildState []) := by
  rw [viewsAgree_iff_tables]
  exact ⟨rfl, rfl⟩

theorem viewsAgree_of_preserving {events : List LedgerEvent}
    (h : ∀ front e, front ++ [e] <+: events → Preserving (StateManager.rebuildState front) e) :
    ∀ front, front <+: events →
      ViewsAgree (LedgerIndex.rebuildFromEvents front) (StateManager.rebuildState front) := by
  intro front
  induction front using List.reverseRecOn with
  | nil => exact fun _ => viewsAgree_nil
  | append_singleton front e ih =>
    intro hpre
    have hbefore := ih ((List.prefix_append front [e]).trans hpre)
    rw [LedgerIndex.rebuildFromEvents_snoc, StateManager.rebuildState_snoc,
      viewsAgree_step_iff hbefore]
    exact h front e hpre

/-- **Two views of one log.** For every log a ledger accepts, the members and the
hosts its index reports are those of the derived state after each event, exactly
when no event of the log removes a member or a host that is listed or creates a
network that has members. -/
theorem views_agree_iff (H : Bytes → Hash256) (l : Ledger) (h : Ledger.Reachable H l) :
    AgreeThroughout l ↔
      ∀ front e, front ++ [e] <+: l.events → Preserving (StateManager.rebuildState front) e := by
  constructor
  · intro hagree front e hpre
    have hbefore := hagree.before front ((List.prefix_append front [e]).trans hpre)
    have hafter := hagree.before (front ++ [e]) hpre
    rw [LedgerIndex.rebuildFromEvents_snoc, StateManager.rebuildState_snoc] at hafter
    exact (viewsAgree_step_iff hbefore e).mp hafter
  · intro hpreserving
    have hall := viewsAgree_of_preserving hpreserving
    refine ⟨?_, hall⟩
    rw [h.wf.index]
    exact hall l.events (List.prefix_refl _)

/-! ## A member who left -/

/-- Network number 7. -/
def sampleNetwork : Hash256 := (sampleNode 7).id

/-- Node 1 adds node 2 to the network on its own ledger. -/
def memberAdded : Ledger :=
  ((ledgerMachine sampleHash).run (Ledger.fresh (sampleNode 1))
    [(.still sampleTime, .recordNetworkMemberAdded sampleNetwork (sampleNode 2) [])]).1

/-- The event by which node 1 removes node 2 again. -/
def memberRemoval : LedgerEvent :=
  (memberAdded.createEvent sampleHash (.still sampleTime) .networkMemberRemoved
    (NetworkMembershipData.toBytes
      { networkId := sampleNetwork, memberNode := sampleNode 2, role := [] })).2

/-- The ledger once that event has arrived. -/
def memberLeft : Ledger :=
  ((ledgerMachine sampleHash).run (Ledger.fresh (sampleNode 1))
    [(.still sampleTime, .recordNetworkMemberAdded sampleNetwork (sampleNode 2) []),
     (.still sampleTime, .addExternalEvent memberRemoval)]).1

/-- With only additions the views agree. -/
theorem memberAdded_agrees : memberAdded.events.length = 1 ∧ AgreeThroughout memberAdded := by
  have hlength : memberAdded.events.length = 1 := by decide
  refine ⟨hlength, ?_⟩
  refine (views_agree_iff sampleHash memberAdded ⟨sampleNode 1, _, rfl⟩).mpr ?_
  intro front e hpre
  have hfront : front = [] := by
    have hle := hpre.length_le
    rw [hlength, List.length_append, List.length_singleton] at hle
    exact List.length_eq_zero_iff.mp (by omega)
  subst hfront
  exact ⟨Change.harmless_of_empty _ fun _ => rfl, Change.harmless_of_empty _ fun _ => rfl⟩

/-- The index still lists the member who left, the state does not. -/
theorem memberLeft_disagrees :
    Ledger.Reachable sampleHash memberLeft ∧
      sampleNode 2 ∈ memberLeft.index.getNetworkMembers sampleNetwork ∧
      sampleNode 2 ∉ memberSet (StateManager.rebuildState memberLeft.events) sampleNetwork ∧
      ¬ AgreeThroughout memberLeft := by
  have hin : sampleNode 2 ∈ memberLeft.index.getNetworkMembers sampleNetwork := by
    rw [LedgerIndex.getNetworkMembers, NodeID.mem_sorted]
    decide +kernel
  have hout : sampleNode 2 ∉
      memberSet (StateManager.rebuildState memberLeft.events) sampleNetwork := by
    decide +kernel
  refine ⟨⟨sampleNode 1, _, rfl⟩, hin, hout, ?_⟩
  intro hagree
  rw [← hagree.now.members sampleNetwork, List.mem_toFinset] at hout
  exact hout hin

end Cashew.Theorems.LedgerViews

import Cashew.Network.RoutingTable

/-!
# The content index of the routing table

A routing table says twice who hosts what: each node's entry lists the content the node
advertises, and the content index lists the nodes for each content. `advertise_content` puts a
node that has no entry into the index alone, and `remove_node`, which goes by the entry, then
never takes it out. `index_holds_iff`: along any run of calls the two sides agree, no list of
hosts is empty or has a node twice, and a removed node stays out of every list until it is
advertised again, if and only if every node that is advertised has an entry at that time.
-/

namespace Cashew.Theorems.RoutingIndex

open Cashew Cashew.Lib

/-! ## The property -/

/-- What the entry of a node lists; a node without an entry advertises nothing. -/
def advertised (t : RoutingTable) (n : NodeID) : List ContentHash :=
  ((t.entries.find? n).map RoutingEntry.advertisedContent).getD []

/-- The two sides agree, and the lists of hosts are as they should be. -/
structure Consistent (t : RoutingTable) : Prop where
  listed : ∀ n c, n ∈ t.findHostsForContent c ↔ c ∈ advertised t n
  lists : t.contentIndex.AllValues fun hosts => hosts ≠ [] ∧ hosts.Nodup

/-- The call advertises content of `n`. -/
def IsAdvertFor (n : NodeID) : RoutingCall → Prop
  | .advertiseContent m _ => m = n
  | _ => False

/-- Once `n` is removed no lookup returns it, whatever calls follow, until it is advertised. -/
def RemovedStays (t : RoutingTable) : Prop :=
  ∀ n inputs, (∀ input ∈ inputs, ¬ IsAdvertFor n input.2) →
    ∀ c, n ∉ (routingMachine.run (t.removeNode n) inputs).1.findHostsForContent c

/-- The whole property of a state. -/
def Holds (t : RoutingTable) : Prop := Consistent t ∧ RemovedStays t

/-- A node that is advertised has an entry. -/
def AdvertKnown (t : RoutingTable) (input : Clock × RoutingCall) : Prop :=
  ∀ n c, input.2 = .advertiseContent n c → t.entries.find? n ≠ none

/-! ## The lists of hosts -/

section Hosts

/-- The hosts an index lists for some content. -/
def hosts (index : OrdMap ContentHash (List NodeID)) (c : ContentHash) : List NodeID :=
  (index.find? c).getD []

/-- Lists of hosts as they should be. -/
def GoodLists (index : OrdMap ContentHash (List NodeID)) : Prop :=
  index.AllValues fun hosts => hosts ≠ [] ∧ hosts.Nodup

variable {index : OrdMap ContentHash (List NodeID)} {n m : NodeID} {c d : ContentHash}

theorem hosts_dropHost :
    hosts (RoutingTable.dropHost index n c) d =
      if c = d then (hosts index d).filter (· ≠ n) else hosts index d := by
  unfold RoutingTable.dropHost hosts
  cases hfind : index.find? c with
  | none =>
    dsimp only
    split
    · rename_i hcd
      rw [← hcd, hfind]
      rfl
    · rfl
  | some list =>
    dsimp only
    by_cases hempty : (list.filter (· ≠ n)).isEmpty = true
    · rw [if_pos hempty, OrdMap.find?_erase]
      split
      · rename_i hcd
        rw [← hcd, hfind]
        exact (List.isEmpty_iff.mp hempty).symm
      · rfl
    · rw [if_neg hempty, OrdMap.find?_insert]
      split
      · rename_i hcd
        rw [← hcd, hfind]
        rfl
      · rfl

theorem mem_hosts_dropHost :
    m ∈ hosts (RoutingTable.dropHost index n c) d ↔ m ∈ hosts index d ∧ ¬ (m = n ∧ d = c) := by
  rw [hosts_dropHost]
  split
  · rename_i hcd
    simp [hcd]
  · rename_i hcd
    simp [Ne.symm hcd]

theorem GoodLists.dropHost (h : GoodLists index) : GoodLists (RoutingTable.dropHost index n c) := by
  unfold RoutingTable.dropHost
  cases hfind : index.find? c with
  | none => exact h
  | some list =>
    dsimp only
    split
    · exact h.erase c
    · rename_i hne
      refine h.insert c ⟨?_, (h c list hfind).2.filter _⟩
      exact fun hnil => hne (List.isEmpty_iff.mpr hnil)

/-- The loop of `remove_node`. -/
theorem mem_hosts_foldl {list : List ContentHash} :
    m ∈ hosts (list.foldl (fun index c => RoutingTable.dropHost index n c) index) d ↔
      m ∈ hosts index d ∧ ¬ (m = n ∧ d ∈ list) := by
  induction list generalizing index with
  | nil => simp
  | cons c rest ih =>
    rw [List.foldl_cons, ih, mem_hosts_dropHost, List.mem_cons]
    tauto

theorem GoodLists.foldl (list : List ContentHash) (h : GoodLists index) :
    GoodLists (list.foldl (fun index c => RoutingTable.dropHost index n c) index) := by
  induction list generalizing index with
  | nil => exact h
  | cons c rest ih => exact ih h.dropHost

theorem mem_hosts_advertise :
    m ∈ hosts (index.upsert c [] fun hosts => if n ∈ hosts then hosts else hosts ++ [n]) d ↔
      m ∈ hosts index d ∨ (m = n ∧ d = c) := by
  unfold hosts
  rw [OrdMap.find?_upsert]
  by_cases hcd : c = d
  · subst hcd
    rw [if_pos rfl, Option.getD_some]
    split
    · rename_i hmem
      refine ⟨.inl, ?_⟩
      rintro (hm | ⟨rfl, _⟩)
      · exact hm
      · exact hmem
    · simp
  · simp [hcd, Ne.symm hcd]

theorem GoodLists.advertise (h : GoodLists index) :
    GoodLists (index.upsert c [] fun hosts => if n ∈ hosts then hosts else hosts ++ [n]) := by
  refine OrdMap.AllValues.insert h c ?_
  have hold : ((index.find? c).getD []).Nodup := by
    cases hfind : index.find? c with
    | none => exact List.nodup_nil
    | some list => exact (h c list hfind).2
  dsimp only
  split
  · rename_i hmem
    exact ⟨List.ne_nil_of_mem hmem, hold⟩
  · rename_i hnew
    exact ⟨by simp, List.nodup_append.mpr ⟨hold, List.nodup_singleton n, by
      intro a ha b hb heq
      rw [List.mem_singleton.mp hb] at heq
      exact hnew (heq ▸ ha)⟩⟩

end Hosts

/-! ## What each call does -/

section Calls

variable {t : RoutingTable} {n m : NodeID} {c d : ContentHash}

/-- A change of entries that keeps what each of them advertises. -/
theorem advertised_modify {f : RoutingEntry → RoutingEntry}
    (hf : ∀ e, (f e).advertisedContent = e.advertisedContent)
    (index : OrdMap ContentHash (List NodeID)) :
    advertised ⟨t.entries.modify n f, index⟩ m = advertised t m := by
  unfold advertised
  rw [OrdMap.find?_modify]
  split
  · rename_i hnm
    subst hnm
    cases t.entries.find? n with
    | none => rfl
    | some e => exact hf e
  · rfl

theorem advertised_updateNodeSeen (now : Time) :
    advertised (t.updateNodeSeen now n) m = advertised t m := by
  unfold RoutingTable.updateNodeSeen
  refine advertised_modify ?_ t.contentIndex
  intro e
  rfl

theorem advertised_updateNodeReliability (score : Float32) :
    advertised (t.updateNodeReliability n score) m = advertised t m := by
  unfold RoutingTable.updateNodeReliability
  refine advertised_modify ?_ t.contentIndex
  intro e
  rfl

theorem advertised_addNode (now : Time) (hops : UInt8) :
    advertised (t.addNode now n hops) m = advertised t m := by
  unfold RoutingTable.addNode
  cases hfind : t.entries.find? n with
  | none =>
    unfold advertised
    rw [OrdMap.find?_insert]
    split
    · rename_i hnm
      rw [← hnm, hfind]
      rfl
    · rfl
  | some e =>
    dsimp only
    split
    · rw [advertised_updateNodeSeen]
      unfold advertised
      rw [OrdMap.find?_insert]
      split
      · rename_i hnm
        rw [← hnm, hfind]
        rfl
      · rfl
    · exact advertised_updateNodeSeen now

theorem contentIndex_addNode (now : Time) (hops : UInt8) :
    (t.addNode now n hops).contentIndex = t.contentIndex := by
  unfold RoutingTable.addNode
  split
  · rfl
  · dsimp only
    split <;> rfl

/-- `remove_node` takes the node off the lists its entry names. -/
theorem mem_hosts_removeNode :
    m ∈ (t.removeNode n).findHostsForContent d ↔
      m ∈ t.findHostsForContent d ∧ ¬ (m = n ∧ d ∈ advertised t n) := by
  unfold RoutingTable.removeNode advertised
  cases hfind : t.entries.find? n with
  | none => simp
  | some e => exact mem_hosts_foldl

theorem advertised_removeNode :
    advertised (t.removeNode n) m = if n = m then [] else advertised t m := by
  unfold RoutingTable.removeNode
  cases hfind : t.entries.find? n with
  | none =>
    dsimp only
    split
    · rename_i hnm
      unfold advertised
      rw [← hnm, hfind]
      rfl
    · rfl
  | some e =>
    unfold advertised
    rw [OrdMap.find?_erase]
    split <;> rfl

theorem goodLists_removeNode (h : GoodLists t.contentIndex) :
    GoodLists (t.removeNode n).contentIndex := by
  unfold RoutingTable.removeNode
  split
  · exact h
  · exact h.foldl _

/-- What the entry of an advertised node lists, if there is one. -/
theorem mem_advertised_advertise :
    d ∈ advertised (t.advertiseContent n c) m ↔
      d ∈ advertised t m ∨ (m = n ∧ d = c ∧ t.entries.find? n ≠ none) := by
  unfold advertised RoutingTable.advertiseContent
  rw [OrdMap.find?_modify]
  by_cases hnm : n = m
  · subst hnm
    rw [if_pos rfl]
    cases t.entries.find? n with
    | none => simp
    | some e =>
      simp only [Option.map_some, Option.getD_some]
      split
      · rename_i hmem
        refine ⟨.inl, ?_⟩
        rintro (hd | ⟨_, rfl, _⟩)
        · exact hd
        · exact hmem
      · simp
  · simp [hnm, Ne.symm hnm]

theorem mem_advertised_removeContent :
    d ∈ advertised (t.removeContentAdvertisement n c) m ↔
      d ∈ advertised t m ∧ ¬ (m = n ∧ d = c) := by
  unfold advertised RoutingTable.removeContentAdvertisement
  rw [OrdMap.find?_modify]
  by_cases hnm : n = m
  · subst hnm
    rw [if_pos rfl]
    cases t.entries.find? n with
    | none => simp
    | some e => simp
  · simp [hnm, Ne.symm hnm]

end Calls

/-! ## Steps that keep the table consistent -/

section Steps

variable {t : RoutingTable}

/-- A change that neither an entry's list nor the index shows. -/
theorem Consistent.of_same (h : Consistent t) {t' : RoutingTable}
    (hindex : t'.contentIndex = t.contentIndex)
    (hadvertised : ∀ n, advertised t' n = advertised t n) : Consistent t' := by
  refine ⟨fun n c => ?_, ?_⟩
  · rw [hadvertised, ← h.listed n c]
    unfold RoutingTable.findHostsForContent
    rw [hindex]
  · rw [hindex]
    exact h.lists

theorem Consistent.removeNode (h : Consistent t) (n : NodeID) : Consistent (t.removeNode n) := by
  refine ⟨fun m c => ?_, goodLists_removeNode h.lists⟩
  rw [mem_hosts_removeNode, advertised_removeNode, h.listed]
  by_cases hnm : n = m
  · subst hnm
    simp
  · simp [hnm, Ne.symm hnm]

theorem Consistent.foldl_removeNode (h : Consistent t) (nodes : List NodeID) :
    Consistent (nodes.foldl RoutingTable.removeNode t) := by
  induction nodes generalizing t with
  | nil => exact h
  | cons n rest ih => exact ih (h.removeNode n)

/-- Advertising shows on both sides exactly when the node has an entry. -/
theorem consistent_advertise_iff (h : Consistent t) (n : NodeID) (c : ContentHash) :
    Consistent (t.advertiseContent n c) ↔ t.entries.find? n ≠ none := by
  constructor
  · intro hafter hnone
    have hlisted : n ∈ (t.advertiseContent n c).findHostsForContent c :=
      mem_hosts_advertise.mpr (.inr ⟨rfl, rfl⟩)
    rw [hafter.listed, mem_advertised_advertise] at hlisted
    rcases hlisted with hmem | ⟨_, _, hsome⟩
    · unfold advertised at hmem
      rw [hnone] at hmem
      cases hmem
    · exact hsome hnone
  · intro hsome
    refine ⟨fun m d => ?_, GoodLists.advertise h.lists⟩
    rw [mem_advertised_advertise, ← h.listed m d]
    refine mem_hosts_advertise.trans (or_congr_right ?_)
    exact ⟨fun hboth => ⟨hboth.1, hboth.2, hsome⟩, fun hall => ⟨hall.1, hall.2.1⟩⟩

theorem Consistent.removeContentAdvertisement (h : Consistent t) (n : NodeID) (c : ContentHash) :
    Consistent (t.removeContentAdvertisement n c) := by
  refine ⟨fun m d => ?_, GoodLists.dropHost h.lists⟩
  rw [mem_advertised_removeContent, ← h.listed m d]
  exact mem_hosts_dropHost

/-- **One call.** -/
theorem consistent_call_iff (h : Consistent t) (input : Clock × RoutingCall) :
    Consistent (routingMachine.step t input).1 ↔ AdvertKnown t input := by
  obtain ⟨clock, call⟩ := input
  show Consistent (t.call clock call) ↔ _
  have hother : (∀ n c, call ≠ .advertiseContent n c) → AdvertKnown t (clock, call) :=
    fun hne n c heq => absurd heq (hne n c)
  cases call with
  | addNode n hops =>
    exact iff_of_true (h.of_same (contentIndex_addNode _ _) fun _ => advertised_addNode _ _)
      (hother (by simp))
  | removeNode n => exact iff_of_true (h.removeNode n) (hother (by simp))
  | updateNodeSeen n =>
    exact iff_of_true (h.of_same rfl fun _ => advertised_updateNodeSeen _) (hother (by simp))
  | updateNodeReliability n score =>
    exact iff_of_true (h.of_same rfl fun _ => advertised_updateNodeReliability _)
      (hother (by simp))
  | advertiseContent n c =>
    rw [RoutingTable.call, consistent_advertise_iff h]
    refine ⟨?_, fun hknown => hknown n c rfl⟩
    rintro hsome m d heq
    cases heq
    exact hsome
  | removeContentAdvertisement n c =>
    exact iff_of_true (h.removeContentAdvertisement n c) (hother (by simp))
  | cleanupStaleEntries => exact iff_of_true (h.foldl_removeNode _) (hother (by simp))

end Steps

/-! ## A removed node -/

section Removed

variable {t : RoutingTable} {n : NodeID}

/-- No list of hosts has the node. -/
def Unlisted (n : NodeID) (t : RoutingTable) : Prop := ∀ c, n ∉ t.findHostsForContent c

theorem Unlisted.removeNode (h : Unlisted n t) (m : NodeID) : Unlisted n (t.removeNode m) :=
  fun c hmem => h c (mem_hosts_removeNode.mp hmem).1

theorem Unlisted.foldl_removeNode (h : Unlisted n t) (nodes : List NodeID) :
    Unlisted n (nodes.foldl RoutingTable.removeNode t) := by
  induction nodes generalizing t with
  | nil => exact h
  | cons m rest ih => exact ih (h.removeNode m)

/-- Only an advertisement of its own puts a node on a list. -/
theorem Unlisted.step (h : Unlisted n t) {input : Clock × RoutingCall}
    (hinput : ¬ IsAdvertFor n input.2) : Unlisted n (routingMachine.step t input).1 := by
  obtain ⟨clock, call⟩ := input
  show Unlisted n (t.call clock call)
  cases call with
  | addNode m hops =>
    intro c
    unfold RoutingTable.call RoutingTable.findHostsForContent
    rw [contentIndex_addNode]
    exact h c
  | removeNode m => exact h.removeNode m
  | updateNodeSeen m => exact h
  | updateNodeReliability m score => exact h
  | advertiseContent m d =>
    intro c hmem
    rcases mem_hosts_advertise.mp hmem with hold | ⟨hnm, _⟩
    · exact h c hold
    · exact hinput hnm.symm
  | removeContentAdvertisement m d => exact fun c hmem => h c (mem_hosts_dropHost.mp hmem).1
  | cleanupStaleEntries => exact h.foldl_removeNode _

/-- In a consistent table `remove_node` finds the node on every list. -/
theorem Consistent.removedStays (h : Consistent t) : RemovedStays t := by
  intro n inputs hinputs
  have hgone : Unlisted n (t.removeNode n) := by
    intro c hmem
    obtain ⟨hlisted, hnot⟩ := mem_hosts_removeNode.mp hmem
    exact hnot ⟨rfl, (h.listed n c).mp hlisted⟩
  exact routingMachine.run_invariant_on (P := Unlisted n)
    (Q := fun input => ¬ IsAdvertFor n input.2)
    (fun _ _ hinput hunlisted => hunlisted.step hinput) hgone inputs hinputs

theorem holds_iff : Holds t ↔ Consistent t := ⟨And.left, fun h => ⟨h, h.removedStays⟩⟩

end Removed

/-- **The content index.** For every sequence of calls: in every state on the way the index lists
`n` for `c` iff the entry of `n` advertises `c`, no list of hosts is empty or has duplicates, and
a node that is removed is returned by no lookup until it is advertised again, if and only if
content is advertised only for nodes that have an entry. -/
theorem index_holds_iff (inputs : List (Clock × RoutingCall)) :
    routingMachine.Always Holds {} inputs ↔ routingMachine.StepsMeet AdvertKnown {} inputs := by
  have hempty : Consistent {} :=
    ⟨fun n c => iff_of_false List.not_mem_nil List.not_mem_nil, fun _ _ hfind => by cases hfind⟩
  refine routingMachine.always_iff (P := fun _ => True) (fun _ _ _ => trivial) ?_ trivial
    (holds_iff.mpr hempty) inputs
  intro t input _ hholds
  rw [holds_iff, consistent_call_iff hholds.1]

/-- Node 2 is advertised before it has an entry. -/
def advertisedEarly : List (Clock × RoutingCall) :=
  [(.still sampleTime, .advertiseContent (sampleNode 2) ⟨sampleHash [1]⟩),
   (.still sampleTime, .addNode (sampleNode 2) 1),
   (.still sampleTime, .removeNode (sampleNode 2))]

/-- It is added and removed again, and still returned by a lookup. -/
theorem removed_still_listed :
    sampleNode 2 ∈ (routingMachine.run {} advertisedEarly).1.findHostsForContent
        ⟨sampleHash [1]⟩ ∧
      ¬ routingMachine.Always Holds {} advertisedEarly := by
  refine ⟨by decide, fun halways => ?_⟩
  -- already after the first call node 2 is listed and has no entry
  have hlisted := (halways.2.head.1.listed (sampleNode 2) ⟨sampleHash [1]⟩).mp (by decide)
  exact absurd hlisted (by decide)

end Cashew.Theorems.RoutingIndex

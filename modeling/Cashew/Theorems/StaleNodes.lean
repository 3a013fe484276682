import Cashew.Ledger.State
import Cashew.Theorems.LedgerFile

/-!
# Removing stale nodes

`cleanup_stale_state` subtracts the time a node joined from the clock, both unsigned. The ledger
takes events dated up to 300 s ahead, so the time a node joined may lie ahead of the clock too
(`run_joinedBy`); the difference then wraps around, and an inactive node that has just joined is
removed as if it had joined ages ago. `update_node_activity` compares before it subtracts.
`cleanup_sound_iff`: this is the only way a cleanup goes wrong.
-/

namespace Cashew.Theorems.StaleNodes

open Cashew Cashew.Lib LedgerFile

/-- 30 days in seconds. -/
def thirtyDays : Nat := 30 * 24 * 60 * 60

/-- For every node id: the cleanup leaves the entry as it is, or removes that of a node that
joined more than 30 days ago. -/
def CleanupSound (s : StateManager) (now : Time) : Prop :=
  ∀ id, (s.cleanupStaleState now).nodes.find? id = s.nodes.find? id ∨
    ∃ n, s.nodes.find? id = some n ∧ (s.cleanupStaleState now).nodes.find? id = none ∧
      n.joinedAt.toNat + thirtyDays < now.secs.toNat

/-- No node has joined later than `limit`. -/
def JoinedBy (limit : UInt64) (s : StateManager) : Prop :=
  s.nodes.AllValues fun n => n.joinedAt ≤ limit

/-! ## How far ahead a node can have joined -/

section Handlers

variable {limit : UInt64} {s : StateManager} {e : LedgerEvent}

/-- A node that is not there yet starts at time zero. -/
theorem JoinedBy.updateNode (h : JoinedBy limit s) (id : NodeID) {f : NodeState → NodeState}
    (hf : ∀ n, (f n).joinedAt = n.joinedAt) : JoinedBy limit (s.updateNode id f) :=
  h.upsert id (UInt64.zero_le) fun n hn => (hf n).symm ▸ hn

theorem JoinedBy.applyNodeJoined (h : JoinedBy limit s) (he : e.timestamp ≤ limit) :
    JoinedBy limit (s.applyNodeJoined e) :=
  h.insert e.sourceNode he

theorem JoinedBy.applyKeyIssued (h : JoinedBy limit s) : JoinedBy limit (s.applyKeyIssued e) := by
  unfold StateManager.applyKeyIssued
  split
  · exact h
  · exact h.updateNode _ fun _ => rfl

theorem JoinedBy.applyKeyRevoked (h : JoinedBy limit s) :
    JoinedBy limit (s.applyKeyRevoked e) := by
  unfold StateManager.applyKeyRevoked
  split
  · exact h
  · exact h.updateNode _ fun _ => rfl

theorem JoinedBy.applyNetworkCreated (h : JoinedBy limit s) :
    JoinedBy limit (s.applyNetworkCreated e) := by
  unfold StateManager.applyNetworkCreated
  split <;> exact h

theorem JoinedBy.applyNetworkMemberAdded (h : JoinedBy limit s) :
    JoinedBy limit (s.applyNetworkMemberAdded e) := by
  unfold StateManager.applyNetworkMemberAdded
  split
  · exact h
  · exact JoinedBy.updateNode h _ fun _ => rfl

theorem JoinedBy.applyNetworkMemberRemoved (h : JoinedBy limit s) :
    JoinedBy limit (s.applyNetworkMemberRemoved e) := by
  unfold StateManager.applyNetworkMemberRemoved
  split
  · exact h
  · exact h.modify _ fun _ hn => hn

theorem JoinedBy.applyThingReplicated (h : JoinedBy limit s) :
    JoinedBy limit (s.applyThingReplicated e) := by
  unfold StateManager.applyThingReplicated
  split
  · exact h
  · exact JoinedBy.updateNode h _ fun _ => rfl

theorem JoinedBy.applyThingRemoved (h : JoinedBy limit s) :
    JoinedBy limit (s.applyThingRemoved e) := by
  unfold StateManager.applyThingRemoved
  split
  · exact h
  · split
    · exact h
    · exact h.modify _ fun _ hn => hn

theorem JoinedBy.applyReputationUpdated (h : JoinedBy limit s) :
    JoinedBy limit (s.applyReputationUpdated e) := by
  unfold StateManager.applyReputationUpdated
  split
  · exact h
  · exact h.updateNode _ fun _ => rfl

theorem JoinedBy.applyEvent (h : JoinedBy limit s) (he : e.timestamp ≤ limit) :
    JoinedBy limit (s.applyEvent e) := by
  unfold StateManager.applyEvent
  cases e.eventType with
  | unlisted code hcode => exact h
  | listed type =>
    cases type with
    | nodeJoined => exact h.applyNodeJoined he
    | nodeLeft => exact h.modify _ fun _ hn => hn
    | keyIssued => exact h.applyKeyIssued
    | keyRevoked => exact h.applyKeyRevoked
    | networkCreated => exact h.applyNetworkCreated
    | networkMemberAdded => exact h.applyNetworkMemberAdded
    | networkMemberRemoved => exact h.applyNetworkMemberRemoved
    | thingReplicated => exact h.applyThingReplicated
    | thingRemoved => exact h.applyThingRemoved
    | reputationUpdated => exact h.applyReputationUpdated
    | powSolutionSubmitted => exact h.updateNode _ fun _ => rfl
    | postakeContribution => exact h.updateNode _ fun _ => rfl
    | _ => exact h

theorem JoinedBy.updateNodeActivity (h : JoinedBy limit s) (ledger : Ledger) (now : Time) :
    JoinedBy limit (s.updateNodeActivity ledger now) := by
  refine h.mapValues fun id n hn => ?_
  split
  · exact hn
  · dsimp only
    split <;> exact hn

end Handlers

/-- The event of an input, if it has one, is not dated later than `limit`. -/
def StampedBy (limit : UInt64) : StateInput → Prop
  | .applyEvent e => e.timestamp ≤ limit
  | _ => True

theorem step_joinedBy {limit : UInt64} (s : StateManager) (input : StateInput)
    (hinput : StampedBy limit input) (h : JoinedBy limit s) :
    JoinedBy limit (stateMachine.step s input).1 := by
  cases input with
  | applyEvent e => exact h.applyEvent hinput
  | updateNodeActivity ledger now => exact h.updateNodeActivity ledger now
  | cleanupStaleState now => exact h.filter _

theorem run_joinedBy {limit : UInt64} {inputs : List StateInput}
    (hinputs : ∀ input ∈ inputs, StampedBy limit input) :
    JoinedBy limit (stateMachine.run {} inputs).1 :=
  stateMachine.run_invariant_on (P := JoinedBy limit) step_joinedBy
    (fun _ _ hfound => by cases hfound) inputs hinputs

/-! ## One cleanup -/

/-- The test of the loop, for a time not too far ahead: a time ahead of the clock counts as very
long ago. -/
theorem isStale_iff {n : NodeState} {now : Time} (h : n.joinedAt ≤ now.skewLimit) :
    StateManager.isStale n now = true ↔ n.isActive = false ∧
      (n.joinedAt.toNat + thirtyDays < now.secs.toNat ∨ now.secs < n.joinedAt) := by
  have hlimit : n.joinedAt.toNat ≤ now.secs.toNat + 300 := by
    rw [← Time.skewLimit_toNat]
    exact UInt64.le_iff_toNat_le.mp h
  have hthreshold : StateManager.inactiveThreshold.toNat = thirtyDays := by decide
  have hsigned := now.signed
  unfold StateManager.isStale
  rw [Bool.and_eq_true, Bool.not_eq_true', decide_eq_true_iff, UInt64.lt_iff_toNat_lt,
    UInt64.lt_iff_toNat_lt, hthreshold, Time.secs_sub_toNat]
  refine and_congr_right fun _ => ?_
  have hdays : thirtyDays = 2592000 := rfl
  split <;> omega

theorem find?_cleanup (s : StateManager) (now : Time) (id : NodeID) :
    (s.cleanupStaleState now).nodes.find? id =
      (s.nodes.find? id).filter fun n => !StateManager.isStale n now :=
  OrdMap.find?_filter _ _ id

/-- On a state whose nodes have not joined too far ahead. -/
theorem cleanupSound_iff {s : StateManager} {now : Time} (h : JoinedBy now.skewLimit s) :
    CleanupSound s now ↔
      s.nodes.AllValues fun n => n.isActive = false → n.joinedAt ≤ now.secs := by
  constructor
  · intro hsound id n hfind hinactive
    -- the unsigned age of a join ahead of the clock is huge, so the node is dropped
    by_contra hahead
    have hlt : now.secs < n.joinedAt := UInt64.not_le.mp hahead
    have hstale : StateManager.isStale n now = true :=
      (isStale_iff (h id n hfind)).mpr ⟨hinactive, .inr hlt⟩
    have hgone : (s.cleanupStaleState now).nodes.find? id = none := by
      rw [find?_cleanup, hfind]
      simp [hstale]
    rcases hsound id with hsame | ⟨m, hm, _, hold⟩
    · rw [hgone, hfind] at hsame
      cases hsame
    · rw [hfind] at hm
      cases hm
      have hlt' := UInt64.lt_iff_toNat_lt.mp hlt
      omega
  · intro hall id
    cases hfind : s.nodes.find? id with
    | none =>
      rw [find?_cleanup, hfind]
      exact .inl rfl
    | some n =>
      cases hstale : StateManager.isStale n now with
      | false =>
        rw [find?_cleanup, hfind]
        exact .inl (by simp [hstale])
      | true =>
        -- what is stale is old, or was joined ahead of the clock
        obtain ⟨hinactive, hold | hahead⟩ := (isStale_iff (h id n hfind)).mp hstale
        · refine .inr ⟨n, rfl, ?_, hold⟩
          rw [find?_cleanup, hfind]
          simp [hstale]
        · exact absurd (hall id n hfind hinactive) (UInt64.not_le.mpr hahead)

/-- **Stale nodes.** A ledger built by any run of calls whose clock readings are no later than
`now`, and a state reached by applying events of this ledger in any order, with updates of the
activity and cleanups in between: a cleanup at `now` removes only nodes that joined more than 30
days before, and leaves the others as they are, if and only if no inactive node has joined at a
time that is still to come. -/
theorem cleanup_sound_iff (H : Bytes → Hash256) (localNodeId : NodeID)
    (calls : List (Clock × LedgerCall)) (now : Time)
    (hclock : ∀ input ∈ calls, ∀ i, (input.1.read i).secs.toNat ≤ now.secs.toNat)
    (inputs : List StateInput)
    (hevents : ∀ e, StateInput.applyEvent e ∈ inputs →
      e ∈ ((ledgerMachine H).run (Ledger.fresh localNodeId) calls).1.events) :
    let s := (stateMachine.run {} inputs).1
    CleanupSound s now ↔
      s.nodes.AllValues fun n => n.isActive = false → n.joinedAt ≤ now.secs := by
  refine cleanupSound_iff (run_joinedBy fun input hinput => ?_)
  cases input with
  | applyEvent e => exact run_datedBy localNodeId hclock e (hevents e hinput)
  | updateNodeActivity ledger now => trivial
  | cleanupStaleState now => trivial

/-! ## A node from the near future -/

/-- Node 2 joins, by its own clock five minutes from now. -/
def aheadJoin : LedgerEvent := { sampleJoin with sourceNode := sampleNode 2, timestamp := 1500 }

/-- And leaves again. -/
def aheadLeave : LedgerEvent :=
  { aheadJoin with
    eventId := FixedBytes.zero
    eventType := .listed .nodeLeft
    previousHash := aheadJoin.computeHash sampleHash }

def aheadCalls : List (Clock × LedgerCall) :=
  [(.still sampleTime, .addExternalEvent aheadJoin),
   (.still sampleTime, .addExternalEvent aheadLeave)]

/-- Once its clock is right again the node is kept. -/
theorem cleanup_sound_caughtUp :
    CleanupSound (stateMachine.run {} [.applyEvent aheadJoin, .applyEvent aheadLeave]).1
      ⟨1500, by decide⟩ := by
  have hevents : ((ledgerMachine sampleHash).run (Ledger.fresh (sampleNode 1)) aheadCalls).1.events
      = [aheadJoin, aheadLeave] := by decide +kernel
  refine (cleanup_sound_iff sampleHash (sampleNode 1) aheadCalls ⟨1500, by decide⟩ ?_ _ ?_).mpr
    (by decide)
  · intro input hinput i
    simp only [aheadCalls, List.mem_cons, List.not_mem_nil, or_false] at hinput
    rcases hinput with rfl | rfl <;> exact (by decide : 1200 ≤ 1500)
  · simp [hevents]

/-- Both events are accepted, and the cleanup removes node 2, which joins in five minutes. -/
theorem ahead_removed :
    let s := (stateMachine.run {} [.applyEvent aheadJoin, .applyEvent aheadLeave]).1
    ((ledgerMachine sampleHash).run (Ledger.fresh (sampleNode 1)) aheadCalls).1.events =
        [aheadJoin, aheadLeave] ∧
      (s.nodes.find? (sampleNode 2)).map NodeState.joinedAt = some 1500 ∧
      (s.cleanupStaleState sampleTime).nodes.find? (sampleNode 2) = none ∧
      ¬ CleanupSound s sampleTime := by
  intro s
  have hfound : (s.nodes.find? (sampleNode 2)).map NodeState.joinedAt = some 1500 := by decide
  have hgone : (s.cleanupStaleState sampleTime).nodes.find? (sampleNode 2) = none := by decide
  refine ⟨by decide +kernel, hfound, hgone, fun hsound => ?_⟩
  obtain ⟨n, hn, hjoined⟩ := Option.map_eq_some_iff.mp hfound
  rcases hsound (sampleNode 2) with hsame | ⟨m, hm, _, hold⟩
  · rw [hgone, hn] at hsame
    cases hsame
  · rw [hn] at hm
    cases hm
    rw [hjoined] at hold
    exact absurd hold (by decide)

end Cashew.Theorems.StaleNodes

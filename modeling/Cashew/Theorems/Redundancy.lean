import Cashew.Network.Redundancy

/-!
# Giving up replicas

`adjust_redundancy` gives up at most as many replicas as there are active ones beyond the target,
and means to give up no more than there are beyond the minimum. That difference is unsigned: with
fewer active replicas than the minimum it wraps around and limits nothing. `redundancy_kept_iff`:
the call keeps to the minimum and to the target unless this happens and one of the replicas with
the lowest scores is both unreliable and active.

A member is judged active or not at the reading which `select_nodes_for_removal` makes for it, and
the replicas before and after the call are counted by that judgement.
-/

namespace Cashew.Theorems.Redundancy

open Cashew Cashew.Lib

/-! ## The property -/

/-- How many of the members that are judged active have a complete replica. -/
def activeCount (judged : List Bool) (members : List NetworkMember) : Nat :=
  (members.zip judged).countP fun p => p.1.hasCompleteReplica && p.2

/-- Who is active when replicas are selected for removal. -/
def judged (n : Network) (clock : Clock) : List Bool :=
  Network.activeReplicas n.members (clock.after (3 * n.completeReplicas))

/-- From `before` to `after` the number of active replicas is not lowered below the minimum, not
lowered at all from below the minimum, and not lowered below the target. -/
structure Kept (before after minReplicas target : Nat) : Prop where
  aboveMin : minReplicas ≤ before → minReplicas ≤ after
  belowMin : before < minReplicas → before ≤ after
  aboveTarget : after < before → target ≤ after

/-- The first member of this id has a complete replica and is judged active. -/
def marksActive (judged : List Bool) (members : List NetworkMember) (nodeId : NodeID) : Bool :=
  ((members.zip judged).find? (·.1.nodeId = nodeId)).any fun p => p.1.hasCompleteReplica && p.2

/-- There are no more active replicas than the target (when it is tested whether to remove any),
or at least the minimum, or none of the replicas with the lowest scores, as many as there are
beyond the target, is both unreliable and active. -/
def NothingToLose (sort : SortByScore) (n : Network) (clock : Clock) : Prop :=
  let target := n.calculateTargetRedundancy
  let current := n.activeReplicaCount (clock.after (3 * n.completeReplicas))
  n.activeReplicaCount (clock.after (2 * n.completeReplicas)) ≤ target ∨
    n.quorum.minReplicas.toNat ≤ current ∨
    ∀ e ∈ (sort.run n.replicaNodes).take (current - target), Network.unreliable e.2 = true →
      marksActive (judged n clock) n.members e.1 = false

/-! ## Marking one replica -/

section Marking

/-- The members after `mark_replica_complete(node_id, false)`. -/
def unmark (members : List NetworkMember) (nodeId : NodeID) : List NetworkMember :=
  modifyFirst (·.nodeId = nodeId) (fun m => { m with hasCompleteReplica := false }) members

variable {members : List NetworkMember} {judged : List Bool} {nodeId : NodeID}

theorem activeCount_cons (m : NetworkMember) (active : Bool) :
    activeCount (active :: judged) (m :: members) =
      activeCount judged members + if m.hasCompleteReplica && active then 1 else 0 :=
  List.countP_cons

theorem marksActive_cons (m : NetworkMember) (active : Bool) :
    marksActive (active :: judged) (m :: members) nodeId =
      if m.nodeId = nodeId then m.hasCompleteReplica && active
      else marksActive judged members nodeId := by
  unfold marksActive
  rw [List.zip_cons_cons, List.find?_cons]
  by_cases hid : m.nodeId = nodeId <;> simp [hid]

theorem unmark_cons (m : NetworkMember) :
    unmark (m :: members) nodeId =
      if m.nodeId = nodeId then { m with hasCompleteReplica := false } :: members
      else m :: unmark members nodeId := by
  unfold unmark
  rw [modifyFirst]
  by_cases hid : m.nodeId = nodeId <;> simp [hid]

/-- A mark lowers the count by one or not at all. -/
theorem activeCount_unmark (members : List NetworkMember) (judged : List Bool) (nodeId : NodeID) :
    activeCount judged (unmark members nodeId) +
      (if marksActive judged members nodeId then 1 else 0) = activeCount judged members := by
  induction members generalizing judged with
  | nil => rfl
  | cons m rest ih =>
    cases judged with
    | nil => simp [activeCount, marksActive]
    | cons active judged =>
      rw [unmark_cons, marksActive_cons]
      by_cases hid : m.nodeId = nodeId
      · rw [if_pos hid, if_pos hid, activeCount_cons, activeCount_cons]
        simp
      · have hrest := ih judged
        rw [if_neg hid, if_neg hid, activeCount_cons, activeCount_cons]
        omega

/-- Afterwards only the other ids are left to be marked. -/
theorem marksActive_unmark (members : List NetworkMember) (judged : List Bool)
    (nodeId other : NodeID) :
    marksActive judged (unmark members nodeId) other =
      if other = nodeId then false else marksActive judged members other := by
  induction members generalizing judged with
  | nil => simp [unmark, modifyFirst, marksActive]
  | cons m rest ih =>
    cases judged with
    | nil => simp [marksActive]
    | cons active judged =>
      rw [unmark_cons]
      by_cases hid : m.nodeId = nodeId
      · rw [if_pos hid, marksActive_cons, marksActive_cons]
        dsimp only
        by_cases hother : other = nodeId
        · simp [hid, hother]
        · have hm : m.nodeId ≠ other := fun heq => hother (heq.symm.trans hid)
          simp [hm, hother]
      · rw [if_neg hid, marksActive_cons, marksActive_cons, ih judged]
        by_cases hm : m.nodeId = other
        · have hother : other ≠ nodeId := fun heq => hid (hm.trans heq)
          simp [hm, hother]
        · simp [hm]

/-! ## Marking several -/

/-- The members after a mark for each id. -/
def unmarkAll (members : List NetworkMember) (ids : List NodeID) : List NetworkMember :=
  ids.foldl unmark members

theorem activeCount_le_unmarkAll (judged : List Bool) (ids : List NodeID)
    (members : List NetworkMember) :
    activeCount judged (unmarkAll members ids) ≤ activeCount judged members ∧
      activeCount judged members ≤ activeCount judged (unmarkAll members ids) + ids.length := by
  induction ids generalizing members with
  | nil => exact ⟨Nat.le_refl _, Nat.le_refl _⟩
  | cons id rest ih =>
    obtain ⟨hle, hge⟩ := ih (unmark members id)
    have hone := activeCount_unmark members judged id
    have hmark : (if marksActive judged members id then 1 else 0) ≤ 1 := by split <;> omega
    rw [List.length_cons]
    show activeCount judged (unmarkAll (unmark members id) rest) ≤ _ ∧
      _ ≤ activeCount judged (unmarkAll (unmark members id) rest) + _
    omega

/-- The count stays exactly when no mark meets an active replica. -/
theorem activeCount_unmarkAll_iff (ids : List NodeID) (members : List NetworkMember) :
    activeCount judged members ≤ activeCount judged (unmarkAll members ids) ↔
      ∀ id ∈ ids, marksActive judged members id = false := by
  induction ids generalizing members with
  | nil => simp [unmarkAll]
  | cons id rest ih =>
    have hone := activeCount_unmark members judged id
    have hrest := (activeCount_le_unmarkAll judged rest (unmark members id)).1
    show _ ≤ activeCount judged (unmarkAll (unmark members id) rest) ↔ _
    rw [List.forall_mem_cons]
    cases hmarks : marksActive judged members id with
    | true =>
      rw [hmarks, if_pos rfl] at hone
      exact iff_of_false (by omega) fun hall => Bool.noConfusion hall.1
    | false =>
      rw [hmarks, if_neg Bool.false_ne_true, Nat.add_zero] at hone
      rw [← hone, ih (unmark members id), and_iff_right rfl]
      refine forall₂_congr fun other _ => ?_
      rw [marksActive_unmark]
      by_cases hother : other = id
      · rw [if_pos hother, hother, hmarks]
      · rw [if_neg hother]

end Marking

/-! ## The call -/

section Call

variable {n : Network}

/-- The judgement is the count's own. -/
theorem activeCount_activeReplicas (members : List NetworkMember) (clock : Clock) :
    activeCount (Network.activeReplicas members clock) members =
      (Network.activeReplicas members clock).count true := by
  induction members generalizing clock with
  | nil => rfl
  | cons m rest ih =>
    unfold Network.activeReplicas
    split
    · rename_i hcomplete
      rw [activeCount_cons, ih, List.count_cons, hcomplete, Bool.true_and]
      simp
    · rename_i hcomplete
      rw [activeCount_cons, ih, List.count_cons]
      simp [hcomplete]

theorem calculateTarget_lt (n : Network) : n.calculateTargetRedundancy < 2 ^ 64 := by
  unfold Network.calculateTargetRedundancy Network.defaultTarget Network.defaultMax
  dsimp only
  split
  · omega
  · split <;> omega

/-- The quorum has the new target; nothing else is touched. -/
theorem updateTarget_eq (n : Network) :
    n.updateTarget = { n with quorum := n.updateTarget.quorum } ∧
      n.updateTarget.quorum.targetReplicas.toNat = n.calculateTargetRedundancy ∧
      n.updateTarget.quorum.minReplicas = n.quorum.minReplicas := by
  unfold Network.updateTarget
  split
  · refine ⟨rfl, ?_, rfl⟩
    exact UInt64.toNat_ofNat_of_lt' (calculateTarget_lt n)
  · rename_i hsame
    exact ⟨rfl, not_not.mp hsame, rfl⟩

theorem markAll_eq (ids : List NodeID) (n : Network) :
    ids.foldl (fun n id => n.markReplicaComplete id false) n =
      { n with members := unmarkAll n.members ids } := by
  induction ids generalizing n with
  | nil => rfl
  | cons id rest ih => exact ih (n.markReplicaComplete id false)

/-- The ids `adjust_redundancy` marks, in terms of the network it is called on. -/
def marked (sort : SortByScore) (n : Network) (clock : Clock) : List NodeID :=
  let target := n.calculateTargetRedundancy
  let current := n.activeReplicaCount (clock.after (3 * n.completeReplicas))
  if n.activeReplicaCount (clock.after (2 * n.completeReplicas)) ≤ target ∨ current ≤ target then []
  else
    (((sort.run n.replicaNodes).take
      (min (current - target) (Network.sizeSub current n.quorum.minReplicas.toNat))).filter
        fun e => Network.unreliable e.2).map Prod.fst

/-- Without an unreliable replica there is nothing to select. -/
theorem filter_unreliable_eq_nil (sort : SortByScore)
    (h : (n.members.any fun m => m.hasCompleteReplica && Network.unreliable m.reliabilityScore)
      = false) (count : Nat) :
    ((sort.run n.replicaNodes).take count).filter (fun e => Network.unreliable e.2) = [] := by
  rw [List.filter_eq_nil_iff]
  intro e he hunreliable
  have hmem := (sort.perm n.replicaNodes).mem_iff.mp (List.mem_of_mem_take he)
  obtain ⟨m, hm, rfl⟩ := List.mem_map.mp hmem
  obtain ⟨hmember, hcomplete⟩ := List.mem_filter.mp hm
  have hno := List.any_eq_false.mp h m hmember
  rw [hcomplete, hunreliable] at hno
  exact hno rfl

theorem adjustRedundancy_eq (sort : SortByScore) (n : Network) (clock : Clock) :
    (n.adjustRedundancy sort clock).1 =
      { n with
        quorum := n.updateTarget.quorum
        members := unmarkAll n.members (marked sort n clock) } := by
  obtain ⟨hupdate, htarget, hmin⟩ := updateTarget_eq n
  have hcount : ∀ clock, n.updateTarget.activeReplicaCount clock = n.activeReplicaCount clock := by
    intro clock
    rw [hupdate]
    rfl
  have hmembers : n.updateTarget.members = n.members := by rw [hupdate]
  have hnodes : n.updateTarget.replicaNodes = n.replicaNodes := by rw [hupdate]; rfl
  unfold Network.adjustRedundancy
  dsimp only
  rw [markAll_eq]
  -- raising the target changes no member, so the tests answer as on the old network
  have hids : (if n.updateTarget.shouldRemoveReplicas (clock.after (2 * n.completeReplicas)) = true
      then n.updateTarget.selectNodesForRemoval sort (clock.after (3 * n.completeReplicas))
      else []) = marked sort n clock := by
    unfold Network.shouldRemoveReplicas Network.selectNodesForRemoval marked
    rw [hcount, hcount, htarget, hmin, hmembers, hnodes]
    dsimp only
    by_cases hfew : n.activeReplicaCount (clock.after (2 * n.completeReplicas)) ≤
        n.calculateTargetRedundancy
    · simp [hfew]
    · rw [if_neg hfew]
      by_cases hcurrent : n.activeReplicaCount (clock.after (3 * n.completeReplicas)) ≤
          n.calculateTargetRedundancy
      · simp [hcurrent]
      · rw [if_neg hcurrent, if_neg (not_or.mpr ⟨hfew, hcurrent⟩)]
        split
        · rfl
        · rename_i hreliable
          rw [filter_unreliable_eq_nil sort (Bool.not_eq_true _ ▸ hreliable)]
          rfl
  rw [hids, hupdate]

/-- The unsigned difference: right from the minimum on, too large to matter below it. -/
theorem min_sizeSub_le {current minReplicas : Nat} (target : Nat) (h : minReplicas ≤ current) :
    min (current - target) (Network.sizeSub current minReplicas) ≤ current - minReplicas := by
  have hle : Network.sizeSub current minReplicas ≤ current - minReplicas := by
    unfold Network.sizeSub
    rw [Nat.add_sub_assoc h, Nat.add_mod_left]
    exact Nat.mod_le _ _
  omega

theorem min_sizeSub_eq {current target minReplicas : Nat} (h : current < minReplicas)
    (hmin : minReplicas < 2 ^ 64) :
    min (current - target) (Network.sizeSub current minReplicas) = current - target := by
  have hwrap : Network.sizeSub current minReplicas = 2 ^ 64 + current - minReplicas :=
    Nat.mod_eq_of_lt (by omega)
  omega

variable {sort : SortByScore} {clock : Clock}

/-- How many active replicas the selection counts. -/
def counted (n : Network) (clock : Clock) : Nat :=
  n.activeReplicaCount (clock.after (3 * n.completeReplicas))

theorem marked_length_le (sort : SortByScore) (n : Network) (clock : Clock) :
    (marked sort n clock).length ≤ min (counted n clock - n.calculateTargetRedundancy)
      (Network.sizeSub (counted n clock) n.quorum.minReplicas.toNat) := by
  unfold marked
  dsimp only
  split
  · exact Nat.zero_le _
  · rw [List.length_map]
    exact (List.length_filter_le _ _).trans (List.length_take_le _ _)

/-- What the marks take from the number of active replicas. -/
theorem counted_le (sort : SortByScore) (n : Network) (clock : Clock) :
    activeCount (judged n clock) n.members = counted n clock ∧
      counted n clock ≤ activeCount (judged n clock)
        (unmarkAll n.members (marked sort n clock)) + (marked sort n clock).length := by
  have hcounted : activeCount (judged n clock) n.members = counted n clock :=
    activeCount_activeReplicas _ _
  have hbound := (activeCount_le_unmarkAll (judged n clock) (marked sort n clock) n.members).2
  rw [hcounted] at hbound
  exact ⟨hcounted, hbound⟩

/-- What is at stake: the replicas before and after, against the minimum and the target. -/
def MarkedKept (sort : SortByScore) (n : Network) (clock : Clock) : Prop :=
  Kept (activeCount (judged n clock) n.members)
    (activeCount (judged n clock) (unmarkAll n.members (marked sort n clock)))
    n.quorum.minReplicas.toNat n.calculateTargetRedundancy

theorem markedKept_of_nil (h : marked sort n clock = []) : MarkedKept sort n clock := by
  unfold MarkedKept
  rw [h]
  exact ⟨id, fun _ => Nat.le_refl _, fun hlt => absurd hlt (Nat.lt_irrefl _)⟩

/-- From the minimum on the difference is right, and the marks stop there. -/
theorem markedKept_of_min (h : n.quorum.minReplicas.toNat ≤ counted n clock) :
    MarkedKept sort n clock := by
  obtain ⟨hcounted, hbound⟩ := counted_le sort n clock
  have hlength := marked_length_le sort n clock
  have hroom := min_sizeSub_le n.calculateTargetRedundancy h
  unfold MarkedKept
  rw [hcounted]
  refine ⟨fun _ => ?_, fun hbelow => ?_, fun hlowered => ?_⟩
  · omega
  · omega
  · -- a mark was made, so there were more than the target
    omega

/-- Below the minimum every mark that meets an active replica breaks the promise. -/
theorem markedKept_iff_of_below (h : counted n clock < n.quorum.minReplicas.toNat) :
    MarkedKept sort n clock ↔
      ∀ id ∈ marked sort n clock, marksActive (judged n clock) n.members id = false := by
  obtain ⟨hcounted, hbound⟩ := counted_le sort n clock
  rw [← activeCount_unmarkAll_iff, hcounted]
  unfold MarkedKept
  rw [hcounted]
  constructor
  · exact fun hkept => hkept.belowMin h
  · intro hsame
    exact ⟨fun habove => by omega, fun _ => hsame, fun hlowered => by omega⟩

/-- Which ids are marked when the difference has wrapped around. -/
theorem forall_marked_iff (hmany : ¬ (n.activeReplicaCount (clock.after (2 * n.completeReplicas)) ≤
      n.calculateTargetRedundancy ∨ counted n clock ≤ n.calculateTargetRedundancy))
    (hbelow : counted n clock < n.quorum.minReplicas.toNat) {P : NodeID → Prop} :
    (∀ id ∈ marked sort n clock, P id) ↔
      ∀ e ∈ (sort.run n.replicaNodes).take (counted n clock - n.calculateTargetRedundancy),
        Network.unreliable e.2 = true → P e.1 := by
  have hmarked : marked sort n clock = (((sort.run n.replicaNodes).take
      (min (counted n clock - n.calculateTargetRedundancy)
        (Network.sizeSub (counted n clock) n.quorum.minReplicas.toNat))).filter
          fun e => Network.unreliable e.2).map Prod.fst := if_neg hmany
  rw [hmarked, min_sizeSub_eq hbelow n.quorum.minReplicas.toNat_lt, List.forall_mem_map]
  simp only [List.mem_filter, and_imp]

/-- The marks keep the promise exactly when there is nothing to lose. -/
theorem markedKept_iff (sort : SortByScore) (n : Network) (clock : Clock) :
    MarkedKept sort n clock ↔ NothingToLose sort n clock := by
  show _ ↔ n.activeReplicaCount (clock.after (2 * n.completeReplicas)) ≤
      n.calculateTargetRedundancy ∨ n.quorum.minReplicas.toNat ≤ counted n clock ∨
    ∀ e ∈ (sort.run n.replicaNodes).take (counted n clock - n.calculateTargetRedundancy),
      Network.unreliable e.2 = true → marksActive (judged n clock) n.members e.1 = false
  by_cases hfew : n.activeReplicaCount (clock.after (2 * n.completeReplicas)) ≤
      n.calculateTargetRedundancy ∨ counted n clock ≤ n.calculateTargetRedundancy
  · -- nothing is marked
    refine iff_of_true (markedKept_of_nil (if_pos hfew)) ?_
    rcases hfew with hfew | hcurrent
    · exact .inl hfew
    · rw [Nat.sub_eq_zero_of_le hcurrent, List.take_zero]
      exact .inr (.inr fun e he => absurd he List.not_mem_nil)
  · rw [or_iff_right (not_or.mp hfew).1]
    by_cases hmin : n.quorum.minReplicas.toNat ≤ counted n clock
    · exact iff_of_true (markedKept_of_min hmin) (.inl hmin)
    · have hbelow := Nat.lt_of_not_le hmin
      rw [or_iff_right hmin, markedKept_iff_of_below hbelow, forall_marked_iff hfew hbelow]

end Call

/-! ## While the clock stands still -/

section Still

/-- The judgement is right for every complete replica. -/
def JudgedAt (now : Time) : List Bool → List NetworkMember → Prop :=
  List.Forall₂ fun active m => m.hasCompleteReplica = true → active = Network.isMemberActive m now

variable {now : Time} {judged : List Bool} {members : List NetworkMember}

theorem judgedAt_activeReplicas (now : Time) (members : List NetworkMember) :
    JudgedAt now (Network.activeReplicas members (.still now)) members := by
  induction members with
  | nil => exact .nil
  | cons m rest ih =>
    unfold Network.activeReplicas
    split
    · exact .cons (fun _ => rfl) ih
    · rename_i hincomplete
      exact .cons (fun hcomplete => absurd hcomplete hincomplete) ih

theorem JudgedAt.unmark (h : JudgedAt now judged members) (nodeId : NodeID) :
    JudgedAt now judged (unmark members nodeId) := by
  induction h with
  | nil => exact .nil
  | @cons active m judged rest hhead htail ih =>
    rw [unmark_cons]
    split
    · exact .cons (fun hcomplete => Bool.noConfusion hcomplete) htail
    · exact .cons hhead ih

theorem JudgedAt.unmarkAll (h : JudgedAt now judged members) (ids : List NodeID) :
    JudgedAt now judged (unmarkAll members ids) := by
  induction ids generalizing members with
  | nil => exact h
  | cons id rest ih => exact ih (h.unmark id)

theorem JudgedAt.activeCount_eq (h : JudgedAt now judged members) :
    activeCount judged members = (Network.activeReplicas members (.still now)).count true := by
  induction h with
  | nil => rfl
  | @cons active m judged rest hhead htail ih =>
    rw [activeCount_cons, ih]
    by_cases hcomplete : m.hasCompleteReplica = true
    · rw [hhead hcomplete, hcomplete, Bool.true_and, Network.activeReplicas, if_pos hcomplete,
        List.count_cons, beq_true]
      rfl
    · rw [Network.activeReplicas, if_neg hcomplete]
      simp [hcomplete]

end Still

/-- **Redundancy.** For every network, whatever its members, scores, times and quorum, and
whatever the clock reads during the call: `adjust_redundancy` keeps to the minimum and to the new
target if and only if there is nothing to lose. While the clock stands still the numbers compared
are the counts of active replicas before and after the call. -/
theorem redundancy_kept_iff (sort : SortByScore) (n : Network) (clock : Clock) :
    let adjusted := (n.adjustRedundancy sort clock).1
    let before := activeCount (judged n clock) n.members
    let after := activeCount (judged n clock) adjusted.members
    (Kept before after n.quorum.minReplicas.toNat adjusted.quorum.targetReplicas.toNat ↔
      NothingToLose sort n clock) ∧
    ∀ now, clock = .still now →
      before = n.activeReplicaCount clock ∧ after = adjusted.activeReplicaCount clock := by
  intro adjusted before after
  have hadjusted : adjusted = { n with
      quorum := n.updateTarget.quorum, members := unmarkAll n.members (marked sort n clock) } :=
    adjustRedundancy_eq sort n clock
  have hafter : after = activeCount (judged n clock) (unmarkAll n.members (marked sort n clock)) :=
    congrArg (fun a : Network => activeCount (judged n clock) a.members) hadjusted
  have htarget : adjusted.quorum.targetReplicas.toNat = n.calculateTargetRedundancy := by
    rw [hadjusted]
    exact (updateTarget_eq n).2.1
  refine ⟨?_, ?_⟩
  · rw [htarget, hafter]
    exact markedKept_iff sort n clock
  · rintro now rfl
    have hjudged := judgedAt_activeReplicas now n.members
    refine ⟨hjudged.activeCount_eq, ?_⟩
    rw [hafter, hadjusted]
    exact (hjudged.unmarkAll (marked sort n (.still now))).activeCount_eq

/-! ## Six replicas where eight are the least -/

/-- An active member with a complete replica and a score of `0.25f`. -/
def weakMember (i : Nat) : NetworkMember :=
  { NetworkMember.create (sampleNode i) FixedBytes.zero (.listed .full) with
    lastSeenTimestamp := sampleTime.secs
    hasCompleteReplica := true
    reliabilityScore := 0x3E800000 }

def weakNetwork : Network :=
  { Network.create ⟨sampleHash [1]⟩ ⟨sampleHash [2]⟩ 0 with
    members := (List.range 6).map weakMember
    quorum := { minReplicas := 8 } }

/-- One of the six is given up. -/
theorem weakNetwork_lowered :
    let adjusted := (weakNetwork.adjustRedundancy .stable (.still sampleTime)).1
    weakNetwork.activeReplicaCount (.still sampleTime) = 6 ∧
      adjusted.activeReplicaCount (.still sampleTime) = 5 ∧
      ¬ Kept (weakNetwork.activeReplicaCount (.still sampleTime))
        (adjusted.activeReplicaCount (.still sampleTime)) weakNetwork.quorum.minReplicas.toNat
        adjusted.quorum.targetReplicas.toNat := by
  intro adjusted
  have hbefore : weakNetwork.activeReplicaCount (.still sampleTime) = 6 := by decide
  have hafter : adjusted.activeReplicaCount (.still sampleTime) = 5 := by decide
  refine ⟨hbefore, hafter, fun hkept => ?_⟩
  have hle := hkept.belowMin (by rw [hbefore]; decide)
  rw [hbefore, hafter] at hle
  omega

end Cashew.Theorems.Redundancy

import Cashew.Keys.Decay

/-!
# Use protects keys

A check asks first when the node was last seen. Using a key does not count as being
seen, so that a node which only uses its keys loses them; and cleaning up inactive
nodes goes by the same time and drops what they used. The result says that this is
the only way to lose a key in use.
-/

namespace Cashew.Theorems.KeyDecay

open Cashew Cashew.Lib DecayScheduler

/-! ## What was recorded -/

/-- The time of the node's last use of the key type after one more call. -/
def noteUse (n : NodeID) (T : Wire KeyType) (last : Option UInt64) : DecayInput → Option UInt64
  | .recordKeyUse now nodeId keyType =>
    if nodeId = n ∧ keyType = T then some now.secs else last
  | _ => last

/-- When the node last used the key type. -/
def lastUse (past : List DecayInput) (n : NodeID) (T : Wire KeyType) : Option UInt64 :=
  past.foldl (noteUse n T) none

/-- The node's uses of the key type in this epoch after one more call. -/
def noteAction (n : NodeID) (T : Wire KeyType) (actions : Nat) : DecayInput → Nat
  | .recordKeyUse _ nodeId keyType => if nodeId = n ∧ keyType = T then actions + 1 else actions
  | .processEpoch _ _ _ => 0
  | _ => actions

/-- How often the node used the key type since the last epoch was processed. -/
def actionsThisEpoch (past : List DecayInput) (n : NodeID) (T : Wire KeyType) : Nat :=
  past.foldl (noteAction n T) 0

/-- The node used the key type within the threshold, and often enough in this
epoch. -/
structure InUse (past : List DecayInput) (now : Time) (policy : DecayPolicy) (n : NodeID)
    (T : Wire KeyType) : Prop where
  recent : ∃ t, lastUse past n T = some t ∧ t.toNat ≤ now.secs.toNat ∧
    now.secs.toNat - t.toNat ≤ policy.inactivityThreshold.toNat
  enough : policy.minActionsPerEpoch.toNat ≤ actionsThisEpoch past n T

/-- The calls that look for keys to decay. -/
def checks : DecayInput → Option (StateManager × (Reading → Time))
  | .checkKeyDecay state clock _ => some (state, clock)
  | .processEpoch state clock _ => some (state, clock)
  | _ => none

/-- No key in use is picked for inactivity. -/
def Protected (past : List DecayInput) (s : DecayScheduler) (input : DecayInput) : Prop :=
  ∀ state clock, checks input = some (state, clock) → ∀ n T,
    InUse past (clock (.used n T)) (s.getKeyPolicy T) n T →
      ∀ e ∈ (s.call input).2, e.nodeId = n → e.keyType = T → e.reason ≠ .inactivity

/-- The record a check works with: the stored one, or one made from the state. -/
def workingRecord (s : DecayScheduler) (state : StateManager) (clock : Reading → Time)
    (n : NodeID) : NodeActivity :=
  (s.nodeActivities.find? n).getD
    { nodeId := n, lastSeen := if state.isNodeActive n then (clock (.track n)).secs else 0 }

/-- One of the nodes has keys of the type. -/
def Holds (nodes : List NodeState) (n : NodeID) (T : Wire KeyType) : Prop :=
  ∃ node ∈ nodes, node.nodeId = n ∧ ∃ count, node.keyBalances.find? T = some count ∧ count ≠ 0

/-- For every key in use that can decay, the node was seen within the threshold as well
and, where activity is required, the use is still on record. -/
def SeenToo (past : List DecayInput) (s : DecayScheduler) (input : DecayInput) : Prop :=
  ∀ state clock, checks input = some (state, clock) → ∀ n T,
    Holds state.getAllActiveNodes n T → (s.getKeyPolicy T).maxAgeSeconds ≠ 0 →
    InUse past (clock (.used n T)) (s.getKeyPolicy T) n T →
      (workingRecord s state clock n).isInactive (clock (.seen n T))
        (s.getKeyPolicy T).inactivityThreshold = false ∧
      ((s.getKeyPolicy T).requiresActivity = true →
        (workingRecord s state clock n).lastUseByType.contains T = true)

/-! ## The uses on record -/

/-- The time of the last use on record. -/
def useOnRecord (s : DecayScheduler) (n : NodeID) (T : Wire KeyType) : Option UInt64 :=
  (s.nodeActivities.find? n).bind (·.lastUseByType.find? T)

/-- Every use on record is the last one. -/
def Recorded (past : List DecayInput) (s : DecayScheduler) : Prop :=
  ∀ n T t, useOnRecord s n T = some t → lastUse past n T = some t

theorem lastUse_concat (past : List DecayInput) (input : DecayInput) (n : NodeID)
    (T : Wire KeyType) :
    lastUse (past ++ [input]) n T = noteUse n T (lastUse past n T) input := by
  unfold lastUse
  rw [List.foldl_append]
  rfl

/-- A change of one record that keeps its uses. -/
theorem useOnRecord_upsert (s : DecayScheduler) (m : NodeID) {f : NodeActivity → NodeActivity}
    (hf : ∀ a, (f a).lastUseByType = a.lastUseByType) :
    useOnRecord { s with nodeActivities := s.nodeActivities.upsert m {} f } = useOnRecord s := by
  funext n T
  unfold useOnRecord
  rw [OrdMap.find?_upsert]
  split
  · rename_i hm
    rw [Option.bind_some, hf, hm]
    cases s.nodeActivities.find? n with
    | none => rfl
    | some a => rfl
  · rfl

theorem useOnRecord_recordKeyUse (s : DecayScheduler) (now : Time) (m : NodeID) (U : Wire KeyType)
    (n : NodeID) (T : Wire KeyType) :
    useOnRecord (s.recordKeyUse now m U) n T =
      if m = n ∧ U = T then some now.secs else useOnRecord s n T := by
  unfold useOnRecord recordKeyUse
  rw [OrdMap.find?_upsert]
  by_cases hm : m = n
  · rw [if_pos hm, Option.bind_some, OrdMap.find?_insert]
    by_cases hU : U = T
    · rw [if_pos hU, if_pos ⟨hm, hU⟩]
    · rw [if_neg hU, if_neg (fun h => hU h.2), hm]
      cases s.nodeActivities.find? n with
      | none => rfl
      | some a => rfl
  · rw [if_neg hm, if_neg (fun h => hm h.1)]

theorem useOnRecord_trackNode (s : DecayScheduler) (state : StateManager) (clock : Reading → Time)
    (m : NodeID) : useOnRecord (s.trackNode state clock m) = useOnRecord s := by
  unfold trackNode
  split
  · rfl
  · exact useOnRecord_upsert s m fun _ => rfl

theorem useOnRecord_checkNodes (state : StateManager) (clock : Reading → Time) (epoch : UInt64)
    (s : DecayScheduler) (nodes : List NodeState) :
    useOnRecord (checkNodes state clock epoch s nodes).1 = useOnRecord s := by
  induction nodes generalizing s with
  | nil => rfl
  | cons node rest ih => exact (ih _).trans (useOnRecord_trackNode s state clock node.nodeId)

/-- Looking at Things leaves the nodes alone. -/
theorem nodeActivities_checkThings (state : StateManager) (clock : Reading → Time)
    (s : DecayScheduler) (things : List ThingState) :
    (checkThings state clock s things).1.nodeActivities = s.nodeActivities := by
  induction things generalizing s with
  | nil => rfl
  | cons thing rest ih =>
    refine (ih _).trans ?_
    split
    · rfl
    · rfl

theorem useOnRecord_processEpoch (s : DecayScheduler) (state : StateManager)
    (clock : Reading → Time) (epoch : UInt64) :
    useOnRecord (s.processEpoch state clock epoch).1 = useOnRecord s := by
  rw [← useOnRecord_checkNodes state clock epoch s state.getAllActiveNodes]
  funext n T
  unfold useOnRecord processEpoch checkThingDecay checkKeyDecay
  rw [OrdMap.find?_mapValues, nodeActivities_checkThings]
  cases (checkNodes state clock epoch s state.getAllActiveNodes).1.nodeActivities.find? n with
  | none => rfl
  | some a => rfl

/-- What cleaning up leaves was on record before. -/
theorem useOnRecord_cleanupInactiveNodes {s : DecayScheduler} {now : Time} {threshold : UInt64}
    {n : NodeID} {T : Wire KeyType} {t : UInt64}
    (h : useOnRecord (s.cleanupInactiveNodes now threshold) n T = some t) :
    useOnRecord s n T = some t := by
  obtain ⟨a, ha, ht⟩ := Option.bind_eq_some_iff.mp h
  rw [cleanupInactiveNodes, OrdMap.find?_filter] at ha
  obtain ⟨ha, _⟩ := Option.filter_eq_some_iff.mp ha
  exact Option.bind_eq_some_iff.mpr ⟨a, ha, ht⟩

/-- Every call keeps the uses on record the last ones. -/
theorem step_recorded (past : List DecayInput) (s : DecayScheduler) (input : DecayInput)
    (h : Recorded past s) : Recorded (past ++ [input]) (decayMachine.step s input).1 := by
  intro n T t ht
  rw [lastUse_concat]
  cases input with
  | setKeyPolicy keyType policy => exact h n T t ht
  | setThingPolicy policy => exact h n T t ht
  | recordNodeActivity now nodeId =>
    have hsame : useOnRecord (s.recordNodeActivity now nodeId) = useOnRecord s :=
      useOnRecord_upsert s nodeId fun _ => rfl
    exact h n T t (hsame ▸ ht)
  -- the one call that records a use
  | recordKeyUse now nodeId keyType =>
    have huse : useOnRecord (s.recordKeyUse now nodeId keyType) n T = some t := ht
    rw [useOnRecord_recordKeyUse] at huse
    show (if nodeId = n ∧ keyType = T then some now.secs else lastUse past n T) = some t
    split at huse
    · rename_i hsame
      rw [if_pos hsame]
      exact huse
    · rename_i hother
      rw [if_neg hother]
      exact h n T t huse
  | recordThingAccess state now contentHash => exact h n T t ht
  | cleanupInactiveNodes now threshold => exact h n T t (useOnRecord_cleanupInactiveNodes ht)
  | checkKeyDecay state clock epoch =>
    exact h n T t (useOnRecord_checkNodes state clock epoch s _ ▸ ht)
  -- the check of things reads and writes other tables
  | checkThingDecay state clock =>
    have hnodes := nodeActivities_checkThings state clock s state.getAllAvailableThings
    refine h n T t (Eq.trans ?_ ht)
    show useOnRecord s n T = useOnRecord (s.checkThingDecay state clock).1 n T
    unfold useOnRecord checkThingDecay
    rw [hnodes]
  | processEpoch state clock epoch =>
    exact h n T t (useOnRecord_processEpoch s state clock epoch ▸ ht)

/-! ## What a check picks -/

/-- Some event says that the key decays for lack of activity. -/
def Picked (events : List KeyDecayEvent) (n : NodeID) (T : Wire KeyType) : Prop :=
  ∃ e ∈ events, e.nodeId = n ∧ e.keyType = T ∧ e.reason = .inactivity

/-- The record shows a lack of activity. -/
def Idle (a : NodeActivity) (clock : Reading → Time) (n : NodeID) (T : Wire KeyType)
    (policy : DecayPolicy) : Prop :=
  policy.maxAgeSeconds ≠ 0 ∧
    (a.isInactive (clock (.seen n T)) policy.inactivityThreshold = true ∨
      policy.requiresActivity = true ∧
        a.hasUsedKeyType (clock (.used n T)) T policy.inactivityThreshold = false)

theorem shouldDecayKey_iff {s : DecayScheduler} {n : NodeID} {a : NodeActivity}
    (ha : s.nodeActivities.find? n = some a) (clock : Reading → Time) (T : Wire KeyType)
    (policy : DecayPolicy) :
    s.shouldDecayKey clock n T policy = some .inactivity ↔ Idle a clock n T policy := by
  unfold shouldDecayKey Idle
  rw [ha]
  by_cases hage : policy.maxAgeSeconds = 0
  · simp [hage]
  · cases hseen : a.isInactive (clock (.seen n T)) policy.inactivityThreshold with
    | true => simp [hage, hseen]
    | false =>
      cases policy.requiresActivity with
      | false => simp [hage, hseen]
      | true =>
        cases hused : a.hasUsedKeyType (clock (.used n T)) T policy.inactivityThreshold with
        | false => simp [hage, hseen, hused]
        | true => simp [hage, hseen, hused]

theorem find?_trackNode (s : DecayScheduler) (state : StateManager) (clock : Reading → Time)
    (m n : NodeID) :
    (s.trackNode state clock m).nodeActivities.find? n =
      if m = n then some (workingRecord s state clock n) else s.nodeActivities.find? n := by
  unfold trackNode OrdMap.contains workingRecord
  cases hm : s.nodeActivities.find? m with
  | none =>
    simp only [Option.isSome_none, Bool.false_eq_true, if_false, updateNodeActivityFromState]
    rw [OrdMap.find?_upsert, hm]
    split
    · rename_i hn
      rw [← hn, hm]
      rfl
    · rfl
  | some a =>
    simp only [Option.isSome_some, if_true]
    split
    · rename_i hn
      rw [← hn, hm]
      rfl
    · rfl

theorem workingRecord_trackNode (s : DecayScheduler) (state : StateManager)
    (clock : Reading → Time) (m n : NodeID) :
    workingRecord (s.trackNode state clock m) state clock n = workingRecord s state clock n := by
  unfold workingRecord
  rw [find?_trackNode]
  split
  · rfl
  · rfl

theorem getKeyPolicy_trackNode (s : DecayScheduler) (state : StateManager)
    (clock : Reading → Time) (m : NodeID) (T : Wire KeyType) :
    (s.trackNode state clock m).getKeyPolicy T = s.getKeyPolicy T := by
  unfold trackNode
  split
  · rfl
  · rfl

/-- The keys of one node that are picked. -/
theorem picked_nodeDecays (s : DecayScheduler) (clock : Reading → Time) (epoch : UInt64)
    (node : NodeState) (n : NodeID) (T : Wire KeyType) :
    Picked (s.nodeDecays clock epoch node) n T ↔
      node.nodeId = n ∧ (∃ count, node.keyBalances.find? T = some count ∧ count ≠ 0) ∧
        s.shouldDecayKey clock n T (s.getKeyPolicy T) = some .inactivity := by
  constructor
  · rintro ⟨e, he, rfl, rfl, hreason⟩
    obtain ⟨⟨U, count⟩, hentry, hpick⟩ := List.mem_filterMap.mp he
    dsimp only at hpick
    split at hpick
    · cases hpick
    · rename_i hcount
      obtain ⟨reason, hshould, rfl⟩ := Option.map_eq_some_iff.mp hpick
      dsimp only at hreason
      rw [hreason] at hshould
      exact ⟨rfl, ⟨count, OrdMap.mem_entries.mp hentry, hcount⟩, hshould⟩
  · rintro ⟨rfl, ⟨count, hfind, hcount⟩, hshould⟩
    refine ⟨⟨node.nodeId, T, 1, .inactivity, (clock (.keyDecayed node.nodeId T)).secs, epoch⟩,
      List.mem_filterMap.mpr ⟨(T, count), OrdMap.mem_entries.mpr hfind, ?_⟩, rfl, rfl, rfl⟩
    rw [if_neg hcount, hshould]
    rfl

theorem picked_append (front back : List KeyDecayEvent) (n : NodeID) (T : Wire KeyType) :
    Picked (front ++ back) n T ↔ Picked front n T ∨ Picked back n T := by
  simp only [Picked, List.mem_append, or_and_right, exists_or]

theorem holds_cons (node : NodeState) (rest : List NodeState) (n : NodeID) (T : Wire KeyType) :
    Holds (node :: rest) n T ↔
      (node.nodeId = n ∧ ∃ count, node.keyBalances.find? T = some count ∧ count ≠ 0) ∨
        Holds rest n T := by
  simp only [Holds, List.mem_cons, or_and_right, exists_or, exists_eq_left]

/-- **One check.** Exactly the keys whose record shows a lack of activity are picked
for it. -/
theorem picked_checkNodes (state : StateManager) (clock : Reading → Time) (epoch : UInt64)
    (s : DecayScheduler) (nodes : List NodeState) (n : NodeID) (T : Wire KeyType) :
    Picked (checkNodes state clock epoch s nodes).2 n T ↔
      Holds nodes n T ∧ Idle (workingRecord s state clock n) clock n T (s.getKeyPolicy T) := by
  induction nodes generalizing s with
  | nil =>
    exact iff_of_false (fun h => nomatch h.choose_spec.1) fun h => nomatch h.1.choose_spec.1
  | cons node rest ih =>
    -- the node is looked at under the record made for it, the others find theirs unchanged
    have hfirst : (s.trackNode state clock node.nodeId).shouldDecayKey clock node.nodeId T
        (s.getKeyPolicy T) = some .inactivity ↔
          Idle (workingRecord s state clock node.nodeId) clock node.nodeId T
            (s.getKeyPolicy T) := by
      refine shouldDecayKey_iff ?_ clock T _
      rw [find?_trackNode, if_pos rfl]
    have hrest := ih (s.trackNode state clock node.nodeId)
    rw [workingRecord_trackNode, getKeyPolicy_trackNode] at hrest
    show Picked (_ ++ _) n T ↔ _
    rw [picked_append, picked_nodeDecays, getKeyPolicy_trackNode, hrest, holds_cons, or_and_right]
    refine or_congr_left ?_
    rw [and_assoc]
    refine and_congr_right ?_
    rintro rfl
    rw [hfirst]

/-! ## Runs -/

/-- A key in use counts as used exactly when the use is still on record. -/
theorem hasUsedKeyType_workingRecord {past : List DecayInput} {s : DecayScheduler}
    (h : Recorded past s) (state : StateManager) (clock : Reading → Time) {now : Time}
    {policy : DecayPolicy} {n : NodeID} {T : Wire KeyType} (huse : InUse past now policy n T) :
    (workingRecord s state clock n).hasUsedKeyType now T policy.inactivityThreshold =
      (workingRecord s state clock n).lastUseByType.contains T := by
  unfold workingRecord NodeActivity.hasUsedKeyType OrdMap.contains
  cases ha : s.nodeActivities.find? n with
  | none => rfl
  | some a =>
    cases ht : a.lastUseByType.find? T with
    | none => simp [ht]
    | some t =>
      -- the record can only hold the last use, which is recent
      have hlast : lastUse past n T = some t := by
        refine h n T t ?_
        rw [useOnRecord, ha]
        exact ht
      obtain ⟨t', ht', hle, hrecent⟩ := huse.recent
      cases hlast.symm.trans ht'
      have hwithin : now.secs - t ≤ policy.inactivityThreshold := by
        rw [UInt64.le_iff_toNat_le, UInt64.toNat_sub_of_le _ _ (UInt64.le_iff_toNat_le.mpr hle)]
        exact hrecent
      simp [ht, hwithin]

/-- What the calls that check put out. -/
theorem call_of_checks {input : DecayInput} {state : StateManager} {clock : Reading → Time}
    (h : checks input = some (state, clock)) (s : DecayScheduler) :
    ∃ epoch, (s.call input).2 = (checkNodes state clock epoch s state.getAllActiveNodes).2 := by
  cases input with
  | checkKeyDecay state' clock' epoch =>
    cases h
    exact ⟨epoch, rfl⟩
  | processEpoch state' clock' epoch =>
    cases h
    exact ⟨epoch, rfl⟩
  | _ => cases h

/-- One call spares the keys in use exactly when the nodes were seen too. -/
theorem step_protected_iff (past : List DecayInput) (s : DecayScheduler) (input : DecayInput)
    (h : Recorded past s) : Protected past s input ↔ SeenToo past s input := by
  -- key by key: both sides speak of the same checks
  refine forall_congr' fun state => forall_congr' fun clock => forall_congr' fun hchecks =>
    forall_congr' fun n => forall_congr' fun T => ?_
  obtain ⟨epoch, hevents⟩ := call_of_checks hchecks s
  have hspared : (∀ e ∈ (s.call input).2, e.nodeId = n → e.keyType = T → e.reason ≠ .inactivity) ↔
      ¬ Picked (s.call input).2 n T := by
    simp only [Picked, not_exists, not_and, ne_eq]
  rw [hspared, hevents, picked_checkNodes]
  constructor
  · intro hsafe hholds hage huse
    have hused := hasUsedKeyType_workingRecord h state clock huse
    constructor
    · by_contra hseen
      exact hsafe huse ⟨hholds, hage, .inl (by simpa using hseen)⟩
    · intro hrequires
      by_contra hdropped
      -- a use that was dropped does not count as one
      refine hsafe huse ⟨hholds, hage, .inr ⟨hrequires, ?_⟩⟩
      rw [hused]
      simpa using hdropped
  · rintro hseen huse ⟨hholds, hage, hidle⟩
    obtain ⟨hactive, hkept⟩ := hseen hholds hage huse
    rcases hidle with hinactive | ⟨hrequires, hunused⟩
    · exact absurd (hactive.symm.trans hinactive) (by decide)
    · rw [hasUsedKeyType_workingRecord h state clock huse, hkept hrequires] at hunused
      cases hunused

/-- **Use protects keys.** In a run of a new scheduler no check picks a key in use for
inactivity exactly when, at every check, the node behind every key in use was seen
within the threshold too and its use is still on record where activity is
required. -/
theorem use_protects_iff (inputs : List DecayInput) :
    decayMachine.EachStep Protected .new inputs ↔ decayMachine.EachStep SeenToo .new inputs := by
  have hstart : Recorded [] .new := fun _ _ _ ht => nomatch ht
  exact decayMachine.eachStep_congr hstart step_recorded step_protected_iff inputs

/-- A second of the year 2023. -/
def sampleSecond : Time := ⟨1700000000, by decide⟩

/-- A ledger in which node 1 is active and has a node key. -/
def sampleHoldings : StateManager where
  nodes := OrdMap.empty.insert (sampleNode 1)
    { nodeId := sampleNode 1
      isActive := true
      keyBalances := OrdMap.empty.insert (.listed .node) 1 }

/-- The key is used, and the epoch is processed in the same second. -/
def usedThenChecked : List DecayInput :=
  [.recordKeyUse sampleSecond (sampleNode 1) (.listed .node),
    .processEpoch sampleHoldings (fun _ => sampleSecond) 1]

/-- The key decays for inactivity: its node was never seen. -/
theorem used_key_decays : ¬ decayMachine.EachStep Protected .new usedThenChecked := by
  intro hall
  have hsafe := hall [_] _ [] rfl sampleHoldings (fun _ => sampleSecond) rfl (sampleNode 1)
    (.listed .node)
  refine hsafe ⟨⟨1700000000, by decide⟩, by decide⟩
    ⟨sampleNode 1, .listed .node, 1, .inactivity, 1700000000, 1⟩ ?_ rfl rfl rfl
  decide

end Cashew.Theorems.KeyDecay

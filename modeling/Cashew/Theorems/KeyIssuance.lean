import Cashew.Keys.HybridCoordinator

/-!
# Keys within the limit, keys for work

Two promises of the hybrid coordinator. The keys of a node in one epoch stay within
the policy's limit, unless the 32-bit sum of the limit test wraps around: the count
of a request is the caller's, so that `2^32 - n` keys pass once `n` were issued. And
a proof of work is tested against the difficulty its sender claims, with no minimum
and no memory of the proofs that were used.
-/

namespace Cashew.Theorems.KeyIssuance

open Cashew Cashew.Lib HybridCoordinator

/-! ## What a request asks for -/

/-- Who asks. -/
def requester : IssuanceInput → NodeID
  | .viaPow nodeId _ _ _ => nodeId
  | .viaPostake nodeId _ _ _ _ => nodeId
  | .hybrid nodeId _ _ _ _ => nodeId

/-- For how many keys, the bonus included. -/
def keysAsked (c : HybridCoordinator) : IssuanceInput → UInt32
  | .viaPow _ _ _ keyCount => keyCount
  | .viaPostake _ _ _ _ keyCount => keyCount
  | .hybrid _ _ _ _ keyCount => c.calculateHybridBonus keyCount

/-- With which proof of work. -/
def solution : IssuanceInput → Option PowSolution
  | .viaPow _ powSolution _ _ => some powSolution
  | .viaPostake _ _ _ _ _ => none
  | .hybrid _ powSolution _ _ _ => some powSolution

/-- The tests of the way that was chosen. -/
def qualifies (c : HybridCoordinator) : IssuanceInput → Bool
  | .viaPow _ powSolution _ _ => powSolutionMeetsClaimedDifficulty powSolution
  | .viaPostake _ metrics score _ _ =>
    c.policy.allowPostakeOnly && !(c.policy.requirePowForNewNodes && isNewNode metrics) &&
      !decide (score.totalScore < c.policy.minContributionScore)
  | .hybrid _ powSolution _ _ _ => powSolutionMeetsClaimedDifficulty powSolution

/-- Both limits and these tests pass. -/
def granted (c : HybridCoordinator) (input : IssuanceClock × IssuanceInput) : Bool :=
  c.canIssueKeys input.1.checkTicks (requester input.2) (keysAsked c input.2)
    input.1.currentEpoch && qualifies c input.2

/-- What the record of a granted request says. -/
structure Describes (c : HybridCoordinator) (input : IssuanceClock × IssuanceInput)
    (r : HybridIssuanceRecord) : Prop where
  nodeId : r.nodeId = requester input.2
  keyCount : r.keyCount = keysAsked c input.2
  epoch : r.epoch = input.1.currentEpoch
  powSolution : r.powSolution = solution input.2
  method : r.method = .postakeOnly ↔ solution input.2 = none

/-- A request behind two tests: refused, nothing changes; granted, its record is
added. -/
theorem tested_cases (c : HybridCoordinator) (r : HybridIssuanceRecord) (limit earned : Bool) :
    ((limit && earned) = false ∧
        (if !limit then (c, none) else if !earned then (c, none)
          else (c.recordIssuance r, some r)) = (c, none)) ∨
      ((limit && earned) = true ∧
        (if !limit then (c, none) else if !earned then (c, none)
          else (c.recordIssuance r, some r)) = (c.recordIssuance r, some r)) := by
  cases limit with
  | false => exact .inl ⟨rfl, rfl⟩
  | true =>
    cases earned with
    | false => exact .inl ⟨rfl, rfl⟩
    | true => exact .inr ⟨rfl, rfl⟩

/-- The tests for contribution, in the order of the other requests. -/
theorem contribution_tests {α : Type} (refused paid : α) (allowed new limit : Bool) (low : Prop)
    [Decidable low] :
    (if !allowed then refused else if new then refused else if !limit then refused
      else if low then refused else paid) =
      if !limit then refused else if !(allowed && !new && !decide low) then refused else paid := by
  cases allowed with
  | false => simp
  | true =>
    cases new with
    | true => simp
    | false => by_cases hlow : low <;> simp [hlow]

/-- **One request.** Refused, nothing changes; granted, its record is added. -/
theorem request_cases (H : Bytes → Hash256) (c : HybridCoordinator)
    (input : IssuanceClock × IssuanceInput) :
    (granted c input = false ∧ c.request H input.1 input.2 = (c, none)) ∨
      (granted c input = true ∧ ∃ r, Describes c input r ∧
        c.request H input.1 input.2 = (c.recordIssuance r, some r)) := by
  obtain ⟨clock, input⟩ := input
  cases input with
  | viaPow nodeId powSolution keyType keyCount =>
    rcases tested_cases c _ _ _ with ⟨hno, hrefused⟩ | ⟨hyes, hgranted⟩
    · exact .inl ⟨hno, hrefused⟩
    · refine .inr ⟨hyes, _, ?_, hgranted⟩
      exact ⟨rfl, rfl, rfl, rfl, by simp [HybridIssuanceRecord.sealed, solution]⟩
  | viaPostake nodeId metrics score keyType keyCount =>
    simp only [request, requestKeysViaPostake, contribution_tests]
    rcases tested_cases c _ _ _ with ⟨hno, hrefused⟩ | ⟨hyes, hgranted⟩
    · exact .inl ⟨hno, hrefused⟩
    · exact .inr ⟨hyes, _, ⟨rfl, rfl, rfl, rfl, iff_of_true rfl rfl⟩, hgranted⟩
  | hybrid nodeId powSolution score keyType keyCount =>
    rcases tested_cases c _ _ _ with ⟨hno, hrefused⟩ | ⟨hyes, hgranted⟩
    · exact .inl ⟨hno, hrefused⟩
    · refine .inr ⟨hyes, _, ?_, hgranted⟩
      exact ⟨rfl, rfl, rfl, rfl, by simp [HybridIssuanceRecord.sealed, solution]⟩

theorem getIssuanceHistory_recordIssuance (c : HybridCoordinator) (r : HybridIssuanceRecord)
    (n : NodeID) :
    (c.recordIssuance r).getIssuanceHistory n =
      if r.nodeId = n then c.getIssuanceHistory n ++ [r] else c.getIssuanceHistory n := by
  unfold recordIssuance getIssuanceHistory
  rw [OrdMap.find?_upsert]
  split
  · rename_i hn
    rw [hn]
    rfl
  · rfl

theorem getKeysIssuedInEpoch_recordIssuance (c : HybridCoordinator) (r : HybridIssuanceRecord)
    (n : NodeID) (e : UInt64) :
    (c.recordIssuance r).getKeysIssuedInEpoch n e =
      if r.nodeId = n ∧ r.epoch = e then c.getKeysIssuedInEpoch n e + r.keyCount
      else c.getKeysIssuedInEpoch n e := by
  unfold recordIssuance getKeysIssuedInEpoch
  rw [OrdMap.find?_upsert]
  by_cases hkey : r.nodeId = n ∧ r.epoch = e
  · rw [if_pos (by rw [hkey.1, hkey.2]), if_pos hkey, hkey.1, hkey.2]
    rfl
  · rw [if_neg (fun h => hkey ⟨congrArg EpochKey.nodeId h, congrArg EpochKey.epoch h⟩), if_neg hkey]

/-! ## The limit -/

/-- The keys of the node's records of the epoch, as a natural number. -/
def issued (c : HybridCoordinator) (n : NodeID) (e : UInt64) : Nat :=
  (((c.getIssuanceHistory n).filter (·.epoch == e)).map (·.keyCount.toNat)).sum

/-- No node has more keys of one epoch than the policy allows. -/
def WithinLimit (c : HybridCoordinator) : Prop :=
  ∀ n e, issued c n e ≤ c.policy.maxKeysPerEpoch.toNat

/-- If the request is granted, the sum its limit test compares is below `2^32`. -/
def NoWrap (c : HybridCoordinator) (input : IssuanceClock × IssuanceInput) : Prop :=
  granted c input = true →
    (c.getKeysIssuedInEpoch (requester input.2) input.1.currentEpoch).toNat +
      (keysAsked c input.2).toNat < 2 ^ 32

/-- The counts are those of the records, modulo `2^32`. -/
def Counted (c : HybridCoordinator) : Prop :=
  ∀ n e, (c.getKeysIssuedInEpoch n e).toNat = issued c n e % 2 ^ 32

theorem issued_recordIssuance (c : HybridCoordinator) (r : HybridIssuanceRecord) (n : NodeID)
    (e : UInt64) :
    issued (c.recordIssuance r) n e =
      issued c n e + if r.nodeId = n ∧ r.epoch = e then r.keyCount.toNat else 0 := by
  unfold issued
  rw [getIssuanceHistory_recordIssuance]
  by_cases hnode : r.nodeId = n
  · by_cases hepoch : r.epoch = e
    · simp [hnode, hepoch]
    · simp [hnode, hepoch]
  · simp [hnode]

theorem counted_recordIssuance {c : HybridCoordinator} (h : Counted c) (r : HybridIssuanceRecord) :
    Counted (c.recordIssuance r) := by
  intro n e
  rw [getKeysIssuedInEpoch_recordIssuance, issued_recordIssuance]
  split
  · -- the stored count wraps around where the sum of the records does not
    rw [UInt32.toNat_add, h n e]
    omega
  · exact h n e

theorem step_counted (H : Bytes → Hash256) (c : HybridCoordinator)
    (input : IssuanceClock × IssuanceInput) (h : Counted c) :
    Counted ((issuanceMachine H).step c input).1 := by
  show Counted (c.request H input.1 input.2).1
  rcases request_cases H c input with ⟨_, hrefused⟩ | ⟨_, r, _, hgranted⟩
  · rw [hrefused]
    exact h
  · rw [hgranted]
    exact counted_recordIssuance h r

/-- The 32-bit sum that a granted request passed. -/
theorem count_add_le_of_granted {c : HybridCoordinator} {input : IssuanceClock × IssuanceInput}
    (h : granted c input = true) :
    ((c.getKeysIssuedInEpoch (requester input.2) input.1.currentEpoch).toNat +
      (keysAsked c input.2).toNat) % 2 ^ 32 ≤ c.policy.maxKeysPerEpoch.toNat := by
  have hlimit := (Bool.and_eq_true_iff.mp h).1
  unfold canIssueKeys at hlimit
  split at hlimit
  · cases hlimit
  · rename_i hle
    rw [← UInt32.toNat_add]
    exact UInt32.le_iff_toNat_le.mp (UInt32.not_lt.mp hle)

/-- One request keeps the limit exactly when its sum does not wrap around. -/
theorem step_withinLimit_iff (H : Bytes → Hash256) (c : HybridCoordinator)
    (input : IssuanceClock × IssuanceInput) (hcounted : Counted c) (h : WithinLimit c) :
    WithinLimit ((issuanceMachine H).step c input).1 ↔ NoWrap c input := by
  show WithinLimit (c.request H input.1 input.2).1 ↔ NoWrap c input
  have hmax := UInt32.toNat_lt c.policy.maxKeysPerEpoch
  rcases request_cases H c input with ⟨hno, hrefused⟩ | ⟨hyes, r, hr, hgranted⟩
  · rw [hrefused]
    exact iff_of_true h (fun hyes => absurd (hno.symm.trans hyes) (by decide))
  · rw [hgranted]
    -- the count is exact as long as the limit holds
    have hexact : (c.getKeysIssuedInEpoch (requester input.2) input.1.currentEpoch).toNat =
        issued c (requester input.2) input.1.currentEpoch := by
      rw [hcounted, Nat.mod_eq_of_lt]
      exact Nat.lt_of_le_of_lt (h _ _) hmax
    constructor
    · -- the new sum is below the limit, and so below `2^32`
      intro hnext _
      have hsum := hnext (requester input.2) input.1.currentEpoch
      rw [issued_recordIssuance, if_pos ⟨hr.nodeId, hr.epoch⟩, hr.keyCount, ← hexact] at hsum
      exact Nat.lt_of_le_of_lt hsum hmax
    · intro hwrap n e
      rw [issued_recordIssuance]
      split
      · rename_i hkey
        have hle := count_add_le_of_granted hyes
        rw [Nat.mod_eq_of_lt (hwrap hyes), hexact] at hle
        rw [← hkey.1, ← hkey.2, hr.nodeId, hr.epoch, hr.keyCount]
        exact hle
      · exact h n e

/-- **Within the limit.** In a run of requests from a new coordinator no node ever has
more keys of an epoch than the policy allows exactly when no granted request makes
the 32-bit sum of the limit test wrap around. -/
theorem keys_within_limit_iff (H : Bytes → Hash256) (policy : HybridPolicy)
    (inputs : List (IssuanceClock × IssuanceInput)) :
    (issuanceMachine H).Always WithinLimit { policy } inputs ↔
      (issuanceMachine H).StepsMeet NoWrap { policy } inputs := by
  have hcounted : Counted { policy } := fun _ _ => rfl
  have hlimit : WithinLimit { policy } := fun _ _ => Nat.zero_le _
  exact (issuanceMachine H).always_iff (P := Counted) (Q := WithinLimit) (step_counted H)
    (step_withinLimit_iff H) hcounted hlimit inputs

/-- A proof of work without any zero bit that claims no difficulty. -/
def worthless : PowSolution where
  solutionHash := ⟨List.replicate 32 0xff, rfl⟩
  nonce := 0
  difficulty := 0
  computeTimeMs := 0

/-- The proof of work, handed in `seconds` after the start. -/
def handIn (seconds : UInt64) (keyCount : UInt32) : IssuanceClock × IssuanceInput :=
  (⟨seconds, seconds, seconds⟩, .viaPow (sampleNode 1) worthless (.listed .identity) keyCount)

/-- Five keys, and a minute later `2^32 - 5` more. -/
theorem limit_wraps_around :
    ¬ (issuanceMachine fun _ => FixedBytes.zero).Always WithinLimit { policy := {} }
      [handIn 0 5, handIn 60 4294967291] := by
  intro hall
  have hlast := hall.2.2 (sampleNode 1) 0
  revert hlast
  decide

/-! ## Proofs of work -/

/-- What is found by working: the hash and the nonce. -/
def proofOf (s : PowSolution) : Hash256 × UInt64 := (s.solutionHash, s.nonce)

/-- The proof of work behind the node's record at the position. -/
def proofAt (c : HybridCoordinator) (n : NodeID) (i : Nat) : Option (Hash256 × UInt64) :=
  ((c.getIssuanceHistory n)[i]?.bind (·.powSolution)).map proofOf

/-- The bits that were worked for. -/
def HasWork (s : PowSolution) : Prop :=
  ProofOfWork.minDifficulty.toNat ≤ leadingZeroBits s.solutionHash.bytes

instance (s : PowSolution) : Decidable (HasWork s) := inferInstanceAs (Decidable (_ ≤ _))

/-- Every record that is not for contribution alone rests on a proof of work of at
least the minimum difficulty, and on one of its own. -/
structure Earned (c : HybridCoordinator) : Prop where
  worked : ∀ n, ∀ r ∈ c.getIssuanceHistory n, r.method ≠ .postakeOnly →
    ∃ s, r.powSolution = some s ∧ HasWork s
  once : ∀ n i m j p, proofAt c n i = some p → proofAt c m j = some p → n = m ∧ i = j

/-- If the request is granted, its proof of work has the minimum difficulty and is
behind no earlier record. -/
def NewWork (c : HybridCoordinator) (input : IssuanceClock × IssuanceInput) : Prop :=
  granted c input = true → ∀ s, solution input.2 = some s →
    HasWork s ∧ ∀ n i, proofAt c n i ≠ some (proofOf s)

theorem proofAt_recordIssuance (c : HybridCoordinator) (r : HybridIssuanceRecord) (n : NodeID)
    (i : Nat) :
    proofAt (c.recordIssuance r) n i =
      if r.nodeId = n ∧ i = (c.getIssuanceHistory n).length then r.powSolution.map proofOf
      else proofAt c n i := by
  unfold proofAt
  rw [getIssuanceHistory_recordIssuance]
  by_cases hnode : r.nodeId = n
  · rw [if_pos hnode]
    -- a position in front of the new record, its own, or one behind it
    rcases Nat.lt_trichotomy i (c.getIssuanceHistory n).length with hlt | heq | hgt
    · rw [if_neg (by omega), List.getElem?_append_left hlt]
    · rw [if_pos ⟨hnode, heq⟩, heq, List.getElem?_concat_length]
      rfl
    · rw [if_neg (by omega), List.getElem?_eq_none (by simp; omega),
        List.getElem?_eq_none (by omega)]
  · rw [if_neg hnode, if_neg (fun h => hnode h.1)]

theorem proofAt_lt {c : HybridCoordinator} {n : NodeID} {i : Nat} {p : Hash256 × UInt64}
    (h : proofAt c n i = some p) : i < (c.getIssuanceHistory n).length := by
  by_contra hle
  rw [proofAt, List.getElem?_eq_none (by omega)] at h
  cases h

theorem proofAt_recordIssuance_self (c : HybridCoordinator) (r : HybridIssuanceRecord) :
    proofAt (c.recordIssuance r) r.nodeId (c.getIssuanceHistory r.nodeId).length =
      r.powSolution.map proofOf := by
  rw [proofAt_recordIssuance, if_pos ⟨rfl, rfl⟩]

/-- The proofs of earlier records stay where they are. -/
theorem proofAt_recordIssuance_of_some {c : HybridCoordinator} (r : HybridIssuanceRecord)
    {n : NodeID} {i : Nat} {p : Hash256 × UInt64} (h : proofAt c n i = some p) :
    proofAt (c.recordIssuance r) n i = some p := by
  have hlt := proofAt_lt h
  rw [proofAt_recordIssuance, if_neg (by omega), h]

/-- A granted request whose records stay earned brought new work. -/
theorem newWork_of_earned {c : HybridCoordinator} {input : IssuanceClock × IssuanceInput}
    {r : HybridIssuanceRecord} (hr : Describes c input r) (h : Earned (c.recordIssuance r)) :
    NewWork c input := by
  intro _ s hs
  have hpow : r.powSolution = some s := hr.powSolution.trans hs
  have hself : proofAt (c.recordIssuance r) r.nodeId (c.getIssuanceHistory r.nodeId).length =
      some (proofOf s) := by
    rw [proofAt_recordIssuance_self, hpow]
    rfl
  constructor
  · have hmem : r ∈ (c.recordIssuance r).getIssuanceHistory r.nodeId := by
      rw [getIssuanceHistory_recordIssuance, if_pos rfl]
      exact List.mem_append_right _ (List.mem_singleton.mpr rfl)
    have hmethod : r.method ≠ .postakeOnly := by
      intro hpostake
      rw [hr.method.mp hpostake] at hs
      cases hs
    obtain ⟨s', hs', hwork⟩ := h.worked r.nodeId r hmem hmethod
    rw [hpow] at hs'
    cases hs'
    exact hwork
  · intro n i hat
    -- the earlier record and the new one would share the proof
    obtain ⟨rfl, rfl⟩ := h.once n i _ _ _ (proofAt_recordIssuance_of_some r hat) hself
    exact Nat.lt_irrefl _ (proofAt_lt hat)

/-- New work keeps the records earned. -/
theorem earned_of_newWork {c : HybridCoordinator} {input : IssuanceClock × IssuanceInput}
    {r : HybridIssuanceRecord} (hr : Describes c input r) (hgranted : granted c input = true)
    (h : Earned c) (hnew : NewWork c input) : Earned (c.recordIssuance r) := by
  -- no earlier record has the proof of the new one
  have hfresh : ∀ n i p, proofAt c n i = some p → r.powSolution.map proofOf ≠ some p := by
    intro n i p hat hself
    obtain ⟨s, hs, rfl⟩ := Option.map_eq_some_iff.mp hself
    exact (hnew hgranted s (hr.powSolution.symm.trans hs)).2 n i hat
  constructor
  · intro n q hq hmethod
    rw [getIssuanceHistory_recordIssuance] at hq
    split at hq
    · rcases List.mem_append.mp hq with hold | hlast
      · exact h.worked n q hold hmethod
      · cases List.mem_singleton.mp hlast
        obtain ⟨s, hs⟩ := Option.ne_none_iff_exists'.mp (fun hno => hmethod (hr.method.mpr hno))
        exact ⟨s, hr.powSolution.trans hs, (hnew hgranted s hs).1⟩
    · exact h.worked n q hq hmethod
  · -- both positions are the new record's, or both are older
    intro n i m j p hn hm
    rw [proofAt_recordIssuance] at hn hm
    split at hn
    · rename_i hi
      split at hm
      · rename_i hj
        exact ⟨hi.1.symm.trans hj.1, by rw [hi.2, hj.2, ← hi.1, ← hj.1]⟩
      · exact absurd hn (hfresh m j p hm)
    · split at hm
      · exact absurd hm (hfresh n i p hn)
      · exact h.once n i m j p hn hm

/-- One request keeps the records earned exactly when it brings new work. -/
theorem step_earned_iff (H : Bytes → Hash256) (c : HybridCoordinator)
    (input : IssuanceClock × IssuanceInput) (h : Earned c) :
    Earned ((issuanceMachine H).step c input).1 ↔ NewWork c input := by
  show Earned (c.request H input.1 input.2).1 ↔ NewWork c input
  rcases request_cases H c input with ⟨hno, hrefused⟩ | ⟨hyes, r, hr, hgranted⟩
  · rw [hrefused]
    exact iff_of_true h (fun hyes => absurd (hno.symm.trans hyes) (by decide))
  · rw [hgranted]
    exact ⟨newWork_of_earned hr, earned_of_newWork hr hyes h⟩

theorem earned_initial (policy : HybridPolicy) : Earned { policy } :=
  ⟨(fun _ _ hr => nomatch hr), (fun _ _ _ _ _ hp => nomatch hp)⟩

/-- **Keys for work.** In a run of requests from a new coordinator every record that
counts on a proof of work has one of at least the minimum difficulty that no other
record has, exactly when every granted request with a proof of work brings one of
that difficulty that is behind no earlier record. -/
theorem keys_earned_iff (H : Bytes → Hash256) (policy : HybridPolicy)
    (inputs : List (IssuanceClock × IssuanceInput)) :
    (issuanceMachine H).Always Earned { policy } inputs ↔
      (issuanceMachine H).StepsMeet NewWork { policy } inputs := by
  exact (issuanceMachine H).always_iff (P := fun _ => True) (Q := Earned) (fun _ _ _ => trivial)
    (fun c input _ h => step_earned_iff H c input h) trivial (earned_initial policy) inputs

/-- A hash without a zero bit in front earns a key. -/
theorem worthless_work_paid :
    ¬ (issuanceMachine fun _ => FixedBytes.zero).Always Earned { policy := {} } [handIn 0 1] := by
  intro hall
  have hnew := (step_earned_iff _ _ _ (earned_initial {})).mp hall.2
  have hwork := (hnew (by decide) worthless rfl).1
  revert hwork
  decide +kernel

end Cashew.Theorems.KeyIssuance

import Cashew.Reputation.VouchingWorkflow

/-!
# What an update of the vouch impacts does to the scores

`update_vouch_impacts` goes through the vouchers in the order of the map and through the
records of each, and reads the scores as they are at that moment. Of a record it uses what
`vouch_for_node` has put there, and changes none of it: so the scores after an update are a
fold over the same records each time (`getReputation_updateVouchImpacts`).
-/

namespace Cashew

open Cashew.Lib

namespace ReputationManager

variable {m : ReputationManager} {clock : Clock}

/-- The total scores of all nodes. -/
abbrev Scores := NodeID → Int

/-- The impact a record has on its voucher when the scores are these. -/
def impactAt (scores : Scores) (record : VouchRecord) : Int :=
  { record with voucheeCurrentReputation := scores record.vouchee }.calculateVoucherImpact

/-- The scores after a record has been looked at. -/
def receive (voucher : NodeID) (scores : Scores) (record : VouchRecord) : Scores :=
  if impactAt scores record = 0 then scores
  else
    Function.update scores voucher (clampReputation (scores voucher + impactAt scores record))

/-- The scores after all records of a voucher. -/
def receiveAll (scores : Scores) (vouches : NodeID × List VouchRecord) : Scores :=
  vouches.2.foldl (receive vouches.1) scores

/-- The scores after an update. -/
def updatedScores (vouches : OrdMap NodeID (List VouchRecord)) (scores : Scores) : Scores :=
  vouches.entries.foldl receiveAll scores

/-- The records of a voucher, in the order they were made. -/
def recordsOf (m : ReputationManager) (voucher : NodeID) : List VouchRecord :=
  (m.vouches.find? voucher).getD []

/-! ## Impacts -/

theorem impactAt_of_not_active {scores : Scores} {record : VouchRecord}
    (h : record.stillActive = false) : impactAt scores record = 0 := by
  unfold impactAt VouchRecord.calculateVoucherImpact
  rw [if_pos (by simp [h])]

theorem abs_impactAt_le (scores : Scores) (record : VouchRecord) :
    |impactAt scores record| ≤ 50 := by
  unfold impactAt VouchRecord.calculateVoucherImpact
  rw [abs_le]
  split
  · omega
  · dsimp only
    split <;> split <;> omega

/-- An impact depends on the score of the vouchee alone. -/
theorem impactAt_congr {scores scores' : Scores} {record : VouchRecord}
    (h : record.stillActive = true → scores record.vouchee = scores' record.vouchee) :
    impactAt scores record = impactAt scores' record := by
  cases hactive : record.stillActive with
  | false => rw [impactAt_of_not_active hactive, impactAt_of_not_active hactive]
  | true =>
    unfold impactAt
    rw [h hactive]

theorem clampReputation_mem (score : Int) :
    reputationFloor ≤ clampReputation score ∧ clampReputation score ≤ reputationCeiling := by
  unfold clampReputation reputationFloor reputationCeiling
  dsimp only
  split <;> split <;> omega

/-! ## Scores -/

theorem receive_of_ne {voucher node : NodeID} (hne : node ≠ voucher) (scores : Scores)
    (record : VouchRecord) : receive voucher scores record node = scores node := by
  unfold receive
  split
  · rfl
  · exact Function.update_of_ne hne _ _

theorem receive_self (voucher : NodeID) (scores : Scores) (record : VouchRecord) :
    receive voucher scores record voucher =
      if impactAt scores record = 0 then scores voucher
      else clampReputation (scores voucher + impactAt scores record) := by
  unfold receive
  split
  · rfl
  · exact Function.update_self _ _ _

theorem receiveAll_of_ne {voucher node : NodeID} (hne : node ≠ voucher) (scores : Scores)
    (records : List VouchRecord) : receiveAll scores (voucher, records) node = scores node := by
  unfold receiveAll
  refine List.foldlRecOn (motive := fun s : Scores => s node = scores node) records _ rfl ?_
  intro s hs record _
  rw [receive_of_ne hne, hs]

/-- What a voucher's records make of its score depends on that score and those of the
vouchees. -/
theorem receiveAll_congr {voucher : NodeID} {records : List VouchRecord} {scores scores' : Scores}
    (hself : scores voucher = scores' voucher)
    (hvouchees : ∀ record ∈ records, record.stillActive = true →
      scores record.vouchee = scores' record.vouchee) :
    receiveAll scores (voucher, records) voucher =
      receiveAll scores' (voucher, records) voucher := by
  unfold receiveAll
  induction records generalizing scores scores' with
  | nil => exact hself
  | cons record rest ih =>
    have himpact : impactAt scores record = impactAt scores' record :=
      impactAt_congr (hvouchees record List.mem_cons_self)
    have hnext :
        receive voucher scores record voucher = receive voucher scores' record voucher := by
      rw [receive_self, receive_self, himpact, hself]
    refine ih hnext fun other hother hactive => ?_
    by_cases hvouchee : other.vouchee = voucher
    · rw [hvouchee, hnext]
    · rw [receive_of_ne hvouchee, receive_of_ne hvouchee]
      exact hvouchees other (List.mem_cons_of_mem record hother) hactive

/-! ## The loops -/

/-- A record without what the last update has read. -/
def forget (record : VouchRecord) : VouchRecord := { record with voucheeCurrentReputation := 0 }

theorem receiveAll_forget (scores : Scores) (voucher : NodeID) (records : List VouchRecord) :
    receiveAll scores (voucher, records.map forget) = receiveAll scores (voucher, records) := by
  unfold receiveAll
  rw [List.foldl_map]
  rfl

theorem getReputation_applyScoreDelta (now : Time) (nodeId : NodeID) (delta : Int) (reason : Text) :
    (m.applyScoreDelta now nodeId delta reason).getReputation =
      Function.update m.getReputation nodeId
        (clampReputation (m.getReputation nodeId + delta)) := by
  funext node
  unfold applyScoreDelta getReputation
  dsimp only
  rw [OrdMap.find?_upsert]
  by_cases hnode : nodeId = node
  · subst hnode
    rw [if_pos rfl, Function.update_self]
    cases m.scores.find? nodeId <;> rfl
  · rw [if_neg hnode, Function.update_of_ne (Ne.symm hnode)]

theorem updateVouchImpact_spec (m : ReputationManager) (clock : Clock) (voucher : NodeID)
    (record : VouchRecord) :
    (m.updateVouchImpact clock voucher record).1.1.getReputation =
        receive voucher m.getReputation record ∧
      (m.updateVouchImpact clock voucher record).1.1.vouches = m.vouches ∧
      forget (m.updateVouchImpact clock voucher record).2 = forget record := by
  unfold updateVouchImpact receive
  split
  · rename_i hactive
    rw [if_pos (impactAt_of_not_active (by simpa using hactive))]
    exact ⟨rfl, rfl, rfl⟩
  · dsimp only
    split
    · rename_i hzero
      rw [if_pos (show impactAt m.getReputation record = 0 from hzero)]
      exact ⟨rfl, rfl, rfl⟩
    · rename_i hne
      rw [if_neg (show ¬ impactAt m.getReputation record = 0 from hne)]
      exact ⟨getReputation_applyScoreDelta _ _ _ _, rfl, rfl⟩

theorem updateVouchesOf_spec (voucher : NodeID) (records : List VouchRecord)
    (w : ReputationManager × Clock) :
    (updateVouchesOf voucher w records).1.1.getReputation =
        receiveAll w.1.getReputation (voucher, records) ∧
      (updateVouchesOf voucher w records).1.1.vouches = w.1.vouches ∧
      (updateVouchesOf voucher w records).2.map forget = records.map forget := by
  induction records generalizing w with
  | nil => exact ⟨rfl, rfl, rfl⟩
  | cons record rest ih =>
    obtain ⟨hscores, hvouches, hrecord⟩ := updateVouchImpact_spec w.1 w.2 voucher record
    obtain ⟨hscores', hvouches', hrest⟩ := ih (w.1.updateVouchImpact w.2 voucher record).1
    refine ⟨?_, hvouches'.trans hvouches, ?_⟩
    · rw [updateVouchesOf, hscores', hscores]
      rfl
    · rw [updateVouchesOf, List.map_cons, List.map_cons, hrecord, hrest]

/-- One round of the outer loop. -/
def updateVouchesFor (w : ReputationManager × Clock) (vouches : NodeID × List VouchRecord) :
    ReputationManager × Clock :=
  let updated := updateVouchesOf vouches.1 w vouches.2
  ({ updated.1.1 with vouches := w.1.vouches.insert vouches.1 updated.2 }, updated.1.2)

/-- The same records, but for what the last update has read. -/
def SameRecords (vouches vouches' : OrdMap NodeID (List VouchRecord)) : Prop :=
  vouches.mapValues (fun _ => List.map forget) = vouches'.mapValues fun _ => List.map forget

theorem sameRecords_insert {vouches vouches' : OrdMap NodeID (List VouchRecord)}
    (h : SameRecords vouches vouches') {voucher : NodeID} {records updated : List VouchRecord}
    (hfind : vouches'.find? voucher = some records)
    (hupdated : updated.map forget = records.map forget) :
    SameRecords (vouches.insert voucher updated) vouches' := by
  refine OrdMap.ext fun node => ?_
  have hsame := congrArg (OrdMap.find? · node) h
  simp only [OrdMap.find?_mapValues] at hsame ⊢
  rw [OrdMap.find?_insert]
  split
  · rename_i hvoucher
    rw [← hvoucher, hfind, Option.map_some, Option.map_some, hupdated]
  · exact hsame

theorem foldl_updateVouchesFor {vouches : OrdMap NodeID (List VouchRecord)}
    (entries : List (NodeID × List VouchRecord)) (w : ReputationManager × Clock)
    (hentries : ∀ e ∈ entries, vouches.find? e.1 = some e.2)
    (hsame : SameRecords w.1.vouches vouches) :
    (entries.foldl updateVouchesFor w).1.getReputation =
        entries.foldl receiveAll w.1.getReputation ∧
      SameRecords (entries.foldl updateVouchesFor w).1.vouches vouches := by
  induction entries generalizing w with
  | nil => exact ⟨rfl, hsame⟩
  | cons e rest ih =>
    obtain ⟨hscores, -, hrecords⟩ := updateVouchesOf_spec e.1 e.2 w
    have hnext := ih (updateVouchesFor w e) (fun f hf => hentries f (List.mem_cons_of_mem e hf))
      (sameRecords_insert hsame (hentries e List.mem_cons_self) hrecords)
    refine ⟨hnext.1.trans ?_, hnext.2⟩
    exact congrArg (rest.foldl receiveAll) hscores

/-- The update: the scores, and the vouches but for what was read. -/
theorem updateVouchImpacts_spec (m : ReputationManager) (clock : Clock) :
    (m.updateVouchImpacts clock).getReputation = updatedScores m.vouches m.getReputation ∧
      SameRecords (m.updateVouchImpacts clock).vouches m.vouches :=
  foldl_updateVouchesFor m.vouches.entries (m, clock) (fun _ he => OrdMap.mem_entries.mp he) rfl

theorem updatedScores_congr {vouches vouches' : OrdMap NodeID (List VouchRecord)}
    (h : SameRecords vouches vouches') (scores : Scores) :
    updatedScores vouches scores = updatedScores vouches' scores := by
  have hforget : ∀ vouches : OrdMap NodeID (List VouchRecord),
      updatedScores vouches scores =
        updatedScores (vouches.mapValues fun _ => List.map forget) scores := by
    intro vouches
    show _ = (vouches.entries.map fun e => (e.1, e.2.map forget)).foldl receiveAll scores
    rw [List.foldl_map]
    simp only [receiveAll_forget]
    rfl
  have hsame : vouches.mapValues (fun _ => List.map forget) =
      vouches'.mapValues fun _ => List.map forget := h
  rw [hforget vouches, hsame, ← hforget vouches']

theorem getReputation_updateVouchImpacts (m : ReputationManager) (clock : Clock) :
    (m.updateVouchImpacts clock).getReputation = updatedScores m.vouches m.getReputation :=
  (updateVouchImpacts_spec m clock).1

/-- A second update is a fold over the records of the first. -/
theorem getReputation_updateVouchImpacts_twice (m : ReputationManager) (clock clock' : Clock) :
    ((m.updateVouchImpacts clock).updateVouchImpacts clock').getReputation =
      updatedScores m.vouches (updatedScores m.vouches m.getReputation) := by
  rw [getReputation_updateVouchImpacts, getReputation_updateVouchImpacts,
    updatedScores_congr (updateVouchImpacts_spec m clock).2]

/-! ## Limits of the scores -/

/-- Every score is between the floor and the ceiling. -/
def InRange (m : ReputationManager) : Prop :=
  ∀ node, reputationFloor ≤ m.getReputation node ∧ m.getReputation node ≤ reputationCeiling

theorem inRange_empty : InRange {} := by
  intro node
  show reputationFloor ≤ 0 ∧ 0 ≤ reputationCeiling
  decide

theorem InRange.of_scores {m' : ReputationManager} (h : InRange m)
    (hscores : m'.scores = m.scores) :
    InRange m' := by
  intro node
  unfold getReputation
  rw [hscores]
  exact h node

theorem InRange.applyScoreDelta (h : InRange m) (now : Time) (nodeId : NodeID) (delta : Int)
    (reason : Text) : InRange (m.applyScoreDelta now nodeId delta reason) := by
  intro node
  rw [getReputation_applyScoreDelta]
  by_cases hnode : node = nodeId
  · subst hnode
    rw [Function.update_self]
    exact clampReputation_mem _
  · rw [Function.update_of_ne hnode]
    exact h node

theorem InRange.createAttestation (h : InRange m) (a : Attestation) :
    InRange (m.createAttestation clock a).1 := by
  unfold ReputationManager.createAttestation
  split
  · exact h
  · split
    · exact h
    · exact (h.applyScoreDelta _ _ _ _).of_scores rfl

theorem scores_vouchForNode (m : ReputationManager) (clock : Clock) (state : StateManager)
    (voucher vouchee : NodeID) :
    (m.vouchForNode clock state voucher vouchee).1.scores = m.scores := by
  unfold vouchForNode
  split <;> rfl

theorem scores_revokeVouch (m : ReputationManager) (voucher vouchee : NodeID) :
    (m.revokeVouch voucher vouchee).1.scores = m.scores := by
  unfold revokeVouch
  split
  · rfl
  · dsimp only
    split <;> rfl

/-- What a record makes of scores within the limits is within them. -/
theorem receive_mem {scores : Scores} {voucher node : NodeID}
    (h : reputationFloor ≤ scores node ∧ scores node ≤ reputationCeiling) (record : VouchRecord) :
    reputationFloor ≤ receive voucher scores record node ∧
      receive voucher scores record node ≤ reputationCeiling := by
  by_cases hnode : node = voucher
  · subst hnode
    rw [receive_self]
    split
    · exact h
    · exact clampReputation_mem _
  · rwa [receive_of_ne hnode]

theorem InRange.updateVouchImpacts (h : InRange m) : InRange (m.updateVouchImpacts clock) := by
  intro node
  rw [getReputation_updateVouchImpacts]
  refine List.foldlRecOn (motive := fun s : Scores =>
    reputationFloor ≤ s node ∧ s node ≤ reputationCeiling) m.vouches.entries _ (h node) ?_
  intro scores hscores vouches _
  exact List.foldlRecOn (motive := fun s : Scores =>
    reputationFloor ≤ s node ∧ s node ≤ reputationCeiling) vouches.2 _ hscores
    fun scores hscores record _ => receive_mem hscores record

/-- The decay takes no score over the limits. -/
def DecayStays (decayScore : Int → Int) : Prop :=
  ∀ score, reputationFloor ≤ score ∧ score ≤ reputationCeiling →
    reputationFloor ≤ decayScore score ∧ decayScore score ≤ reputationCeiling

theorem InRange.decayReputation {decayScore : Int → Int} (hdecay : DecayStays decayScore)
    (h : InRange m) : InRange (m.decayReputation decayScore) := by
  intro node
  have hnode := h node
  unfold ReputationManager.decayReputation
  unfold getReputation at hnode ⊢
  dsimp only
  rw [OrdMap.find?_mapValues]
  cases hfind : m.scores.find? node with
  | none =>
    show reputationFloor ≤ 0 ∧ 0 ≤ reputationCeiling
    decide
  | some score =>
    rw [hfind] at hnode
    exact hdecay _ hnode

/-- No call takes a score over the limits. -/
theorem InRange.vouchingCall {H : Bytes → Hash256} {ed : Ed25519} {decayScore : Int → Int}
    (hdecay : DecayStays decayScore) (h : InRange m) (clock : Clock) (input : VouchingInput) :
    InRange (m.vouchingCall H ed decayScore clock input).1 := by
  cases input with
  -- an attestation follows the vouch and clamps what it adds
  | requestVouch state voucherIdentity vouchee reason =>
    show InRange (VouchingWorkflow.requestVouch H ed m clock state voucherIdentity vouchee reason).1
    unfold VouchingWorkflow.requestVouch
    have hvouched := h.of_scores (scores_vouchForNode m (clock.after 1) state
      (voucherIdentity.id H) vouchee)
    split
    · exact h
    · dsimp only
      split
      · exact hvouched
      · exact hvouched.createAttestation _
  | acceptVouch voucheeIdentity voucher =>
    show InRange (VouchingWorkflow.acceptVouch H ed m clock voucheeIdentity voucher).1
    unfold VouchingWorkflow.acceptVouch
    split
    · exact h
    · exact h.createAttestation _
  | withdrawVouch voucher vouchee reason =>
    show InRange (VouchingWorkflow.revokeVouch m clock voucher vouchee reason).1
    have hrevoked := h.of_scores (scores_revokeVouch m voucher vouchee)
    unfold VouchingWorkflow.revokeVouch
    split
    · exact h
    · dsimp only
      split
      · exact hrevoked
      · exact hrevoked.applyScoreDelta _ _ _ _
  -- the manager's own calls
  | manager input =>
    cases input with
    | createAttestation a => exact h.createAttestation a
    | vouchForNode state voucher vouchee =>
      exact h.of_scores (scores_vouchForNode m clock state voucher vouchee)
    | revokeVouch voucher vouchee => exact h.of_scores (scores_revokeVouch m voucher vouchee)
  | applyScoreDelta nodeId delta reason => exact h.applyScoreDelta _ _ _ _
  | updateVouchImpacts => exact h.updateVouchImpacts
  | decayReputation => exact h.decayReputation hdecay
  | rebuildTrustGraph => exact h.of_scores rfl
  | cleanupExpiredAttestations => exact h.of_scores rfl

end ReputationManager

end Cashew

import Cashew.Logic.VouchImpacts
import Cashew.Theorems.StateRelations

/-!
# How often the impact of a vouch is applied

The impact of a record is a difference from the score its vouchee had when the vouch was
made, and every update adds the whole of it again. `changesOnce_iff` says in which states a
second update changes nothing more, and `abs_totalChange_le` that a record's part in its
voucher's score stays within 50 points in the runs in which it has an impact at no more than
one update.
-/

namespace Cashew.Theorems.VouchImpacts

open Cashew Cashew.Lib ReputationManager

variable {H : Bytes → Hash256} {ed : Ed25519} {decayScore : Int → Int} {m : ReputationManager}

/-! ## Clamped sums -/

/-- The score that the impacts lead to, one after the other. -/
def leadTo (impacts : List Int) (score : Int) : Int :=
  impacts.foldl (fun score impact => clampReputation (score + impact)) score

/-- The impacts sum up to zero, or have led the score as high or as low as they can. -/
def Spent (impacts : List Int) (score : Int) : Prop :=
  impacts.sum = 0 ∨
    0 < impacts.sum ∧ leadTo impacts score = leadTo impacts (reputationCeiling + 50) ∨
    impacts.sum < 0 ∧ leadTo impacts score = leadTo impacts (reputationFloor - 50)

theorem leadTo_concat (impacts : List Int) (impact score : Int) :
    leadTo (impacts ++ [impact]) score = clampReputation (leadTo impacts score + impact) := by
  unfold leadTo
  rw [List.foldl_append]
  rfl

theorem clampReputation_eq (score : Int) :
    clampReputation score = max reputationFloor (min reputationCeiling score) := by
  unfold clampReputation reputationFloor reputationCeiling
  dsimp only
  split <;> split <;> omega

/-- The impacts together add their sum and keep the score between the lowest and the highest
that they can lead to. The induction adds impacts at the end. -/
theorem leadTo_eq (impacts : List Int) (hne : impacts ≠ []) (hsmall : ∀ d ∈ impacts, |d| ≤ 50) :
    leadTo impacts (reputationFloor - 50) ≤ leadTo impacts (reputationCeiling + 50) ∧
      ∀ score, leadTo impacts score =
        max (leadTo impacts (reputationFloor - 50))
          (min (leadTo impacts (reputationCeiling + 50)) (score + impacts.sum)) := by
  induction impacts using List.reverseRecOn with
  | nil => exact absurd rfl hne
  | append_singleton impacts impact ih =>
    have himpact := abs_le.mp (hsmall impact (List.mem_append_right _ (List.mem_singleton_self _)))
    simp only [leadTo_concat, clampReputation_eq, List.sum_append, List.sum_singleton]
    have hlimits : reputationFloor = -1000 ∧ reputationCeiling = 10000 := ⟨rfl, rfl⟩
    by_cases hempty : impacts = []
    · subst hempty
      refine ⟨?_, fun score => ?_⟩ <;> simp only [leadTo, List.foldl_nil, List.sum_nil] <;> omega
    · obtain ⟨hle, heq⟩ := ih hempty fun d hd => hsmall d (List.mem_append_left _ hd)
      refine ⟨by omega, fun score => ?_⟩
      rw [heq score]
      omega

/-- To apply the impacts again changes nothing just when they are spent. -/
theorem leadTo_again_iff (impacts : List Int) (hsmall : ∀ d ∈ impacts, |d| ≤ 50) (score : Int) :
    leadTo impacts (leadTo impacts score) = leadTo impacts score ↔ Spent impacts score := by
  unfold Spent
  by_cases hempty : impacts = []
  · subst hempty
    exact iff_of_true rfl (.inl rfl)
  · obtain ⟨hle, heq⟩ := leadTo_eq impacts hempty hsmall
    have honce := heq score
    have hagain := heq (leadTo impacts score)
    omega

/-! ## Two updates -/

/-- Somebody's active record is a vouch for the node. -/
def IsVouchee (m : ReputationManager) (node : NodeID) : Prop :=
  ∃ e ∈ m.storedVouches, e.2.stillActive = true ∧ e.2.vouchee = node

/-- The node's own records change its score. -/
def Moves (m : ReputationManager) (node : NodeID) : Prop :=
  receiveAll m.getReputation (node, recordsOf m node) node ≠ m.getReputation node

/-- The impacts that a voucher's records have at the current scores. -/
def impactsOn (m : ReputationManager) (voucher : NodeID) : List Int :=
  ((recordsOf m voucher).map (impactAt m.getReputation)).filter (· ≠ 0)

/-- A second update changes no score, unless the first has changed a vouchee's. -/
def ChangesOnce (m : ReputationManager) (clock clock' : Clock) : Prop :=
  (∃ node, IsVouchee m node ∧
    (m.updateVouchImpacts clock).getReputation node ≠ m.getReputation node) ∨
  ∀ node, ((m.updateVouchImpacts clock).updateVouchImpacts clock').getReputation node =
    (m.updateVouchImpacts clock).getReputation node

/-- Some vouchee's own records change its score, or the impacts on all other nodes are
spent. -/
def SpentOrMoved (m : ReputationManager) : Prop :=
  (∃ node, IsVouchee m node ∧ Moves m node) ∨
  ∀ voucher, ¬ IsVouchee m voucher → Spent (impactsOn m voucher) (m.getReputation voucher)

section Entries

variable {entries : List (NodeID × List VouchRecord)} {scores : Scores} {fixed : NodeID → Prop}

theorem foldl_receiveAll_of_notMem {node : NodeID} (h : node ∉ entries.map Prod.fst)
    (scores : Scores) : entries.foldl receiveAll scores node = scores node := by
  refine List.foldlRecOn (motive := fun s : Scores => s node = scores node) entries _ rfl ?_
  intro s hs e he
  have hne : node ≠ e.1 := fun heq => h (heq ▸ List.mem_map_of_mem he)
  rw [receiveAll_of_ne hne, hs]

/-- The other vouchers see the same vouchees after a voucher whose own score they do not
read, or whose score stays. -/
theorem receiveAll_receiveAll {e f : NodeID × List VouchRecord} (hne : f.1 ≠ e.1)
    (hvouchees : ∀ record ∈ f.2, record.stillActive = true → fixed record.vouchee)
    (hstays : fixed e.1 → receiveAll scores e e.1 = scores e.1) :
    receiveAll (receiveAll scores e) f f.1 = receiveAll scores f f.1 := by
  refine receiveAll_congr (receiveAll_of_ne hne scores e.2) fun record hrecord hactive => ?_
  by_cases hvouchee : record.vouchee = e.1
  · rw [hvouchee]
    exact hstays (hvouchee ▸ hvouchees record hrecord hactive)
  · exact receiveAll_of_ne hvouchee scores e.2

/-- When no vouchee's own records move it, every voucher gets what its records make of the
scores before the update. -/
theorem foldl_receiveAll_of_fixed (hkeys : (entries.map Prod.fst).Nodup)
    (hvouchees : ∀ e ∈ entries, ∀ record ∈ e.2, record.stillActive = true → fixed record.vouchee)
    (hstay : ∀ e ∈ entries, fixed e.1 → receiveAll scores e e.1 = scores e.1) :
    ∀ e ∈ entries, entries.foldl receiveAll scores e.1 = receiveAll scores e e.1 := by
  induction entries generalizing scores with
  | nil => exact fun _ h => nomatch h
  | cons f rest ih =>
    obtain ⟨hfirst, hrest⟩ := List.nodup_cons.mp hkeys
    have hsame : ∀ e ∈ rest, receiveAll (receiveAll scores f) e e.1 = receiveAll scores e e.1 := by
      intro e he
      have hne : e.1 ≠ f.1 := fun heq => hfirst (heq ▸ List.mem_map_of_mem he)
      exact receiveAll_receiveAll hne (hvouchees e (List.mem_cons_of_mem f he))
        (hstay f List.mem_cons_self)
    intro e he
    rw [List.foldl_cons]
    rcases List.mem_cons.mp he with rfl | he
    · exact foldl_receiveAll_of_notMem hfirst _
    · refine (ih hrest (fun e he => hvouchees e (List.mem_cons_of_mem f he)) ?_ e he).trans
        (hsame e he)
      intro e he hfixed
      have hne : e.1 ≠ f.1 := fun heq => hfirst (heq ▸ List.mem_map_of_mem he)
      rw [hsame e he, receiveAll_of_ne hne]
      exact hstay e (List.mem_cons_of_mem f he) hfixed

/-- When an update leaves all vouchees alone, no vouchee's own records move it. -/
theorem receiveAll_of_foldl_fixed (hkeys : (entries.map Prod.fst).Nodup)
    (hvouchees : ∀ e ∈ entries, ∀ record ∈ e.2, record.stillActive = true → fixed record.vouchee)
    (hstay : ∀ node, fixed node → entries.foldl receiveAll scores node = scores node) :
    ∀ e ∈ entries, fixed e.1 → receiveAll scores e e.1 = scores e.1 := by
  induction entries generalizing scores with
  | nil => exact fun _ h => nomatch h
  | cons f rest ih =>
    obtain ⟨hfirst, hrest⟩ := List.nodup_cons.mp hkeys
    -- behind its entry nobody adds to the first voucher's score
    have hnow : fixed f.1 → receiveAll scores f f.1 = scores f.1 := by
      intro hfixed
      rw [← hstay f.1 hfixed, List.foldl_cons, foldl_receiveAll_of_notMem hfirst]
    intro e he hfixed
    rcases List.mem_cons.mp he with rfl | he
    · exact hnow hfixed
    · have hne : e.1 ≠ f.1 := fun heq => hfirst (heq ▸ List.mem_map_of_mem he)
      -- entries of different vouchers commute, as long as the vouchees stay
      have hlater := @ih (receiveAll scores f) hrest
        (fun e he => hvouchees e (List.mem_cons_of_mem f he)) ?_ e he hfixed
      · rw [receiveAll_receiveAll hne (hvouchees e (List.mem_cons_of_mem f he)) hnow,
          receiveAll_of_ne hne] at hlater
        exact hlater
      · intro node hnode
        have hfinal := hstay node hnode
        rw [List.foldl_cons] at hfinal
        rw [hfinal]
        by_cases heq : node = f.1
        · rw [heq, hnow (heq ▸ hnode)]
        · rw [receiveAll_of_ne heq]

end Entries

/-- The records of a voucher that does not vouch for itself lead its score where their
impacts do. -/
theorem receiveAll_eq_leadTo {voucher : NodeID} {records : List VouchRecord}
    {scores base : Scores}
    (hvouchees : ∀ record ∈ records, record.stillActive = true →
      record.vouchee ≠ voucher ∧ scores record.vouchee = base record.vouchee) :
    receiveAll scores (voucher, records) voucher =
      leadTo ((records.map (impactAt base)).filter (· ≠ 0)) (scores voucher) := by
  unfold receiveAll
  induction records generalizing scores with
  | nil => rfl
  | cons record rest ih =>
    have himpact : impactAt scores record = impactAt base record :=
      impactAt_congr fun hactive => (hvouchees record List.mem_cons_self hactive).2
    have hrest := @ih (receive voucher scores record) fun other hother hactive => by
      obtain ⟨hne, hsame⟩ := hvouchees other (List.mem_cons_of_mem record hother) hactive
      exact ⟨hne, (receive_of_ne hne scores record).trans hsame⟩
    rw [List.foldl_cons, hrest, receive_self, himpact, List.map_cons]
    by_cases hzero : impactAt base record = 0
    · rw [if_pos hzero, List.filter_cons_of_neg (by simpa using hzero)]
    · rw [if_neg hzero, List.filter_cons_of_pos (by simpa using hzero)]
      rfl

theorem isVouchee_of_mem {voucher : NodeID} {record : VouchRecord}
    (h : record ∈ recordsOf m voucher) (hactive : record.stillActive = true) :
    IsVouchee m record.vouchee := by
  unfold recordsOf at h
  cases hfind : m.vouches.find? voucher with
  | none =>
    rw [hfind] at h
    cases h
  | some records =>
    rw [hfind] at h
    refine ⟨(voucher, record), List.mem_flatMap.mpr ⟨(voucher, records), ?_, ?_⟩, hactive, rfl⟩
    · exact OrdMap.mem_entries.mpr hfind
    · exact List.mem_map_of_mem h

/-- A node with records is in the map with them; one without has none. -/
theorem recordsOf_cases (m : ReputationManager) (voucher : NodeID) :
    (voucher, recordsOf m voucher) ∈ m.vouches.entries ∨
      voucher ∉ m.vouches.entries.map Prod.fst ∧ recordsOf m voucher = [] := by
  unfold recordsOf
  cases hfind : m.vouches.find? voucher with
  | none =>
    refine .inr ⟨fun hmem => ?_, rfl⟩
    obtain ⟨e, he, rfl⟩ := List.mem_map.mp hmem
    rw [OrdMap.mem_entries.mp he] at hfind
    cases hfind
  | some records => exact .inl (OrdMap.mem_entries.mpr hfind)

theorem recordsOf_of_mem {e : NodeID × List VouchRecord} (h : e ∈ m.vouches.entries) :
    recordsOf m e.1 = e.2 := by
  unfold recordsOf
  rw [OrdMap.mem_entries.mp h]
  rfl

theorem isVouchee_of_mem_entries {e : NodeID × List VouchRecord} (h : e ∈ m.vouches.entries) :
    ∀ record ∈ e.2, record.stillActive = true → IsVouchee m record.vouchee := by
  rw [← recordsOf_of_mem h]
  exact fun record hrecord => isVouchee_of_mem hrecord

/-- Vouchees keep their scores just when their own records move none of them. -/
theorem vouchees_stay_iff :
    (∀ node, IsVouchee m node →
      updatedScores m.vouches m.getReputation node = m.getReputation node) ↔
      ∀ node, IsVouchee m node → ¬ Moves m node := by
  unfold Moves
  simp only [not_not]
  constructor
  · intro hstay node hnode
    rcases recordsOf_cases m node with hmem | ⟨-, hnone⟩
    · exact receiveAll_of_foldl_fixed m.vouches.keys_nodup
        (fun e he => isVouchee_of_mem_entries he) hstay _ hmem hnode
    · rw [hnone]
      rfl
  · intro hstay node hnode
    rcases recordsOf_cases m node with hmem | ⟨hnot, -⟩
    · refine (foldl_receiveAll_of_fixed m.vouches.keys_nodup
        (fun e he => isVouchee_of_mem_entries he) ?_ _ hmem).trans (hstay node hnode)
      intro e he hfixed
      rw [← hstay e.1 hfixed, recordsOf_of_mem he]
    · exact foldl_receiveAll_of_notMem hnot _

/-- While the vouchees keep their scores, an update gives every node what its records make of
the scores before it. -/
theorem updatedScores_of_stay {scores : Scores}
    (hstay : ∀ node, IsVouchee m node →
      receiveAll scores (node, recordsOf m node) node = scores node)
    (node : NodeID) :
    updatedScores m.vouches scores node = receiveAll scores (node, recordsOf m node) node := by
  rcases recordsOf_cases m node with hmem | ⟨hnot, hnone⟩
  · refine foldl_receiveAll_of_fixed m.vouches.keys_nodup
      (fun e he => isVouchee_of_mem_entries he) (fun e he hfixed => ?_) _ hmem
    have h := hstay e.1 hfixed
    rwa [recordsOf_of_mem he] at h
  · rw [hnone]
    exact foldl_receiveAll_of_notMem hnot _

/-- The records of a node that nobody vouches for lead its score where their impacts do, at
all scores that leave the vouchees alone. -/
theorem receiveAll_eq_impactsOn {scores : Scores}
    (hkept : ∀ node, IsVouchee m node → scores node = m.getReputation node) {voucher : NodeID}
    (hvouchee : ¬ IsVouchee m voucher) :
    receiveAll scores (voucher, recordsOf m voucher) voucher =
      leadTo (impactsOn m voucher) (scores voucher) := by
  refine receiveAll_eq_leadTo fun record hrecord hactive => ?_
  have hnode := isVouchee_of_mem hrecord hactive
  exact ⟨fun heq => hvouchee (heq ▸ hnode), hkept _ hnode⟩

theorem abs_le_of_mem_impactsOn {voucher : NodeID} : ∀ d ∈ impactsOn m voucher, |d| ≤ 50 := by
  intro d hd
  obtain ⟨record, -, rfl⟩ := List.mem_map.mp (List.mem_of_mem_filter hd)
  exact abs_impactAt_le _ record

/-- A second update changes nothing more just when a vouchee's records move it or the
impacts on the others are spent. -/
theorem changesOnce_iff (m : ReputationManager) (clock clock' : Clock) :
    ChangesOnce m clock clock' ↔ SpentOrMoved m := by
  unfold ChangesOnce SpentOrMoved
  rw [getReputation_updateVouchImpacts_twice, getReputation_updateVouchImpacts]
  by_cases hmoves : ∃ node, IsVouchee m node ∧ Moves m node
  · refine iff_of_true (.inl ?_) (.inl hmoves)
    by_contra hstay
    have hnone := vouchees_stay_iff.mp fun node hnode => by
      by_contra hne
      exact hstay ⟨node, hnode, hne⟩
    obtain ⟨node, hnode, hmove⟩ := hmoves
    exact hnone node hnode hmove
  · have hkept := vouchees_stay_iff.mpr fun node hnode hmove => hmoves ⟨node, hnode, hmove⟩
    have hmoved : ¬ ∃ node, IsVouchee m node ∧
        updatedScores m.vouches m.getReputation node ≠ m.getReputation node :=
      fun ⟨node, hnode, hne⟩ => hne (hkept node hnode)
    rw [or_iff_right hmoves, or_iff_right hmoved]
    have hstay : ∀ node, IsVouchee m node →
        receiveAll m.getReputation (node, recordsOf m node) node = m.getReputation node := by
      intro node hnode
      by_contra hmove
      exact hmoves ⟨node, hnode, hmove⟩
    -- the vouchees are the same in the second update, so it does the same to them
    have hagain : ∀ node, IsVouchee m node →
        receiveAll (updatedScores m.vouches m.getReputation) (node, recordsOf m node) node =
          updatedScores m.vouches m.getReputation node := by
      intro node hnode
      rw [receiveAll_congr (hkept node hnode) fun record hrecord hactive =>
        hkept _ (isVouchee_of_mem hrecord hactive), hstay node hnode, hkept node hnode]
    refine forall_congr' fun voucher => ?_
    rw [updatedScores_of_stay hagain]
    by_cases hvouchee : IsVouchee m voucher
    · exact iff_of_true (hagain voucher hvouchee) fun h => absurd hvouchee h
    · rw [forall_prop_of_true hvouchee, receiveAll_eq_impactsOn hkept hvouchee,
        updatedScores_of_stay hstay, receiveAll_eq_impactsOn (fun _ _ => rfl) hvouchee]
      exact leadTo_again_iff _ abs_le_of_mem_impactsOn _

/-! ## One record over a run -/

/-- The scores when an update comes to a record: a voucher's records are only added to, so
its place among them names it. -/
def scoresBefore (m : ReputationManager) (voucher : NodeID) (index : Nat) : Scores :=
  ((recordsOf m voucher).take index).foldl (receive voucher)
    ((m.vouches.entries.takeWhile fun e => e.1 < voucher).foldl receiveAll m.getReputation)

/-- The impact a record has in an update. -/
def impactOf (m : ReputationManager) (voucher : NodeID) (index : Nat) : Int :=
  ((recordsOf m voucher)[index]?).elim 0 (impactAt (scoresBefore m voucher index))

/-- What a record changes of its voucher's score in an update. -/
def changeOf (m : ReputationManager) (voucher : NodeID) (index : Nat) : Int :=
  ((recordsOf m voucher)[index]?).elim 0 fun record =>
    receive voucher (scoresBefore m voucher index) record voucher -
      scoresBefore m voucher index voucher

/-- The vouchers before one, and that one, in the order of the map. -/
theorem entries_eq_takeWhile {e : NodeID × List VouchRecord} (h : e ∈ m.vouches.entries) :
    ∃ later, m.vouches.entries = (m.vouches.entries.takeWhile fun f => f.1 < e.1) ++ e :: later ∧
      e.1 ∉ later.map Prod.fst := by
  obtain ⟨front, later, hsplit⟩ := List.append_of_mem h
  have hsorted := m.vouches.sorted
  rw [hsplit] at hsorted
  obtain ⟨-, hback, hcross⟩ := List.pairwise_append.mp hsorted
  have hfront : (m.vouches.entries.takeWhile fun f => f.1 < e.1) = front := by
    rw [hsplit, List.takeWhile_append_of_pos
      fun f hf => decide_eq_true (hcross f hf e List.mem_cons_self)]
    simp
  refine ⟨later, hfront.symm ▸ hsplit, fun hmem => ?_⟩
  obtain ⟨f, hf, heq⟩ := List.mem_map.mp hmem
  exact ((List.pairwise_cons.mp hback).1 f hf).ne heq.symm

theorem notMem_takeWhile (m : ReputationManager) (voucher : NodeID) :
    voucher ∉ (m.vouches.entries.takeWhile fun e => e.1 < voucher).map Prod.fst := by
  intro hmem
  obtain ⟨e, he, rfl⟩ := List.mem_map.mp hmem
  have hless := List.mem_takeWhile_imp he
  exact lt_irrefl _ (of_decide_eq_true hless)

theorem scoresBefore_succ (m : ReputationManager) (voucher : NodeID) (index : Nat) :
    scoresBefore m voucher (index + 1) voucher =
      scoresBefore m voucher index voucher + changeOf m voucher index := by
  unfold changeOf scoresBefore
  rw [List.take_add_one, List.foldl_append]
  cases (recordsOf m voucher)[index]? with
  | none => exact (add_zero _).symm
  | some record => exact (add_sub_cancel _ _).symm

theorem scoresBefore_eq_sum (m : ReputationManager) (voucher : NodeID) (index : Nat) :
    scoresBefore m voucher index voucher =
      m.getReputation voucher + ((List.range index).map (changeOf m voucher)).sum := by
  induction index with
  | zero =>
    rw [List.range_zero, List.map_nil, List.sum_nil, add_zero]
    exact foldl_receiveAll_of_notMem (notMem_takeWhile m voucher) _
  | succ index ih =>
    rw [scoresBefore_succ, ih, List.range_succ, List.map_append, List.sum_append,
      List.map_singleton,
      List.sum_singleton, add_assoc]

/-- The changes of all its records are what an update changes of a voucher's score. -/
theorem getReputation_update_eq_sum (m : ReputationManager) (clock : Clock) (voucher : NodeID) :
    (m.updateVouchImpacts clock).getReputation voucher =
      m.getReputation voucher +
        ((List.range (recordsOf m voucher).length).map (changeOf m voucher)).sum := by
  rw [getReputation_updateVouchImpacts, ← scoresBefore_eq_sum]
  unfold scoresBefore updatedScores
  rw [List.take_length]
  rcases recordsOf_cases m voucher with hmem | ⟨hnot, hnone⟩
  · obtain ⟨later, hsplit, hlater⟩ := entries_eq_takeWhile hmem
    rw [hsplit, List.foldl_append, List.foldl_cons, foldl_receiveAll_of_notMem hlater,
      ← hsplit]
    rfl
  · rw [hnone, foldl_receiveAll_of_notMem hnot]
    exact (foldl_receiveAll_of_notMem (notMem_takeWhile m voucher) _).symm

theorem changeOf_eq_zero {voucher : NodeID} {index : Nat} (h : impactOf m voucher index = 0) :
    changeOf m voucher index = 0 := by
  unfold impactOf at h
  unfold changeOf
  cases hrecord : (recordsOf m voucher)[index]? with
  | none => rfl
  | some record =>
    rw [hrecord, Option.elim_some] at h
    rw [Option.elim_some, receive_self, if_pos h, sub_self]

theorem abs_changeOf_le (hrange : InRange m) (voucher : NodeID) (index : Nat) :
    |changeOf m voucher index| ≤ 50 := by
  have hbefore : reputationFloor ≤ scoresBefore m voucher index voucher ∧
      scoresBefore m voucher index voucher ≤ reputationCeiling := by
    unfold scoresBefore
    refine List.foldlRecOn (motive := fun s : Scores =>
      reputationFloor ≤ s voucher ∧ s voucher ≤ reputationCeiling) _ _ ?_
      fun scores hscores record _ => receive_mem hscores record
    rw [foldl_receiveAll_of_notMem (notMem_takeWhile m voucher)]
    exact hrange voucher
  unfold changeOf
  cases (recordsOf m voucher)[index]? with
  | none => norm_num
  | some record =>
    have himpact := abs_le.mp (abs_impactAt_le (scoresBefore m voucher index) record)
    rw [Option.elim_some, receive_self, abs_le, clampReputation_eq]
    split <;> omega

/-- What a record changes of its voucher's score in a call. -/
def changeIn (m : ReputationManager) (voucher : NodeID) (index : Nat) : VouchingInput → Int
  | .updateVouchImpacts => changeOf m voucher index
  | _ => 0

/-- What it changes of that score over a run. -/
def totalChange (H : Bytes → Hash256) (ed : Ed25519) (decayScore : Int → Int) (voucher : NodeID)
    (index : Nat) : ReputationManager → List (Clock × VouchingInput) → Int
  | _, [] => 0
  | m, input :: rest =>
    changeIn m voucher index input.2 +
      totalChange H ed decayScore voucher index
        ((vouchingMachine H ed decayScore).step m input).1 rest

/-- An update in which a record has an impact comes after none in which it had one. -/
def FirstImpact (H : Bytes → Hash256) (ed : Ed25519) (decayScore : Int → Int)
    (past : List (Clock × VouchingInput)) (m : ReputationManager) (input : Clock × VouchingInput) :
    Prop :=
  input.2 = .updateVouchImpacts → ∀ voucher index, impactOf m voucher index ≠ 0 →
    ∀ front clock back, past = front ++ (clock, .updateVouchImpacts) :: back →
      impactOf ((vouchingMachine H ed decayScore).run {} front).1 voucher index = 0

theorem totalChange_append (voucher : NodeID) (index : Nat)
    (front back : List (Clock × VouchingInput)) :
    totalChange H ed decayScore voucher index m (front ++ back) =
      totalChange H ed decayScore voucher index m front +
        totalChange H ed decayScore voucher index
          ((vouchingMachine H ed decayScore).run m front).1 back := by
  induction front generalizing m with
  | nil => exact (zero_add _).symm
  | cons input rest ih =>
    rw [List.cons_append, totalChange, totalChange, ih, add_assoc]
    rfl

/-- A record without an impact in any update of a run has changed nothing. -/
theorem totalChange_eq_zero {voucher : NodeID} {index : Nat}
    {inputs : List (Clock × VouchingInput)}
    (h : ∀ front clock back, inputs = front ++ (clock, .updateVouchImpacts) :: back →
      impactOf ((vouchingMachine H ed decayScore).run {} front).1 voucher index = 0) :
    totalChange H ed decayScore voucher index {} inputs = 0 := by
  induction inputs using List.reverseRecOn with
  | nil => rfl
  | append_singleton past input ih =>
    rw [totalChange_append, ih fun front clock back hsplit =>
      h front clock (back ++ [input]) (by rw [hsplit, List.append_assoc]; rfl), zero_add]
    obtain ⟨clock, call⟩ := input
    refine (add_zero _).trans ?_
    cases call with
    | updateVouchImpacts => exact changeOf_eq_zero (h past clock [] rfl)
    | requestVouch | acceptVouch | withdrawVouch | manager | applyScoreDelta | decayReputation
    | rebuildTrustGraph | cleanupExpiredAttestations => rfl

/-- When a record has an impact at no more than one update, its part stays within 50. The
induction adds calls at the end: one with an impact finds that nothing was changed before. -/
theorem abs_totalChange_le (hdecay : DecayStays decayScore)
    (inputs : List (Clock × VouchingInput))
    (honce : (vouchingMachine H ed decayScore).EachStep (FirstImpact H ed decayScore) {} inputs)
    (voucher : NodeID) (index : Nat) :
    |totalChange H ed decayScore voucher index {} inputs| ≤ 50 := by
  induction inputs using List.reverseRecOn with
  | nil => norm_num [totalChange]
  | append_singleton past input ih =>
    have hpast := ih fun front i back hsplit =>
      honce front i (back ++ [input]) (by rw [hsplit, List.append_assoc]; rfl)
    have hnow := honce past input [] rfl
    obtain ⟨clock, call⟩ := input
    rw [totalChange_append]
    show |_ + (changeIn _ _ _ call + 0)| ≤ 50
    rw [add_zero]
    cases call with
    -- an update adds the record's impact, which is zero or its first
    | updateVouchImpacts =>
      by_cases himpact :
          impactOf ((vouchingMachine H ed decayScore).run {} past).1 voucher index = 0
      · rw [changeIn, changeOf_eq_zero himpact, add_zero]
        exact hpast
      · rw [totalChange_eq_zero (hnow rfl voucher index himpact), zero_add]
        have hrange : InRange ((vouchingMachine H ed decayScore).run {} past).1 :=
          (vouchingMachine H ed decayScore).run_invariant (P := InRange)
            (fun m input h => h.vouchingCall hdecay input.1 input.2) inRange_empty past
        exact abs_changeOf_le hrange voucher index
    -- no other call adds an impact
    | requestVouch | acceptVouch | withdrawVouch | manager | applyScoreDelta | decayReputation
    | rebuildTrustGraph | cleanupExpiredAttestations =>
      show |totalChange H ed decayScore voucher index {} past + 0| ≤ 50
      rwa [add_zero]

/-! ## Once and again -/

/-- **Vouch impacts.** In every state a second update changes no score that the first has not
made it change, just when a vouchee's own records move it or the impacts on the others are
spent. And over every run in which a record has an impact at no more than one update, what
it changes of its voucher's score stays within 50. -/
theorem impacts_applied_once (H : Bytes → Hash256) (ed : Ed25519) (decayScore : Int → Int)
    (hdecay : DecayStays decayScore) :
    (∀ m clock clock', ChangesOnce m clock clock' ↔ SpentOrMoved m) ∧
    ∀ inputs, (vouchingMachine H ed decayScore).EachStep (FirstImpact H ed decayScore) {} inputs →
      ∀ voucher index, |totalChange H ed decayScore voucher index {} inputs| ≤ 50 :=
  ⟨changesOnce_iff, abs_totalChange_le hdecay⟩

/-- A decay by a hundredth, toward zero. -/
def sampleDecay (score : Int) : Int := (score * 99).tdiv 100

theorem sampleDecay_stays : DecayStays sampleDecay := by
  intro score hscore
  unfold sampleDecay reputationFloor reputationCeiling at *
  have hsign : Int.sign 100 = 1 := rfl
  rw [Int.tdiv_eq_ediv, hsign]
  split <;> omega

/-- Whether a call is an update. -/
def isUpdate : VouchingInput → Bool
  | .updateVouchImpacts => true
  | _ => false

/-- A run with one update has no second impact. -/
theorem firstImpact_of_countP {inputs : List (Clock × VouchingInput)}
    (h : inputs.countP (fun input => isUpdate input.2) ≤ 1) :
    (vouchingMachine H ed decayScore).EachStep (FirstImpact H ed decayScore) {} inputs := by
  rintro front input back rfl hupdate voucher index - before clock after rfl
  simp only [List.countP_append, List.countP_cons, hupdate, isUpdate, if_true] at h
  omega

/-- Node 2 vouches for node 1, which then earns 100 points. -/
def vouched : List (Clock × VouchingInput) :=
  let clock := Clock.still sampleTime
  let attestation (subject : NodeID) : Attestation :=
    { attester := sampleNode 3, subject, scoreDelta := 100, statement := Text.ofString "seen",
      timestamp := 1200, expiresAt := 4800, signature := ⟨leBytes 64 7, leBytes_length 64 7⟩ }
  let state := (stateMachine.run {} [StateRelations.sampleEvent .nodeJoined []]).1
  [(clock, .manager (.createAttestation (attestation (sampleNode 2)))),
    (clock, .manager (.vouchForNode state (sampleNode 2) (sampleNode 1))),
    (clock, .manager (.createAttestation (attestation (sampleNode 1))))]

/-- An update. -/
def update : Clock × VouchingInput := (Clock.still sampleTime, .updateVouchImpacts)

/-- One update gives the voucher 50 points for it. -/
theorem one_update_limited :
    (vouchingMachine sampleHash sampleEd25519 sampleDecay).EachStep
      (FirstImpact sampleHash sampleEd25519 sampleDecay) {} (vouched ++ [update]) ∧
    |totalChange sampleHash sampleEd25519 sampleDecay (sampleNode 2) 0 {} (vouched ++ [update])| ≤
      50 := by
  have honce : (vouchingMachine sampleHash sampleEd25519 sampleDecay).EachStep
      (FirstImpact sampleHash sampleEd25519 sampleDecay) {} (vouched ++ [update]) :=
    firstImpact_of_countP (by decide)
  exact ⟨honce, (impacts_applied_once sampleHash sampleEd25519 sampleDecay sampleDecay_stays).2 _
    honce _ _⟩

/-- Two updates give it 50 points each, and the second changes its score while the first has
left the vouchee's alone. -/
theorem second_update_adds :
    (¬ ∀ m clock clock', ChangesOnce m clock clock') ∧
    ¬ ∀ inputs voucher index,
      |totalChange sampleHash sampleEd25519 sampleDecay voucher index {} inputs| ≤ 50 := by
  constructor
  · intro h
    have honce := h ((vouchingMachine sampleHash sampleEd25519 sampleDecay).run {} vouched).1
      update.1 update.1
    have hvouchees : ∀ e ∈ ((vouchingMachine sampleHash sampleEd25519 sampleDecay).run {}
        vouched).1.storedVouches,
        (((vouchingMachine sampleHash sampleEd25519 sampleDecay).run {}
          vouched).1.updateVouchImpacts update.1).getReputation e.2.vouchee =
        ((vouchingMachine sampleHash sampleEd25519 sampleDecay).run {}
          vouched).1.getReputation e.2.vouchee := by
      decide +kernel
    -- the first update moves the voucher alone, and the second moves it again
    rcases honce with ⟨node, ⟨e, he, -, rfl⟩, hne⟩ | hsame
    · exact hne (hvouchees e he)
    · refine absurd (hsame (sampleNode 2)) ?_
      decide +kernel
  · intro h
    have htotal : totalChange sampleHash sampleEd25519 sampleDecay (sampleNode 2) 0 {}
        (vouched ++ [update, update]) = 100 := by
      decide +kernel
    have hle := h (vouched ++ [update, update]) (sampleNode 2) 0
    rw [htotal] at hle
    norm_num at hle

end Cashew.Theorems.VouchImpacts

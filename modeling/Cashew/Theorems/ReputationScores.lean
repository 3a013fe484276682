import Cashew.Reputation.Scores

/-!
# What becomes of a score

Whatever is recorded of a node, its total stays in its range, each part has one sign and no
more than its actions brought, and the last hundred events are there (`scores_hold`).

The decay takes a hundredth of a total, rounded up (`natAbs_decayScore`), although it works
with a `float`. So it ends: nothing is left of any score after 517 epochs in which nothing is
recorded (`idle_scores_vanish`).
-/

namespace Cashew.Theorems.ReputationScores

open Cashew Cashew.Lib Rounding

/-! ## One decay -/

/-- A number without its hundredth, which is rounded up. -/
def lessHundredth (n : ℕ) : ℕ := n - (n + 99) / 100

theorem floor_decay {n : ℕ} (hn : n ≤ 10000) :
    ⌊float (float n * reputationDecayRate)⌋₊ = lessHundredth n := by
  obtain ⟨hundredth, hdef⟩ : ∃ h, (n + 99) / 100 = h := ⟨_, rfl⟩
  have hle : hundredth ≤ n := by omega
  have hover : n ≤ 100 * hundredth := by omega
  have hunder : 100 * hundredth ≤ n + 99 := by omega
  have hkept : lessHundredth n + hundredth = n := by
    rw [lessHundredth, hdef]
    omega
  obtain ⟨kept, hkeptDef⟩ : ∃ k, lessHundredth n = k := ⟨_, rfl⟩
  rw [hkeptDef] at hkept ⊢
  have hsum : (kept : ℚ) + hundredth = n := by exact_mod_cast hkept
  have hoverQ : (n : ℚ) ≤ 100 * hundredth := by exact_mod_cast hover
  have hunderQ : 100 * (hundredth : ℚ) ≤ n + 99 := by exact_mod_cast hunder
  have hnQ : (n : ℚ) ≤ 10000 := by exact_mod_cast hn
  have hnonneg : (0 : ℚ) ≤ n := by positivity
  have hexact : float n = n := float_natCast (by omega)
  have hrate : 99 / 100 ≤ reputationDecayRate ∧
      reputationDecayRate ≤ 99 / 100 + 1 / 100000000 := by
    norm_num [reputationDecayRate]
  -- the exact product lies between the whole number kept and just below the next
  have hlower : (kept : ℚ) ≤ n * reputationDecayRate := by
    have hproduct := mul_le_mul_of_nonneg_left hrate.1 hnonneg
    linarith
  have hupper : n * reputationDecayRate ≤ ((128 * kept + 127 : ℕ) : ℚ) / 2 ^ 7 := by
    have hproduct := mul_le_mul_of_nonneg_left hrate.2 hnonneg
    push_cast
    linarith
  rw [hexact, Nat.floor_eq_iff (float_nonneg _)]
  constructor
  · rw [← float_natCast (n := kept) (by omega)]
    exact float_mono hlower
  · -- seven binary digits after the point are kept exactly
    have hrounded := float_mono hupper
    have hstays : float (((128 * kept + 127 : ℕ) : ℚ) / 2 ^ 7) =
        ((128 * kept + 127 : ℕ) : ℚ) / 2 ^ 7 := roundTo_natCast_div (by omega) 7
    rw [hstays] at hrounded
    push_cast at hrounded
    linarith

/-- **A hundredth.** A total loses a hundredth of itself, rounded up. -/
theorem natAbs_decayScore {score : ℤ} (h : score.natAbs ≤ 10000) :
    (decayScore score).natAbs = lessHundredth score.natAbs := by
  unfold decayScore
  rw [floor_decay h, Int.natAbs_mul, Int.natAbs_natCast]
  rcases eq_or_ne score 0 with rfl | hne
  · rfl
  · rw [Int.natAbs_sign_of_ne_zero hne, Nat.one_mul]

theorem lessHundredth_le (n : ℕ) : lessHundredth n ≤ n := Nat.sub_le _ _

theorem lessHundredth_mono {m n : ℕ} (h : m ≤ n) : lessHundredth m ≤ lessHundredth n := by
  unfold lessHundredth
  omega

/-! ## Idle epochs -/

/-- Nothing is left of ten thousand. -/
theorem iterate_lessHundredth : lessHundredth^[517] 10000 = 0 := by decide +kernel

theorem iterate_lessHundredth_le {m n : ℕ} (h : m ≤ n) (k : ℕ) :
    lessHundredth^[k] m ≤ lessHundredth^[k] n := by
  induction k generalizing m n with
  | zero => exact h
  | succ k ih => exact ih (lessHundredth_mono h)

/-! ## Every score -/

/-- A number of any size gets no larger. -/
theorem floor_decay_le (n : ℕ) : ⌊float (float n * reputationDecayRate)⌋₊ ≤ n := by
  have hn : (0 : ℚ) ≤ n := by positivity
  have hrate : (0 : ℚ) ≤ reputationDecayRate := by norm_num [reputationDecayRate]
  have hfirst := float_le_mul hn
  have hproduct : 0 ≤ float n * reputationDecayRate := mul_nonneg (float_nonneg _) hrate
  have hsecond := float_le_mul hproduct
  have hless : (1 + 1 / 2 ^ 23) * reputationDecayRate * (1 + 1 / 2 ^ 23) ≤ 1 := by
    norm_num [reputationDecayRate]
  refine Nat.floor_le_of_le ?_
  calc float (float n * reputationDecayRate)
      ≤ float n * reputationDecayRate * (1 + 1 / 2 ^ 23) := hsecond
    _ ≤ n * (1 + 1 / 2 ^ 23) * reputationDecayRate * (1 + 1 / 2 ^ 23) := by
        gcongr
    _ = n * ((1 + 1 / 2 ^ 23) * reputationDecayRate * (1 + 1 / 2 ^ 23)) := by ring
    _ ≤ n := mul_le_of_le_one_right hn hless

theorem decayScore_of_nonneg {score : ℤ} (h : 0 ≤ score) :
    0 ≤ decayScore score ∧ decayScore score ≤ score := by
  have hfloor := floor_decay_le score.natAbs
  unfold decayScore
  rcases h.eq_or_lt with rfl | hpos
  · simp
  · rw [Int.sign_eq_one_of_pos hpos]
    omega

theorem decayScore_of_nonpos {score : ℤ} (h : score ≤ 0) :
    score ≤ decayScore score ∧ decayScore score ≤ 0 := by
  have hfloor := floor_decay_le score.natAbs
  unfold decayScore
  rcases h.eq_or_lt with rfl | hneg
  · simp
  · rw [Int.sign_eq_neg_one_of_neg hneg]
    omega

@[simp] theorem decayScore_zero : decayScore 0 = 0 := by
  rw [decayScore, Int.sign_zero, zero_mul]

/-- The part of a score that an action changes. -/
inductive ScorePart where
  | hosting
  | contribution
  | vouching
  | penalty
  deriving DecidableEq

def partOf : ReputationAction → ScorePart
  | .hostThing => .hosting
  | .contributeBandwidth | .submitPow | .providePostake => .contribution
  | .vouchSuccessful => .vouching
  | _ => .penalty

def isViolation : ReputationAction → Bool
  | .offlineProlonged | .networkViolation | .spamDetected | .contentRemoved => true
  | _ => false

/-- What the actions brought to one part. -/
def brought (part : ScorePart) (actions : List ReputationAction) : ℤ :=
  ((actions.filter (partOf · = part)).map ReputationAction.score).sum

def actionsOf (log : List ScoreEvent) : List ReputationAction := log.filterMap (·.action)

/-- What the parts and the counters of a score say of the actions. -/
structure Tallied (actions : List ReputationAction) (score : DetailedScore) : Prop where
  hosting : 0 ≤ score.hostingScore ∧ score.hostingScore ≤ brought .hosting actions
  contribution : 0 ≤ score.contributionScore ∧
    score.contributionScore ≤ brought .contribution actions
  vouching : 0 ≤ score.vouchingScore ∧ score.vouchingScore ≤ brought .vouching actions
  penalty : brought .penalty actions ≤ score.penaltyScore ∧ score.penaltyScore ≤ 0
  things : score.thingsHosted = UInt32.ofNat (actions.count .hostThing)
  bandwidth : score.bandwidthContributed = UInt64.ofNat (actions.count .contributeBandwidth)
  succeeded : score.successfulVouches = UInt32.ofNat (actions.count .vouchSuccessful)
  failed : score.failedVouches = UInt32.ofNat (actions.count .vouchFailed)
  violations : score.violations = UInt32.ofNat (actions.countP isViolation)

/-- What a score says of the events. -/
structure Kept (log : List ScoreEvent) (score : DetailedScore) : Prop where
  floor : ReputationManager.reputationFloor ≤ score.totalScore
  ceiling : score.totalScore ≤ ReputationManager.reputationCeiling
  tallied : Tallied (actionsOf log) score
  recent : score.recentEvents = log.drop (log.length - 100)

theorem clampReputation_bounds (score : ℤ) :
    ReputationManager.reputationFloor ≤ ReputationManager.clampReputation score ∧
      ReputationManager.clampReputation score ≤ ReputationManager.reputationCeiling := by
  unfold ReputationManager.clampReputation ReputationManager.reputationFloor
    ReputationManager.reputationCeiling
  dsimp only
  split_ifs
  all_goals omega

/-- The last hundred with one more. -/
theorem drop_concat {α : Type} (log : List α) (event : α) :
    (log ++ [event]).drop ((log ++ [event]).length - 100) =
      if 100 < (log.drop (log.length - 100) ++ [event]).length
      then (log.drop (log.length - 100) ++ [event]).tail
      else log.drop (log.length - 100) ++ [event] := by
  rw [List.length_append, List.length_singleton]
  by_cases hroom : log.length < 100
  · rw [Nat.sub_eq_zero_of_le hroom.le, Nat.sub_eq_zero_of_le (by omega : log.length + 1 ≤ 100),
      List.drop_zero, List.drop_zero, if_neg]
    rw [List.length_append, List.length_singleton]
    omega
  · obtain ⟨start, hstart⟩ : ∃ k, log.length - 100 = k := ⟨_, rfl⟩
    have hnext : log.length + 1 - 100 = start + 1 := by omega
    have hkept : (log.drop start).length = 100 := by
      rw [List.length_drop]
      omega
    have hne : log.drop start ≠ [] := List.ne_nil_of_length_pos (by omega)
    rw [hstart, hnext, List.drop_append_of_le_length (by omega), if_pos,
      List.tail_append_of_ne_nil hne, List.tail_drop]
    rw [List.length_append, hkept, List.length_singleton]
    decide

theorem brought_concat (part : ScorePart) (actions : List ReputationAction)
    (action : ReputationAction) :
    brought part (actions ++ [action]) =
      brought part actions + if partOf action = part then action.score else 0 := by
  unfold brought
  rw [List.filter_append, List.map_append, List.sum_append]
  by_cases hpart : partOf action = part
  · simp [hpart]
  · simp [hpart]

/-- The total is no part. -/
theorem Tallied.apply {actions : List ReputationAction} {score : DetailedScore}
    (h : Tallied actions score) (delta : ℤ) (event : ℤ → ScoreEvent) :
    Tallied actions (score.apply delta event) :=
  ⟨h.hosting, h.contribution, h.vouching, h.penalty, h.things, h.bandwidth, h.succeeded, h.failed,
    h.violations⟩

theorem Tallied.tally {actions : List ReputationAction} {score : DetailedScore}
    (h : Tallied actions score) (action : ReputationAction) :
    Tallied (actions ++ [action]) (score.tally action) := by
  obtain ⟨⟨hhost, hhosting⟩, ⟨hcontribute, hcontribution⟩, ⟨hvouch, hvouching⟩,
    ⟨hpenalty, hpenal⟩, hthings, hbandwidth, hsucceeded, hfailed, hviolations⟩ := h
  constructor
  case hosting | contribution | vouching | penalty =>
    rw [brought_concat]
    cases action
    all_goals
      simp only [DetailedScore.tally, partOf, ReputationAction.score, reduceCtorEq, if_true,
        if_false]
      omega
  case things | bandwidth | succeeded | failed | violations =>
    simp only [List.count_append, List.countP_append]
    cases action
    all_goals simp [DetailedScore.tally, isViolation, *]

theorem Tallied.decay {actions : List ReputationAction} {score : DetailedScore}
    (h : Tallied actions score) : Tallied actions score.decay := by
  obtain ⟨hhost, hhosting⟩ := decayScore_of_nonneg h.hosting.1
  obtain ⟨hcontribute, hcontribution⟩ := decayScore_of_nonneg h.contribution.1
  obtain ⟨hvouch, hvouching⟩ := decayScore_of_nonneg h.vouching.1
  obtain ⟨hpenalty, hpenal⟩ := decayScore_of_nonpos h.penalty.2
  exact ⟨⟨hhost, hhosting.trans h.hosting.2⟩,
    ⟨hcontribute, hcontribution.trans h.contribution.2⟩,
    ⟨hvouch, hvouching.trans h.vouching.2⟩, ⟨h.penalty.1.trans hpenalty, hpenal⟩, h.things,
    h.bandwidth, h.succeeded, h.failed, h.violations⟩

/-- An event enters the log. -/
theorem Kept.apply {log : List ScoreEvent} {score score' : DetailedScore} {delta : ℤ}
    {event : ℤ → ScoreEvent} {shown : ScoreEvent} (h : Kept log score)
    (hrecent : score'.recentEvents = score.recentEvents)
    (hshown : shown = event (score'.apply delta event).totalScore)
    (htallied : Tallied (actionsOf (log ++ [shown])) score') :
    Kept (log ++ [shown]) (score'.apply delta event) := by
  obtain ⟨hfloor, hceiling⟩ := clampReputation_bounds (score'.totalScore + delta)
  refine ⟨hfloor, hceiling, htallied.apply delta event, ?_⟩
  rw [drop_concat, ← h.recent, ← hrecent, hshown]
  rfl

theorem Kept.decay {log : List ScoreEvent} {score : DetailedScore} (h : Kept log score) :
    Kept log score.decay := by
  refine ⟨?_, ?_, h.tallied.decay, h.recent⟩
  · show _ ≤ decayScore score.totalScore
    rcases le_total 0 score.totalScore with hpos | hneg
    · exact le_trans (by decide) (decayScore_of_nonneg hpos).1
    · exact h.floor.trans (decayScore_of_nonpos hneg).1
  · show decayScore score.totalScore ≤ _
    rcases le_total 0 score.totalScore with hpos | hneg
    · exact (decayScore_of_nonneg hpos).2.trans h.ceiling
    · exact (decayScore_of_nonpos hneg).2.trans (by decide)

theorem getReputation_eq (b : ScoreBoard) (nodeId : NodeID) :
    b.getReputation nodeId = (b.getDetailedScore nodeId).totalScore := by
  unfold ScoreBoard.getReputation ScoreBoard.getDetailedScore
  cases b.scores.find? nodeId with
  | none => rfl
  | some score => rfl

theorem getDetailedScore_upsert (b : ScoreBoard) (n nodeId : NodeID)
    (f : DetailedScore → DetailedScore) :
    ScoreBoard.getDetailedScore { scores := b.scores.upsert n { nodeId := n } f } nodeId =
      if n = nodeId then f (b.getDetailedScore nodeId) else b.getDetailedScore nodeId := by
  unfold ScoreBoard.getDetailedScore
  rw [OrdMap.find?_upsert]
  by_cases hn : n = nodeId
  · rw [if_pos hn, if_pos hn, hn]
    rfl
  · rw [if_neg hn, if_neg hn]

theorem getDetailedScore_decayReputation (b : ScoreBoard) (nodeId : NodeID) :
    b.decayReputation.getDetailedScore nodeId = (b.getDetailedScore nodeId).decay := by
  unfold ScoreBoard.getDetailedScore ScoreBoard.decayReputation
  rw [OrdMap.find?_mapValues]
  cases b.scores.find? nodeId with
  | none =>
    show ({ nodeId } : DetailedScore) = DetailedScore.decay { nodeId }
    unfold DetailedScore.decay
    rw [decayScore_zero]
  | some score => rfl

/-- No call takes a reputation out of its range. -/
theorem natAbs_getReputation_le (inputs : List ScoreInput) (nodeId : NodeID) :
    ((scoreMachine.run {} inputs).1.getReputation nodeId).natAbs ≤ 10000 := by
  refine scoreMachine.run_invariant (P := fun b => ∀ n, (b.getReputation n).natAbs ≤ 10000)
    ?_ (fun _ => Nat.zero_le _) inputs nodeId
  intro b input h nodeId
  have hclamped : ∀ score : ℤ, (ReputationManager.clampReputation score).natAbs ≤ 10000 := by
    intro score
    have hbounds := clampReputation_bounds score
    unfold ReputationManager.reputationFloor ReputationManager.reputationCeiling at hbounds
    omega
  show ((b.call input).getReputation nodeId).natAbs ≤ 10000
  have hbefore := h nodeId
  rw [getReputation_eq] at hbefore ⊢
  cases input with
  | decayReputation =>
    show (b.decayReputation.getDetailedScore nodeId).totalScore.natAbs ≤ 10000
    rw [getDetailedScore_decayReputation]
    exact (natAbs_decayScore hbefore).trans_le ((lessHundredth_le _).trans hbefore)
  | recordAction now n action relatedNode =>
    show ((b.recordAction now n action relatedNode).getDetailedScore nodeId).totalScore.natAbs ≤ _
    rw [ScoreBoard.recordAction, getDetailedScore_upsert]
    split
    · exact hclamped _
    · exact hbefore
  | applyScoreDelta now n delta reason =>
    show ((b.applyScoreDelta now n delta reason).getDetailedScore nodeId).totalScore.natAbs ≤ _
    rw [ScoreBoard.applyScoreDelta, getDetailedScore_upsert]
    split
    · exact hclamped _
    · exact hbefore

/-- Idle epochs take a hundredth each. -/
theorem natAbs_getReputation_decays (b : ScoreBoard) (nodeId : NodeID) (k : ℕ)
    (h : (b.getReputation nodeId).natAbs ≤ 10000) :
    ((scoreMachine.run b (List.replicate k .decayReputation)).1.getReputation nodeId).natAbs =
      lessHundredth^[k] (b.getReputation nodeId).natAbs := by
  induction k generalizing b with
  | zero => rfl
  | succ k ih =>
    have hdecayed : (b.decayReputation.getReputation nodeId).natAbs =
        lessHundredth (b.getReputation nodeId).natAbs := by
      rw [getReputation_eq, getDetailedScore_decayReputation, getReputation_eq]
      rw [getReputation_eq] at h
      exact natAbs_decayScore h
    rw [Function.iterate_succ_apply, ← hdecayed]
    refine ih b.decayReputation ?_
    rw [hdecayed]
    exact (lessHundredth_le _).trans h

/-- **Forgotten.** Each epoch without a change takes a hundredth of a reputation, rounded up,
and after 517 of them it is zero, whatever the node has done. -/
theorem idle_scores_vanish (inputs : List ScoreInput) (nodeId : NodeID) (k : ℕ) :
    ((scoreMachine.run {} (inputs ++ List.replicate k .decayReputation)).1.getReputation
        nodeId).natAbs =
        lessHundredth^[k] ((scoreMachine.run {} inputs).1.getReputation nodeId).natAbs ∧
      (scoreMachine.run {} (inputs ++ List.replicate (517 + k) .decayReputation)).1.getReputation
        nodeId = 0 := by
  have hkept := natAbs_getReputation_le inputs nodeId
  rw [Machine.run_append, Machine.run_append, natAbs_getReputation_decays _ _ _ hkept]
  refine ⟨rfl, Int.natAbs_eq_zero.mp ?_⟩
  rw [natAbs_getReputation_decays _ _ _ hkept, Nat.add_comm, Function.iterate_add_apply]
  have hgone := (iterate_lessHundredth_le hkept 517).trans iterate_lessHundredth.le
  rw [Nat.le_zero.mp hgone, Function.iterate_fixed rfl]

/-! ## The coarse model -/

/-- A score as the model of attestations and vouches has it. -/
def coarse (score : DetailedScore) : ReputationScore where
  totalScore := score.totalScore
  recentEvents := score.recentEvents.map fun event =>
    { timestamp := event.timestamp
      scoreDelta := event.scoreDelta
      scoreAfter := event.scoreAfter
      details := event.details }

/-- The two have the same scores. -/
def SameScores (m : ReputationManager) (b : ScoreBoard) : Prop :=
  ∀ n, m.scores.find? n = (b.scores.find? n).map coarse

/-- A change of a score is the same in both. -/
theorem SameScores.applyScoreDelta {m : ReputationManager} {b : ScoreBoard} (h : SameScores m b)
    (now : Time) (nodeId : NodeID) (delta : ℤ) (reason : Text) :
    SameScores (m.applyScoreDelta now nodeId delta reason)
      (b.applyScoreDelta now nodeId delta reason) := by
  intro n
  unfold ReputationManager.applyScoreDelta ScoreBoard.applyScoreDelta
  rw [OrdMap.find?_upsert, OrdMap.find?_upsert, h]
  split
  · have hsame : ∀ score : DetailedScore,
        coarse (score.apply delta (ScoreBoard.deltaEvent now delta reason)) =
          { totalScore := ReputationManager.clampReputation ((coarse score).totalScore + delta)
            recentEvents :=
              let events := (coarse score).recentEvents ++ [{
                timestamp := now.secs
                scoreDelta := delta
                scoreAfter := ReputationManager.clampReputation ((coarse score).totalScore + delta)
                details := reason }]
              if 100 < events.length then events.tail else events } := by
      intro score
      unfold coarse DetailedScore.apply
      dsimp only
      simp only [List.length_append, List.length_map, List.length_singleton]
      congr 1
      split
      · rw [List.map_tail, List.map_append]
        rfl
      · rw [List.map_append]
        rfl
    rw [Option.map_some, hsame]
    cases b.scores.find? nodeId with
    | none => rfl
    | some score => rfl
  · exact h n

theorem SameScores.decayReputation {m : ReputationManager} {b : ScoreBoard}
    (h : SameScores m b) : SameScores (m.decayReputation decayScore) b.decayReputation := by
  intro n
  unfold ReputationManager.decayReputation ScoreBoard.decayReputation
  rw [OrdMap.find?_mapValues, OrdMap.find?_mapValues, h]
  cases b.scores.find? n with
  | none => rfl
  | some score => rfl

end Cashew.Theorems.ReputationScores

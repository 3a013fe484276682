import Cashew.Reputation.VouchingWorkflow
import Cashew.Utils.Floats

/-!
# Scores in detail

The `scores_` of `ReputationManager` with all their fields: what `record_action`,
`apply_score_delta` and `decay_reputation` make of them. A total is clamped after each change
of it, its four parts are not.

Scores are integers; a part would need tens of millions of actions to leave 32 bits.
`apply_score_delta` does not set the action of its event. The rankings and the statistics
over all nodes are left out.
-/

namespace Cashew

open Cashew.Lib

/-- `ReputationAction`. -/
inductive ReputationAction where
  | hostThing
  | contributeBandwidth
  | submitPow
  | providePostake
  | vouchSuccessful
  | offlineProlonged
  | networkViolation
  | spamDetected
  | vouchFailed
  | contentRemoved
  deriving DecidableEq

/-- `ReputationEvent`, with all its fields. -/
structure ScoreEvent where
  timestamp : UInt64
  action : Option ReputationAction
  scoreDelta : Int
  scoreAfter : Int
  relatedNode : Option NodeID := none
  details : Text := ⟨[]⟩
  deriving DecidableEq

/-- `ReputationScore`, with all its fields. -/
structure DetailedScore where
  nodeId : NodeID
  totalScore : Int := 0
  hostingScore : Int := 0
  contributionScore : Int := 0
  vouchingScore : Int := 0
  penaltyScore : Int := 0
  thingsHosted : UInt32 := 0
  bandwidthContributed : UInt64 := 0
  successfulVouches : UInt32 := 0
  failedVouches : UInt32 := 0
  violations : UInt32 := 0
  recentEvents : List ScoreEvent := []
  deriving DecidableEq

/-- `ReputationManager::get_action_score`. -/
def ReputationAction.score : ReputationAction → Int
  | .hostThing => 10
  | .contributeBandwidth => 5
  | .submitPow => 2
  | .providePostake => 15
  | .vouchSuccessful => 20
  | .offlineProlonged => -10
  | .networkViolation => -50
  | .spamDetected => -30
  | .vouchFailed => -40
  | .contentRemoved => -20

/-! ## Decay -/

/-- `REPUTATION_DECAY_RATE`, the `float` nearest to 0.99. -/
def reputationDecayRate : ℚ := 16609444 / 2 ^ 24

/-- `static_cast<int32_t>(score * REPUTATION_DECAY_RATE)`: the fraction is cut off, whatever
the sign. -/
def decayScore (score : Int) : Int :=
  score.sign * ⌊float (float score.natAbs * reputationDecayRate)⌋₊

namespace DetailedScore

variable (score : DetailedScore)

/-- The `switch` of `record_action`. -/
def tally (action : ReputationAction) : DetailedScore :=
  match action with
  | .hostThing =>
    { score with
      hostingScore := score.hostingScore + action.score
      thingsHosted := score.thingsHosted + 1 }
  | .contributeBandwidth =>
    { score with
      contributionScore := score.contributionScore + action.score
      bandwidthContributed := score.bandwidthContributed + 1 }
  | .submitPow | .providePostake =>
    { score with contributionScore := score.contributionScore + action.score }
  | .vouchSuccessful =>
    { score with
      vouchingScore := score.vouchingScore + action.score
      successfulVouches := score.successfulVouches + 1 }
  | .vouchFailed =>
    { score with
      penaltyScore := score.penaltyScore + action.score
      failedVouches := score.failedVouches + 1 }
  | .offlineProlonged | .networkViolation | .spamDetected | .contentRemoved =>
    { score with
      penaltyScore := score.penaltyScore + action.score
      violations := score.violations + 1 }

/-- The total changes, and the event is kept with the last hundred. -/
def apply (delta : Int) (event : Int → ScoreEvent) : DetailedScore :=
  let totalScore := ReputationManager.clampReputation (score.totalScore + delta)
  let events := score.recentEvents ++ [event totalScore]
  { score with
    totalScore
    recentEvents := if 100 < events.length then events.tail else events }

/-- What `decay_reputation` does to each score. -/
def decay : DetailedScore :=
  { score with
    totalScore := decayScore score.totalScore
    hostingScore := decayScore score.hostingScore
    contributionScore := decayScore score.contributionScore
    vouchingScore := decayScore score.vouchingScore
    penaltyScore := decayScore score.penaltyScore }

end DetailedScore

/-! ## All nodes -/

/-- The `scores_` of a `ReputationManager`. -/
structure ScoreBoard where
  scores : OrdMap NodeID DetailedScore := .empty

/-- The calls that change a score. -/
inductive ScoreInput where
  | recordAction (now : Time) (nodeId : NodeID) (action : ReputationAction)
      (relatedNode : Option NodeID)
  | applyScoreDelta (now : Time) (nodeId : NodeID) (delta : Int) (reason : Text)
  | decayReputation

namespace ScoreBoard

variable (b : ScoreBoard)

/-- `ReputationManager::get_detailed_score`. -/
def getDetailedScore (nodeId : NodeID) : DetailedScore := (b.scores.find? nodeId).getD { nodeId }

/-- `ReputationManager::get_reputation`. -/
def getReputation (nodeId : NodeID) : Int := (b.scores.find? nodeId).elim 0 (·.totalScore)

/-- The event `record_action` makes. -/
def actionEvent (now : Time) (action : ReputationAction) (relatedNode : Option NodeID)
    (scoreAfter : Int) : ScoreEvent :=
  { timestamp := now.secs
    action := some action
    scoreDelta := action.score
    scoreAfter
    relatedNode }

/-- The event `apply_score_delta` makes. -/
def deltaEvent (now : Time) (delta : Int) (reason : Text) (scoreAfter : Int) : ScoreEvent :=
  { timestamp := now.secs
    action := none
    scoreDelta := delta
    scoreAfter
    details := reason }

/-- `ReputationManager::record_action`. -/
def recordAction (now : Time) (nodeId : NodeID) (action : ReputationAction)
    (relatedNode : Option NodeID) : ScoreBoard :=
  { b with
    scores := b.scores.upsert nodeId { nodeId } fun score =>
      (score.tally action).apply action.score (actionEvent now action relatedNode) }

/-- `ReputationManager::apply_score_delta`. -/
def applyScoreDelta (now : Time) (nodeId : NodeID) (delta : Int) (reason : Text) : ScoreBoard :=
  { b with
    scores := b.scores.upsert nodeId { nodeId } fun score =>
      score.apply delta (deltaEvent now delta reason) }

/-- `ReputationManager::decay_reputation`. -/
def decayReputation : ScoreBoard := { b with scores := b.scores.mapValues fun _ => .decay }

/-- The event that a call adds for a node. -/
def newEvent : ScoreInput → Option (NodeID × ScoreEvent)
  | .recordAction now nodeId action relatedNode =>
    some (nodeId, actionEvent now action relatedNode
      ((b.recordAction now nodeId action relatedNode).getReputation nodeId))
  | .applyScoreDelta now nodeId delta reason =>
    some (nodeId, deltaEvent now delta reason
      ((b.applyScoreDelta now nodeId delta reason).getReputation nodeId))
  | .decayReputation => none

/-- One call. -/
def call : ScoreInput → ScoreBoard
  | .recordAction now nodeId action relatedNode => b.recordAction now nodeId action relatedNode
  | .applyScoreDelta now nodeId delta reason => b.applyScoreDelta now nodeId delta reason
  | .decayReputation => b.decayReputation

end ScoreBoard

/-- A run shows the events as they happen. -/
def scoreMachine : Machine ScoreBoard ScoreInput (NodeID × ScoreEvent) where
  step b input := (b.call input, (b.newEvent input).toList)

end Cashew

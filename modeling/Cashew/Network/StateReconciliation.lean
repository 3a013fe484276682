import Cashew.Ledger.Ledger
import Cashew.Ledger.State

/-!
# State reconciliation

`network/state_reconciliation.cpp`: how a node finds out that a peer's ledger
differs from its own and takes over events of the peer. All strategies that
change anything end in `apply_merge_both`, which offers each missing event to
`add_external_event` and applies it to the state manager when that call returns
true.

Two hashes meet in `detect_conflict`: the ledger's latest hash, which is the
hash of its last event, and the state hash of a peer's events, which covers the
epoch and all of the events.
-/

namespace Cashew

open Cashew.Lib

/-- `ConflictType`. -/
inductive ConflictType where
  | hashMismatch
  | epochFork
  | missingEvents
  | duplicateEvents
  | timestampAnomaly
  deriving DecidableEq

/-- `MergeStrategy`. -/
inductive MergeStrategy where
  | preferLocal
  | preferRemote
  | mergeBoth
  | highestWork
  | quorumConsensus
  | manualReview
  deriving DecidableEq

/-- `StateConflict`. -/
structure StateConflict where
  type : ConflictType
  epoch : UInt64
  localHash : Hash256
  remoteHash : Hash256
  localEvents : List LedgerEvent := []
  remoteEvents : List LedgerEvent
  peerId : NodeID := default
  detectedAt : UInt64
  description : String
  deriving DecidableEq

/-- `MergeResult`. A field that the source leaves unwritten is `none`. -/
structure MergeResult where
  success : Bool
  strategyUsed : Option MergeStrategy := none
  eventsAdded : Option UInt64 := none
  eventsRemoved : Option UInt64 := none
  conflictsResolved : Option UInt64 := none
  finalHash : Option Hash256 := none
  finalEpoch : Option UInt64 := none
  errorMessage : String := ""
  unresolvedConflicts : List StateConflict := []
  deriving DecidableEq

/-- `StateReconciliation`, with the ledger and the state manager it refers to. -/
structure StateReconciliation where
  ledger : Ledger
  stateManager : StateManager
  conflictsDetected : UInt64 := 0
  conflictsResolved : UInt64 := 0
  reconciliations : UInt64 := 0

namespace StateReconciliation

variable (H : Bytes → Hash256)

/-- `StateReconciliation::find_missing_events`. -/
def findMissingEvents (r : StateReconciliation) (remoteEvents : List LedgerEvent) :
    List LedgerEvent :=
  let localEventIds := (r.ledger.events.map LedgerEvent.eventId).toFinset
  remoteEvents.filter fun e => e.eventId ∉ localEventIds

/-- The body of the loop of `apply_merge_both`. -/
def mergeEvent (r : StateReconciliation) (clock : Clock) (e : LedgerEvent) :
    StateReconciliation × Bool :=
  let (ledger, added) := r.ledger.addExternalEvent H clock e
  if !added then ({ r with ledger }, false)
  else ({ r with ledger, stateManager := r.stateManager.applyEvent e }, true)

/-- The loop: three readings an event; `all_applied` is the conjunction of the
results. -/
def mergeEvents : StateReconciliation → Clock → List LedgerEvent → StateReconciliation × Bool
  | r, _, [] => (r, true)
  | r, clock, e :: rest =>
    let (r', applied) := r.mergeEvent H clock e
    let (r'', allApplied) := mergeEvents r' (clock.after 3) rest
    (r'', applied && allApplied)

/-- `StateReconciliation::apply_merge_both`. -/
def applyMergeBoth (r : StateReconciliation) (clock : Clock) (remoteEvents : List LedgerEvent) :
    StateReconciliation × Bool :=
  r.mergeEvents H clock (r.findMissingEvents remoteEvents)

/-! ## Detection -/

/-- `StateReconciliation::compute_state_hash`. -/
def computeStateHash (events : List LedgerEvent) (epoch : UInt64) : Hash256 :=
  H (u64Bytes epoch ++ events.flatMap LedgerEvent.toBytes)

/-- `StateReconciliation::classify_conflict`. -/
def classifyConflict (now : Time) (localHash remoteHash : Hash256)
    (localEvents remoteEvents : List LedgerEvent) : ConflictType :=
  if localHash = remoteHash then .hashMismatch
  else if localEvents.length ≠ remoteEvents.length then .missingEvents
  else if remoteEvents.any fun e => now.skewLimit < e.timestamp then .timestampAnomaly
  else .hashMismatch

/-- `StateReconciliation::detect_conflict`. Another epoch is no conflict. -/
def detectConflict (r : StateReconciliation) (clock : Clock) (peerId : NodeID) (epoch : UInt64)
    (peerHash : Hash256) (peerEvents : List LedgerEvent) :
    StateReconciliation × Option StateConflict :=
  let localHash := r.ledger.latestHash
  if currentEpoch (clock.read 0) ≠ epoch then (r, none)
  else if localHash = peerHash then (r, none)
  else
    ({ r with conflictsDetected := r.conflictsDetected + 1 },
     some
      { type := classifyConflict (clock.read 2) localHash peerHash r.ledger.events peerEvents
        epoch
        localHash
        remoteHash := peerHash
        localEvents := r.ledger.events
        remoteEvents := peerEvents
        peerId
        detectedAt := (clock.read 1).secs
        description := "Ledger state divergence detected" })

/-! ## Resolution -/

/-- `StateReconciliation::choose_strategy`. -/
def chooseStrategy (conflict : StateConflict) : MergeStrategy :=
  match conflict.type with
  | .hashMismatch => .highestWork
  | .missingEvents => .mergeBoth
  | .timestampAnomaly => .preferLocal
  | .epochFork => .manualReview
  | .duplicateEvents => .highestWork

/-- `StateReconciliation::calculate_proof_of_work`. -/
def calculateProofOfWork (events : List LedgerEvent) : UInt32 :=
  events.foldl (fun work e => if e.eventType = .listed .keyIssued then work + 1 else work) 0

/-- `StateReconciliation::apply_local_preference`. -/
def applyLocalPreference (r : StateReconciliation) : StateReconciliation × Bool := (r, true)

/-- `StateReconciliation::apply_remote_preference`: merge, then see whether that
led to the remote hash. -/
def applyRemotePreference (r : StateReconciliation) (clock : Clock) (conflict : StateConflict) :
    StateReconciliation × Bool :=
  let (r, merged) := r.applyMergeBoth H clock conflict.remoteEvents
  if !merged then (r, false) else (r, r.ledger.latestHash == conflict.remoteHash)

/-- `StateReconciliation::apply_highest_work`. -/
def applyHighestWork (r : StateReconciliation) (clock : Clock) (conflict : StateConflict) :
    StateReconciliation × Bool :=
  if calculateProofOfWork conflict.localEvents < calculateProofOfWork conflict.remoteEvents then
    r.applyRemotePreference H clock conflict
  else r.applyLocalPreference

/-- The end of `resolve_conflict`, for the strategies that try something. -/
def finishResolution (strategy : MergeStrategy) (now : Time) :
    StateReconciliation × Bool → StateReconciliation × MergeResult
  | (r, false) => (r, { success := false, strategyUsed := some strategy })
  | (r, true) =>
    ({ r with conflictsResolved := r.conflictsResolved + 1 },
     { success := true
       strategyUsed := some strategy
       conflictsResolved := some 1
       finalHash := some r.ledger.latestHash
       finalEpoch := some (currentEpoch now) })

/-- `StateReconciliation::resolve_conflict`. A merge takes up to three readings
for each remote event. -/
def resolveConflict (r : StateReconciliation) (clock : Clock) (conflict : StateConflict)
    (strategy : MergeStrategy) : StateReconciliation × MergeResult :=
  let now := clock.read (3 * conflict.remoteEvents.length)
  match strategy with
  | .preferLocal => finishResolution strategy now r.applyLocalPreference
  | .preferRemote => finishResolution strategy now (r.applyRemotePreference H clock conflict)
  | .mergeBoth => finishResolution strategy now (r.applyMergeBoth H clock conflict.remoteEvents)
  | .highestWork => finishResolution strategy now (r.applyHighestWork H clock conflict)
  | .quorumConsensus =>
    (r,
     { success := false
       strategyUsed := some strategy
       errorMessage := "Quorum consensus requires multiple peers" })
  | .manualReview =>
    (r,
     { success := false
       strategyUsed := some strategy
       errorMessage := "Manual review required"
       unresolvedConflicts := [conflict] })

/-- `StateReconciliation::auto_reconcile_with_peer`: one reading for the state
hash, one for the epoch it passes on, then those of `detect_conflict`. -/
def autoReconcileWithPeer (r : StateReconciliation) (clock : Clock) (peerId : NodeID)
    (peerEvents : List LedgerEvent) : StateReconciliation × MergeResult :=
  let r := { r with reconciliations := r.reconciliations + 1 }
  let peerHash := computeStateHash H peerEvents (currentEpoch (clock.read 0))
  match r.detectConflict (clock.after 2) peerId (currentEpoch (clock.read 1)) peerHash
      peerEvents with
  | (r, none) =>
    (r,
     { success := true
       strategyUsed := some .preferLocal
       finalHash := some r.ledger.latestHash
       finalEpoch := some (currentEpoch (clock.read 3)) })
  | (r, some conflict) =>
    r.resolveConflict H (clock.after 5) conflict (chooseStrategy conflict)

/-! ## Quorum -/

/-- The votes for each hash, and the events first seen with it. -/
abbrev Tally := OrdMap Hash256 UInt32 × OrdMap Hash256 (List LedgerEvent)

/-- One round of the counting loop of `reconcile_with_quorum`. -/
def countVote (epoch : UInt64) (tally : Tally) (peer : NodeID × List LedgerEvent) : Tally :=
  let hash := computeStateHash H peer.2 epoch
  (tally.1.upsert hash 0 (· + 1),
   if tally.2.contains hash then tally.2 else tally.2.insert hash peer.2)

/-- The counting loop. -/
def countVotes (epoch : UInt64) (peerStates : OrdMap NodeID (List LedgerEvent)) : Tally :=
  peerStates.entries.foldl (countVote H epoch) (.empty, .empty)

/-- The most popular hash and its votes; `unset` is what the uninitialised
`quorum_hash` holds. -/
def mostVotes (unset : Hash256) (votes : OrdMap Hash256 UInt32) : Hash256 × UInt32 :=
  votes.entries.foldl (fun best vote => if best.2 < vote.2 then vote else best) (unset, 0)

/-- `StateReconciliation::reconcile_with_quorum`. -/
def reconcileWithQuorum (r : StateReconciliation) (clock : Clock) (unset : Hash256)
    (peerStates : OrdMap NodeID (List LedgerEvent)) : StateReconciliation × MergeResult :=
  let epoch := currentEpoch (clock.read 0)
  let (votes, events) := countVotes H epoch peerStates
  let (quorumHash, maxVotes) := mostVotes unset votes
  if maxVotes.toNat < peerStates.entries.length / 2 then
    (r, { success := false, errorMessage := "No quorum consensus reached" })
  else
    let ourHash := r.ledger.latestHash
    if ourHash = quorumHash then
      (r,
       { success := true
         strategyUsed := some .quorumConsensus
         eventsAdded := some 0
         eventsRemoved := some 0
         conflictsResolved := some 0
         finalHash := some ourHash
         finalEpoch := some epoch })
    else
      r.resolveConflict H (clock.after 2)
        { type := .hashMismatch
          epoch
          localHash := ourHash
          remoteHash := quorumHash
          -- `hash_to_events[quorum_hash]`
          remoteEvents := (events.find? quorumHash).getD []
          detectedAt := (clock.read 1).secs
          description := "Local state differs from quorum consensus" }
        .preferRemote

end StateReconciliation

end Cashew

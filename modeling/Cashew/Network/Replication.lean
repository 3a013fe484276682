import Cashew.Network.Network

/-!
# Replication jobs

`ReplicationCoordinator` of `network/network.cpp`: the queue of jobs that copy a
Thing to the nodes of a network. A request is queued unless a job for the same
network and target is waiting or running; a failed job stays in the list and can
be put back into the queue.

Statistics and log lines are left out. Times are ticks of the clock.
-/

namespace Cashew

open Cashew.Lib

/-- `ReplicationRequest`. -/
structure ReplicationRequest where
  networkId : NetworkID
  thingHash : ContentHash
  sourceNode : NodeID
  targetNode : NodeID
  requestTimestamp : UInt64
  priority : UInt32
  deriving DecidableEq

/-- `ReplicationStatus : uint8_t`. -/
inductive ReplicationStatus where
  | pending
  | inProgress
  | verifying
  | completed
  | failed
  | cancelled
  deriving DecidableEq

/-- `ReplicationJob`. -/
structure ReplicationJob where
  request : ReplicationRequest
  status : ReplicationStatus
  startedTimestamp : UInt64
  completedTimestamp : UInt64
  bytesTransferred : UInt64
  errorMessage : Text
  retryCount : UInt32
  deriving DecidableEq

namespace ReplicationJob

/-- The job copies to this node for this network. -/
def isFor (job : ReplicationJob) (networkId : NetworkID) (targetNode : NodeID) : Bool :=
  job.request.networkId = networkId ∧ job.request.targetNode = targetNode

/-- The job waits or runs. -/
def isActive (job : ReplicationJob) : Bool :=
  job.status = .pending ∨ job.status = .inProgress

/-- The job has failed and may be tried again. -/
def isRetryable (job : ReplicationJob) (maxRetries : UInt32) : Bool :=
  job.status = .failed ∧ job.retryCount < maxRetries

/-- A job that goes before another one: waiting jobs first, then by priority. -/
def goesBefore (a b : ReplicationJob) : Bool :=
  if a.status = .pending ∧ b.status ≠ .pending then true
  else if b.status = .pending ∧ a.status ≠ .pending then false
  else b.request.priority < a.request.priority

end ReplicationJob

/-- The list with its first element that passes the test changed. -/
def modifyFirst {α : Type} (test : α → Bool) (change : α → α) : List α → List α
  | [] => []
  | a :: rest => if test a then change a :: rest else a :: modifyFirst test change rest

/-- `ReplicationCoordinator`. -/
structure ReplicationCoordinator where
  jobs : List ReplicationJob
  deriving DecidableEq

namespace ReplicationCoordinator

def maxConcurrentJobs : Nat := 5

/-- A coordinator as constructed. -/
def initial : ReplicationCoordinator := ⟨[]⟩

/-- `ReplicationCoordinator::prioritize_jobs`, a stable sort. -/
def prioritizeJobs (c : ReplicationCoordinator) : ReplicationCoordinator :=
  ⟨c.jobs.insertionSort fun a b => !b.goesBefore a⟩

/-- The job `request_replication` creates. -/
def newJob (request : ReplicationRequest) : ReplicationJob where
  request
  status := .pending
  startedTimestamp := 0
  completedTimestamp := 0
  bytesTransferred := 0
  errorMessage := Text.ofString ""
  retryCount := 0

/-- `ReplicationCoordinator::request_replication`. -/
def requestReplication (c : ReplicationCoordinator) (request : ReplicationRequest) :
    ReplicationCoordinator :=
  -- "Check if already exists"
  if c.jobs.any fun job => job.isFor request.networkId request.targetNode && job.isActive then c
  else (⟨c.jobs ++ [newJob request]⟩ : ReplicationCoordinator).prioritizeJobs

/-- `ReplicationCoordinator::cancel_replication`. -/
def cancelReplication (c : ReplicationCoordinator) (networkId : NetworkID)
    (targetNode : NodeID) : ReplicationCoordinator :=
  ⟨c.jobs.map fun job =>
    if job.isFor networkId targetNode && job.isActive then { job with status := .cancelled }
    else job⟩

/-- `ReplicationCoordinator::get_next_job`. -/
def getNextJob (c : ReplicationCoordinator) : Option ReplicationJob :=
  if maxConcurrentJobs ≤ c.jobs.countP (·.status = .inProgress) then none
  else c.jobs.find? (·.status = .pending)

/-- `ReplicationCoordinator::mark_job_started`. -/
def markJobStarted (c : ReplicationCoordinator) (request : ReplicationRequest) (ticks : UInt64) :
    ReplicationCoordinator :=
  ⟨modifyFirst
    (fun job => job.isFor request.networkId request.targetNode && job.status = .pending)
    (fun job => { job with status := .inProgress, startedTimestamp := ticks }) c.jobs⟩

/-- `ReplicationCoordinator::mark_job_completed`. -/
def markJobCompleted (c : ReplicationCoordinator) (request : ReplicationRequest) (success : Bool)
    (error : Text) (ticks : UInt64) : ReplicationCoordinator :=
  ⟨modifyFirst
    (fun job => job.isFor request.networkId request.targetNode && job.status = .inProgress)
    (fun job =>
      { job with
        status := if success then .completed else .failed
        completedTimestamp := ticks
        errorMessage := error }) c.jobs⟩

/-- `ReplicationCoordinator::retry_failed_jobs`. -/
def retryFailedJobs (c : ReplicationCoordinator) (maxRetries : UInt32) : ReplicationCoordinator :=
  -- a job for the same network and target may be active by now
  (⟨c.jobs.map fun job =>
    if job.isRetryable maxRetries then
      { job with
        status := .pending, retryCount := job.retryCount + 1, errorMessage := Text.ofString "" }
    else job⟩ : ReplicationCoordinator).prioritizeJobs

/-- `ReplicationCoordinator::cleanup_old_jobs`; the age is unsigned. -/
def cleanupOldJobs (c : ReplicationCoordinator) (maxAgeSeconds : UInt64) (ticks : UInt64) :
    ReplicationCoordinator :=
  ⟨c.jobs.filter fun job =>
    job.isActive || !(maxAgeSeconds < ticks - job.completedTimestamp)⟩

end ReplicationCoordinator

/-! ## Runs -/

/-- The calls on a coordinator. -/
inductive ReplicationInput where
  | requestReplication (request : ReplicationRequest)
  | cancelReplication (networkId : NetworkID) (targetNode : NodeID)
  | markJobStarted (request : ReplicationRequest) (ticks : UInt64)
  | markJobCompleted (request : ReplicationRequest) (success : Bool) (error : Text)
      (ticks : UInt64)
  | retryFailedJobs (maxRetries : UInt32)
  | cleanupOldJobs (maxAgeSeconds : UInt64) (ticks : UInt64)
  | getNextJob

/-- The state after one call. -/
def ReplicationCoordinator.call (c : ReplicationCoordinator) :
    ReplicationInput → ReplicationCoordinator
  | .requestReplication request => c.requestReplication request
  | .cancelReplication networkId targetNode => c.cancelReplication networkId targetNode
  | .markJobStarted request ticks => c.markJobStarted request ticks
  | .markJobCompleted request success error ticks =>
    c.markJobCompleted request success error ticks
  | .retryFailedJobs maxRetries => c.retryFailedJobs maxRetries
  | .cleanupOldJobs maxAgeSeconds ticks => c.cleanupOldJobs maxAgeSeconds ticks
  | .getNextJob => c

/-- The job a call returns. -/
def ReplicationCoordinator.returned (c : ReplicationCoordinator) :
    ReplicationInput → Option ReplicationJob
  | .getNextJob => c.getNextJob
  | _ => none

/-- A coordinator driven by calls; it shows the jobs they return. -/
def replicationMachine : Machine ReplicationCoordinator ReplicationInput ReplicationJob where
  step c input := (c.call input, (c.returned input).toList)

end Cashew

import Cashew.Network.Replication

/-!
# One job for each network and target

`request_replication` looks for a waiting or running job before it queues one.
`retry_failed_jobs` does not: a job that failed goes back into the queue also when
a new request has taken its place. `jobs_single_iff` says exactly which runs have
at most one active job for each network and target.
-/

namespace Cashew.Theorems.Replication

open Cashew Cashew.Lib

/-- The jobs copy to the same node for the same network. -/
def SameTarget (a b : ReplicationJob) : Prop :=
  a.request.networkId = b.request.networkId ∧ a.request.targetNode = b.request.targetNode

instance (a b : ReplicationJob) : Decidable (SameTarget a b) :=
  inferInstanceAs (Decidable (_ ∧ _))

/-- No two jobs of the list that pass the test have the same target. -/
def Apart (test : ReplicationJob → Bool) (jobs : List ReplicationJob) : Prop :=
  jobs.Pairwise fun a b => test a = true → test b = true → ¬ SameTarget a b

/-- At most one job for each network and target waits or runs. -/
def Single (c : ReplicationCoordinator) : Prop := Apart ReplicationJob.isActive c.jobs

/-- No job that is tried again has the target of another job that is active or
tried again. -/
def RetriesAlone (c : ReplicationCoordinator) (input : ReplicationInput) : Prop :=
  ∀ maxRetries, input = .retryFailedJobs maxRetries →
    c.jobs.Pairwise fun a b =>
      a.isRetryable maxRetries = true ∧ (b.isActive || b.isRetryable maxRetries) = true ∨
        b.isRetryable maxRetries = true ∧ (a.isActive || a.isRetryable maxRetries) = true →
          ¬ SameTarget a b

instance (c : ReplicationCoordinator) : Decidable (Single c) :=
  inferInstanceAs (Decidable (List.Pairwise _ _))

/-! ## Changes to a list of jobs -/

/-- Order does not matter. -/
theorem apart_perm {test : ReplicationJob → Bool} {jobs jobs' : List ReplicationJob}
    (h : jobs.Perm jobs') : Apart test jobs ↔ Apart test jobs' := by
  refine h.pairwise_iff ?_
  intro a b hab hb ha hsame
  exact hab ha hb ⟨hsame.1.symm, hsame.2.symm⟩

theorem apart_prioritizeJobs {test : ReplicationJob → Bool} (c : ReplicationCoordinator) :
    Apart test c.prioritizeJobs.jobs ↔ Apart test c.jobs :=
  apart_perm (List.perm_insertionSort _ _)

/-- A relation between the elements of a list, carried over to a changed list. -/
theorem pairwise_of_forall₂ {α : Type} {C R S : α → α → Prop} {new old : List α}
    (hstep : ∀ a' a b' b, C a' a → C b' b → R a b → S a' b') (hchange : List.Forall₂ C new old)
    (h : old.Pairwise R) : new.Pairwise S := by
  induction hchange with
  | nil => exact List.Pairwise.nil
  | @cons a' a rest' rest hhead htail ih =>
    obtain ⟨hfirst, hrest⟩ := List.pairwise_cons.mp h
    refine List.pairwise_cons.mpr ⟨?_, ih hrest⟩
    intro b' hb'
    -- the later element is the changed form of one of the rest
    obtain ⟨i, hi, rfl⟩ := List.mem_iff_getElem.mp hb'
    have hlen := htail.length_eq
    exact hstep _ _ _ _ hhead (htail.get hi (by omega)) (hfirst _ (List.getElem_mem (by omega)))

/-- Changes that leave the requests alone and activate no job. -/
theorem Apart.of_forall₂ {jobs jobs' : List ReplicationJob}
    (h : Apart ReplicationJob.isActive jobs)
    (hchange : List.Forall₂ (fun new old : ReplicationJob =>
      new.request = old.request ∧ (new.isActive = true → old.isActive = true)) jobs' jobs) :
    Apart ReplicationJob.isActive jobs' := by
  refine pairwise_of_forall₂ ?_ hchange h
  rintro new₁ old₁ new₂ old₂ ⟨hrequest₁, hkeep₁⟩ ⟨hrequest₂, hkeep₂⟩ hapart hactive₁ hactive₂ hsame
  refine hapart (hkeep₁ hactive₁) (hkeep₂ hactive₂) ?_
  unfold SameTarget at hsame ⊢
  rw [← hrequest₁, ← hrequest₂]
  exact hsame

theorem modifyFirst_forall₂ {α : Type} {R : α → α → Prop} {test : α → Bool} {change : α → α}
    (hsame : ∀ a, R a a) (hchange : ∀ a, test a = true → R (change a) a) (items : List α) :
    List.Forall₂ R (modifyFirst test change items) items := by
  induction items with
  | nil => exact .nil
  | cons a rest ih =>
    unfold modifyFirst
    split
    · rename_i htest
      exact .cons (hchange a htest) (List.forall₂_same.mpr fun b _ => hsame b)
    · exact .cons (hsame a) ih

/-! ## Steps -/

theorem single_requestReplication {c : ReplicationCoordinator} (h : Single c)
    (request : ReplicationRequest) : Single (c.requestReplication request) := by
  unfold ReplicationCoordinator.requestReplication
  split
  · exact h
  · rename_i hnone
    refine (apart_prioritizeJobs _).mpr (List.pairwise_append.mpr ⟨h, ?_, ?_⟩)
    · exact List.pairwise_singleton _ _
    · -- an active job for the same target would have stopped the request
      intro job hjob new hnew hactive _ hsame
      cases List.mem_singleton.mp hnew
      refine hnone (List.any_eq_true.mpr ⟨job, hjob, ?_⟩)
      rw [hactive, Bool.and_true]
      exact decide_eq_true hsame

theorem single_cancelReplication {c : ReplicationCoordinator} (h : Single c)
    (networkId : NetworkID) (targetNode : NodeID) :
    Single (c.cancelReplication networkId targetNode) := by
  refine Apart.of_forall₂ h (List.forall₂_map_left_iff.mpr (List.forall₂_same.mpr ?_))
  intro job _
  split
  · exact ⟨rfl, fun hactive => absurd hactive (by simp [ReplicationJob.isActive])⟩
  · exact ⟨rfl, id⟩

theorem single_markJobStarted {c : ReplicationCoordinator} (h : Single c)
    (request : ReplicationRequest) (ticks : UInt64) : Single (c.markJobStarted request ticks) := by
  refine Apart.of_forall₂ h (modifyFirst_forall₂ (fun _ => ⟨rfl, id⟩) ?_ c.jobs)
  intro job htest
  have hpending : job.status = .pending := by simpa using (Bool.and_eq_true_iff.mp htest).2
  exact ⟨rfl, fun _ => by simp [ReplicationJob.isActive, hpending]⟩

theorem single_markJobCompleted {c : ReplicationCoordinator} (h : Single c)
    (request : ReplicationRequest) (success : Bool) (error : Text) (ticks : UInt64) :
    Single (c.markJobCompleted request success error ticks) := by
  refine Apart.of_forall₂ h (modifyFirst_forall₂ (fun _ => ⟨rfl, id⟩) ?_ c.jobs)
  intro job htest
  have hrunning : job.status = .inProgress := by simpa using (Bool.and_eq_true_iff.mp htest).2
  exact ⟨rfl, fun _ => by simp [ReplicationJob.isActive, hrunning]⟩

/-- After a retry the active jobs are those that were active or could be tried
again. -/
theorem single_retryFailedJobs (c : ReplicationCoordinator) (maxRetries : UInt32) :
    Single (c.retryFailedJobs maxRetries) ↔
      Apart (fun job => job.isActive || job.isRetryable maxRetries) c.jobs := by
  refine (apart_prioritizeJobs _).trans (List.pairwise_map.trans ?_)
  have hretry : ∀ job : ReplicationJob,
      (if job.isRetryable maxRetries then
        { job with
          status := .pending, retryCount := job.retryCount + 1, errorMessage := Text.ofString "" }
        else job : ReplicationJob).isActive = (job.isActive || job.isRetryable maxRetries) ∧
      (if job.isRetryable maxRetries then
        { job with
          status := .pending, retryCount := job.retryCount + 1, errorMessage := Text.ofString "" }
        else job : ReplicationJob).request = job.request := by
    intro job
    split
    · rename_i hretryable
      simp [hretryable, ReplicationJob.isActive]
    · rename_i hother
      simp [hother]
  unfold Apart SameTarget
  simp only [hretry]

/-- A retry keeps the jobs apart exactly when what it activates is apart from the
rest. -/
theorem single_retryFailedJobs_iff {c : ReplicationCoordinator} (h : Single c)
    (maxRetries : UInt32) :
    Single (c.retryFailedJobs maxRetries) ↔
      RetriesAlone c (.retryFailedJobs maxRetries) := by
  rw [single_retryFailedJobs]
  constructor
  · intro hapart max hcall
    cases hcall
    refine hapart.imp ?_
    rintro a b hab (⟨ha, hb⟩ | ⟨hb, ha⟩)
    · exact hab (by simp [ha]) hb
    · exact hab ha (by simp [hb])
  · intro halone
    refine ((halone maxRetries rfl).and h).imp ?_
    rintro a b ⟨hretry, hactive⟩ ha hb
    -- two jobs that were active are apart already; any other pair has a retried one
    rcases Bool.or_eq_true_iff.mp ha with haActive | haRetry
    · rcases Bool.or_eq_true_iff.mp hb with hbActive | hbRetry
      · exact hactive haActive hbActive
      · exact hretry (.inr ⟨hbRetry, ha⟩)
    · exact hretry (.inl ⟨haRetry, hb⟩)

/-- One call keeps the jobs single exactly when it is no retry that meets another
job. -/
theorem step_single_iff {c : ReplicationCoordinator} (h : Single c) (input : ReplicationInput) :
    Single (c.call input) ↔ RetriesAlone c input := by
  cases input with
  | requestReplication request =>
    exact iff_of_true (single_requestReplication h request) (fun _ hcall => nomatch hcall)
  | cancelReplication networkId targetNode =>
    exact iff_of_true (single_cancelReplication h networkId targetNode)
      (fun _ hcall => nomatch hcall)
  | markJobStarted request ticks =>
    exact iff_of_true (single_markJobStarted h request ticks) (fun _ hcall => nomatch hcall)
  | markJobCompleted request success error ticks =>
    exact iff_of_true (single_markJobCompleted h request success error ticks)
      (fun _ hcall => nomatch hcall)
  | retryFailedJobs maxRetries => exact single_retryFailedJobs_iff h maxRetries
  | cleanupOldJobs maxAgeSeconds ticks =>
    exact iff_of_true (List.Pairwise.filter _ h) (fun _ hcall => nomatch hcall)
  | getNextJob => exact iff_of_true h (fun _ hcall => nomatch hcall)

/-- **One job each.** In a run from a new coordinator at most one job for each
network and target waits or runs in every state exactly when no retry activates a
failed job whose network and target another job that is active, or activated with
it, has. -/
theorem jobs_single_iff (inputs : List ReplicationInput) :
    replicationMachine.Always Single .initial inputs ↔
      replicationMachine.StepsMeet RetriesAlone .initial inputs := by
  have hstart : Single .initial := List.Pairwise.nil
  exact replicationMachine.always_iff (P := fun _ => True) (Q := Single) (fun _ _ _ => trivial)
    (fun _ input _ h => step_single_iff h input) trivial hstart inputs

/-- A request to copy the Thing of network 0 from node 1 to node 2. -/
def sampleRequest : ReplicationRequest where
  networkId := ⟨FixedBytes.zero⟩
  thingHash := ⟨FixedBytes.zero⟩
  sourceNode := sampleNode 1
  targetNode := sampleNode 2
  requestTimestamp := 0
  priority := 5

/-- The request fails, is made again, and the failed job is tried again. -/
def requestedAfterFailure : List ReplicationInput :=
  [.requestReplication sampleRequest, .markJobStarted sampleRequest 1,
    .markJobCompleted sampleRequest false (Text.ofString "timeout") 2,
    .requestReplication sampleRequest, .retryFailedJobs 3]

/-- Two jobs wait for the same node. -/
theorem two_jobs_after_retry :
    ¬ replicationMachine.Always Single .initial requestedAfterFailure := by
  decide

end Cashew.Theorems.Replication

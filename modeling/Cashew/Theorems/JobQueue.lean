import Cashew.Theorems.Replication

/-!
# The order of the replication queue

`get_next_job` takes the first waiting job of the list, and only two of the calls sort
the list. Here the jobs are numbered as they are queued, which the coordinator does not
do: `forget_run` takes the numbers away again. Every call keeps the waiting jobs sorted
by priority, and a waiting job that was never retried stands behind no job of its
priority that was queued later, whatever the status of that one. `next_job` has both for
the job that is returned.
-/

namespace Cashew.Theorems.JobQueue

open Cashew Cashew.Lib Theorems.Replication

/-! ## Numbered jobs -/

/-- A job with the number of the request that queued it. -/
structure NumberedJob where
  job : ReplicationJob
  number : Nat

/-- The same number on the changed job. -/
def NumberedJob.map (n : NumberedJob) (change : ReplicationJob → ReplicationJob) : NumberedJob :=
  { n with job := change n.job }

/-- A coordinator that counts the requests it queues. -/
structure NumberedQueue where
  jobs : List NumberedJob := []
  next : Nat := 0

namespace NumberedQueue

/-- The coordinator itself. -/
def forget (q : NumberedQueue) : ReplicationCoordinator := ⟨q.jobs.map (·.job)⟩

def prioritizeJobs (q : NumberedQueue) : NumberedQueue :=
  { q with jobs := q.jobs.insertionSort fun a b => !b.job.goesBefore a.job }

/-- The calls of the coordinator, the numbers kept beside the jobs. -/
def call (q : NumberedQueue) : ReplicationInput → NumberedQueue
  | .requestReplication request =>
    if q.forget.jobs.any fun job => job.isFor request.networkId request.targetNode && job.isActive
    then q
    else prioritizeJobs
      { jobs := q.jobs ++ [⟨ReplicationCoordinator.newJob request, q.next⟩], next := q.next + 1 }
  | .cancelReplication networkId targetNode =>
    { q with jobs := q.jobs.map fun n => n.map fun job =>
        if job.isFor networkId targetNode && job.isActive then { job with status := .cancelled }
        else job }
  | .markJobStarted request ticks =>
    { q with
      jobs := modifyFirst
        (fun n => n.job.isFor request.networkId request.targetNode && n.job.status = .pending)
        (fun n => n.map fun job =>
          { job with status := .inProgress, startedTimestamp := ticks }) q.jobs }
  | .markJobCompleted request success error ticks =>
    { q with
      jobs := modifyFirst
        (fun n => n.job.isFor request.networkId request.targetNode && n.job.status = .inProgress)
        (fun n => n.map fun job =>
          { job with
            status := if success then .completed else .failed
            completedTimestamp := ticks
            errorMessage := error }) q.jobs }
  | .retryFailedJobs maxRetries =>
    prioritizeJobs { q with
      jobs := q.jobs.map fun n => n.map fun job =>
        if job.isRetryable maxRetries then
          { job with
            status := .pending, retryCount := job.retryCount + 1, errorMessage := Text.ofString "" }
        else job }
  | .cleanupOldJobs maxAgeSeconds ticks =>
    { q with jobs := q.jobs.filter fun n =>
        n.job.isActive || !(maxAgeSeconds < ticks - n.job.completedTimestamp) }
  | .getNextJob => q

end NumberedQueue

/-- The numbered coordinator, driven by the same calls. -/
def numberedMachine : Machine NumberedQueue ReplicationInput ReplicationJob where
  step q input := (q.call input, (q.forget.returned input).toList)

/-! ## Taking the numbers away -/

theorem map_job_map (change : ReplicationJob → ReplicationJob) (items : List NumberedJob) :
    (items.map fun n => n.map change).map (·.job) = (items.map (·.job)).map change := by
  rw [List.map_map, List.map_map]
  rfl

theorem map_job_modifyFirst (test : ReplicationJob → Bool)
    (change : ReplicationJob → ReplicationJob) (items : List NumberedJob) :
    (modifyFirst (fun n => test n.job) (fun n => n.map change) items).map (·.job) =
      modifyFirst test change (items.map (·.job)) := by
  induction items with
  | nil => rfl
  | cons n rest ih =>
    simp only [modifyFirst, List.map_cons]
    split
    · rfl
    · rw [List.map_cons, ih]

theorem forget_prioritizeJobs (q : NumberedQueue) :
    q.prioritizeJobs.forget = q.forget.prioritizeJobs := by
  unfold NumberedQueue.prioritizeJobs NumberedQueue.forget ReplicationCoordinator.prioritizeJobs
  exact congrArg ReplicationCoordinator.mk
    (List.map_insertionSort _ _ _ _ fun a _ b _ => Iff.rfl)

theorem forget_call (q : NumberedQueue) (input : ReplicationInput) :
    (q.call input).forget = q.forget.call input := by
  cases input with
  | requestReplication request =>
    show (ite _ _ _ : NumberedQueue).forget = ite _ _ _
    split
    · rfl
    · rw [forget_prioritizeJobs, NumberedQueue.forget, List.map_append]
      rfl
  | cancelReplication networkId targetNode =>
    exact congrArg ReplicationCoordinator.mk (map_job_map _ q.jobs)
  | markJobStarted request ticks =>
    exact congrArg ReplicationCoordinator.mk (map_job_modifyFirst
      (fun job => job.isFor request.networkId request.targetNode && job.status = .pending) _ q.jobs)
  | markJobCompleted request success error ticks =>
    exact congrArg ReplicationCoordinator.mk (map_job_modifyFirst
      (fun job => job.isFor request.networkId request.targetNode && job.status = .inProgress) _
      q.jobs)
  | retryFailedJobs maxRetries =>
    show (NumberedQueue.prioritizeJobs _).forget = ReplicationCoordinator.prioritizeJobs _
    rw [forget_prioritizeJobs]
    exact congrArg (fun jobs => (ReplicationCoordinator.mk jobs).prioritizeJobs)
      (map_job_map _ q.jobs)
  | cleanupOldJobs maxAgeSeconds ticks =>
    show ReplicationCoordinator.mk _ = ReplicationCoordinator.mk _
    rw [NumberedQueue.forget, List.filter_map]
    rfl
  | getNextJob => rfl

/-- Without the numbers, a run is a run of the coordinator. -/
theorem forget_run (inputs : List ReplicationInput) (q : NumberedQueue) :
    (numberedMachine.run q inputs).1.forget = (replicationMachine.run q.forget inputs).1 := by
  induction inputs generalizing q with
  | nil => rfl
  | cons input rest ih =>
    show (numberedMachine.run (q.call input) rest).1.forget =
      (replicationMachine.run (q.forget.call input) rest).1
    rw [ih, forget_call]

/-! ## Sorting -/

/-- Waiting jobs rank above all others, jobs alike by priority. -/
def rank (job : ReplicationJob) : Nat :=
  (if job.status = .pending then 2 ^ 32 else 0) + job.request.priority.toNat

theorem goesBefore_iff (a b : ReplicationJob) : a.goesBefore b = true ↔ rank b < rank a := by
  have ha := a.request.priority.toNat_lt
  have hb := b.request.priority.toNat_lt
  unfold ReplicationJob.goesBefore rank
  by_cases hpa : a.status = .pending
  · by_cases hpb : b.status = .pending
    · simp [hpa, hpb, UInt32.lt_iff_toNat_lt]
    · simp only [hpa, hpb, if_true, if_false, ne_eq, not_false_eq_true, and_self, true_iff]
      omega
  · by_cases hpb : b.status = .pending
    · simp only [hpa, hpb, if_true, if_false, false_and, ne_eq, not_false_eq_true, and_self,
        Bool.false_eq_true, false_iff]
      omega
    · simp [hpa, hpb, UInt32.lt_iff_toNat_lt]

/-- The order the list is sorted by. -/
def Precedes (a b : NumberedJob) : Prop := (!b.job.goesBefore a.job) = true

theorem precedes_iff {a b : NumberedJob} : Precedes a b ↔ rank b.job ≤ rank a.job := by
  rw [Precedes, Bool.not_eq_true', ← Bool.not_eq_true, goesBefore_iff, Nat.not_lt]

instance : DecidableRel Precedes := fun _ _ => inferInstanceAs (Decidable (_ = true))

instance : Std.Total Precedes where
  total a b := by
    rw [precedes_iff, precedes_iff]
    exact Nat.le_total _ _

instance : IsTrans NumberedJob Precedes where
  trans a b c hab hbc := by
    rw [precedes_iff] at hab hbc ⊢
    exact Nat.le_trans hbc hab

theorem pairwise_precedes (q : NumberedQueue) : q.prioritizeJobs.jobs.Pairwise Precedes :=
  List.pairwise_insertionSort Precedes q.jobs

/-- Insertion moves an element in front of others only where the order asks for it. -/
theorem pairwise_orderedInsert_of {α : Type} {r S : α → α → Prop} [DecidableRel r] {a : α}
    {l : List α} (hS : ∀ b ∈ l, S a b) (hswap : ∀ b ∈ l, ¬ r a b → S b a) (hl : l.Pairwise S) :
    (l.orderedInsert r a).Pairwise S := by
  induction l with
  | nil => exact List.pairwise_singleton S a
  | cons b rest ih =>
    obtain ⟨hb, hrest⟩ := List.pairwise_cons.mp hl
    by_cases hab : r a b
    · rw [List.orderedInsert_cons_of_le r rest hab]
      exact List.pairwise_cons.mpr ⟨hS, hl⟩
    · rw [List.orderedInsert_of_not_le r rest hab]
      refine List.pairwise_cons.mpr ⟨?_, ih (fun c hc => hS c (List.mem_cons_of_mem b hc))
        (fun c hc => hswap c (List.mem_cons_of_mem b hc)) hrest⟩
      intro c hc
      rcases (List.mem_orderedInsert r).mp hc with rfl | hc
      · exact hswap b List.mem_cons_self hab
      · exact hb c hc

/-- The sort is stable: it keeps a relation that holds along the list, if it also holds
of every pair that changes places. -/
theorem pairwise_insertionSort_of {α : Type} {r S : α → α → Prop} [DecidableRel r] {l : List α}
    (hswap : ∀ a b, S a b → ¬ r a b → S b a) (hl : l.Pairwise S) :
    (l.insertionSort r).Pairwise S := by
  induction l with
  | nil => exact List.Pairwise.nil
  | cons a rest ih =>
    obtain ⟨ha, hrest⟩ := List.pairwise_cons.mp hl
    have hmem : ∀ b ∈ rest.insertionSort r, S a b := fun b hb =>
      ha b ((List.mem_insertionSort r).mp hb)
    exact pairwise_orderedInsert_of hmem (fun b hb => hswap a b (hmem b hb)) (ih hrest)

/-! ## What every call keeps -/

/-- The job waits and was never retried. -/
def Fresh (job : ReplicationJob) : Prop := job.status = .pending ∧ job.retryCount = 0

/-- The first of two waiting jobs has no smaller priority. -/
def ByPriority (x y : NumberedJob) : Prop :=
  x.job.status = .pending → y.job.status = .pending →
    y.job.request.priority ≤ x.job.request.priority

/-- A fresh job stands behind no job of its priority that was queued later. -/
def InTurn (x y : NumberedJob) : Prop :=
  Fresh y.job → x.job.request.priority = y.job.request.priority → x.number < y.number

/-- What holds of the list between two calls. -/
structure Ordered (q : NumberedQueue) : Prop where
  byPriority : q.jobs.Pairwise ByPriority
  inTurn : q.jobs.Pairwise InTurn
  counted : ∀ n ∈ q.jobs, n.number < q.next

theorem byPriority_of_precedes {x y : NumberedJob} (h : Precedes x y) : ByPriority x y := by
  intro hx hy
  have hrank := precedes_iff.mp h
  unfold rank at hrank
  rw [if_pos hx, if_pos hy] at hrank
  exact UInt32.le_iff_toNat_le.mpr (by omega)

/-- A job that overtakes a fresh one has a higher priority. -/
theorem inTurn_swap {x y : NumberedJob} (h : ¬ Precedes x y) : InTurn y x := by
  intro hx heq
  have hrank := mt precedes_iff.mpr h
  have hlt := y.job.request.priority.toNat_lt
  unfold rank at hrank
  rw [if_pos hx.1, heq] at hrank
  split at hrank <;> omega

/-- Sorting makes the order by priority and keeps the turns. -/
theorem ordered_prioritizeJobs {q : NumberedQueue} (hturn : q.jobs.Pairwise InTurn)
    (hcount : ∀ n ∈ q.jobs, n.number < q.next) : Ordered q.prioritizeJobs where
  byPriority := (pairwise_precedes q).imp byPriority_of_precedes
  inTurn := pairwise_insertionSort_of (r := Precedes) (fun _ _ _ => inTurn_swap) hturn
  counted := fun n hn => hcount n ((List.mem_insertionSort Precedes).mp hn)

/-- A job changed where it stands: it keeps its number and its request, and comes to
wait only if it did before, unchanged. -/
def Settled (new old : NumberedJob) : Prop :=
  new.number = old.number ∧ new.job.request = old.job.request ∧
    (new.job.status = .pending → new.job = old.job)

theorem settled_self (n : NumberedJob) : Settled n n := ⟨Eq.refl _, Eq.refl _, fun _ => Eq.refl _⟩

/-- Jobs that are not left waiting change nothing in the order of the others. -/
theorem Ordered.of_settled {q : NumberedQueue} (h : Ordered q) {jobs : List NumberedJob}
    (hchange : List.Forall₂ Settled jobs q.jobs) : Ordered { q with jobs } where
  byPriority := by
    refine pairwise_of_forall₂ ?_ hchange h.byPriority
    rintro x' x y' y hx hy hxy hx' hy'
    rw [hx.2.2 hx', hy.2.2 hy']
    exact hxy (hx.2.2 hx' ▸ hx') (hy.2.2 hy' ▸ hy')
  inTurn := by
    refine pairwise_of_forall₂ ?_ hchange h.inTurn
    rintro x' x y' y hx hy hxy hy' heq
    rw [hx.1, hy.1]
    rw [hx.2.1, hy.2.1] at heq
    exact hxy (hy.2.2 hy'.1 ▸ hy') heq
  counted := by
    intro n hn
    obtain ⟨i, hi, rfl⟩ := List.mem_iff_getElem.mp hn
    have hlen := hchange.length_eq
    have hold : i < q.jobs.length := by
      rw [← hlen]
      exact hi
    have hnumber : jobs[i].number = q.jobs[i].number := (hchange.get hi hold).1
    show jobs[i].number < q.next
    rw [hnumber]
    exact h.counted _ (List.getElem_mem hold)

theorem ordered_requestReplication {q : NumberedQueue} (h : Ordered q)
    (request : ReplicationRequest) : Ordered (q.call (.requestReplication request)) := by
  show Ordered (ite _ _ _)
  split
  · exact h
  · refine ordered_prioritizeJobs (List.pairwise_append.mpr ⟨h.inTurn, ?_, ?_⟩) ?_
    · exact List.pairwise_singleton _ _
    · -- the new job is queued after all that are there
      intro n hn new hnew _ _
      cases List.mem_singleton.mp hnew
      exact h.counted n hn
    · intro n hn
      rcases List.mem_append.mp hn with hold | hnew
      · exact Nat.lt_succ_of_lt (h.counted n hold)
      · cases List.mem_singleton.mp hnew
        exact Nat.lt_succ_self q.next

theorem ordered_cancelReplication {q : NumberedQueue} (h : Ordered q) (networkId : NetworkID)
    (targetNode : NodeID) : Ordered (q.call (.cancelReplication networkId targetNode)) := by
  refine h.of_settled (List.forall₂_map_left_iff.mpr (List.forall₂_same.mpr fun n _ => ?_))
  unfold NumberedJob.map Settled
  dsimp only
  split
  · exact ⟨rfl, rfl, fun hpending => nomatch hpending⟩
  · exact ⟨rfl, rfl, fun _ => rfl⟩

theorem ordered_markJobStarted {q : NumberedQueue} (h : Ordered q) (request : ReplicationRequest)
    (ticks : UInt64) : Ordered (q.call (.markJobStarted request ticks)) := by
  refine h.of_settled (modifyFirst_forall₂ settled_self (fun n _ => ?_) q.jobs)
  exact ⟨rfl, rfl, fun hpending => nomatch hpending⟩

theorem ordered_markJobCompleted {q : NumberedQueue} (h : Ordered q)
    (request : ReplicationRequest) (success : Bool) (error : Text) (ticks : UInt64) :
    Ordered (q.call (.markJobCompleted request success error ticks)) := by
  refine h.of_settled (modifyFirst_forall₂ settled_self (fun n _ => ?_) q.jobs)
  refine ⟨rfl, rfl, fun hpending => ?_⟩
  cases success with
  | true => cases hpending
  | false => cases hpending

/-- A job that has just been put back is not fresh: its count does not wrap, being below
the limit. -/
theorem retryCount_succ_ne_zero {job : ReplicationJob} {maxRetries : UInt32}
    (h : job.isRetryable maxRetries = true) : job.retryCount + 1 ≠ 0 := by
  have hlt := UInt32.lt_iff_toNat_lt.mp (of_decide_eq_true h).2
  have hmax := maxRetries.toNat_lt
  intro hzero
  have hval := congrArg UInt32.toNat hzero
  rw [UInt32.toNat_add, UInt32.toNat_one, Nat.mod_eq_of_lt (by omega)] at hval
  exact Nat.succ_ne_zero _ hval

theorem ordered_retryFailedJobs {q : NumberedQueue} (h : Ordered q) (maxRetries : UInt32) :
    Ordered (q.call (.retryFailedJobs maxRetries)) := by
  refine ordered_prioritizeJobs (List.pairwise_map.mpr (h.inTurn.imp ?_)) ?_
  · intro x y hxy hfresh heq
    unfold NumberedJob.map at hfresh heq ⊢
    dsimp only at hfresh heq ⊢
    have hrequest : ∀ job : ReplicationJob, (if job.isRetryable maxRetries then
        { job with
          status := .pending, retryCount := job.retryCount + 1, errorMessage := Text.ofString "" }
        else job : ReplicationJob).request = job.request := by
      intro job
      split <;> rfl
    rw [hrequest, hrequest] at heq
    split at hfresh
    · rename_i hretryable
      exact absurd hfresh.2 (retryCount_succ_ne_zero hretryable)
    · exact hxy hfresh heq
  · intro n hn
    obtain ⟨m, hm, rfl⟩ := List.mem_map.mp hn
    exact h.counted m hm

/-- Every call keeps the list in order. -/
theorem ordered_call {q : NumberedQueue} (h : Ordered q) (input : ReplicationInput) :
    Ordered (q.call input) := by
  cases input with
  | requestReplication request => exact ordered_requestReplication h request
  | cancelReplication networkId targetNode => exact ordered_cancelReplication h networkId targetNode
  | markJobStarted request ticks => exact ordered_markJobStarted h request ticks
  | markJobCompleted request success error ticks =>
    exact ordered_markJobCompleted h request success error ticks
  | retryFailedJobs maxRetries => exact ordered_retryFailedJobs h maxRetries
  | cleanupOldJobs maxAgeSeconds ticks =>
    exact ⟨h.byPriority.filter _, h.inTurn.filter _, fun n hn =>
      h.counted n (List.mem_of_mem_filter hn)⟩
  | getNextJob => exact h

theorem ordered_run (inputs : List ReplicationInput) :
    Ordered (numberedMachine.run {} inputs).1 := by
  have hstart : Ordered {} := ⟨List.Pairwise.nil, List.Pairwise.nil, fun n hn => nomatch hn⟩
  exact numberedMachine.run_invariant (P := Ordered) (fun _ input h => ordered_call h input)
    hstart inputs

/-! ## The job that is returned -/

/-- The first element that passes a test stands before all others that do. -/
theorem find?_before {α : Type} {R : α → α → Prop} {test : α → Bool} {l : List α} {a b : α}
    (hl : l.Pairwise R) (hfind : l.find? test = some a) (hmem : b ∈ l) (hb : test b = true) :
    b = a ∨ R a b := by
  induction l with
  | nil => cases hfind
  | cons c rest ih =>
    obtain ⟨hc, hrest⟩ := List.pairwise_cons.mp hl
    by_cases htest : test c = true
    · rw [List.find?_cons_of_pos htest] at hfind
      cases hfind
      rcases List.mem_cons.mp hmem with heq | hlater
      · exact .inl heq
      · exact .inr (hc b hlater)
    · rw [List.find?_cons_of_neg htest] at hfind
      rcases List.mem_cons.mp hmem with rfl | hlater
      · exact absurd hb htest
      · exact ih hrest hfind hlater

/-- No job is returned when five run or none waits; the job that is returned waits, no
waiting job has a higher priority, and none of its priority that was never retried was
queued before it. -/
structure NextJob (q : NumberedQueue) : Prop where
  none_iff : q.forget.getNextJob = none ↔
    ReplicationCoordinator.maxConcurrentJobs ≤
        q.forget.jobs.countP (·.status = .inProgress) ∨
      ∀ job ∈ q.forget.jobs, job.status ≠ .pending
  some_first : ∀ job, q.forget.getNextJob = some job → ∃ first ∈ q.jobs,
    first.job = job ∧ job.status = .pending ∧
      ∀ other ∈ q.jobs, other.job.status = .pending →
        other.job.request.priority ≤ job.request.priority ∧
          (other.job.request.priority = job.request.priority → other.job.retryCount = 0 →
            other = first ∨ first.number < other.number)

theorem getNextJob_eq_none_iff (c : ReplicationCoordinator) :
    c.getNextJob = none ↔
      ReplicationCoordinator.maxConcurrentJobs ≤ c.jobs.countP (·.status = .inProgress) ∨
        ∀ job ∈ c.jobs, job.status ≠ .pending := by
  unfold ReplicationCoordinator.getNextJob
  split
  · rename_i hfull
    exact iff_of_true rfl (.inl hfull)
  · rename_i hroom
    rw [List.find?_eq_none]
    simp [hroom]

theorem Ordered.nextJob {q : NumberedQueue} (h : Ordered q) : NextJob q where
  none_iff := getNextJob_eq_none_iff q.forget
  some_first := by
    intro job hjob
    unfold ReplicationCoordinator.getNextJob at hjob
    split at hjob
    · cases hjob
    · rw [NumberedQueue.forget, List.find?_map] at hjob
      obtain ⟨first, hfirst, rfl⟩ := Option.map_eq_some_iff.mp hjob
      have htest := List.find?_some hfirst
      have hpending : first.job.status = .pending := of_decide_eq_true htest
      refine ⟨first, List.mem_of_find?_eq_some hfirst, rfl, hpending, ?_⟩
      intro other hmem hwaits
      have hother : ((fun job : ReplicationJob => decide (job.status = .pending)) ∘
          (·.job)) other = true := decide_eq_true hwaits
      refine ⟨?_, fun heq hnever => ?_⟩
      · rcases find?_before h.byPriority hfirst hmem hother with rfl | hbefore
        · exact UInt32.le_refl _
        · exact hbefore hpending hwaits
      · exact (find?_before h.inTurn hfirst hmem hother).imp id fun hbefore =>
          hbefore ⟨hwaits, hnever⟩ heq.symm

/-- **The next job.** After every run of calls from a new coordinator, its list without
the numbers is the list of the coordinator, and `get_next_job` returns a job exactly when
fewer than five run and one waits; no waiting job has a higher priority than that one, and
of those with the same priority none that was never retried was queued before it. -/
theorem next_job (inputs : List ReplicationInput) :
    (numberedMachine.run {} inputs).1.forget = (replicationMachine.run .initial inputs).1 ∧
      NextJob (numberedMachine.run {} inputs).1 :=
  ⟨forget_run inputs {}, (ordered_run inputs).nextJob⟩

end Cashew.Theorems.JobQueue

import Cashew.Lib.Window
import Cashew.Security.RateLimiter

/-!
# Requests in a window of time

The tokens a bucket would have after a refill are a level that rises with the time and pays
for every request that is allowed; without a bucket the level is the burst size. A bucket
that is dropped has been left alone for two hours, in which 120 times the rate per minute is
refilled, so the level does not notice.
-/

namespace Cashew.Theorems.RateLimits

open Cashew Cashew.Lib Cashew.Lib.Machine

section Level

variable (policy : RateLimitPolicy) (identifier : NodeID)

/-- Tokens in a second. -/
def rate : ℚ := policy.maxRequestsPerMinute / 60

/-- What the bucket has after a refill at a time. -/
def level (l : RateLimiter) (now : Nat) : ℚ :=
  match l.buckets.find? identifier with
  | none => policy.burstSize
  | some bucket =>
    min (bucket.tokens + (now - bucket.lastUpdateTime.toNat) * rate policy) policy.burstSize

/-- A bucket has been filled, not later than now, and never spends what it does not have. -/
structure Sound (l : RateLimiter) (now : Nat) : Prop where
  positive : 0 < now
  policy : l.policy = policy
  filled : ∀ bucket, l.buckets.find? identifier = some bucket →
    bucket.lastUpdateTime ≠ 0 ∧ bucket.lastUpdateTime.toNat ≤ now ∧ 0 ≤ bucket.tokens

variable {policy identifier} {l : RateLimiter} {now : Nat}

theorem rate_nonneg : 0 ≤ rate policy := div_nonneg (Nat.cast_nonneg _) (by norm_num)

theorem Sound.mono {later : Nat} (h : Sound policy identifier l now) (hle : now ≤ later) :
    Sound policy identifier l later where
  positive := h.positive.trans_le hle
  policy := h.policy
  filled bucket hat :=
    let ⟨hused, hbefore, htokens⟩ := h.filled bucket hat
    ⟨hused, hbefore.trans hle, htokens⟩

theorem Sound.level_nonneg (h : Sound policy identifier l now) :
    0 ≤ level policy identifier l now := by
  unfold level
  split
  · exact Nat.cast_nonneg _
  · rename_i bucket hat
    obtain ⟨-, hbefore, htokens⟩ := h.filled bucket hat
    have helapsed : (0 : ℚ) ≤ now - bucket.lastUpdateTime.toNat :=
      sub_nonneg.mpr (Nat.cast_le.mpr hbefore)
    exact le_min (add_nonneg htokens (mul_nonneg helapsed rate_nonneg)) (Nat.cast_nonneg _)

theorem level_le (l : RateLimiter) (now : Nat) :
    level policy identifier l now ≤ policy.burstSize := by
  unfold level
  split
  · exact le_refl _
  · exact min_le_right _ _

/-- The level rises at the rate at most. -/
theorem level_later {later : Nat} (hle : now ≤ later) :
    level policy identifier l later ≤
      level policy identifier l now + rate policy * (later - now) := by
  have hgain : 0 ≤ rate policy * ((later : ℚ) - now) :=
    mul_nonneg rate_nonneg (sub_nonneg.mpr (Nat.cast_le.mpr hle))
  unfold level
  split
  · exact le_add_of_nonneg_right hgain
  · rename_i bucket hat
    rw [← min_add_add_right]
    refine le_min ((min_le_left _ _).trans (le_of_eq ?_))
      ((min_le_right _ _).trans (le_add_of_nonneg_right hgain))
    ring

/-! ## Requests -/

/-- A refill brings the bucket to the level. -/
theorem Sound.refillTokens {time : Time} (h : Sound policy identifier l time.secs.toNat) :
    (l.refillTokens ((l.buckets.find? identifier).getD {}) time.secs).tokens =
        level policy identifier l time.secs.toNat ∧
      (l.refillTokens ((l.buckets.find? identifier).getD {}) time.secs).lastUpdateTime =
        time.secs := by
  unfold RateLimiter.refillTokens level
  rw [h.policy]
  cases hat : l.buckets.find? identifier with
  | none => exact ⟨rfl, rfl⟩
  | some bucket =>
    obtain ⟨hused, hbefore, -⟩ := h.filled bucket hat
    rw [Option.getD_some, if_neg hused]
    refine ⟨?_, rfl⟩
    dsimp only
    rw [UInt64.toNat_sub_of_le _ _ (UInt64.le_iff_toNat_le.mpr hbefore), Nat.cast_sub hbefore]
    rfl

/-- The windows have no part in the tokens. -/
theorem checkWindows_tokens (bucket : TokenBucket) (current : UInt64) :
    (RateLimiter.checkWindows bucket current).tokens = bucket.tokens ∧
      (RateLimiter.checkWindows bucket current).lastUpdateTime = bucket.lastUpdateTime := by
  unfold RateLimiter.checkWindows
  dsimp only
  split <;> split <;> exact ⟨rfl, rfl⟩

/-- A request stores the bucket it has refilled, less a token if it is allowed. -/
theorem allowRequest_cases (l : RateLimiter) (time : Time) (n : NodeID) :
    ∃ bucket, (l.allowRequest time n).1.buckets = l.buckets.insert n bucket ∧
      (l.allowRequest time n).1.policy = l.policy ∧
      bucket.lastUpdateTime =
        (l.refillTokens ((l.buckets.find? n).getD {}) time.secs).lastUpdateTime ∧
      ((l.allowRequest time n).2 = true ∧ 0 ≤ bucket.tokens ∧
          bucket.tokens =
            (l.refillTokens ((l.buckets.find? n).getD {}) time.secs).tokens - 1 ∨
        (l.allowRequest time n).2 = false ∧
          bucket.tokens = (l.refillTokens ((l.buckets.find? n).getD {}) time.secs).tokens) := by
  obtain ⟨htokens, hlast⟩ := checkWindows_tokens
    (l.refillTokens ((l.buckets.find? n).getD {}) time.secs) time.secs
  unfold RateLimiter.allowRequest
  dsimp only
  split
  · exact ⟨_, rfl, rfl, hlast, .inr ⟨rfl, htokens⟩⟩
  · rename_i hallowed
    refine ⟨_, rfl, rfl, hlast, .inl ⟨rfl, ?_, congrArg (· - 1) htokens⟩⟩
    unfold RateLimiter.exceeded at hallowed
    rw [decide_eq_true_iff, not_or, not_or, not_lt] at hallowed
    exact sub_nonneg.mpr hallowed.2.2

/-- A bucket that is brought up to date has the level for its tokens. -/
theorem level_of_updated {l' : RateLimiter} {bucket : TokenBucket} {time : Time}
    (hat : l'.buckets.find? identifier = some bucket) (hlast : bucket.lastUpdateTime = time.secs)
    (hle : bucket.tokens ≤ policy.burstSize) :
    level policy identifier l' time.secs.toNat = bucket.tokens := by
  unfold level
  rw [hat]
  dsimp only
  rw [hlast, sub_self, zero_mul, add_zero, min_eq_left hle]

/-- A request: what is spent was there, and what is left is the level. -/
theorem Sound.allowRequest {time : Time} (h : Sound policy identifier l time.secs.toNat) :
    Sound policy identifier (l.allowRequest time identifier).1 time.secs.toNat ∧
      (if (l.allowRequest time identifier).2 then 1 else 0) +
          level policy identifier (l.allowRequest time identifier).1 time.secs.toNat =
        level policy identifier l time.secs.toNat := by
  obtain ⟨htokens, hlast⟩ := h.refillTokens
  obtain ⟨bucket, hbuckets, hpolicy, hupdated, hspent⟩ := allowRequest_cases l time identifier
  rw [hlast] at hupdated
  rw [htokens] at hspent
  have hat : (l.allowRequest time identifier).1.buckets.find? identifier = some bucket := by
    rw [hbuckets, OrdMap.find?_insert_self]
  have hnonneg := h.level_nonneg
  have hcap : level policy identifier l time.secs.toNat ≤ policy.burstSize := level_le l _
  have htokens : 0 ≤ bucket.tokens ∧ bucket.tokens ≤ policy.burstSize ∧
      (if (l.allowRequest time identifier).2 then 1 else 0) + bucket.tokens =
        level policy identifier l time.secs.toNat := by
    -- a token is spent if there is one
    rcases hspent with ⟨hallowed, hleft, heq⟩ | ⟨hdenied, heq⟩
    · rw [hallowed, heq]
      refine ⟨heq ▸ hleft, by linarith, ?_⟩
      rw [if_pos rfl]
      ring
    · rw [hdenied, heq]
      exact ⟨hnonneg, hcap, zero_add _⟩
  refine ⟨⟨h.positive, hpolicy.trans h.policy, fun bucket' hat' => ?_⟩, ?_⟩
  · rw [hat] at hat'
    cases hat'
    rw [hupdated]
    refine ⟨fun hzero => ?_, Nat.le_refl _, htokens.1⟩
    have hpositive := h.positive
    rw [hzero] at hpositive
    exact absurd hpositive (by decide)
  · rw [level_of_updated hat hupdated htokens.2.1]
    exact htokens.2.2

/-- A request under another identifier. -/
theorem Sound.allowRequest_of_ne (h : Sound policy identifier l now) {time : Time} {n : NodeID}
    (hne : n ≠ identifier) :
    Sound policy identifier (l.allowRequest time n).1 now ∧
      level policy identifier (l.allowRequest time n).1 now = level policy identifier l now := by
  obtain ⟨bucket, hbuckets, hpolicy, -⟩ := allowRequest_cases l time n
  have hat : (l.allowRequest time n).1.buckets.find? identifier = l.buckets.find? identifier := by
    rw [hbuckets, OrdMap.find?_insert, if_neg hne]
  refine ⟨⟨h.positive, hpolicy.trans h.policy, fun bucket' hat' => ?_⟩, ?_⟩
  · exact h.filled bucket' (hat ▸ hat')
  · rw [level, hat, level]

/-! ## Cleanup -/

/-- After two hours a bucket is full again. -/
theorem level_of_stale (hBurst : policy.burstSize ≤ 120 * policy.maxRequestsPerMinute)
    {bucket : TokenBucket} (hat : l.buckets.find? identifier = some bucket)
    (htokens : 0 ≤ bucket.tokens) (hstale : bucket.lastUpdateTime.toNat + 7200 ≤ now) :
    level policy identifier l now = policy.burstSize := by
  have hburst : (policy.burstSize : ℚ) ≤ 120 * policy.maxRequestsPerMinute := by
    exact_mod_cast hBurst
  have helapsed : (7200 : ℚ) ≤ now - bucket.lastUpdateTime.toNat := by
    have hcast : ((bucket.lastUpdateTime.toNat + 7200 : ℕ) : ℚ) ≤ now := Nat.cast_le.mpr hstale
    rw [Nat.cast_add] at hcast
    push_cast at hcast
    linarith
  have hgain : 7200 * rate policy ≤ (now - bucket.lastUpdateTime.toNat) * rate policy :=
    mul_le_mul_of_nonneg_right helapsed rate_nonneg
  have hrate : 7200 * rate policy = 120 * policy.maxRequestsPerMinute := by
    unfold rate
    ring
  unfold level
  rw [hat]
  refine min_eq_right ?_
  linarith

/-- Dropping a bucket does not raise the level. -/
theorem Sound.cleanupStaleEntries
    (hBurst : policy.burstSize ≤ 120 * policy.maxRequestsPerMinute) {time : Time}
    (h : Sound policy identifier l time.secs.toNat) :
    Sound policy identifier (l.cleanupStaleEntries time) time.secs.toNat ∧
      level policy identifier (l.cleanupStaleEntries time) time.secs.toNat =
        level policy identifier l time.secs.toNat := by
  have hfind : (l.cleanupStaleEntries time).buckets.find? identifier =
      (l.buckets.find? identifier).filter
        fun bucket => !(7200 < time.secs - bucket.lastUpdateTime) :=
    OrdMap.find?_filter _ _ _
  cases hat : l.buckets.find? identifier with
  | none =>
    rw [hat, Option.filter_none] at hfind
    refine ⟨⟨h.positive, h.policy, fun bucket hat' => ?_⟩, ?_⟩
    · rw [hfind] at hat'
      cases hat'
    · rw [level, hfind, level, hat]
  | some bucket =>
    obtain ⟨hused, hbefore, htokens⟩ := h.filled bucket hat
    -- two hours fill any bucket, so without it the level is what it was
    by_cases hstale : 7200 < time.secs - bucket.lastUpdateTime
    · rw [hat, Option.filter_some, if_neg (by simp [hstale])] at hfind
      have hlong : bucket.lastUpdateTime.toNat + 7200 ≤ time.secs.toNat := by
        rw [UInt64.lt_iff_toNat_lt,
          UInt64.toNat_sub_of_le _ _ (UInt64.le_iff_toNat_le.mpr hbefore)] at hstale
        have hhours : (7200 : UInt64).toNat = 7200 := rfl
        omega
      refine ⟨⟨h.positive, h.policy, fun bucket' hat' => ?_⟩, ?_⟩
      · rw [hfind] at hat'
        cases hat'
      · rw [level_of_stale hBurst hat htokens hlong, level, hfind]
    · rw [hat, Option.filter_some, if_pos (by simpa using hstale)] at hfind
      refine ⟨⟨h.positive, h.policy, fun bucket' hat' => ?_⟩, ?_⟩
      · rw [hfind] at hat'
        cases hat'
        exact ⟨hused, hbefore, htokens⟩
      · rw [level, hfind, level, hat]

/-! ## Runs -/

/-- What a request adds to the count. -/
theorem countP_allowRequest (l : RateLimiter) (time : Time) (n : NodeID) :
    ((rateMachine.step l (.allowRequest time n)).2.countP
        (fun o => decide (o.identifier = identifier) && o.allowed) : ℚ) =
      if n = identifier then (if (l.allowRequest time n).2 then 1 else 0) else 0 := by
  show (([_] : List RateAnswer).countP _ : ℚ) = _
  rw [List.countP_singleton]
  by_cases hn : n = identifier
  · cases (l.allowRequest time n).2 <;> simp [hn]
  · simp [hn]

/-- The level refills and pays for the requests of the identifier that are allowed. -/
theorem refills (hBurst : policy.burstSize ≤ 120 * policy.maxRequestsPerMinute) :
    rateMachine.Refills RateInput.seconds RateAnswer.seconds
      (fun o => decide (o.identifier = identifier) && o.allowed) (Sound policy identifier)
      (level policy identifier) policy.burstSize (rate policy) where
  rate_nonneg := rate_nonneg
  dated l input o ho := by
    cases input with
    | allowRequest time n =>
      rw [List.mem_singleton.mp ho]
      rfl
    | cleanupStaleEntries time => cases ho
  step l input now h hle := by
    have hnow := h.mono hle
    cases input with
    | allowRequest time n =>
      by_cases hn : n = identifier
      · subst hn
        exact hnow.allowRequest.1
      · exact (hnow.allowRequest_of_ne hn).1
    -- by the bound on the burst a bucket that is dropped was full again
    | cleanupStaleEntries time => exact (hnow.cleanupStaleEntries hBurst).1
  nonneg _ _ h := h.level_nonneg
  le_cap l now _ := level_le l now
  later _ _ _ h hle := ⟨h.mono hle, level_later hle⟩
  pays l input h := by
    cases input with
    | allowRequest time n =>
      by_cases hn : n = identifier
      · subst hn
        have hpaid := h.allowRequest.2
        rw [countP_allowRequest, if_pos rfl]
        exact hpaid.le
      · rw [countP_allowRequest, if_neg hn, zero_add]
        exact (h.allowRequest_of_ne hn).2.le
    | cleanupStaleEntries time =>
      show ((0 : ℕ) : ℚ) + _ ≤ _
      rw [Nat.cast_zero, zero_add]
      exact (Sound.cleanupStaleEntries hBurst h).2.le

end Level

/-- An answer in the window that lets a request of the identifier pass. -/
def passes (identifier : NodeID) (start length : Nat) (o : RateAnswer) : Bool :=
  (decide (o.identifier = identifier) && o.allowed) &&
    decide (start ≤ o.seconds ∧ o.seconds ≤ start + length)

/-- **Token bucket.** Whoever else sends requests and whenever buckets are dropped, the
requests of an identifier that are allowed in a window of so many seconds are no more than
the burst size and the requests per minute for that time. -/
theorem allowed_in_window (policy : RateLimitPolicy)
    (hBurst : policy.burstSize ≤ 120 * policy.maxRequestsPerMinute) (inputs : List RateInput)
    (hPositive : ∀ input ∈ inputs, 0 < input.seconds)
    (hTimes : (inputs.map RateInput.seconds).Pairwise (· ≤ ·)) (identifier : NodeID)
    (start length : Nat) :
    ((rateMachine.run { policy } inputs).2.countP (passes identifier start length) : ℚ) ≤
      policy.burstSize + policy.maxRequestsPerMinute * (length / 60) := by
  have hstart : Sound policy identifier { policy } 1 := ⟨Nat.one_pos, rfl, fun _ hat => nomatch hat⟩
  have hordered : (1 :: inputs.map RateInput.seconds).Pairwise (· ≤ ·) := by
    refine List.pairwise_cons.mpr ⟨fun seconds hseconds => ?_, hTimes⟩
    obtain ⟨input, hinput, rfl⟩ := List.mem_map.mp hseconds
    exact hPositive input hinput
  refine ((refills hBurst).countP_le hstart hordered start length).trans (le_of_eq ?_)
  unfold rate
  ring

/-- Twelve requests in one second, of which ten may pass. -/
theorem burst_of_twelve :
    ((rateMachine.run { policy := {} }
        (List.replicate 12 (.allowRequest sampleTime (sampleNode 1)))).2.countP
      (passes (sampleNode 1) 1200 0) : ℚ) ≤
      (10 : ℕ) + (60 : ℕ) * ((0 : ℕ) / 60) :=
  allowed_in_window {} (by decide) _ (by decide) (by decide) (sampleNode 1) 1200 0

end Cashew.Theorems.RateLimits

import Cashew.Network.Connection

/-!
# Tokens and the limit

Every refill cuts the tokens to the limit, and `set_limit` does not: a lower limit leaves
more tokens than it allows, and the usage computed from them wraps around.
`tokens_bounded_iff` has the runs in which the tokens stay below the limit.
-/

namespace Cashew.Theorems.BandwidthLimiter

open Cashew Cashew.Lib

/-- No more tokens than the limit allows, and a usage that is none above it. -/
structure Bounded (l : BandwidthLimiter) : Prop where
  tx : l.txTokens ≤ l.bytesPerSecond
  rx : l.rxTokens ≤ l.bytesPerSecond
  sent : l.getBytesSentPerSecond ≤ l.bytesPerSecond
  received : l.getBytesReceivedPerSecond ≤ l.bytesPerSecond

/-- A new limit is no lower than the tokens that are there. -/
def Covers (l : BandwidthLimiter) : BandwidthInput → Prop
  | .setLimit bytesPerSecond => l.txTokens ≤ bytesPerSecond ∧ l.rxTokens ≤ bytesPerSecond
  | _ => True

/-- The usage is in bounds as soon as the tokens are. -/
theorem bounded_iff (l : BandwidthLimiter) :
    Bounded l ↔ l.txTokens ≤ l.bytesPerSecond ∧ l.rxTokens ≤ l.bytesPerSecond := by
  constructor
  · exact fun h => ⟨h.tx, h.rx⟩
  · rintro ⟨htx, hrx⟩
    have hsub : ∀ a b : UInt64, a ≤ b → b - a ≤ b := by
      intro a b hab
      rw [UInt64.le_iff_toNat_le, UInt64.toNat_sub_of_le _ _ hab]
      exact Nat.sub_le _ _
    exact ⟨htx, hrx, hsub _ _ htx, hsub _ _ hrx⟩

theorem min_le_limit (tokens limit : UInt64) : min tokens limit ≤ limit := by
  show ite _ _ _ ≤ _
  split
  · assumption
  · exact UInt64.le_refl limit

theorem bounded_refillTokens {l : BandwidthLimiter} (h : Bounded l) (now : Int) :
    Bounded (l.refillTokens now) := by
  unfold BandwidthLimiter.refillTokens
  dsimp only
  split
  · exact (bounded_iff _).mpr ⟨min_le_limit _ _, min_le_limit _ _⟩
  · exact h

theorem consume_le (tokens bytes : UInt64) : BandwidthLimiter.consume tokens bytes ≤ tokens := by
  unfold BandwidthLimiter.consume
  split
  · rename_i hle
    rw [UInt64.le_iff_toNat_le, UInt64.toNat_sub_of_le _ _ hle]
    exact Nat.sub_le _ _
  · exact UInt64.zero_le

/-- A call keeps the tokens below the limit exactly when it does not lower it below
them. -/
theorem bounded_step_iff {l : BandwidthLimiter} (h : Bounded l) (input : BandwidthInput) :
    Bounded (bandwidthMachine.step l input).1 ↔ Covers l input := by
  cases input with
  | canSend now bytes => exact iff_of_true (bounded_refillTokens h now) trivial
  | canReceive now bytes => exact iff_of_true (bounded_refillTokens h now) trivial
  | recordSent now bytes =>
    have hrefilled := bounded_refillTokens h now
    refine iff_of_true ((bounded_iff _).mpr ⟨?_, hrefilled.rx⟩) trivial
    exact UInt64.le_trans (consume_le _ _) hrefilled.tx
  | recordReceived now bytes =>
    have hrefilled := bounded_refillTokens h now
    refine iff_of_true ((bounded_iff _).mpr ⟨hrefilled.tx, ?_⟩) trivial
    exact UInt64.le_trans (consume_le _ _) hrefilled.rx
  | setLimit bytesPerSecond => exact bounded_iff _

/-- **Tokens and limit.** In a run of a new limiter, at any times, the tokens and the usage
stay within the limit in every state exactly when no call sets a limit below the tokens of
the moment. -/
theorem tokens_bounded_iff (bytesPerSecond : UInt64) (now : Int) (inputs : List BandwidthInput) :
    bandwidthMachine.Always Bounded (.create bytesPerSecond now) inputs ↔
      bandwidthMachine.StepsMeet Covers (.create bytesPerSecond now) inputs := by
  have hstart : Bounded (.create bytesPerSecond now) :=
    (bounded_iff _).mpr ⟨UInt64.le_refl _, UInt64.le_refl _⟩
  exact bandwidthMachine.always_iff (P := fun _ => True) (Q := Bounded) (fun _ _ _ => trivial)
    (fun _ input _ h => bounded_step_iff h input) trivial hstart inputs

/-- With a limit of 100 lowered to 10 the usage is 2 ^ 64 - 90 bytes a second. -/
theorem lowered_limit_wraps :
    ¬ bandwidthMachine.Always Bounded (.create 100 0) [.setLimit 10] ∧
      ((BandwidthLimiter.create 100 0).setLimit 10).getBytesSentPerSecond =
        18446744073709551526 := by
  refine ⟨?_, rfl⟩
  rintro ⟨-, hbounded⟩
  exact absurd hbounded.tx (by decide)

end Cashew.Theorems.BandwidthLimiter

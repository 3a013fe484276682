import Cashew.Lib.Machine

/-!
# Windows of time

A machine whose inputs have times and whose outputs are dated. A level that refills at a
constant rate up to a cap, and pays for the outputs that count, bounds how many of them fall
into a window of time (`Refills.countP_le`): the cap, and what is refilled meanwhile.
-/

namespace Cashew.Lib

namespace Machine

variable {σ ι ω : Type} (m : Machine σ ι ω)

/-- The outputs of a step are dated by its input; under an invariant that says how far time
has come, the level stays between zero and the cap, rises at the rate at most, and pays for
the outputs that count. -/
structure Refills (time : ι → Nat) (date : ω → Nat) (paid : ω → Bool) (P : σ → Nat → Prop)
    (level : σ → Nat → ℚ) (cap rate : ℚ) : Prop where
  rate_nonneg : 0 ≤ rate
  dated : ∀ s i, ∀ o ∈ (m.step s i).2, date o = time i
  step : ∀ s i t, P s t → t ≤ time i → P (m.step s i).1 (time i)
  nonneg : ∀ s t, P s t → 0 ≤ level s t
  le_cap : ∀ s t, P s t → level s t ≤ cap
  later : ∀ s t now, P s t → t ≤ now → P s now ∧ level s now ≤ level s t + rate * (now - t)
  pays : ∀ s i, P s (time i) →
    ((m.step s i).2.countP paid : ℚ) + level (m.step s i).1 (time i) ≤ level s (time i)

/-- An output that counts is dated in the window. -/
def within (date : ω → Nat) (paid : ω → Bool) (first last : Nat) (o : ω) : Bool :=
  paid o && decide (first ≤ date o ∧ date o ≤ last)

/-- What the window still allows: the cap and all that is refilled, if it has not begun. -/
def allowance (level : σ → Nat → ℚ) (cap rate : ℚ) (first last : Nat) (s : σ) (t : Nat) : ℚ :=
  if t < first then cap + rate * (last - first) else level s t + rate * (last - t)

namespace Refills

variable {m} {time : ι → Nat} {date : ω → Nat} {paid : ω → Bool} {P : σ → Nat → Prop}
  {level : σ → Nat → ℚ} {cap rate : ℚ} (h : m.Refills time date paid P level cap rate)
include h

/-- Nothing counts behind the end of the window. -/
theorem countP_within_of_outside {first last : Nat} (s : σ) {inputs : List ι}
    (hout : ∀ i ∈ inputs, last < time i) :
    (m.run s inputs).2.countP (within date paid first last) = 0 := by
  induction inputs generalizing s with
  | nil => rfl
  | cons i rest ih =>
    have hlater := ih (m.step s i).1 fun j hj => hout j (List.mem_cons_of_mem i hj)
    rw [run, List.countP_append, hlater, Nat.add_zero, List.countP_eq_zero]
    intro o ho hwithin
    have hi := hout i List.mem_cons_self
    rw [within, Bool.and_eq_true, decide_eq_true_eq, h.dated s i o ho] at hwithin
    omega

/-- Nor before its beginning. -/
theorem countP_within_of_before {first last : Nat} (s : σ) {i : ι} (hearly : time i < first) :
    (m.step s i).2.countP (within date paid first last) = 0 := by
  rw [List.countP_eq_zero]
  intro o ho hwithin
  rw [within, Bool.and_eq_true, decide_eq_true_eq, h.dated s i o ho] at hwithin
  omega

/-- What a step pays for in the window fits into its level. -/
theorem countP_within_le (first last : Nat) {s : σ} {i : ι} (hP : P s (time i)) :
    ((m.step s i).2.countP (within date paid first last) : ℚ) + level (m.step s i).1 (time i) ≤
      level s (time i) := by
  have hfew : ((m.step s i).2.countP (within date paid first last) : ℚ) ≤
      (m.step s i).2.countP paid := by
    refine Nat.cast_le.mpr (List.countP_mono_left fun o _ hwithin => ?_)
    rw [within, Bool.and_eq_true] at hwithin
    exact hwithin.1
  exact (add_le_add_left hfew _).trans (h.pays s i hP)

theorem allowance_nonneg {first last : Nat} (hwindow : first ≤ last) {s : σ} {t : Nat}
    (hP : P s t) (ht : t ≤ last) : 0 ≤ allowance level cap rate first last s t := by
  have hnonneg := h.nonneg s t hP
  have hcap := h.le_cap s t hP
  have hfirst : (0 : ℚ) ≤ last - first := sub_nonneg.mpr (Nat.cast_le.mpr hwindow)
  have hlast : (0 : ℚ) ≤ last - t := sub_nonneg.mpr (Nat.cast_le.mpr ht)
  unfold allowance
  split
  · exact add_nonneg (hnonneg.trans hcap) (mul_nonneg h.rate_nonneg hfirst)
  · exact add_nonneg hnonneg (mul_nonneg h.rate_nonneg hlast)

/-- In the window, what is left at a time was allowed before. -/
theorem level_add_le_allowance {first now : Nat} (last : Nat) {s : σ} {t : Nat} (hP : P s t)
    (hnow : t ≤ now) (hinside : first ≤ now) :
    level s now + rate * (last - now) ≤ allowance level cap rate first last s t := by
  obtain ⟨hPnow, hlevel⟩ := h.later s t now hP hnow
  unfold allowance
  split
  · -- the window begins between the two times
    have hcap := h.le_cap s now hPnow
    have hrate : rate * ((last : ℚ) - now) ≤ rate * (last - first) :=
      mul_le_mul_of_nonneg_left (sub_le_sub_left (Nat.cast_le.mpr hinside) _) h.rate_nonneg
    exact add_le_add hcap hrate
  · have hsplit : rate * ((last : ℚ) - t) = rate * (now - t) + rate * (last - now) := by ring
    linarith

/-- What counts in the rest of a run is allowed at its start. -/
theorem countP_le_allowance {first last : Nat} (hwindow : first ≤ last) {s : σ} {t : Nat}
    (hP : P s t) (ht : t ≤ last) {inputs : List ι}
    (hTimes : (t :: inputs.map time).Pairwise (· ≤ ·)) :
    ((m.run s inputs).2.countP (within date paid first last) : ℚ) ≤
      allowance level cap rate first last s t := by
  induction inputs generalizing s t with
  | nil => exact (h.allowance_nonneg hwindow hP ht).trans' (by simp [run])
  | cons i rest ih =>
    rw [List.map_cons, List.pairwise_cons] at hTimes
    obtain ⟨hfirst, hrest⟩ := hTimes
    have hnow : t ≤ time i := hfirst _ List.mem_cons_self
    rcases Nat.lt_or_ge last (time i) with hafter | hbefore
    · -- the window is over
      have hout : ∀ j ∈ i :: rest, last < time j := by
        intro j hj
        rcases List.mem_cons.mp hj with rfl | hj
        · exact hafter
        · exact hafter.trans_le ((List.pairwise_cons.mp hrest).1 _ (List.mem_map_of_mem hj))
      rw [h.countP_within_of_outside s hout, Nat.cast_zero]
      exact h.allowance_nonneg hwindow hP ht
    · have hlater := ih (h.step s i t hP hnow) hbefore hrest
      rw [run, List.countP_append, Nat.cast_add]
      rcases Nat.lt_or_ge (time i) first with hearly | hinside
      · -- the window has not begun
        rw [h.countP_within_of_before s hearly, Nat.cast_zero, zero_add]
        rw [allowance, if_pos hearly] at hlater
        rw [allowance, if_pos (hnow.trans_lt hearly)]
        exact hlater
      · rw [allowance, if_neg (Nat.not_lt.mpr hinside)] at hlater
        have hspent := h.countP_within_le first last (h.later s t (time i) hP hnow).1
        have hallowed := h.level_add_le_allowance last hP hnow hinside
        linarith

/-- Outputs that count, in a window of any length. -/
theorem countP_le {s : σ} {t : Nat} (hP : P s t) {inputs : List ι}
    (hTimes : (t :: inputs.map time).Pairwise (· ≤ ·)) (first length : Nat) :
    ((m.run s inputs).2.countP (within date paid first (first + length)) : ℚ) ≤
      cap + rate * length := by
  have hrate := h.rate_nonneg
  have hcap := h.le_cap s t hP
  have hnonneg := h.nonneg s t hP
  have hlength : (0 : ℚ) ≤ rate * length := mul_nonneg hrate (Nat.cast_nonneg length)
  rcases Nat.lt_or_ge (first + length) t with hafter | hbefore
  · have hout : ∀ i ∈ inputs, first + length < time i := fun i hi =>
      hafter.trans_le ((List.pairwise_cons.mp hTimes).1 _ (List.mem_map_of_mem hi))
    rw [h.countP_within_of_outside s hout, Nat.cast_zero]
    linarith
  · refine (h.countP_le_allowance (Nat.le_add_right first length) hP hbefore hTimes).trans ?_
    rw [allowance, Nat.cast_add]
    split
    · rw [add_sub_cancel_left]
    · rename_i hstarted
      have hle : rate * ((first : ℚ) + length - t) ≤ rate * length := by
        refine mul_le_mul_of_nonneg_left ?_ hrate
        have hstart : (first : ℚ) ≤ t := Nat.cast_le.mpr (Nat.le_of_not_lt hstarted)
        linarith
      linarith

end Refills

end Machine

end Cashew.Lib

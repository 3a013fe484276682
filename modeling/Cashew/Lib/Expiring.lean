import Cashew.Lib.OrdMap

/-!
# Stores whose entries expire

A map whose values have a deadline. Entries that are over may still lie in it or not: when
they are dropped is up to the program. What counts is what the map shows from some moment on
(`live`), and that is what was last written (`Tracks`), as long as nothing is dropped before
its deadline.
-/

namespace Cashew.Lib.Expiring

variable {K V T : Type} [LinearOrder K] [LinearOrder T] {deadline : V → T}

/-- The entry of a key, if its deadline is still ahead. -/
def live (deadline : V → T) (now : T) (m : OrdMap K V) (k : K) : Option V :=
  (m.find? k).filter fun v => decide (now < deadline v)

/-- What was last written under a key; a deletion writes `none`. -/
def lastWrite (journal : List (K × Option V)) (k : K) : Option V :=
  journal.foldl (fun found entry => if entry.1 = k then entry.2 else found) none

theorem lastWrite_concat (journal : List (K × Option V)) (k : K) (written : Option V) (j : K) :
    lastWrite (journal ++ [(k, written)]) j = if k = j then written else lastWrite journal j := by
  unfold lastWrite
  rw [List.foldl_append]
  rfl

/-- From the moment on the map shows what was last written and is not over. -/
def Tracks (deadline : V → T) (moment : T) (m : OrdMap K V) (journal : List (K × Option V)) :
    Prop :=
  ∀ now, moment ≤ now → ∀ k,
    live deadline now m k = (lastWrite journal k).filter fun v => decide (now < deadline v)

namespace Tracks

variable {moment moment' : T} {m m' : OrdMap K V} {journal : List (K × Option V)}

theorem empty (deadline : V → T) (moment : T) :
    Tracks deadline moment (OrdMap.empty : OrdMap K V) [] := fun _ _ _ => rfl

theorem later (h : Tracks deadline moment m journal) (hle : moment ≤ moment') :
    Tracks deadline moment' m journal := fun now hnow => h now (hle.trans hnow)

theorem insert (h : Tracks deadline moment m journal) (k : K) (v : V) :
    Tracks deadline moment (m.insert k v) (journal ++ [(k, some v)]) := by
  intro now hnow j
  unfold live
  rw [lastWrite_concat, OrdMap.find?_insert]
  split
  · rfl
  · exact h now hnow j

theorem erase (h : Tracks deadline moment m journal) (k : K) :
    Tracks deadline moment (m.erase k) (journal ++ [(k, none)]) := by
  intro now hnow j
  unfold live
  rw [lastWrite_concat, OrdMap.find?_erase]
  split
  · rfl
  · exact h now hnow j

/-- Entries that are over may go. -/
theorem drop (h : Tracks deadline moment m journal)
    (hdrop : ∀ k, m'.find? k = m.find? k ∨
      m'.find? k = none ∧ ∀ v, m.find? k = some v → deadline v ≤ moment) :
    Tracks deadline moment m' journal := by
  intro now hnow k
  rw [← h now hnow k]
  unfold live
  rcases hdrop k with hsame | ⟨hnone, hover⟩
  · rw [hsame]
  · rw [hnone]
    cases hfind : m.find? k with
    | none => rfl
    | some v =>
      have hover : ¬ now < deadline v := not_lt.mpr ((hover v hfind).trans hnow)
      simp [Option.filter, hover]

end Tracks

end Cashew.Lib.Expiring

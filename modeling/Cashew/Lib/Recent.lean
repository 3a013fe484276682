import Mathlib

/-!
# Bounded lists of recent entries

A list that takes new entries at its end and drops its oldest one when it is
full. `Recent P k l` says that some entry of `l` satisfies `P` and at most `k`
entries have come after it: what that entry stands for is remembered until the
bound is used up by later entries, however full the list was before.
-/

namespace Cashew.Lib

variable {α : Type}

/-- Append an entry; a list of `capacity` entries or more loses its first one. -/
def pushRecent (capacity : Nat) (e : α) (l : List α) : List α :=
  (if capacity ≤ l.length then l.tail else l) ++ [e]

/-- An entry with `P` is among the last `k + 1` ones. -/
def Recent (P : α → Prop) (k : Nat) (l : List α) : Prop :=
  ∃ front e back, l = front ++ e :: back ∧ P e ∧ back.length ≤ k

namespace Recent

variable {P Q : α → Prop} {k n capacity : Nat} {l : List α}

theorem exists_mem (h : Recent P k l) : ∃ e ∈ l, P e := by
  obtain ⟨front, e, back, rfl, he, _⟩ := h
  exact ⟨e, by simp, he⟩

theorem mono (h : Recent P k l) (himp : ∀ e, P e → Q e) (hle : k ≤ n) : Recent Q n l := by
  obtain ⟨front, e, back, hl, he, hback⟩ := h
  exact ⟨front, e, back, hl, himp e he, by omega⟩

theorem push_self {e : α} (he : P e) : Recent P k (pushRecent capacity e l) :=
  ⟨_, e, [], rfl, he, Nat.zero_le k⟩

/-- An entry survives a push that finds room, or that finds fewer than
`capacity - 1` entries after it. -/
theorem push (h : Recent P k l) (hroom : l.length < capacity ∨ k + 1 < capacity) (e : α) :
    Recent P (k + 1) (pushRecent capacity e l) := by
  obtain ⟨front, kept, back, rfl, hkept, hback⟩ := h
  unfold pushRecent
  split
  · rename_i hfull
    cases front with
    | nil =>
      -- the entry itself would have to be the oldest of a full list
      simp at hfull hroom
      omega
    | cons first front => exact ⟨front, kept, back ++ [e], by simp, hkept, by simp; omega⟩
  · exact ⟨front, kept, back ++ [e], by simp, hkept, by simp; omega⟩

theorem filter (h : Recent P k l) {q : α → Bool} (hq : ∀ e, P e → q e = true) :
    Recent P k (l.filter q) := by
  obtain ⟨front, e, back, rfl, he, hback⟩ := h
  refine ⟨front.filter q, e, back.filter q, by simp [hq e he], he, ?_⟩
  exact le_trans (List.length_filter_le q back) hback

end Recent

end Cashew.Lib

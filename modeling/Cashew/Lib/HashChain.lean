import Mathlib

/-!
# Append-only hash chains

The mathematics of a hash-linked log, over arbitrary entries `E` and digests
`D`: every entry names the digest of its predecessor, the first one names a
fixed `genesis` digest. `tip` is the digest the next entry has to name.

The chain commits to its history: where the digest does not collide on the
entries at hand and never yields the genesis value, two linked logs with the
same tip are the same log (`Linked.eq_of_tip_eq`), whatever their lengths.
-/

namespace Cashew.Lib.HashChain

variable {E D : Type}

/-- How entries are linked. -/
structure Links (E D : Type) where
  genesis : D
  prev : E → D
  digest : E → D

/-- The digest the next entry must name. -/
def Links.tip (k : Links E D) (log : List E) : D :=
  match log.getLast? with
  | none => k.genesis
  | some e => k.digest e

/-- Each entry names the tip of the log before it. -/
inductive Links.Linked (k : Links E D) : List E → Prop
  | nil : Linked k []
  | snoc {log : List E} {e : E} : Linked k log → k.prev e = k.tip log → Linked k (log ++ [e])

namespace Links

variable {k : Links E D}

@[simp] theorem tip_nil : k.tip [] = k.genesis := rfl

@[simp] theorem tip_snoc (log : List E) (e : E) : k.tip (log ++ [e]) = k.digest e := by
  simp [tip]

/-- A linked log with a last entry is that entry on top of a linked log whose
tip it names. -/
theorem Linked.snoc_inv {log : List E} {e : E} (h : k.Linked (log ++ [e])) :
    k.Linked log ∧ k.prev e = k.tip log := by
  generalize hwhole : log ++ [e] = whole at h
  cases h with
  | nil => simp at hwhole
  | snoc hlog hprev =>
    obtain ⟨rfl, heq⟩ := List.append_inj' hwhole rfl
    cases heq
    exact ⟨hlog, hprev⟩

/-- Every prefix of a linked log is linked. -/
theorem Linked.mono {log front : List E} (h : k.Linked log) (hpre : front <+: log) :
    k.Linked front := by
  induction h with
  | nil => rw [List.prefix_nil.mp hpre]; exact .nil
  | snoc hlog hprev ih =>
    rcases List.prefix_concat_iff.mp hpre with heq | hpre
    · rw [heq]; exact .snoc hlog hprev
    · exact ih hpre

/-- The entry behind a prefix of a linked log names the prefix's tip. -/
theorem Linked.prev_eq_tip {front back : List E} {e : E}
    (h : k.Linked (front ++ e :: back)) : k.prev e = k.tip front := by
  have hpre : front ++ [e] <+: front ++ e :: back := ⟨back, by simp⟩
  exact (h.mono hpre).snoc_inv.2

/-- Neighbours in a linked log are linked. -/
theorem Linked.isChain {log : List E} (h : k.Linked log) :
    log.IsChain fun p e => k.prev e = k.digest p := by
  induction h with
  | nil => exact .nil
  | @snoc front e hfront hprev ih =>
    refine List.isChain_append.mpr ⟨ih, List.isChain_singleton e, ?_⟩
    intro p hp e' he'
    cases he'
    rw [hprev, tip, Option.mem_def.mp hp]

/-- The first entry names the genesis digest. -/
theorem Linked.head_prev {log : List E} (h : k.Linked log) {e : E}
    (he : log.head? = some e) : k.prev e = k.genesis := by
  cases log with
  | nil => cases he
  | cons a back =>
    cases he
    have hsplit : k.Linked ([] ++ e :: back) := h
    exact hsplit.prev_eq_tip

/-- **Commitment.** Without collisions among the entries of the two logs, and
with no entry hashing to the genesis digest, equal tips mean equal logs. -/
theorem Linked.eq_of_tip_eq {log₁ log₂ : List E} (h₁ : k.Linked log₁) (h₂ : k.Linked log₂)
    (hinj : ∀ e₁ ∈ log₁, ∀ e₂ ∈ log₂, k.digest e₁ = k.digest e₂ → e₁ = e₂)
    (hgen₁ : ∀ e ∈ log₁, k.digest e ≠ k.genesis) (hgen₂ : ∀ e ∈ log₂, k.digest e ≠ k.genesis)
    (htip : k.tip log₁ = k.tip log₂) : log₁ = log₂ := by
  induction h₁ generalizing log₂ with
  | nil =>
    cases h₂ with
    | nil => rfl
    | snoc _ _ =>
      rw [tip_nil, tip_snoc] at htip
      exact absurd htip.symm (hgen₂ _ (by simp))
  | @snoc front₁ e₁ _ hprev₁ ih =>
    cases h₂ with
    | nil =>
      rw [tip_nil, tip_snoc] at htip
      exact absurd htip (hgen₁ _ (by simp))
    | @snoc front₂ e₂ hfront₂ hprev₂ =>
      rw [tip_snoc, tip_snoc] at htip
      have heq : e₁ = e₂ := hinj e₁ (by simp) e₂ (by simp) htip
      subst heq
      -- the shared last entry names both predecessors' tips
      have hfronts : front₁ = front₂ := by
        refine ih hfront₂ ?_ ?_ ?_ (hprev₁.symm.trans hprev₂)
        · intro a ha b hb
          exact hinj a (by simp [ha]) b (by simp [hb])
        · intro a ha
          exact hgen₁ a (by simp [ha])
        · intro b hb
          exact hgen₂ b (by simp [hb])
      rw [hfronts]

end Links

end Cashew.Lib.HashChain

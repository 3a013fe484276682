import Mathlib

/-!
# Merkle trees

Binary trees over strings `S`, hashed from the leaves up with digests in `D`, and the way
they are made level by level: neighbours are paired, a last one without a neighbour moves
up as it is (`pairUp`), until one is left (`climb`).

The root commits to the tree where the digest does not collide on the strings that were
hashed and no leaf can be taken for a pair of digests (`eq_of_root_eq`). Without the second
condition it does not: the string hashed for an inner node is a leaf with the same root.
-/

namespace Cashew.Lib

/-! ## Levels -/

section Levels

variable {α β : Type}

/-- Neighbours become one. -/
def pairUp (f : α → α → α) : List α → List α
  | a :: b :: rest => f a b :: pairUp f rest
  | rest => rest

/-- Level upon level, as long as there is more than one left. -/
def climb (f : α → α → α) : Nat → List α → List α
  | 0, level => level
  | fuel + 1, level => if 1 < level.length then climb f fuel (pairUp f level) else level

theorem length_pairUp (f : α → α → α) (level : List α) :
    (pairUp f level).length = (level.length + 1) / 2 := by
  fun_induction pairUp f level with
  | case1 a b rest ih =>
    simp only [List.length_cons, ih]
    omega
  | case2 rest hshort =>
    match rest, hshort with
    | [], _ => simp
    | [_], _ => simp
    | a :: b :: rest, hshort => exact absurd rfl (hshort a b rest)

/-- As many rounds as there are entries are enough. -/
theorem length_climb_le_one (f : α → α → α) {fuel : Nat} {level : List α}
    (h : level.length ≤ fuel) : (climb f fuel level).length ≤ 1 := by
  induction fuel generalizing level with
  | zero => exact Nat.le_trans h (Nat.zero_le 1)
  | succ fuel ih =>
    unfold climb
    split
    · refine ih ?_
      rw [length_pairUp]
      omega
    · omega

theorem climb_ne_nil (f : α → α → α) (fuel : Nat) {level : List α} (h : level ≠ []) :
    climb f fuel level ≠ [] := by
  induction fuel generalizing level with
  | zero => exact h
  | succ fuel ih =>
    unfold climb
    split
    · refine ih fun hnil => ?_
      have hlength := length_pairUp f level
      rw [hnil, List.length_nil] at hlength
      omega
    · exact h

/-- A level of one kind of entries that mirrors one of another. -/
theorem pairUp_forall₂ {R : α → β → Prop} {f : α → α → α} {g : β → β → β}
    (hstep : ∀ a a' b b', R a b → R a' b' → R (f a a') (g b b')) {level : List α}
    {level' : List β} (h : List.Forall₂ R level level') :
    List.Forall₂ R (pairUp f level) (pairUp g level') := by
  fun_induction pairUp f level generalizing level' with
  | case1 a a' rest ih =>
    cases h with
    | cons hfirst h =>
      cases h with
      | cons hsecond h => exact .cons (hstep _ _ _ _ hfirst hsecond) (ih h)
  | case2 rest hshort =>
    match rest, level', h with
    | [], [], _ => exact .nil
    | [a], [b], h => exact h
    | a :: a' :: rest, _, _ => exact absurd rfl (hshort a a' rest)

theorem climb_forall₂ {R : α → β → Prop} {f : α → α → α} {g : β → β → β}
    (hstep : ∀ a a' b b', R a b → R a' b' → R (f a a') (g b b')) (fuel : Nat) {level : List α}
    {level' : List β} (h : List.Forall₂ R level level') :
    List.Forall₂ R (climb f fuel level) (climb g fuel level') := by
  induction fuel generalizing level level' with
  | zero => exact h
  | succ fuel ih =>
    unfold climb
    rw [h.length_eq]
    split
    · exact ih (pairUp_forall₂ hstep h)
    · exact h

end Levels

/-! ## Trees -/

/-- A tree with strings at its leaves. -/
inductive MerkleTree (S : Type) where
  | leaf (s : S)
  | node (left right : MerkleTree S)

namespace MerkleTree

variable {S D : Type}

/-- How trees are hashed: the digest of a string, and the string that stands for two
digests. -/
structure Hashing (S D : Type) where
  digest : S → D
  combine : D → D → S

def leaves : MerkleTree S → List S
  | leaf s => [s]
  | node left right => left.leaves ++ right.leaves

def root (k : Hashing S D) : MerkleTree S → D
  | leaf s => k.digest s
  | node left right => k.digest (k.combine (left.root k) (right.root k))

/-- The strings that are hashed on the way to the root. -/
def inputs (k : Hashing S D) : MerkleTree S → List S
  | leaf s => [s]
  | node left right =>
    k.combine (left.root k) (right.root k) :: (left.inputs k ++ right.inputs k)

/-- The string whose digest is the root. -/
def topInput (k : Hashing S D) : MerkleTree S → S
  | leaf s => s
  | node left right => k.combine (left.root k) (right.root k)

theorem root_eq_digest (k : Hashing S D) (t : MerkleTree S) :
    t.root k = k.digest (t.topInput k) := by
  cases t <;> rfl

theorem topInput_mem_inputs (k : Hashing S D) (t : MerkleTree S) :
    t.topInput k ∈ t.inputs k := by
  cases t with
  | leaf s => exact List.mem_singleton_self s
  | node left right => exact List.mem_cons_self

/-- Pairing keeps the leaves in their order. -/
theorem flatMap_leaves_pairUp (level : List (MerkleTree S)) :
    (pairUp node level).flatMap leaves = level.flatMap leaves := by
  fun_induction pairUp node level with
  | case1 left right rest ih =>
    simp only [List.flatMap_cons, ih, leaves, List.append_assoc]
  | case2 rest _ => rfl

theorem flatMap_leaves_climb (fuel : Nat) (level : List (MerkleTree S)) :
    (climb node fuel level).flatMap leaves = level.flatMap leaves := by
  induction fuel generalizing level with
  | zero => rfl
  | succ fuel ih =>
    unfold climb
    split
    · rw [ih, flatMap_leaves_pairUp]
    · rfl

/-- Two digests are found again in the string that stands for them. -/
def Hashing.Separates (k : Hashing S D) : Prop :=
  ∀ a b a' b', k.combine a b = k.combine a' b' → a = a' ∧ b = b'

/-- Equal roots are digests of equal strings. -/
theorem topInput_eq {k : Hashing S D} {t t' : MerkleTree S}
    (hinj : Set.InjOn k.digest {s | s ∈ t.inputs k ∨ s ∈ t'.inputs k})
    (h : t.root k = t'.root k) : t.topInput k = t'.topInput k := by
  rw [root_eq_digest, root_eq_digest] at h
  exact hinj (.inl (topInput_mem_inputs k t)) (.inr (topInput_mem_inputs k t')) h

/-- **The root commits to the tree**, if no leaf looks like two digests. -/
theorem eq_of_root_eq {k : Hashing S D} (hseparates : k.Separates) {t t' : MerkleTree S}
    (hinj : Set.InjOn k.digest {s | s ∈ t.inputs k ∨ s ∈ t'.inputs k})
    (hleaves : ∀ s, s ∈ t.leaves ∨ s ∈ t'.leaves → ∀ a b, s ≠ k.combine a b)
    (h : t.root k = t'.root k) : t = t' := by
  induction t generalizing t' with
  | leaf s =>
    have htop := topInput_eq hinj h
    cases t' with
    | leaf s' => exact congrArg leaf htop
    | node left' right' => exact absurd htop (hleaves s (.inl (List.mem_singleton_self s)) _ _)
  | node left right ihl ihr =>
    have htop := topInput_eq hinj h
    cases t' with
    | leaf s' =>
      exact absurd htop.symm (hleaves s' (.inr (List.mem_singleton_self s')) _ _)
    | node left' right' =>
      obtain ⟨hleft, hright⟩ := hseparates _ _ _ _ htop
      have heql : left = left' := by
        refine ihl (hinj.mono fun s hs => hs.imp ?_ ?_) (fun s hs => hleaves s (hs.imp ?_ ?_)) hleft
        · exact fun hs => List.mem_cons_of_mem _ (List.mem_append_left _ hs)
        · exact fun hs => List.mem_cons_of_mem _ (List.mem_append_left _ hs)
        · exact List.mem_append_left _
        · exact List.mem_append_left _
      have heqr : right = right' := by
        refine ihr (hinj.mono fun s hs => hs.imp ?_ ?_) (fun s hs => hleaves s (hs.imp ?_ ?_))
          hright
        · exact fun hs => List.mem_cons_of_mem _ (List.mem_append_right _ hs)
        · exact fun hs => List.mem_cons_of_mem _ (List.mem_append_right _ hs)
        · exact List.mem_append_right _
        · exact List.mem_append_right _
      rw [heql, heqr]

end MerkleTree

end Cashew.Lib

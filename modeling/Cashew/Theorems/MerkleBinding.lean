import Cashew.Security.ContentIntegrity

/-!
# What a Merkle root says about the content

Content that is found to match a root should be the content the root was made from. Leaves
and inner nodes are hashed alike: where a chunk can be as long as two hashes, the string
that was hashed for the root is itself content with that root. With shorter chunks the root
binds the content (`merkle_binds_iff`).
-/

namespace Cashew.Theorems.MerkleBinding

open Cashew Cashew.Lib ContentIntegrityChecker

variable {H : Bytes → Hash256} {content content' : Bytes} {chunkSize : ℕ+}

/-! ## The tree behind the nodes -/

/-- How the checker hashes. -/
def hashing (H : Bytes → Hash256) : MerkleTree.Hashing Bytes Hash256 where
  digest := H
  combine left right := left.bytes ++ right.bytes

/-- The content, chunk by chunk. -/
def chunks (content : Bytes) (chunkSize : ℕ+) : List Bytes :=
  (chunkOffsets content chunkSize).map (chunkAt content chunkSize)

/-- The tree over the chunks. -/
def tree (content : Bytes) (chunkSize : ℕ+) : Option (MerkleTree Bytes) :=
  (climb .node (chunks content chunkSize).length ((chunks content chunkSize).map .leaf)).head?

/-- The strings hashed on the way to the root. -/
def hashed (H : Bytes → Hash256) (content : Bytes) (chunkSize : ℕ+) : List Bytes :=
  ((tree content chunkSize).map (MerkleTree.inputs (hashing H))).getD []

/-- The hash does not collide on the strings hashed for the two contents, and is never all
zero there. -/
structure Sound (H : Bytes → Hash256) (content content' : Bytes) (chunkSize : ℕ+) : Prop where
  injective : Set.InjOn H {s | s ∈ hashed H content chunkSize ∨ s ∈ hashed H content' chunkSize}
  nonzero : ∀ s, s ∈ hashed H content chunkSize ∨ s ∈ hashed H content' chunkSize →
    H s ≠ FixedBytes.zero

/-- With chunks of this size, content that matches a root is the content it was made
from. -/
def Binds (chunkSize : ℕ+) : Prop :=
  ∀ (H : Bytes → Hash256) (content content' : Bytes), Sound H content content' chunkSize →
    verifyMerkleTree H content' (buildMerkleTree H content chunkSize) chunkSize = true →
      content' = content

theorem chunkAt_eq (offset : Nat) :
    chunkAt content chunkSize offset = (content.drop offset).take chunkSize := by
  unfold chunkAt
  rw [← List.length_drop, Nat.min_comm, ← List.take_take]
  refine List.take_of_length_le ?_
  rw [List.length_take]
  exact Nat.min_le_right _ _

theorem length_chunk_le {chunk : Bytes} (h : chunk ∈ chunks content chunkSize) :
    chunk.length ≤ chunkSize := by
  obtain ⟨offset, -, rfl⟩ := List.mem_map.mp h
  rw [chunkAt_eq, List.length_take]
  exact Nat.min_le_left _ _

/-- The first chunks make up the beginning of the content. -/
theorem flatten_chunks_take (count : Nat) :
    (((List.range count).map (· * (chunkSize : Nat))).map (chunkAt content chunkSize)).flatten =
      content.take (count * chunkSize) := by
  induction count with
  | zero => simp
  | succ count ih =>
    rw [List.range_succ, List.map_append, List.map_append, List.flatten_append, ih]
    simp only [List.map_cons, List.map_nil, List.flatten_cons, List.flatten_nil, List.append_nil,
      chunkAt_eq]
    rw [Nat.succ_mul, List.take_add]

/-- All of them make up the whole. -/
theorem flatten_chunks : (chunks content chunkSize).flatten = content := by
  unfold chunks chunkOffsets
  rw [flatten_chunks_take]
  refine List.take_of_length_le ?_
  have hpos : 0 < (chunkSize : Nat) := chunkSize.pos
  have hdiv := Nat.div_add_mod (content.length + chunkSize - 1) chunkSize
  have hmod := Nat.mod_lt (content.length + chunkSize - 1) hpos
  rw [Nat.mul_comm] at hdiv
  omega

/-- The tree's leaves are the chunks, and there is no tree without content. -/
theorem leaves_of_tree {t : MerkleTree Bytes} (h : tree content chunkSize = some t) :
    t.leaves = chunks content chunkSize := by
  have hall := MerkleTree.flatMap_leaves_climb (chunks content chunkSize).length
    ((chunks content chunkSize).map .leaf)
  have hone : climb MerkleTree.node (chunks content chunkSize).length
      ((chunks content chunkSize).map .leaf) = [t] := by
    have hlength : (climb MerkleTree.node (chunks content chunkSize).length
        ((chunks content chunkSize).map .leaf)).length ≤ 1 :=
      length_climb_le_one MerkleTree.node (by rw [List.length_map])
    unfold tree at h
    cases hlevel : climb MerkleTree.node (chunks content chunkSize).length
        ((chunks content chunkSize).map .leaf) with
    | nil =>
      rw [hlevel] at h
      cases h
    | cons first rest =>
      rw [hlevel] at h hlength
      cases h
      cases rest with
      | nil => rfl
      | cons second rest =>
        simp only [List.length_cons] at hlength
        omega
  rw [hone, List.flatMap_singleton] at hall
  rw [hall, List.flatMap_map]
  simp [MerkleTree.leaves]

theorem tree_eq_none_iff : tree content chunkSize = none ↔ content = [] := by
  unfold tree
  rw [List.head?_eq_none_iff]
  constructor
  · intro hnone
    by_contra hcontent
    refine climb_ne_nil MerkleTree.node _ (fun hnil => hcontent ?_) hnone
    rw [List.map_eq_nil_iff] at hnil
    rw [show content = (chunks content chunkSize).flatten from flatten_chunks.symm, hnil]
    rfl
  · rintro rfl
    have hnone : ((chunkSize : Nat) - 1) / chunkSize = 0 :=
      Nat.div_eq_of_lt (Nat.sub_lt chunkSize.pos Nat.one_pos)
    simp [chunks, chunkOffsets, hnone, climb]

/-- The root node has the tree's root. -/
theorem buildMerkleTree_hash :
    (buildMerkleTree H content chunkSize).hash =
      ((tree content chunkSize).map (MerkleTree.root (hashing H))).getD FixedBytes.zero := by
  have hmirror : List.Forall₂ (fun (t : MerkleTree Bytes) (n : MerkleNode) =>
      n.hash = t.root (hashing H))
      (climb .node (chunks content chunkSize).length ((chunks content chunkSize).map .leaf))
      (climb (parentNode H) (chunks content chunkSize).length
        ((chunkOffsets content chunkSize).map (leafNode H content chunkSize))) := by
    refine climb_forall₂ ?_ _ ?_
    · intro left right n n' hleft hright
      show H (n.hash.bytes ++ n'.hash.bytes) = _
      rw [hleft, hright]
      rfl
    · unfold chunks
      rw [List.map_map, List.forall₂_map_left_iff, List.forall₂_map_right_iff]
      exact List.forall₂_same.mpr fun offset _ => rfl
  unfold buildMerkleTree tree
  dsimp only
  have hlength : ((chunkOffsets content chunkSize).map (leafNode H content chunkSize)).length =
      (chunks content chunkSize).length := by
    simp [chunks]
  rw [hlength]
  generalize climb MerkleTree.node (chunks content chunkSize).length
    ((chunks content chunkSize).map .leaf) = level at hmirror ⊢
  generalize climb (parentNode H) (chunks content chunkSize).length
    ((chunkOffsets content chunkSize).map (leafNode H content chunkSize)) = level' at hmirror ⊢
  cases hmirror with
  | nil => rfl
  | cons hfirst _ => exact hfirst

/-! ## Short chunks -/

theorem hashing_separates : (hashing H).Separates := by
  intro a b a' b' h
  obtain ⟨hleft, hright⟩ := List.append_inj h (a.size.trans a'.size.symm)
  exact ⟨FixedBytes.ext hleft, FixedBytes.ext hright⟩

/-- Two hashes are longer than any chunk. -/
theorem leaf_ne_combine (hsize : chunkSize < 64) {t : MerkleTree Bytes}
    (ht : tree content chunkSize = some t) {s : Bytes} (hs : s ∈ t.leaves) (a b : Hash256) :
    s ≠ (hashing H).combine a b := by
  rintro rfl
  rw [leaves_of_tree ht] at hs
  have hle := length_chunk_le hs
  have hlength : (a.bytes ++ b.bytes).length = 64 := by
    rw [List.length_append, a.size, b.size]
  have hlt : (chunkSize : Nat) < 64 := hsize
  simp only [hashing, hlength] at hle
  omega

theorem mem_hashed {t : MerkleTree Bytes} (ht : tree content chunkSize = some t) {s : Bytes} :
    s ∈ hashed H content chunkSize ↔ s ∈ t.inputs (hashing H) := by
  rw [hashed, ht]
  rfl

/-- A tree has no zero root. -/
theorem root_ne_zero {t : MerkleTree Bytes} (ht : tree content chunkSize = some t)
    (hnonzero : ∀ s ∈ hashed H content chunkSize, H s ≠ FixedBytes.zero) :
    t.root (hashing H) ≠ FixedBytes.zero := by
  rw [MerkleTree.root_eq_digest]
  exact hnonzero _ ((mem_hashed ht).mpr (MerkleTree.topInput_mem_inputs _ t))

theorem binds_of_lt (hsize : chunkSize < 64) : Binds chunkSize := by
  intro H content content' hsound hverify
  have hroots : (buildMerkleTree H content' chunkSize).hash =
      (buildMerkleTree H content chunkSize).hash := beq_iff_eq.mp hverify
  rw [buildMerkleTree_hash, buildMerkleTree_hash] at hroots
  cases ht : tree content chunkSize with
  | none =>
    cases ht' : tree content' chunkSize with
    | none => rw [tree_eq_none_iff.mp ht, tree_eq_none_iff.mp ht']
    | some t' =>
      rw [ht, ht'] at hroots
      exact absurd hroots (root_ne_zero ht' fun s hs => hsound.nonzero s (.inr hs))
  | some t =>
    cases ht' : tree content' chunkSize with
    | none =>
      rw [ht, ht'] at hroots
      exact absurd hroots.symm (root_ne_zero ht fun s hs => hsound.nonzero s (.inl hs))
    | some t' =>
      rw [ht, ht'] at hroots
      have hinj := hsound.injective
      simp only [mem_hashed ht, mem_hashed ht'] at hinj
      have hsame : t = t' := by
        refine MerkleTree.eq_of_root_eq hashing_separates hinj ?_ hroots.symm
        rintro s (hs | hs) a b
        · exact leaf_ne_combine hsize ht hs a b
        · exact leaf_ne_combine hsize ht' hs a b
      calc content' = (chunks content' chunkSize).flatten := flatten_chunks.symm
        _ = (chunks content chunkSize).flatten := by
          rw [← leaves_of_tree ht', ← hsame, leaves_of_tree ht]
        _ = content := flatten_chunks

/-! ## Long chunks -/

/-- Content of one chunk. -/
theorem tree_of_short (hne : content ≠ []) (hshort : content.length ≤ chunkSize) :
    tree content chunkSize = some (.leaf content) := by
  have hpos : 0 < content.length := List.length_pos_iff.mpr hne
  have hone : (content.length + chunkSize - 1) / chunkSize = 1 := by
    refine Nat.div_eq_of_lt_le ?_ ?_
    · omega
    · omega
  have hchunk : chunkAt content chunkSize 0 = content := by
    rw [chunkAt_eq, List.drop_zero, List.take_of_length_le hshort]
  simp [tree, chunks, chunkOffsets, hone, hchunk, climb]

/-- Content of more than one chunk has a pair at its root. -/
theorem tree_of_long (hlong : chunkSize < content.length) :
    ∃ left right, tree content chunkSize = some (.node left right) := by
  cases ht : tree content chunkSize with
  | none =>
    rw [tree_eq_none_iff.mp ht, List.length_nil] at hlong
    omega
  | some t =>
    cases t with
    | node left right => exact ⟨left, right, rfl⟩
    | leaf s =>
      have hleaves : [s] = chunks content chunkSize := leaves_of_tree ht
      have hflat : (chunks content chunkSize).flatten = content := flatten_chunks
      have hle : s.length ≤ chunkSize := by
        have hmem : s ∈ chunks content chunkSize := hleaves ▸ List.mem_singleton_self s
        exact length_chunk_le hmem
      rw [← hleaves, List.flatten_singleton] at hflat
      rw [← hflat] at hlong
      omega

/-- Where a chunk can hold two hashes, the string hashed for the root of longer content is
content with the same root. -/
theorem exists_forged (H : Bytes → Hash256) (hsize : 64 ≤ chunkSize)
    (hlong : chunkSize < content.length) :
    ∃ content', content' ≠ content ∧ hashed H content' chunkSize ⊆ hashed H content chunkSize ∧
      verifyMerkleTree H content' (buildMerkleTree H content chunkSize) chunkSize = true := by
  obtain ⟨left, right, ht⟩ := tree_of_long hlong
  have hsize : 64 ≤ (chunkSize : Nat) := hsize
  have hlength : ((left.root (hashing H)).bytes ++ (right.root (hashing H)).bytes).length = 64 := by
    rw [List.length_append, FixedBytes.size, FixedBytes.size]
  have ht' : tree ((left.root (hashing H)).bytes ++ (right.root (hashing H)).bytes) chunkSize =
      some (.leaf ((left.root (hashing H)).bytes ++ (right.root (hashing H)).bytes)) := by
    refine tree_of_short (fun hnil => ?_) (by omega)
    rw [hnil] at hlength
    cases hlength
  refine ⟨(left.root (hashing H)).bytes ++ (right.root (hashing H)).bytes, ?_, ?_, ?_⟩
  · rintro rfl
    omega
  · intro s hs
    rw [mem_hashed ht'] at hs
    rw [mem_hashed ht, List.mem_singleton.mp hs]
    exact List.mem_cons_self
  · unfold verifyMerkleTree
    rw [buildMerkleTree_hash, buildMerkleTree_hash, ht, ht']
    exact beq_self_eq_true _

/-- One byte more than a chunk, all zero. -/
def overlong (chunkSize : ℕ+) : Bytes := List.replicate (chunkSize + 1) 0

/-- A hash that tells apart the strings hashed for it. -/
def overlongHash (chunkSize : ℕ+) (s : Bytes) : Hash256 :=
  if s = [0] then (sampleNode 1).id
  else if s = List.replicate chunkSize 0 then (sampleNode 2).id
  else (sampleNode 3).id

theorem tree_overlong :
    tree (overlong chunkSize) chunkSize =
      some (.node (.leaf (List.replicate chunkSize 0)) (.leaf [0])) := by
  have hpos : 0 < (chunkSize : Nat) := chunkSize.pos
  have hcount : ((chunkSize : Nat) + 1 + chunkSize - 1) / chunkSize = 2 := by
    refine Nat.div_eq_of_lt_le ?_ ?_
    · omega
    · omega
  have hfirst : chunkAt (overlong chunkSize) chunkSize 0 = List.replicate chunkSize 0 := by
    rw [chunkAt_eq, List.drop_zero, overlong, List.take_replicate]
    exact congrArg (List.replicate · 0) (Nat.min_eq_left (Nat.le_succ _))
  have hsecond : chunkAt (overlong chunkSize) chunkSize chunkSize = [0] := by
    rw [chunkAt_eq, overlong, List.drop_replicate, List.take_replicate, Nat.add_sub_cancel_left]
    exact congrArg (List.replicate · 0) (Nat.min_eq_right hpos)
  have hchunks : chunks (overlong chunkSize) chunkSize = [List.replicate chunkSize 0, [0]] := by
    unfold chunks chunkOffsets
    rw [overlong, List.length_replicate, hcount, ← overlong]
    show [chunkAt (overlong chunkSize) chunkSize (0 * chunkSize),
      chunkAt (overlong chunkSize) chunkSize (1 * chunkSize)] = _
    rw [Nat.zero_mul, Nat.one_mul, hfirst, hsecond]
  rw [tree, hchunks]
  rfl

/-- The three strings hashed for it have three hashes. -/
theorem map_hashed_overlong (hsize : 64 ≤ chunkSize) :
    (hashed (overlongHash chunkSize) (overlong chunkSize) chunkSize).map
      (overlongHash chunkSize) = [(sampleNode 3).id, (sampleNode 2).id, (sampleNode 1).id] := by
  have hsize : 64 ≤ (chunkSize : Nat) := hsize
  have hlast : overlongHash chunkSize [0] = (sampleNode 1).id := if_pos rfl
  have hfirst : overlongHash chunkSize (List.replicate chunkSize 0) = (sampleNode 2).id := by
    have hne : List.replicate (chunkSize : Nat) (0 : UInt8) ≠ [0] := by
      intro h
      have hlength := congrArg List.length h
      simp only [List.length_replicate, List.length_singleton] at hlength
      omega
    rw [overlongHash, if_neg hne, if_pos rfl]
  have hpair : overlongHash chunkSize ((sampleNode 2).id.bytes ++ (sampleNode 1).id.bytes) =
      (sampleNode 3).id := by
    have hne : (sampleNode 2).id.bytes ++ (sampleNode 1).id.bytes ≠ [0] := by decide
    have hne' : (sampleNode 2).id.bytes ++ (sampleNode 1).id.bytes ≠
        List.replicate (chunkSize : Nat) 0 := by
      intro h
      have htwo : (2 : UInt8) ∈ List.replicate (chunkSize : Nat) (0 : UInt8) := by
        rw [← h]
        decide
      exact absurd (List.eq_of_mem_replicate htwo) (by decide)
    rw [overlongHash, if_neg hne, if_neg hne']
  rw [hashed, tree_overlong]
  simp only [Option.map_some, Option.getD_some, MerkleTree.inputs, MerkleTree.root, hashing,
    List.map_cons, List.map_nil, List.cons_append, List.nil_append, hfirst,
    hlast, hpair]

theorem not_binds_of_le (hsize : 64 ≤ chunkSize) : ¬ Binds chunkSize := by
  intro hbinds
  have hlong : chunkSize < (overlong chunkSize).length := by
    rw [overlong, List.length_replicate]
    exact Nat.lt_succ_self _
  obtain ⟨forged, hne, hsub, hverify⟩ := exists_forged (overlongHash chunkSize) hsize hlong
  have hmap := map_hashed_overlong hsize
  have hmem : ∀ s, s ∈ hashed (overlongHash chunkSize) (overlong chunkSize) chunkSize ∨
      s ∈ hashed (overlongHash chunkSize) forged chunkSize →
      s ∈ hashed (overlongHash chunkSize) (overlong chunkSize) chunkSize :=
    fun s hs => hs.elim id fun hs => hsub hs
  refine hne (hbinds (overlongHash chunkSize) (overlong chunkSize) forged ⟨?_, ?_⟩ hverify)
  · intro s hs s' hs' h
    have hnodup : ((hashed (overlongHash chunkSize) (overlong chunkSize) chunkSize).map
        (overlongHash chunkSize)).Nodup := by
      rw [hmap]
      decide
    exact List.inj_on_of_nodup_map hnodup (hmem s hs) (hmem s' hs') h
  · intro s hs hzero
    have hlisted := List.mem_map_of_mem (f := overlongHash chunkSize) (hmem s hs)
    rw [hzero, hmap] at hlisted
    exact absurd hlisted (by decide)

/-- **What a root binds.** Matching content is the content the root was made from exactly
for chunks too short to hold two hashes. -/
theorem merkle_binds_iff (chunkSize : ℕ+) : Binds chunkSize ↔ chunkSize < 64 := by
  constructor
  · intro hbinds
    by_contra hlarge
    exact not_binds_of_le (not_lt.mp hlarge) hbinds
  · exact binds_of_lt

/-- The chunk size that is used by default, 64 KB, is far from it. -/
theorem default_chunks_not_bound : ¬ Binds 65536 :=
  not_binds_of_le (by decide)

end Cashew.Theorems.MerkleBinding

import Usdd.Core.CodecLaws
import Usdd.Core.Merkle
/-!
# Merkle proofs over all of a list

The proofs that are made are accepted, and an accepted proof for the true number of leaves is of
the leaf at its index. The number of leaves travels in the proof and is not bound by the root, so
for any other number an accepted proof is of the leaf that its index repeats, which is the leaf
at the index only where the index is a position of the list.
-/
namespace Usdd.Verif

open Usdd.Foundation Usdd.Foundation.SparseTree Usdd.Foundation.PairedTree Usdd.Core

variable [Hashing]

/-- The pairs hashed when a proof is folded. -/
def foldedMerklePairs (proof : MerkleProof) (leaf : Hash32) : Set (Hash32 × Hash32) :=
  {pair | ∃ level < proof.siblings.length,
    pair = climbPair merkleNode leaf proof.leafIndex.toNat
      (fun level => proof.siblings[level]?.getD .zero) level}

/-- The pairs hashed in the tree over a list of leaves. -/
def merklePairs (leaves : List Hash32) : Set (Hash32 × Hash32) :=
  hashedIn merkleNode (merkleLeaves leaves) (depthOf leaves.length)

/-- The node function does not collide on a set of pairs. -/
def MerkleInjectiveOn (pairs : Set (Hash32 × Hash32)) : Prop :=
  Set.InjOn (fun pair : Hash32 × Hash32 => merkleNode pair.1 pair.2) pairs

/-- Proofs are made for every position and accepted; an accepted proof for the true number of
leaves is of the leaf at its index. -/
theorem merkle_proofs_complete_sound :
    (∀ (leaves : List Hash32) (index : Nat) (inside : index < leaves.length),
      leaves.length < 2 ^ 64 → ∃ proof, merkleProof leaves index = .ok proof ∧
        proof.leafIndex.toNat = index ∧ proof.leafCount.toNat = leaves.length ∧
        proof.siblings.length = expectedDepth proof.leafCount ∧
        proof.verify leaves[index] (merkleRoot leaves) = .ok true) ∧
    (∀ (leaves : List Hash32) (proof : MerkleProof) (leaf : Hash32),
      MerkleInjectiveOn (foldedMerklePairs proof leaf ∪ merklePairs leaves) →
      proof.leafCount.toNat = leaves.length →
      proof.verify leaf (merkleRoot leaves) = .ok true →
      ∃ inside : proof.leafIndex.toNat < leaves.length,
        leaf = leaves[proof.leafIndex.toNat]) := by
  constructor
  · intro leaves index inside fits
    have nonempty : leaves ≠ [] := List.length_pos_iff.mp (Nat.zero_lt_of_lt inside)
    have indexed : (UInt64.ofNat index).toNat = index :=
      UInt64.toNat_ofNat_of_lt' (Nat.lt_trans inside fits)
    have counted : (UInt64.ofNat leaves.length).toNat = leaves.length :=
      UInt64.toNat_ofNat_of_lt' fits
    have siblings := proofSiblings_eq leaves index (depthOf_le_self leaves.length)
    have collected : (proofSiblings leaves.length leaves index).length =
        depthOf leaves.length := by
      rw [siblings, siblingsOf_length]
    refine ⟨⟨UInt64.ofNat index, UInt64.ofNat leaves.length,
      proofSiblings leaves.length leaves index⟩, ?_, indexed, counted, ?_, ?_⟩
    · simp only [merkleProof, ↓then_eq_ok, rejectIf_eq_ok, not_le, pure_eq_ok, and_true]
      exact ⟨nonempty, inside⟩
    · rw [expectedDepth_eq, counted]
      exact collected
    · rw [MerkleProof.verify_eq_true, indexed, counted]
      refine ⟨inside, collected, ?_⟩
      have low : index / 2 ^ depthOf leaves.length = 0 :=
        Nat.div_eq_of_lt (Nat.lt_of_lt_of_le inside (le_two_pow_depthOf leaves.length))
      have start : leaves[index] = merkleLeaves leaves index :=
        (repeated_self Hash32.zero (depthOf leaves.length) inside).symm
      have branch : ∀ level < depthOf leaves.length,
          (proofSiblings leaves.length leaves index)[level]?.getD .zero =
            branchOf merkleNode (merkleLeaves leaves) index level := by
        intro level small
        rw [siblings]
        exact siblingsOf_getElem? merkleNode .zero inside small
      rw [collected, climb_congr _ branch, start, climb_branchOf, low, merkleRoot_eq nonempty]
  · intro leaves proof leaf injective counted accepted
    obtain ⟨inside, shape, reaches⟩ := MerkleProof.verify_eq_true.mp accepted
    rw [counted] at inside shape
    have nonempty : leaves ≠ [] := List.length_pos_iff.mp (Nat.zero_lt_of_lt inside)
    have low : proof.leafIndex.toNat < 2 ^ depthOf leaves.length :=
      Nat.lt_of_lt_of_le inside (le_two_pow_depthOf leaves.length)
    have top : proof.leafIndex.toNat / 2 ^ depthOf leaves.length = 0 := Nat.div_eq_of_lt low
    rw [merkleRoot_eq nonempty, shape, ← top] at reaches
    obtain ⟨stored, -⟩ := climb_binding merkleNode injective
      (fun level small => .inl ⟨level, shape ▸ small, rfl⟩)
      (fun level small => .inr (treePair_mem_hashedIn merkleNode _ low small)) reaches
    refine ⟨inside, ?_⟩
    rw [stored]
    exact repeated_self .zero _ inside

/-- The hashes of a tree and of the fold of a proof do not collide across their roles. -/
structure MerkleSeparated (payloads : List (List UInt8)) (payload : List UInt8)
    (proof : MerkleProof) : Prop where
  injective : MerkleInjectiveOn
    (foldedMerklePairs proof (merkleLeaf payload) ∪ merklePairs (payloads.map merkleLeaf))
  nodeNotLeaf : ∀ pair ∈ foldedMerklePairs proof (merkleLeaf payload) ∪
      merklePairs (payloads.map merkleLeaf),
    ∀ data ∈ payload :: payloads, merkleNode pair.1 pair.2 ≠ merkleLeaf data

/-- The position of a list of leaves that an index repeats in the tree over the list. -/
def repeatedPosition (count index : Nat) : Nat := sourceOf (depthOf count) count index

/-- A proof that is accepted, whatever number of leaves it claims, has the depth of the tree and
is of the leaf that its index repeats; one that is accepted for the empty tree shows a collision
with the empty root. -/
theorem accepted_merkle_proof_position {payloads : List (List UInt8)} {payload : List UInt8}
    {proof : MerkleProof} (separated : MerkleSeparated payloads payload proof)
    (accepted : proof.verify (merkleLeaf payload) (merkleRoot (payloads.map merkleLeaf)) =
      .ok true) :
    (payloads ≠ [] →
      proof.siblings.length = depthOf payloads.length ∧
      repeatedPosition payloads.length proof.leafIndex.toNat < payloads.length ∧
      (payloads.map merkleLeaf)[repeatedPosition payloads.length proof.leafIndex.toNat]? =
        some (merkleLeaf payload) ∧
      (proof.leafIndex.toNat < payloads.length →
        repeatedPosition payloads.length proof.leafIndex.toNat = proof.leafIndex.toNat)) ∧
    (payloads = [] → merkleLeaf payload = emptyMerkleRoot ∨
      ∃ pair ∈ foldedMerklePairs proof (merkleLeaf payload),
        merkleNode pair.1 pair.2 = emptyMerkleRoot) := by
  obtain ⟨inside, shape, reaches⟩ := MerkleProof.verify_eq_true.mp accepted
  constructor
  · intro some
    have count : (payloads.map merkleLeaf).length = payloads.length := List.length_map _
    have positive : 0 < payloads.length := List.length_pos_iff.mpr some
    have nonempty : payloads.map merkleLeaf ≠ [] := by
      rw [← List.length_pos_iff, count]
      exact positive
    have low : proof.leafIndex.toNat < 2 ^ proof.siblings.length := by
      rw [shape]
      exact Nat.lt_of_lt_of_le inside (le_two_pow_depthOf _)
    have notLeaf : ∀ pair ∈ foldedMerklePairs proof (merkleLeaf payload) ∪
        merklePairs (payloads.map merkleLeaf),
        ∀ position, merkleNode pair.1 pair.2 ≠
          merkleLeaves (payloads.map merkleLeaf) position := by
      intro pair member position
      have inside := sourceOf_lt (List.length_pos_iff.mpr nonempty)
        (depthOf (payloads.map merkleLeaf).length) position
      rw [merkleLeaves, repeated_eq Hash32.zero inside, List.getElem_map]
      exact separated.nodeNotLeaf pair member _ (List.mem_cons_of_mem _ (List.getElem_mem _))
    rw [merkleRoot_eq nonempty] at reaches
    obtain ⟨depth, stored⟩ := climb_binding_depth merkleNode separated.injective
      (fun level small => .inl ⟨level, small, rfl⟩) Set.subset_union_right
      (fun pair member => separated.nodeNotLeaf pair member payload List.mem_cons_self) notLeaf
      low reaches
    rw [count] at depth
    have source := sourceOf_lt positive (depthOf payloads.length) proof.leafIndex.toNat
    have listed : sourceOf (depthOf (payloads.map merkleLeaf).length)
        (payloads.map merkleLeaf).length proof.leafIndex.toNat <
        (payloads.map merkleLeaf).length := by
      rw [count]
      exact source
    refine ⟨depth, source, ?_, sourceOf_self⟩
    rw [stored, merkleLeaves, repeated_eq Hash32.zero listed, ← List.getElem?_eq_getElem listed]
    simp only [repeatedPosition, count]
  · intro empty
    rw [empty, List.map_nil, merkleRoot, if_pos rfl] at reaches
    cases levels : proof.siblings.length with
    | zero =>
      rw [levels] at reaches
      exact .inl reaches
    | succ below =>
      rw [levels, climb_succ] at reaches
      exact .inr ⟨_, ⟨below, by omega, rfl⟩, reaches⟩

section Sample

/-- Three payloads, whose tree repeats the last leaf. -/
def samplePayloads : List (List UInt8) := [[0], [1], [2]]

/-- The leaves of the payloads. -/
def sampleLeaves : List Hash32 := samplePayloads.map merkleLeaf

/-- A proof of the last leaf at an index, for a number of leaves. -/
def lastLeafProof (index count : UInt64) : MerkleProof :=
  ⟨index, count, [merkleLeaf [2], merkleNode (merkleLeaf [0]) (merkleLeaf [1])]⟩

/-- The pairs hashed in the tree of the payloads. -/
def sampleLayers : List (Hash32 × Hash32) :=
  [(merkleLeaf [0], merkleLeaf [1]), (merkleLeaf [2], merkleLeaf [2]),
    (merkleNode (merkleLeaf [0]) (merkleLeaf [1]), merkleNode (merkleLeaf [2]) (merkleLeaf [2]))]

/-- The proofs at the last position and at its repetition hash pairs of the tree only. -/
theorem sampleLayers_of_mem {index count : UInt64}
    (folded : ∀ level < 2, sampleLayers.contains (climbPair merkleNode (merkleLeaf [2])
      index.toNat (fun level => (lastLeafProof index count).siblings[level]?.getD .zero) level))
    (stored : ∀ height < 2, ∀ position < 2 ^ (2 - height - 1),
      sampleLayers.contains (childPair merkleNode (merkleLeaves sampleLeaves) height position)) :
    ∀ pair ∈ foldedMerklePairs (lastLeafProof index count) (merkleLeaf [2]) ∪
      merklePairs sampleLeaves, sampleLayers.contains pair := by
  intro pair member
  rcases member with climbed | hashed
  · obtain ⟨level, small, rfl⟩ := climbed
    exact folded level small
  · have depth : depthOf 3 = 2 := by decide
    have count : sampleLeaves.length = 3 := rfl
    rw [merklePairs, count, depth] at hashed
    obtain ⟨height, small, position, inside, rfl⟩ := hashed
    exact stored height small position inside

omit [Hashing] in
/-- SHA-256 does not collide in the tree of the payloads, and its roles are apart. -/
theorem sampleLayers_apart : letI := sha256Hashing
    (∀ left ∈ sampleLayers, ∀ right ∈ sampleLayers,
      merkleNode left.1 left.2 = merkleNode right.1 right.2 → left = right) ∧
    (∀ pair ∈ sampleLayers, ∀ data ∈ [2] :: samplePayloads,
      merkleNode pair.1 pair.2 ≠ merkleLeaf data) := by
  decide +kernel

omit [Hashing] in
theorem lastLeafProof_known (index count : UInt64) (bit : index = 2 ∨ index = 3) :
    letI := sha256Hashing
    ∀ pair ∈ foldedMerklePairs (lastLeafProof index count) (merkleLeaf [2]) ∪
      merklePairs sampleLeaves, sampleLayers.contains pair := by
  let := sha256Hashing
  have stored : ∀ height < 2, ∀ position < 2 ^ (2 - height - 1),
      sampleLayers.contains (childPair merkleNode (merkleLeaves sampleLeaves) height position) := by
    decide +kernel
  rcases bit with rfl | rfl
  · refine sampleLayers_of_mem ?_ stored
    change ∀ level < 2, sampleLayers.contains (climbPair merkleNode (merkleLeaf [2]) 2
      (fun level => [merkleLeaf [2],
        merkleNode (merkleLeaf [0]) (merkleLeaf [1])][level]?.getD .zero) level)
    decide +kernel
  · refine sampleLayers_of_mem ?_ stored
    change ∀ level < 2, sampleLayers.contains (climbPair merkleNode (merkleLeaf [2]) 3
      (fun level => [merkleLeaf [2],
        merkleNode (merkleLeaf [0]) (merkleLeaf [1])][level]?.getD .zero) level)
    decide +kernel

omit [Hashing] in
theorem lastLeafProof_injective (index count : UInt64) (bit : index = 2 ∨ index = 3) :
    letI := sha256Hashing
    MerkleInjectiveOn (foldedMerklePairs (lastLeafProof index count) (merkleLeaf [2]) ∪
      merklePairs sampleLeaves) := by
  let := sha256Hashing
  intro left leftHashed right rightHashed same
  have known := lastLeafProof_known index count bit
  exact sampleLayers_apart.1 left (List.contains_iff_mem.mp (known left leftHashed)) right
    (List.contains_iff_mem.mp (known right rightHashed)) same

omit [Hashing] in
/-- The proof of the last leaf, made and accepted. -/
theorem merkle_proofs_complete_sound_sample : letI := sha256Hashing
    (∃ proof, merkleProof sampleLeaves 2 = .ok proof) ∧
      ∃ inside : 2 < sampleLeaves.length, merkleLeaf [2] = sampleLeaves[2] := by
  let := sha256Hashing
  obtain ⟨proof, made, -⟩ := merkle_proofs_complete_sound.1 sampleLeaves 2 (by decide) (by decide)
  have accepted : (lastLeafProof 2 3).verify (merkleLeaf [2]) (merkleRoot sampleLeaves) =
      .ok true := by
    decide +kernel
  exact ⟨⟨proof, made⟩, merkle_proofs_complete_sound.2 sampleLeaves (lastLeafProof 2 3)
    (merkleLeaf [2]) (lastLeafProof_injective 2 3 (.inl rfl)) rfl accepted⟩

omit [Hashing] in
/-- The repetition of the last leaf satisfies what is assumed of the hashes. -/
theorem lastLeafProof_separated : letI := sha256Hashing
    MerkleSeparated samplePayloads [2] (lastLeafProof 3 4) := by
  let := sha256Hashing
  have known := lastLeafProof_known 3 4 (.inr rfl)
  refine ⟨lastLeafProof_injective 3 4 (.inr rfl), ?_⟩
  intro pair member
  exact sampleLayers_apart.2 pair (List.contains_iff_mem.mp (known pair member))

omit [Hashing] in
theorem lastLeafProof_accepted : letI := sha256Hashing
    (lastLeafProof 3 4).verify (merkleLeaf [2]) (merkleRoot (samplePayloads.map merkleLeaf)) =
      .ok true := by
  decide +kernel

omit [Hashing] in
/-- The proof at the repetition of the last leaf is of the last leaf. -/
theorem accepted_merkle_proof_position_sample : letI := sha256Hashing
    (samplePayloads.map merkleLeaf)[2]? = some (merkleLeaf [2]) :=
  let := sha256Hashing
  ((accepted_merkle_proof_position lastLeafProof_separated lastLeafProof_accepted).1
    (by decide)).2.2.1

omit [Hashing] in
/-- A proof that decodes and is accepted names a position past the end of the list. -/
theorem repeated_position_accepted : letI := sha256Hashing
    MerkleSeparated samplePayloads [2] (lastLeafProof 3 4) ∧
    decodeExact MerkleProof (encode (lastLeafProof 3 4)) = .ok (lastLeafProof 3 4) ∧
    (lastLeafProof 3 4).verify (merkleLeaf [2]) (merkleRoot (samplePayloads.map merkleLeaf)) =
      .ok true ∧
    ¬(lastLeafProof 3 4).leafIndex.toNat < samplePayloads.length := by
  let := sha256Hashing
  refine ⟨lastLeafProof_separated, ?_, lastLeafProof_accepted, by decide⟩
  decide +kernel

end Sample

end Usdd.Verif

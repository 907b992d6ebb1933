import Usdd.Foundation.PairedTree
import Usdd.Core.Payloads
/-!
# Merkle trees over all of a list

Leaves, empty trees and nodes are hashed under domains of their own; an odd level pairs its last
node with itself. A proof carries the index and the number of leaves it claims, and the number
determines how many siblings it must have.
-/
namespace Usdd.Core

open Usdd.Foundation Usdd.Foundation.SparseTree Usdd.Foundation.PairedTree

/-- `merkle::MerkleError`. -/
inductive MerkleError where
  | emptyTree
  | indexOutOfRange
  | malformedProof
deriving DecidableEq

/-- `u64::leading_zeros`. -/
def leadingZeros (word : UInt64) : Nat := if word = 0 then 64 else 63 - word.toNat.log2

/-- The number of siblings that `MerkleProof::verify` expects. -/
def expectedDepth (leafCount : UInt64) : Nat :=
  if leafCount ≤ 1 then 0 else 64 - leadingZeros (leafCount - 1)

/-- The number of siblings expected is the number of levels above that many leaves. -/
theorem expectedDepth_eq (leafCount : UInt64) : expectedDepth leafCount = depthOf leafCount.toNat := by
  unfold expectedDepth
  by_cases small : leafCount ≤ 1
  · have count : leafCount.toNat ≤ 1 := small
    rw [if_pos small, depthOf_of_le_one count]
  · have large : 1 < leafCount.toNat := Nat.lt_of_not_le small
    have one : (1 : UInt64) ≤ leafCount := Nat.le_of_lt large
    have before : (leafCount - 1).toNat = leafCount.toNat - 1 := UInt64.toNat_sub_of_le _ _ one
    have nonzero : leafCount - 1 ≠ 0 := by
      intro zero
      rw [zero] at before
      change 0 = _ at before
      omega
    have digits : leafCount.toNat - 1 < 2 ^ 64 := by
      have bound := leafCount.toNat_lt
      omega
    have log : (leafCount.toNat - 1).log2 < 64 := (Nat.log2_lt (by omega)).mpr digits
    rw [if_neg small, leadingZeros, if_neg nonzero, before]
    refine Nat.le_antisymm ?_ ?_
    · have least := le_two_pow_depthOf leafCount.toNat
      have below : (leafCount.toNat - 1).log2 < depthOf leafCount.toNat :=
        (Nat.log2_lt (by omega)).mpr (by omega)
      omega
    · refine depthOf_le ?_
      have bound : leafCount.toNat - 1 < 2 ^ ((leafCount.toNat - 1).log2 + 1) := Nat.lt_log2_self
      rw [show 64 - (63 - (leafCount.toNat - 1).log2) = (leafCount.toNat - 1).log2 + 1 by omega]
      omega

variable [Hashing]

/-- `merkle::merkle_leaf`. -/
def merkleLeaf (data : List UInt8) : Hash32 := domainHash .merkleLeaf data

/-- `merkle::empty_merkle_root`. -/
def emptyMerkleRoot : Hash32 := domainHash .merkleEmptyLeaf []

/-- `merkle::merkle_node`. -/
def merkleNode (left right : Hash32) : Hash32 :=
  domainHash .merkleNode (left.bytes ++ right.bytes)

/-- The loop of `merkle::merkle_root`, for at most a number of rounds. -/
def reduceLevel : Nat → List Hash32 → List Hash32
  | 0, level => level
  | rounds + 1, level =>
    if level.length > 1 then reduceLevel rounds (pairSelf merkleNode level) else level

/-- `merkle::merkle_root`. Every level halves, so there are fewer rounds than leaves. -/
def merkleRoot (leaves : List Hash32) : Hash32 :=
  if leaves = [] then emptyMerkleRoot else (reduceLevel leaves.length leaves).headD .zero

/-- The loop of `merkle::merkle_proof`: the siblings still to collect. -/
def proofSiblings : Nat → List Hash32 → Nat → List Hash32
  | 0, _, _ => []
  | rounds + 1, level, position =>
    if level.length > 1 then
      let siblingPosition :=
        if position % 2 = 0 then min (position + 1) (level.length - 1) else position - 1
      level[siblingPosition]?.getD .zero ::
        proofSiblings rounds (pairSelf merkleNode level) (position / 2)
    else []

/-- `merkle::merkle_proof`. -/
def merkleProof (leaves : List Hash32) (index : Nat) : Except MerkleError MerkleProof := do
  rejectIf (leaves = []) .emptyTree
  rejectIf (index ≥ leaves.length) .indexOutOfRange
  return {
    leafIndex := UInt64.ofNat index
    leafCount := UInt64.ofNat leaves.length
    siblings := proofSiblings leaves.length leaves index }

/-- `MerkleProof::verify`. -/
def MerkleProof.verify (proof : MerkleProof) (leaf expectedRoot : Hash32) :
    Except MerkleError Bool := do
  rejectIf (proof.leafCount = 0 ∨ proof.leafIndex ≥ proof.leafCount) .malformedProof
  rejectIf (proof.siblings.length ≠ expectedDepth proof.leafCount) .malformedProof
  return foldUp merkleNode proof.leafIndex.toNat leaf proof.siblings == expectedRoot

/-- The loop of the root stops once a single node is left. -/
theorem reduceLevel_eq {rounds : Nat} (level : List Hash32)
    (enough : depthOf level.length ≤ rounds) :
    reduceLevel rounds level = (pairSelf merkleNode)^[depthOf level.length] level := by
  induction rounds generalizing level with
  | zero =>
    rw [Nat.le_zero.mp enough]
    rfl
  | succ rounds ih =>
    rw [reduceLevel]
    by_cases several : level.length > 1
    · have depth := depthOf_of_one_lt several
      have next := ih (pairSelf merkleNode level) (by rw [pairSelf_length]; omega)
      rw [if_pos several, next, pairSelf_length, depth, Function.iterate_succ_apply]
    · rw [if_neg several, depthOf_of_le_one (not_lt.mp several)]
      rfl

/-- The loop of the proof collects the siblings of the tree. -/
theorem proofSiblings_eq {rounds : Nat} (level : List Hash32) (position : Nat)
    (enough : depthOf level.length ≤ rounds) :
    proofSiblings rounds level position =
      siblingsOf merkleNode .zero (depthOf level.length) level position := by
  induction rounds generalizing level position with
  | zero =>
    rw [Nat.le_zero.mp enough]
    rfl
  | succ rounds ih =>
    rw [proofSiblings]
    by_cases several : level.length > 1
    · have depth := depthOf_of_one_lt several
      have next := ih (pairSelf merkleNode level) (position / 2)
        (by rw [pairSelf_length]; omega)
      rw [if_pos several, next, pairSelf_length, depth, siblingsOf]
      rfl
    · rw [if_neg several, depthOf_of_le_one (not_lt.mp several)]
      rfl

/-- The leaves of the complete tree whose root is the Merkle root. -/
def merkleLeaves (leaves : List Hash32) : Nat → Hash32 :=
  repeated .zero leaves (depthOf leaves.length)

/-- The Merkle root is the root of the complete tree over the repeated leaves. -/
theorem merkleRoot_eq {leaves : List Hash32} (nonempty : leaves ≠ []) :
    merkleRoot leaves = nodeAt merkleNode (merkleLeaves leaves) (depthOf leaves.length) 0 := by
  have single := iterate_pairSelf_length merkleNode nonempty
    (le_two_pow_depthOf leaves.length)
  obtain ⟨root, last⟩ := List.length_eq_one_iff.mp single
  rw [merkleRoot, if_neg nonempty, reduceLevel_eq _ (depthOf_le_self _), last, List.headD_cons,
    merkleLeaves, nodeAt_repeated merkleNode .zero last]

/-- A proof is accepted when its fold reaches the root and its shape fits its claimed count. -/
theorem MerkleProof.verify_eq_true {proof : MerkleProof} {leaf root : Hash32} :
    proof.verify leaf root = .ok true ↔
      proof.leafIndex.toNat < proof.leafCount.toNat ∧
      proof.siblings.length = depthOf proof.leafCount.toNat ∧
      climb merkleNode leaf proof.leafIndex.toNat
        (fun level => proof.siblings[level]?.getD .zero) proof.siblings.length = root := by
  have shaped : ¬(proof.leafCount = 0 ∨ proof.leafIndex ≥ proof.leafCount) ↔
      proof.leafIndex.toNat < proof.leafCount.toNat := by
    rw [not_or, ge_iff_le, UInt64.le_iff_toNat_le, not_le, ← UInt64.toNat_inj]
    constructor
    · intro both
      exact both.2
    · intro less
      exact ⟨Nat.ne_of_gt (Nat.zero_lt_of_lt less), less⟩
  simp only [MerkleProof.verify, ↓then_eq_ok, rejectIf_eq_ok, pure_eq_ok, beq_iff_eq, not_not,
    shaped, expectedDepth_eq, foldUp_eq_climb merkleNode .zero]

end Usdd.Core

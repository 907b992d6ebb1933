import Usdd.TypeScript.Records
import Usdd.Core.BurnAccumulator
/-!
# The burn tree in TypeScript

The client hashes nodes and folds branches on byte arrays of any length and an index that is an
unbounded integer, after checks of the lengths and the range. On values of the crate's types the
checks pass and the fold is the crate's.
-/
namespace Usdd.TypeScript

open Usdd.Foundation Usdd.Core

variable [Hashing]

/-- `burnAccumulatorNode`. -/
def burnAccumulatorNode (left right : List UInt8) : Except String (List UInt8) := do
  assertLength left 32 "left burn node"
  assertLength right 32 "right burn node"
  return sha256 [[1], left, right].flatten

omit [Hashing] in
/-- `encodeBurnBranch`. -/
def encodeBurnBranch (branch : List (List UInt8)) : Except String (List UInt8) := do
  rejectIf (branch.length ≠ 64) "burn proof must contain exactly 64 siblings"
  branch.forM fun sibling => assertLength sibling 32 "burn sibling"
  return branch.flatten

/-- The loop of `computeBurnRoot`, with the bits of the path that are still to be read. -/
def foldBurnBranch : Int → List UInt8 → List (List UInt8) → Except String (List UInt8)
  | _, value, [] => .ok value
  | path, value, sibling :: rest => do
    let next ←
      if path % 2 = 0 then burnAccumulatorNode value sibling else burnAccumulatorNode sibling value
    foldBurnBranch (path / 2) next rest

/-- `computeBurnRoot`. -/
def computeBurnRoot (leaf : List UInt8) (index : Int) (branch : List (List UInt8)) :
    Except String (List UInt8) := do
  assertLength leaf 32 "burn leaf"
  rejectIf (index < 0 ∨ index ≥ u64Limit) "burn index"
  let _ ← encodeBurnBranch branch
  foldBurnBranch index leaf branch

/-- The node of two hashes of the crate's type is the crate's node. -/
theorem burnAccumulatorNode_fixed (left right : Hash32) :
    burnAccumulatorNode left.bytes right.bytes = .ok (Core.burnAccumulatorNode left right).bytes := by
  simp only [burnAccumulatorNode, ↓then_eq_ok, pure_eq_ok, assertLength_fixed, true_and]
  rfl

/-- The fold of the crate, as a fold of the client along the same bits. -/
theorem foldBurnBranch_fixed (index : UInt64) (leaf : Hash32) (siblings : List Hash32)
    (level : Nat) (small : level + siblings.length ≤ 64) :
    foldBurnBranch ((index.toNat / 2 ^ level : Nat) : Int) leaf.bytes
        (siblings.map FixedBytes.bytes) =
      .ok (Core.BurnProof.foldSiblings index level leaf siblings).bytes := by
  induction siblings generalizing level leaf with
  | nil => rfl
  | cons sibling rest ih =>
    rw [List.length_cons] at small
    have halves : ((index.toNat / 2 ^ level : Nat) : Int) / 2 =
        ((index.toNat / 2 ^ (level + 1) : Nat) : Int) := by
      rw [Nat.pow_succ, ← Nat.div_div_eq_div_mul]
      rfl
    have bit : ((index.toNat / 2 ^ level : Nat) : Int) % 2 = 0 ↔
        (index >>> UInt64.ofNat level) &&& 1 = 0 := by
      rw [index_bit index (by omega : level < 64)]
      omega
    simp only [List.map_cons, foldBurnBranch, Core.BurnProof.foldSiblings, halves, bit]
    by_cases even : (index >>> UInt64.ofNat level) &&& 1 = 0
    · simp only [even, ↓reduceIte, burnAccumulatorNode_fixed]
      exact ih _ (level + 1) (by omega)
    · simp only [even, ↓reduceIte, burnAccumulatorNode_fixed]
      exact ih _ (level + 1) (by omega)

/-- On values of the crate's types the client computes the crate's root. -/
theorem computeBurnRoot_fixed (proof : Core.BurnProof) (leaf : Hash32) (index : UInt64) :
    computeBurnRoot leaf.bytes index.toNat (proof.siblings.toList.map FixedBytes.bytes) =
      .ok (proof.computeRoot leaf index).bytes := by
  have range : ¬((index.toNat : Int) < 0 ∨ (index.toNat : Int) ≥ u64Limit) := by
    have bound := index.toNat_lt
    rw [u64Limit]
    omega
  have encoded : encodeBurnBranch (proof.siblings.toList.map FixedBytes.bytes) =
      .ok (proof.siblings.toList.map FixedBytes.bytes).flatten := by
    simp only [encodeBurnBranch, ↓then_eq_ok, rejectIf_eq_ok, forM_eq_ok, pure_eq_ok, and_true]
    refine ⟨by simp, fun bytes member => ?_⟩
    obtain ⟨sibling, -, rfl⟩ := List.mem_map.mp member
    exact assertLength_fixed sibling "burn sibling"
  have folded := foldBurnBranch_fixed index leaf proof.siblings.toList 0 (by simp)
  rw [Nat.pow_zero, Nat.div_one] at folded
  simp only [computeBurnRoot]
  simp only [↓then_eq_ok, bind_eq_ok, rejectIf_eq_ok, assertLength_fixed]
  exact ⟨trivial, range, _, encoded, folded⟩

end Usdd.TypeScript

import Usdd.Foundation.SparseTree
import Usdd.Core.Encoding
/-!
# Sparse Merkle membership in Solidity

The vault's library for the burn tree: the leaf and node hashes and the fold of a branch of 64
siblings. `abi.encodePacked` writes every fixed-width value as its big-endian bytes, a
`uint256` as 32 of them.
-/
namespace Usdd.Contracts

open Usdd.Foundation Usdd.Foundation.SparseTree Usdd.Core

/-- `abi.encodePacked` of a `uint256`. -/
instance : CanonicalEncode Uint256 := ⟨fun word => beBytes 32 word.toNat⟩

@[simp]
theorem encode_uint256_length (word : Uint256) : (encode word).length = 32 := beBytes_length _ _

namespace Sha256SparseMerkle

/-- `Sha256SparseMerkle.TREE_DEPTH`. -/
def treeDepth : Nat := 64

/-- The preimage of `Sha256SparseMerkle.hashLeaf`. -/
def leafPreimage (leafDomain : Hash32) (protocolVersion : UInt32)
    (vaultId elementsGenesisHash usddAssetId burnId : Hash32) (burnIndex amount : UInt64)
    (recipient : EthAddress) : List UInt8 :=
  [[0x00], encode leafDomain, encode protocolVersion, encode elementsGenesisHash,
    encode usddAssetId, encode vaultId, encode burnId, encode burnIndex, encode amount,
    encode recipient].flatten

/-- The preimage of `Sha256SparseMerkle.hashNode`. -/
def nodePreimage (left right : Hash32) : List UInt8 :=
  [[0x01], encode left, encode right].flatten

variable [Hashing]

/-- `Sha256SparseMerkle.hashLeaf`. -/
def hashLeaf (leafDomain : Hash32) (protocolVersion : UInt32)
    (vaultId elementsGenesisHash usddAssetId burnId : Hash32) (burnIndex amount : UInt64)
    (recipient : EthAddress) : Hash32 :=
  Hashing.sha256 (leafPreimage leafDomain protocolVersion vaultId elementsGenesisHash usddAssetId
    burnId burnIndex amount recipient)

/-- `Sha256SparseMerkle.hashNode`. -/
def hashNode (left right : Hash32) : Hash32 := Hashing.sha256 (nodePreimage left right)

/-- The loop of `Sha256SparseMerkle.computeRoot`: the levels that remain, from a level on. -/
def computeRootFrom (index : UInt64) (merkleBranch : Vector Hash32 64) :
    Nat → Nat → Hash32 → Hash32
  | 0, _, node => node
  | remaining + 1, level, node =>
    let sibling := merkleBranch[level]?.getD .zero
    computeRootFrom index merkleBranch remaining (level + 1)
      (if (widen index >>> level) &&& 1 = 0 then hashNode node sibling else hashNode sibling node)

/-- `Sha256SparseMerkle.computeRoot`. -/
def computeRoot (leaf : Hash32) (index : UInt64) (merkleBranch : Vector Hash32 64) : Hash32 :=
  computeRootFrom index merkleBranch treeDepth 0 leaf

/-- `Sha256SparseMerkle.verify`. -/
def verify (root leaf : Hash32) (index : UInt64) (merkleBranch : Vector Hash32 64) : Bool :=
  computeRoot leaf index merkleBranch == root

omit [Hashing] in
/-- Bit `level` of an index widened to 256 bits, as the loop tests it. -/
theorem widened_bit (index : UInt64) (level : Nat) :
    (widen index >>> level) &&& 1 = 0 ↔ index.toNat / 2 ^ level % 2 = 0 := by
  rw [← BitVec.toNat_inj, BitVec.toNat_and, BitVec.toNat_ushiftRight, widen_toNat,
    Nat.shiftRight_eq_div_pow, show (1 : Uint256).toNat = 1 from rfl, Nat.and_one_is_mod]
  rfl

/-- The loop continues a climb. -/
theorem computeRootFrom_eq_climb (index : UInt64) (merkleBranch : Vector Hash32 64)
    (leaf : Hash32) (remaining level : Nat) :
    computeRootFrom index merkleBranch remaining level
        (climb hashNode leaf index.toNat (fun level => merkleBranch[level]?.getD .zero) level) =
      climb hashNode leaf index.toNat (fun level => merkleBranch[level]?.getD .zero)
        (level + remaining) := by
  induction remaining generalizing level with
  | zero => rfl
  | succ remaining ih =>
    rw [computeRootFrom, Nat.add_comm remaining 1, ← Nat.add_assoc, ← ih (level + 1)]
    congr 1
    simp only [climb, orderedPair, widened_bit]
    split <;> rfl

/-- Folding a branch is climbing along it. -/
theorem computeRoot_eq_climb (leaf : Hash32) (index : UInt64) (merkleBranch : Vector Hash32 64) :
    computeRoot leaf index merkleBranch =
      climb hashNode leaf index.toNat (fun level => merkleBranch[level]?.getD .zero) 64 := by
  have folded := computeRootFrom_eq_climb index merkleBranch leaf 64 0
  rwa [Nat.zero_add] at folded

end Sha256SparseMerkle

end Usdd.Contracts

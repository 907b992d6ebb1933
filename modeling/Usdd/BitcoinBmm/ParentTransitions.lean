import Usdd.BitcoinBmm.M7
import Usdd.BitcoinBmm.Signet
/-!
# Commitments bound to a header

The M7 reader and the header chain meet in two functions that take a serialized block: one checks
proof of work and the Merkle tree, the other the Signet solution as well. Both return the next
state of the chain and the commitment that the block carries.
-/
namespace Usdd.BitcoinBmm

open Usdd.Foundation Usdd.Core

section Commitments

/-- `UnboundCanonicalM7::require_child_hash`. -/
def UnboundCanonicalM7.requireChildHash (m7 : UnboundCanonicalM7) (expected : BlockHash) :
    Except M7Error UnboundCanonicalM7 := do
  rejectIf (m7.committedChildHash ≠ expected) .wrongChildHash
  return m7

/-- `block::PowMerkleBoundM7`. -/
structure PowMerkleBoundM7 where
  parentBlockHash : BlockHash
  parentHeight : UInt32
  coinbaseTxid : BlockHash
  outputIndex : UInt32
  committedChildHash : BlockHash
  transactionCount : Nat
  blockWeight : Nat
deriving DecidableEq

/-- `PowMerkleBoundM7::require_validated_child_hash`. -/
def PowMerkleBoundM7.requireValidatedChildHash (m7 : PowMerkleBoundM7) (childHash : BlockHash) :
    Except M7Error PowMerkleBoundM7 := do
  rejectIf (m7.committedChildHash ≠ childHash) .wrongChildHash
  return m7

/-- `block::PowMerkleBoundM7Transition`, which `signet::SignetPowMerkleBoundM7Transition`
repeats. -/
structure PowMerkleBoundM7Transition where
  nextParentState : HeaderChainState
  commitment : PowMerkleBoundM7
deriving DecidableEq

/-- `block::ParentBlockM7Error`. -/
inductive ParentBlockM7Error where
  | header (error : HeaderError)
  | block (error : BlockStructureError)
  | commitment (error : M7Error)
deriving DecidableEq

/-- `signet::LayerTwoSignetError` with its variant `Commitment`. -/
inductive SignetTransitionError where
  | signet (error : LayerTwoSignetError)
  | commitment (error : M7Error)
deriving DecidableEq

/-- `HeaderChainState::from_unverified_checkpoint_requires_manifest_binding`. -/
def HeaderChainState.fromUnverifiedCheckpointRequiresManifestBinding (height : UInt32)
    (tip : PowVerifiedHeader) (cumulativeWork : Uint256) (intervalStartTime : UInt32) :
    Except HeaderError HeaderChainState := do
  rejectIf (cumulativeWork < tip.work) .invalidCheckpointChainwork
  return { height, tip, cumulativeWork, intervalStartTime }

end Commitments

section Transitions

variable [Hashing]

/-- `block::verify_serialized_block_merkle`. -/
def verifySerializedBlockMerkle (bytes : List UInt8) :
    Except BlockStructureError MerkleVerifiedBitcoinBlock := do
  return (← parseAndVerifyBlock bytes).metadata

/-- The commitment of a block that is the tip of a chain. -/
def boundM7 (parsed : ParsedBlock) (next : HeaderChainState) (m7 : UnboundCanonicalM7) :
    PowMerkleBoundM7 where
  parentBlockHash := parsed.metadata.blockHash
  parentHeight := next.height
  coinbaseTxid := parsed.metadata.coinbaseTxid
  outputIndex := m7.outputIndex
  committedChildHash := m7.committedChildHash
  transactionCount := parsed.metadata.transactionCount
  blockWeight := parsed.metadata.weight

/-- `block::verify_pow_merkle_bound_elements_m7_successor`. -/
def verifyPowMerkleBoundElementsM7Successor (prior : HeaderChainState)
    (serializedBlock : List UInt8) (params : PowParameters) :
    Except ParentBlockM7Error PowMerkleBoundM7Transition := do
  let parsed ← (parseAndVerifyBlock serializedBlock).mapError .block
  let nextParentState ←
    (verifySuccessor prior parsed.metadata.header.raw.bytes params).mapError .header
  let unbound ←
    (extractElementsSlot24M7 (parsed.coinbase.outputs.map (·.script))).mapError .commitment
  return { nextParentState, commitment := boundM7 parsed nextParentState unbound }

/-- `signet::verify_layer_two_signet_pow_merkle_bound_elements_m7_successor`. -/
def verifyLayerTwoSignetPowMerkleBoundElementsM7Successor (crypto : SignetCrypto)
    (prior : HeaderChainState) (serializedBlock : List UInt8) :
    Except SignetTransitionError PowMerkleBoundM7Transition := do
  let parsed ← (parseAndVerifyBlock serializedBlock).mapError fun error => .signet (.block error)
  (verifyParsedLayerTwoSignet crypto parsed).mapError .signet
  let nextParentState ←
    (verifySuccessor prior parsed.metadata.header.raw.bytes .layerTwoSignet).mapError
      fun error => .signet (.header error)
  let m7 ← (extractElementsSlot24M7 (parsed.coinbase.outputs.map (·.script))).mapError .commitment
  return { nextParentState, commitment := boundM7 parsed nextParentState m7 }

/-- A transition is a parsed block, a successor and the commitment of the block's coinbase. -/
structure BoundTransition (prior : HeaderChainState) (bytes : List UInt8) (params : PowParameters)
    (transition : PowMerkleBoundM7Transition) (parsed : ParsedBlock) (m7 : UnboundCanonicalM7) :
    Prop where
  accepted : parseAndVerifyBlock bytes = .ok parsed
  successor : verifySuccessor prior parsed.metadata.header.raw.bytes params =
    .ok transition.nextParentState
  extracted : extractElementsSlot24M7 (parsed.coinbase.outputs.map (·.script)) = .ok m7
  commitment : transition.commitment = boundM7 parsed transition.nextParentState m7

variable {prior : HeaderChainState} {bytes : List UInt8} {params : PowParameters}
  {transition : PowMerkleBoundM7Transition}

theorem verifyPowMerkleBound_eq_ok :
    verifyPowMerkleBoundElementsM7Successor prior bytes params = .ok transition ↔
      ∃ parsed m7, BoundTransition prior bytes params transition parsed m7 := by
  simp only [verifyPowMerkleBoundElementsM7Successor, bind_eq_ok, mapError_eq_ok, pure_eq_ok]
  constructor
  · rintro ⟨parsed, accepted, next, successor, m7, extracted, rfl⟩
    exact ⟨parsed, m7, accepted, successor, extracted, rfl⟩
  · rintro ⟨parsed, m7, bound⟩
    refine ⟨parsed, bound.accepted, _, bound.successor, m7, bound.extracted, ?_⟩
    rw [← bound.commitment]

/-- The Signet transition is the other one for a block whose solution is accepted. -/
theorem verifyLayerTwoSignetPowMerkleBound_eq_ok {crypto : SignetCrypto} :
    verifyLayerTwoSignetPowMerkleBoundElementsM7Successor crypto prior bytes = .ok transition ↔
      (∃ block, verifyLayerTwoSignetBlockSolution crypto bytes = .ok block) ∧
        verifyPowMerkleBoundElementsM7Successor prior bytes .layerTwoSignet = .ok transition := by
  rw [verifyPowMerkleBound_eq_ok]
  simp only [verifyLayerTwoSignetPowMerkleBoundElementsM7Successor,
    verifyLayerTwoSignetBlockSolution]
  simp only [↓then_eq_ok, bind_eq_ok, mapError_eq_ok, pure_eq_ok]
  constructor
  · rintro ⟨parsed, accepted, solved, next, successor, m7, extracted, rfl⟩
    exact ⟨⟨_, parsed, accepted, solved, rfl⟩, parsed, m7, accepted, successor, extracted, rfl⟩
  · rintro ⟨⟨_, solvedBlock, read, solved, -⟩, parsed, m7, bound⟩
    obtain rfl : solvedBlock = parsed := by
      have same := bound.accepted
      rw [read, Except.ok.injEq] at same
      exact same
    refine ⟨solvedBlock, read, solved, _, bound.successor, m7, bound.extracted, ?_⟩
    rw [← bound.commitment]

end Transitions

end Usdd.BitcoinBmm

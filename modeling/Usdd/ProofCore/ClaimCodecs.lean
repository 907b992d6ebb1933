import Usdd.ProofCore.Claims
import Usdd.Core.Payloads
/-!
# Decoders of claims

The decoders of the claims a guest is given. A deposit claim validates the batch its deposits
make, an Elements claim only the records it contains.
-/
namespace Usdd.ProofCore

open Usdd.Foundation Usdd.Core

/-- `EthereumDepositClaim::validate`. -/
def EthereumDepositClaim.validate [Hashing] (claim : EthereumDepositClaim) :
    Except DecodeError Unit := do
  rejectIf (claim.manifestId = .zero) (.invalidValue "zero manifest ID")
  claim.priorState.validate
  claim.finality.validate
  let _ ← MintBatch.fromDeposits claim.deposits

instance [Hashing] : CanonicalDecode EthereumDepositClaim where
  decodeFrom := do
    decodeProofHeader tagEthereumDepositClaim
    let manifestId ← Decoder.fixed 32
    let priorState ← (CanonicalDecode.decodeFrom : Decoder MintControllerState)
    let finality ← (CanonicalDecode.decodeFrom : Decoder EthereumFinalityWitness)
    let count ← Decoder.u8
    Decoder.check (rejectIf (count = 0 ∨ count.toNat > maxMintBatchSize)
      (.invalidValue "deposit proof batch must be 1..64"))
    let deposits ← Decoder.times count.toNat (CanonicalDecode.decodeFrom : Decoder VaultDeposit)
    Decoder.validated EthereumDepositClaim.validate ⟨manifestId, priorState, finality, deposits⟩

/-- `EthereumHeartbeatClaim::validate`. -/
def EthereumHeartbeatClaim.validate (claim : EthereumHeartbeatClaim) :
    Except DecodeError Unit := do
  rejectIf (claim.manifestId = .zero) (.invalidValue "zero manifest ID")
  claim.priorState.validate
  claim.finality.validate

instance : CanonicalDecode EthereumHeartbeatClaim where
  decodeFrom := do
    decodeProofHeader tagEthereumHeartbeatClaim
    let manifestId ← Decoder.fixed 32
    let priorState ← (CanonicalDecode.decodeFrom : Decoder MintControllerState)
    let finality ← (CanonicalDecode.decodeFrom : Decoder EthereumFinalityWitness)
    Decoder.validated EthereumHeartbeatClaim.validate ⟨manifestId, priorState, finality⟩

instance : CanonicalDecode BurnAppend where
  decodeFrom := do
    decodeProofHeader tagBurnAppend
    let burn ← (CanonicalDecode.decodeFrom : Decoder Burn)
    let emptyBranch ← (CanonicalDecode.decodeFrom : Decoder BurnProof)
    return { burn, emptyBranch }

instance [Hashing] : CanonicalDecode ElementsStateTransitionClaim where
  decodeFrom := do
    decodeProofHeader tagElementsStateTransitionClaim
    let manifestId ← Decoder.fixed 32
    let priorBridgeStateHash ← Decoder.fixed 32
    let priorState ← (CanonicalDecode.decodeFrom : Decoder SolidityElementsBridgeState)
    let nextState ← (CanonicalDecode.decodeFrom : Decoder SolidityElementsBridgeState)
    let count ← Decoder.u8
    Decoder.check (rejectIf (count.toNat > maxBurnAppendsPerStateTransition)
      (.invalidValue "too many burns in state transition"))
    let appendedBurns ← Decoder.times count.toNat
      (CanonicalDecode.decodeFrom : Decoder BurnAppend)
    return { manifestId, priorBridgeStateHash, priorState, nextState, appendedBurns }

end Usdd.ProofCore

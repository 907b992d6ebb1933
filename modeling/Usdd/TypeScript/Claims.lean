import Usdd.TypeScript.Records
/-!
# The claims and outputs of the TypeScript client

The claims that a guest is asked to prove and the outputs that it commits to, as the client
checks, writes and reads them.
-/
namespace Usdd.TypeScript

open Usdd.Foundation Usdd.Core

/-- `MAX_ETHEREUM_FINALITY_SLOT_GAP`. -/
def maxEthereumFinalitySlotGap : Int := 4096

section Outputs

/-- The interface `DepositPublicOutput`. -/
structure DepositPublicOutput where
  manifestId : List UInt8
  claimId : List UInt8
  priorState : MintControllerState
  nextState : MintControllerState
  finalizedExecutionBlockTimestamp : Int
  mintBatch : MintBatch

/-- `validateDepositPublicOutput`. -/
def validateDepositPublicOutput (value : DepositPublicOutput) : Except String Unit := do
  let prior := value.priorState
  let next := value.nextState
  assertRequiredHash value.manifestId "manifest ID"
  assertRequiredHash value.claimId "claim ID"
  assertPositiveU64 value.finalizedExecutionBlockTimestamp "finalized execution timestamp"
  let _ ← encodeMintControllerState prior
  let _ ← encodeMintControllerState next
  validateMintBatch value.mintBatch
  let expectedTotal ← checkedAddU64 prior.totalMintedUSDDBase value.mintBatch.totalAmountUSDD8
    "minted supply"
  let expectedSequence ← checkedAddU64 prior.sequence 1 "controller sequence"
  rejectIf (next.version ≠ prior.version ∨ next.sequence ≠ expectedSequence ∨
      next.nextMintNonce ≠ value.mintBatch.nextNonce ∨
      value.mintBatch.firstNonce ≠ prior.nextMintNonce ∨
      next.totalMintedUSDDBase ≠ expectedTotal ∨
      bytesEqual next.configurationHash prior.configurationHash = false ∨
      next.finalizedBeaconSlot < prior.finalizedBeaconSlot ∨
      next.finalizedBeaconSlot - prior.finalizedBeaconSlot > maxEthereumFinalitySlotGap ∨
      (next.finalizedBeaconSlot = prior.finalizedBeaconSlot ∧
        (bytesEqual next.ethereumLightClientDigest prior.ethereumLightClientDigest = false ∨
          bytesEqual next.finalizedBeaconRoot prior.finalizedBeaconRoot = false ∨
          bytesEqual next.finalizedExecutionStateRoot prior.finalizedExecutionStateRoot =
            false)) ∨
      (next.finalizedBeaconSlot > prior.finalizedBeaconSlot ∧
        bytesEqual next.ethereumLightClientDigest prior.ethereumLightClientDigest = true))
    "deposit output does not bind the controller transition"

/-- `encodeDepositPublicOutput`. -/
def encodeDepositPublicOutput (value : DepositPublicOutput) : Except String (List UInt8) := do
  validateDepositPublicOutput value
  concat [encodeRecordHeader 0x5201, .ok value.manifestId, .ok value.claimId,
    encodeMintControllerState value.priorState, encodeMintControllerState value.nextState,
    u64be value.finalizedExecutionBlockTimestamp, encodeMintBatch value.mintBatch]

/-- `decodeDepositPublicOutputFrom`. -/
def decodeDepositPublicOutputFrom : CanonicalDecoder DepositPublicOutput := do
  decodeRecordHeader 0x5201
  let manifestId ← CanonicalDecoder.fixed 32 "manifest ID"
  let claimId ← CanonicalDecoder.fixed 32 "claim ID"
  let priorState ← decodeMintControllerStateFrom
  let nextState ← decodeMintControllerStateFrom
  let finalizedExecutionBlockTimestamp ← CanonicalDecoder.u64 "finalized execution timestamp"
  let mintBatch ← decodeMintBatchFrom
  Reader.validated validateDepositPublicOutput
    ⟨manifestId, claimId, priorState, nextState, finalizedExecutionBlockTimestamp, mintBatch⟩

/-- `decodeDepositPublicOutput`. -/
def decodeDepositPublicOutput (bytes : List UInt8) : Except String DepositPublicOutput :=
  decodeExact bytes decodeDepositPublicOutputFrom "deposit public output"

/-- The interface `HeartbeatPublicOutput`. -/
structure HeartbeatPublicOutput where
  manifestId : List UInt8
  claimId : List UInt8
  priorState : MintControllerState
  nextState : MintControllerState
  finalizedExecutionBlockTimestamp : Int

/-- `validateHeartbeatPublicOutput`. -/
def validateHeartbeatPublicOutput (value : HeartbeatPublicOutput) : Except String Unit := do
  let prior := value.priorState
  let next := value.nextState
  assertRequiredHash value.manifestId "manifest ID"
  assertRequiredHash value.claimId "claim ID"
  assertPositiveU64 value.finalizedExecutionBlockTimestamp "finalized execution timestamp"
  let _ ← encodeMintControllerState prior
  let _ ← encodeMintControllerState next
  let expectedSequence ← checkedAddU64 prior.sequence 1 "controller sequence"
  rejectIf (next.version ≠ prior.version ∨ next.sequence ≠ expectedSequence ∨
      next.nextMintNonce ≠ prior.nextMintNonce ∨
      next.totalMintedUSDDBase ≠ prior.totalMintedUSDDBase ∨
      bytesEqual next.configurationHash prior.configurationHash = false ∨
      next.finalizedBeaconSlot ≤ prior.finalizedBeaconSlot ∨
      bytesEqual next.ethereumLightClientDigest prior.ethereumLightClientDigest = true ∨
      next.finalizedBeaconSlot - prior.finalizedBeaconSlot > maxEthereumFinalitySlotGap)
    "heartbeat output does not bind a state-only transition"

/-- `encodeHeartbeatPublicOutput`. -/
def encodeHeartbeatPublicOutput (value : HeartbeatPublicOutput) :
    Except String (List UInt8) := do
  validateHeartbeatPublicOutput value
  concat [encodeRecordHeader 0x5204, .ok value.manifestId, .ok value.claimId,
    encodeMintControllerState value.priorState, encodeMintControllerState value.nextState,
    u64be value.finalizedExecutionBlockTimestamp]

/-- `decodeHeartbeatPublicOutputFrom`. -/
def decodeHeartbeatPublicOutputFrom : CanonicalDecoder HeartbeatPublicOutput := do
  decodeRecordHeader 0x5204
  let manifestId ← CanonicalDecoder.fixed 32 "manifest ID"
  let claimId ← CanonicalDecoder.fixed 32 "claim ID"
  let priorState ← decodeMintControllerStateFrom
  let nextState ← decodeMintControllerStateFrom
  let finalizedExecutionBlockTimestamp ← CanonicalDecoder.u64 "finalized execution timestamp"
  Reader.validated validateHeartbeatPublicOutput
    ⟨manifestId, claimId, priorState, nextState, finalizedExecutionBlockTimestamp⟩

/-- `decodeHeartbeatPublicOutput`. -/
def decodeHeartbeatPublicOutput (bytes : List UInt8) : Except String HeartbeatPublicOutput :=
  decodeExact bytes decodeHeartbeatPublicOutputFrom "heartbeat public output"

/-- The interface `ElementsStatePublicOutput`. -/
structure ElementsStatePublicOutput where
  manifestId : List UInt8
  claimId : List UInt8
  priorBridgeStateHash : List UInt8
  nextBridgeStateHash : List UInt8
  verifierStatement : List UInt8
  priorState : SolidityElementsBridgeState
  nextState : SolidityElementsBridgeState

/-- `validateElementsStatePublicOutput`. -/
def validateElementsStatePublicOutput (value : ElementsStatePublicOutput) :
    Except String Unit := do
  assertRequiredHash value.manifestId "manifest ID"
  assertRequiredHash value.claimId "claim ID"
  assertLength value.priorBridgeStateHash 32 "prior bridge state hash"
  assertRequiredHash value.nextBridgeStateHash "next bridge state hash"
  assertRequiredHash value.verifierStatement "verifier statement"
  validateElementsStateSuccessor value.priorState value.nextState
  rejectIf (isZeroSolidityElementsBridgeState value.priorState ≠
      isZero value.priorBridgeStateHash)
    "prior Elements state/hash mismatch"

/-- `encodeElementsStatePublicOutput`. -/
def encodeElementsStatePublicOutput (value : ElementsStatePublicOutput) :
    Except String (List UInt8) := do
  validateElementsStatePublicOutput value
  concat [encodeRecordHeader 0x5203, .ok value.manifestId, .ok value.claimId,
    .ok value.priorBridgeStateHash, .ok value.nextBridgeStateHash, .ok value.verifierStatement,
    encodeSolidityElementsBridgeState value.priorState,
    encodeSolidityElementsBridgeState value.nextState]

/-- `decodeElementsStatePublicOutputFrom`. -/
def decodeElementsStatePublicOutputFrom : CanonicalDecoder ElementsStatePublicOutput := do
  decodeRecordHeader 0x5203
  let manifestId ← CanonicalDecoder.fixed 32 "manifest ID"
  let claimId ← CanonicalDecoder.fixed 32 "claim ID"
  let priorBridgeStateHash ← CanonicalDecoder.fixed 32 "prior bridge state hash"
  let nextBridgeStateHash ← CanonicalDecoder.fixed 32 "next bridge state hash"
  let verifierStatement ← CanonicalDecoder.fixed 32 "verifier statement"
  let priorState ← decodeSolidityElementsBridgeStateFrom
  let nextState ← decodeSolidityElementsBridgeStateFrom
  Reader.validated validateElementsStatePublicOutput ⟨manifestId, claimId, priorBridgeStateHash,
    nextBridgeStateHash, verifierStatement, priorState, nextState⟩

/-- `decodeElementsStatePublicOutput`. -/
def decodeElementsStatePublicOutput (bytes : List UInt8) :
    Except String ElementsStatePublicOutput :=
  decodeExact bytes decodeElementsStatePublicOutputFrom "Elements state public output"

end Outputs

section Claims

/-- The interface `EthereumHeartbeatClaim`. -/
structure EthereumHeartbeatClaim where
  manifestId : List UInt8
  priorState : MintControllerState
  finality : EthereumFinalityWitness

/-- `validateEthereumHeartbeatClaim`. -/
def validateEthereumHeartbeatClaim (value : EthereumHeartbeatClaim) : Except String Unit := do
  assertRequiredHash value.manifestId "manifest ID"
  let _ ← encodeMintControllerState value.priorState
  validateEthereumFinalityWitness value.finality

/-- `encodeEthereumHeartbeatClaim`. -/
def encodeEthereumHeartbeatClaim (value : EthereumHeartbeatClaim) :
    Except String (List UInt8) := do
  validateEthereumHeartbeatClaim value
  concat [encodeRecordHeader 0x5105, .ok value.manifestId,
    encodeMintControllerState value.priorState, encodeEthereumFinalityWitness value.finality]

/-- `decodeEthereumHeartbeatClaimFrom`. -/
def decodeEthereumHeartbeatClaimFrom : CanonicalDecoder EthereumHeartbeatClaim := do
  decodeRecordHeader 0x5105
  let manifestId ← CanonicalDecoder.fixed 32 "manifest ID"
  let priorState ← decodeMintControllerStateFrom
  let finality ← decodeEthereumFinalityWitnessFrom
  Reader.validated validateEthereumHeartbeatClaim ⟨manifestId, priorState, finality⟩

/-- `decodeEthereumHeartbeatClaim`. -/
def decodeEthereumHeartbeatClaim (bytes : List UInt8) : Except String EthereumHeartbeatClaim :=
  decodeExact bytes decodeEthereumHeartbeatClaimFrom "Ethereum heartbeat claim"

/-- The interface `ElementsStateTransitionClaim`. -/
structure ElementsStateTransitionClaim where
  manifestId : List UInt8
  priorBridgeStateHash : List UInt8
  priorState : SolidityElementsBridgeState
  nextState : SolidityElementsBridgeState
  appendedBurns : List BurnAppend

/-- `validateElementsStateTransitionClaim`. -/
def validateElementsStateTransitionClaim (value : ElementsStateTransitionClaim) :
    Except String Unit := do
  -- Neither the hashes nor the relation of the states are checked here: the guest proves them.
  assertLength value.manifestId 32 "manifest ID"
  assertLength value.priorBridgeStateHash 32 "prior bridge state hash"
  let _ ← encodeSolidityElementsBridgeState value.priorState
  let _ ← encodeSolidityElementsBridgeState value.nextState
  rejectIf (value.appendedBurns.length > 64) "too many burns in state transition"
  value.appendedBurns.forM fun append => do
    let _ ← encodeBurnAppend append

/-- `encodeElementsStateTransitionClaim`. -/
def encodeElementsStateTransitionClaim (value : ElementsStateTransitionClaim) :
    Except String (List UInt8) := do
  validateElementsStateTransitionClaim value
  concat [encodeRecordHeader 0x5103, .ok value.manifestId, .ok value.priorBridgeStateHash,
    encodeSolidityElementsBridgeState value.priorState,
    encodeSolidityElementsBridgeState value.nextState,
    .ok [UInt8.ofNat value.appendedBurns.length],
    concat (value.appendedBurns.map encodeBurnAppend)]

/-- `decodeElementsStateTransitionClaimFrom`. -/
def decodeElementsStateTransitionClaimFrom : CanonicalDecoder ElementsStateTransitionClaim := do
  decodeRecordHeader 0x5103
  let manifestId ← CanonicalDecoder.fixed 32 "manifest ID"
  let priorBridgeStateHash ← CanonicalDecoder.fixed 32 "prior bridge state hash"
  let priorState ← decodeSolidityElementsBridgeStateFrom
  let nextState ← decodeSolidityElementsBridgeStateFrom
  let count ← CanonicalDecoder.u8 "burn append count"
  Reader.check (rejectIf (count > 64) "too many burns in state transition")
  let appendedBurns ← Reader.times count decodeBurnAppendFrom
  Reader.validated validateElementsStateTransitionClaim
    ⟨manifestId, priorBridgeStateHash, priorState, nextState, appendedBurns⟩

/-- `decodeElementsStateTransitionClaim`. -/
def decodeElementsStateTransitionClaim (bytes : List UInt8) :
    Except String ElementsStateTransitionClaim :=
  decodeExact bytes decodeElementsStateTransitionClaimFrom "Elements state claim"

variable [Hashing]

/-- The interface `EthereumDepositClaim`. -/
structure EthereumDepositClaim where
  manifestId : List UInt8
  priorState : MintControllerState
  finality : EthereumFinalityWitness
  deposits : List VaultDeposit

/-- The loop of `validateClaimDepositBatch`, from a position of the batch on. -/
def checkClaimDeposits (first : VaultDeposit) :
    Nat → Int → Int → List VaultDeposit → Except String (Int × Int)
  | _, totalUSDT6, totalUSDD8, [] => return (totalUSDT6, totalUSDD8)
  | offset, totalUSDT6, totalUSDD8, deposit :: deposits => do
    let _ ← encodeVaultDeposit deposit
    let expectedNonce ← checkedAddU64 first.nonce offset "deposit batch nonce"
    rejectIf (deposit.nonce ≠ expectedNonce) "mint batch deposit nonces are not consecutive"
    rejectIf (deposit.chainId ≠ first.chainId ∨ bytesEqual deposit.vault first.vault = false ∨
        bytesEqual deposit.usdt first.usdt = false)
      "mint batch mixes chains, vaults, or tokens"
    let totalUSDT6 ← checkedAddU64 totalUSDT6 deposit.amountUSDT6 "batch USDT total"
    let totalUSDD8 ← checkedAddU64 totalUSDD8 (deposit.amountUSDT6 * usddUnitsPerUsdtMicro)
      "batch USDD total"
    checkClaimDeposits first (offset + 1) totalUSDT6 totalUSDD8 deposits

/-- `validateClaimDepositBatch`. -/
def validateClaimDepositBatch (deposits : List VaultDeposit) : Except String Unit := do
  match deposits with
  | [] => throw "deposit proof batch must be 1..64"
  | first :: rest => do
    rejectIf ((first :: rest).length > 64) "deposit proof batch must be 1..64"
    let _ ← encodeVaultDeposit first
    let (totalUSDT6, totalUSDD8) ← checkClaimDeposits first 0 0 0 (first :: rest)
    rejectIf (totalUSDT6 > maxMintBatchUSDT6 ∨ totalUSDD8 > maxMintBatchUSDD8)
      "mint batch exceeds the Elements explicit-output budget"
    let _ ← checkedAddU64 first.nonce (first :: rest).length "batch next nonce"

/-- `validateEthereumDepositClaim`. -/
def validateEthereumDepositClaim (value : EthereumDepositClaim) : Except String Unit := do
  assertRequiredHash value.manifestId "manifest ID"
  let _ ← encodeMintControllerState value.priorState
  validateEthereumFinalityWitness value.finality
  validateClaimDepositBatch value.deposits

/-- `encodeEthereumDepositClaim`. -/
def encodeEthereumDepositClaim (value : EthereumDepositClaim) : Except String (List UInt8) := do
  validateEthereumDepositClaim value
  concat [encodeRecordHeader 0x5101, .ok value.manifestId,
    encodeMintControllerState value.priorState, encodeEthereumFinalityWitness value.finality,
    .ok [UInt8.ofNat value.deposits.length], concat (value.deposits.map encodeVaultDeposit)]

/-- `decodeEthereumDepositClaimFrom`. -/
def decodeEthereumDepositClaimFrom : CanonicalDecoder EthereumDepositClaim := do
  decodeRecordHeader 0x5101
  let manifestId ← CanonicalDecoder.fixed 32 "manifest ID"
  let priorState ← decodeMintControllerStateFrom
  let finality ← decodeEthereumFinalityWitnessFrom
  let count ← CanonicalDecoder.u8 "deposit count"
  Reader.check (rejectIf (count = 0 ∨ count > 64) "deposit proof batch must be 1..64")
  let deposits ← Reader.times count decodeVaultDepositFrom
  Reader.validated validateEthereumDepositClaim ⟨manifestId, priorState, finality, deposits⟩

/-- `decodeEthereumDepositClaim`. -/
def decodeEthereumDepositClaim (bytes : List UInt8) : Except String EthereumDepositClaim :=
  decodeExact bytes decodeEthereumDepositClaimFrom "Ethereum deposit claim"

end Claims

end Usdd.TypeScript

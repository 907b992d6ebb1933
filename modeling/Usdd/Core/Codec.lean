import Usdd.Core.Controller
import Usdd.Core.Burn
import Usdd.Core.ElementsState
/-!
# Record codecs

Every record has a header of schema and tag, its fields in order, and, on the way in, the
validation of the value that was read. Counts are one byte. The controller state alone has no
header: it is the byte string that the Elements output commits to.
-/
namespace Usdd.Core

open Usdd.Foundation

/-- `types::TAG_VAULT_DEPOSIT`. -/
def tagVaultDeposit : UInt16 := 0x0101

/-- `types::TAG_ETHEREUM_FINALITY`. -/
def tagEthereumFinality : UInt16 := 0x0102

/-- `types::TAG_MINT_OUTPUT`. -/
def tagMintOutput : UInt16 := 0x0103

/-- `types::TAG_MINT_BATCH`. -/
def tagMintBatch : UInt16 := 0x0104

/-- `types::TAG_BURN`. -/
def tagBurn : UInt16 := 0x0201

/-- `types::TAG_SOLIDITY_ELEMENTS_STATE`. -/
def tagSolidityElementsState : UInt16 := 0x0204

/-- A count written as one byte. -/
def encodeCount (count : Nat) : List UInt8 := encode (UInt8.ofNat count)

/-- A value that is returned once a check of it passes. -/
def Decoder.validated {α : Type} (validate : α → Except DecodeError Unit) (value : α) :
    Decoder α := do
  Decoder.check (validate value)
  return value

instance : CanonicalEncode OutPoint := ⟨fun value => encode value.txid ++ encode value.vout⟩

instance : CanonicalDecode OutPoint where
  decodeFrom := do
    let txid ← Decoder.fixed 32
    let vout ← Decoder.u32
    return { txid, vout }

instance : CanonicalEncode VaultDeposit where
  encode value := [encodeHeader tagVaultDeposit, encode value.ethereumChainId,
    encode value.vault, encode value.usdt, encode value.nonce, encode value.depositor,
    encode value.usdtAmountMicro, encode value.elementsScript, encode value.userSalt].flatten

instance : CanonicalDecode VaultDeposit where
  decodeFrom := do
    decodeHeader tagVaultDeposit
    let ethereumChainId ← Decoder.u64
    let vault ← Decoder.fixed 20
    let usdt ← Decoder.fixed 20
    let nonce ← Decoder.u64
    let depositor ← Decoder.fixed 20
    let usdtAmountMicro ← Decoder.u64
    let elementsScript ← Decoder.bytes
    let userSalt ← Decoder.fixed 32
    Decoder.validated VaultDeposit.validate ⟨ethereumChainId, vault, usdt, nonce, depositor,
      usdtAmountMicro, elementsScript, userSalt⟩

instance : CanonicalEncode EthereumFinalityWitness where
  encode value := [encodeHeader tagEthereumFinality, encode value.ethereumLightClientDigest,
    encode value.finalizedBeaconSlot, encode value.finalizedBeaconRoot,
    encode value.finalizedExecutionBlock, encode value.finalizedExecutionStateRoot,
    encode value.executionBlockNumber, encode value.executionBlockTimestamp].flatten

instance : CanonicalDecode EthereumFinalityWitness where
  decodeFrom := do
    decodeHeader tagEthereumFinality
    let ethereumLightClientDigest ← Decoder.fixed 32
    let finalizedBeaconSlot ← Decoder.u64
    let finalizedBeaconRoot ← Decoder.fixed 32
    let finalizedExecutionBlock ← Decoder.fixed 32
    let finalizedExecutionStateRoot ← Decoder.fixed 32
    let executionBlockNumber ← Decoder.u64
    let executionBlockTimestamp ← Decoder.u64
    Decoder.validated EthereumFinalityWitness.validate ⟨ethereumLightClientDigest,
      finalizedBeaconSlot, finalizedBeaconRoot, finalizedExecutionBlock,
      finalizedExecutionStateRoot, executionBlockNumber, executionBlockTimestamp⟩

instance : CanonicalEncode MintOutput where
  encode value := [encodeHeader tagMintOutput, encode value.depositId, encode value.nonce,
    encode value.usdtAmountMicro, encode value.usddAmountBase, encode value.elementsScript].flatten

instance : CanonicalDecode MintOutput where
  decodeFrom := do
    decodeHeader tagMintOutput
    let depositId ← Decoder.fixed 32
    let nonce ← Decoder.u64
    let usdtAmountMicro ← Decoder.u64
    let usddAmountBase ← Decoder.u64
    let elementsScript ← Decoder.bytes
    Decoder.validated MintOutput.validate
      ⟨depositId, nonce, usdtAmountMicro, usddAmountBase, elementsScript⟩

instance : CanonicalEncode MintBatch where
  encode value := [encodeHeader tagMintBatch, encode value.firstNonce, encode value.nextNonce,
    encodeCount value.outputs.length, (value.outputs.map encode).flatten,
    encode value.totalUsdtAmountMicro, encode value.totalUsddAmountBase].flatten

instance : CanonicalDecode MintBatch where
  decodeFrom := do
    decodeHeader tagMintBatch
    let firstNonce ← Decoder.u64
    let nextNonce ← Decoder.u64
    let count ← Decoder.u8
    Decoder.check (rejectIf (count = 0 ∨ count.toNat > maxMintBatchSize)
      (.invalidValue "mint batch size must be 1..64"))
    let outputs ← Decoder.times count.toNat (CanonicalDecode.decodeFrom : Decoder MintOutput)
    let totalUsdtAmountMicro ← Decoder.u64
    let totalUsddAmountBase ← Decoder.u64
    Decoder.validated MintBatch.validate
      ⟨firstNonce, nextNonce, outputs, totalUsdtAmountMicro, totalUsddAmountBase⟩

instance : CanonicalEncode Burn where
  encode value := [encodeHeader tagBurn, encode value.vaultId, encode value.usddAsset,
    encode value.usddAmountBase, encode value.usdtAmountMicro, encode value.burnOutpoint,
    encode value.ethereumDestination].flatten

instance : CanonicalDecode Burn where
  decodeFrom := do
    decodeHeader tagBurn
    let vaultId ← Decoder.fixed 32
    let usddAsset ← Decoder.fixed 32
    let usddAmountBase ← Decoder.u64
    let usdtAmountMicro ← Decoder.u64
    let burnOutpoint ← (CanonicalDecode.decodeFrom : Decoder OutPoint)
    let ethereumDestination ← Decoder.fixed 20
    Decoder.validated Burn.validate ⟨vaultId, usddAsset, usddAmountBase, usdtAmountMicro,
      burnOutpoint, ethereumDestination⟩

instance : CanonicalEncode SolidityElementsBridgeState where
  encode value := encodeHeader tagSolidityElementsState ++ value.packedContents

instance [Hashing] : CanonicalDecode SolidityElementsBridgeState where
  decodeFrom := do
    decodeHeader tagSolidityElementsState
    let sequence ← Decoder.u64
    let burnCount ← Decoder.u64
    let elementsTipHash ← Decoder.fixed 32
    let elementsConsensusStateDigest ← Decoder.fixed 32
    let cumulativeBurnRoot ← Decoder.fixed 32
    let finalizedBitcoinBlockHash ← Decoder.fixed 32
    let bitcoinHeight ← Decoder.u64
    let elementsHeight ← Decoder.u64
    let bitcoinMedianTimePast ← Decoder.u64
    let bitcoinChainwork ← Decoder.fixed 32
    Decoder.validated SolidityElementsBridgeState.validate ⟨sequence, burnCount,
      elementsTipHash, elementsConsensusStateDigest, cumulativeBurnRoot,
      finalizedBitcoinBlockHash, bitcoinHeight, elementsHeight, bitcoinMedianTimePast,
      bitcoinChainwork⟩

instance : CanonicalEncode MintControllerState where
  encode value := [encode value.version, encode value.sequence, encode value.nextMintNonce,
    encode value.ethereumLightClientDigest, encode value.finalizedBeaconSlot,
    encode value.finalizedBeaconRoot, encode value.finalizedExecutionStateRoot,
    encode value.totalMintedUsddBase, encode value.configurationHash].flatten

instance : CanonicalDecode MintControllerState where
  decodeFrom := do
    let version ← Decoder.u32
    let sequence ← Decoder.u64
    let nextMintNonce ← Decoder.u64
    let ethereumLightClientDigest ← Decoder.fixed 32
    let finalizedBeaconSlot ← Decoder.u64
    let finalizedBeaconRoot ← Decoder.fixed 32
    let finalizedExecutionStateRoot ← Decoder.fixed 32
    let totalMintedUsddBase ← Decoder.u64
    let configurationHash ← Decoder.fixed 32
    Decoder.validated MintControllerState.validate ⟨version, sequence, nextMintNonce,
      ethereumLightClientDigest, finalizedBeaconSlot, finalizedBeaconRoot,
      finalizedExecutionStateRoot, totalMintedUsddBase, configurationHash⟩

instance : CanonicalEncode BurnProof where
  encode proof := (proof.siblings.toList.map encode).flatten

/-- The proof with a list of siblings, missing ones zero. -/
def BurnProof.ofList (siblings : List Hash32) : BurnProof :=
  ⟨Vector.ofFn fun level => siblings[level.val]?.getD .zero⟩

instance : CanonicalDecode BurnProof where
  decodeFrom := do
    let siblings ← Decoder.times burnAccumulatorDepth (Decoder.fixed 32 : Decoder Hash32)
    return .ofList siblings

end Usdd.Core

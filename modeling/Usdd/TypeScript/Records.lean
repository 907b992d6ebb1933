import Usdd.TypeScript.Decoder
/-!
# The records of the TypeScript client

Each record has an interface, a validator, an encoder that validates first, and a decoder that
validates last. Numbers are integers and byte fields have any length until they are checked.
-/
namespace Usdd.TypeScript

open Usdd.Foundation Usdd.Core

section Limits

/-- `U64_MAX`. -/
def u64Max : Int := u64Limit - 1

/-- `USDD_UNITS_PER_USDT_MICRO`. -/
def usddUnitsPerUsdtMicro : Int := 100

/-- `MAX_MINT_BATCH_USDD8`. -/
def maxMintBatchUSDD8 : Int := 20000000 * 100000000

/-- `MAX_MINT_BATCH_USDT6`. -/
def maxMintBatchUSDT6 : Int := maxMintBatchUSDD8 / usddUnitsPerUsdtMicro

/-- `MAX_DEPOSIT_AMOUNT_USDT6`. -/
def maxDepositAmountUSDT6 : Int := maxMintBatchUSDT6

/-- `MAX_BURN_AMOUNT_USDT6`. -/
def maxBurnAmountUSDT6 : Int := maxMintBatchUSDT6

/-- `slice` of a byte array. -/
def slice (bytes : List UInt8) (start stop : Nat) : List UInt8 :=
  (bytes.drop start).take (stop - start)

/-- `bytesToHex`. -/
def bytesToHex (bytes : List UInt8) : List Char :=
  (bytes.map fun byte =>
    [Nat.digitChar (byte.toNat / 16), Nat.digitChar (byte.toNat % 16)]).flatten

/-- `sha256`. -/
def sha256 [Hashing] (bytes : List UInt8) : List UInt8 := (hashBytes bytes).bytes

end Limits

section Deposits

/-- The interface `VaultDeposit`. -/
structure VaultDeposit where
  chainId : Int
  vault : List UInt8
  usdt : List UInt8
  nonce : Int
  depositor : List UInt8
  amountUSDT6 : Int
  elementsScript : List UInt8
  userSalt : List UInt8

/-- `DEPOSIT_ID_DOMAIN`. -/
def depositIdDomain : List UInt8 :=
  beBytes 32 0xc0bb4b992ddfe42d70536346a594fd9750dbf7e10534ed34aecdc78d203b88e0

/-- `depositPreimage`. -/
def depositPreimage [Hashing] (value : VaultDeposit) : Except String (List UInt8) := do
  assertLength value.vault 20 "vault"
  assertLength value.usdt 20 "USDT"
  assertLength value.depositor 20 "depositor"
  assertLength value.userSalt 32 "user salt"
  assertNonzero value.vault "vault"
  assertNonzero value.usdt "USDT"
  assertNonzero value.depositor "depositor"
  rejectIf (value.chainId ≤ 0 ∨ value.chainId ≥ u64Limit) "chain ID"
  assertU64 value.nonce "nonce"
  rejectIf (value.amountUSDT6 ≤ 0 ∨ value.amountUSDT6 > maxDepositAmountUSDT6 ∨
      value.amountUSDT6 > u64Max / usddUnitsPerUsdtMicro)
    "amount exceeds the vault limit or checked USDT6-to-USDD8 conversion"
  rejectIf (value.elementsScript.length = 0 ∨ value.elementsScript.length > 128)
    "Elements script length"
  concat [.ok depositIdDomain, u32be 1, uintBe value.chainId 32, .ok value.vault, .ok value.usdt,
    u64be value.nonce, .ok value.depositor, u64be value.amountUSDT6,
    .ok (sha256 value.elementsScript), .ok value.userSalt]

/-- The validation `depositPreimage` makes on the way, which `encodeVaultDeposit` and the decoder
call it for. -/
def validateVaultDeposit [Hashing] (value : VaultDeposit) : Except String Unit := do
  let _ ← depositPreimage value

/-- `encodeVaultDeposit`. -/
def encodeVaultDeposit [Hashing] (value : VaultDeposit) : Except String (List UInt8) := do
  validateVaultDeposit value
  concat [encodeRecordHeader 0x0101, u64be value.chainId, .ok value.vault, .ok value.usdt,
    u64be value.nonce, .ok value.depositor, u64be value.amountUSDT6,
    encodeByteString value.elementsScript, .ok value.userSalt]

/-- `decodeVaultDepositFrom`. -/
def decodeVaultDepositFrom [Hashing] : CanonicalDecoder VaultDeposit := do
  decodeRecordHeader 0x0101
  let chainId ← CanonicalDecoder.u64 "Ethereum chain ID"
  let vault ← CanonicalDecoder.fixed 20 "vault"
  let usdt ← CanonicalDecoder.fixed 20 "USDT"
  let nonce ← CanonicalDecoder.u64 "deposit nonce"
  let depositor ← CanonicalDecoder.fixed 20 "depositor"
  let amountUSDT6 ← CanonicalDecoder.u64 "USDT amount"
  let elementsScript ← CanonicalDecoder.byteString "Elements script"
  let userSalt ← CanonicalDecoder.fixed 32 "user salt"
  Reader.validated validateVaultDeposit
    ⟨chainId, vault, usdt, nonce, depositor, amountUSDT6, elementsScript, userSalt⟩

/-- `decodeVaultDeposit`. -/
def decodeVaultDeposit [Hashing] (bytes : List UInt8) : Except String VaultDeposit :=
  decodeExact bytes decodeVaultDepositFrom "vault deposit"

/-- The interface `EthereumFinalityWitness`. -/
structure EthereumFinalityWitness where
  ethereumLightClientDigest : List UInt8
  finalizedBeaconSlot : Int
  finalizedBeaconRoot : List UInt8
  finalizedExecutionBlock : List UInt8
  finalizedExecutionStateRoot : List UInt8
  executionBlockNumber : Int
  executionBlockTimestamp : Int

/-- `validateEthereumFinalityWitness`. -/
def validateEthereumFinalityWitness (value : EthereumFinalityWitness) : Except String Unit := do
  assertRequiredHash value.ethereumLightClientDigest "Ethereum light-client digest"
  assertPositiveU64 value.finalizedBeaconSlot "finalized beacon slot"
  assertRequiredHash value.finalizedBeaconRoot "finalized beacon root"
  assertRequiredHash value.finalizedExecutionBlock "finalized execution block"
  assertRequiredHash value.finalizedExecutionStateRoot "finalized execution state root"
  -- Zero is allowed in both fields of execution metadata.
  assertU64 value.executionBlockNumber "execution block number"
  assertU64 value.executionBlockTimestamp "execution block timestamp"

/-- `encodeEthereumFinalityWitness`. -/
def encodeEthereumFinalityWitness (value : EthereumFinalityWitness) :
    Except String (List UInt8) := do
  validateEthereumFinalityWitness value
  concat [encodeRecordHeader 0x0102, .ok value.ethereumLightClientDigest,
    u64be value.finalizedBeaconSlot, .ok value.finalizedBeaconRoot,
    .ok value.finalizedExecutionBlock, .ok value.finalizedExecutionStateRoot,
    u64be value.executionBlockNumber, u64be value.executionBlockTimestamp]

/-- `decodeEthereumFinalityWitnessFrom`. -/
def decodeEthereumFinalityWitnessFrom : CanonicalDecoder EthereumFinalityWitness := do
  decodeRecordHeader 0x0102
  let ethereumLightClientDigest ← CanonicalDecoder.fixed 32 "Ethereum light-client digest"
  let finalizedBeaconSlot ← CanonicalDecoder.u64 "finalized beacon slot"
  let finalizedBeaconRoot ← CanonicalDecoder.fixed 32 "finalized beacon root"
  let finalizedExecutionBlock ← CanonicalDecoder.fixed 32 "finalized execution block"
  let finalizedExecutionStateRoot ← CanonicalDecoder.fixed 32 "finalized execution state root"
  let executionBlockNumber ← CanonicalDecoder.u64 "execution block number"
  let executionBlockTimestamp ← CanonicalDecoder.u64 "execution block timestamp"
  Reader.validated validateEthereumFinalityWitness ⟨ethereumLightClientDigest,
    finalizedBeaconSlot, finalizedBeaconRoot, finalizedExecutionBlock,
    finalizedExecutionStateRoot, executionBlockNumber, executionBlockTimestamp⟩

/-- `decodeEthereumFinalityWitness`. -/
def decodeEthereumFinalityWitness (bytes : List UInt8) : Except String EthereumFinalityWitness :=
  decodeExact bytes decodeEthereumFinalityWitnessFrom "Ethereum finality witness"

end Deposits

section Burns

/-- The interface `BurnPayload`. -/
structure BurnPayload where
  vaultId : List UInt8
  ethereumRecipient : List UInt8
  amountUSDT6 : Int

/-- `encodeBurnPayload`. -/
def encodeBurnPayload (value : BurnPayload) : Except String (List UInt8) := do
  assertLength value.vaultId 32 "vault ID"
  assertLength value.ethereumRecipient 20 "Ethereum recipient"
  assertNonzero value.vaultId "vault ID"
  assertNonzero value.ethereumRecipient "Ethereum recipient"
  assertPositiveU64 value.amountUSDT6 "amount"
  rejectIf (value.amountUSDT6 > maxBurnAmountUSDT6)
    "burn exceeds the Elements explicit-output limit"
  let encoded ← concat [.ok [0x55, 0x53, 0x44, 0x44], .ok [1], .ok value.vaultId,
    .ok value.ethereumRecipient, u64be value.amountUSDT6]
  rejectIf (encoded.length ≠ 65) "internal burn payload length"
  return encoded

/-- `decodeBurnPayload`. -/
def decodeBurnPayload (bytes : List UInt8) : Except String BurnPayload := do
  rejectIf (bytes.length ≠ 65 ∨ bytesToHex (slice bytes 0 4) ≠ "55534444".toList ∨
    bytes[4]? ≠ some 1) "noncanonical burn payload"
  let value : BurnPayload :=
    ⟨slice bytes 5 37, slice bytes 37 57, readUintBe (slice bytes 57 65)⟩
  let _ ← encodeBurnPayload value
  return value

/-- The interface `OutPoint`. -/
structure OutPoint where
  txid : List UInt8
  vout : Int

/-- The interface `Burn`. -/
structure Burn where
  vaultId : List UInt8
  usddAsset : List UInt8
  amountUSDD8 : Int
  amountUSDT6 : Int
  burnOutpoint : OutPoint
  ethereumDestination : List UInt8

/-- `validateBurn`. -/
def validateBurn (value : Burn) : Except String Unit := do
  assertRequiredHash value.vaultId "vault ID"
  assertRequiredHash value.usddAsset "USDD asset"
  assertPositiveU64 value.amountUSDD8 "burn USDD amount"
  assertU64 value.amountUSDT6 "burn USDT amount"
  assertRequiredHash value.burnOutpoint.txid "burn transaction ID"
  assertU32Number value.burnOutpoint.vout "burn output index"
  assertLength value.ethereumDestination 20 "Ethereum destination"
  assertNonzero value.ethereumDestination "Ethereum destination"
  rejectIf (value.amountUSDD8 % usddUnitsPerUsdtMicro ≠ 0 ∨
      value.amountUSDD8 / usddUnitsPerUsdtMicro ≠ value.amountUSDT6 ∨
      value.amountUSDT6 > maxBurnAmountUSDT6 ∨ value.amountUSDD8 > maxMintBatchUSDD8)
    "burn is not exactly convertible to micro-USDT"

/-- `encodeBurn`. -/
def encodeBurn (value : Burn) : Except String (List UInt8) := do
  validateBurn value
  concat [encodeRecordHeader 0x0201, .ok value.vaultId, .ok value.usddAsset,
    u64be value.amountUSDD8, u64be value.amountUSDT6, .ok value.burnOutpoint.txid,
    u32be value.burnOutpoint.vout, .ok value.ethereumDestination]

/-- `decodeBurnFrom`. -/
def decodeBurnFrom : CanonicalDecoder Burn := do
  decodeRecordHeader 0x0201
  let vaultId ← CanonicalDecoder.fixed 32 "vault ID"
  let usddAsset ← CanonicalDecoder.fixed 32 "USDD asset"
  let amountUSDD8 ← CanonicalDecoder.u64 "burn USDD amount"
  let amountUSDT6 ← CanonicalDecoder.u64 "burn USDT amount"
  let txid ← CanonicalDecoder.fixed 32 "burn transaction ID"
  let vout ← CanonicalDecoder.u32 "burn output index"
  let ethereumDestination ← CanonicalDecoder.fixed 20 "Ethereum destination"
  Reader.validated validateBurn
    ⟨vaultId, usddAsset, amountUSDD8, amountUSDT6, ⟨txid, vout⟩, ethereumDestination⟩

/-- `decodeBurn`. -/
def decodeBurn (bytes : List UInt8) : Except String Burn :=
  decodeExact bytes decodeBurnFrom "burn"

/-- The interface `BurnProof`. -/
structure BurnProof where
  siblings : List (List UInt8)

/-- `validateBurnProof`. -/
def validateBurnProof (value : BurnProof) : Except String Unit := do
  rejectIf (value.siblings.length ≠ 64) "burn proof must contain exactly 64 siblings"
  value.siblings.forM fun sibling => assertLength sibling 32 "burn sibling"

/-- `encodeBurnProof`. -/
def encodeBurnProof (value : BurnProof) : Except String (List UInt8) := do
  validateBurnProof value
  concat (value.siblings.map .ok)

/-- `decodeBurnProofFrom`. -/
def decodeBurnProofFrom : CanonicalDecoder BurnProof := do
  return ⟨← Reader.times 64 (CanonicalDecoder.fixed 32 "burn sibling")⟩

/-- `decodeBurnProof`. -/
def decodeBurnProof (bytes : List UInt8) : Except String BurnProof :=
  decodeExact bytes decodeBurnProofFrom "burn proof"

/-- The interface `BurnAppend`. -/
structure BurnAppend where
  burn : Burn
  emptyBranch : BurnProof

/-- `encodeBurnAppend`. -/
def encodeBurnAppend (value : BurnAppend) : Except String (List UInt8) :=
  concat [encodeRecordHeader 0x5104, encodeBurn value.burn, encodeBurnProof value.emptyBranch]

/-- `decodeBurnAppendFrom`. -/
def decodeBurnAppendFrom : CanonicalDecoder BurnAppend := do
  decodeRecordHeader 0x5104
  let burn ← decodeBurnFrom
  let emptyBranch ← decodeBurnProofFrom
  return { burn, emptyBranch }

/-- `decodeBurnAppend`. -/
def decodeBurnAppend (bytes : List UInt8) : Except String BurnAppend :=
  decodeExact bytes decodeBurnAppendFrom "burn append"

end Burns

section Controller

/-- The interface `MintControllerState`. -/
structure MintControllerState where
  version : Int
  sequence : Int
  nextMintNonce : Int
  ethereumLightClientDigest : List UInt8
  finalizedBeaconSlot : Int
  finalizedBeaconRoot : List UInt8
  finalizedExecutionStateRoot : List UInt8
  totalMintedUSDDBase : Int
  configurationHash : List UInt8

/-- The checks of `encodeMintControllerState`. -/
def validateMintControllerState (value : MintControllerState) : Except String Unit := do
  rejectIf (value.version ≠ 1) "controller version"
  assertLength value.ethereumLightClientDigest 32 "Ethereum light-client digest"
  assertLength value.finalizedBeaconRoot 32 "finalized beacon root"
  assertLength value.finalizedExecutionStateRoot 32 "finalized execution state root"
  assertLength value.configurationHash 32 "configuration hash"
  assertU64 value.sequence "controller sequence"
  assertU64 value.nextMintNonce "next mint nonce"
  assertU64 value.finalizedBeaconSlot "finalized beacon slot"
  assertU64 value.totalMintedUSDDBase "total minted USDD"
  assertNonzero value.ethereumLightClientDigest "Ethereum light-client digest"
  assertNonzero value.configurationHash "configuration hash"
  if value.finalizedBeaconSlot = 0 then
    rejectIf (value.sequence ≠ 0 ∨ value.totalMintedUSDDBase ≠ 0 ∨
        isZero value.finalizedBeaconRoot = false ∨
        isZero value.finalizedExecutionStateRoot = false)
      "invalid bootstrap controller state"
  else
    rejectIf (isZero value.finalizedBeaconRoot = true ∨
        isZero value.finalizedExecutionStateRoot = true)
      "zero finalized state commitment"
  rejectIf (value.totalMintedUSDDBase % usddUnitsPerUsdtMicro ≠ 0) "nonconvertible minted total"

/-- `encodeMintControllerState`. -/
def encodeMintControllerState (value : MintControllerState) : Except String (List UInt8) := do
  validateMintControllerState value
  let encoded ← concat [u32be value.version, u64be value.sequence, u64be value.nextMintNonce,
    .ok value.ethereumLightClientDigest, u64be value.finalizedBeaconSlot,
    .ok value.finalizedBeaconRoot, .ok value.finalizedExecutionStateRoot,
    u64be value.totalMintedUSDDBase, .ok value.configurationHash]
  rejectIf (encoded.length ≠ 164) "internal controller encoding length"
  return encoded

/-- `decodeMintControllerState`. -/
def decodeMintControllerState (bytes : List UInt8) : Except String MintControllerState := do
  rejectIf (bytes.length ≠ 164) "controller state must be exactly 164 bytes"
  let value : MintControllerState := {
    version := readUintBe (slice bytes 0 4)
    sequence := readUintBe (slice bytes 4 12)
    nextMintNonce := readUintBe (slice bytes 12 20)
    ethereumLightClientDigest := slice bytes 20 52
    finalizedBeaconSlot := readUintBe (slice bytes 52 60)
    finalizedBeaconRoot := slice bytes 60 92
    finalizedExecutionStateRoot := slice bytes 92 124
    totalMintedUSDDBase := readUintBe (slice bytes 124 132)
    configurationHash := slice bytes 132 164 }
  let encoded ← encodeMintControllerState value
  rejectIf (bytesToHex encoded ≠ bytesToHex bytes) "noncanonical controller state"
  return value

/-- `decodeMintControllerStateFrom`. -/
def decodeMintControllerStateFrom : CanonicalDecoder MintControllerState := do
  StateT.lift (decodeMintControllerState
    (← CanonicalDecoder.take 164 "mint controller state"))

end Controller

section Batches

/-- The interface `MintOutput`. -/
structure MintOutput where
  depositId : List UInt8
  nonce : Int
  amountUSDT6 : Int
  amountUSDD8 : Int
  elementsScript : List UInt8

/-- `validateMintOutput`. -/
def validateMintOutput (value : MintOutput) : Except String Unit := do
  assertLength value.depositId 32 "deposit ID"
  assertNonzero value.depositId "deposit ID"
  assertU64 value.nonce "mint nonce"
  assertPositiveU64 value.amountUSDT6 "mint USDT amount"
  assertPositiveU64 value.amountUSDD8 "mint USDD amount"
  rejectIf (value.amountUSDT6 > maxDepositAmountUSDT6 ∨
      value.amountUSDT6 > u64Max / usddUnitsPerUsdtMicro ∨
      value.amountUSDT6 * usddUnitsPerUsdtMicro ≠ value.amountUSDD8)
    "USDT/USDD conversion mismatch"
  rejectIf (value.elementsScript.length = 0 ∨ value.elementsScript.length > 128)
    "invalid Elements script length"

/-- `encodeMintOutput`. -/
def encodeMintOutput (value : MintOutput) : Except String (List UInt8) := do
  validateMintOutput value
  concat [encodeRecordHeader 0x0103, .ok value.depositId, u64be value.nonce,
    u64be value.amountUSDT6, u64be value.amountUSDD8, encodeByteString value.elementsScript]

/-- `decodeMintOutputFrom`. -/
def decodeMintOutputFrom : CanonicalDecoder MintOutput := do
  decodeRecordHeader 0x0103
  let depositId ← CanonicalDecoder.fixed 32 "deposit ID"
  let nonce ← CanonicalDecoder.u64 "mint nonce"
  let amountUSDT6 ← CanonicalDecoder.u64 "mint USDT amount"
  let amountUSDD8 ← CanonicalDecoder.u64 "mint USDD amount"
  let elementsScript ← CanonicalDecoder.byteString "Elements script"
  Reader.validated validateMintOutput ⟨depositId, nonce, amountUSDT6, amountUSDD8, elementsScript⟩

/-- `decodeMintOutput`. -/
def decodeMintOutput (bytes : List UInt8) : Except String MintOutput :=
  decodeExact bytes decodeMintOutputFrom "mint output"

/-- The interface `MintBatch`. -/
structure MintBatch where
  firstNonce : Int
  nextNonce : Int
  outputs : List MintOutput
  totalAmountUSDT6 : Int
  totalAmountUSDD8 : Int

/-- The loop of `validateMintBatch`, from a position of the batch on. -/
def checkBatchOutputs (firstNonce : Int) :
    Nat → Int → Int → List MintOutput → Except String (Int × Int)
  | _, usdtTotal, usddTotal, [] => return (usdtTotal, usddTotal)
  | offset, usdtTotal, usddTotal, output :: outputs => do
    validateMintOutput output
    let expectedNonce ← checkedAddU64 firstNonce offset "batch nonce"
    rejectIf (output.nonce ≠ expectedNonce) "mint output nonces are not consecutive"
    let usdtTotal ← checkedAddU64 usdtTotal output.amountUSDT6 "batch USDT total"
    let usddTotal ← checkedAddU64 usddTotal output.amountUSDD8 "batch USDD total"
    checkBatchOutputs firstNonce (offset + 1) usdtTotal usddTotal outputs

/-- `validateMintBatch`. -/
def validateMintBatch (value : MintBatch) : Except String Unit := do
  assertU64 value.firstNonce "first mint nonce"
  assertU64 value.nextNonce "next mint nonce"
  assertU64 value.totalAmountUSDT6 "batch USDT total"
  assertU64 value.totalAmountUSDD8 "batch USDD total"
  rejectIf (value.outputs.length = 0 ∨ value.outputs.length > 64) "mint batch size must be 1..64"
  let expectedNext ← checkedAddU64 value.firstNonce value.outputs.length "batch next nonce"
  rejectIf (value.nextNonce ≠ expectedNext) "wrong batch next nonce"
  let (usdtTotal, usddTotal) ← checkBatchOutputs value.firstNonce 0 0 0 value.outputs
  rejectIf (usdtTotal ≠ value.totalAmountUSDT6 ∨ usddTotal ≠ value.totalAmountUSDD8 ∨
      usdtTotal > u64Max / usddUnitsPerUsdtMicro ∨
      usdtTotal * usddUnitsPerUsdtMicro ≠ usddTotal)
    "wrong mint batch totals"
  rejectIf (usdtTotal > maxMintBatchUSDT6 ∨ usddTotal > maxMintBatchUSDD8)
    "mint batch exceeds the Elements explicit-output budget"

/-- `encodeMintBatch`. -/
def encodeMintBatch (value : MintBatch) : Except String (List UInt8) := do
  validateMintBatch value
  concat [encodeRecordHeader 0x0104, u64be value.firstNonce, u64be value.nextNonce,
    .ok [UInt8.ofNat value.outputs.length], concat (value.outputs.map encodeMintOutput),
    u64be value.totalAmountUSDT6, u64be value.totalAmountUSDD8]

/-- `decodeMintBatchFrom`. -/
def decodeMintBatchFrom : CanonicalDecoder MintBatch := do
  decodeRecordHeader 0x0104
  let firstNonce ← CanonicalDecoder.u64 "first mint nonce"
  let nextNonce ← CanonicalDecoder.u64 "next mint nonce"
  let count ← CanonicalDecoder.u8 "mint output count"
  Reader.check (rejectIf (count = 0 ∨ count > 64) "mint batch size must be 1..64")
  let outputs ← Reader.times count decodeMintOutputFrom
  let totalAmountUSDT6 ← CanonicalDecoder.u64 "batch USDT total"
  let totalAmountUSDD8 ← CanonicalDecoder.u64 "batch USDD total"
  Reader.validated validateMintBatch
    ⟨firstNonce, nextNonce, outputs, totalAmountUSDT6, totalAmountUSDD8⟩

/-- `decodeMintBatch`. -/
def decodeMintBatch (bytes : List UInt8) : Except String MintBatch :=
  decodeExact bytes decodeMintBatchFrom "mint batch"

end Batches

section Elements

/-- `encodeSolidityElementsBridgeState`. -/
def encodeSolidityElementsBridgeState (value : SolidityElementsBridgeState) :
    Except String (List UInt8) := do
  validateSolidityElementsBridgeState value
  concat [encodeRecordHeader 0x0204, u64be value.sequence, u64be value.burnCount,
    .ok value.elementsTipHash, .ok value.elementsConsensusStateDigest,
    .ok value.cumulativeBurnRoot, .ok value.finalizedBitcoinBlockHash, u64be value.bitcoinHeight,
    u64be value.elementsHeight, u64be value.bitcoinMedianTimePast, .ok value.bitcoinChainwork]

/-- `decodeSolidityElementsBridgeStateFrom`. -/
def decodeSolidityElementsBridgeStateFrom : CanonicalDecoder SolidityElementsBridgeState := do
  decodeRecordHeader 0x0204
  let sequence ← CanonicalDecoder.u64 "Elements state sequence"
  let burnCount ← CanonicalDecoder.u64 "burn count"
  let elementsTipHash ← CanonicalDecoder.fixed 32 "Elements tip hash"
  let elementsConsensusStateDigest ←
    CanonicalDecoder.fixed 32 "Elements consensus state digest"
  let cumulativeBurnRoot ← CanonicalDecoder.fixed 32 "cumulative burn root"
  let finalizedBitcoinBlockHash ← CanonicalDecoder.fixed 32 "finalized Bitcoin block hash"
  let bitcoinHeight ← CanonicalDecoder.u64 "Bitcoin height"
  let elementsHeight ← CanonicalDecoder.u64 "Elements height"
  let bitcoinMedianTimePast ← CanonicalDecoder.u64 "Bitcoin median time past"
  let bitcoinChainwork ← CanonicalDecoder.fixed 32 "Bitcoin chainwork"
  Reader.validated validateSolidityElementsBridgeState ⟨sequence, burnCount, elementsTipHash,
    elementsConsensusStateDigest, cumulativeBurnRoot, finalizedBitcoinBlockHash, bitcoinHeight,
    elementsHeight, bitcoinMedianTimePast, bitcoinChainwork⟩

/-- `decodeSolidityElementsBridgeState`. -/
def decodeSolidityElementsBridgeState (bytes : List UInt8) :
    Except String SolidityElementsBridgeState :=
  decodeExact bytes decodeSolidityElementsBridgeStateFrom "Solidity Elements state"

end Elements

end Usdd.TypeScript

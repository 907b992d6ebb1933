import Usdd.Core.Manifest
/-!
# Payloads, claims, events and proofs

The records that travel outside controller transitions: the payload of an Elements burn output,
the Solidity claim of a burn, an Elements event, a Merkle proof, and the decoder of the manifest.
-/
namespace Usdd.Core

open Usdd.Foundation

/-- `types::TAG_SOLIDITY_BURN_CLAIM`. -/
def tagSolidityBurnClaim : UInt16 := 0x0203

/-- `types::TAG_ELEMENTS_EVENT`. -/
def tagElementsEvent : UInt16 := 0x0202

/-- `types::BurnPayload`: the payload of an Elements burn output. -/
structure BurnPayload where
  vaultId : Hash32
  ethereumRecipient : EthAddress
  amountUsdtMicro : UInt64
deriving DecidableEq

/-- The prefix `"USDD"` of a burn payload. -/
def burnPayloadMagic : FixedBytes 4 := .ofNat 4 0x55534444

/-- `Burn::burn_payload`. -/
def Burn.burnPayload (burn : Burn) : BurnPayload :=
  ⟨burn.vaultId, burn.ethereumDestination, burn.usdtAmountMicro⟩

/-- `BurnPayload::validate`. -/
def BurnPayload.validate (payload : BurnPayload) : Except DecodeError Unit :=
  rejectIf (payload.vaultId = .zero ∨ payload.ethereumRecipient = .zero ∨
      payload.amountUsdtMicro = 0 ∨ payload.amountUsdtMicro > maxBurnAmountUsdtMicro ∨
      usdtMicroToUsddBase payload.amountUsdtMicro = none)
    (.invalidValue "invalid burn payload")

instance : CanonicalEncode BurnPayload where
  encode value := [encode burnPayloadMagic, encode (1 : UInt8), encode value.vaultId,
    encode value.ethereumRecipient, encode value.amountUsdtMicro].flatten

/-- The header of a burn payload. -/
def decodeBurnPayloadHeader : Decoder Unit := do
  let wrong := DecodeError.invalidValue "invalid burn payload header"
  let magic ← Decoder.fixed 4
  Decoder.check (rejectIf (magic ≠ burnPayloadMagic) wrong)
  let version ← Decoder.u8
  Decoder.check (rejectIf (version ≠ 1) wrong)

instance : CanonicalDecode BurnPayload where
  decodeFrom := do
    decodeBurnPayloadHeader
    let vaultId ← Decoder.fixed 32
    let ethereumRecipient ← Decoder.fixed 20
    let amountUsdtMicro ← Decoder.u64
    Decoder.validated BurnPayload.validate ⟨vaultId, ethereumRecipient, amountUsdtMicro⟩

instance : CanonicalEncode SolidityBurnClaim where
  encode value := [encodeHeader tagSolidityBurnClaim, encode value.protocolVersion,
    encode value.elementsGenesisHash, encode value.usddAssetId, encode value.vaultId,
    encode value.burnTxidDisplay, encode value.burnVout, encode value.burnId,
    encode value.amountUsdtMicro, encode value.recipient].flatten

instance [Hashing] : CanonicalDecode SolidityBurnClaim where
  decodeFrom := do
    decodeHeader tagSolidityBurnClaim
    let protocolVersion ← Decoder.u32
    let elementsGenesisHash ← Decoder.fixed 32
    let usddAssetId ← Decoder.fixed 32
    let vaultId ← Decoder.fixed 32
    let burnTxidDisplay ← Decoder.fixed 32
    let burnVout ← Decoder.u32
    let burnId ← Decoder.fixed 32
    let amountUsdtMicro ← Decoder.u64
    let recipient ← Decoder.fixed 20
    Decoder.validated SolidityBurnClaim.validate ⟨protocolVersion, elementsGenesisHash,
      usddAssetId, vaultId, burnTxidDisplay, burnVout, burnId, amountUsdtMicro, recipient⟩

/-- `types::ElementsEventKind`. -/
inductive ElementsEventKind where
  | mint
  | burn
deriving DecidableEq

/-- The byte of an event kind. -/
def ElementsEventKind.tag : ElementsEventKind → UInt8
  | .mint => 1
  | .burn => 2

instance : CanonicalEncode ElementsEventKind := ⟨fun kind => encode kind.tag⟩

/-- The event kind of a byte. -/
def ElementsEventKind.ofTag (tag : UInt8) : Except DecodeError ElementsEventKind :=
  if tag = 1 then .ok .mint else if tag = 2 then .ok .burn
  else .error (.invalidTag "ElementsEventKind" tag.toUInt64)

instance : CanonicalDecode ElementsEventKind where
  decodeFrom := do
    let tag ← Decoder.u8
    StateT.lift (ElementsEventKind.ofTag tag)

/-- `types::ElementsEvent`. -/
structure ElementsEvent where
  kind : ElementsEventKind
  eventId : Hash32
  outpoint : OutPoint
  usddAmountBase : UInt64
  payloadCommitment : Hash32
  elementsBlockHash : Hash32
  elementsHeight : UInt64
  bitcoinBmmBlockHash : Hash32
  bitcoinBmmHeight : UInt64
  bitcoinConfirmations : UInt32
deriving DecidableEq

/-- The checks that `ElementsEvent::decode_from` makes of the fields it read. -/
def ElementsEvent.validate (event : ElementsEvent) : Except DecodeError Unit :=
  rejectIf (event.eventId = .zero ∨ event.outpoint.txid = .zero ∨ event.usddAmountBase = 0 ∨
      event.payloadCommitment = .zero ∨ event.elementsBlockHash = .zero ∨
      event.bitcoinBmmBlockHash = .zero)
    (.invalidValue "invalid Elements event")

instance : CanonicalEncode ElementsEvent where
  encode value := [encodeHeader tagElementsEvent, encode value.kind, encode value.eventId,
    encode value.outpoint, encode value.usddAmountBase, encode value.payloadCommitment,
    encode value.elementsBlockHash, encode value.elementsHeight,
    encode value.bitcoinBmmBlockHash, encode value.bitcoinBmmHeight,
    encode value.bitcoinConfirmations].flatten

instance : CanonicalDecode ElementsEvent where
  decodeFrom := do
    decodeHeader tagElementsEvent
    let kind ← (CanonicalDecode.decodeFrom : Decoder ElementsEventKind)
    let eventId ← Decoder.fixed 32
    let outpoint ← (CanonicalDecode.decodeFrom : Decoder OutPoint)
    let usddAmountBase ← Decoder.u64
    let payloadCommitment ← Decoder.fixed 32
    let elementsBlockHash ← Decoder.fixed 32
    let elementsHeight ← Decoder.u64
    let bitcoinBmmBlockHash ← Decoder.fixed 32
    let bitcoinBmmHeight ← Decoder.u64
    let bitcoinConfirmations ← Decoder.u32
    Decoder.validated ElementsEvent.validate ⟨kind, eventId, outpoint, usddAmountBase,
      payloadCommitment, elementsBlockHash, elementsHeight, bitcoinBmmBlockHash,
      bitcoinBmmHeight, bitcoinConfirmations⟩

/-- `merkle::MerkleProof`, with the siblings from the leaf to the root. -/
structure MerkleProof where
  leafIndex : UInt64
  leafCount : UInt64
  siblings : List Hash32
deriving DecidableEq

instance : CanonicalEncode MerkleProof where
  encode value := [encode value.leafIndex, encode value.leafCount,
    encode (UInt32.ofNat value.siblings.length), (value.siblings.map encode).flatten].flatten

instance : CanonicalDecode MerkleProof where
  decodeFrom := do
    let leafIndex ← Decoder.u64
    let leafCount ← Decoder.u64
    let siblingCount ← Decoder.u32
    Decoder.check (rejectIf (siblingCount.toNat > 64)
      (.invalidLength 64 siblingCount.toNat))
    let siblings ← Decoder.times siblingCount.toNat (Decoder.fixed 32 : Decoder Hash32)
    return { leafIndex, leafCount, siblings }

/-- The header of a manifest: schema and tag have one error. -/
def decodeManifestHeader : Decoder Unit := do
  let wrong := DecodeError.invalidValue "invalid manifest header"
  let schema ← Decoder.u16
  Decoder.check (rejectIf (schema ≠ encodingSchema) wrong)
  let tag ← Decoder.u16
  Decoder.check (rejectIf (tag ≠ tagManifest) wrong)

/-- The validation of a decoded manifest, whose errors become one. -/
def ProtocolManifest.validateDecoded [Hashing] (manifest : ProtocolManifest) :
    Except DecodeError Unit :=
  manifest.validate.mapError fun _ => .invalidValue "invalid protocol manifest"

instance [Hashing] : CanonicalDecode ProtocolManifest where
  decodeFrom := do
    decodeManifestHeader
    let ethereumChainId ← Decoder.u64
    let ethereumGenesis ← Decoder.fixed 32
    let bitcoinGenesis ← Decoder.fixed 32
    let elementsGenesis ← Decoder.fixed 32
    let drivechainSlot ← Decoder.u8
    let usdt ← Decoder.fixed 20
    let usddAsset ← Decoder.fixed 32
    let usddReissuanceToken ← Decoder.fixed 32
    let usddPublicAbf ← Decoder.fixed 32
    let vault ← Decoder.fixed 20
    let vaultId ← Decoder.fixed 32
    let vaultCodeHash ← Decoder.fixed 32
    let proofVerifier ← Decoder.fixed 20
    let proofVerifierRuntimeCodeHash ← Decoder.fixed 32
    let verifierConfigHash ← Decoder.fixed 32
    let ethereumGuestProgramId ← Decoder.fixed 32
    let elementsGuestProgramId ← Decoder.fixed 32
    let sp1VersionMajor ← Decoder.u16
    let sp1VersionMinor ← Decoder.u16
    let sp1VersionPatch ← Decoder.u16
    let sp1GitCommit ← Decoder.fixed 20
    let compressedProofCircuitVersion ← Decoder.u16
    let compressedProofCodecVersion ← Decoder.u16
    let recursionVerifierConstantsHash ← Decoder.fixed 32
    let publicDigestTag ← Decoder.u8
    let bootstrapFinalizedBeaconSlot ← Decoder.u64
    let bootstrapFinalizedBeaconRoot ← Decoder.fixed 32
    let bootstrapExecutionStateRoot ← Decoder.fixed 32
    let bootstrapEthLightClientDigest ← Decoder.fixed 32
    let controllerCmr ← Decoder.fixed 32
    let controllerConfigurationHash ← Decoder.fixed 32
    let domainSeparatorTableHash ← Decoder.fixed 32
    let issuanceTxidDisplay ← Decoder.fixed 32
    let issuanceVout ← Decoder.u32
    let assetEntropy ← Decoder.fixed 32
    let initialControllerStateHash ← Decoder.fixed 32
    let activeLiabilityCapUsdtMicro ← Decoder.u64
    let minimumActivationChainwork ← Decoder.fixed 32
    let maxEthereumFinalitySlotGap ← Decoder.u64
    let maxFinalizedToBmmMtpAgeSeconds ← Decoder.u64
    let minimumBitcoinConfirmations ← Decoder.u32
    let firstDepositNonce ← Decoder.u64
    let usdtDisplayDecimals ← Decoder.u8
    let usddDisplayDecimals ← Decoder.u8
    let usddUnitsPerUsdtMicro ← Decoder.u64
    Decoder.validated ProtocolManifest.validateDecoded ⟨ethereumChainId, ethereumGenesis,
      bitcoinGenesis, elementsGenesis, drivechainSlot, usdt, usddAsset, usddReissuanceToken,
      usddPublicAbf, vault, vaultId, vaultCodeHash, proofVerifier, proofVerifierRuntimeCodeHash,
      verifierConfigHash, ethereumGuestProgramId, elementsGuestProgramId, sp1VersionMajor,
      sp1VersionMinor, sp1VersionPatch, sp1GitCommit, compressedProofCircuitVersion,
      compressedProofCodecVersion, recursionVerifierConstantsHash, publicDigestTag,
      bootstrapFinalizedBeaconSlot, bootstrapFinalizedBeaconRoot, bootstrapExecutionStateRoot,
      bootstrapEthLightClientDigest, controllerCmr, controllerConfigurationHash,
      domainSeparatorTableHash, issuanceTxidDisplay, issuanceVout, assetEntropy,
      initialControllerStateHash, activeLiabilityCapUsdtMicro, minimumActivationChainwork,
      maxEthereumFinalitySlotGap, maxFinalizedToBmmMtpAgeSeconds, minimumBitcoinConfirmations,
      firstDepositNonce, usdtDisplayDecimals, usddDisplayDecimals, usddUnitsPerUsdtMicro⟩

end Usdd.Core

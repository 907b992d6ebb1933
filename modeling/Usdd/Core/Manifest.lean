import Usdd.Core.Codec
/-!
# The protocol manifest

The immutable commitments of one deployment. Several fields are hashes of other fields: the
vault's identity, the configuration of the mint controller, that of the outbound verifier, and
the initial controller state; validation recomputes each of them.
-/
namespace Usdd.Core

open Usdd.Foundation

/-- `manifest::TAG_MANIFEST`. -/
def tagManifest : UInt16 := 0x4001

/-- `manifest::SOLIDITY_VAULT_ID_DOMAIN`. -/
def solidityVaultIdDomain : Hash32 :=
  .ofNat 32 0xfb5581acfced59c74e849862350b68b47d96b08d64e095a1cbd3b78a1298a35c

/-- `lib::SP1_VERSION_MAJOR`. -/
def sp1VersionMajor : UInt16 := 6

/-- `lib::SP1_VERSION_MINOR`. -/
def sp1VersionMinor : UInt16 := 3

/-- `lib::SP1_VERSION_PATCH`. -/
def sp1VersionPatch : UInt16 := 1

/-- `lib::SP1_GIT_COMMIT`. -/
def sp1GitCommit : FixedBytes 20 := .ofNat 20 0x8252c2905ce32964df68248117015c61ebb854db

/-- `lib::SP1_COMPRESSED_CIRCUIT_VERSION`. -/
def sp1CompressedCircuitVersion : UInt16 := 1

/-- `lib::SP1_COMPRESSED_CODEC_VERSION`. -/
def sp1CompressedCodecVersion : UInt16 := 1

/-- `lib::SHA256_DIGEST_TAG`. -/
def sha256DigestTag : UInt8 := 1

/-- `manifest::ProtocolManifest`. -/
structure ProtocolManifest where
  ethereumChainId : UInt64
  ethereumGenesis : Hash32
  bitcoinGenesis : Hash32
  elementsGenesis : Hash32
  drivechainSlot : UInt8
  usdt : EthAddress
  usddAsset : Hash32
  usddReissuanceToken : Hash32
  usddPublicAbf : Hash32
  vault : EthAddress
  vaultId : Hash32
  vaultCodeHash : Hash32
  proofVerifier : EthAddress
  proofVerifierRuntimeCodeHash : Hash32
  verifierConfigHash : Hash32
  ethereumGuestProgramId : Hash32
  elementsGuestProgramId : Hash32
  sp1VersionMajor : UInt16
  sp1VersionMinor : UInt16
  sp1VersionPatch : UInt16
  sp1GitCommit : FixedBytes 20
  compressedProofCircuitVersion : UInt16
  compressedProofCodecVersion : UInt16
  recursionVerifierConstantsHash : Hash32
  publicDigestTag : UInt8
  bootstrapFinalizedBeaconSlot : UInt64
  bootstrapFinalizedBeaconRoot : Hash32
  bootstrapExecutionStateRoot : Hash32
  bootstrapEthLightClientDigest : Hash32
  controllerCmr : Hash32
  controllerConfigurationHash : Hash32
  domainSeparatorTableHash : Hash32
  issuanceTxidDisplay : Hash32
  issuanceVout : UInt32
  assetEntropy : Hash32
  initialControllerStateHash : Hash32
  activeLiabilityCapUsdtMicro : UInt64
  minimumActivationChainwork : Hash32
  maxEthereumFinalitySlotGap : UInt64
  maxFinalizedToBmmMtpAgeSeconds : UInt64
  minimumBitcoinConfirmations : UInt32
  firstDepositNonce : UInt64
  usdtDisplayDecimals : UInt8
  usddDisplayDecimals : UInt8
  usddUnitsPerUsdtMicro : UInt64
deriving DecidableEq

/-- `manifest::ManifestError`. -/
inductive ManifestError where
  | zeroField (name : String)
  | wrongDrivechainSlot (expected actual : UInt8)
  | wrongAmountScale
  | wrongSp1Identity
  | wrongDomainSeparatorTable
  | wrongControllerConfiguration
  | wrongOutboundVerifierConfiguration
  | wrongFinalityThresholds
  | wrongVaultId
  | wrongLiabilityCap
  | wrongFirstDepositNonce
  | wrongInitialControllerState
  | encoding (error : DecodeError)
deriving DecidableEq

instance : CanonicalEncode ProtocolManifest where
  encode value := [encode encodingSchema, encode tagManifest, encode value.ethereumChainId,
    encode value.ethereumGenesis, encode value.bitcoinGenesis, encode value.elementsGenesis,
    encode value.drivechainSlot, encode value.usdt, encode value.usddAsset,
    encode value.usddReissuanceToken, encode value.usddPublicAbf, encode value.vault,
    encode value.vaultId, encode value.vaultCodeHash, encode value.proofVerifier,
    encode value.proofVerifierRuntimeCodeHash, encode value.verifierConfigHash,
    encode value.ethereumGuestProgramId, encode value.elementsGuestProgramId,
    encode value.sp1VersionMajor, encode value.sp1VersionMinor, encode value.sp1VersionPatch,
    encode value.sp1GitCommit, encode value.compressedProofCircuitVersion,
    encode value.compressedProofCodecVersion, encode value.recursionVerifierConstantsHash,
    encode value.publicDigestTag, encode value.bootstrapFinalizedBeaconSlot,
    encode value.bootstrapFinalizedBeaconRoot, encode value.bootstrapExecutionStateRoot,
    encode value.bootstrapEthLightClientDigest, encode value.controllerCmr,
    encode value.controllerConfigurationHash, encode value.domainSeparatorTableHash,
    encode value.issuanceTxidDisplay, encode value.issuanceVout, encode value.assetEntropy,
    encode value.initialControllerStateHash, encode value.activeLiabilityCapUsdtMicro,
    encode value.minimumActivationChainwork, encode value.maxEthereumFinalitySlotGap,
    encode value.maxFinalizedToBmmMtpAgeSeconds, encode value.minimumBitcoinConfirmations,
    encode value.firstDepositNonce, encode value.usdtDisplayDecimals,
    encode value.usddDisplayDecimals, encode value.usddUnitsPerUsdtMicro].flatten

namespace ProtocolManifest

/-- The hashes that must not be zero, with the names their errors use. -/
def requiredHashes (manifest : ProtocolManifest) : List (String × Hash32) :=
  [("ethereum_genesis", manifest.ethereumGenesis), ("bitcoin_genesis", manifest.bitcoinGenesis),
    ("elements_genesis", manifest.elementsGenesis), ("usdd_asset", manifest.usddAsset),
    ("usdd_reissuance_token", manifest.usddReissuanceToken),
    ("usdd_public_abf", manifest.usddPublicAbf), ("vault_id", manifest.vaultId),
    ("vault_code_hash", manifest.vaultCodeHash),
    ("proof_verifier_runtime_code_hash", manifest.proofVerifierRuntimeCodeHash),
    ("verifier_config_hash", manifest.verifierConfigHash),
    ("ethereum_guest_program_id", manifest.ethereumGuestProgramId),
    ("elements_guest_program_id", manifest.elementsGuestProgramId),
    ("recursion_verifier_constants_hash", manifest.recursionVerifierConstantsHash),
    ("bootstrap_finalized_beacon_root", manifest.bootstrapFinalizedBeaconRoot),
    ("bootstrap_execution_state_root", manifest.bootstrapExecutionStateRoot),
    ("bootstrap_eth_light_client_digest", manifest.bootstrapEthLightClientDigest),
    ("controller_cmr", manifest.controllerCmr),
    ("controller_configuration_hash", manifest.controllerConfigurationHash),
    ("domain_separator_table_hash", manifest.domainSeparatorTableHash),
    ("issuance_txid_display", manifest.issuanceTxidDisplay),
    ("asset_entropy", manifest.assetEntropy),
    ("initial_controller_state_hash", manifest.initialControllerStateHash),
    ("minimum_activation_chainwork", manifest.minimumActivationChainwork)]

/-- The preimage of `ProtocolManifest::compute_vault_id`. -/
def vaultIdPreimage (manifest : ProtocolManifest) : List UInt8 :=
  [encode solidityVaultIdDomain, paddedWord manifest.ethereumChainId, encode manifest.vault,
    encode manifest.usdt, encode manifest.proofVerifier, encode manifest.elementsGuestProgramId,
    encode manifest.verifierConfigHash, encode manifest.elementsGenesis,
    encode manifest.usddAsset, paddedWord manifest.activeLiabilityCapUsdtMicro,
    encode manifest.minimumActivationChainwork].flatten

/-- The payload of `ProtocolManifest::compute_controller_configuration_hash`. -/
def controllerConfiguration (manifest : ProtocolManifest) : List UInt8 :=
  [encode manifest.ethereumChainId, encode manifest.ethereumGenesis,
    encode manifest.drivechainSlot, encode manifest.usdt, encode manifest.vault,
    encode manifest.vaultCodeHash, encode manifest.ethereumGuestProgramId,
    encode manifest.sp1VersionMajor, encode manifest.sp1VersionMinor,
    encode manifest.sp1VersionPatch, encode manifest.sp1GitCommit,
    encode manifest.compressedProofCircuitVersion, encode manifest.compressedProofCodecVersion,
    encode manifest.recursionVerifierConstantsHash, encode manifest.publicDigestTag,
    encode manifest.bootstrapFinalizedBeaconSlot, encode manifest.bootstrapFinalizedBeaconRoot,
    encode manifest.bootstrapExecutionStateRoot, encode manifest.bootstrapEthLightClientDigest,
    encode manifest.domainSeparatorTableHash, encode manifest.activeLiabilityCapUsdtMicro,
    encode manifest.maxEthereumFinalitySlotGap, encode manifest.maxFinalizedToBmmMtpAgeSeconds,
    encode manifest.firstDepositNonce, encode manifest.usdtDisplayDecimals,
    encode manifest.usddDisplayDecimals, encode manifest.usddUnitsPerUsdtMicro].flatten

/-- The payload of `ProtocolManifest::compute_outbound_verifier_config_hash`. -/
def outboundVerifierConfig (manifest : ProtocolManifest) : List UInt8 :=
  [encode encodingSchema, encode manifest.ethereumChainId, encode manifest.bitcoinGenesis,
    encode manifest.elementsGenesis, encode manifest.drivechainSlot, encode manifest.vault,
    encode manifest.usddAsset, encode manifest.elementsGuestProgramId,
    encode manifest.sp1VersionMajor, encode manifest.sp1VersionMinor,
    encode manifest.sp1VersionPatch, encode manifest.sp1GitCommit,
    encode manifest.compressedProofCircuitVersion, encode manifest.compressedProofCodecVersion,
    encode manifest.recursionVerifierConstantsHash, encode manifest.publicDigestTag,
    encode manifest.domainSeparatorTableHash, encode manifest.minimumActivationChainwork,
    encode manifest.minimumBitcoinConfirmations, encodeCount burnAccumulatorDepth,
    encodeCount maxBurnAppendsPerStateTransition].flatten

/-- The state whose hash `compute_initial_controller_state_hash` returns. -/
def initialControllerState (manifest : ProtocolManifest) : MintControllerState where
  version := 1
  sequence := 0
  nextMintNonce := manifest.firstDepositNonce
  ethereumLightClientDigest := manifest.bootstrapEthLightClientDigest
  finalizedBeaconSlot := manifest.bootstrapFinalizedBeaconSlot
  finalizedBeaconRoot := manifest.bootstrapFinalizedBeaconRoot
  finalizedExecutionStateRoot := manifest.bootstrapExecutionStateRoot
  totalMintedUsddBase := 0
  configurationHash := manifest.controllerConfigurationHash

variable [Hashing]

/-- `ProtocolManifest::compute_vault_id`. -/
def computeVaultId (manifest : ProtocolManifest) : Hash32 := hashBytes manifest.vaultIdPreimage

/-- `ProtocolManifest::compute_controller_configuration_hash`. -/
def computeControllerConfigurationHash (manifest : ProtocolManifest) : Hash32 :=
  domainHash .controllerConfig manifest.controllerConfiguration

/-- `ProtocolManifest::compute_outbound_verifier_config_hash`. -/
def computeOutboundVerifierConfigHash (manifest : ProtocolManifest) : Hash32 :=
  domainHash .outboundVerifierConfig manifest.outboundVerifierConfig

/-- `ProtocolManifest::compute_initial_controller_state_hash`. -/
def computeInitialControllerStateHash (manifest : ProtocolManifest) : Hash32 :=
  hashBytes (encode manifest.initialControllerState)

/-- `ProtocolManifest::validate`. -/
def validate (manifest : ProtocolManifest) : Except ManifestError Unit := do
  rejectIf (manifest.ethereumChainId = 0) (.zeroField "ethereum_chain_id")
  manifest.requiredHashes.forM fun (name, hash) => rejectIf (hash = .zero) (.zeroField name)
  rejectIf (manifest.usdt = .zero) (.zeroField "usdt")
  rejectIf (manifest.vault = .zero) (.zeroField "vault")
  rejectIf (manifest.proofVerifier = .zero) (.zeroField "proof_verifier")
  rejectIf (manifest.drivechainSlot ≠ Core.drivechainSlot)
    (.wrongDrivechainSlot Core.drivechainSlot manifest.drivechainSlot)
  rejectIf (manifest.minimumBitcoinConfirmations < Core.minimumBitcoinConfirmations ∨
      manifest.maxEthereumFinalitySlotGap ≠ Core.maxEthereumFinalitySlotGap ∨
      manifest.maxFinalizedToBmmMtpAgeSeconds ≠ Core.maxFinalizedToBmmMtpAgeSeconds)
    .wrongFinalityThresholds
  rejectIf (manifest.bootstrapFinalizedBeaconSlot = 0)
    (.zeroField "bootstrap_finalized_beacon_slot")
  rejectIf (manifest.usdtDisplayDecimals ≠ 6 ∨ manifest.usddDisplayDecimals ≠ 8 ∨
      manifest.usddUnitsPerUsdtMicro ≠ Core.usddUnitsPerUsdtMicro ∨ usdtScale ≠ 1000000 ∨
      usddScale ≠ 100000000)
    .wrongAmountScale
  rejectIf (manifest.sp1VersionMajor ≠ Core.sp1VersionMajor ∨
      manifest.sp1VersionMinor ≠ Core.sp1VersionMinor ∨
      manifest.sp1VersionPatch ≠ Core.sp1VersionPatch ∨
      manifest.sp1GitCommit ≠ Core.sp1GitCommit ∨
      manifest.compressedProofCircuitVersion ≠ sp1CompressedCircuitVersion ∨
      manifest.compressedProofCodecVersion ≠ sp1CompressedCodecVersion ∨
      manifest.publicDigestTag ≠ sha256DigestTag)
    .wrongSp1Identity
  rejectIf (manifest.domainSeparatorTableHash ≠ Core.domainSeparatorTableHash)
    .wrongDomainSeparatorTable
  rejectIf (manifest.controllerConfigurationHash ≠ manifest.computeControllerConfigurationHash)
    .wrongControllerConfiguration
  rejectIf (manifest.verifierConfigHash ≠ manifest.computeOutboundVerifierConfigHash)
    .wrongOutboundVerifierConfiguration
  rejectIf (manifest.activeLiabilityCapUsdtMicro ≠ Core.activeLiabilityCapUsdtMicro)
    .wrongLiabilityCap
  rejectIf (manifest.firstDepositNonce ≠ 0) .wrongFirstDepositNonce
  rejectIf (manifest.vaultId ≠ manifest.computeVaultId) .wrongVaultId
  rejectIf (manifest.initialControllerStateHash ≠ manifest.computeInitialControllerStateHash)
    .wrongInitialControllerState

/-- `ProtocolManifest::manifest_id`. -/
def manifestId (manifest : ProtocolManifest) : Except ManifestError Hash32 := do
  manifest.validate
  return domainHash .manifest (encode manifest)

/-- What a validated manifest satisfies. -/
structure Valid (manifest : ProtocolManifest) : Prop where
  chain : manifest.ethereumChainId ≠ 0
  hashes : ∀ entry ∈ manifest.requiredHashes, entry.2 ≠ .zero
  usdt : manifest.usdt ≠ .zero
  vault : manifest.vault ≠ .zero
  proofVerifier : manifest.proofVerifier ≠ .zero
  slot : manifest.drivechainSlot = Core.drivechainSlot
  confirmations : 100 ≤ manifest.minimumBitcoinConfirmations.toNat
  slotGap : manifest.maxEthereumFinalitySlotGap = Core.maxEthereumFinalitySlotGap
  age : manifest.maxFinalizedToBmmMtpAgeSeconds = Core.maxFinalizedToBmmMtpAgeSeconds
  bootstrap : manifest.bootstrapFinalizedBeaconSlot ≠ 0
  usdtDecimals : manifest.usdtDisplayDecimals = 6
  usddDecimals : manifest.usddDisplayDecimals = 8
  units : manifest.usddUnitsPerUsdtMicro = Core.usddUnitsPerUsdtMicro
  sp1 : manifest.sp1VersionMajor = Core.sp1VersionMajor ∧
    manifest.sp1VersionMinor = Core.sp1VersionMinor ∧
    manifest.sp1VersionPatch = Core.sp1VersionPatch ∧ manifest.sp1GitCommit = Core.sp1GitCommit ∧
    manifest.compressedProofCircuitVersion = sp1CompressedCircuitVersion ∧
    manifest.compressedProofCodecVersion = sp1CompressedCodecVersion ∧
    manifest.publicDigestTag = sha256DigestTag
  domains : manifest.domainSeparatorTableHash = Core.domainSeparatorTableHash
  configuration :
    manifest.controllerConfigurationHash = manifest.computeControllerConfigurationHash
  outbound : manifest.verifierConfigHash = manifest.computeOutboundVerifierConfigHash
  cap : manifest.activeLiabilityCapUsdtMicro = Core.activeLiabilityCapUsdtMicro
  firstNonce : manifest.firstDepositNonce = 0
  vaultId : manifest.vaultId = manifest.computeVaultId
  initialState : manifest.initialControllerStateHash = manifest.computeInitialControllerStateHash

theorem validate_eq_ok {manifest : ProtocolManifest} :
    manifest.validate = .ok () ↔ manifest.Valid := by
  simp only [validate]
  simp only [↓then_eq_ok, forM_eq_ok, rejectIf_eq_ok, not_or, ne_eq, not_not, UInt32.not_lt,
    UInt32.le_iff_toNat_le]
  rw [show Core.minimumBitcoinConfirmations.toNat = 100 from rfl]
  constructor
  · rintro ⟨chain, hashes, usdt, vault, verifier, slot, ⟨confirmations, gap, age⟩, bootstrap,
      ⟨usdtDecimals, usddDecimals, units, _, _⟩, sp1, domains, configuration, outbound, cap,
      nonce, vaultId, initial⟩
    exact ⟨chain, hashes, usdt, vault, verifier, slot, confirmations, gap, age, bootstrap,
      usdtDecimals, usddDecimals, units, sp1, domains, configuration, outbound, cap, nonce,
      vaultId, initial⟩
  · intro valid
    exact ⟨valid.chain, valid.hashes, valid.usdt, valid.vault, valid.proofVerifier, valid.slot,
      ⟨valid.confirmations, valid.slotGap, valid.age⟩, valid.bootstrap,
      ⟨valid.usdtDecimals, valid.usddDecimals, valid.units, by decide, by decide⟩, valid.sp1,
      valid.domains, valid.configuration, valid.outbound, valid.cap, valid.firstNonce,
      valid.vaultId, valid.initialState⟩

theorem manifestId_eq_ok {manifest : ProtocolManifest} {id : Hash32} :
    manifest.manifestId = .ok id ↔ manifest.Valid ∧ id = domainHash .manifest (encode manifest) := by
  simp only [manifestId]
  simp only [↓then_eq_ok, pure_eq_ok, validate_eq_ok]
  exact and_congr_right fun _ => eq_comm

/-- The genesis of a valid manifest is not zero. -/
theorem Valid.genesis {manifest : ProtocolManifest} (valid : manifest.Valid) :
    manifest.elementsGenesis ≠ .zero :=
  valid.hashes ("elements_genesis", manifest.elementsGenesis) (by simp [requiredHashes])

end ProtocolManifest

/-- A valid manifest of a deployment on the main chain. -/
def sampleManifest : ProtocolManifest where
  ethereumChainId := 1
  ethereumGenesis := .ofNat 32 0xe1
  bitcoinGenesis := .ofNat 32 0xe2
  elementsGenesis := .ofNat 32 0xb4
  drivechainSlot := Core.drivechainSlot
  usdt := .ofNat 20 0xa2
  usddAsset := .ofNat 32 0xb5
  usddReissuanceToken := .ofNat 32 0xe3
  usddPublicAbf := .ofNat 32 0xe4
  vault := .ofNat 20 0xa1
  vaultId :=
    .ofNat 32 0x35598fc62bc78509861ea992f15a1292171ae013321b0abef2f0d781afd05162
  vaultCodeHash := .ofNat 32 0xe5
  proofVerifier := .ofNat 20 0xa3
  proofVerifierRuntimeCodeHash := .ofNat 32 0xb1
  verifierConfigHash :=
    .ofNat 32 0x7011c99cbf3e90dd6470086ac0f044dcee4b8c81ddb32157b192534fbb22e121
  ethereumGuestProgramId := .ofNat 32 0xe6
  elementsGuestProgramId := .ofNat 32 0xb2
  sp1VersionMajor := Core.sp1VersionMajor
  sp1VersionMinor := Core.sp1VersionMinor
  sp1VersionPatch := Core.sp1VersionPatch
  sp1GitCommit := Core.sp1GitCommit
  compressedProofCircuitVersion := sp1CompressedCircuitVersion
  compressedProofCodecVersion := sp1CompressedCodecVersion
  recursionVerifierConstantsHash := .ofNat 32 0xe7
  publicDigestTag := sha256DigestTag
  bootstrapFinalizedBeaconSlot := 16
  bootstrapFinalizedBeaconRoot := .ofNat 32 0xe8
  bootstrapExecutionStateRoot := .ofNat 32 0xe9
  bootstrapEthLightClientDigest := .ofNat 32 0xea
  controllerCmr := .ofNat 32 0xeb
  controllerConfigurationHash :=
    .ofNat 32 0xe5d89213309182cab1f795d20d9c1068aee11126ef6e26ca458916e7056268b6
  domainSeparatorTableHash :=
    .ofNat 32 0xb42bf227899087c6735cfede2a97117560dda13d1185354b56dfdc9652122c67
  issuanceTxidDisplay := .ofNat 32 0xec
  issuanceVout := 0
  assetEntropy := .ofNat 32 0xed
  initialControllerStateHash :=
    .ofNat 32 0x4f3b76a1bd1f0ba75d527c4ed96ebeecb18f47ae39eabe48fe97ab769ba5d6bf
  activeLiabilityCapUsdtMicro := Core.activeLiabilityCapUsdtMicro
  minimumActivationChainwork := .ofNat 32 1000
  maxEthereumFinalitySlotGap := Core.maxEthereumFinalitySlotGap
  maxFinalizedToBmmMtpAgeSeconds := Core.maxFinalizedToBmmMtpAgeSeconds
  minimumBitcoinConfirmations := Core.minimumBitcoinConfirmations
  firstDepositNonce := 0
  usdtDisplayDecimals := 6
  usddDisplayDecimals := 8
  usddUnitsPerUsdtMicro := Core.usddUnitsPerUsdtMicro

end Usdd.Core

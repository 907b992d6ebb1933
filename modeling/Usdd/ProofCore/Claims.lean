import Usdd.Core.Manifest
/-!
# Claims and public outputs of the proof guests

A claim is what a guest is asked to prove; a public output is what it commits to. Both are
canonical records: a claim is identified by the hash of its bytes, and a public output that
does not bind its two states by the transition it names does not decode.
-/
namespace Usdd.ProofCore

open Usdd.Foundation Usdd.Core

/-- `claims::TAG_ETHEREUM_DEPOSIT_CLAIM`. -/
def tagEthereumDepositClaim : UInt16 := 0x5101

/-- `claims::TAG_DEPOSIT_PUBLIC_OUTPUT`. -/
def tagDepositPublicOutput : UInt16 := 0x5201

/-- `claims::TAG_ELEMENTS_STATE_TRANSITION_CLAIM`. -/
def tagElementsStateTransitionClaim : UInt16 := 0x5103

/-- `claims::TAG_BURN_APPEND`. -/
def tagBurnAppend : UInt16 := 0x5104

/-- `claims::TAG_ELEMENTS_STATE_PUBLIC_OUTPUT`. -/
def tagElementsStatePublicOutput : UInt16 := 0x5203

/-- `claims::TAG_ETHEREUM_HEARTBEAT_CLAIM`. -/
def tagEthereumHeartbeatClaim : UInt16 := 0x5105

/-- `claims::TAG_HEARTBEAT_PUBLIC_OUTPUT`. -/
def tagHeartbeatPublicOutput : UInt16 := 0x5204

/-- `claims::decode_header`: schema and tag have one error. -/
def decodeProofHeader (tag : UInt16) : Decoder Unit := do
  let wrong := DecodeError.invalidValue "invalid proof record header"
  let schema ← Decoder.u16
  Decoder.check (rejectIf (schema ≠ encodingSchema) wrong)
  let found ← Decoder.u16
  Decoder.check (rejectIf (found ≠ tag) wrong)

/-- `u64::saturating_sub`. -/
def saturatingSub (left right : UInt64) : UInt64 := if left < right then 0 else left - right

/-- `claims::EthereumDepositClaim`. -/
structure EthereumDepositClaim where
  manifestId : Hash32
  priorState : MintControllerState
  finality : EthereumFinalityWitness
  deposits : List VaultDeposit
deriving DecidableEq

instance : CanonicalEncode EthereumDepositClaim where
  encode value := [encodeHeader tagEthereumDepositClaim, encode value.manifestId,
    encode value.priorState, encode value.finality, encodeCount value.deposits.length,
    (value.deposits.map encode).flatten].flatten

/-- `claims::EthereumHeartbeatClaim`. -/
structure EthereumHeartbeatClaim where
  manifestId : Hash32
  priorState : MintControllerState
  finality : EthereumFinalityWitness
deriving DecidableEq

instance : CanonicalEncode EthereumHeartbeatClaim where
  encode value := [encodeHeader tagEthereumHeartbeatClaim, encode value.manifestId,
    encode value.priorState, encode value.finality].flatten

/-- `claims::BurnAppend`. -/
structure BurnAppend where
  burn : Burn
  emptyBranch : BurnProof
deriving DecidableEq

instance : CanonicalEncode BurnAppend where
  encode value := [encodeHeader tagBurnAppend, encode value.burn,
    encode value.emptyBranch].flatten

/-- `claims::ElementsStateTransitionClaim`. -/
structure ElementsStateTransitionClaim where
  manifestId : Hash32
  priorBridgeStateHash : Hash32
  priorState : SolidityElementsBridgeState
  nextState : SolidityElementsBridgeState
  appendedBurns : List BurnAppend
deriving DecidableEq

instance : CanonicalEncode ElementsStateTransitionClaim where
  encode value := [encodeHeader tagElementsStateTransitionClaim, encode value.manifestId,
    encode value.priorBridgeStateHash, encode value.priorState, encode value.nextState,
    encodeCount value.appendedBurns.length, (value.appendedBurns.map encode).flatten].flatten

/-- `claims::DepositPublicOutput`. -/
structure DepositPublicOutput where
  manifestId : Hash32
  claimId : Hash32
  priorState : MintControllerState
  nextState : MintControllerState
  finalizedExecutionBlockTimestamp : UInt64
  mintBatch : MintBatch
deriving DecidableEq

/-- `claims::HeartbeatPublicOutput`. -/
structure HeartbeatPublicOutput where
  manifestId : Hash32
  claimId : Hash32
  priorState : MintControllerState
  nextState : MintControllerState
  finalizedExecutionBlockTimestamp : UInt64
deriving DecidableEq

/-- `claims::ElementsStatePublicOutput`. -/
structure ElementsStatePublicOutput where
  manifestId : Hash32
  claimId : Hash32
  priorBridgeStateHash : Hash32
  nextBridgeStateHash : Hash32
  verifierStatement : Hash32
  priorState : SolidityElementsBridgeState
  nextState : SolidityElementsBridgeState
deriving DecidableEq

/-- `DepositPublicOutput::validate`. -/
def DepositPublicOutput.validate (output : DepositPublicOutput) : Except DecodeError Unit := do
  let unbound := DecodeError.invalidValue "deposit output does not bind the controller transition"
  let prior := output.priorState
  let next := output.nextState
  rejectIf (output.manifestId = .zero ∨ output.claimId = .zero ∨
      output.finalizedExecutionBlockTimestamp = 0)
    (.invalidValue "invalid deposit public output")
  prior.validate
  next.validate
  output.mintBatch.validate
  let expectedTotal ← okOr
    (checkedAdd prior.totalMintedUsddBase output.mintBatch.totalUsddAmountBase)
    (.invalidValue "minted supply overflow")
  rejectIf (next.version ≠ prior.version) unbound
  let expectedSequence ← okOr (checkedAdd prior.sequence 1)
    (.invalidValue "controller sequence overflow")
  rejectIf (next.sequence ≠ expectedSequence ∨
      next.nextMintNonce ≠ output.mintBatch.nextNonce ∨
      output.mintBatch.firstNonce ≠ prior.nextMintNonce ∨
      next.totalMintedUsddBase ≠ expectedTotal ∨
      next.configurationHash ≠ prior.configurationHash ∨
      next.finalizedBeaconSlot < prior.finalizedBeaconSlot ∨
      saturatingSub next.finalizedBeaconSlot prior.finalizedBeaconSlot >
        maxEthereumFinalitySlotGap ∨
      (next.finalizedBeaconSlot = prior.finalizedBeaconSlot ∧
        (next.ethereumLightClientDigest ≠ prior.ethereumLightClientDigest ∨
          next.finalizedBeaconRoot ≠ prior.finalizedBeaconRoot ∨
          next.finalizedExecutionStateRoot ≠ prior.finalizedExecutionStateRoot)) ∨
      (next.finalizedBeaconSlot > prior.finalizedBeaconSlot ∧
        next.ethereumLightClientDigest = prior.ethereumLightClientDigest))
    unbound

/-- `HeartbeatPublicOutput::validate`. -/
def HeartbeatPublicOutput.validate (output : HeartbeatPublicOutput) :
    Except DecodeError Unit := do
  let unbound := DecodeError.invalidValue "heartbeat output does not bind a state-only transition"
  let prior := output.priorState
  let next := output.nextState
  rejectIf (output.manifestId = .zero ∨ output.claimId = .zero ∨
      output.finalizedExecutionBlockTimestamp = 0)
    (.invalidValue "invalid heartbeat public output")
  prior.validate
  next.validate
  rejectIf (next.version ≠ prior.version) unbound
  let expectedSequence ← okOr (checkedAdd prior.sequence 1)
    (.invalidValue "controller sequence overflow")
  rejectIf (next.sequence ≠ expectedSequence ∨ next.nextMintNonce ≠ prior.nextMintNonce ∨
      next.totalMintedUsddBase ≠ prior.totalMintedUsddBase ∨
      next.configurationHash ≠ prior.configurationHash ∨
      next.finalizedBeaconSlot ≤ prior.finalizedBeaconSlot ∨
      next.ethereumLightClientDigest = prior.ethereumLightClientDigest ∨
      saturatingSub next.finalizedBeaconSlot prior.finalizedBeaconSlot >
        maxEthereumFinalitySlotGap)
    unbound

instance : CanonicalEncode DepositPublicOutput where
  encode value := [encodeHeader tagDepositPublicOutput, encode value.manifestId,
    encode value.claimId, encode value.priorState, encode value.nextState,
    encode value.finalizedExecutionBlockTimestamp, encode value.mintBatch].flatten

instance : CanonicalDecode DepositPublicOutput where
  decodeFrom := do
    decodeProofHeader tagDepositPublicOutput
    let manifestId ← Decoder.fixed 32
    let claimId ← Decoder.fixed 32
    let priorState ← (CanonicalDecode.decodeFrom : Decoder MintControllerState)
    let nextState ← (CanonicalDecode.decodeFrom : Decoder MintControllerState)
    let finalizedExecutionBlockTimestamp ← Decoder.u64
    let mintBatch ← (CanonicalDecode.decodeFrom : Decoder MintBatch)
    Decoder.validated DepositPublicOutput.validate ⟨manifestId, claimId, priorState, nextState,
      finalizedExecutionBlockTimestamp, mintBatch⟩

instance : CanonicalEncode HeartbeatPublicOutput where
  encode value := [encodeHeader tagHeartbeatPublicOutput, encode value.manifestId,
    encode value.claimId, encode value.priorState, encode value.nextState,
    encode value.finalizedExecutionBlockTimestamp].flatten

instance : CanonicalDecode HeartbeatPublicOutput where
  decodeFrom := do
    decodeProofHeader tagHeartbeatPublicOutput
    let manifestId ← Decoder.fixed 32
    let claimId ← Decoder.fixed 32
    let priorState ← (CanonicalDecode.decodeFrom : Decoder MintControllerState)
    let nextState ← (CanonicalDecode.decodeFrom : Decoder MintControllerState)
    let finalizedExecutionBlockTimestamp ← Decoder.u64
    Decoder.validated HeartbeatPublicOutput.validate ⟨manifestId, claimId, priorState, nextState,
      finalizedExecutionBlockTimestamp⟩

instance : CanonicalEncode ElementsStatePublicOutput where
  encode value := [encodeHeader tagElementsStatePublicOutput, encode value.manifestId,
    encode value.claimId, encode value.priorBridgeStateHash, encode value.nextBridgeStateHash,
    encode value.verifierStatement, encode value.priorState, encode value.nextState].flatten

section Hashed

variable [Hashing]

/-- `EthereumDepositClaim::claim_id`. -/
def EthereumDepositClaim.claimId (claim : EthereumDepositClaim) : Hash32 :=
  domainHash .ethereumStateClaim (encode claim)

/-- `EthereumHeartbeatClaim::claim_id`. -/
def EthereumHeartbeatClaim.claimId (claim : EthereumHeartbeatClaim) : Hash32 :=
  domainHash .ethereumStateClaim (encode claim)

/-- `ElementsStateTransitionClaim::claim_id`. -/
def ElementsStateTransitionClaim.claimId (claim : ElementsStateTransitionClaim) : Hash32 :=
  domainHash .elementsEventClaim (encode claim)

/-- The checks that `ElementsStatePublicOutput::decode_from` makes of the fields it read. -/
def ElementsStatePublicOutput.validate (output : ElementsStatePublicOutput) :
    Except DecodeError Unit := do
  rejectIf (output.manifestId = .zero ∨ output.claimId = .zero ∨
      output.nextBridgeStateHash = .zero ∨ output.verifierStatement = .zero ∨
      ¬(output.priorState.IsZero ↔ output.priorBridgeStateHash = .zero))
    (.invalidValue "invalid Elements state public output")
  output.priorState.validateSuccessor output.nextState

instance : CanonicalDecode ElementsStatePublicOutput where
  decodeFrom := do
    decodeProofHeader tagElementsStatePublicOutput
    let manifestId ← Decoder.fixed 32
    let claimId ← Decoder.fixed 32
    let priorBridgeStateHash ← Decoder.fixed 32
    let nextBridgeStateHash ← Decoder.fixed 32
    let verifierStatement ← Decoder.fixed 32
    let priorState ← (CanonicalDecode.decodeFrom : Decoder SolidityElementsBridgeState)
    let nextState ← (CanonicalDecode.decodeFrom : Decoder SolidityElementsBridgeState)
    Decoder.validated ElementsStatePublicOutput.validate ⟨manifestId, claimId,
      priorBridgeStateHash, nextBridgeStateHash, verifierStatement, priorState, nextState⟩

end Hashed

end Usdd.ProofCore

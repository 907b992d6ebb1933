import Usdd.EthereumInbound.Transition
/-!
# The Sepolia light-client adapter

The adapter rebuilds a light-client store from four controller fields and a prover's headers
and committees, lets the Helios library run its updates on it, and derives the next finality
witness. The library is a parameter: its types, its tree hashes and its verify and apply
functions.
-/
namespace Usdd.EthereumInbound

open Usdd.Foundation Usdd.Core Usdd.ProofCore

/-- `helios::SEPOLIA_CHAIN_ID`. -/
def sepoliaChainId : UInt64 := 11155111

/-- `helios::SEPOLIA_EXECUTION_GENESIS_HASH`. -/
def sepoliaExecutionGenesisHash : Hash32 :=
  .ofNat 32 0x25a5cc106eea7138acab33231d7160d69cb777ee0c2c553fcddf5138993e6dd9

/-- `helios::SEPOLIA_GENESIS_VALIDATORS_ROOT`. -/
def sepoliaGenesisValidatorsRoot : Hash32 :=
  .ofNat 32 0xd8ea171f3c94aea21ebc42a1ed61052acf3f9209c00e4efbaaddac09ed9b8078

/-- `helios::MAX_COMMITTEE_UPDATES`. -/
def maxCommitteeUpdates : Nat := 2

/-- `helios::LIGHT_CLIENT_STATE_DOMAIN`. -/
def lightClientStateDomain : List UInt8 := asciiBytes "USDD_SEPOLIA_LIGHT_CLIENT_STATE_V1"

/-- `helios::SEPOLIA_FORKS`: epochs and fork versions. -/
def sepoliaForks : List (UInt64 × FixedBytes 4) :=
  [(0, .ofNat 4 0x90000069), (50, .ofNat 4 0x90000070), (100, .ofNat 4 0x90000071),
    (56832, .ofNat 4 0x90000072), (132608, .ofNat 4 0x90000073), (222464, .ofNat 4 0x90000074),
    (272640, .ofNat 4 0x90000075)]

/-- `LightClientHeader` of the library. A header of a fork before the execution payload was in
the light-client header has neither payload nor branch. -/
structure LightClientHeader (Beacon Payload : Type) where
  beacon : Beacon
  execution : Option Payload
  executionBranch : Option (List Hash32)

/-- `LightClientStore` of the library. -/
structure LightClientStore (Beacon Payload Committee Update : Type) where
  finalizedHeader : LightClientHeader Beacon Payload
  currentSyncCommittee : Committee
  nextSyncCommittee : Option Committee
  optimisticHeader : LightClientHeader Beacon Payload
  previousMaxActiveParticipants : UInt64
  currentMaxActiveParticipants : UInt64
  bestValidUpdate : Option Update

/-- What the adapter uses of the Helios library: the fields it reads, the tree hashes, and the
verify and apply functions, whose verdicts depend on the current slot, the genesis root and the
forks they are given. -/
structure Helios (Beacon Payload Committee Update FinalityUpdate : Type) where
  slot : Beacon → UInt64
  bodyRoot : Beacon → Hash32
  beaconRoot : Beacon → Hash32
  payloadRoot : Payload → Hash32
  stateRoot : Payload → Hash32
  blockHash : Payload → Hash32
  blockNumber : Payload → UInt64
  timestamp : Payload → UInt64
  committeeRoot : Committee → Hash32
  syncCommitteeSize : Nat
  slotsPerEpoch : UInt64
  updateParticipants : Update → Nat
  finalityParticipants : FinalityUpdate → Nat
  signatureSlot : FinalityUpdate → UInt64
  verifyUpdate : Update → UInt64 → LightClientStore Beacon Payload Committee Update → Hash32 →
    List (UInt64 × FixedBytes 4) → Bool
  applyUpdate : LightClientStore Beacon Payload Committee Update → Update →
    LightClientStore Beacon Payload Committee Update
  verifyFinalityUpdate : FinalityUpdate → UInt64 →
    LightClientStore Beacon Payload Committee Update → Hash32 →
    List (UInt64 × FixedBytes 4) → Bool
  applyFinalityUpdate : LightClientStore Beacon Payload Committee Update → FinalityUpdate →
    LightClientStore Beacon Payload Committee Update

/-- `helios::SepoliaFinalityProof`. -/
structure SepoliaFinalityProof (Beacon Payload Committee Update FinalityUpdate : Type) where
  priorFinalizedHeader : LightClientHeader Beacon Payload
  priorCurrentSyncCommittee : Committee
  priorNextSyncCommittee : Option Committee
  updates : List Update
  finalityUpdate : FinalityUpdate

/-- `helios::SepoliaFinalityError`. -/
inductive SepoliaFinalityError where
  | invalidManifest
  | invalidPriorState
  | wrongNetwork
  | priorHeaderMismatch
  | priorExecutionPayloadRejected
  | priorStateDigestMismatch
  | tooManyCommitteeUpdates
  | updateWithoutSupermajority (index : Nat)
  | updateRejected (index : Nat)
  | finalityWithoutSupermajority
  | finalityRejected
  | finalizedStateDidNotAdvance
  | finalizedHeaderNotCheckpoint
  | missingExecutionPayload
  | outputMismatch
  | witnessTooLarge
  | witnessCodecRejected
  | nonCanonicalWitness
deriving DecidableEq

/-- `helios::finalized_slot_advances`. -/
def finalizedSlotAdvances (prior next : UInt64) : Bool :=
  match checkedSub next prior with
  | some gap => gap ≠ 0 ∧ gap ≤ maxEthereumFinalitySlotGap
  | none => false

/-- `helios::encode_sepolia_config`. -/
def encodeSepoliaConfig : List UInt8 :=
  [encode sepoliaChainId, encode sepoliaExecutionGenesisHash,
    encode sepoliaGenesisValidatorsRoot].flatten ++
  sepoliaForks.flatMap fun fork => encode fork.1 ++ fork.2.bytes

/-- The preimage of `helios::light_client_state_digest`. -/
def lightClientStatePreimage (finalizedSlot : UInt64)
    (finalizedBeaconRoot currentSyncCommittee : Hash32) (nextSyncCommittee : Option Hash32) :
    List UInt8 :=
  [lightClientStateDomain, encode encodingSchema, encodeSepoliaConfig, encode finalizedSlot,
    encode finalizedBeaconRoot, encode currentSyncCommittee].flatten ++
  match nextSyncCommittee with
  | some committee => encode (1 : UInt8) ++ encode committee
  | none => encode (0 : UInt8)

section Adapter

variable [Hashing] {Beacon Payload Committee Update FinalityUpdate : Type}
  (helios : Helios Beacon Payload Committee Update FinalityUpdate)

/-- `helios::light_client_state_digest`. -/
def lightClientStateDigest (finalizedSlot : UInt64) (finalizedBeaconRoot : Hash32)
    (currentSyncCommittee : Committee) (nextSyncCommittee : Option Committee) : Hash32 :=
  hashBytes (lightClientStatePreimage finalizedSlot finalizedBeaconRoot
    (helios.committeeRoot currentSyncCommittee) (nextSyncCommittee.map helios.committeeRoot))

/-- The two halves that `helios::execution_payload_is_bound` hashes at a depth. -/
def branchPair (depth : Nat) (derived node : Hash32) : Hash32 × Hash32 :=
  if (9 >>> depth) &&& 1 = 1 then (node, derived) else (derived, node)

/-- The loop of `helios::execution_payload_is_bound`, from a depth on. -/
def foldBranch : Nat → Hash32 → List Hash32 → Hash32
  | _, derived, [] => derived
  | depth, derived, node :: branch =>
    foldBranch (depth + 1) (hashBytes (encode (branchPair depth derived node).1 ++
      encode (branchPair depth derived node).2)) branch

/-- `helios::execution_payload_is_bound`. -/
def executionPayloadIsBound (header : LightClientHeader Beacon Payload) : Bool :=
  match header.execution, header.executionBranch with
  | some execution, some branch =>
    if branch.length ≠ 4 then false
    else foldBranch 0 (helios.payloadRoot execution) branch == helios.bodyRoot header.beacon
  | _, _ => false

/-- `helios::require_supermajority`. -/
def requireSupermajority (update : Update) (index : Nat) : Except SepoliaFinalityError Unit :=
  rejectIf (helios.updateParticipants update * 3 < helios.syncCommitteeSize * 2)
    (.updateWithoutSupermajority index)

/-- The store that `SepoliaHeliosFinalityVerifier::derive_transition` rebuilds from a proof. -/
def rebuiltStore
    (proof : SepoliaFinalityProof Beacon Payload Committee Update FinalityUpdate) :
    LightClientStore Beacon Payload Committee Update where
  finalizedHeader := proof.priorFinalizedHeader
  currentSyncCommittee := proof.priorCurrentSyncCommittee
  nextSyncCommittee := proof.priorNextSyncCommittee
  optimisticHeader := proof.priorFinalizedHeader
  previousMaxActiveParticipants := 0
  currentMaxActiveParticipants := 0
  bestValidUpdate := none

/-- The loop over the committee updates of `derive_transition`, from an index on. -/
def runUpdates (expectedCurrentSlot : UInt64) :
    Nat → List Update → LightClientStore Beacon Payload Committee Update →
      Except SepoliaFinalityError (LightClientStore Beacon Payload Committee Update)
  | _, [], store => return store
  | index, update :: updates, store => do
    requireSupermajority helios update index
    rejectIf (helios.verifyUpdate update expectedCurrentSlot store sepoliaGenesisValidatorsRoot
      sepoliaForks = false) (.updateRejected index)
    runUpdates expectedCurrentSlot (index + 1) updates (helios.applyUpdate store update)

/-- The checks of the prior state in `derive_transition`. -/
def checkPriorState (manifest : ProtocolManifest) (priorState : MintControllerState)
    (proof : SepoliaFinalityProof Beacon Payload Committee Update FinalityUpdate) :
    Except SepoliaFinalityError Unit := do
  manifest.validate.mapError fun _ => SepoliaFinalityError.invalidManifest
  priorState.validate.mapError fun _ => SepoliaFinalityError.invalidPriorState
  rejectIf (priorState.configurationHash ≠ manifest.controllerConfigurationHash)
    .invalidPriorState
  rejectIf (manifest.ethereumChainId ≠ sepoliaChainId ∨
      manifest.ethereumGenesis ≠ sepoliaExecutionGenesisHash)
    .wrongNetwork
  let priorBeacon := proof.priorFinalizedHeader.beacon
  rejectIf (helios.slot priorBeacon ≠ priorState.finalizedBeaconSlot ∨
      helios.beaconRoot priorBeacon ≠ priorState.finalizedBeaconRoot)
    .priorHeaderMismatch
  let priorExecution ← okOr proof.priorFinalizedHeader.execution .priorExecutionPayloadRejected
  rejectIf (helios.stateRoot priorExecution ≠ priorState.finalizedExecutionStateRoot ∨
      executionPayloadIsBound helios proof.priorFinalizedHeader = false)
    .priorExecutionPayloadRejected
  rejectIf (lightClientStateDigest helios (helios.slot priorBeacon)
      (helios.beaconRoot priorBeacon) proof.priorCurrentSyncCommittee
      proof.priorNextSyncCommittee ≠ priorState.ethereumLightClientDigest)
    .priorStateDigestMismatch

/-- The store after the updates of `derive_transition`. -/
def updatedStore (proof : SepoliaFinalityProof Beacon Payload Committee Update FinalityUpdate) :
    Except SepoliaFinalityError (LightClientStore Beacon Payload Committee Update) := do
  rejectIf (proof.updates.length > maxCommitteeUpdates) .tooManyCommitteeUpdates
  let expectedCurrentSlot := helios.signatureSlot proof.finalityUpdate
  let store ← runUpdates helios expectedCurrentSlot 0 proof.updates (rebuiltStore proof)
  rejectIf (helios.finalityParticipants proof.finalityUpdate * 3 < helios.syncCommitteeSize * 2)
    .finalityWithoutSupermajority
  rejectIf (helios.verifyFinalityUpdate proof.finalityUpdate expectedCurrentSlot store
    sepoliaGenesisValidatorsRoot sepoliaForks = false) .finalityRejected
  return helios.applyFinalityUpdate store proof.finalityUpdate

/-- The witness that `derive_transition` reads off the store after the updates. -/
def deriveWitness (priorSlot : UInt64) (store : LightClientStore Beacon Payload Committee Update) :
    Except SepoliaFinalityError EthereumFinalityWitness := do
  let finalized := store.finalizedHeader.beacon
  rejectIf (finalizedSlotAdvances priorSlot (helios.slot finalized) = false)
    .finalizedStateDidNotAdvance
  rejectIf (helios.slot finalized % helios.slotsPerEpoch ≠ 0) .finalizedHeaderNotCheckpoint
  let execution ← okOr store.finalizedHeader.execution .missingExecutionPayload
  let finalizedRoot := helios.beaconRoot finalized
  return {
    ethereumLightClientDigest := lightClientStateDigest helios (helios.slot finalized)
      finalizedRoot store.currentSyncCommittee store.nextSyncCommittee
    finalizedBeaconSlot := helios.slot finalized
    finalizedBeaconRoot := finalizedRoot
    finalizedExecutionBlock := helios.blockHash execution
    finalizedExecutionStateRoot := helios.stateRoot execution
    executionBlockNumber := helios.blockNumber execution
    executionBlockTimestamp := helios.timestamp execution }

/-- `SepoliaHeliosFinalityVerifier::derive_transition`. -/
def deriveTransition (manifest : ProtocolManifest) (priorState : MintControllerState)
    (proof : SepoliaFinalityProof Beacon Payload Committee Update FinalityUpdate) :
    Except SepoliaFinalityError EthereumFinalityWitness := do
  checkPriorState helios manifest priorState proof
  let store ← updatedStore helios proof
  deriveWitness helios (helios.slot proof.priorFinalizedHeader.beacon) store

/-- `SepoliaHeliosFinalityVerifier::verify_transition`. -/
def verifyTransition (manifest : ProtocolManifest) (priorState : MintControllerState)
    (next : EthereumFinalityWitness)
    (proof : SepoliaFinalityProof Beacon Payload Committee Update FinalityUpdate) :
    Except SepoliaFinalityError Unit := do
  let derived ← deriveTransition helios manifest priorState proof
  rejectIf (derived ≠ next) .outputMismatch

end Adapter

/-- The slot rule of the adapter: strictly later, and within the gap. -/
theorem finalizedSlotAdvances_iff {prior next : UInt64} :
    finalizedSlotAdvances prior next = true ↔
      prior.toNat < next.toNat ∧ next.toNat ≤ prior.toNat + 4096 := by
  unfold finalizedSlotAdvances
  by_cases ordered : prior.toNat ≤ next.toNat
  · obtain ⟨gap, computed, exact⟩ := checkedSub_of_le ordered
    have positive : gap ≠ 0 ↔ 0 < gap.toNat := by
      rw [Nat.pos_iff_ne_zero, ne_eq, ne_eq, ← UInt64.toNat_inj]
      rfl
    simp only [computed, decide_eq_true_eq, positive, UInt64.le_iff_toNat_le,
      maxEthereumFinalitySlotGap_toNat]
    omega
  · have missing : checkedSub next prior = none := by
      rw [checkedSub, if_neg ordered]
    simp only [missing, Bool.false_eq_true, false_iff]
    omega

end Usdd.EthereumInbound

import Usdd.EthereumInbound.HeliosLaws
/-!
# The finality rule, restated

The controller's transition rule is restated by the validators of the public outputs, by the
shape check of the inbound verifier and by the light-client adapter. The first two say exactly
what the controller says. The adapter is stricter: it admits no two proofs about one finalized
header, where the controller admits any number of mints.
-/
namespace Usdd.Verif

open Usdd.Foundation Usdd.Core Usdd.ProofCore Usdd.EthereumInbound

/-- The validators of the public outputs accept an output exactly when it is identified, carries
a time, and its two states are the ends of a transition the controller accepts with some
finality witness. -/
theorem public_outputs_agree (mint : DepositPublicOutput) (heartbeat : HeartbeatPublicOutput) :
    (mint.validate = .ok () ↔
      (mint.manifestId ≠ .zero ∧ mint.claimId ≠ .zero ∧
        mint.finalizedExecutionBlockTimestamp ≠ 0) ∧
      ∃ finality, mint.priorState.applyMintBatch mint.mintBatch finality = .ok mint.nextState) ∧
    (heartbeat.validate = .ok () ↔
      (heartbeat.manifestId ≠ .zero ∧ heartbeat.claimId ≠ .zero ∧
        heartbeat.finalizedExecutionBlockTimestamp ≠ 0) ∧
      ∃ finality, heartbeat.priorState.applyHeartbeat finality = .ok heartbeat.nextState) := by
  constructor
  · rw [DepositPublicOutput.validate_eq_ok]
    refine and_congr_right fun _ => ⟨?_, ?_⟩
    · intro step
      exact ⟨_, MintControllerState.applyMintBatch_eq_ok.mpr step⟩
    · rintro ⟨finality, applied⟩
      exact mintStep_witnessOf (MintControllerState.applyMintBatch_eq_ok.mp applied)
  · rw [HeartbeatPublicOutput.validate_eq_ok]
    refine and_congr_right fun _ => ⟨?_, ?_⟩
    · intro step
      exact ⟨_, MintControllerState.applyHeartbeat_eq_ok.mpr step⟩
    · rintro ⟨finality, applied⟩
      exact heartbeatStep_witnessOf (MintControllerState.applyHeartbeat_eq_ok.mp applied)

section Adapter

variable [Hashing]

/-- How the adapter's slot rule relates to a shape that the inbound verifier accepts. -/
structure SlotRule (manifest : ProtocolManifest) (priorState : MintControllerState)
    (finality : EthereumFinalityWitness) : Prop where
  controller : priorState.validateFinalityAdvance finality = .ok ()
  slots : finalizedSlotAdvances priorState.finalizedBeaconSlot finality.finalizedBeaconSlot =
    true ↔ finality.finalizedBeaconSlot ≠ priorState.finalizedBeaconSlot
  verified : ∀ (Beacon Payload Committee Update FinalityUpdate : Type)
    (helios : Helios Beacon Payload Committee Update FinalityUpdate)
    (proof : SepoliaFinalityProof Beacon Payload Committee Update FinalityUpdate),
    verifyTransition helios manifest priorState finality proof = .ok () →
    finality.finalizedBeaconSlot ≠ priorState.finalizedBeaconSlot

/-- Of the shapes that the inbound verifier and the controller accept, the adapter's slot rule
admits exactly those with a new slot, and the adapter verifies no other. -/
theorem adapter_slot_rule {manifest : ProtocolManifest} {priorState : MintControllerState}
    {finality : EthereumFinalityWitness}
    (accepted : validateTransitionShape manifest priorState finality = .ok ()) :
    SlotRule manifest priorState finality := by
  have shape := validateTransitionShape_eq_ok.mp accepted
  have slotLe := shape.advance.slot_le
  have gapLe := shape.advance.gap_le
  have different : finality.finalizedBeaconSlot ≠ priorState.finalizedBeaconSlot ↔
      finality.finalizedBeaconSlot.toNat ≠ priorState.finalizedBeaconSlot.toNat := by
    rw [ne_eq, ne_eq, UInt64.toNat_inj]
  refine ⟨MintControllerState.validateFinalityAdvance_eq_ok.mpr shape.advance, ?_, ?_⟩
  · rw [finalizedSlotAdvances_iff, different]
    omega
  · intro _ _ _ _ _ helios proof verified
    obtain ⟨_, store, _, readOff⟩ := verifyTransition_eq_ok verified
    have advances := finalizedSlotAdvances_iff.mp readOff.advances
    rw [different, readOff.slot]
    omega

/-- A controller that has finalized slot 32. -/
def settledState : MintControllerState where
  version := protocolVersion
  sequence := 1
  nextMintNonce := 64
  ethereumLightClientDigest := .ofNat 32 0xd1
  finalizedBeaconSlot := 32
  finalizedBeaconRoot := .ofNat 32 0xd2
  finalizedExecutionStateRoot := .ofNat 32 0xd3
  totalMintedUsddBase := 6400
  configurationHash := sampleManifest.controllerConfigurationHash

/-- A witness of the next epoch's checkpoint. -/
def laterWitness : EthereumFinalityWitness where
  ethereumLightClientDigest := .ofNat 32 0xd4
  finalizedBeaconSlot := 64
  finalizedBeaconRoot := .ofNat 32 0xd5
  finalizedExecutionBlock := .ofNat 32 0xd6
  finalizedExecutionStateRoot := .ofNat 32 0xd7
  executionBlockNumber := 7
  executionBlockTimestamp := 1700000000

omit [Hashing] in
/-- A later checkpoint is admitted. -/
theorem adapter_slot_rule_later : letI := sha256Hashing
    finalizedSlotAdvances settledState.finalizedBeaconSlot laterWitness.finalizedBeaconSlot =
      true ∧ SlotRule sampleManifest settledState laterWitness :=
  letI := sha256Hashing
  ⟨by decide, adapter_slot_rule (by decide +kernel)⟩

omit [Hashing] in
/-- A second mint against one finalized header has a shape that the inbound verifier and the
controller accept, and the adapter's slot rule refuses it. -/
theorem adapter_refuses_same_header : letI := sha256Hashing
    validateTransitionShape sampleManifest settledState (witnessOf settledState) = .ok () ∧
    settledState.validateFinalityAdvance (witnessOf settledState) = .ok () ∧
    ¬∀ (manifest : ProtocolManifest) (priorState : MintControllerState)
      (finality : EthereumFinalityWitness),
      validateTransitionShape manifest priorState finality = .ok () →
      finalizedSlotAdvances priorState.finalizedBeaconSlot finality.finalizedBeaconSlot =
        true := by
  let hashing := sha256Hashing
  have accepted : validateTransitionShape sampleManifest settledState (witnessOf settledState) =
      .ok () := by decide +kernel
  refine ⟨accepted, by decide, ?_⟩
  intro admitted
  have refused : finalizedSlotAdvances settledState.finalizedBeaconSlot
      (witnessOf settledState).finalizedBeaconSlot = false := by decide
  rw [admitted _ _ _ accepted] at refused
  exact absurd refused (by decide)

end Adapter

end Usdd.Verif

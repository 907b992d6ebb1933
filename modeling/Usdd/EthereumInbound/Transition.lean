import Usdd.ProofCore.OutputLaws
/-!
# The shape of a finality transition

The inbound verifier checks a prior controller state and a finality witness before it asks the
finality verifier about them. What is checked is the controller's own finality rule, with the
manifest's configuration.
-/
namespace Usdd.EthereumInbound

open Usdd.Foundation Usdd.Core Usdd.ProofCore

/-- `lib::InboundVerificationError`. -/
inductive InboundVerificationError where
  | invalidManifest
  | invalidControllerState
  | invalidFinality
  | finalityRejected
  | emptyDepositBatch
  | tooManyDeposits
  | invalidDeposit
  | wrongDepositTarget
  | nonConsecutiveDepositNonce
  | zeroDepositCommitment
  | storageProofCountMismatch
  | vaultCodeHashMismatch
  | invalidVaultAccount
  | proofLimitsExceeded
  | accountProofRejected
  | storageProofRejected (index : Nat)
  | amountOverflow
deriving DecidableEq

/-- `lib::FinalityVerificationError`. -/
inductive FinalityVerificationError where
  | rejected
deriving DecidableEq

/-- `lib::EthereumFinalityTransitionVerifier`. -/
structure EthereumFinalityTransitionVerifier (Proof : Type) where
  verifyFinalizedTransition : ProtocolManifest → MintControllerState → EthereumFinalityWitness →
    Proof → Except FinalityVerificationError Unit

variable [Hashing] {Proof : Type}

/-- `lib::validate_transition_shape`. -/
def validateTransitionShape (manifest : ProtocolManifest) (priorState : MintControllerState)
    (finality : EthereumFinalityWitness) : Except InboundVerificationError Unit := do
  manifest.validate.mapError fun _ => InboundVerificationError.invalidManifest
  priorState.validate.mapError fun _ => InboundVerificationError.invalidControllerState
  finality.validate.mapError fun _ => InboundVerificationError.invalidFinality
  rejectIf (priorState.configurationHash ≠ manifest.controllerConfigurationHash ∨
      finality.finalizedBeaconSlot < priorState.finalizedBeaconSlot ∨
      saturatingSub finality.finalizedBeaconSlot priorState.finalizedBeaconSlot >
        maxEthereumFinalitySlotGap ∨
      (finality.finalizedBeaconSlot = priorState.finalizedBeaconSlot ∧
        (finality.ethereumLightClientDigest ≠ priorState.ethereumLightClientDigest ∨
          finality.finalizedBeaconRoot ≠ priorState.finalizedBeaconRoot ∨
          finality.finalizedExecutionStateRoot ≠ priorState.finalizedExecutionStateRoot)) ∨
      (finality.finalizedBeaconSlot > priorState.finalizedBeaconSlot ∧
        finality.ethereumLightClientDigest = priorState.ethereumLightClientDigest))
    .invalidFinality

/-- `lib::verify_finalized_heartbeat`. -/
def verifyFinalizedHeartbeat (verifier : EthereumFinalityTransitionVerifier Proof)
    (manifest : ProtocolManifest) (priorState : MintControllerState)
    (finality : EthereumFinalityWitness) (proof : Proof) :
    Except InboundVerificationError Unit := do
  validateTransitionShape manifest priorState finality
  rejectIf (finality.finalizedBeaconSlot ≤ priorState.finalizedBeaconSlot) .invalidFinality
  (verifier.verifyFinalizedTransition manifest priorState finality proof).mapError fun _ =>
    InboundVerificationError.finalityRejected

/-- What the shape check establishes. -/
structure TransitionShape (manifest : ProtocolManifest) (priorState : MintControllerState)
    (finality : EthereumFinalityWitness) : Prop where
  manifest_valid : manifest.Valid
  prior_valid : priorState.Valid
  finality_valid : finality.Valid
  configuration : priorState.configurationHash = manifest.controllerConfigurationHash
  advance : priorState.FinalityAdvance finality

/-- The shape check makes the controller's finality rule its own. -/
theorem validateTransitionShape_eq_ok {manifest : ProtocolManifest}
    {priorState : MintControllerState} {finality : EthereumFinalityWitness} :
    validateTransitionShape manifest priorState finality = .ok () ↔
      TransitionShape manifest priorState finality := by
  simp only [validateTransitionShape]
  simp only [↓then_eq_ok, rejectIf_eq_ok, mapError_eq_ok, ProtocolManifest.validate_eq_ok,
    MintControllerState.validate_eq_ok, EthereumFinalityWitness.validate_eq_ok]
  constructor
  · rintro ⟨manifestValid, priorValid, finalityValid, bound⟩
    rw [not_or] at bound
    obtain ⟨configuration, rule⟩ := bound
    exact ⟨manifestValid, priorValid, finalityValid, not_not.mp configuration,
      (not_finalityBreak_iff finalityValid.slot).mp rule⟩
  · intro shape
    refine ⟨shape.manifest_valid, shape.prior_valid, shape.finality_valid, ?_⟩
    rw [not_or]
    exact ⟨not_not.mpr shape.configuration,
      (not_finalityBreak_iff shape.finality_valid.slot).mpr shape.advance⟩

end Usdd.EthereumInbound

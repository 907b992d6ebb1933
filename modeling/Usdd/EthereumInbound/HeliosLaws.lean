import Usdd.EthereumInbound.Helios
/-!
# Laws of the light-client adapter

What a verified transition established: about the prover's prior header and committees, about
the store the library left, and how the next witness was read off that store.
-/
namespace Usdd.EthereumInbound

open Usdd.Foundation Usdd.Core Usdd.ProofCore

variable [Hashing] {Beacon Payload Committee Update FinalityUpdate : Type}
  {helios : Helios Beacon Payload Committee Update FinalityUpdate}
  {manifest : ProtocolManifest} {priorState : MintControllerState}
  {next : EthereumFinalityWitness}
  {proof : SepoliaFinalityProof Beacon Payload Committee Update FinalityUpdate}
  {store : LightClientStore Beacon Payload Committee Update}

/-- What the checks of the prior state establish about the rebuilt store. -/
structure PriorBound (helios : Helios Beacon Payload Committee Update FinalityUpdate)
    (manifest : ProtocolManifest) (priorState : MintControllerState)
    (proof : SepoliaFinalityProof Beacon Payload Committee Update FinalityUpdate) : Prop where
  manifest_valid : manifest.Valid
  prior_valid : priorState.Valid
  configuration : priorState.configurationHash = manifest.controllerConfigurationHash
  chain : manifest.ethereumChainId = sepoliaChainId
  genesis : manifest.ethereumGenesis = sepoliaExecutionGenesisHash
  slot : helios.slot proof.priorFinalizedHeader.beacon = priorState.finalizedBeaconSlot
  root : helios.beaconRoot proof.priorFinalizedHeader.beacon = priorState.finalizedBeaconRoot
  stateRoot : ∃ execution, proof.priorFinalizedHeader.execution = some execution ∧
    helios.stateRoot execution = priorState.finalizedExecutionStateRoot
  bound : executionPayloadIsBound helios proof.priorFinalizedHeader = true
  digest : lightClientStateDigest helios (helios.slot proof.priorFinalizedHeader.beacon)
    (helios.beaconRoot proof.priorFinalizedHeader.beacon) proof.priorCurrentSyncCommittee
    proof.priorNextSyncCommittee = priorState.ethereumLightClientDigest

/-- How a witness is read off the store after the updates. -/
structure ReadOff (helios : Helios Beacon Payload Committee Update FinalityUpdate)
    (priorSlot : UInt64) (store : LightClientStore Beacon Payload Committee Update)
    (next : EthereumFinalityWitness) : Prop where
  advances : finalizedSlotAdvances priorSlot (helios.slot store.finalizedHeader.beacon) = true
  checkpoint : helios.slot store.finalizedHeader.beacon % helios.slotsPerEpoch = 0
  slot : next.finalizedBeaconSlot = helios.slot store.finalizedHeader.beacon
  root : next.finalizedBeaconRoot = helios.beaconRoot store.finalizedHeader.beacon
  digest : next.ethereumLightClientDigest = lightClientStateDigest helios
    (helios.slot store.finalizedHeader.beacon) (helios.beaconRoot store.finalizedHeader.beacon)
    store.currentSyncCommittee store.nextSyncCommittee
  payload : ∃ execution, store.finalizedHeader.execution = some execution ∧
    next.finalizedExecutionBlock = helios.blockHash execution ∧
    next.finalizedExecutionStateRoot = helios.stateRoot execution ∧
    next.executionBlockNumber = helios.blockNumber execution ∧
    next.executionBlockTimestamp = helios.timestamp execution

theorem checkPriorState_eq_ok
    (checked : checkPriorState helios manifest priorState proof = .ok ()) :
    PriorBound helios manifest priorState proof := by
  simp only [checkPriorState] at checked
  simp only [↓then_eq_ok, bind_eq_ok, rejectIf_eq_ok, okOr_eq_ok, mapError_eq_ok,
    ProtocolManifest.validate_eq_ok, MintControllerState.validate_eq_ok, not_or, ne_eq, not_not,
    Bool.not_eq_false] at checked
  obtain ⟨manifestValid, priorValid, configuration, ⟨chain, genesis⟩, ⟨slot, root⟩, execution,
    found, ⟨stateRoot, bound⟩, digest⟩ := checked
  exact ⟨manifestValid, priorValid, configuration, chain, genesis, slot, root,
    ⟨execution, found, stateRoot⟩, bound, digest⟩

theorem deriveWitness_eq_ok {priorSlot : UInt64}
    (derived : deriveWitness helios priorSlot store = .ok next) :
    ReadOff helios priorSlot store next := by
  simp only [deriveWitness] at derived
  simp only [↓then_eq_ok, bind_eq_ok, rejectIf_eq_ok, okOr_eq_ok, pure_eq_ok, ne_eq, not_not,
    Bool.not_eq_false] at derived
  obtain ⟨advances, checkpoint, execution, found, rfl⟩ := derived
  exact ⟨advances, checkpoint, rfl, rfl, rfl, execution, found, rfl, rfl, rfl, rfl⟩

/-- The law of `verify_transition`. -/
theorem verifyTransition_eq_ok
    (verified : verifyTransition helios manifest priorState next proof = .ok ()) :
    PriorBound helios manifest priorState proof ∧
      ∃ store, updatedStore helios proof = .ok store ∧
        ReadOff helios priorState.finalizedBeaconSlot store next := by
  simp only [verifyTransition, deriveTransition] at verified
  simp only [↓then_eq_ok, bind_eq_ok, rejectIf_eq_ok, ne_eq, not_not] at verified
  obtain ⟨_, ⟨checked, store, updated, derived⟩, rfl⟩ := verified
  have prior := checkPriorState_eq_ok checked
  refine ⟨prior, store, updated, ?_⟩
  rw [← prior.slot]
  exact deriveWitness_eq_ok derived

end Usdd.EthereumInbound

import Usdd.ProofCore.Claims
/-!
# Laws of the public outputs

A decoder of a public output sees two controller states and no finality witness, so the output
restates the finality rule over the states. The witness can be read back from the later state,
all but its execution block, and with it the restated rule is the controller's own.
-/
namespace Usdd.ProofCore

open Usdd.Foundation Usdd.Core Usdd.Core.MintControllerState

/-- Saturation matters only for slots out of order. -/
theorem saturatingSub_toNat {left right : UInt64} (ordered : ¬left < right) :
    (saturatingSub left right).toNat = left.toNat - right.toNat := by
  have numbers := Nat.not_lt.mp (UInt64.lt_iff_toNat_lt.not.mp ordered)
  rw [saturatingSub, if_neg ordered]
  exact UInt64.toNat_sub_of_le _ _ (UInt64.le_iff_toNat_le.mpr numbers)

/-- The finality rule of the controller, restated without its exemption of slot zero: a later
context never has slot zero. -/
theorem not_finalityBreak_iff {prior : MintControllerState} {finality : EthereumFinalityWitness}
    (started : finality.finalizedBeaconSlot ≠ 0) :
    ¬(finality.finalizedBeaconSlot < prior.finalizedBeaconSlot ∨
      saturatingSub finality.finalizedBeaconSlot prior.finalizedBeaconSlot >
        maxEthereumFinalitySlotGap ∨
      (finality.finalizedBeaconSlot = prior.finalizedBeaconSlot ∧
        (finality.ethereumLightClientDigest ≠ prior.ethereumLightClientDigest ∨
          finality.finalizedBeaconRoot ≠ prior.finalizedBeaconRoot ∨
          finality.finalizedExecutionStateRoot ≠ prior.finalizedExecutionStateRoot)) ∨
      (finality.finalizedBeaconSlot > prior.finalizedBeaconSlot ∧
        finality.ethereumLightClientDigest = prior.ethereumLightClientDigest)) ↔
      prior.FinalityAdvance finality := by
  simp only [not_or, not_and, ne_eq, not_not]
  constructor
  · rintro ⟨ordered, gap, same, newer⟩
    have bound : (saturatingSub finality.finalizedBeaconSlot prior.finalizedBeaconSlot).toNat ≤
        4096 := by
      rw [gt_iff_lt, UInt64.lt_iff_toNat_lt, maxEthereumFinalitySlotGap_toNat] at gap
      exact Nat.not_lt.mp gap
    rw [saturatingSub_toNat ordered] at bound
    rw [UInt64.lt_iff_toNat_lt] at ordered
    refine ⟨by omega, by omega, ?_, ?_⟩
    · intro equal _
      obtain ⟨digest, root, stateRoot⟩ := same equal
      exact ⟨root, stateRoot, digest⟩
    · intro later
      exact newer (UInt64.lt_iff_toNat_lt.mpr later)
  · intro advance
    have slotLe := advance.slot_le
    have gapLe := advance.gap_le
    have ordered : ¬finality.finalizedBeaconSlot < prior.finalizedBeaconSlot := by
      rw [UInt64.lt_iff_toNat_lt]
      omega
    refine ⟨ordered, ?_, ?_, ?_⟩
    · rw [gt_iff_lt, UInt64.lt_iff_toNat_lt, saturatingSub_toNat ordered,
        maxEthereumFinalitySlotGap_toNat]
      omega
    · intro equal
      obtain ⟨root, stateRoot, digest⟩ := advance.same equal (equal ▸ started)
      exact ⟨digest, root, stateRoot⟩
    · intro later
      exact advance.newer (UInt64.lt_iff_toNat_lt.mp later)

/-- A finality witness with the finalized context of a state. -/
def witnessOf (state : MintControllerState) : EthereumFinalityWitness where
  ethereumLightClientDigest := state.ethereumLightClientDigest
  finalizedBeaconSlot := state.finalizedBeaconSlot
  finalizedBeaconRoot := state.finalizedBeaconRoot
  finalizedExecutionBlock := state.finalizedBeaconRoot
  finalizedExecutionStateRoot := state.finalizedExecutionStateRoot
  executionBlockNumber := 0
  executionBlockTimestamp := 0

theorem context_witnessOf (state : MintControllerState) : state.Context (witnessOf state) :=
  ⟨rfl, rfl, rfl, rfl⟩

/-- A valid state past the bootstrap has a valid witness. -/
theorem witnessOf_valid {state : MintControllerState} (valid : state.Valid)
    (started : state.sequence ≠ 0) : (witnessOf state).Valid := by
  have slot : state.finalizedBeaconSlot ≠ 0 := fun blank => started (valid.fresh blank).1
  obtain ⟨root, stateRoot⟩ := valid.finalized slot
  exact ⟨slot, valid.digest, root, root, stateRoot⟩

/-- The finality rule reads nothing of a witness but the context that the next state keeps. -/
theorem advance_of_context {prior next : MintControllerState} {finality : EthereumFinalityWitness}
    (context : next.Context finality) (advance : prior.FinalityAdvance finality) :
    prior.FinalityAdvance (witnessOf next) := by
  obtain ⟨digest, slot, root, stateRoot⟩ := context
  constructor
  · exact (congrArg UInt64.toNat slot).symm ▸ advance.slot_le
  · exact (congrArg UInt64.toNat slot).symm ▸ advance.gap_le
  · intro same started
    rw [witnessOf, root, stateRoot, digest]
    exact advance.same (slot ▸ same) started
  · intro later
    rw [witnessOf, digest]
    exact advance.newer (slot ▸ later)

/-- A number that is one more than another is not zero. -/
theorem sequence_ne_zero {prior next : UInt64} (exact : next.toNat = prior.toNat + 1) :
    next ≠ 0 := by
  intro zero
  rw [zero, UInt64.toNat_zero] at exact
  omega

/-- A deposit output is valid exactly when it is identified and its states are the two ends of a
mint with the witness of the later one. -/
theorem DepositPublicOutput.validate_eq_ok {output : DepositPublicOutput} :
    output.validate = .ok () ↔ (output.manifestId ≠ .zero ∧ output.claimId ≠ .zero ∧
      output.finalizedExecutionBlockTimestamp ≠ 0) ∧
      MintStep output.priorState output.mintBatch (witnessOf output.nextState)
        output.nextState := by
  simp only [validate]
  simp only [↓then_eq_ok, bind_eq_ok, rejectIf_eq_ok, okOr_eq_ok, checkedAdd_eq_some,
    MintControllerState.validate_eq_ok, MintBatch.validate_eq_ok]
  constructor
  · rintro ⟨identified, prior, next, batch, total, minted, version, sequence, advanced, bound⟩
    rw [not_or, not_or] at identified
    rw [not_or, not_or, not_or, not_or, not_or] at bound
    simp only [ne_eq, not_not] at version
    obtain ⟨sequenceEq, nonceEq, firstEq, totalEq, configurationEq, rule⟩ := bound
    simp only [ne_eq, not_not] at sequenceEq nonceEq firstEq totalEq configurationEq
    have counted : output.nextState.sequence.toNat = output.priorState.sequence.toNat + 1 := by
      rw [sequenceEq, advanced]
      rfl
    have witness := witnessOf_valid next (sequence_ne_zero counted)
    refine ⟨identified, {
      valid := prior
      batchValid := batch
      finalityValid := witness
      nonce := firstEq
      advance := (not_finalityBreak_iff witness.slot).mp rule
      version := version
      sequence := counted
      nextNonce := nonceEq
      context := context_witnessOf _
      total := by rw [totalEq, minted]
      configuration := configurationEq }⟩
  · rintro ⟨identified, step⟩
    refine ⟨?_, step.valid, step.next_valid, step.batchValid, output.nextState.totalMintedUsddBase,
      step.total, ?_, output.nextState.sequence, step.sequence, ?_⟩
    · rw [not_or, not_or]
      exact identified
    · exact not_not.mpr step.version
    · rw [not_or, not_or, not_or, not_or, not_or]
      exact ⟨not_not.mpr rfl, not_not.mpr step.nextNonce, not_not.mpr step.nonce, not_not.mpr rfl,
        not_not.mpr step.configuration,
        (not_finalityBreak_iff step.finalityValid.slot).mpr step.advance⟩

/-- The finality rule of a heartbeat, whose slot must be newer. -/
theorem not_heartbeatBreak_iff {prior : MintControllerState} {finality : EthereumFinalityWitness} :
    ¬(finality.finalizedBeaconSlot ≤ prior.finalizedBeaconSlot ∨
      finality.ethereumLightClientDigest = prior.ethereumLightClientDigest ∨
      saturatingSub finality.finalizedBeaconSlot prior.finalizedBeaconSlot >
        maxEthereumFinalitySlotGap) ↔
      prior.finalizedBeaconSlot.toNat < finality.finalizedBeaconSlot.toNat ∧
        prior.FinalityAdvance finality := by
  simp only [not_or]
  constructor
  · rintro ⟨newer, digest, gap⟩
    rw [UInt64.le_iff_toNat_le, Nat.not_le] at newer
    have ordered : ¬finality.finalizedBeaconSlot < prior.finalizedBeaconSlot := by
      rw [UInt64.lt_iff_toNat_lt]
      omega
    rw [gt_iff_lt, UInt64.lt_iff_toNat_lt, saturatingSub_toNat ordered,
      maxEthereumFinalitySlotGap_toNat] at gap
    refine ⟨newer, by omega, by omega, ?_, fun _ => digest⟩
    intro same _
    rw [same] at newer
    exact absurd newer (Nat.lt_irrefl _)
  · rintro ⟨newer, advance⟩
    have gapLe := advance.gap_le
    have ordered : ¬finality.finalizedBeaconSlot < prior.finalizedBeaconSlot := by
      rw [UInt64.lt_iff_toNat_lt]
      omega
    refine ⟨?_, advance.newer newer, ?_⟩
    · rw [UInt64.le_iff_toNat_le]
      omega
    · rw [gt_iff_lt, UInt64.lt_iff_toNat_lt, saturatingSub_toNat ordered,
        maxEthereumFinalitySlotGap_toNat]
      omega

/-- A heartbeat output is valid exactly when it is identified and its states are the two ends of
a heartbeat with the witness of the later one. -/
theorem HeartbeatPublicOutput.validate_eq_ok {output : HeartbeatPublicOutput} :
    output.validate = .ok () ↔ (output.manifestId ≠ .zero ∧ output.claimId ≠ .zero ∧
      output.finalizedExecutionBlockTimestamp ≠ 0) ∧
      HeartbeatStep output.priorState (witnessOf output.nextState) output.nextState := by
  simp only [validate]
  simp only [↓then_eq_ok, bind_eq_ok, rejectIf_eq_ok, okOr_eq_ok, checkedAdd_eq_some,
    MintControllerState.validate_eq_ok]
  constructor
  · rintro ⟨identified, prior, next, version, sequence, advanced, bound⟩
    rw [not_or, not_or] at identified
    rw [not_or, not_or, not_or, not_or] at bound
    simp only [ne_eq, not_not] at version
    obtain ⟨sequenceEq, nonceEq, totalEq, configurationEq, rule⟩ := bound
    simp only [ne_eq, not_not] at sequenceEq nonceEq totalEq configurationEq
    have counted : output.nextState.sequence.toNat = output.priorState.sequence.toNat + 1 := by
      rw [sequenceEq, advanced]
      rfl
    have advance := not_heartbeatBreak_iff.mp (show ¬((witnessOf output.nextState
      ).finalizedBeaconSlot ≤ _ ∨ (witnessOf output.nextState).ethereumLightClientDigest = _ ∨ _)
      from rule)
    refine ⟨identified, {
      valid := prior
      finalityValid := witnessOf_valid next (sequence_ne_zero counted)
      newer := advance.1
      advance := advance.2
      version := version
      sequence := counted
      nextNonce := nonceEq
      context := context_witnessOf _
      total := totalEq
      configuration := configurationEq }⟩
  · rintro ⟨identified, step⟩
    refine ⟨?_, step.valid, step.next_valid, ?_, output.nextState.sequence, step.sequence, ?_⟩
    · rw [not_or, not_or]
      exact identified
    · exact not_not.mpr step.version
    · rw [not_or, not_or, not_or, not_or]
      exact ⟨not_not.mpr rfl, not_not.mpr step.nextNonce, not_not.mpr step.total,
        not_not.mpr step.configuration, not_heartbeatBreak_iff.mpr ⟨step.newer, step.advance⟩⟩

/-- A mint with any witness is one with the witness of its next state. -/
theorem mintStep_witnessOf {prior next : MintControllerState} {batch : MintBatch}
    {finality : EthereumFinalityWitness} (step : MintStep prior batch finality next) :
    MintStep prior batch (witnessOf next) next where
  valid := step.valid
  batchValid := step.batchValid
  finalityValid := witnessOf_valid step.next_valid (sequence_ne_zero step.sequence)
  nonce := step.nonce
  advance := advance_of_context step.context step.advance
  version := step.version
  sequence := step.sequence
  nextNonce := step.nextNonce
  context := context_witnessOf _
  total := step.total
  configuration := step.configuration

/-- A heartbeat with any witness is one with the witness of its next state. -/
theorem heartbeatStep_witnessOf {prior next : MintControllerState}
    {finality : EthereumFinalityWitness} (step : HeartbeatStep prior finality next) :
    HeartbeatStep prior (witnessOf next) next where
  valid := step.valid
  finalityValid := witnessOf_valid step.next_valid (sequence_ne_zero step.sequence)
  newer := (congrArg UInt64.toNat step.context.slot).symm ▸ step.newer
  advance := advance_of_context step.context step.advance
  version := step.version
  sequence := step.sequence
  nextNonce := step.nextNonce
  context := context_witnessOf _
  total := step.total
  configuration := step.configuration

end Usdd.ProofCore

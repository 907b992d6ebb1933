import Usdd.EthereumInbound.DepositBatchLaws
import Usdd.Verif.DepositJournals
import Usdd.Verif.DepositLiveness
/-!
# The inbound verifier and the controller on deposit batches

The guest validates a batch twice: the inbound verifier checks it against the manifest and the
prior state before it looks at proofs, and the controller mints it. The two accept the same
batches, up to the lifetime sums that only the controller keeps, and count them alike.
-/
namespace Usdd.Verif

open Usdd.Foundation Usdd.Core Usdd.ProofCore Usdd.EthereumInbound

variable [Hashing] {manifest : ProtocolManifest} {prior : MintControllerState}
  {finality : EthereumFinalityWitness} {deposits : List VaultDeposit} {batch : MintBatch}

/-- The sequence number and the lifetime supply have room for a batch. -/
def HasRoom (prior : MintControllerState) (batch : MintBatch) : Prop :=
  prior.sequence.toNat + 1 < 2 ^ 64 ∧
    prior.totalMintedUsddBase.toNat + batch.totalUsddAmountBase.toNat < 2 ^ 64

/-- The errors of the controller for the two sums. -/
def overflowErrors : List DecodeError :=
  [.invalidValue "controller sequence overflow", .invalidValue "minted supply overflow"]

/-- The controller mints a batch, or refuses it for one of the two sums only. -/
def MintsUpToOverflow (prior : MintControllerState) (batch : MintBatch)
    (finality : EthereumFinalityWitness) : Prop :=
  Succeeds (prior.applyMintBatch batch finality) ∨
    ¬HasRoom prior batch ∧
      ∃ error ∈ overflowErrors, prior.applyMintBatch batch finality = .error error

/-- Both validators of the inbound verifier pass. -/
def InboundAccepts (manifest : ProtocolManifest) (prior : MintControllerState)
    (finality : EthereumFinalityWitness) (deposits : List VaultDeposit) : Prop :=
  validateTransitionShape manifest prior finality = .ok () ∧
    validateDepositBatch manifest prior deposits = .ok ()

/-- The context and the deposits are valid for the manifest, and they make a batch with a
property. -/
def ControllerAccepts (manifest : ProtocolManifest) (prior : MintControllerState)
    (finality : EthereumFinalityWitness) (deposits : List VaultDeposit)
    (mints : MintBatch → Prop) : Prop :=
  finality.validate = .ok () ∧ prior.validate = .ok () ∧
    (∀ deposit ∈ deposits, Targets manifest deposit) ∧
    ∃ batch, MintBatch.fromDeposits deposits = .ok batch ∧ mints batch

/-- A result of the inbound verifier carries the numbers of a batch, its identifiers, and one
storage key for each deposit. -/
structure CarriesBatch (result : VerifiedDepositBatch) (deposits : List VaultDeposit)
    (batch : MintBatch) : Prop where
  firstNonce : result.firstNonce = batch.firstNonce
  nextNonce : result.nextNonce = batch.nextNonce
  total : result.totalUsdtMicro = batch.totalUsdtAmountMicro
  ids : result.depositIds = batch.outputs.map MintOutput.depositId
  keys : result.storageKeys =
    deposits.map fun deposit => depositCommitmentStorageKey deposit.nonce

/-- The inbound verifier and the controller agree on a list of deposits. -/
structure DepositBatchesAgree (manifest : ProtocolManifest) (prior : MintControllerState)
    (finality : EthereumFinalityWitness) (deposits : List VaultDeposit) : Prop where
  /-- Where the sums have room, the validators accept what the controller mints. -/
  same : (∀ batch, MintBatch.fromDeposits deposits = .ok batch → HasRoom prior batch) →
    (InboundAccepts manifest prior finality deposits ↔
      ControllerAccepts manifest prior finality deposits fun batch =>
        Succeeds (prior.applyMintBatch batch finality))
  /-- Where they have not, they accept what the controller refuses for that reason only. -/
  overflow : InboundAccepts manifest prior finality deposits ↔
    ControllerAccepts manifest prior finality deposits fun batch =>
      MintsUpToOverflow prior batch finality
  /-- An accepted batch is counted alike. -/
  counted : ∀ (Proof : Type) (verifyProof : VerifyProof)
    (verifier : EthereumFinalityTransitionVerifier Proof) (proof : Proof)
    (witness : VaultStorageWitness) (result : VerifiedDepositBatch),
    verifyFinalizedDepositBatch verifyProof verifier manifest prior finality deposits proof
      witness = .ok result →
    ∃ batch, MintBatch.fromDeposits deposits = .ok batch ∧ CarriesBatch result deposits batch
  /-- The total never overflows. -/
  amount : ∀ (Proof : Type) (verifyProof : VerifyProof)
    (verifier : EthereumFinalityTransitionVerifier Proof) (proof : Proof)
    (witness : VaultStorageWitness),
    verifyFinalizedDepositBatch verifyProof verifier manifest prior finality deposits proof
      witness ≠ .error .amountOverflow
  /-- A nonce error is one of the validator, never of the closing nonce. -/
  closing : ∀ (Proof : Type) (verifyProof : VerifyProof)
    (verifier : EthereumFinalityTransitionVerifier Proof) (proof : Proof)
    (witness : VaultStorageWitness),
    verifyFinalizedDepositBatch verifyProof verifier manifest prior finality deposits proof
      witness = .error .nonConsecutiveDepositNonce →
    validateDepositBatch manifest prior deposits = .error .nonConsecutiveDepositNonce

section Controller

omit [Hashing] in
theorem validateFinalityAdvance_error {error : DecodeError}
    (failed : prior.validateFinalityAdvance finality = .error error) :
    error ∉ overflowErrors := by
  simp only [MintControllerState.validateFinalityAdvance] at failed
  simp only [bind_eq_error, rejectIf_eq_error, okOr_eq_error] at failed
  rcases failed with ⟨_, rfl⟩ | ⟨_, _, failed⟩
  · decide
  rcases failed with ⟨_, rfl⟩ | ⟨_, _, failed⟩
  · decide
  rcases failed with ⟨_, rfl⟩ | ⟨_, _, failed⟩
  · decide
  rcases failed with ⟨_, rfl⟩ | ⟨_, _, _, rfl⟩
  · decide
  · decide

omit [Hashing] in
/-- A valid batch that the controller refuses for a sum is one it would mint otherwise. -/
theorem refused_overflow_iff (valid : prior.Valid) (batchValid : batch.Valid)
    (finalityValid : finality.Valid) {error : DecodeError}
    (refused : prior.applyMintBatch batch finality = .error error) :
    error ∈ overflowErrors ↔
      batch.firstNonce = prior.nextMintNonce ∧ prior.FinalityAdvance finality := by
  simp only [MintControllerState.applyMintBatch] at refused
  rcases (bind_eq_error _ _ _).mp refused with failed | ⟨next, made, failed⟩
  · simp only [MintControllerState.mintSuccessor] at failed
    rw [MintControllerState.validate_eq_ok.mpr valid, MintBatch.validate_eq_ok.mpr batchValid,
      EthereumFinalityWitness.validate_eq_ok.mpr finalityValid] at failed
    simp only [bind_eq_error, rejectIf_eq_error, okOr_eq_error, rejectIf_eq_ok, reduceCtorEq,
      false_or, true_and, exists_const, ne_eq, not_not] at failed
    rcases failed with ⟨other, rfl⟩ | ⟨nonce, failed⟩
    · exact iff_of_false (by decide) fun both => other both.1
    rcases failed with stalled | ⟨_, advanced, failed⟩
    · refine iff_of_false (validateFinalityAdvance_error stalled) fun both => ?_
      rw [MintControllerState.validateFinalityAdvance_eq_ok.mpr both.2] at stalled
      cases stalled
    have advance := MintControllerState.validateFinalityAdvance_eq_ok.mp advanced
    rcases failed with ⟨_, rfl⟩ | ⟨_, _, ⟨_, rfl⟩ | ⟨_, _, wrong⟩⟩
    · exact iff_of_true (by decide) ⟨nonce, advance⟩
    · exact iff_of_true (by decide) ⟨nonce, advance⟩
    · cases wrong
  · have step := MintControllerState.mintSuccessor_eq_ok.mp made
    rw [MintControllerState.validate_eq_ok.mpr step.next_valid] at failed
    cases failed

omit [Hashing] in
/-- The controller gets to the sums exactly if the nonce is the next one and finality advances. -/
theorem mintsUpToOverflow_iff (valid : prior.Valid) (batchValid : batch.Valid)
    (finalityValid : finality.Valid) :
    MintsUpToOverflow prior batch finality ↔
      batch.firstNonce = prior.nextMintNonce ∧ prior.FinalityAdvance finality := by
  constructor
  · rintro (⟨next, minted⟩ | ⟨_, error, listed, refused⟩)
    · have step := MintControllerState.applyMintBatch_eq_ok.mp minted
      exact ⟨step.nonce, step.advance⟩
    · exact (refused_overflow_iff valid batchValid finalityValid refused).mp listed
  · rintro ⟨nonce, advance⟩
    by_cases room : HasRoom prior batch
    · obtain ⟨sequence, total⟩ := room
      exact Or.inl ((applyMintBatch_succeeds_iff valid batchValid finalityValid nonce advance
        (by omega)).mpr total)
    · cases answer : prior.applyMintBatch batch finality with
      | ok next => exact Or.inl ⟨next, answer⟩
      | error error =>
        have listed := (refused_overflow_iff valid batchValid finalityValid answer).mpr
          ⟨nonce, advance⟩
        exact Or.inr ⟨room, error, listed, answer⟩

end Controller

/-- The inbound validators pass exactly if the controller gets to the sums. -/
theorem inboundAccepts_iff (manifestValid : manifest.validate = .ok ())
    (configuration : prior.configurationHash = manifest.controllerConfigurationHash)
    (ids : ∀ deposit ∈ deposits, deposit.depositId ≠ .zero) :
    InboundAccepts manifest prior finality deposits ↔
      ControllerAccepts manifest prior finality deposits fun batch =>
        MintsUpToOverflow prior batch finality := by
  unfold InboundAccepts ControllerAccepts
  rw [validateTransitionShape_eq_ok, validateDepositBatch_eq_ok,
    MintControllerState.validate_eq_ok, EthereumFinalityWitness.validate_eq_ok]
  constructor
  · rintro ⟨shape, targets, batch, built, nonce⟩
    have batchValid := (MintBatch.fromDeposits_eq_ok.mp built).valid ids
    refine ⟨shape.finality_valid, shape.prior_valid, targets, batch, built, ?_⟩
    exact (mintsUpToOverflow_iff shape.prior_valid batchValid shape.finality_valid).mpr
      ⟨nonce, shape.advance⟩
  · rintro ⟨finalityValid, priorValid, targets, batch, built, minted⟩
    have batchValid := (MintBatch.fromDeposits_eq_ok.mp built).valid ids
    obtain ⟨nonce, advance⟩ :=
      (mintsUpToOverflow_iff priorValid batchValid finalityValid).mp minted
    exact ⟨⟨ProtocolManifest.validate_eq_ok.mp manifestValid, priorValid, finalityValid,
      configuration, advance⟩, targets, batch, built, nonce⟩

/-- What an accepted batch is summarised by is what the controller builds of it. -/
theorem carriesBatch {result : VerifiedDepositBatch}
    (built : MintBatch.fromDeposits deposits = .ok batch)
    (nonce : batch.firstNonce = prior.nextMintNonce)
    (summary : Summarises prior deposits result) : CarriesBatch result deposits batch := by
  have facts := MintBatch.fromDeposits_eq_ok.mp built
  constructor
  · rw [summary.first, nonce]
  · rw [← UInt64.toNat_inj, summary.next, facts.next, nonce]
  · rw [← UInt64.toNat_inj, summary.total, facts.usdt, facts.outputs, MintBatch.usdtSum,
      List.map_map]
    rfl
  · rw [summary.ids, facts.outputs, List.map_map]
    rfl
  · exact summary.keys

/-- For every valid manifest, prior state of its configuration, finality witness and deposits with
nonzero identifiers, the inbound verifier and the controller accept the same batches where the
lifetime sums have room, count an accepted batch alike, and the inbound verifier's own sums never
overflow. -/
theorem deposit_batches_agree (manifestValid : manifest.validate = .ok ())
    (configuration : prior.configurationHash = manifest.controllerConfigurationHash)
    (ids : ∀ deposit ∈ deposits, deposit.depositId ≠ .zero) :
    DepositBatchesAgree manifest prior finality deposits := by
  have exact : InboundAccepts manifest prior finality deposits ↔ _ :=
    inboundAccepts_iff manifestValid configuration ids
  constructor
  · intro room
    rw [exact]
    unfold ControllerAccepts
    constructor
    · rintro ⟨finalityValid, priorValid, targets, batch, built, minted | ⟨full, _⟩⟩
      · exact ⟨finalityValid, priorValid, targets, batch, built, minted⟩
      · exact absurd (room batch built) full
    · rintro ⟨finalityValid, priorValid, targets, batch, built, minted⟩
      exact ⟨finalityValid, priorValid, targets, batch, built, Or.inl minted⟩
  · exact exact
  · intro Proof verifyProof verifier proof witness result verified
    obtain ⟨_, checked, summary⟩ := verifyFinalizedDepositBatch_summarises verified
    obtain ⟨_, batch, built, nonce⟩ := validateDepositBatch_eq_ok.mp checked
    exact ⟨batch, built, carriesBatch built nonce summary⟩
  · intro Proof verifyProof verifier proof witness failed
    rcases verifyFinalizedDepositBatch_error failed with shape | checked | proven
    · exact absurd (validateTransitionShape_error shape) (by simp)
    · exact absurd (validateDepositBatch_error checked) (by simp)
    · exact absurd proven (by simp [IsProofError])
  · intro Proof verifyProof verifier proof witness failed
    rcases verifyFinalizedDepositBatch_error failed with shape | checked | proven
    · exact absurd (validateTransitionShape_error shape) (by simp)
    · exact checked
    · exact absurd proven (by simp [IsProofError])

omit [Hashing] in
/-- A batch of one deposit of the sample deployment. -/
theorem deposit_batches_agree_sample : letI := sha256Hashing
    DepositBatchesAgree sampleManifest settledState laterWitness [sampleVaultDeposit] ∧
      InboundAccepts sampleManifest settledState laterWitness [sampleVaultDeposit] := by
  let := sha256Hashing
  refine ⟨deposit_batches_agree (by decide +kernel) (by decide) ?_, ?_⟩
  · decide +kernel
  · unfold InboundAccepts
    decide +kernel

end Usdd.Verif

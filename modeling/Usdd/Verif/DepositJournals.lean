import Usdd.Guests.EthereumState
import Usdd.Verif.SlotRules
/-!
# Journals of deposit batches

A guest that has accepted a claim still has to write a journal, and the journal is made through
a decoder with rules of its own. Every output of an accepted claim passes those rules, the
journal decodes to the claim's own transition, and it fits the public values of a proof.
-/
namespace Usdd.Verif

open Usdd.Foundation Usdd.Core Usdd.ProofCore Usdd.Guests Usdd.EthereumInbound

section Journals

variable [Hashing] {Proof : Type}

/-- No conversion that the source expects to succeed fails for a claim and its output: the
amounts convert, and the counts and lengths that are written fit their prefixes. -/
structure Writable (claim : EthereumDepositClaim) (output : DepositPublicOutput) : Prop where
  amounts : ∀ deposit ∈ claim.deposits, usdtMicroToUsddBase deposit.usdtAmountMicro ≠ none
  deposits : claim.deposits.length < 2 ^ 8
  depositScripts : ∀ deposit ∈ claim.deposits, deposit.elementsScript.length < 2 ^ 32
  outputs : output.mintBatch.outputs.length < 2 ^ 8
  outputScripts : ∀ minted ∈ output.mintBatch.outputs, minted.elementsScript.length < 2 ^ 32

/-- A journal is written without a panic, fits, verifies, and carries the claim's transition. -/
structure JournalOf (manifest : ProtocolManifest) (claim : EthereumDepositClaim)
    (journal : StrictJournal) (output : DepositPublicOutput) (bytes : List UInt8) : Prop where
  writable : Writable claim output
  encoded : (journal.encode : Except (Fault JournalError) (List UInt8)) = .ok bytes
  fits : bytes.length ≤ sp1PublicValuesMaxSize
  verified : StrictJournal.verifyExpected bytes manifest.ethereumGuestProgramId .ethereumState =
    .ok journal
  decoded : decodeExact DepositPublicOutput journal.payload = .ok output
  typed : journal.typedPayload = .ok (.deposit output)
  prior : output.priorState = claim.priorState
  batch : MintBatch.fromDeposits claim.deposits = .ok output.mintBatch
  next : claim.priorState.applyMintBatch output.mintBatch claim.finality = .ok output.nextState

/-- Every claim that a guest accepts, up to the verifier, yields its journal. -/
def JournalsWritten (verifier : EthereumStateProofVerifier Proof) : Prop :=
  ∀ manifest claim proof output,
    depositOutput verifier manifest claim proof = .ok output →
    claim.finality.executionBlockTimestamp ≠ 0 → claim.manifestId ≠ .zero →
    claim.claimId ≠ .zero →
    ∃ journal bytes, buildDepositJournal verifier manifest claim proof = .ok journal ∧
      JournalOf manifest claim journal output bytes

variable {manifest : ProtocolManifest} {claim : EthereumDepositClaim}
  {output : DepositPublicOutput}

/-- The output of an accepted claim passes the decoder's validation. -/
theorem depositStep_validates (accepted : DepositStep manifest claim output)
    (timestamp : claim.finality.executionBlockTimestamp ≠ 0)
    (manifestId : claim.manifestId ≠ .zero) (claimId : claim.claimId ≠ .zero) :
    output.validate = .ok () := by
  rw [accepted.output_eq, DepositPublicOutput.validate_eq_ok]
  refine ⟨⟨manifestId, claimId, timestamp⟩, ?_⟩
  exact mintStep_witnessOf accepted.step

/-- The counts of an accepted claim fit their prefixes. -/
theorem depositStep_writable (accepted : DepositStep manifest claim output) :
    Writable claim output := by
  have built := MintBatch.fromDeposits_eq_ok.mp accepted.batch
  have size := built.size_le
  have valid := accepted.step.batchValid
  have outputs := valid.size_le
  refine ⟨?_, by omega, ?_, by omega, ?_⟩
  · intro deposit member
    obtain ⟨base, converted, -⟩ :=
      usdtMicroToUsddBase_of_le (built.each deposit member).amount_le
    rw [converted]
    exact Option.some_ne_none base
  · intro deposit member
    have script := (built.each deposit member).script_le
    omega
  · intro minted member
    have script := (valid.outputs minted member).script_le
    omega

omit [Hashing] in
theorem encode_depositOutput_length (output : DepositPublicOutput) :
    (encode output).length = 404 + (encode output.mintBatch).length := by
  change [encodeHeader tagDepositPublicOutput, encode output.manifestId, encode output.claimId,
    encode output.priorState, encode output.nextState,
    encode output.finalizedExecutionBlockTimestamp, encode output.mintBatch].flatten.length = _
  simp
  omega

omit [Hashing] in
/-- A journal is 88 bytes longer than its payload. -/
theorem written_length (journal : StrictJournal) :
    journal.written.length = 88 + journal.payload.length := by
  simp [StrictJournal.written, encode, FixedBytes.length_eq]
  omega

/-- A payload that is a valid deposit output makes a journal that verifies. -/
theorem depositJournal_verifies {programId : Hash32} (program : programId ≠ .zero)
    (valid : output.validate = .ok ()) :
    ∃ journal, StrictJournal.new .ethereumState programId (encode output) = .ok journal ∧
      journal.payload = encode output ∧
      (journal.encode : Except (Fault JournalError) (List UInt8)) = .ok journal.written ∧
      StrictJournal.verifyExpected journal.written programId .ethereumState = .ok journal ∧
      journal.typedPayload = .ok (.deposit output) := by
  have typed : TypedPublicValues.decode .ethereumState (encode output) =
      .ok (.deposit output) :=
    TypedPublicValues.decode_eq_ok.mpr ⟨valid, rfl, rfl⟩
  have short : (encode output).length < 2 ^ 32 :=
    @TypedPublicValues.encode_length_lt _ (.deposit output) valid
  have nonempty : encode output ≠ [] := by
    apply List.length_pos_iff.mp
    rw [encode_depositOutput_length]
    omega
  refine ⟨⟨.ethereumState, programId, hashBytes (encode output), encode output⟩,
    StrictJournal.new_eq_ok.mpr ⟨program, nonempty, ⟨_, typed⟩, rfl⟩, rfl,
    StrictJournal.encode_eq_ok.mpr ⟨short, rfl⟩, ?_, ?_⟩
  · simp only [StrictJournal.verifyExpected]
    simp only [bind_eq_ok, ↓then_eq_ok, StrictJournal.refuse_eq_ok, pure_eq_ok, ne_eq, not_not]
    exact ⟨_, StrictJournal.decodeStrict_eq_ok.mpr
      ⟨rfl, program, nonempty, short, rfl, _, typed⟩, rfl, rfl, rfl⟩
  · rw [StrictJournal.typedPayload, typed]
    rfl

/-- The journals of accepted deposit claims are written, and the records of a claim fit. -/
theorem deposit_journals_fit (verifier : EthereumStateProofVerifier Proof) :
    JournalsWritten verifier ∧ RecordsFit := by
  refine ⟨?_, records_fit⟩
  intro manifest claim proof output built timestamp manifestId claimId
  obtain ⟨accepted, -⟩ := depositOutput_eq_ok.mp built
  have valid := depositStep_validates accepted timestamp manifestId claimId
  have program : manifest.ethereumGuestProgramId ≠ .zero :=
    accepted.manifest_valid.hashes ("ethereum_guest_program_id", manifest.ethereumGuestProgramId)
      (by simp [ProtocolManifest.requiredHashes])
  obtain ⟨journal, made, payload, encoded, verified, typed⟩ :=
    depositJournal_verifies program valid
  have batch := encode_mintBatch_length_le accepted.step.batchValid
  refine ⟨journal, journal.written, ?_, {
    writable := depositStep_writable accepted
    encoded := encoded
    fits := ?_
    verified := verified
    decoded := ?_
    typed := typed
    prior := congrArg DepositPublicOutput.priorState accepted.output_eq
    batch := accepted.batch
    next := MintControllerState.applyMintBatch_eq_ok.mpr accepted.step }⟩
  · simp only [buildDepositJournal]
    simp only [bind_eq_ok, mapError_eq_ok]
    exact ⟨output, built, made⟩
  · rw [written_length, payload, encode_depositOutput_length]
    change _ ≤ 16384
    omega
  · rw [payload]
    exact decodeExact_eq_ok.mpr ⟨valid, rfl⟩

end Journals

/-- A deposit into the vault of the sample deployment. -/
def sampleVaultDeposit : VaultDeposit where
  ethereumChainId := 1
  vault := .ofNat 20 0xa1
  usdt := .ofNat 20 0xa2
  nonce := 64
  depositor := .ofNat 20 0xa7
  usdtAmountMicro := 2500000
  elementsScript := [0x00, 0x14, 0x99]
  userSalt := .ofNat 32 0x5a

/-- A verifier that knows one claim's proof. -/
def sampleStateVerifier : EthereumStateProofVerifier Unit where
  verifyFinalizedDeposits _ claim _ :=
    if claim.deposits = [sampleVaultDeposit] ∧ claim.finality = laterWitness then .ok ()
    else .error (.invalidProof "vault deposit storage proof rejected")
  verifyFinalizedHeartbeat _ _ _ :=
    .error (.invalidProof "invalid Ethereum inbound proof witness")

section Sample

variable [Hashing]

/-- The claim of that deposit. -/
def sampleDepositClaim : EthereumDepositClaim where
  manifestId := domainHash .manifest (encode sampleManifest)
  priorState := settledState
  finality := laterWitness
  deposits := [sampleVaultDeposit]

end Sample

/-- A claim of one deposit is accepted and yields a journal. -/
theorem deposit_journals_fit_sample : letI := sha256Hashing
    ∃ journal bytes, buildDepositJournal sampleStateVerifier sampleManifest sampleDepositClaim () =
      .ok journal ∧ ∃ output, JournalOf sampleManifest sampleDepositClaim journal output bytes := by
  let hashing := sha256Hashing
  have accepted : (depositOutput sampleStateVerifier sampleManifest sampleDepositClaim ()).isOk =
      true := by decide +kernel
  cases built : depositOutput sampleStateVerifier sampleManifest sampleDepositClaim () with
  | error error =>
    rw [built] at accepted
    cases accepted
  | ok output =>
    obtain ⟨journal, bytes, made, journalOf⟩ :=
      (deposit_journals_fit sampleStateVerifier).1 sampleManifest sampleDepositClaim () output
        built (by decide) (by decide +kernel) (by decide +kernel)
    exact ⟨journal, bytes, made, output, journalOf⟩

end Usdd.Verif

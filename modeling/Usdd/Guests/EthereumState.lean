import Usdd.EthereumInbound.Helios
import Usdd.EthereumInbound.VaultWitnessLaws
import Usdd.ProofCore.GuestLaws
import Usdd.ProofCore.JournalCodec
/-!
# The Ethereum state guest

The guest is given five byte records, each with a limit of its own, and returns the bytes of a
journal. The limits are longer than any record that decodes, so that no claim is refused for its
size alone.
-/
namespace Usdd.Guests

open Usdd.Foundation Usdd.Core Usdd.ProofCore Usdd.EthereumInbound

/-- `lib::DEPOSIT_STATEMENT`. -/
def depositStatement : UInt8 := 1

/-- `lib::HEARTBEAT_STATEMENT`. -/
def heartbeatStatement : UInt8 := 2

/-- `lib::MAX_MANIFEST_BYTES`. -/
def maxManifestBytes : Nat := 4 * 1024

/-- `lib::MAX_CLAIM_BYTES`. -/
def maxClaimBytes : Nat := 128 * 1024

/-- `lib::MAX_VAULT_WITNESS_BYTES`. -/
def maxVaultWitnessBytes : Nat := 4 * 1024 * 1024 + 16 * 1024

/-- `helios::MAX_FINALITY_WITNESS_BYTES`. -/
def maxFinalityWitnessBytes : Nat := 512 * 1024

/-- `lib::GuestInputError`. -/
inductive GuestInputError where
  | wrongStatementTag
  | inputTooLarge
  | unexpectedVaultWitness
  | decodeRejected
  | verificationRejected
deriving DecidableEq

/-- `EthereumInboundProof` of the inbound verifier. -/
inductive EthereumInboundProof (Proof : Type) where
  | deposit (finalityProof : Proof) (vaultStorage : VaultStorageWitness)
  | heartbeat (finalityProof : Proof)

/-- A check of the guest's input. -/
def refuse (condition : Prop) [Decidable condition] (error : GuestInputError) :
    Except (Fault GuestInputError) Unit :=
  rejectIf condition (.error error)

/-- A step of the guest whose errors are reported as one. -/
def orReject {ε α : Type} (computation : Except ε α) (error : GuestInputError) :
    Except (Fault GuestInputError) α :=
  computation.mapError fun _ => .error error

section Execution

variable [Hashing] {Proof : Type}

/-- The deposit branch of `lib::execute_guest_input`. -/
def depositJournal (verifier : EthereumStateProofVerifier (EthereumInboundProof Proof))
    (manifest : ProtocolManifest) (claimBytes : List UInt8) (finality : Proof)
    (vaultWitnessBytes : List UInt8) : Except (Fault GuestInputError) StrictJournal := do
  let claim ← orReject (decodeExact EthereumDepositClaim claimBytes) .decodeRejected
  let vaultStorage ← orReject (decodeExact VaultStorageWitness vaultWitnessBytes) .decodeRejected
  orReject (buildDepositJournal verifier manifest claim (.deposit finality vaultStorage))
    .verificationRejected

/-- The heartbeat branch of `lib::execute_guest_input`. -/
def heartbeatJournal (verifier : EthereumStateProofVerifier (EthereumInboundProof Proof))
    (manifest : ProtocolManifest) (claimBytes : List UInt8) (finality : Proof) :
    Except (Fault GuestInputError) StrictJournal := do
  let claim ← orReject (decodeExact EthereumHeartbeatClaim claimBytes) .decodeRejected
  orReject (buildHeartbeatJournal verifier manifest claim (.heartbeat finality))
    .verificationRejected

/-- The journal that `lib::execute_guest_input` makes for a statement. -/
def statementJournal (verifier : EthereumStateProofVerifier (EthereumInboundProof Proof))
    (tag : UInt8) (manifest : ProtocolManifest) (claimBytes : List UInt8) (finality : Proof)
    (vaultWitnessBytes : List UInt8) : Except (Fault GuestInputError) StrictJournal :=
  if tag = depositStatement then
    depositJournal verifier manifest claimBytes finality vaultWitnessBytes
  else heartbeatJournal verifier manifest claimBytes finality

/-- `lib::execute_guest_input`, with the finality witness's codec and the inbound verifier as
parameters. -/
def executeGuestInput (decodeFinality : List UInt8 → Except SepoliaFinalityError Proof)
    (verifier : EthereumStateProofVerifier (EthereumInboundProof Proof))
    (statementTag manifestBytes claimBytes finalityBytes vaultWitnessBytes : List UInt8) :
    Except (Fault GuestInputError) (List UInt8) := do
  refuse (statementTag.length ≠ 1) .wrongStatementTag
  refuse (manifestBytes = [] ∨ manifestBytes.length > maxManifestBytes ∨ claimBytes = [] ∨
      claimBytes.length > maxClaimBytes ∨ finalityBytes = [] ∨
      finalityBytes.length > maxFinalityWitnessBytes ∨
      vaultWitnessBytes.length > maxVaultWitnessBytes)
    .inputTooLarge
  let tag := statementTag.headD 0
  refuse (tag = depositStatement ∧ vaultWitnessBytes = []) .decodeRejected
  refuse (tag = heartbeatStatement ∧ vaultWitnessBytes ≠ []) .unexpectedVaultWitness
  refuse (tag ≠ depositStatement ∧ tag ≠ heartbeatStatement) .wrongStatementTag
  let manifest ← orReject (decodeExact ProtocolManifest manifestBytes) .decodeRejected
  let finality ← orReject (decodeFinality finalityBytes) .decodeRejected
  let journal ← statementJournal verifier tag manifest claimBytes finality vaultWitnessBytes
  journal.encode

end Execution

section Lengths

@[simp]
theorem encode_finality_length (finality : EthereumFinalityWitness) :
    (encode finality).length = 156 := by
  simp [encode, FixedBytes.length_eq]

theorem encode_manifest_length (manifest : ProtocolManifest) :
    (encode manifest).length = 898 := by
  simp [encode, FixedBytes.length_eq]

theorem encode_deposit_length_le {deposit : VaultDeposit} (valid : deposit.Valid) :
    (encode deposit).length ≤ 252 := by
  have script := valid.script_le
  have length : (encode deposit).length = 124 + deposit.elementsScript.length := by
    simp [encode, FixedBytes.length_eq]
    omega
  omega

theorem encode_depositClaim_length (claim : EthereumDepositClaim) :
    (encode claim).length = 357 + (claim.deposits.map encode).flatten.length := by
  change [encodeHeader tagEthereumDepositClaim, encode claim.manifestId,
    encode claim.priorState, encode claim.finality, encodeCount claim.deposits.length,
    (claim.deposits.map encode).flatten].flatten.length = _
  simp [encodeCount]
  omega

/-- A claim of at most 64 valid deposits. -/
theorem encode_depositClaim_length_le {claim : EthereumDepositClaim}
    (count : claim.deposits.length ≤ 64) (valid : ∀ deposit ∈ claim.deposits, deposit.Valid) :
    (encode claim).length ≤ 16485 := by
  have deposits : (claim.deposits.map encode).flatten.length ≤ 252 * claim.deposits.length := by
    rw [List.length_flatten, List.map_map, Nat.mul_comm]
    refine le_of_le_of_eq (List.sum_le_card_nsmul _ 252 fun length present => ?_)
      (by rw [List.length_map, smul_eq_mul])
    obtain ⟨deposit, member, rfl⟩ := List.mem_map.mp present
    exact encode_deposit_length_le (valid deposit member)
  rw [encode_depositClaim_length]
  omega

theorem encode_heartbeatClaim_length (claim : EthereumHeartbeatClaim) :
    (encode claim).length = 356 := by
  change [encodeHeader tagEthereumHeartbeatClaim, encode claim.manifestId,
    encode claim.priorState, encode claim.finality].flatten.length = _
  simp

end Lengths

section Records

variable [Hashing]

/-- No record that decodes is longer than the guest's limit for it. -/
structure RecordsFit : Prop where
  manifest : ∀ bytes record, decodeExact ProtocolManifest bytes = .ok record →
    bytes.length ≤ maxManifestBytes
  depositClaim : ∀ bytes record, decodeExact EthereumDepositClaim bytes = .ok record →
    bytes.length ≤ maxClaimBytes
  heartbeatClaim : ∀ bytes record, decodeExact EthereumHeartbeatClaim bytes = .ok record →
    bytes.length ≤ maxClaimBytes
  vaultWitness : ∀ bytes record, decodeExact VaultStorageWitness bytes = .ok record →
    bytes.length ≤ maxVaultWitnessBytes

theorem records_fit : RecordsFit := by
  constructor
  · intro bytes record decoded
    obtain ⟨-, rfl⟩ := decodeExact_eq_ok.mp decoded
    rw [encode_manifest_length]
    decide
  · intro bytes record decoded
    obtain ⟨valid, rfl⟩ := decodeExact_eq_ok.mp decoded
    obtain ⟨-, -, -, batch, made⟩ := EthereumDepositClaim.validate_eq_ok.mp valid
    have built := MintBatch.fromDeposits_eq_ok.mp made
    exact (encode_depositClaim_length_le built.size_le built.each).trans (by decide)
  · intro bytes record decoded
    obtain ⟨-, rfl⟩ := decodeExact_eq_ok.mp decoded
    rw [encode_heartbeatClaim_length]
    decide
  · intro bytes record decoded
    obtain ⟨valid, rfl⟩ := decodeExact_eq_ok.mp decoded
    exact (encode_vaultWitness_length_le (VaultStorageWitness.validate_eq_ok.mp valid)).trans
      (by decide)

end Records

section Sizes

variable [Hashing] {Proof : Type}
  {decodeFinality : List UInt8 → Except SepoliaFinalityError Proof}
  {verifier : EthereumStateProofVerifier (EthereumInboundProof Proof)}
  {statementTag manifestBytes claimBytes finalityBytes vaultWitnessBytes : List UInt8}

/-- The guest's input has no record that is missing or too long. -/
structure Sized (manifestBytes claimBytes finalityBytes vaultWitnessBytes : List UInt8) :
    Prop where
  manifest : manifestBytes ≠ [] ∧ manifestBytes.length ≤ maxManifestBytes
  claim : claimBytes ≠ [] ∧ claimBytes.length ≤ maxClaimBytes
  finality : finalityBytes ≠ [] ∧ finalityBytes.length ≤ maxFinalityWitnessBytes
  vaultWitness : vaultWitnessBytes.length ≤ maxVaultWitnessBytes

omit [Hashing] in
theorem orReject_failsWith {ε α : Type} {computation : Except ε α} {error : GuestInputError}
    (other : error ≠ .inputTooLarge) :
    FailsWith (fun fault => fault ≠ .error .inputTooLarge) (orReject computation error) := by
  apply FailsWith.mapError
  intro _ _ same
  exact other (Fault.error.inj same)

omit [Hashing] in
theorem encode_failsWith (journal : StrictJournal) :
    FailsWith (fun fault => fault ≠ .error GuestInputError.inputTooLarge) journal.encode := by
  unfold StrictJournal.encode
  refine .bind ?_ fun length _ => .ok _
  intro fault failed
  unfold encodeLength at failed
  split at failed
  · cases failed
  · cases failed
    simp

theorem statementJournal_failsWith {tag : UInt8} {manifest : ProtocolManifest}
    {finality : Proof} :
    FailsWith (fun fault => fault ≠ .error .inputTooLarge)
      (statementJournal verifier tag manifest claimBytes finality vaultWitnessBytes) := by
  unfold statementJournal
  split
  · refine .bind (orReject_failsWith (by decide)) fun claim _ => ?_
    refine .bind (orReject_failsWith (by decide)) fun storage _ => ?_
    exact orReject_failsWith (by decide)
  · refine .bind (orReject_failsWith (by decide)) fun claim _ => ?_
    exact orReject_failsWith (by decide)

/-- After its check of the sizes the guest never refuses a record as too large. -/
theorem executeGuestInput_failsWith
    (sized : Sized manifestBytes claimBytes finalityBytes vaultWitnessBytes) :
    FailsWith (fun fault => fault ≠ .error .inputTooLarge)
      (executeGuestInput decodeFinality verifier statementTag manifestBytes claimBytes
        finalityBytes vaultWitnessBytes) := by
  have fits : ¬(manifestBytes = [] ∨ manifestBytes.length > maxManifestBytes ∨ claimBytes = [] ∨
      claimBytes.length > maxClaimBytes ∨ finalityBytes = [] ∨
      finalityBytes.length > maxFinalityWitnessBytes ∨
      vaultWitnessBytes.length > maxVaultWitnessBytes) := by
    simp only [not_or, gt_iff_lt, Nat.not_lt]
    exact ⟨sized.manifest.1, sized.manifest.2, sized.claim.1, sized.claim.2, sized.finality.1,
      sized.finality.2, sized.vaultWitness⟩
  unfold executeGuestInput
  refine .bind (.rejectIf (by simp)) fun _ _ => ?_
  refine .bind (.passed fits) fun _ _ => ?_
  refine .bind (.rejectIf (by simp)) fun _ _ => ?_
  refine .bind (.rejectIf (by simp)) fun _ _ => ?_
  refine .bind (.rejectIf (by simp)) fun _ _ => ?_
  refine .bind (orReject_failsWith (by decide)) fun manifest _ => ?_
  refine .bind (orReject_failsWith (by decide)) fun finality _ => ?_
  exact .bind statementJournal_failsWith fun journal _ => encode_failsWith journal

/-- Where every record decodes and the finality witness is within its limit, nothing is refused
as too large. -/
theorem decoded_not_tooLarge {manifest : ProtocolManifest}
    (manifestDecodes : decodeExact ProtocolManifest manifestBytes = .ok manifest)
    (claimDecodes : (∃ claim, decodeExact EthereumDepositClaim claimBytes = .ok claim) ∨
      ∃ claim, decodeExact EthereumHeartbeatClaim claimBytes = .ok claim)
    (finality : finalityBytes ≠ [] ∧ finalityBytes.length ≤ maxFinalityWitnessBytes)
    (witnessDecodes : vaultWitnessBytes = [] ∨
      ∃ witness, decodeExact VaultStorageWitness vaultWitnessBytes = .ok witness) :
    executeGuestInput decodeFinality verifier statementTag manifestBytes claimBytes finalityBytes
      vaultWitnessBytes ≠ .error (.error .inputTooLarge) := by
  have nonempty : ∀ {bytes : List UInt8}, 0 < bytes.length → bytes ≠ [] :=
    fun positive => List.length_pos_iff.mp positive
  have sized : Sized manifestBytes claimBytes finalityBytes vaultWitnessBytes := by
    refine ⟨⟨?_, records_fit.manifest _ _ manifestDecodes⟩, ⟨?_, ?_⟩, finality, ?_⟩
    · obtain ⟨-, rfl⟩ := decodeExact_eq_ok.mp manifestDecodes
      exact nonempty (by rw [encode_manifest_length]; decide)
    · obtain ⟨claim, decoded⟩ | ⟨claim, decoded⟩ := claimDecodes
      · obtain ⟨-, rfl⟩ := decodeExact_eq_ok.mp decoded
        exact nonempty (by rw [encode_depositClaim_length]; omega)
      · obtain ⟨-, rfl⟩ := decodeExact_eq_ok.mp decoded
        exact nonempty (by rw [encode_heartbeatClaim_length]; decide)
    · obtain ⟨claim, decoded⟩ | ⟨claim, decoded⟩ := claimDecodes
      · exact records_fit.depositClaim _ _ decoded
      · exact records_fit.heartbeatClaim _ _ decoded
    · obtain rfl | ⟨witness, decoded⟩ := witnessDecodes
      · exact Nat.zero_le _
      · exact records_fit.vaultWitness _ _ decoded
  intro refused
  exact executeGuestInput_failsWith sized _ refused rfl

end Sizes

end Usdd.Guests

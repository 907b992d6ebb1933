import Usdd.Foundation.Keccak
import Usdd.Guests.EthereumState
/-!
# The inbound deposit verifier

A deposit batch is accepted with a finality proof of the new execution state root, a trie proof
of the vault's account under that root, and a trie proof of each deposit's commitment under the
account's storage root. The trie verifier is a parameter, as the finality verifier is: it says
whether the nodes prove the value at a hashed key under a root.
-/
namespace Usdd.EthereumInbound

open Usdd.Foundation Usdd.Core Usdd.ProofCore
open Usdd.Guests (EthereumInboundProof)

/-- `lib::DEPOSIT_COMMITMENT_MAPPING_SLOT`. -/
def depositCommitmentMappingSlot : UInt64 := 12

/-- The bytes of a number without leading zeros. -/
def trimmedBytes (value : Nat) : List UInt8 := (beBytes 32 value).dropWhile (· = 0)

/-- `alloy_rlp::encode` of a number below 2^256. -/
def rlpNumber (value : Nat) : List UInt8 :=
  match trimmedBytes value with
  | [byte] => if byte < 0x80 then [byte] else [0x81, byte]
  | bytes => UInt8.ofNat (0x80 + bytes.length) :: bytes

/-- `alloy_rlp::encode` of 32 bytes. -/
def rlpHash (hash : Hash32) : List UInt8 := 0xa0 :: hash.bytes

/-- `alloy_rlp::encode` of the account of a witness: a list, whose payload is longer than 55 and
shorter than 256 bytes. -/
def rlpAccount (witness : VaultAccountWitness) : List UInt8 :=
  let payload := rlpNumber witness.nonce.toNat ++ rlpNumber (beNat witness.balanceBe.bytes) ++
    (rlpHash witness.storageRoot ++ rlpHash witness.codeHash)
  0xf8 :: UInt8.ofNat payload.length :: payload

/-- `alloy_trie::proof::verify_proof` of a value: the root, the key hash that makes the path, the
value and the nodes. -/
abbrev VerifyProof := Hash32 → Hash32 → List UInt8 → List (List UInt8) → Bool

/-- `lib::deposit_commitment_storage_key`. -/
def depositCommitmentStorageKey (nonce : UInt64) : Hash32 :=
  keccak256 (paddedWord nonce ++ paddedWord depositCommitmentMappingSlot)

/-- `lib::VerifiedDepositBatch`. -/
structure VerifiedDepositBatch where
  executionStateRoot : Hash32
  firstNonce : UInt64
  nextNonce : UInt64
  totalUsdtMicro : UInt64
  depositIds : List Hash32
  storageKeys : List Hash32
deriving DecidableEq

/-- `lib::verify_vault_account`. -/
def verifyVaultAccount (verifyProof : VerifyProof) (stateRoot : Hash32)
    (manifest : ProtocolManifest) (witness : VaultAccountWitness) :
    Except InboundVerificationError Unit := do
  rejectIf (witness.storageRoot = .zero ∨ witness.codeHash = .zero) .invalidVaultAccount
  rejectIf (witness.codeHash ≠ manifest.vaultCodeHash) .vaultCodeHashMismatch
  rejectIf (verifyProof stateRoot (keccak256 manifest.vault.bytes) (rlpAccount witness)
    witness.proofNodes = false) .accountProofRejected

/-- `lib::verify_storage_value`. -/
def verifyStorageValue (verifyProof : VerifyProof) (storageRoot storageKey value : Hash32)
    (proofNodes : List (List UInt8)) : Bool :=
  verifyProof storageRoot (keccak256 storageKey.bytes) (rlpNumber value.toNat) proofNodes

section Verifier

variable [Hashing] {Proof : Type}

/-- The loop of `lib::validate_deposit_batch`, from an offset on. -/
def checkDeposits (manifest : ProtocolManifest) (priorState : MintControllerState) :
    Nat → List VaultDeposit → Except InboundVerificationError Unit
  | _, [] => return ()
  | offset, deposit :: rest => do
    deposit.validate.mapError fun _ => InboundVerificationError.invalidDeposit
    let expectedNonce ← okOr (checkedAdd priorState.nextMintNonce (UInt64.ofNat offset))
      .nonConsecutiveDepositNonce
    rejectIf (deposit.ethereumChainId ≠ manifest.ethereumChainId ∨
        deposit.vault ≠ manifest.vault ∨ deposit.usdt ≠ manifest.usdt ∨
        deposit.nonce ≠ expectedNonce)
      (if deposit.nonce ≠ expectedNonce then .nonConsecutiveDepositNonce else .wrongDepositTarget)
    checkDeposits manifest priorState (offset + 1) rest

/-- `lib::validate_deposit_batch`. -/
def validateDepositBatch (manifest : ProtocolManifest) (priorState : MintControllerState)
    (deposits : List VaultDeposit) : Except InboundVerificationError Unit := do
  rejectIf (deposits = []) .emptyDepositBatch
  rejectIf (deposits.length > maxMintBatchSize) .tooManyDeposits
  checkDeposits manifest priorState 0 deposits
  let _ ← (MintBatch.fromDeposits deposits).mapError fun _ =>
    InboundVerificationError.invalidDeposit
  return ()

/-- The loop of `lib::verify_finalized_deposit_batch`, from an index and a total on: the total,
the identifiers and the keys. -/
def verifyDeposits (verifyProof : VerifyProof) (storageRoot : Hash32) :
    Nat → UInt64 → List (VaultDeposit × DepositStorageProof) →
      Except InboundVerificationError (UInt64 × List Hash32 × List Hash32)
  | _, totalUsdtMicro, [] => return (totalUsdtMicro, [], [])
  | index, totalUsdtMicro, (deposit, storageProof) :: rest => do
    rejectIf (deposit.depositId = .zero) .zeroDepositCommitment
    rejectIf (verifyStorageValue verifyProof storageRoot
      (depositCommitmentStorageKey deposit.nonce) deposit.depositId storageProof.proofNodes = false)
      (.storageProofRejected index)
    let totalUsdtMicro ← okOr (checkedAdd totalUsdtMicro deposit.usdtAmountMicro) .amountOverflow
    let (totalUsdtMicro, depositIds, storageKeys) ←
      verifyDeposits verifyProof storageRoot (index + 1) totalUsdtMicro rest
    return (totalUsdtMicro, deposit.depositId :: depositIds,
      depositCommitmentStorageKey deposit.nonce :: storageKeys)

/-- `lib::verify_finalized_deposit_batch`. -/
def verifyFinalizedDepositBatch (verifyProof : VerifyProof)
    (verifier : EthereumFinalityTransitionVerifier Proof) (manifest : ProtocolManifest)
    (priorState : MintControllerState) (finality : EthereumFinalityWitness)
    (deposits : List VaultDeposit) (finalityProof : Proof) (witness : VaultStorageWitness) :
    Except InboundVerificationError VerifiedDepositBatch := do
  validateTransitionShape manifest priorState finality
  validateDepositBatch manifest priorState deposits
  rejectIf (witness.deposits.length ≠ deposits.length) .storageProofCountMismatch
  witness.validateLimits
  (verifier.verifyFinalizedTransition manifest priorState finality finalityProof).mapError
    fun _ => InboundVerificationError.finalityRejected
  verifyVaultAccount verifyProof finality.finalizedExecutionStateRoot manifest witness.account
  let (totalUsdtMicro, depositIds, storageKeys) ←
    verifyDeposits verifyProof witness.account.storageRoot 0 0 (deposits.zip witness.deposits)
  let nextNonce ← okOr (checkedAdd priorState.nextMintNonce (UInt64.ofNat deposits.length))
    .nonConsecutiveDepositNonce
  return {
    executionStateRoot := finality.finalizedExecutionStateRoot
    firstNonce := priorState.nextMintNonce
    nextNonce
    totalUsdtMicro
    depositIds
    storageKeys }

/-- `lib::map_proof_error`. -/
def mapProofError : InboundVerificationError → VerificationError
  | .finalityRejected => .invalidProof "Ethereum finality transition rejected"
  | .accountProofRejected => .invalidProof "vault account proof rejected"
  | .storageProofRejected _ => .invalidProof "vault deposit storage proof rejected"
  | _ => .invalidProof "invalid Ethereum inbound proof witness"

/-- `lib::EthereumInboundVerifier`, as the state verifier of the guest. -/
def ethereumInboundVerifier (verifyProof : VerifyProof)
    (finality : EthereumFinalityTransitionVerifier Proof) :
    EthereumStateProofVerifier (EthereumInboundProof Proof) where
  verifyFinalizedDeposits manifest claim proof :=
    match proof with
    | .deposit finalityProof vaultStorage =>
      ((verifyFinalizedDepositBatch verifyProof finality manifest claim.priorState claim.finality
        claim.deposits finalityProof vaultStorage).map fun _ => ()).mapError mapProofError
    | .heartbeat _ => .error (.invalidProof "heartbeat proof supplied for deposit statement")
  verifyFinalizedHeartbeat manifest claim proof :=
    match proof with
    | .heartbeat finalityProof =>
      (verifyFinalizedHeartbeat finality manifest claim.priorState claim.finality
        finalityProof).mapError mapProofError
    | .deposit _ _ => .error (.invalidProof "deposit proof supplied for heartbeat statement")

end Verifier

section Encodings

theorem beNat_trimmedBytes {value : Nat} (fits : value < 256 ^ 32) :
    beNat (trimmedBytes value) = value := by
  have dropped : ∀ bytes : List UInt8, beNat (bytes.dropWhile (· = 0)) = beNat bytes := by
    intro bytes
    induction bytes with
    | nil => rfl
    | cons byte rest ih =>
      by_cases zero : byte = 0
      · rw [List.dropWhile_cons_of_pos (by simpa using zero), ih, zero, beNat_cons]
        simp
      · rw [List.dropWhile_cons_of_neg (by simpa using zero)]
  rw [trimmedBytes, dropped, beNat_beBytes_of_lt fits]

/-- The number that an encoding of a number is of. -/
def rlpValue : List UInt8 → Nat
  | [byte] => if byte = 0x80 then 0 else byte.toNat
  | bytes => beNat bytes.tail

/-- An encoding of a number determines it. -/
theorem rlpValue_rlpNumber {value : Nat} (fits : value < 256 ^ 32) :
    rlpValue (rlpNumber value) = value := by
  have exact := beNat_trimmedBytes fits
  unfold rlpNumber
  cases trimmed : trimmedBytes value with
  | nil =>
    rw [trimmed] at exact
    rw [← exact]
    rfl
  | cons byte rest =>
    rw [trimmed] at exact
    cases rest with
    | nil =>
      have single : beNat [byte] = byte.toNat := by simp [beNat]
      rw [single] at exact
      by_cases small : byte < 0x80
      · have other : byte ≠ 0x80 := fun same => absurd small (by rw [same]; decide)
        simp only [small, ↓reduceIte, rlpValue, other, exact]
      · simp only [small, ↓reduceIte, rlpValue, List.tail_cons, single, exact]
    | cons next rest =>
      simp only [rlpValue, List.tail_cons, exact]

theorem rlpNumber_inj {left right : Hash32}
    (same : rlpNumber left.toNat = rlpNumber right.toNat) : left = right := by
  have values := congrArg rlpValue same
  rw [rlpValue_rlpNumber (FixedBytes.toNat_lt left), rlpValue_rlpNumber (FixedBytes.toNat_lt right)]
    at values
  exact FixedBytes.toNat_inj.mp values

/-- An encoding of an account determines its storage root. -/
theorem rlpAccount_storageRoot {left right : VaultAccountWitness}
    (same : rlpAccount left = rlpAccount right) : left.storageRoot = right.storageRoot := by
  have payload := (List.cons.inj (List.cons.inj same).2).2
  obtain ⟨_, hashes⟩ := List.append_inj' payload (by simp [rlpHash, FixedBytes.length_eq])
  obtain ⟨roots, _⟩ := List.append_inj hashes (by simp [rlpHash, FixedBytes.length_eq])
  exact FixedBytes.ext (List.cons.inj roots).2

end Encodings

section Laws

variable [Hashing] {Proof : Type} {verifyProof : VerifyProof}
  {verifier : EthereumFinalityTransitionVerifier Proof} {manifest : ProtocolManifest}
  {priorState : MintControllerState} {finality : EthereumFinalityWitness}
  {deposits : List VaultDeposit} {finalityProof : Proof} {witness : VaultStorageWitness}

/-- What an accepted batch proved: finality of the new state, the vault's account under its root,
and each deposit's commitment under the account's storage root. -/
structure ProvenBatch (verifyProof : VerifyProof)
    (verifier : EthereumFinalityTransitionVerifier Proof) (manifest : ProtocolManifest)
    (priorState : MintControllerState) (finality : EthereumFinalityWitness)
    (deposits : List VaultDeposit) : Prop where
  finalized : ∃ proof, verifier.verifyFinalizedTransition manifest priorState finality proof =
    .ok ()
  stored : ∃ (account : VaultAccountWitness),
    verifyProof finality.finalizedExecutionStateRoot (keccak256 manifest.vault.bytes)
      (rlpAccount account) account.proofNodes = true ∧
    ∀ deposit ∈ deposits, deposit.depositId ≠ .zero ∧ ∃ nodes,
      verifyStorageValue verifyProof account.storageRoot
        (depositCommitmentStorageKey deposit.nonce) deposit.depositId nodes = true

theorem verifyDeposits_ok {storageRoot : Hash32} {index : Nat} {total : UInt64}
    {pairs : List (VaultDeposit × DepositStorageProof)}
    {result : UInt64 × List Hash32 × List Hash32}
    (verified : verifyDeposits verifyProof storageRoot index total pairs = .ok result) :
    ∀ pair ∈ pairs, pair.1.depositId ≠ .zero ∧
      verifyStorageValue verifyProof storageRoot (depositCommitmentStorageKey pair.1.nonce)
        pair.1.depositId pair.2.proofNodes = true := by
  induction pairs generalizing index total result with
  | nil => simp
  | cons pair rest ih =>
    obtain ⟨deposit, storage⟩ := pair
    simp only [verifyDeposits] at verified
    simp only [↓then_eq_ok, bind_eq_ok, rejectIf_eq_ok, Bool.not_eq_false] at verified
    obtain ⟨nonzero, proven, _, _, _, later, _⟩ := verified
    exact List.forall_mem_cons.mpr ⟨⟨nonzero, proven⟩, ih later⟩

theorem verifyFinalizedDepositBatch_ok {result : VerifiedDepositBatch}
    (verified : verifyFinalizedDepositBatch verifyProof verifier manifest priorState finality
      deposits finalityProof witness = .ok result) :
    ProvenBatch verifyProof verifier manifest priorState finality deposits := by
  simp only [verifyFinalizedDepositBatch, verifyVaultAccount] at verified
  simp only [↓then_eq_ok, bind_eq_ok, rejectIf_eq_ok, mapError_eq_ok, ne_eq, not_not,
    Bool.not_eq_false] at verified
  obtain ⟨_, _, lengths, _, finalized, ⟨_, _, account⟩, _, each, _⟩ := verified
  refine ⟨⟨finalityProof, finalized⟩, witness.account, account, ?_⟩
  intro deposit member
  obtain ⟨index, inside, rfl⟩ := List.getElem_of_mem member
  have pair : (deposits[index], witness.deposits[index]) ∈ deposits.zip witness.deposits := by
    rw [← List.getElem_zip (h := by simp; omega)]
    exact List.getElem_mem _
  obtain ⟨nonzero, proven⟩ := verifyDeposits_ok each _ pair
  exact ⟨nonzero, _, proven⟩

/-- The deposit claims that the composed verifier accepts. -/
theorem ethereumInboundVerifier_deposits {claim : EthereumDepositClaim}
    {proof : EthereumInboundProof Proof}
    (accepted : (ethereumInboundVerifier verifyProof verifier).verifyFinalizedDeposits manifest
      claim proof = .ok ()) :
    ProvenBatch verifyProof verifier manifest claim.priorState claim.finality claim.deposits := by
  cases proof with
  | heartbeat finalityProof => simp [ethereumInboundVerifier] at accepted
  | deposit finalityProof vaultStorage =>
    simp only [ethereumInboundVerifier, mapError_eq_ok] at accepted
    cases verified : verifyFinalizedDepositBatch verifyProof verifier manifest claim.priorState
        claim.finality claim.deposits finalityProof vaultStorage with
    | error error => simp [verified, Except.map] at accepted
    | ok result => exact verifyFinalizedDepositBatch_ok verified

end Laws

end Usdd.EthereumInbound

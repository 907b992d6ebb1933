import Usdd.EthereumInbound.DepositBatch
/-!
# What the inbound verifier accepts of a deposit batch

The loop that compares deposits with a manifest and the loop that builds a mint batch check the
same things of a batch for the manifest whose first nonce is the controller's next one. The loop
over storage proofs adds up what the batch adds up, so neither its total nor the closing nonce can
overflow.
-/
namespace Usdd.EthereumInbound

open Usdd.Foundation Usdd.Core Usdd.ProofCore

/-- A deposit into the vault of a manifest, of its token and on its chain. -/
def Targets (manifest : ProtocolManifest) (deposit : VaultDeposit) : Prop :=
  deposit.ethereumChainId = manifest.ethereumChainId ∧ deposit.vault = manifest.vault ∧
    deposit.usdt = manifest.usdt

variable [Hashing] {Proof : Type} {verifyProof : VerifyProof}
  {verifier : EthereumFinalityTransitionVerifier Proof} {manifest : ProtocolManifest}
  {priorState : MintControllerState} {finality : EthereumFinalityWitness}
  {deposits : List VaultDeposit} {finalityProof : Proof} {witness : VaultStorageWitness}

section Batches

omit [Hashing] in
/-- The checking loop succeeds exactly on valid deposits for the manifest with the next nonces. -/
theorem checkDeposits_eq_ok {offset : Nat} (small : offset + deposits.length < 2 ^ 64) :
    checkDeposits manifest priorState offset deposits = .ok () ↔
      (∀ deposit ∈ deposits, deposit.Valid ∧ Targets manifest deposit) ∧
        deposits.map (fun deposit => deposit.nonce.toNat) =
          List.range' (priorState.nextMintNonce.toNat + offset) deposits.length := by
  induction deposits generalizing offset with
  | nil => simp [checkDeposits, pure, Except.pure]
  | cons deposit deposits ih =>
    simp only [List.length_cons] at small
    simp only [checkDeposits]
    simp only [bind_eq_ok, okOr_eq_ok, ↓then_eq_ok, rejectIf_eq_ok, mapError_eq_ok,
      VaultDeposit.validate_eq_ok, ih (by omega : offset + 1 + deposits.length < 2 ^ 64)]
    simp only [not_or, not_not, ne_eq, List.forall_mem_cons, List.map_cons, List.length_cons,
      List.range'_succ, List.cons.injEq, Nat.add_assoc]
    constructor
    · rintro ⟨valid, expected, added, ⟨chain, vault, usdt, nonce⟩, rest, tail⟩
      exact ⟨⟨⟨valid, chain, vault, usdt⟩, rest⟩,
        (MintBatch.offset_nonce (by omega)).mp ⟨expected, added, nonce⟩, tail⟩
    · rintro ⟨⟨⟨valid, chain, vault, usdt⟩, rest⟩, head, tail⟩
      obtain ⟨expected, added, nonce⟩ := (MintBatch.offset_nonce (by omega)).mpr head
      exact ⟨valid, expected, added, ⟨chain, vault, usdt, nonce⟩, rest, tail⟩

/-- A batch is accepted exactly if it is for the manifest and the controller builds a mint batch
of it that starts at its next nonce. -/
theorem validateDepositBatch_eq_ok :
    validateDepositBatch manifest priorState deposits = .ok () ↔
      (∀ deposit ∈ deposits, Targets manifest deposit) ∧
        ∃ batch, MintBatch.fromDeposits deposits = .ok batch ∧
          batch.firstNonce = priorState.nextMintNonce := by
  simp only [validateDepositBatch]
  simp only [↓then_eq_ok, bind_eq_ok, rejectIf_eq_ok, mapError_eq_ok, pure_eq_ok, and_true]
  constructor
  · rintro ⟨nonempty, size, checked, batch, built⟩
    have small : deposits.length ≤ 64 := Nat.not_lt.mp size
    obtain ⟨each, consecutive⟩ := (checkDeposits_eq_ok (by omega)).mp checked
    refine ⟨fun deposit member => (each deposit member).2, batch, built, ?_⟩
    have facts := MintBatch.fromDeposits_eq_ok.mp built
    -- both loops walk the same nonces, and there is one
    have same := facts.consecutive.symm.trans consecutive
    cases deposits with
    | nil => exact absurd rfl nonempty
    | cons first rest =>
      rw [List.length_cons, List.range'_succ, List.range'_succ, List.cons.injEq] at same
      exact UInt64.toNat_inj.mp same.1
  · rintro ⟨targets, batch, built, nonce⟩
    have facts := MintBatch.fromDeposits_eq_ok.mp built
    have small := facts.size_le
    refine ⟨facts.nonempty, Nat.not_lt.mpr small, ?_, batch, built⟩
    refine (checkDeposits_eq_ok (by omega)).mpr
      ⟨fun deposit member => ⟨facts.each deposit member, targets deposit member⟩, ?_⟩
    rw [← nonce]
    exact facts.consecutive

end Batches

section Totals

/-- The micro-USDT amounts of deposits with their storage proofs. -/
def pairedSum (pairs : List (VaultDeposit × DepositStorageProof)) : Nat :=
  (pairs.map fun pair => pair.1.usdtAmountMicro.toNat).sum

/-- The loop over storage proofs returns the exact total, the identifiers and the keys. -/
theorem verifyDeposits_exact {storageRoot : Hash32} {index : Nat} {total : UInt64}
    {pairs : List (VaultDeposit × DepositStorageProof)}
    {result : UInt64 × List Hash32 × List Hash32}
    (verified : verifyDeposits verifyProof storageRoot index total pairs = .ok result) :
    result.1.toNat = total.toNat + pairedSum pairs ∧
      result.2.1 = pairs.map (fun pair => pair.1.depositId) ∧
      result.2.2 = pairs.map fun pair => depositCommitmentStorageKey pair.1.nonce := by
  induction pairs generalizing index total result with
  | nil =>
    obtain rfl := Except.ok.inj verified
    exact ⟨rfl, rfl, rfl⟩
  | cons pair rest ih =>
    obtain ⟨deposit, storage⟩ := pair
    simp only [verifyDeposits] at verified
    simp only [↓then_eq_ok, bind_eq_ok, okOr_eq_ok, Prod.exists, pure_eq_ok] at verified
    obtain ⟨_, _, sum, added, finalTotal, ids, keys, later, rfl⟩ := verified
    obtain ⟨exact, sameIds, sameKeys⟩ := ih later
    have step := checkedAdd_eq_some.mp added
    refine ⟨?_, ?_, ?_⟩
    · simp only [pairedSum, List.map_cons, List.sum_cons] at exact ⊢
      omega
    · rw [List.map_cons]
      exact congrArg _ sameIds
    · rw [List.map_cons]
      exact congrArg _ sameKeys

/-- Where the total fits, the loop fails only for a zero identifier or a rejected proof. -/
theorem verifyDeposits_error {storageRoot : Hash32} {index : Nat} {total : UInt64}
    {pairs : List (VaultDeposit × DepositStorageProof)} {error : InboundVerificationError}
    (failed : verifyDeposits verifyProof storageRoot index total pairs = .error error)
    (fits : total.toNat + pairedSum pairs < 2 ^ 64) :
    error = .zeroDepositCommitment ∨ ∃ position, error = .storageProofRejected position := by
  induction pairs generalizing index total with
  | nil => cases failed
  | cons pair rest ih =>
    obtain ⟨deposit, storage⟩ := pair
    simp only [pairedSum, List.map_cons, List.sum_cons] at fits ih
    simp only [verifyDeposits] at failed
    simp only [bind_eq_error, rejectIf_eq_error, okOr_eq_error] at failed
    rcases failed with ⟨_, same⟩ | ⟨_, _, ⟨_, same⟩ | ⟨_, _, ⟨overflow, _⟩ | ⟨sum, added, later⟩⟩⟩
    · exact Or.inl same.symm
    · exact Or.inr ⟨index, same.symm⟩
    · obtain ⟨sum, added, _⟩ := checkedAdd_of_lt
        (show total.toNat + deposit.usdtAmountMicro.toNat < 2 ^ 64 by omega)
      rw [added] at overflow
      cases overflow
    · rw [okOr_eq_ok] at added
      have step := checkedAdd_eq_some.mp added
      rcases later with failed | ⟨_, _, wrong⟩
      · exact ih failed (by omega)
      · cases wrong

end Totals

section Errors

variable {error : InboundVerificationError}

/-- The errors of the proofs, after the two validators. -/
def IsProofError (error : InboundVerificationError) : Prop :=
  error ∈ [.storageProofCountMismatch, .tooManyDeposits, .proofLimitsExceeded, .finalityRejected,
      .invalidVaultAccount, .vaultCodeHashMismatch, .accountProofRejected,
      .zeroDepositCommitment] ∨
    ∃ position, error = .storageProofRejected position

theorem validateTransitionShape_error
    (failed : validateTransitionShape manifest priorState finality = .error error) :
    error ∈ [InboundVerificationError.invalidManifest, .invalidControllerState,
      .invalidFinality] := by
  simp only [validateTransitionShape] at failed
  simp only [bind_eq_error, mapError_eq_error, rejectIf_eq_error] at failed
  rcases failed with ⟨_, _, rfl⟩ | ⟨_, _, failed⟩
  · simp
  rcases failed with ⟨_, _, rfl⟩ | ⟨_, _, failed⟩
  · simp
  rcases failed with ⟨_, _, rfl⟩ | ⟨_, _, _, rfl⟩
  · simp
  · simp

omit [Hashing] in
theorem checkDeposits_error {offset : Nat}
    (failed : checkDeposits manifest priorState offset deposits = .error error) :
    error ∈ [InboundVerificationError.invalidDeposit, .nonConsecutiveDepositNonce,
      .wrongDepositTarget] := by
  induction deposits generalizing offset with
  | nil => cases failed
  | cons deposit rest ih =>
    simp only [checkDeposits] at failed
    simp only [bind_eq_error, mapError_eq_error, rejectIf_eq_error, okOr_eq_error] at failed
    rcases failed with ⟨_, _, rfl⟩ | ⟨_, _, ⟨_, rfl⟩ | ⟨_, _, ⟨_, rfl⟩ | ⟨_, _, later⟩⟩⟩
    · simp
    · simp
    · split <;> simp
    · exact ih later

theorem validateDepositBatch_error
    (failed : validateDepositBatch manifest priorState deposits = .error error) :
    error ∈ [InboundVerificationError.emptyDepositBatch, .tooManyDeposits, .invalidDeposit,
      .nonConsecutiveDepositNonce, .wrongDepositTarget] := by
  simp only [validateDepositBatch] at failed
  simp only [bind_eq_error, mapError_eq_error, rejectIf_eq_error] at failed
  rcases failed with ⟨_, rfl⟩ | ⟨_, _, failed⟩
  · simp
  rcases failed with ⟨_, rfl⟩ | ⟨_, _, failed⟩
  · simp
  rcases failed with checked | ⟨_, _, failed⟩
  · have listed := checkDeposits_error checked
    simp only [List.mem_cons, List.not_mem_nil, or_false] at listed ⊢
    tauto
  rcases failed with ⟨_, _, rfl⟩ | ⟨_, _, wrong⟩
  · simp
  · cases wrong

omit [Hashing] in
theorem validateNodes_error {nodes : List (List UInt8)}
    (failed : validateNodes nodes = .error error) : error = .proofLimitsExceeded := by
  have loop : ∀ {nodes : List (List UInt8)} {total : Nat},
      sumNodes total nodes = .error error → error = .proofLimitsExceeded := by
    intro nodes
    induction nodes with
    | nil =>
      intro total failed
      cases failed
    | cons node rest ih =>
      intro total failed
      simp only [sumNodes] at failed
      simp only [bind_eq_error, rejectIf_eq_error, okOr_eq_error] at failed
      rcases failed with ⟨_, rfl⟩ | ⟨_, _, ⟨_, rfl⟩ | ⟨_, _, later⟩⟩
      · rfl
      · rfl
      · exact ih later
  simp only [validateNodes] at failed
  simp only [bind_eq_error, rejectIf_eq_error] at failed
  rcases failed with ⟨_, rfl⟩ | ⟨_, _, later⟩
  · rfl
  · exact loop later

omit [Hashing] in
theorem addDeposits_error {total : Nat} {proofs : List DepositStorageProof}
    (failed : VaultStorageWitness.addDeposits total proofs = .error error) :
    error = .proofLimitsExceeded := by
  induction proofs generalizing total with
  | nil => cases failed
  | cons storage rest ih =>
    simp only [VaultStorageWitness.addDeposits] at failed
    simp only [bind_eq_error, rejectIf_eq_error, okOr_eq_error] at failed
    rcases failed with nodes | ⟨_, _, ⟨_, rfl⟩ | ⟨_, _, ⟨_, rfl⟩ | ⟨_, _, later⟩⟩⟩
    · exact validateNodes_error nodes
    · rfl
    · rfl
    · exact ih later

omit [Hashing] in
theorem validateLimits_error (failed : witness.validateLimits = .error error) :
    error ∈ [InboundVerificationError.tooManyDeposits, .proofLimitsExceeded] := by
  simp only [VaultStorageWitness.validateLimits] at failed
  simp only [bind_eq_error, rejectIf_eq_error] at failed
  rcases failed with ⟨_, rfl⟩ | ⟨_, _, nodes | ⟨_, _, later⟩⟩
  · simp
  · simp [validateNodes_error nodes]
  · simp [addDeposits_error later]

omit [Hashing] in
theorem verifyVaultAccount_error {stateRoot : Hash32} {account : VaultAccountWitness}
    (failed : verifyVaultAccount verifyProof stateRoot manifest account = .error error) :
    error ∈ [InboundVerificationError.invalidVaultAccount, .vaultCodeHashMismatch,
      .accountProofRejected] := by
  simp only [verifyVaultAccount] at failed
  simp only [bind_eq_error, rejectIf_eq_error] at failed
  rcases failed with ⟨_, rfl⟩ | ⟨_, _, ⟨_, rfl⟩ | ⟨_, _, _, rfl⟩⟩ <;> simp

end Errors

section Verifier

/-- What the verifier returns for a batch: the interval of its nonces, its total, and for each
deposit in order its identifier and its storage key. -/
structure Summarises (priorState : MintControllerState) (deposits : List VaultDeposit)
    (result : VerifiedDepositBatch) : Prop where
  first : result.firstNonce = priorState.nextMintNonce
  next : result.nextNonce.toNat = priorState.nextMintNonce.toNat + deposits.length
  total : result.totalUsdtMicro.toNat =
    (deposits.map fun deposit => deposit.usdtAmountMicro.toNat).sum
  ids : result.depositIds = deposits.map VaultDeposit.depositId
  keys : result.storageKeys = deposits.map fun deposit => depositCommitmentStorageKey deposit.nonce

omit [Hashing] in
/-- Deposits that are paired with storage proofs are still the deposits. -/
theorem map_paired {α : Type} {proofs : List DepositStorageProof}
    (count : proofs.length = deposits.length) (view : VaultDeposit → α) :
    (deposits.zip proofs).map (fun pair => view pair.1) = deposits.map view := by
  have firsts : (deposits.zip proofs).map Prod.fst = deposits :=
    List.map_fst_zip (Nat.le_of_eq count.symm)
  calc (deposits.zip proofs).map (fun pair => view pair.1)
      = ((deposits.zip proofs).map Prod.fst).map view := by rw [List.map_map]; rfl
    _ = deposits.map view := by rw [firsts]

/-- The amounts paired with storage proofs are those of the built batch. -/
theorem pairedSum_eq {proofs : List DepositStorageProof} {batch : MintBatch}
    (count : proofs.length = deposits.length) (built : MintBatch.BuiltFrom deposits batch) :
    pairedSum (deposits.zip proofs) = batch.totalUsdtAmountMicro.toNat := by
  rw [pairedSum, map_paired count fun deposit => deposit.usdtAmountMicro.toNat, built.usdt,
    built.outputs, MintBatch.usdtSum, List.map_map]
  rfl

/-- An accepted batch passed both validators, and the result summarises it. -/
theorem verifyFinalizedDepositBatch_summarises {result : VerifiedDepositBatch}
    (verified : verifyFinalizedDepositBatch verifyProof verifier manifest priorState finality
      deposits finalityProof witness = .ok result) :
    validateTransitionShape manifest priorState finality = .ok () ∧
      validateDepositBatch manifest priorState deposits = .ok () ∧
      Summarises priorState deposits result := by
  simp only [verifyFinalizedDepositBatch] at verified
  simp only [↓then_eq_ok, bind_eq_ok, rejectIf_eq_ok, mapError_eq_ok, okOr_eq_ok, pure_eq_ok,
    Prod.exists, ne_eq, not_not] at verified
  obtain ⟨shape, checked, count, _, _, _, total, ids, keys, each, next, added, rfl⟩ := verified
  obtain ⟨exact, sameIds, sameKeys⟩ := verifyDeposits_exact each
  obtain ⟨_, batch, built, _⟩ := validateDepositBatch_eq_ok.mp checked
  have step := checkedAdd_eq_some.mp added
  rw [MintBatch.batchSize_toNat (MintBatch.fromDeposits_eq_ok.mp built).size_le] at step
  refine ⟨shape, checked, rfl, step, ?_, ?_, ?_⟩
  · rw [exact, pairedSum, map_paired count fun deposit => deposit.usdtAmountMicro.toNat]
    exact Nat.zero_add _
  · exact sameIds.trans (map_paired count VaultDeposit.depositId)
  · exact sameKeys.trans (map_paired count fun deposit => depositCommitmentStorageKey deposit.nonce)

/-- A batch that both validators pass is refused only for its proofs: neither its total nor its
closing nonce overflows. -/
theorem verifyFinalizedDepositBatch_error {error : InboundVerificationError}
    (failed : verifyFinalizedDepositBatch verifyProof verifier manifest priorState finality
      deposits finalityProof witness = .error error) :
    validateTransitionShape manifest priorState finality = .error error ∨
      validateDepositBatch manifest priorState deposits = .error error ∨
      IsProofError error := by
  simp only [verifyFinalizedDepositBatch] at failed
  simp only [bind_eq_error, rejectIf_eq_error, mapError_eq_error, okOr_eq_error] at failed
  rcases failed with shape | ⟨_, _, failed⟩
  · exact Or.inl shape
  rcases failed with wrong | ⟨_, checked, failed⟩
  · exact Or.inr (Or.inl wrong)
  obtain ⟨_, batch, built, nonce⟩ := validateDepositBatch_eq_ok.mp checked
  have facts := MintBatch.fromDeposits_eq_ok.mp built
  -- from here on the validators have passed, and every error is one of the proofs
  refine Or.inr (Or.inr ?_)
  rcases failed with ⟨_, rfl⟩ | ⟨_, count, failed⟩
  · exact Or.inl (by simp)
  rcases failed with limits | ⟨_, _, failed⟩
  · have listed := validateLimits_error limits
    simp only [List.mem_cons, List.not_mem_nil, or_false] at listed
    rcases listed with rfl | rfl <;> exact Or.inl (by simp)
  rcases failed with ⟨_, _, rfl⟩ | ⟨_, _, failed⟩
  · exact Or.inl (by simp)
  rcases failed with account | ⟨_, _, failed⟩
  · have listed := verifyVaultAccount_error account
    simp only [List.mem_cons, List.not_mem_nil, or_false] at listed
    rcases listed with rfl | rfl | rfl <;> exact Or.inl (by simp)
  rcases failed with each | ⟨_, _, failed⟩
  · rw [rejectIf_eq_ok, not_not] at count
    have fits : (0 : UInt64).toNat + pairedSum (deposits.zip witness.deposits) < 2 ^ 64 := by
      have small := facts.usdt_le
      rw [pairedSum_eq count facts]
      change 0 + _ < _
      omega
    rcases verifyDeposits_error each fits with rfl | rejected
    · exact Or.inl (by simp)
    · exact Or.inr rejected
  rcases failed with ⟨overflow, _⟩ | ⟨_, _, wrong⟩
  · have room : priorState.nextMintNonce.toNat + (UInt64.ofNat deposits.length).toNat <
        2 ^ 64 := by
      rw [MintBatch.batchSize_toNat facts.size_le, ← nonce, ← facts.next]
      exact batch.nextNonce.toNat_lt
    obtain ⟨next, added, _⟩ := checkedAdd_of_lt room
    rw [added] at overflow
    cases overflow
  · cases wrong

end Verifier

end Usdd.EthereumInbound

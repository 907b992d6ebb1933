import Usdd.Verif.DepositJournals
import Usdd.Verif.DepositLiveness
/-!
# No deposit gets stuck in a batch

However the deposits of a vault are cut into batches that the crate allows, each batch is built,
and the guest writes its journal from the state that minted the deposits before it, up to the
lifetime supply. The journal names a state that has minted them all, from which the next batch
goes on.
-/
namespace Usdd.Verif

open Usdd.Foundation Usdd.Foundation.Reentrant Usdd.Core Usdd.Contracts Usdd.ProofCore Usdd.Spec

variable [Hashing]

/-- The records of a block of deposits, a number of them from a position on. -/
def recordsOf (chain : UInt64) (vault : Vault) (deposits : List AcceptedDeposit)
    (first size : Nat) : List VaultDeposit :=
  ((deposits.drop first).take size).map (depositRecord chain vault)

/-- The batch of records that start at a nonce. -/
def blockBatch (first : Nat) (records : List VaultDeposit) : MintBatch where
  firstNonce := UInt64.ofNat first
  nextNonce := UInt64.ofNat (first + records.length)
  outputs := records.map MintOutput.ofDeposit
  totalUsdtAmountMicro := UInt64.ofNat (MintBatch.usdtSum (records.map MintOutput.ofDeposit))
  totalUsddAmountBase := UInt64.ofNat (MintBatch.usddSum (records.map MintOutput.ofDeposit))

/-- A block of deposits that the crate allows as one batch. -/
structure OneBatch (deposits : List AcceptedDeposit) (first size : Nat) : Prop where
  nonempty : 0 < size
  size_le : size ≤ 64
  inside : first + size ≤ deposits.length
  budget : depositedBefore deposits (first + size) ≤
    depositedBefore deposits first + 20000000000000

section Blocks

variable {chain : UInt64} {vault : Vault} {deposits : List AcceptedDeposit} {first size : Nat}

omit [Hashing] in
/-- The deposits up to the end of a block are those before it and its own. -/
theorem take_add_block : deposits.take (first + size) =
    deposits.take first ++ (deposits.drop first).take size := List.take_add

omit [Hashing] in
theorem recordsOf_length (block : OneBatch deposits first size) :
    (recordsOf chain vault deposits first size).length = size := by
  have inside := block.inside
  rw [recordsOf, List.length_map, List.length_take, List.length_drop]
  omega

/-- The amounts of a block are what was deposited in it. -/
theorem usdtSum_recordsOf : depositedBefore deposits first +
    MintBatch.usdtSum ((recordsOf chain vault deposits first size).map MintOutput.ofDeposit) =
      depositedBefore deposits (first + size) := by
  rw [depositedBefore, depositedBefore, take_add_block, List.map_append, List.sum_append,
    MintBatch.usdtSum, recordsOf, List.map_map, List.map_map]
  rfl

omit [Hashing] in
/-- The nonces of a block are consecutive. -/
theorem nonces_recordsOf (block : OneBatch deposits first size)
    (nonces : deposits.map (fun deposit => deposit.nonce.toNat) = List.range deposits.length) :
    (recordsOf chain vault deposits first size).map (fun record => record.nonce.toNat) =
      List.range' first size := by
  have inside := block.inside
  have named : ∀ position (small : position < deposits.length),
      deposits[position].nonce.toNat = position := by
    intro position small
    have read := congrArg (fun numbers => numbers[position]?) nonces
    simpa [small] using read
  apply List.ext_getElem
  · rw [List.length_map, recordsOf_length block, List.length_range']
  · intro offset left right
    rw [List.length_range'] at right
    have read := named (first + offset) (by omega)
    simp only [recordsOf, List.map_map, List.getElem_map, List.getElem_take, List.getElem_drop,
      List.getElem_range', Nat.one_mul]
    exact read

omit [Hashing] in
/-- A block starts at its first nonce. -/
theorem head_recordsOf (block : OneBatch deposits first size)
    (nonces : deposits.map (fun deposit => deposit.nonce.toNat) = List.range deposits.length)
    (fits : deposits.length < 2 ^ 64) :
    (recordsOf chain vault deposits first size).head?.map VaultDeposit.nonce =
      some (UInt64.ofNat first) := by
  have listed := @nonces_recordsOf chain vault _ _ _ block nonces
  have inside := block.inside
  have nonempty := block.nonempty
  have start : (UInt64.ofNat first).toNat = first := by
    apply UInt64.toNat_ofNat_of_lt'
    change first < 2 ^ 64
    omega
  obtain ⟨count, rfl⟩ : ∃ count, size = count + 1 := ⟨size - 1, by omega⟩
  cases shape : recordsOf chain vault deposits first (count + 1) with
  | nil =>
    rw [shape] at listed
    cases listed
  | cons head rest =>
    rw [shape, List.map_cons, List.range'_succ] at listed
    have same := (List.cons.inj listed).1
    rw [List.head?_cons, Option.map_some, Option.some.injEq, ← UInt64.toNat_inj, start]
    exact same

/-- The batch of a block is the one that is built from its records. -/
theorem blockBatch_built (block : OneBatch deposits first size)
    (nonces : deposits.map (fun deposit => deposit.nonce.toNat) = List.range deposits.length)
    (fits : deposits.length < 2 ^ 64)
    (valid : ∀ record ∈ recordsOf chain vault deposits first size, record.Valid)
    (ids : ∀ record ∈ recordsOf chain vault deposits first size, record.depositId ≠ .zero) :
    MintBatch.BuiltFrom (recordsOf chain vault deposits first size)
      (blockBatch first (recordsOf chain vault deposits first size)) := by
  have length := @recordsOf_length chain vault _ _ _ block
  have inside := block.inside
  have nonempty := block.nonempty
  have small := block.size_le
  have budget := block.budget
  have total := @usdtSum_recordsOf _ chain vault deposits first size
  have outputs : ∀ output ∈ (recordsOf chain vault deposits first size).map MintOutput.ofDeposit,
      output.Valid := by
    intro output member
    obtain ⟨record, listed, rfl⟩ := List.mem_map.mp member
    have holds := valid record listed
    exact ⟨ids record listed, holds.amount_pos, holds.amount_le,
      VaultDeposit.usddAmountBase_toNat holds, holds.script_ne, holds.script_le⟩
  have converted := MintBatch.usddSum_of_valid outputs
  have word : ∀ number : Nat, number < 2 ^ 64 → (UInt64.ofNat number).toNat = number :=
    fun number bound => UInt64.toNat_ofNat_of_lt' bound
  have start := word first (by omega)
  have next := word (first + size) (by omega)
  have usdt := word (MintBatch.usdtSum ((recordsOf chain vault deposits first size).map
    MintOutput.ofDeposit)) (by omega)
  have usdd := word (MintBatch.usddSum ((recordsOf chain vault deposits first size).map
    MintOutput.ofDeposit)) (by omega)
  constructor
  · intro none
    rw [none, List.length_nil] at length
    omega
  · omega
  · exact valid
  · change _ = List.range' (UInt64.ofNat first).toNat _
    rw [start, length]
    exact nonces_recordsOf block nonces
  · rfl
  · change (UInt64.ofNat (first + (recordsOf chain vault deposits first size).length)).toNat = _
    rw [length, next]
    change _ = (UInt64.ofNat first).toNat + size
    rw [start]
  · exact usdt
  · exact usdd
  · change (UInt64.ofNat _).toNat ≤ _
    rw [usdt]
    omega
  · change (UInt64.ofNat _).toNat ≤ _
    rw [usdd]
    omega
  · exact head_recordsOf block nonces fits
  · intro left memberLeft right memberRight
    obtain ⟨_, _, rfl⟩ := List.mem_map.mp memberLeft
    obtain ⟨_, _, rfl⟩ := List.mem_map.mp memberRight
    exact ⟨rfl, rfl, rfl⟩

end Blocks

section Journals

variable {World : Type} {view : VaultView World} {world first last : World}
  {vault : Vault} {env : Environment World TokenRequest CallResult} {chain : UInt64}
  {log : List VaultEntry} {storage : VaultStorage} {manifest : ProtocolManifest}

/-- A deployment whose manifest names a vault on a chain. -/
structure NamesVault (manifest : ProtocolManifest) (chain : UInt64) (vault : Vault) : Prop where
  valid : manifest.Valid
  chain : manifest.ethereumChainId = chain
  self : manifest.vault = vault.self
  usdt : manifest.usdt = vault.usdt

/-- The manifest of a deployment names the guest's program. -/
theorem NamesVault.program_ne (names : NamesVault manifest chain vault) :
    manifest.ethereumGuestProgramId ≠ .zero :=
  names.valid.hashes ("ethereum_guest_program_id", manifest.ethereumGuestProgramId)
    (by simp [ProtocolManifest.requiredHashes])

/-- The claim of a state about records. -/
def recordsClaim (manifest : ProtocolManifest) (state : MintControllerState)
    (finality : EthereumFinalityWitness) (records : List VaultDeposit) : EthereumDepositClaim where
  manifestId := domainHash .manifest (encode manifest)
  priorState := state
  finality := finality
  deposits := records

/-- A state of the deployment's controller that has minted the first deposits, and a finality
witness that its next journal can name. -/
structure MintsNext (manifest : ProtocolManifest) (chain : UInt64) (vault : Vault)
    (deposits : List AcceptedDeposit) (count : Nat) (state : MintControllerState)
    (finality : EthereumFinalityWitness) : Prop where
  minted : HasMinted ((deposits.take count).map (depositRecord chain vault)) state
  configuration : state.configurationHash = manifest.controllerConfigurationHash
  sequence : state.sequence.toNat < 2 ^ 64 - 1
  finalityValid : finality.validate = .ok ()
  advance : state.validateFinalityAdvance finality = .ok ()
  timestamp : finality.executionBlockTimestamp ≠ 0

/-- The batch of a block is built, and the guest writes its journal exactly where the lifetime
supply fits; the journal carries the batch and a state that has minted the block. -/
structure Journaled (manifest : ProtocolManifest) (chain : UInt64) (vault : Vault)
    (deposits : List AcceptedDeposit) (start size : Nat) (state : MintControllerState)
    (finality : EthereumFinalityWitness) (batch : MintBatch) : Prop where
  built : MintBatch.fromDeposits (recordsOf chain vault deposits start size) = .ok batch
  validates : batch.validate = .ok ()
  fits : ∀ (Proof : Type) (verifier : EthereumStateProofVerifier Proof) (proof : Proof),
    verifier.verifyFinalizedDeposits manifest (recordsClaim manifest state finality
      (recordsOf chain vault deposits start size)) proof = .ok () →
    (Succeeds (buildDepositJournal verifier manifest (recordsClaim manifest state finality
      (recordsOf chain vault deposits start size)) proof) ↔
        100 * depositedBefore deposits (start + size) < 2 ^ 64)
  goesOn : ∀ (Proof : Type) (verifier : EthereumStateProofVerifier Proof) (proof : Proof) journal,
    buildDepositJournal verifier manifest (recordsClaim manifest state finality
      (recordsOf chain vault deposits start size)) proof = .ok journal →
    ∃ output, journal.typedPayload = .ok (.deposit output) ∧ output.mintBatch = batch ∧
      output.priorState = state ∧ output.nextState.configurationHash = state.configurationHash ∧
      HasMinted ((deposits.take (start + size)).map (depositRecord chain vault)) output.nextState

/-- The guest's step for a block, wherever its controller can mint the batch. -/
theorem depositStep_of_mint {state next : MintControllerState} {finality : EthereumFinalityWitness}
    {records : List VaultDeposit} {batch : MintBatch} (names : NamesVault manifest chain vault)
    (targets : ∀ record ∈ records, record.ethereumChainId = chain ∧ record.vault = vault.self ∧
      record.usdt = vault.usdt)
    (configuration : state.configurationHash = manifest.controllerConfigurationHash)
    (built : MintBatch.fromDeposits records = .ok batch)
    (minted : state.applyMintBatch batch finality = .ok next) :
    DepositStep manifest (recordsClaim manifest state finality records)
      ⟨domainHash .manifest (encode manifest),
        (recordsClaim manifest state finality records).claimId, state, next,
        finality.executionBlockTimestamp, batch⟩ where
  manifest_valid := names.valid
  manifestId := rfl
  configuration := configuration
  targets := by
    intro record listed
    rw [names.chain, names.self, names.usdt]
    exact targets record listed
  batch := built
  step := MintControllerState.applyMintBatch_eq_ok.mp minted
  output_eq := rfl

/-- Under a verifier that accepts the claim, the guest writes a journal exactly where the
controller mints the batch of the records. -/
theorem journal_written_iff {Proof : Type} {verifier : EthereumStateProofVerifier Proof}
    {proof : Proof} {state : MintControllerState} {finality : EthereumFinalityWitness}
    {records : List VaultDeposit} {batch : MintBatch} (names : NamesVault manifest chain vault)
    (targets : ∀ record ∈ records, record.ethereumChainId = chain ∧ record.vault = vault.self ∧
      record.usdt = vault.usdt)
    (configuration : state.configurationHash = manifest.controllerConfigurationHash)
    (timestamp : finality.executionBlockTimestamp ≠ 0)
    (manifest_ne : domainHash .manifest (encode manifest) ≠ .zero)
    (claim_ne : (recordsClaim manifest state finality records).claimId ≠ .zero)
    (built : MintBatch.fromDeposits records = .ok batch)
    (verified : verifier.verifyFinalizedDeposits manifest
      (recordsClaim manifest state finality records) proof = .ok ()) :
    Succeeds (buildDepositJournal verifier manifest (recordsClaim manifest state finality records)
      proof) ↔ ∃ next, state.applyMintBatch batch finality = .ok next := by
  constructor
  · rintro ⟨journal, journaled⟩
    simp only [buildDepositJournal, bind_eq_ok, mapError_eq_ok] at journaled
    obtain ⟨output, accepted, _⟩ := journaled
    obtain ⟨step, _⟩ := depositOutput_eq_ok.mp accepted
    have same := Except.ok.inj (built.symm.trans step.batch)
    rw [same]
    exact ⟨output.nextState, MintControllerState.applyMintBatch_eq_ok.mpr step.step⟩
  · rintro ⟨next, minted⟩
    have step := depositStep_of_mint names targets configuration built minted
    have accepted := depositOutput_eq_ok.mpr ⟨step, verified⟩
    have valid := depositStep_validates step timestamp manifest_ne claim_ne
    obtain ⟨journal, written, _⟩ := depositJournal_verifies names.program_ne valid
    refine ⟨journal, ?_⟩
    simp only [buildDepositJournal, bind_eq_ok, mapError_eq_ok]
    exact ⟨_, accepted, written⟩

/-- A journal of the guest carries the batch of the records and the state that minted it. -/
theorem journal_carries {Proof : Type} {verifier : EthereumStateProofVerifier Proof}
    {proof : Proof} {state : MintControllerState} {finality : EthereumFinalityWitness}
    {records : List VaultDeposit} {batch : MintBatch} {journal : StrictJournal}
    (names : NamesVault manifest chain vault) (timestamp : finality.executionBlockTimestamp ≠ 0)
    (manifest_ne : domainHash .manifest (encode manifest) ≠ .zero)
    (claim_ne : (recordsClaim manifest state finality records).claimId ≠ .zero)
    (built : MintBatch.fromDeposits records = .ok batch)
    (journaled : buildDepositJournal verifier manifest
      (recordsClaim manifest state finality records) proof = .ok journal) :
    ∃ output, journal.typedPayload = .ok (.deposit output) ∧ output.mintBatch = batch ∧
      output.priorState = state ∧ output.nextState.configurationHash = state.configurationHash ∧
      state.applyMintBatch batch finality = .ok output.nextState := by
  simp only [buildDepositJournal, bind_eq_ok, mapError_eq_ok] at journaled
  obtain ⟨output, accepted, written⟩ := journaled
  obtain ⟨step, _⟩ := depositOutput_eq_ok.mp accepted
  have same := Except.ok.inj (built.symm.trans step.batch)
  have valid := depositStep_validates step timestamp manifest_ne claim_ne
  obtain ⟨other, again, _, _, _, typed⟩ := depositJournal_verifies names.program_ne valid
  obtain rfl := Except.ok.inj (written.symm.trans again)
  have minted := MintControllerState.applyMintBatch_eq_ok.mpr step.step
  refine ⟨output, typed, same.symm, congrArg DepositPublicOutput.priorState step.output_eq,
    step.step.configuration, ?_⟩
  rw [same]
  exact minted

/-- A controller that mints a batch of records after others has minted them all. -/
theorem HasMinted.mint {before records : List VaultDeposit} {state next : MintControllerState}
    {batch : MintBatch} {finality : EthereumFinalityWitness} (minting : HasMinted before state)
    (outputs : batch.outputs = records.map MintOutput.ofDeposit)
    (minted : state.applyMintBatch batch finality = .ok next) :
    HasMinted (before ++ records) next := by
  obtain ⟨initial, log, valid, nonce, total, run, same⟩ := minting
  have accepted : ControllerAttempt.apply state (.mint batch finality) = .ok next := minted
  refine ⟨initial, log ++ [(.mint batch finality, next)], valid, nonce, total,
    .accept run accepted, ?_⟩
  rw [minted_concat, same, List.map_append, ← outputs]
  rfl

/-- The records of a block of accepted deposits pass the crate's checks. -/
theorem recordsOf_valid (deployed : Deployed view world chain vault) (chain_ne : chain ≠ 0)
    {history : VaultHistory} (sound : history.Sound vault)
    (senders : ∀ deposit ∈ history.deposits, deposit.depositor ≠ .zero) (start size : Nat) :
    ∀ record ∈ recordsOf chain vault history.deposits start size,
      record.Valid ∧ record.depositId ≠ .zero := by
  intro record member
  obtain ⟨deposit, listed, rfl⟩ := List.mem_map.mp member
  have present := List.mem_of_mem_drop (List.mem_of_mem_take listed)
  have accepted := sound.deposits deposit present
  constructor
  · exact depositRecord_valid chain_ne deployed.self_ne deployed.usdt_ne
      (senders deposit present) accepted
  · rw [depositRecord_id deployed.chainId accepted]
    exact accepted.depositId_ne

/-- A controller that is ready for a block mints its batch exactly where the lifetime supply
fits. -/
theorem block_mintable {deposits : List AcceptedDeposit} {start size : Nat}
    {state : MintControllerState} {finality : EthereumFinalityWitness}
    (block : OneBatch deposits start size) (fits : deposits.length < 2 ^ 64)
    (ready : MintsNext manifest chain vault deposits start state finality)
    (valid : (blockBatch start (recordsOf chain vault deposits start size)).Valid) :
    (∃ next, state.applyMintBatch (blockBatch start (recordsOf chain vault deposits start size))
      finality = .ok next) ↔ 100 * depositedBefore deposits (start + size) < 2 ^ 64 := by
  have inside := block.inside
  obtain ⟨stateValid, counted, summed⟩ := ready.minted.accounts
  rw [List.length_map, List.length_take_of_le (by omega)] at counted
  have begins : (UInt64.ofNat start).toNat = start := by
    apply UInt64.toNat_ofNat_of_lt'
    change start < 2 ^ 64
    omega
  have nonce : (blockBatch start (recordsOf chain vault deposits start size)).firstNonce =
      state.nextMintNonce := by
    rw [← UInt64.toNat_inj, counted]
    exact begins
  have before : state.totalMintedUsddBase.toNat = 100 * depositedBefore deposits start := by
    rw [summed, depositedBefore, List.map_map]
    rfl
  have supply : state.totalMintedUsddBase.toNat +
      (blockBatch start (recordsOf chain vault deposits start size)).totalUsddAmountBase.toNat =
        100 * depositedBefore deposits (start + size) := by
    rw [valid.converted, valid.usdt, before, ← Nat.mul_add]
    exact congrArg (100 * ·) usdtSum_recordsOf
  have mintable := applyMintBatch_succeeds_iff stateValid valid
    (EthereumFinalityWitness.validate_eq_ok.mp ready.finalityValid) nonce
    (MintControllerState.validateFinalityAdvance_eq_ok.mp ready.advance) ready.sequence
  rwa [supply] at mintable

/-- Every block of the accepted deposits that is one batch is journaled from every state of the
controller that has minted the deposits before it. -/
theorem batches_journaled (deployed : Deployed view world chain vault) (chain_ne : chain ≠ 0)
    (run : Run env (vaultContract view vault) first .fresh log last storage)
    (senders : ∀ deposit ∈ (VaultHistory.ofLog log).deposits, deposit.depositor ≠ .zero)
    (names : NamesVault manifest chain vault) {start size : Nat}
    (block : OneBatch (VaultHistory.ofLog log).deposits start size)
    {state : MintControllerState} {finality : EthereumFinalityWitness}
    (ready : MintsNext manifest chain vault (VaultHistory.ofLog log).deposits start state
      finality) (manifest_ne : domainHash .manifest (encode manifest) ≠ .zero)
    (claim_ne : (recordsClaim manifest state finality (recordsOf chain vault
      (VaultHistory.ofLog log).deposits start size)).claimId ≠ .zero) :
    ∃ batch, Journaled manifest chain vault (VaultHistory.ofLog log).deposits start size state
      finality batch := by
  have invariant : VaultInvariant vault log storage := VaultInvariant.fresh.run run
  obtain ⟨sound, recorded⟩ := invariant
  have fits : (VaultHistory.ofLog log).deposits.length < 2 ^ 64 := by
    rw [← recorded.nonce]
    exact storage.nextDepositNonce.toNat_lt
  have each := recordsOf_valid deployed chain_ne sound senders start size
  have ids := fun record member => (each record member).2
  have built := blockBatch_built block sound.nonces fits
    (fun record member => (each record member).1) ids
  have batchValid := built.valid ids
  have made := MintBatch.fromDeposits_eq_ok.mpr built
  have targets : ∀ record ∈ recordsOf chain vault (VaultHistory.ofLog log).deposits start size,
      record.ethereumChainId = chain ∧ record.vault = vault.self ∧ record.usdt = vault.usdt := by
    intro record member
    obtain ⟨deposit, _, rfl⟩ := List.mem_map.mp member
    exact ⟨rfl, rfl, rfl⟩
  have mintable := block_mintable block fits ready batchValid
  refine ⟨_, made, MintBatch.validate_eq_ok.mpr batchValid, ?_, ?_⟩
  -- A journal is written exactly where the controller mints.
  · intro Proof verifier proof verified
    rw [← mintable]
    exact journal_written_iff names targets ready.configuration ready.timestamp manifest_ne
      claim_ne made verified
  -- What is written names the batch and the state that has minted the block.
  · intro Proof verifier proof journal journaled
    obtain ⟨output, typed, batch, prior, configuration, minted⟩ :=
      journal_carries names ready.timestamp manifest_ne claim_ne made journaled
    refine ⟨output, typed, batch, prior, configuration, ?_⟩
    rw [take_add_block, List.map_append]
    exact ready.minted.mint rfl minted

end Journals

section Sample

/-- The controller of the sample deployment before its first mint. -/
def freshController : MintControllerState :=
  { settledState with nextMintNonce := 0, totalMintedUsddBase := 0 }

end Sample

omit [Hashing] in
/-- Two deposits are journaled as one batch from the fresh controller. -/
theorem batches_journaled_sample : letI := nonzeroSha256Hashing
    let played := playVaultOn 1 [sampleDeposit 5, sampleDeposit 6]
    ∃ batch, Journaled sampleManifest 1 (vaultOn 1) (VaultHistory.ofLog played.1).deposits 0 2
      freshController laterWitness batch := by
  let hashing := nonzeroSha256Hashing
  have senders : ∀ deposit ∈ (VaultHistory.ofLog
      (playVaultOn 1 [sampleDeposit 5, sampleDeposit 6]).1).deposits,
      deposit.depositor ≠ .zero := by
    decide +kernel
  have names : NamesVault sampleManifest 1 (vaultOn 1) :=
    ⟨ProtocolManifest.validate_eq_ok.mp (by decide +kernel), by decide, rfl, rfl⟩
  have block : OneBatch (VaultHistory.ofLog
      (playVaultOn 1 [sampleDeposit 5, sampleDeposit 6]).1).deposits 0 2 := by
    constructor
    · decide
    · decide
    · decide +kernel
    · decide +kernel
  have valid : freshController.Valid := MintControllerState.validate_eq_ok.mp (by decide +kernel)
  have ready : MintsNext sampleManifest 1 (vaultOn 1) (VaultHistory.ofLog
      (playVaultOn 1 [sampleDeposit 5, sampleDeposit 6]).1).deposits 0 freshController
      laterWitness := by
    constructor
    · exact ⟨freshController, [], valid, rfl, rfl, .start, rfl⟩
    · decide +kernel
    · decide
    · decide +kernel
    · decide +kernel
    · decide
  exact batches_journaled (vaultOn_deployed 1) (by decide)
    (run_playVaultOn 1 [sampleDeposit 5, sampleDeposit 6]) senders names block ready
    (nonzeroSha256_ne _) (nonzeroSha256_ne _)

end Usdd.Verif

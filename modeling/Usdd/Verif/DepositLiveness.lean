import Usdd.Verif.ControllerRuns
import Usdd.Verif.SharedPreimages
/-!
# Deposits are not stuck

Minting is strictly sequential and deposits are not refundable, so a deposit that the vault
accepted and the crate refused would block every later one. The limits of the vault are within
those of the crate: on a chain with an identifier, what the vault accepts is a valid deposit and
a valid batch, and the controller mints it as long as the lifetime supply fits.
-/
namespace Usdd.Verif

open Usdd.Foundation Usdd.Foundation.Attempts Usdd.Foundation.Reentrant Usdd.Core Usdd.Contracts
open Usdd.Spec

variable [Hashing]

/-- The record of a deposit that a vault accepted. -/
def depositRecord (chain : UInt64) (vault : Vault) (deposit : AcceptedDeposit) : VaultDeposit where
  ethereumChainId := chain
  vault := vault.self
  usdt := vault.usdt
  nonce := deposit.nonce
  depositor := deposit.depositor
  usdtAmountMicro := deposit.amountUSDT6
  elementsScript := deposit.elementsScript
  userSalt := deposit.userSalt

/-- A vault that was constructed on a chain whose identifier fits, at an address of its own. -/
structure Deployed {World : Type} (view : VaultView World) (world : World) (chain : UInt64)
    (vault : Vault) : Prop where
  constructed : construct view world (widen chain) vault.self vault.usdt vault.proofVerifier
    vault.verifierProgramId vault.verifierConfigHash vault.elementsGenesisHash vault.usddAssetId
    vault.minimumActivationChainwork = .ok vault
  self_ne : vault.self ≠ .zero

/-- A controller that has minted a list of deposits, in batches of any size and with any
heartbeats between them, and nothing else. -/
def HasMinted (records : List VaultDeposit) (state : MintControllerState) : Prop :=
  ∃ initial log, initial.Valid ∧ initial.nextMintNonce = 0 ∧ initial.totalMintedUsddBase = 0 ∧
    Reaches ControllerAttempt.apply initial log state ∧
    minted log = records.map MintOutput.ofDeposit

/-- The micro-USDT of the first deposits of a list. -/
def depositedBefore (deposits : List AcceptedDeposit) (count : Nat) : Nat :=
  ((deposits.take count).map fun deposit => deposit.amountUSDT6.toNat).sum

/-- A deposit of a history passes every check on its way to the controller, which mints it in
its turn exactly where the lifetime supply fits. -/
structure Mintable (chain : UInt64) (vault : Vault) (storage : VaultStorage)
    (deposits : List AcceptedDeposit) (deposit : AcceptedDeposit) : Prop where
  validates : (depositRecord chain vault deposit).validate = .ok ()
  committed : (depositRecord chain vault deposit).depositId =
    storage.depositCommitmentByNonce deposit.nonce
  minted : ∃ batch, MintBatch.fromDeposits [depositRecord chain vault deposit] = .ok batch ∧
    batch.validate = .ok () ∧
    ∀ state finality,
      HasMinted ((deposits.take deposit.nonce.toNat).map (depositRecord chain vault)) state →
      state.sequence.toNat < 2 ^ 64 - 1 → finality.validate = .ok () →
      state.validateFinalityAdvance finality = .ok () →
      (Succeeds (state.applyMintBatch batch finality) ↔
        100 * depositedBefore deposits (deposit.nonce.toNat + 1) < 2 ^ 64)

theorem Deployed.chainId {World : Type} {view : VaultView World} {world : World} {chain : UInt64}
    {vault : Vault} (deployed : Deployed view world chain vault) :
    vault.chainId = widen chain := by
  have made := deployed.constructed
  simp only [construct] at made
  simp only [↓then_eq_ok, bind_eq_ok, rejectIf_eq_ok, okOr_eq_ok, pure_eq_ok] at made
  obtain ⟨-, -, -, -, _, -, -, _, -, -, made⟩ := made
  exact (congrArg Vault.chainId made).symm

theorem Deployed.usdt_ne {World : Type} {view : VaultView World} {world : World} {chain : UInt64}
    {vault : Vault} (deployed : Deployed view world chain vault) : vault.usdt ≠ .zero := by
  have made := deployed.constructed
  simp only [construct] at made
  simp only [↓then_eq_ok, rejectIf_eq_ok, not_or] at made
  exact made.1.1

/-- The record's identifier is the vault's commitment. -/
theorem depositRecord_id {chain : UInt64} {vault : Vault} {deposit : AcceptedDeposit}
    (chainId : vault.chainId = widen chain) (valid : deposit.Valid vault) :
    (depositRecord chain vault deposit).depositId = deposit.depositId := by
  rw [valid.depositId_eq, VaultDeposit.depositId, VaultDeposit.depositPreimage,
    Vault.depositPreimage, chainId, encode_widen, depositIdDomain_eq]
  rfl

/-- What the vault checked of a deposit is what the crate asks of its record. -/
theorem depositRecord_valid {chain : UInt64} {vault : Vault} {deposit : AcceptedDeposit}
    (chain_ne : chain ≠ 0) (self_ne : vault.self ≠ .zero) (usdt_ne : vault.usdt ≠ .zero)
    (sender : deposit.depositor ≠ .zero) (valid : deposit.Valid vault) :
    (depositRecord chain vault deposit).Valid where
  chain := chain_ne
  vault := self_ne
  usdt := usdt_ne
  depositor := sender
  amount_pos := by
    have nonzero : deposit.amountUSDT6.toNat ≠ 0 := by
      rw [ne_eq, ← UInt64.toNat_zero, UInt64.toNat_inj]
      exact valid.amount_pos
    exact Nat.pos_of_ne_zero nonzero
  amount_le := valid.amount_le
  script_ne := by
    intro empty
    exact valid.script_pos (congrArg List.length empty)
  script_le := valid.script_le

/-- The batch of one record. -/
def singleBatch (record : VaultDeposit) : MintBatch where
  firstNonce := record.nonce
  nextNonce := record.nonce + 1
  outputs := [MintOutput.ofDeposit record]
  totalUsdtAmountMicro := record.usdtAmountMicro
  totalUsddAmountBase := record.usddAmountBase

/-- One valid record is a batch, unless its nonce is the last number. -/
theorem singleBatch_built {record : VaultDeposit} (valid : record.Valid)
    (room : record.nonce.toNat + 1 < 2 ^ 64) :
    MintBatch.BuiltFrom [record] (singleBatch record) := by
  have base := VaultDeposit.usddAmountBase_toNat valid
  have amount := valid.amount_le
  constructor
  · exact List.cons_ne_nil _ _
  · exact Nat.succ_le_succ (Nat.zero_le _)
  · intro deposit member
    rw [List.mem_singleton.mp member]
    exact valid
  · rfl
  · rfl
  · change (record.nonce + 1).toNat = record.nonce.toNat + 1
    rw [UInt64.toNat_add]
    exact Nat.mod_eq_of_lt room
  · simp [singleBatch, MintBatch.usdtSum, MintOutput.ofDeposit]
  · simp [singleBatch, MintBatch.usddSum, MintOutput.ofDeposit]
  · exact amount
  · change record.usddAmountBase.toNat ≤ 2000000000000000
    omega
  · rfl
  · intro left memberLeft right memberRight
    rw [List.mem_singleton.mp memberLeft, List.mem_singleton.mp memberRight]
    exact ⟨rfl, rfl, rfl⟩

section Controller

variable {state : MintControllerState} {batch : MintBatch} {finality : EthereumFinalityWitness}

omit [Hashing] in
/-- The controller mints the next valid batch exactly where the lifetime supply fits. -/
theorem applyMintBatch_succeeds_iff (valid : state.Valid) (batchValid : batch.Valid)
    (finalityValid : finality.Valid) (nonce : batch.firstNonce = state.nextMintNonce)
    (advance : state.FinalityAdvance finality) (room : state.sequence.toNat < 2 ^ 64 - 1) :
    Succeeds (state.applyMintBatch batch finality) ↔
      state.totalMintedUsddBase.toNat + batch.totalUsddAmountBase.toNat < 2 ^ 64 := by
  constructor
  · rintro ⟨next, applied⟩
    have total := (MintControllerState.applyMintBatch_eq_ok.mp applied).total
    have bound := next.totalMintedUsddBase.toNat_lt
    omega
  · intro fits
    obtain ⟨total, -, exact⟩ := checkedAdd_of_lt fits
    obtain ⟨sequence, -, following⟩ :=
      checkedAdd_of_lt (show state.sequence.toNat + (1 : UInt64).toNat < 2 ^ 64 from by
        change state.sequence.toNat + 1 < _
        omega)
    refine ⟨{ state with
      sequence
      nextMintNonce := batch.nextNonce
      ethereumLightClientDigest := finality.ethereumLightClientDigest
      finalizedBeaconSlot := finality.finalizedBeaconSlot
      finalizedBeaconRoot := finality.finalizedBeaconRoot
      finalizedExecutionStateRoot := finality.finalizedExecutionStateRoot
      totalMintedUsddBase := total },
      MintControllerState.applyMintBatch_eq_ok.mpr ?_⟩
    exact ⟨valid, batchValid, finalityValid, nonce, advance, rfl, following, rfl,
      ⟨rfl, rfl, rfl, rfl⟩, exact, rfl⟩

/-- What a controller that minted a list of deposits carries. -/
theorem HasMinted.accounts {records : List VaultDeposit} (minting : HasMinted records state) :
    state.Valid ∧ state.nextMintNonce.toNat = records.length ∧
      state.totalMintedUsddBase.toNat =
        100 * (records.map fun record => record.usdtAmountMicro.toNat).sum := by
  obtain ⟨initial, log, valid, nonce, total, run, outputs⟩ := minting
  have kept : state.Valid ∧ state.nextMintNonce.toNat = (minted log).length ∧
      state.totalMintedUsddBase.toNat = 100 * MintBatch.usdtSum (minted log) := by
    refine run.invariant (I := fun log state => state.Valid ∧
      state.nextMintNonce.toNat = (minted log).length ∧
      state.totalMintedUsddBase.toNat = 100 * MintBatch.usdtSum (minted log)) ?_ ?_
    · exact ⟨valid, by rw [nonce]; rfl, by rw [total]; rfl⟩
    · rintro log state attempt next ⟨-, counted, summed⟩ accepted
      have step := attempt.step accepted
      refine ⟨step.next_valid, ?_, ?_⟩
      · rw [step.nextNonce, counted, minted_concat, List.length_append]
      · rw [step.total, summed, minted_concat, usdtSum_append, Nat.mul_add]
  rw [outputs, List.length_map] at kept
  refine ⟨kept.1, kept.2.1, ?_⟩
  rw [kept.2.2, MintBatch.usdtSum, List.map_map]
  rfl

end Controller

section Histories

variable {deposits : List AcceptedDeposit} {deposit : AcceptedDeposit}

omit [Hashing] in
/-- A deposit of a history stands at its nonce. -/
theorem deposit_at_nonce
    (nonces : deposits.map (fun deposit => deposit.nonce.toNat) = List.range deposits.length)
    (member : deposit ∈ deposits) : deposits[deposit.nonce.toNat]? = some deposit := by
  obtain ⟨index, stands⟩ := List.mem_iff_getElem?.mp member
  have named := congrArg (fun numbers => numbers[index]?) nonces
  simp only [List.getElem?_map, stands, Option.map_some] at named
  obtain ⟨inside, -⟩ := List.getElem?_eq_some_iff.mp stands
  rw [List.getElem?_range inside, Option.some.injEq] at named
  rw [named]
  exact stands

omit [Hashing] in
theorem depositedBefore_succ {count : Nat} (stands : deposits[count]? = some deposit) :
    depositedBefore deposits (count + 1) =
      depositedBefore deposits count + deposit.amountUSDT6.toNat := by
  rw [depositedBefore, depositedBefore, List.take_add_one, stands]
  simp

end Histories

section Runs

variable {World : Type} {view : VaultView World} {world first last : World} {vault : Vault}
  {env : Environment World TokenRequest CallResult} {chain : UInt64} {log : List VaultEntry}
  {storage : VaultStorage}

/-- On a chain with an identifier, every deposit that a vault accepted is mintable. -/
theorem deposits_mintable (deployed : Deployed view world chain vault) (chain_ne : chain ≠ 0)
    (run : Run env (vaultContract view vault) first .fresh log last storage)
    (senders : ∀ deposit ∈ (VaultHistory.ofLog log).deposits, deposit.depositor ≠ .zero) :
    ∀ deposit ∈ (VaultHistory.ofLog log).deposits,
      Mintable chain vault storage (VaultHistory.ofLog log).deposits deposit := by
  intro deposit member
  have invariant : VaultInvariant vault log storage := VaultInvariant.fresh.run run
  obtain ⟨sound, recorded⟩ := invariant
  have accepted := sound.deposits deposit member
  have stands := deposit_at_nonce sound.nonces member
  obtain ⟨inside, -⟩ := List.getElem?_eq_some_iff.mp stands
  have valid := depositRecord_valid chain_ne deployed.self_ne deployed.usdt_ne
    (senders deposit member) accepted
  have identified := depositRecord_id deployed.chainId accepted
  have room : deposit.nonce.toNat + 1 < 2 ^ 64 := by
    have counted := recorded.nonce
    have bound := storage.nextDepositNonce.toNat_lt
    omega
  have built := singleBatch_built valid room
  have batchValid := built.valid fun record listed => by
    rw [List.mem_singleton.mp listed, identified]
    exact accepted.depositId_ne
  refine ⟨VaultDeposit.validate_eq_ok.mpr valid, ?_, singleBatch _,
    MintBatch.fromDeposits_eq_ok.mpr built, MintBatch.validate_eq_ok.mpr batchValid, ?_⟩
  · rw [identified, recorded.commitments, stands]
    rfl
  · intro state finality minting sequence finalityValid advance
    obtain ⟨stateValid, counted, summed⟩ := minting.accounts
    rw [List.length_map, List.length_take_of_le (Nat.le_of_lt inside)] at counted
    have nonce : (singleBatch (depositRecord chain vault deposit)).firstNonce =
        state.nextMintNonce := UInt64.toNat_inj.mp counted.symm
    have before : state.totalMintedUsddBase.toNat =
        100 * depositedBefore (VaultHistory.ofLog log).deposits deposit.nonce.toNat := by
      rw [summed, depositedBefore, List.map_map]
      rfl
    have base : (singleBatch (depositRecord chain vault deposit)).totalUsddAmountBase.toNat =
        100 * deposit.amountUSDT6.toNat := VaultDeposit.usddAmountBase_toNat valid
    rw [applyMintBatch_succeeds_iff stateValid batchValid
      (EthereumFinalityWitness.validate_eq_ok.mp finalityValid) nonce
      (MintControllerState.validateFinalityAdvance_eq_ok.mp advance) sequence,
      before, base, depositedBefore_succ stands, Nat.mul_add]

end Runs

section Sample

/-- A vault constructed on a chain, with the sample vault's other immutables. -/
def vaultOn (chain : UInt64) : Vault :=
  { sampleVault with
    chainId := widen chain
    vaultId := Hashing.sha256 (vaultIdPreimage (widen chain) sampleVault.self sampleVault.usdt
      sampleVault.proofVerifier sampleVault.verifierProgramId sampleVault.verifierConfigHash
      sampleVault.elementsGenesisHash sampleVault.usddAssetId
      sampleVault.minimumActivationChainwork) }

theorem vaultOn_deployed (chain : UInt64) :
    Deployed (sampleView fun _ => false) sampleHoldings chain (vaultOn chain) := by
  have self_ne : sampleVault.self ≠ .zero := by decide
  have addresses : ¬(sampleVault.usdt = .zero ∨ sampleVault.proofVerifier = .zero) := by decide
  have identifiers : ¬(sampleVault.verifierProgramId = .zero ∨
      sampleVault.verifierConfigHash = .zero ∨ sampleVault.elementsGenesisHash = .zero ∨
      sampleVault.usddAssetId = .zero ∨ sampleVault.minimumActivationChainwork = 0) := by decide
  refine ⟨?_, self_ne⟩
  simp only [construct]
  simp only [↓then_eq_ok, bind_eq_ok, rejectIf_eq_ok, okOr_eq_ok, pure_eq_ok]
  exact ⟨addresses, Nat.one_ne_zero, Nat.one_ne_zero, identifiers, _, rfl, not_not.mpr rfl, _, rfl,
    not_not.mpr rfl, rfl⟩

/-- Calls on such a vault, whose token is plain. -/
def playVaultOn (chain : UInt64) (calls : List VaultCall) :
    List VaultEntry × Holdings × VaultStorage :=
  play (plainToken sampleVault.self) (vaultContract (sampleView fun _ => false) (vaultOn chain))
    calls sampleHoldings VaultStorage.fresh

theorem run_playVaultOn (chain : UInt64) (calls : List VaultCall) :
    Run .arbitrary (vaultContract (sampleView fun _ => false) (vaultOn chain)) sampleHoldings
      VaultStorage.fresh (playVaultOn chain calls).1 (playVaultOn chain calls).2.1
      (playVaultOn chain calls).2.2 :=
  run_play (fun _ _ => trivial) (fun _ _ => trivial) calls sampleHoldings VaultStorage.fresh

end Sample

omit [Hashing] in
/-- Two deposits on chain 5, of which the second is minted after the first. -/
theorem deposits_mintable_sample :
    letI := nonzeroSha256Hashing
    let played := playVaultOn 5 [sampleDeposit 5, sampleDeposit 6]
    (VaultHistory.ofLog played.1).deposits.length = 2 ∧
      ∀ deposit ∈ (VaultHistory.ofLog played.1).deposits,
        Mintable 5 (vaultOn 5) played.2.2 (VaultHistory.ofLog played.1).deposits deposit := by
  let hashing := nonzeroSha256Hashing
  have senders : ∀ deposit ∈ (VaultHistory.ofLog
      (playVaultOn 5 [sampleDeposit 5, sampleDeposit 6]).1).deposits,
      deposit.depositor ≠ .zero := by
    decide +kernel
  exact ⟨by decide +kernel, deposits_mintable (vaultOn_deployed 5) (by decide)
    (run_playVaultOn 5 [sampleDeposit 5, sampleDeposit 6]) senders⟩

omit [Hashing] in
/-- On a chain whose identifier is zero the vault accepts a deposit whose record is invalid. -/
theorem deposit_stuck_without_chain : letI := nonzeroSha256Hashing
    ¬∀ (chain : UInt64) (vault : Vault) (log : List VaultEntry) (last : Holdings)
      (storage : VaultStorage), Deployed (sampleView fun _ => false) sampleHoldings chain vault →
      Run .arbitrary (vaultContract (sampleView fun _ => false) vault) sampleHoldings
        VaultStorage.fresh log last storage →
      (∀ deposit ∈ (VaultHistory.ofLog log).deposits, deposit.depositor ≠ .zero) →
      ∀ deposit ∈ (VaultHistory.ofLog log).deposits,
        (depositRecord chain vault deposit).validate = .ok () := by
  let hashing := nonzeroSha256Hashing
  intro claimed
  have accepted : (VaultHistory.ofLog (playVaultOn 0 [sampleDeposit 5]).1).deposits ≠ [] := by
    decide +kernel
  have senders : ∀ deposit ∈ (VaultHistory.ofLog (playVaultOn 0 [sampleDeposit 5]).1).deposits,
      deposit.depositor ≠ .zero := by decide +kernel
  obtain ⟨deposit, member⟩ := List.exists_mem_of_ne_nil _ accepted
  have validates := claimed 0 (vaultOn 0) _ _ _ (vaultOn_deployed 0)
    (run_playVaultOn 0 [sampleDeposit 5]) senders deposit member
  exact (VaultDeposit.validate_eq_ok.mp validates).chain rfl

end Usdd.Verif

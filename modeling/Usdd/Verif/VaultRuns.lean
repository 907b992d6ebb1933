import Usdd.Core.Manifest
import Usdd.Spec.VaultHistory
/-!
# Runs of the vault

Along every run of the vault, whatever the token and the verifier do, the storage records the
history its log tells and that history is sound. Each entry point keeps both; the run rule
carries them to every state after a call, and the accounts of the vault follow.
-/
namespace Usdd.Verif

open Usdd.Foundation Usdd.Foundation.Reentrant Usdd.Core Usdd.Contracts Usdd.Spec

section Runs

variable [Hashing] {World : Type} {view : VaultView World} {vault : Vault}
  {env : Environment World TokenRequest CallResult} {world world' : World}
  {storage storage' : VaultStorage} {log : List VaultEntry}

/-- What a vault's log and storage satisfy between calls. -/
structure VaultInvariant (vault : Vault) (log : List VaultEntry) (storage : VaultStorage) :
    Prop where
  sound : (VaultHistory.ofLog log).Sound vault
  recorded : (VaultHistory.ofLog log).Recorded storage

/-- A freshly deployed vault has the empty history. -/
theorem VaultInvariant.fresh : VaultInvariant vault [] .fresh where
  sound := {
    nonces := rfl
    deposits := by simp
    payouts := by simp
    distinct := List.nodup_nil
    covered := Nat.le_refl _
    cap := Nat.zero_le _
    chain := List.isChain_singleton _ }
  recorded := {
    unlocked := rfl
    nonce := rfl
    deposited := rfl
    redeemed := rfl
    liability := rfl
    commitments := by simp [VaultStorage.fresh]
    spent := by simp [VaultStorage.fresh, VaultHistory.paidIds]
    finalized := rfl
    stateHash := rfl
    sequence := rfl }

/-- A returned deposit is recorded. -/
theorem VaultInvariant.deposit {depositor : EthAddress} {amountUSDT6 nonce : UInt64}
    {elementsScript : List UInt8} {userSalt depositId : Hash32}
    (invariant : VaultInvariant vault log storage)
    (step : DepositStep view vault depositor amountUSDT6 elementsScript userSalt world storage
      nonce depositId world' storage') :
    VaultInvariant vault (log ++ [(.deposit depositor amountUSDT6 elementsScript userSalt,
      .ok (.deposited nonce depositId))]) storage' := by
  obtain ⟨sound, recorded⟩ := invariant
  have grown : (VaultHistory.ofLog (log ++ [(.deposit depositor amountUSDT6 elementsScript userSalt,
      .ok (.deposited nonce depositId))])).deposited =
      (VaultHistory.ofLog log).deposited + amountUSDT6.toNat := by
    simp [VaultHistory.deposited]
  have position : nonce.toNat = (VaultHistory.ofLog log).deposits.length := by
    rw [step.nonce_eq, recorded.nonce]
  have liability := recorded.liability
  have total := step.liability
  have capped := step.cap
  constructor
  · rw [VaultHistory.ofLog_deposit] at grown ⊢
    refine ⟨?_, ?_, sound.payouts, sound.distinct, ?_, ?_, sound.chain⟩
    · simp [sound.nonces, position, List.range_succ]
    · intro deposit present
      rcases List.mem_append.mp present with old | new
      · exact sound.deposits deposit old
      · rw [List.mem_singleton.mp new]
        exact ⟨step.amount_pos, step.amount_le, step.script_pos, step.script_le,
          step.depositId_eq, step.depositId_ne⟩
    · rw [grown]
      exact Nat.le_add_right_of_le sound.covered
    · rw [grown]
      change _ ≤ (VaultHistory.ofLog log).redeemed + _
      omega
  · rw [VaultHistory.ofLog_deposit] at grown ⊢
    refine ⟨step.released, ?_, ?_, ?_, ?_, ?_, ?_, ?_, ?_, ?_⟩
    · simp [step.nextNonce, recorded.nonce]
    · rw [grown, step.deposited, recorded.deposited]
    · rw [step.redeemed, recorded.redeemed]
      rfl
    · rw [grown]
      change _ + (VaultHistory.ofLog log).redeemed = _
      omega
    · intro queried
      rw [step.commitments]
      by_cases same : queried = nonce
      · subst same
        simp [position]
      · have apart : queried.toNat ≠ (VaultHistory.ofLog log).deposits.length := by
          rw [← position]
          exact fun equal => same (UInt64.toNat_inj.mp equal)
        rw [Function.update_of_ne same, recorded.commitments]
        simp only [List.getElem?_append, List.getElem?_singleton]
        split
        · rfl
        · rw [if_neg (by omega), List.getElem?_eq_none (by omega)]
    · rw [step.spent]
      exact recorded.spent
    · rw [step.finalized]
      exact recorded.finalized
    · rw [step.stateHash]
      exact recorded.stateHash
    · rw [step.finalized]
      exact recorded.sequence

/-- A returned state advance is recorded. -/
theorem VaultInvariant.advance {submitter : EthAddress} {next : ElementsBridgeState}
    {proof : List UInt8} (invariant : VaultInvariant vault log storage)
    (step : AdvanceStep view vault submitter next proof world storage storage') :
    VaultInvariant vault (log ++ [(.advanceElementsState submitter next proof, .ok .advanced)])
      storage' := by
  obtain ⟨sound, recorded⟩ := invariant
  have follows := step.follows
  constructor
  · rw [VaultHistory.ofLog_advance]
    refine ⟨sound.nonces, sound.deposits, sound.payouts, sound.distinct, sound.covered,
      sound.cap, ?_⟩
    rw [recorded.finalized] at follows
    rw [← List.cons_append]
    refine List.isChain_append.mpr ⟨sound.chain, List.isChain_singleton _, ?_⟩
    intro last present first entered
    rw [List.head?_cons, Option.mem_some_iff] at entered
    rw [List.getLast?_cons, Option.mem_some_iff] at present
    subst entered present
    exact follows
  · rw [VaultHistory.ofLog_advance]
    refine ⟨step.released, ?_, ?_, ?_, ?_, ?_, ?_, ?_, ?_, ?_⟩
    · rw [step.nonce]
      exact recorded.nonce
    · rw [step.deposited]
      exact recorded.deposited
    · rw [step.redeemed]
      exact recorded.redeemed
    · rw [step.liability]
      exact recorded.liability
    · rw [step.commitments]
      exact recorded.commitments
    · rw [step.spent]
      exact recorded.spent
    · simp [step.finalized, VaultHistory.current]
    · rw [step.stateHash, Vault.elementsStateStatement, recorded.stateHash]
      simp [VaultHistory.stateHash]
    · rw [step.finalized, follows.sequence, recorded.sequence]
      simp

/-- A returned redemption is recorded. -/
theorem VaultInvariant.redeem {submitter : EthAddress} {claim : BurnClaim} {burnIndex : UInt64}
    {merkleBranch : Vector Hash32 64} (invariant : VaultInvariant vault log storage)
    (step : RedeemStep view vault submitter claim burnIndex merkleBranch world storage world'
      storage') :
    VaultInvariant vault (log ++ [(.redeem submitter claim burnIndex merkleBranch,
      .ok .redeemed)]) storage' := by
  obtain ⟨sound, recorded⟩ := invariant
  have redeemable := step.redeemable
  have grown : (VaultHistory.ofLog (log ++ [(.redeem submitter claim burnIndex merkleBranch,
      .ok .redeemed)])).redeemed =
      (VaultHistory.ofLog log).redeemed + claim.amountUSDT6.toNat := by
    simp [VaultHistory.redeemed]
  have paid : (VaultHistory.ofLog (log ++ [(.redeem submitter claim burnIndex merkleBranch,
      .ok .redeemed)])).paidIds = (VaultHistory.ofLog log).paidIds ++ [claim.burnId] := by
    simp [VaultHistory.paidIds]
  have unpaid : claim.burnId ∉ (VaultHistory.ofLog log).paidIds := by
    rw [← recorded.spent, redeemable.unspent]
    decide
  have liability := recorded.liability
  have total := step.liability
  have capped := sound.cap
  constructor
  · rw [VaultHistory.ofLog_redeem] at grown paid ⊢
    refine ⟨sound.nonces, sound.deposits, ?_, ?_, ?_, ?_, sound.chain⟩
    · intro payout present
      rcases List.mem_append.mp present with old | new
      · exact sound.payouts payout old
      · rw [List.mem_singleton.mp new]
        exact ⟨redeemable.version, redeemable.genesis, redeemable.asset, redeemable.vaultId,
          redeemable.burnId, redeemable.burnId_ne, redeemable.amount_pos, redeemable.amount_le,
          redeemable.recipient_ne, redeemable.recipient_other⟩
    · rw [paid]
      exact List.nodup_append.mpr ⟨sound.distinct, List.nodup_singleton _,
        fun left old right new same => unpaid (by
          rw [← List.mem_singleton.mp new, ← same]
          exact old)⟩
    · rw [grown]
      change _ ≤ (VaultHistory.ofLog log).deposited
      omega
    · rw [grown]
      change (VaultHistory.ofLog log).deposited ≤ _
      omega
  · rw [VaultHistory.ofLog_redeem] at grown paid ⊢
    refine ⟨step.released, ?_, ?_, ?_, ?_, ?_, ?_, ?_, ?_, ?_⟩
    · rw [step.nonce]
      exact recorded.nonce
    · rw [step.deposited]
      exact recorded.deposited
    · rw [grown, step.redeemed, recorded.redeemed]
    · rw [grown]
      change _ = (VaultHistory.ofLog log).deposited
      omega
    · rw [step.commitments]
      exact recorded.commitments
    · intro burnId
      rw [step.spent, paid, List.mem_append, List.mem_singleton, ← recorded.spent]
      by_cases same : burnId = claim.burnId
      · simp [same]
      · simp [same]
    · rw [step.finalized]
      exact recorded.finalized
    · rw [step.stateHash]
      exact recorded.stateHash
    · rw [step.finalized]
      exact recorded.sequence

/-- Every returned call keeps the invariant. -/
theorem VaultInvariant.step {call : VaultCall} {value : VaultResult}
    (invariant : VaultInvariant vault log storage)
    (returned : Returns env (vaultContract view vault) (vaultContract view vault call) world
      storage value world' storage') :
    VaultInvariant vault (log ++ [(call, .ok value)]) storage' := by
  have law := returns_vaultContract returned
  cases call with
  | deposit depositor amountUSDT6 elementsScript userSalt =>
    obtain ⟨nonce, depositId, rfl, step⟩ := law
    exact invariant.deposit step
  | advanceElementsState submitter next proof =>
    obtain ⟨rfl, _, step⟩ := law
    exact invariant.advance step
  | redeem submitter claim burnIndex merkleBranch =>
    obtain ⟨rfl, step⟩ := law
    exact invariant.redeem step

/-- The run law: the invariant continues along a run. -/
theorem VaultInvariant.run {before after : List VaultEntry} {middle : World}
    {kept : VaultStorage} (invariant : VaultInvariant vault before kept)
    (late : Run env (vaultContract view vault) middle kept after world storage) :
    VaultInvariant vault (before ++ after) storage := by
  refine late.invariant (I := fun log storage => VaultInvariant vault (before ++ log) storage)
    ?_ ?_ (by simpa using invariant)
  · intro log call _ storage value _ storage' holds returned
    rw [← List.append_assoc]
    exact holds.step returned
  · intro log call storage error holds
    rw [← List.append_assoc]
    constructor
    · rw [VaultHistory.ofLog_failed]
      exact holds.sound
    · rw [VaultHistory.ofLog_failed]
      exact holds.recorded

/-- The accounts a vault keeps after every call of its log. -/
structure VaultAccounts (log : List VaultEntry) (storage : VaultStorage) : Prop where
  liability : storage.principalLiabilityUSDT6.toNat =
    storage.totalDepositedUSDT6.toNat - storage.totalRedeemedUSDT6.toNat
  covered : storage.totalRedeemedUSDT6.toNat ≤ storage.totalDepositedUSDT6.toNat
  cap : storage.principalLiabilityUSDT6.toNat ≤ activeLiabilityCapUSDT6.toNat
  deposited : storage.totalDepositedUSDT6.toNat = (VaultHistory.ofLog log).deposited
  nonce : storage.nextDepositNonce.toNat = (VaultHistory.ofLog log).deposits.length
  committed : ∀ nonce, storage.depositCommitmentByNonce nonce ≠ .zero ↔
    nonce < storage.nextDepositNonce
  redeemed : storage.totalRedeemedUSDT6.toNat = (VaultHistory.ofLog log).redeemed
  distinct : (VaultHistory.ofLog log).paidIds.Nodup
  spent : ∀ burnId, storage.spentBurnIds burnId = true ↔
    burnId ∈ (VaultHistory.ofLog log).paidIds
  active : storage.bridgeStateHash = .zero ↔ storage.finalizedState.sequence = 0

/-- The chained hash is zero exactly before the first state, if no digest is zero. -/
theorem stateHash_eq_zero (nonzero : ∀ message, Hashing.sha256 message ≠ .zero)
    (history : VaultHistory) : history.stateHash = .zero ↔ history.states = [] := by
  unfold VaultHistory.stateHash
  rcases List.eq_nil_or_concat history.states with none | ⟨states, next, some⟩
  · simp [none]
  · simp [some, nonzero]

/-- The invariant gives the accounts. -/
theorem VaultInvariant.accounts (nonzero : ∀ message, Hashing.sha256 message ≠ .zero)
    (invariant : VaultInvariant vault log storage) : VaultAccounts log storage := by
  obtain ⟨sound, recorded⟩ := invariant
  have liability := recorded.liability
  have cap := sound.cap
  refine {
    liability := by rw [recorded.deposited, recorded.redeemed]; omega
    covered := by rw [recorded.deposited, recorded.redeemed]; exact sound.covered
    cap := by omega
    deposited := recorded.deposited
    nonce := recorded.nonce
    committed := ?_
    redeemed := recorded.redeemed
    distinct := sound.distinct
    spent := recorded.spent
    active := ?_ }
  · intro nonce
    rw [recorded.commitments, UInt64.lt_iff_toNat_lt, recorded.nonce]
    by_cases made : nonce.toNat < (VaultHistory.ofLog log).deposits.length
    · simp only [List.getElem?_eq_getElem made, Option.map_some, Option.getD_some, made, iff_true]
      exact (sound.deposits _ (List.getElem_mem made)).depositId_ne
    · simp [made]
  · rw [recorded.stateHash, stateHash_eq_zero nonzero, ← UInt64.toNat_inj, recorded.sequence]
    exact List.length_eq_zero_iff.symm

/-- What holds of the state a run of a fresh vault reached, and of every continuation. -/
structure VaultRun (view : VaultView World) (vault : Vault)
    (env : Environment World TokenRequest CallResult) (before after : List VaultEntry)
    (kept storage : VaultStorage) : Prop where
  accounts : VaultAccounts (before ++ after) storage
  unchanged : ∀ nonce, kept.depositCommitmentByNonce nonce ≠ .zero →
    storage.depositCommitmentByNonce nonce = kept.depositCommitmentByNonce nonce
  solvent : ∀ call world value world' storage',
    Returns env (vaultContract view vault) (vaultContract view vault call) world storage value
      world' storage' → (∀ submitter next proof, call ≠ .advanceElementsState submitter next proof) →
    Solvent view vault world' storage'.principalLiabilityUSDT6.toNat
  reentered : ∀ held : VaultStorage, held.reentrancyLock ≠ 1 → ∀ call world final,
    Finishes env (vaultContract view vault) (vaultContract view vault call world held) final →
    final = .reverted .reentrantCall

/-- Along every run of a fresh vault the liability is what was deposited and not redeemed, within
the cap; nonces, commitments and spent burns are those of the successful calls; a commitment
never changes; deposits and redemptions leave the vault solvent; a call made from inside a
transfer is refused. -/
theorem vault_run (nonzero : ∀ message, Hashing.sha256 message ≠ .zero)
    {first middle last : World} {kept storage : VaultStorage} {before after : List VaultEntry}
    (early : Run env (vaultContract view vault) first .fresh before middle kept)
    (late : Run env (vaultContract view vault) middle kept after last storage) :
    VaultRun view vault env before after kept storage := by
  have earlier : VaultInvariant vault before kept := VaultInvariant.fresh.run early
  have later : VaultInvariant vault (before ++ after) storage := earlier.run late
  refine ⟨later.accounts nonzero, ?_, ?_, ?_⟩
  · intro nonce written
    have made : nonce.toNat < (VaultHistory.ofLog before).deposits.length := by
      rw [← earlier.recorded.nonce, ← UInt64.lt_iff_toNat_lt]
      exact ((earlier.accounts nonzero).committed nonce).mp written
    rw [later.recorded.commitments, earlier.recorded.commitments, VaultHistory.ofLog_append,
      List.getElem?_append_left made]
  · intro call world value world' storage' returned moving
    have law := returns_vaultContract returned
    cases call with
    | deposit depositor amountUSDT6 elementsScript userSalt =>
      obtain ⟨_, _, _, step⟩ := law
      exact step.solvent
    | advanceElementsState submitter next proof => exact absurd rfl (moving _ _ _)
    | redeem submitter claim burnIndex merkleBranch => exact law.2.solvent
  · intro held locked call world final done
    rw [vaultContract_refuses locked] at done
    exact finishes_reverted.mp done

end Runs

/-- What every account holds of one token. -/
abbrev Holdings := EthAddress → Uint256

/-- Move an amount from one account to another. -/
def Holdings.move (holdings : Holdings) (sender receiver : EthAddress) (amount : Uint256) :
    Holdings :=
  let debited := Function.update holdings sender (holdings sender - amount)
  Function.update debited receiver (debited receiver + amount)

/-- A token that moves what the sender holds and returns no data, called by one contract. -/
def plainToken (caller : EthAddress) (request : TokenRequest) (holdings : Holdings) :
    Holdings × CallResult :=
  match request.call with
  | .transferFrom sender recipient amount =>
    if holdings sender < amount then (holdings, ⟨false, []⟩)
    else (holdings.move sender recipient amount, ⟨true, []⟩)
  | .transfer recipient amount =>
    if holdings caller < amount then (holdings, ⟨false, []⟩)
    else (holdings.move caller recipient amount, ⟨true, []⟩)

/-- The vault that a manifest describes. -/
def vaultFor (manifest : ProtocolManifest) : Vault where
  chainId := widen manifest.ethereumChainId
  self := manifest.vault
  usdt := manifest.usdt
  proofVerifier := manifest.proofVerifier
  proofVerifierCodehash := manifest.proofVerifierRuntimeCodeHash
  verifierProgramId := manifest.elementsGuestProgramId
  verifierConfigHash := manifest.verifierConfigHash
  elementsGenesisHash := manifest.elementsGenesis
  usddAssetId := manifest.usddAsset
  vaultId := manifest.vaultId
  minimumActivationChainwork := BitVec.ofNat 256 manifest.minimumActivationChainwork.toNat

/-- A vault on the main chain. -/
def sampleVault : Vault := vaultFor sampleManifest

/-- A view of holdings, with a verifier that accepts a set of statements. -/
def sampleView (accepted : Hash32 → Bool) : VaultView Holdings where
  balances := fun holdings _ account => ⟨true, encode (holdings account)⟩
  codeLength := fun _ _ => 1
  codehash := fun _ _ => sampleVault.proofVerifierCodehash
  verifierProgramId := fun _ _ => some sampleVault.verifierProgramId
  verifierConfigHash := fun _ _ => some sampleVault.verifierConfigHash
  verify := fun _ _ statement _ => some (accepted statement)

theorem reportedBalance_sampleView (accepted : Hash32 → Bool) (holdings : Holdings)
    (token account : EthAddress) :
    reportedBalance (sampleView accepted).balances holdings token account =
      some (holdings account) := by
  have length : (encode (holdings account)).length = 32 := encode_uint256_length _
  have read : beNat (encode (holdings account)) = (holdings account).toNat :=
    beNat_beBytes_of_lt (holdings account).isLt
  simp [reportedBalance, sampleView, length, read]

/-- Calls made one after the other on a vault whose token is plain. -/
def playVault [Hashing] (accepted : Hash32 → Bool) (calls : List VaultCall) (holdings : Holdings)
    (storage : VaultStorage) : List VaultEntry × Holdings × VaultStorage :=
  play (plainToken sampleVault.self) (vaultContract (sampleView accepted) sampleVault) calls
    holdings storage

/-- Calls on a vault whose token is plain are a run, whatever is promised of the token. -/
theorem run_playVault [Hashing] (accepted : Hash32 → Bool) (calls : List VaultCall)
    (holdings : Holdings) (storage : VaultStorage) :
    Run .arbitrary (vaultContract (sampleView accepted) sampleVault) holdings storage
      (playVault accepted calls holdings storage).1
      (playVault accepted calls holdings storage).2.1
      (playVault accepted calls holdings storage).2.2 :=
  run_play (fun _ _ => trivial) (fun _ _ => trivial) calls holdings storage

/-- One account holds a thousand micro-USDT. -/
def sampleHoldings : Holdings := fun account => if account = .ofNat 20 0xc1 then 1000 else 0

/-- A deposit of the account. -/
def sampleDeposit (amountUSDT6 : UInt64) : VaultCall :=
  .deposit (.ofNat 20 0xc1) amountUSDT6 [0x51] .zero

/-- One deposit, and then one that succeeds and one that the account cannot pay. -/
theorem vault_run_sample :
    letI := nonzeroSha256Hashing
    let first := playVault (fun _ => false) [sampleDeposit 5] sampleHoldings .fresh
    let second := playVault (fun _ => false) [sampleDeposit 6, sampleDeposit 990] first.2.1 first.2.2
    VaultRun (sampleView fun _ => false) sampleVault .arbitrary first.1 second.1 first.2.2
        second.2.2 ∧ second.2.2.principalLiabilityUSDT6 = 11 :=
  letI := nonzeroSha256Hashing
  ⟨vault_run nonzeroSha256_ne (run_playVault _ _ _ _) (run_playVault _ _ _ _), by decide +kernel⟩

end Usdd.Verif

import Usdd.Contracts.Vault
/-!
# What one call of the vault does

Each entry point has one law: what a returned call checked, what the world did for it, and
every storage variable it left. While a call holds the lock every further call is refused, so
the token contract cannot change the storage during a transfer and the laws need no assumption
about the code it runs.
-/
namespace Usdd.Contracts

open Usdd.Foundation Usdd.Foundation.Reentrant Usdd.Core

variable [Hashing] {World : Type} {view : VaultView World} {vault : Vault}
  {env : Environment World TokenRequest CallResult} {world world' : World}
  {storage storage' : VaultStorage}

/-- A world in which the vault's token balance covers a liability. -/
def Solvent (view : VaultView World) (vault : Vault) (world : World) (liability : Nat) : Prop :=
  ∃ reserve, reportedBalance view.balances world vault.usdt vault.self = some reserve ∧
    liability ≤ reserve.toNat

/-- A held lock refuses every entry point. -/
theorem vaultContract_refuses (held : storage.reentrancyLock ≠ 1) (call : VaultCall) :
    vaultContract view vault call world storage = .reverted .reentrantCall := by
  have refuse {α : Type} (body : VaultProgram World α) :
      nonReentrant body world storage = .reverted .reentrantCall := by
    change (if storage.reentrancyLock ≠ 1 then Execution.reverted VaultError.reentrantCall
      else Execution.returned () world storage).andThen _ = _
    rw [if_pos held]
    rfl
  cases call with
  | deposit sender amountUSDT6 elementsScript userSalt =>
    exact congrArg (fun execution => Execution.andThen execution _) (refuse _)
  | advanceElementsState sender next proof =>
    exact congrArg (fun execution => Execution.andThen execution _) (refuse _)
  | redeem sender claim burnIndex merkleBranch =>
    exact congrArg (fun execution => Execution.andThen execution _) (refuse _)

/-- A vault whose lock is held is locked. -/
theorem vaultContract_locked (held : storage.reentrancyLock ≠ 1) :
    Locked (vaultContract view vault) storage :=
  fun call _ => ⟨.reentrantCall, vaultContract_refuses held call⟩

/-- A guarded body runs with the lock held and releases it. -/
theorem returns_nonReentrant {α : Type} {body : VaultProgram World α} {result : α} :
    Returns env (vaultContract view vault) (nonReentrant body) world storage result world'
        storage' ↔
      storage.reentrancyLock = 1 ∧ ∃ kept, Returns env (vaultContract view vault) body world
        { storage with reentrancyLock := 2 } result world' kept ∧
        { kept with reentrancyLock := 1 } = storage' := by
  simp only [nonReentrant, returns_bind, returns_load, returns_revertIf, returns_update,
    returns_pure]
  constructor
  · rintro ⟨_, _, _, ⟨rfl, rfl, rfl⟩, _, _, _, ⟨free, rfl, rfl⟩, _, _, _, ⟨rfl, rfl⟩, _, _, kept,
      ran, _, _, _, ⟨rfl, rfl⟩, rfl, rfl, rfl⟩
    exact ⟨not_not.mp free, kept, ran, rfl⟩
  · rintro ⟨free, kept, ran, rfl⟩
    exact ⟨_, _, _, ⟨rfl, rfl, rfl⟩, (), _, _, ⟨not_not.mpr free, rfl, rfl⟩, (), _, _, ⟨rfl, rfl⟩,
      _, _, kept, ran, (), _, _, ⟨rfl, rfl⟩, rfl, rfl, rfl⟩

/-- The solvency check passes exactly in a solvent world and changes nothing. -/
@[simp high]
theorem returns_requireSolvent_bind {α : Type} {liability : Uint256}
    {next : Unit → VaultProgram World α} {result : α} :
    Returns env (vaultContract view vault) (requireSolvent view vault liability >>= next) world
        storage result world' storage' ↔
      Solvent view vault world liability.toNat ∧
        Returns env (vaultContract view vault) (next ()) world storage result world' storage' := by
  simp only [requireSolvent, returns_bind, returns_balanceOf, returns_revertIf, BitVec.not_lt,
    BitVec.le_def, Solvent]
  constructor
  · rintro ⟨_, _, _, ⟨reserve, _, _, ⟨found, rfl, rfl⟩, covered, rfl, rfl⟩, rest⟩
    exact ⟨⟨reserve, found, covered⟩, rest⟩
  · rintro ⟨⟨reserve, found, covered⟩, rest⟩
    exact ⟨(), _, _, ⟨reserve, _, _, ⟨found, rfl, rfl⟩, covered, rfl, rfl⟩, rest⟩

/-- An event is appended. -/
@[simp]
theorem returns_emit {event : VaultEvent} {done : Unit} :
    Returns env (vaultContract view vault) (emit event) world storage done world' storage' ↔
      world = world' ∧ { storage with events := storage.events ++ [event] } = storage' := by
  simp [emit]

/-- An event is appended before the rest. -/
@[simp high]
theorem returns_emit_bind {α : Type} {event : VaultEvent} {next : Unit → VaultProgram World α}
    {result : α} :
    Returns env (vaultContract view vault) (emit event >>= next) world storage result world'
        storage' ↔
      Returns env (vaultContract view vault) (next ()) world
        { storage with events := storage.events ++ [event] } result world' storage' := by
  simp only [emit, returns_update_bind]

/-- A transfer made with the lock held leaves the storage alone. -/
theorem returns_moveExact_locked {token sender receiver : EthAddress} {amount : Uint256}
    {call : TokenCall} {done : Unit} (held : storage.reentrancyLock ≠ 1)
    (moved : Returns env (vaultContract view vault)
      (moveExact view.balances VaultError.token token sender receiver amount call) world storage
      done world' storage') :
    storage' = storage ∧ MovedExactly view.balances token sender receiver amount world world' := by
  obtain ⟨_, opened, _, _, exact⟩ := returns_moveExact.mp moved
  exact ⟨(opened.locked (vaultContract_locked held)).1, exact⟩

omit [Hashing] in
@[simp]
theorem orPanic_eq_ok {α : Type} {result : Option α} {value : α} :
    orPanic result = .ok value ↔ result = some value := okOr_eq_ok _ _ _

/-- What a returned deposit checked and changed. -/
structure DepositStep (view : VaultView World) (vault : Vault) (sender : EthAddress)
    (amountUSDT6 : UInt64) (elementsScript : List UInt8) (userSalt : Hash32) (world : World)
    (storage : VaultStorage) (nonce : UInt64) (depositId : Hash32) (world' : World)
    (storage' : VaultStorage) : Prop where
  unlocked : storage.reentrancyLock = 1
  amount_pos : amountUSDT6 ≠ 0
  amount_le : amountUSDT6.toNat ≤ maxDepositAmountUSDT6.toNat
  script_pos : elementsScript.length ≠ 0
  script_le : elementsScript.length ≤ maxElementsScriptLength
  cap : storage'.principalLiabilityUSDT6.toNat ≤ activeLiabilityCapUSDT6.toNat
  nonce_eq : nonce = storage.nextDepositNonce
  depositId_eq : depositId = Hashing.sha256 (vault.depositPreimage nonce sender amountUSDT6
    (Hashing.sha256 elementsScript) userSalt)
  depositId_ne : depositId ≠ .zero
  moved : MovedExactly view.balances vault.usdt sender vault.self (widen amountUSDT6) world world'
  solvent : Solvent view vault world' storage'.principalLiabilityUSDT6.toNat
  nextNonce : storage'.nextDepositNonce.toNat = storage.nextDepositNonce.toNat + 1
  liability : storage'.principalLiabilityUSDT6.toNat =
    storage.principalLiabilityUSDT6.toNat + amountUSDT6.toNat
  deposited : storage'.totalDepositedUSDT6.toNat =
    storage.totalDepositedUSDT6.toNat + amountUSDT6.toNat
  commitments : storage'.depositCommitmentByNonce =
    Function.update storage.depositCommitmentByNonce nonce depositId
  events : storage'.events = storage.events ++ [.depositAccepted depositId nonce sender
    amountUSDT6 (Hashing.sha256 elementsScript) elementsScript userSalt]
  redeemed : storage'.totalRedeemedUSDT6 = storage.totalRedeemedUSDT6
  spent : storage'.spentBurnIds = storage.spentBurnIds
  finalized : storage'.finalizedState = storage.finalizedState
  stateHash : storage'.bridgeStateHash = storage.bridgeStateHash
  released : storage'.reentrancyLock = 1

/-- The law of `deposit`. -/
theorem returns_deposit {sender : EthAddress} {amountUSDT6 : UInt64}
    {elementsScript : List UInt8} {userSalt : Hash32} {result : UInt64 × Hash32}
    (returned : Returns env (vaultContract view vault)
      (deposit view vault sender amountUSDT6 elementsScript userSalt) world storage result world'
      storage') :
    DepositStep view vault sender amountUSDT6 elementsScript userSalt world storage result.1
      result.2 world' storage' := by
  obtain ⟨free, kept, ran, rfl⟩ := returns_nonReentrant.mp returned
  simp only [pullExact, returns_revertIf_bind, returns_load_bind, returns_ofExcept_bind,
    returns_update_bind, orPanic_eq_ok] at ran
  obtain ⟨positive, bounded, script, newLiability, liability, capped, nextNonce, next, committed,
    ran⟩ := ran
  obtain ⟨_, middle, after, pulled, ran⟩ := returns_bind.mp ran
  obtain ⟨rfl, moved⟩ := returns_moveExact_locked (by simp) pulled
  simp only [returns_update_bind, returns_load_bind, returns_ofExcept_bind, orPanic_eq_ok,
    returns_requireSolvent_bind, returns_emit_bind, returns_pure] at ran
  obtain ⟨totalDeposited, deposited, solvent, rfl, rfl, rfl⟩ := ran
  rw [not_or] at script
  exact {
    unlocked := free
    amount_pos := positive
    amount_le := by simpa [UInt64.lt_iff_toNat_lt] using bounded
    script_pos := script.1
    script_le := by simpa using script.2
    cap := by simpa [BitVec.le_def] using capped
    nonce_eq := rfl
    depositId_eq := rfl
    depositId_ne := committed
    moved := moved
    solvent := solvent
    nextNonce := checkedAdd_eq_some.mp next
    liability := by simpa using checkedAdd256_eq_some.mp liability
    deposited := by simpa using checkedAdd256_eq_some.mp deposited
    commitments := rfl
    events := rfl
    redeemed := rfl
    spent := rfl
    finalized := rfl
    stateHash := rfl
    released := rfl }

/-- The rule by which the vault lets one Elements state follow another, activation apart. -/
structure ElementsBridgeState.Follows (current next : ElementsBridgeState) : Prop where
  sequence : next.sequence.toNat = current.sequence.toNat + 1
  count_le : current.burnCount.toNat ≤ next.burnCount.toNat
  growth_le : next.burnCount.toNat ≤ current.burnCount.toNat + 64
  empty : next.burnCount = 0 → next.cumulativeBurnRoot = emptyBurnRoot
  root : current.sequence ≠ 0 → next.burnCount = current.burnCount →
    next.cumulativeBurnRoot = current.cumulativeBurnRoot
  digest : current.sequence ≠ 0 →
    next.elementsConsensusStateDigest ≠ current.elementsConsensusStateDigest
  tip_ne : next.elementsTipHash ≠ .zero
  digest_ne : next.elementsConsensusStateDigest ≠ .zero
  root_ne : next.cumulativeBurnRoot ≠ .zero
  block_ne : next.finalizedBitcoinBlockHash ≠ .zero
  bitcoinHeight : current.bitcoinHeight.toNat < next.bitcoinHeight.toNat
  elementsHeight : current.elementsHeight.toNat < next.elementsHeight.toNat
  medianTime : current.bitcoinMedianTimePast.toNat ≤ next.bitcoinMedianTimePast.toNat
  work : current.bitcoinChainwork.toNat < next.bitcoinChainwork.toNat

/-- The chainwork the first accepted state must reach. -/
def Vault.ActivatedBy (vault : Vault) (storage : VaultStorage) (next : ElementsBridgeState) :
    Prop :=
  storage.bridgeStateHash = .zero →
    vault.minimumActivationChainwork.toNat ≤ next.bitcoinChainwork.toNat

omit [Hashing] in
/-- The law of `_validateNextState`. -/
theorem validateNextState_eq_ok {next : ElementsBridgeState} :
    validateNextState vault storage next = .ok () ↔
      storage.finalizedState.Follows next ∧ vault.ActivatedBy storage next := by
  simp only [validateNextState]
  simp only [↓then_eq_ok, bind_eq_ok, rejectIf_eq_ok, orPanic_eq_ok, checkedAdd_eq_some,
    checkedSub_eq_some, not_or, not_and, ne_eq, not_not, gt_iff_lt, UInt64.lt_iff_toNat_lt,
    UInt64.le_iff_toNat_le, BitVec.lt_def, BitVec.le_def, Nat.not_lt, Nat.not_le]
  rw [show maxBurnsPerStateTransition.toNat = 64 from rfl]
  constructor
  · rintro ⟨expected, value, same, count, growth, difference, grown, empty, root, digest,
      ⟨tip, digestSet, rootSet, block⟩, bitcoin, elements, median, work, activated⟩
    refine ⟨⟨?_, count, by omega, empty, root, digest, tip, digestSet, rootSet, block, bitcoin,
      elements, median, work⟩, activated⟩
    rw [same, value]
    rfl
  · rintro ⟨follows, activated⟩
    have count := follows.count_le
    have grown := follows.growth_le
    obtain ⟨growth, computed, difference⟩ := checkedSub_of_le count
    exact ⟨next.sequence, follows.sequence, rfl, count, growth, difference, by omega,
      follows.empty, follows.root, follows.digest,
      ⟨follows.tip_ne, follows.digest_ne, follows.root_ne, follows.block_ne⟩,
      follows.bitcoinHeight, follows.elementsHeight, follows.medianTime, follows.work, activated⟩

/-- What a returned state advance checked and changed. -/
structure AdvanceStep (view : VaultView World) (vault : Vault) (sender : EthAddress)
    (next : ElementsBridgeState) (proof : List UInt8) (world : World) (storage : VaultStorage)
    (storage' : VaultStorage) : Prop where
  unlocked : storage.reentrancyLock = 1
  follows : storage.finalizedState.Follows next
  activated : vault.ActivatedBy storage next
  codehash : view.codehash world vault.proofVerifier = vault.proofVerifierCodehash
  programId : view.verifierProgramId world vault.proofVerifier = some vault.verifierProgramId
  configHash : view.verifierConfigHash world vault.proofVerifier = some vault.verifierConfigHash
  verified : view.verify world vault.proofVerifier
    (vault.elementsStateStatement storage next).2 proof = some true
  finalized : storage'.finalizedState = next
  stateHash : storage'.bridgeStateHash = (vault.elementsStateStatement storage next).1
  events : storage'.events = storage.events ++ [.elementsStateAdvanced storage.bridgeStateHash
    (vault.elementsStateStatement storage next).1 next.cumulativeBurnRoot next.sequence
    next.burnCount sender]
  nonce : storage'.nextDepositNonce = storage.nextDepositNonce
  liability : storage'.principalLiabilityUSDT6 = storage.principalLiabilityUSDT6
  deposited : storage'.totalDepositedUSDT6 = storage.totalDepositedUSDT6
  redeemed : storage'.totalRedeemedUSDT6 = storage.totalRedeemedUSDT6
  commitments : storage'.depositCommitmentByNonce = storage.depositCommitmentByNonce
  spent : storage'.spentBurnIds = storage.spentBurnIds
  released : storage'.reentrancyLock = 1

/-- The law of `advanceElementsState`. -/
theorem returns_advanceElementsState {sender : EthAddress} {next : ElementsBridgeState}
    {proof : List UInt8} {done : Unit}
    (returned : Returns env (vaultContract view vault)
      (advanceElementsState view vault sender next proof) world storage done world' storage') :
    world' = world ∧ AdvanceStep view vault sender next proof world storage storage' := by
  obtain ⟨free, kept, ran, rfl⟩ := returns_nonReentrant.mp returned
  simp only [returns_revertIf_bind, returns_load_bind, returns_ofExcept_bind,
    returns_update_bind, returns_inspect_bind, returns_emit, okOr_eq_ok, ne_eq, not_not,
    Bool.not_eq_false] at ran
  obtain ⟨_, checked, codehash, reportedProgramId, programId, sameProgram, reportedConfigHash,
    configHash, sameConfig, verdict, verified, accepted, rfl, rfl⟩ := ran
  obtain ⟨follows, activated⟩ := validateNextState_eq_ok.mp checked
  subst sameProgram sameConfig accepted
  exact ⟨rfl, {
    unlocked := free
    follows := follows
    activated := activated
    codehash := codehash
    programId := programId
    configHash := configHash
    verified := verified
    finalized := rfl
    stateHash := rfl
    events := rfl
    nonce := rfl
    liability := rfl
    deposited := rfl
    redeemed := rfl
    commitments := rfl
    spent := rfl
    released := rfl }⟩

/-- A claim that `redeem` pays in a state, the external calls apart. -/
structure Redeemable (vault : Vault) (storage : VaultStorage) (claim : BurnClaim)
    (burnIndex : UInt64) (merkleBranch : Vector Hash32 64) : Prop where
  active : storage.bridgeStateHash ≠ .zero
  version : claim.protocolVersion = protocolVersion
  genesis : claim.elementsGenesisHash = vault.elementsGenesisHash
  asset : claim.usddAssetId = vault.usddAssetId
  vaultId : claim.vaultId = vault.vaultId
  burnId : claim.burnId = vault.computeBurnId claim.burnTxid claim.burnVout
  burnId_ne : claim.burnId ≠ .zero
  amount_pos : claim.amountUSDT6 ≠ 0
  amount_le : claim.amountUSDT6.toNat ≤ maxBurnAmountUSDT6.toNat
  recipient_ne : claim.recipient ≠ .zero
  recipient_other : claim.recipient ≠ vault.self
  finalized : burnIndex.toNat < storage.finalizedState.burnCount.toNat
  unspent : storage.spentBurnIds claim.burnId = false
  covered : claim.amountUSDT6.toNat ≤ storage.principalLiabilityUSDT6.toNat
  proven : Sha256SparseMerkle.verify storage.finalizedState.cumulativeBurnRoot
    (hashBurnLeaf claim burnIndex) burnIndex merkleBranch = true

/-- The law of the checks of `redeem`. -/
theorem checkRedeem_eq_ok {claim : BurnClaim} {burnIndex : UInt64}
    {merkleBranch : Vector Hash32 64} :
    checkRedeem vault storage claim burnIndex merkleBranch = .ok () ↔
      Redeemable vault storage claim burnIndex merkleBranch := by
  simp only [checkRedeem]
  simp only [↓then_eq_ok, rejectIf_eq_ok, not_or, ne_eq, not_not, gt_iff_lt, ge_iff_le,
    UInt64.lt_iff_toNat_lt, UInt64.le_iff_toNat_le, BitVec.lt_def, widen_toNat, Nat.not_lt,
    Nat.not_le, Bool.not_eq_true, Bool.not_eq_false]
  constructor
  · rintro ⟨active, version, genesis, asset, vaultId, burnId, ⟨set, positive, bounded, recipient,
      other⟩, finalized, unspent, covered, proven⟩
    exact ⟨active, version, genesis, asset, vaultId, burnId, set, positive, bounded, recipient,
      other, finalized, unspent, covered, proven⟩
  · rintro ⟨active, version, genesis, asset, vaultId, burnId, set, positive, bounded, recipient,
      other, finalized, unspent, covered, proven⟩
    exact ⟨active, version, genesis, asset, vaultId, burnId, ⟨set, positive, bounded, recipient,
      other⟩, finalized, unspent, covered, proven⟩

/-- What a returned redemption checked and changed. -/
structure RedeemStep (view : VaultView World) (vault : Vault) (sender : EthAddress)
    (claim : BurnClaim) (burnIndex : UInt64) (merkleBranch : Vector Hash32 64) (world : World)
    (storage : VaultStorage) (world' : World) (storage' : VaultStorage) : Prop where
  unlocked : storage.reentrancyLock = 1
  redeemable : Redeemable vault storage claim burnIndex merkleBranch
  solvent_before : Solvent view vault world storage.principalLiabilityUSDT6.toNat
  moved : MovedExactly view.balances vault.usdt vault.self claim.recipient
    (widen claim.amountUSDT6) world world'
  solvent : Solvent view vault world' storage'.principalLiabilityUSDT6.toNat
  liability : storage.principalLiabilityUSDT6.toNat =
    storage'.principalLiabilityUSDT6.toNat + claim.amountUSDT6.toNat
  redeemed : storage'.totalRedeemedUSDT6.toNat =
    storage.totalRedeemedUSDT6.toNat + claim.amountUSDT6.toNat
  spent : storage'.spentBurnIds = Function.update storage.spentBurnIds claim.burnId true
  events : storage'.events = storage.events ++ [.burnRedeemed claim.burnId burnIndex
    claim.recipient claim.amountUSDT6 storage.bridgeStateHash sender]
  nonce : storage'.nextDepositNonce = storage.nextDepositNonce
  deposited : storage'.totalDepositedUSDT6 = storage.totalDepositedUSDT6
  commitments : storage'.depositCommitmentByNonce = storage.depositCommitmentByNonce
  finalized : storage'.finalizedState = storage.finalizedState
  stateHash : storage'.bridgeStateHash = storage.bridgeStateHash
  released : storage'.reentrancyLock = 1

/-- The law of `redeem`. -/
theorem returns_redeem {sender : EthAddress} {claim : BurnClaim} {burnIndex : UInt64}
    {merkleBranch : Vector Hash32 64} {done : Unit}
    (returned : Returns env (vaultContract view vault)
      (redeem view vault sender claim burnIndex merkleBranch) world storage done world'
      storage') :
    RedeemStep view vault sender claim burnIndex merkleBranch world storage world' storage' := by
  obtain ⟨free, kept, ran, rfl⟩ := returns_nonReentrant.mp returned
  simp only [pushExact, returns_load_bind, returns_ofExcept_bind, returns_update_bind,
    returns_requireSolvent_bind, orPanic_eq_ok] at ran
  obtain ⟨_, checked, reserved, newLiability, liability, totalRedeemed, redeemed, ran⟩ := ran
  obtain ⟨_, middle, after, pushed, ran⟩ := returns_bind.mp ran
  obtain ⟨rfl, moved⟩ := returns_moveExact_locked (by simp) pushed
  simp only [returns_load_bind, returns_requireSolvent_bind, returns_emit] at ran
  obtain ⟨solvent, rfl, rfl⟩ := ran
  exact {
    unlocked := free
    redeemable := checkRedeem_eq_ok.mp checked
    solvent_before := reserved
    moved := moved
    solvent := solvent
    liability := by simpa using checkedSub256_eq_some.mp liability
    redeemed := by simpa using checkedAdd256_eq_some.mp redeemed
    spent := rfl
    events := rfl
    nonce := rfl
    deposited := rfl
    commitments := rfl
    finalized := rfl
    stateHash := rfl
    released := rfl }

/-- A returned entry point is a returned function with its result. -/
theorem returns_vaultContract {call : VaultCall} {value : VaultResult}
    (returned : Returns env (vaultContract view vault) (vaultContract view vault call) world
      storage value world' storage') :
    match call with
    | .deposit sender amountUSDT6 elementsScript userSalt => ∃ nonce depositId,
      value = .deposited nonce depositId ∧ DepositStep view vault sender amountUSDT6
        elementsScript userSalt world storage nonce depositId world' storage'
    | .advanceElementsState sender next proof => value = .advanced ∧ world' = world ∧
      AdvanceStep view vault sender next proof world storage storage'
    | .redeem sender claim burnIndex merkleBranch => value = .redeemed ∧
      RedeemStep view vault sender claim burnIndex merkleBranch world storage world'
        storage' := by
  cases call with
  | deposit sender amountUSDT6 elementsScript userSalt =>
    obtain ⟨result, _, _, ran, last⟩ := returns_bind.mp returned
    obtain ⟨rfl, rfl, rfl⟩ := returns_pure.mp last
    exact ⟨result.1, result.2, rfl, returns_deposit ran⟩
  | advanceElementsState sender next proof =>
    obtain ⟨result, _, _, ran, last⟩ := returns_bind.mp returned
    obtain ⟨rfl, rfl, rfl⟩ := returns_pure.mp last
    exact ⟨rfl, returns_advanceElementsState ran⟩
  | redeem sender claim burnIndex merkleBranch =>
    obtain ⟨result, _, _, ran, last⟩ := returns_bind.mp returned
    obtain ⟨rfl, rfl, rfl⟩ := returns_pure.mp last
    exact ⟨rfl, returns_redeem ran⟩

end Usdd.Contracts

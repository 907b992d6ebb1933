import Usdd.Verif.ElementsStatement
/-!
# Which finalized burns can be redeemed

The guest and the vault check a burn independently of each other. For a burn that a chain of
accepted claims appended, with the accumulator's own proof, every check of the vault passes but
one: the guest does not know that the vault refuses to pay itself. With a token that transfers
exactly, a redemption of such a burn returns exactly when its destination is another address.
-/
namespace Usdd.Verif

open Usdd.Foundation Usdd.Foundation.Reentrant Usdd.Foundation.SparseTree Usdd.Core
  Usdd.Contracts Usdd.ProofCore Usdd.Spec

variable [Hashing] {World : Type} {view : VaultView World} {vault : Vault}
  {env : Environment World TokenRequest CallResult} {world world' : World}
  {storage storage' : VaultStorage}

/-- The claim that redeems a burn. -/
def claimFor (burn : Burn) (genesis : Hash32) : BurnClaim where
  protocolVersion := (burn.solidityClaim genesis).protocolVersion
  elementsGenesisHash := (burn.solidityClaim genesis).elementsGenesisHash
  usddAssetId := (burn.solidityClaim genesis).usddAssetId
  vaultId := (burn.solidityClaim genesis).vaultId
  burnTxid := (burn.solidityClaim genesis).burnTxidDisplay
  burnVout := (burn.solidityClaim genesis).burnVout
  burnId := (burn.solidityClaim genesis).burnId
  amountUSDT6 := (burn.solidityClaim genesis).amountUsdtMicro
  recipient := (burn.solidityClaim genesis).recipient

/-- A token that pays an account out of the vault: the account's balance can be read, the
transfer can be answered, and every answer comes after an exact move. -/
structure PaysOut (view : VaultView World) (env : Environment World TokenRequest CallResult)
    (vault : Vault) (world : World) (recipient : EthAddress) (amount : Uint256) : Prop where
  readable : ∃ balance, reportedBalance view.balances world vault.usdt recipient = some balance
  answered : ∃ world' reply, Relation.ReflTransGen env.moves world world' ∧
    env.answers ⟨vault.usdt, .transfer recipient amount⟩ world' reply
  exact : ∀ world' reply, Relation.ReflTransGen env.moves world world' →
    env.answers ⟨vault.usdt, .transfer recipient amount⟩ world' reply →
    reply.Accepted ∧ MovedExactly view.balances vault.usdt vault.self recipient amount world world'

/-- A call returns, and never reverts. -/
def NeverReverts (view : VaultView World) (vault : Vault)
    (env : Environment World TokenRequest CallResult) (call : VaultCall) (world : World)
    (storage : VaultStorage) : Prop :=
  (∃ value world' storage', Returns env (vaultContract view vault) (vaultContract view vault call)
    world storage value world' storage') ∧
  ∀ error, ¬Reverts env (vaultContract view vault) (vaultContract view vault call) world storage
    error

section Reverts

variable {error : VaultError}

/-- A guarded body reverts on a held lock, or where the body does under the lock. -/
theorem reverts_nonReentrant {α : Type} {body : VaultProgram World α} :
    Reverts env (vaultContract view vault) (nonReentrant body) world storage error ↔
      (storage.reentrancyLock ≠ 1 ∧ error = .reentrantCall) ∨ ¬storage.reentrancyLock ≠ 1 ∧
        Reverts env (vaultContract view vault) body world
          { storage with reentrancyLock := 2 } error := by
  simp only [nonReentrant, reverts_load_bind, reverts_revertIf_bind, reverts_update_bind]
  rw [reverts_bind]
  refine or_congr_right (and_congr_right fun _ => ⟨?_, Or.inl⟩)
  rintro (failed | ⟨_, _, _, _, failed⟩)
  · exact failed
  · exact absurd failed reverts_pure

/-- The solvency check before the rest reverts in a world that is not solvent. -/
theorem reverts_requireSolvent_bind {α : Type} {liability : Uint256}
    {next : Unit → VaultProgram World α}
    (solvent : Solvent view vault world liability.toNat)
    (failed : Reverts env (vaultContract view vault) (requireSolvent view vault liability >>= next)
      world storage error) :
    Reverts env (vaultContract view vault) (next ()) world storage error := by
  obtain ⟨reserve, found, covered⟩ := solvent
  simp only [requireSolvent, reverts_bind, returns_bind, reverts_balanceOf, returns_balanceOf,
    reverts_revertIf, returns_revertIf, found, reduceCtorEq, false_and, false_or,
    Option.some.injEq] at failed
  rcases failed with ⟨_, _, _, ⟨rfl, rfl, rfl⟩, low, _⟩ |
    ⟨_, _, _, ⟨_, _, _, ⟨rfl, rfl, rfl⟩, _, rfl, rfl⟩, rest⟩
  · exact absurd low (BitVec.not_lt.mpr (BitVec.le_def.mpr covered))
  · exact rest

end Reverts

section Redeem

variable {submitter : EthAddress} {claim : BurnClaim} {burnIndex : UInt64}
  {merkleBranch : Vector Hash32 64}

omit [Hashing] in
/-- The world after an exact payout covers what is left of the liability. -/
theorem MovedExactly.solvent {left : Uint256}
    (reserved : Solvent view vault world storage.principalLiabilityUSDT6.toNat)
    (moved : MovedExactly view.balances vault.usdt vault.self claim.recipient
      (widen claim.amountUSDT6) world world')
    (liability : storage.principalLiabilityUSDT6.toNat =
      left.toNat + (widen claim.amountUSDT6).toNat) :
    Solvent view vault world' left.toNat := by
  obtain ⟨reserve, found, covered⟩ := reserved
  obtain ⟨was, now, before, after, lost⟩ := moved.sender
  obtain rfl := Option.some.inj (found.symm.trans before)
  exact ⟨now, after, by omega⟩

/-- A redemption that the checks admit, of an idle solvent vault whose counters do not overflow,
returns and never reverts, if the token pays out. -/
theorem redeem_neverReverts (idle : storage.reentrancyLock = 1)
    (redeemable : Redeemable vault storage claim burnIndex merkleBranch)
    (reserved : Solvent view vault world storage.principalLiabilityUSDT6.toNat)
    (counted : storage.totalRedeemedUSDT6.toNat + claim.amountUSDT6.toNat < 2 ^ 256)
    (token : PaysOut view env vault world claim.recipient (widen claim.amountUSDT6)) :
    NeverReverts view vault env (.redeem submitter claim burnIndex merkleBranch) world storage := by
  have checked := checkRedeem_eq_ok.mpr redeemable
  have covered : (widen claim.amountUSDT6).toNat ≤ storage.principalLiabilityUSDT6.toNat := by
    rw [widen_toNat]
    exact redeemable.covered
  have counted : storage.totalRedeemedUSDT6.toNat + (widen claim.amountUSDT6).toNat < 2 ^ 256 := by
    rwa [widen_toNat]
  obtain ⟨left, lowered, liability⟩ := checkedSub256_of_le covered
  obtain ⟨total, raised, _⟩ := checkedAdd256_of_lt counted
  have held : (2 : Uint256) ≠ 1 := by decide
  constructor
  · obtain ⟨world', reply, moved, answered⟩ := token.answered
    obtain ⟨accepted, exact⟩ := token.exact world' reply moved answered
    have solvent := MovedExactly.solvent reserved exact liability
    have ran : ∃ storage', Returns env (vaultContract view vault)
        (redeem view vault submitter claim burnIndex merkleBranch) world storage () world'
        storage' := by
      simp only [redeem, returns_nonReentrant, pushExact, returns_load_bind, returns_ofExcept_bind,
        returns_update_bind, returns_requireSolvent_bind, orPanic_eq_ok]
      refine ⟨_, idle, { storage with
        reentrancyLock := 2
        spentBurnIds := Function.update storage.spentBurnIds claim.burnId true
        principalLiabilityUSDT6 := left
        totalRedeemedUSDT6 := total
        events := storage.events ++ [.burnRedeemed claim.burnId burnIndex claim.recipient
          claim.amountUSDT6 storage.bridgeStateHash submitter] },
        ⟨(), checked, reserved, left, lowered, total, raised, returns_bind.mpr ⟨(), world', _,
          returns_moveExact.mpr ⟨reply, .of_moves moved, answered, accepted, exact⟩, ?_⟩⟩, rfl⟩
      simp only [returns_load_bind, returns_requireSolvent_bind, returns_emit]
      exact ⟨solvent, trivial, trivial⟩
    obtain ⟨storage', ran⟩ := ran
    exact ⟨.redeemed, world', storage',
      returns_bind.mpr ⟨(), world', storage', ran, returns_pure.mpr ⟨rfl, rfl, rfl⟩⟩⟩
  · intro error failed
    rcases reverts_bind.mp failed with failed | ⟨_, _, _, _, failed⟩
    · rcases reverts_nonReentrant.mp failed with ⟨busy, _⟩ | ⟨_, failed⟩
      · exact busy idle
      · rw [reverts_load_bind, reverts_ofExcept_bind] at failed
        rcases failed with wrong | ⟨_, _, failed⟩
        · exact absurd (checked.symm.trans wrong) (by simp)
        · have failed := reverts_requireSolvent_bind reserved failed
          simp only [reverts_update_bind, reverts_load_bind, reverts_ofExcept_bind, lowered,
            raised, orPanic, okOr, reduceCtorEq, false_or, Except.ok.injEq] at failed
          obtain ⟨_, rfl, _, rfl, failed⟩ := failed
          rcases reverts_bind.mp failed with failed | ⟨_, middle, kept, moved, failed⟩
          · obtain ⟨reserve, found, _⟩ := reserved
            obtain ⟨balance, known⟩ := token.readable
            rcases reverts_moveExact failed with missing | missing |
              ⟨reply, world', storage', opened, answered, wrong⟩
            · exact absurd (found.symm.trans missing) (by simp)
            · exact absurd (known.symm.trans missing) (by simp)
            · have moved := (opened.locked (vaultContract_locked held)).2
              exact wrong (token.exact world' reply moved answered)
          · obtain ⟨rfl, exact⟩ := returns_moveExact_locked held moved
            rw [reverts_load_bind] at failed
            have failed := reverts_requireSolvent_bind
              (MovedExactly.solvent reserved exact liability) failed
            exact absurd failed (by simp [emit])
    · exact absurd failed reverts_pure

end Redeem

/-- The manifest names the vault and what the vault is bound to. -/
structure Names (manifest : ProtocolManifest) (vault : Vault) : Prop where
  vaultId : manifest.vaultId = vault.vaultId
  genesis : manifest.elementsGenesis = vault.elementsGenesisHash
  asset : manifest.usddAsset = vault.usddAssetId
  self : manifest.vault = vault.self

section Finalized

variable {past : Environment World TokenRequest CallResult} {first : World}
  {log : List VaultEntry} {chain : List AcceptedTransition} {index : UInt64} {burn : Burn}

/-- A burn that a chain of accepted claims appended at an index, and a vault that has finalized
the last state of the chain and can pay the burn: the burn is unspent, its amount is within the
liability, the reserve covers the liability, and the token pays other accounts out. -/
structure FinalizedBurn (view : VaultView World) (vault : Vault)
    (past env : Environment World TokenRequest CallResult) (first : World)
    (log : List VaultEntry) (world : World) (storage : VaultStorage)
    (chain : List AcceptedTransition) (index : UInt64) (burn : Burn) : Prop where
  linked : Linked vault.elementsGenesisHash chain
  names : ∀ transition ∈ chain, Names transition.manifest vault
  free : CollisionFree vault.elementsGenesisHash (appendsOf chain)
  run : Run past (vaultContract view vault) first .fresh log world storage
  state : toCore storage.finalizedState = stateAfter chain
  active : storage.bridgeStateHash ≠ .zero
  appended : (burnsOf chain)[index.toNat]? = some burn
  unspent : storage.spentBurnIds (burn.redemptionId vault.elementsGenesisHash) = false
  covered : burn.usdtAmountMicro.toNat ≤ storage.principalLiabilityUSDT6.toNat
  solvent : Solvent view vault world storage.principalLiabilityUSDT6.toNat
  token : burn.ethereumDestination ≠ vault.self →
    PaysOut view env vault world burn.ethereumDestination (widen burn.usdtAmountMicro)

/-- The accumulator over all appended leaves proves the burn at an index, and a redemption of
the burn with that proof never reverts, whoever submits it. -/
def RedeemsWithProof (view : VaultView World) (vault : Vault)
    (env : Environment World TokenRequest CallResult) (world : World) (storage : VaultStorage)
    (chain : List AcceptedTransition) (index : UInt64) (burn : Burn) : Prop :=
  ∃ accumulator proof,
    BurnAccumulator.fromLeaves (leavesFor vault.elementsGenesisHash (burnsOf chain)) =
      .ok accumulator ∧
    accumulator.proof index = .ok proof ∧
    ∀ submitter, NeverReverts view vault env
      (.redeem submitter (claimFor burn vault.elementsGenesisHash) index proof.siblings) world
      storage

/-- A burn of a chain was admitted for the manifest of some claim. -/
theorem burnsOf_admitted (present : burn ∈ burnsOf chain) :
    ∃ transition ∈ chain, Admitted transition.manifest burn := by
  obtain ⟨append, appended, rfl⟩ := List.mem_map.mp present
  obtain ⟨transition, member, listed⟩ := List.mem_flatMap.mp appended
  obtain ⟨output, step⟩ := transition.step
  exact ⟨transition, member, step.appends.admitted append listed⟩

/-- The checks of the vault on a finalized burn with the accumulator's proof: all but one pass. -/
theorem FinalizedBurn.redeemable
    (finalized : FinalizedBurn view vault past env first log world storage chain index burn)
    (other : burn.ethereumDestination ≠ vault.self) {branch : Vector Hash32 64}
    (proven : Sha256SparseMerkle.verify storage.finalizedState.cumulativeBurnRoot
      (hashBurnLeaf (claimFor burn vault.elementsGenesisHash) index) index branch = true) :
    Redeemable vault storage (claimFor burn vault.elementsGenesisHash) index branch := by
  have present : burn ∈ burnsOf chain := List.mem_of_getElem? finalized.appended
  obtain ⟨transition, member, admitted⟩ := burnsOf_admitted present
  have names := finalized.names transition member
  have claim := admitted.claim
  rw [names.genesis] at claim
  have bounds := admitted.valid.amount_bounds
  have tree := BurnTreeInvariant.run finalized.linked finalized.free
  have count : storage.finalizedState.burnCount.toNat = (burnsOf chain).length := by
    rw [← tree.count, ← finalized.state]
    rfl
  constructor
  · exact finalized.active
  · rfl
  · rfl
  · exact admitted.asset.trans names.asset
  · exact admitted.vaultId.trans names.vaultId
  · rw [computeBurnId_eq]
    rfl
  · exact claim.id_ne
  · exact claim.amount_ne
  · exact bounds.2
  · exact claim.recipient
  · exact other
  · rw [count]
    exact (List.getElem?_eq_some_iff.mp finalized.appended).1
  · exact finalized.unspent
  · exact finalized.covered
  · exact proven

/-- The accumulator's proof of a finalized burn verifies in the vault. -/
theorem FinalizedBurn.proven
    (finalized : FinalizedBurn view vault past env first log world storage chain index burn) :
    ∃ accumulator proof,
      BurnAccumulator.fromLeaves (leavesFor vault.elementsGenesisHash (burnsOf chain)) =
        .ok accumulator ∧
      accumulator.proof index = .ok proof ∧
      Sha256SparseMerkle.verify storage.finalizedState.cumulativeBurnRoot
        (hashBurnLeaf (claimFor burn vault.elementsGenesisHash) index) index
        proof.siblings = true := by
  have tree := BurnTreeInvariant.run finalized.linked finalized.free
  have nonempty : chain ≠ [] := by
    rintro rfl
    exact absurd finalized.appended (by simp [burnsOf, appendsOf])
  obtain ⟨accumulator, built, _, proves⟩ := tree.accumulated nonempty
  have leaf : (leavesFor vault.elementsGenesisHash (burnsOf chain))[index.toNat]? =
      some (burn.leafAt vault.elementsGenesisHash index.toNat) := by
    simp [leavesFor, finalized.appended]
  obtain ⟨proof, collected, verified⟩ := proves index _ leaf
  refine ⟨accumulator, proof, built, collected, ?_⟩
  have root : storage.finalizedState.cumulativeBurnRoot =
      (stateAfter chain).cumulativeBurnRoot := by
    rw [← finalized.state]
    rfl
  have same : hashBurnLeaf (claimFor burn vault.elementsGenesisHash) index =
      burn.leafAt vault.elementsGenesisHash index.toNat := by
    rw [hashBurnLeaf_eq, Burn.leafAt, UInt64.ofNat_toNat]
    rfl
  rw [BurnProof.verify_eq_true] at verified
  rw [Sha256SparseMerkle.verify, beq_iff_eq, Sha256SparseMerkle.computeRoot_eq_climb, hashNode_eq,
    same, root]
  exact verified

/-- A burn that a chain of accepted claims finalized can be redeemed with the accumulator's proof
exactly where its destination is not the vault itself. -/
theorem finalized_burns_redeemable
    (finalized : FinalizedBurn view vault past env first log world storage chain index burn) :
    RedeemsWithProof view vault env world storage chain index burn ↔
      burn.ethereumDestination ≠ vault.self := by
  have invariant : VaultInvariant vault log storage := VaultInvariant.fresh.run finalized.run
  constructor
  · rintro ⟨accumulator, proof, _, _, never⟩
    obtain ⟨⟨value, world', storage', returned⟩, _⟩ := never .zero
    have law := returns_vaultContract returned
    obtain ⟨_, step⟩ := law
    exact step.redeemable.recipient_other
  · intro other
    obtain ⟨accumulator, proof, built, collected, proven⟩ := finalized.proven
    refine ⟨accumulator, proof, built, collected, fun submitter => ?_⟩
    have recorded := invariant.recorded
    have counted : storage.totalRedeemedUSDT6.toNat + burn.usdtAmountMicro.toNat < 2 ^ 256 := by
      have redeemed := recorded.redeemed
      have deposited := recorded.deposited
      have liability := recorded.liability
      have covered := finalized.covered
      have bound := storage.totalDepositedUSDT6.isLt
      omega
    exact redeem_neverReverts recorded.unlocked (finalized.redeemable other proven)
      finalized.solvent counted (finalized.token other)

end Finalized

section Sample

/-- A token that transfers out of a contract in a world as it should, and does nothing else. -/
def exactToken (self : EthAddress) (holdings : Holdings) :
    Environment Holdings TokenRequest CallResult where
  moves before after :=
    before = holdings ∧ ∃ recipient amount, after = holdings.move self recipient amount
  answers request world reply := reply = ⟨true, []⟩ ∧ ∃ recipient amount,
    request.call = .transfer recipient amount ∧ world = holdings.move self recipient amount
  drifts before after := before = after

omit [Hashing] in
/-- What the contract holds can be paid to any other account with room for it. -/
theorem exactToken_paysOut {accepted : Hash32 → Bool} {vault : Vault} {holdings : Holdings}
    {recipient : EthAddress} {amount : Uint256} (other : recipient ≠ vault.self)
    (held : amount.toNat ≤ (holdings vault.self).toNat)
    (room : (holdings recipient).toNat + amount.toNat < 2 ^ 256) :
    PaysOut (sampleView accepted) (exactToken vault.self holdings) vault holdings recipient
      amount where
  readable := ⟨_, reportedBalance_sampleView accepted holdings vault.usdt recipient⟩
  answered := ⟨holdings.move vault.self recipient amount, ⟨true, []⟩,
    .single ⟨rfl, recipient, amount, rfl⟩, rfl, recipient, amount, rfl, rfl⟩
  exact := by
    rintro world' reply _ ⟨rfl, payee, paid, same, rfl⟩
    obtain ⟨rfl, rfl⟩ := TokenCall.transfer.inj same
    refine ⟨⟨rfl, Or.inl rfl⟩, ⟨_, _, reportedBalance_sampleView _ _ _ _,
      reportedBalance_sampleView _ _ _ _, ?_⟩, ⟨_, _, reportedBalance_sampleView _ _ _ _,
      reportedBalance_sampleView _ _ _ _, ?_⟩⟩
    · have lowered : (holdings.move vault.self recipient amount) vault.self =
          holdings vault.self - amount := by
        simp [Holdings.move, Function.update_of_ne other.symm]
      rw [lowered, BitVec.toNat_sub_of_le (BitVec.le_def.mpr held)]
      omega
    · have raised : (holdings.move vault.self recipient amount) recipient =
          holdings recipient + amount := by
        simp [Holdings.move, Function.update_of_ne other]
      rw [raised, BitVec.toNat_add, Nat.mod_eq_of_lt room]

/-- A vault that took a deposit of five micro-USDT and finalized the state of a claim. -/
def finalizedVault (claim : ElementsStateTransitionClaim) :
    List VaultEntry × Holdings × VaultStorage :=
  playVault (fun _ => true)
    [sampleDeposit 5, .advanceElementsState .zero (ofCore claim.nextState) []] sampleHoldings .fresh

/-- What is left to evaluate for a claim that appends one burn of five micro-USDT. -/
structure PaidFor (claim : ElementsStateTransitionClaim) (burn : Burn) : Prop where
  state : toCore (finalizedVault claim).2.2.finalizedState = claim.nextState
  active : (finalizedVault claim).2.2.bridgeStateHash ≠ .zero
  unspent : (finalizedVault claim).2.2.spentBurnIds
    (burn.redemptionId sampleVault.elementsGenesisHash) = false
  liability : (finalizedVault claim).2.2.principalLiabilityUSDT6 = 5
  reserve : (finalizedVault claim).2.1 sampleVault.self = 5
  recipient : burn.ethereumDestination ≠ sampleVault.self →
    (finalizedVault claim).2.1 burn.ethereumDestination = 0

/-- A first claim with one burn, finalized by the sample vault. -/
theorem finalizedBurn_first {transition : AcceptedTransition} {burn : Burn}
    (apart : ∀ level < 64, emptyBurnNode level ≠ emptyBurnNode 64)
    (manifest : transition.manifest = sampleManifest)
    (prior : transition.claim.priorState = .zero)
    (appended : transition.claim.appendedBurns = [⟨burn, emptyBranch⟩])
    (amount : burn.usdtAmountMicro = 5) (paid : PaidFor transition.claim burn) :
    let played := finalizedVault transition.claim
    FinalizedBurn (sampleView fun _ => true) sampleVault .arbitrary
      (exactToken sampleVault.self played.2.1) sampleHoldings played.1 played.2.1 played.2.2
      [transition] 0 burn where
  linked := by
    have same : transition.manifest.elementsGenesis = sampleVault.elementsGenesisHash := by
      rw [manifest]
      rfl
    exact @Linked.append _ _ [] transition .empty same prior
  names := by
    intro link member
    rw [List.mem_singleton.mp member, manifest]
    exact ⟨rfl, rfl, rfl, rfl⟩
  free := by
    have single : appendsOf [transition] = [⟨burn, emptyBranch⟩] := by simp [appendsOf, appended]
    rw [single]
    exact collisionFree_first _ burn apart
  run := run_playVault _ _ _ _
  state := paid.state
  active := paid.active
  appended := by simp [burnsOf, appendsOf, appended]
  unspent := paid.unspent
  covered := by
    rw [paid.liability, amount]
    decide
  solvent := by
    refine ⟨_, reportedBalance_sampleView _ _ _ _, ?_⟩
    rw [paid.liability, paid.reserve]
  token := by
    intro other
    refine exactToken_paysOut other ?_ ?_
    · rw [paid.reserve, amount]
      decide
    · rw [paid.recipient other, amount]
      decide

/-- A burn whose destination is the vault. -/
def burnToVault : Burn := { sampleBurn with ethereumDestination := sampleManifest.vault }

/-- A claim that appends the burn to an empty tree. -/
def claimOfBurnToVault : ElementsStateTransitionClaim :=
  { sampleClaim with
    nextState := { sampleClaim.nextState with
      cumulativeBurnRoot :=
        .ofNat 32 0x94a52fdd6a6a4b15b6cd968b7adc257368f8d95ef25b2d7e620af56efc2db64f }
    appendedBurns := [⟨burnToVault, emptyBranch⟩] }

end Sample

omit [Hashing] in
/-- A burn to the vault is accepted by the guest. -/
theorem claimOfBurnToVault_accepted : letI := nonzeroSha256Hashing
    Succeeds
      (buildElementsStateJournal satisfiedVerifier sampleManifest claimOfBurnToVault ()) := by
  decide +kernel

/-- The claim as a link of a chain. -/
def transitionToVault : @AcceptedTransition nonzeroSha256Hashing :=
  letI := nonzeroSha256Hashing
  ⟨sampleManifest, claimOfBurnToVault, Unit, satisfiedVerifier, (), claimOfBurnToVault_accepted⟩

omit [Hashing] in
theorem paidFor_sampleBurn : letI := nonzeroSha256Hashing; PaidFor sampleClaim sampleBurn := by
  let hashing := nonzeroSha256Hashing
  constructor
  · decide +kernel
  · decide +kernel
  · decide +kernel
  · decide +kernel
  · decide +kernel
  · decide +kernel

omit [Hashing] in
theorem paidFor_burnToVault :
    letI := nonzeroSha256Hashing; PaidFor claimOfBurnToVault burnToVault := by
  let hashing := nonzeroSha256Hashing
  constructor
  · decide +kernel
  · decide +kernel
  · decide +kernel
  · decide +kernel
  · decide +kernel
  · intro other
    exact absurd rfl other

omit [Hashing] in
/-- The sample burn can be redeemed. -/
theorem finalized_burns_redeemable_sample : letI := nonzeroSha256Hashing
    let played := finalizedVault sampleClaim
    RedeemsWithProof (sampleView fun _ => true) sampleVault
      (exactToken sampleVault.self played.2.1) played.2.1 played.2.2 [sampleTransition] 0
      sampleBurn := by
  let hashing := nonzeroSha256Hashing
  have finalized := @finalizedBurn_first _ sampleTransition sampleBurn emptyBurnNode_apart rfl rfl
    rfl rfl paidFor_sampleBurn
  have other : sampleBurn.ethereumDestination ≠ sampleVault.self := by decide
  exact (finalized_burns_redeemable finalized).mpr other

omit [Hashing] in
/-- A burn to the vault is finalized, and it cannot be redeemed, with a token that pays the same
amount to every other account with room for it. -/
theorem burn_to_vault_stuck : letI := nonzeroSha256Hashing
    let played := finalizedVault claimOfBurnToVault
    let token := exactToken sampleVault.self played.2.1
    FinalizedBurn (sampleView fun _ => true) sampleVault .arbitrary token sampleHoldings played.1
      played.2.1 played.2.2 [transitionToVault] 0 burnToVault ∧
    (∀ recipient ≠ sampleVault.self, (played.2.1 recipient).toNat + 5 < 2 ^ 256 →
      PaysOut (sampleView fun _ => true) token sampleVault played.2.1 recipient 5) ∧
    ¬RedeemsWithProof (sampleView fun _ => true) sampleVault token played.2.1 played.2.2
      [transitionToVault] 0 burnToVault := by
  let hashing := nonzeroSha256Hashing
  refine ⟨@finalizedBurn_first _ transitionToVault burnToVault emptyBurnNode_apart rfl rfl rfl rfl
    paidFor_burnToVault, ?_, ?_⟩
  · intro recipient other room
    have held : (5 : Uint256).toNat ≤
        ((finalizedVault claimOfBurnToVault).2.1 sampleVault.self).toNat := by
      rw [paidFor_burnToVault.reserve]
    exact exactToken_paysOut other held room
  · rintro ⟨accumulator, proof, _, _, never⟩
    obtain ⟨⟨value, world', storage', returned⟩, _⟩ := never .zero
    obtain ⟨_, step⟩ := returns_vaultContract returned
    exact step.redeemable.recipient_other rfl

end Usdd.Verif

import Usdd.TypeScript.BurnClaims
import Usdd.Verif.VaultRuns
import Usdd.Verif.SharedPreimages
/-!
# Three validators of a burn claim

The crate and the client validate a claim before they make its leaf, and the vault before it pays.
The two off-chain validators admit the same claims and make the leaf of the vault. They do not
know the burn limit or the vault's address, so the vault refuses some of the claims they admit.
-/
namespace Usdd.Verif

open Usdd.Foundation Usdd.Core Usdd.Contracts

variable [Hashing] {vault : Vault} {claim : BurnClaim} {burnIndex : UInt64}

/-- The checks of `USDDVaultV1.redeem` that do not depend on the state of the vault. -/
def checkBurnClaim (vault : Vault) (claim : BurnClaim) : Except VaultError Unit := do
  rejectIf (claim.protocolVersion ≠ Contracts.protocolVersion)
    (VaultError.wrongProtocolVersion claim.protocolVersion)
  rejectIf (claim.elementsGenesisHash ≠ vault.elementsGenesisHash)
    (VaultError.wrongElementsGenesisHash claim.elementsGenesisHash)
  rejectIf (claim.usddAssetId ≠ vault.usddAssetId) (VaultError.wrongUsddAssetId claim.usddAssetId)
  rejectIf (claim.vaultId ≠ vault.vaultId) (VaultError.wrongVaultId claim.vaultId)
  let expectedBurnId := vault.computeBurnId claim.burnTxid claim.burnVout
  rejectIf (claim.burnId ≠ expectedBurnId) (VaultError.wrongBurnId expectedBurnId claim.burnId)
  rejectIf (claim.burnId = .zero ∨ claim.amountUSDT6 = 0 ∨
      claim.amountUSDT6 > maxBurnAmountUSDT6 ∨ claim.recipient = .zero ∨
      claim.recipient = vault.self)
    VaultError.invalidBurnClaim

/-- A claim that the vault can pay in some state. -/
structure Claimable (vault : Vault) (claim : BurnClaim) : Prop where
  version : claim.protocolVersion = Contracts.protocolVersion
  genesis : claim.elementsGenesisHash = vault.elementsGenesisHash
  asset : claim.usddAssetId = vault.usddAssetId
  vaultId : claim.vaultId = vault.vaultId
  burnId : claim.burnId = vault.computeBurnId claim.burnTxid claim.burnVout
  burnId_ne : claim.burnId ≠ .zero
  amount_pos : claim.amountUSDT6 ≠ 0
  amount_le : claim.amountUSDT6.toNat ≤ maxBurnAmountUSDT6.toNat
  recipient_ne : claim.recipient ≠ .zero
  recipient_other : claim.recipient ≠ vault.self

theorem checkBurnClaim_eq_ok : checkBurnClaim vault claim = .ok () ↔ Claimable vault claim := by
  simp only [checkBurnClaim]
  simp only [↓then_eq_ok, rejectIf_eq_ok, not_or, ne_eq, not_not, gt_iff_lt,
    UInt64.lt_iff_toNat_lt, Nat.not_lt]
  constructor
  · rintro ⟨version, genesis, asset, vaultId, burnId, set, positive, bounded, recipient, other⟩
    exact ⟨version, genesis, asset, vaultId, burnId, set, positive, bounded, recipient, other⟩
  · intro claimable
    exact ⟨claimable.version, claimable.genesis, claimable.asset, claimable.vaultId,
      claimable.burnId, claimable.burnId_ne, claimable.amount_pos, claimable.amount_le,
      claimable.recipient_ne, claimable.recipient_other⟩

/-- The vault redeems no claim, in no state, that these checks refuse. -/
theorem claimable_of_checkRedeem {storage : VaultStorage} {merkleBranch : Vector Hash32 64}
    (checked : checkRedeem vault storage claim burnIndex merkleBranch = .ok ()) :
    checkBurnClaim vault claim = .ok () := by
  have redeemable := checkRedeem_eq_ok.mp checked
  rw [checkBurnClaim_eq_ok]
  exact ⟨redeemable.version, redeemable.genesis, redeemable.asset, redeemable.vaultId,
    redeemable.burnId, redeemable.burnId_ne, redeemable.amount_pos, redeemable.amount_le,
    redeemable.recipient_ne, redeemable.recipient_other⟩

/-- The client's record of a claim at an index. It has no protocol version: the client makes
leaves of the current one. -/
def StandsFor (value : TypeScript.SolidityBurnClaim) (claim : BurnClaim) (burnIndex : UInt64) :
    Prop :=
  claim.protocolVersion = Contracts.protocolVersion ∧
    value = .ofCore (toCoreClaim claim) burnIndex

/-- The validators of the crate and of the client agree on a claim, they make the vault's leaf of
it, and if they make one then the vault's own checks pass. -/
structure BurnValidatorsAgree (vault : Vault) (claim : BurnClaim) (burnIndex : UInt64) : Prop where
  same : ∀ leaf : Hash32, (toCoreClaim claim).burnLeaf burnIndex = .ok leaf ↔
    ∃ value, StandsFor value claim burnIndex ∧
      TypeScript.solidityBurnLeaf value = .ok leaf.bytes
  made : ∀ leaf, (toCoreClaim claim).burnLeaf burnIndex = .ok leaf →
    leaf = hashBurnLeaf claim burnIndex
  payable : ∀ leaf, (toCoreClaim claim).burnLeaf burnIndex = .ok leaf →
    checkBurnClaim vault claim = .ok ()

/-- The two off-chain validators make the same leaves, and no others. -/
theorem burnLeaf_iff_solidityBurnLeaf {leaf : Hash32} :
    (toCoreClaim claim).burnLeaf burnIndex = .ok leaf ↔
      ∃ value, StandsFor value claim burnIndex ∧
        TypeScript.solidityBurnLeaf value = .ok leaf.bytes := by
  rw [SolidityBurnClaim.burnLeaf_eq_ok]
  constructor
  · rintro ⟨valid, made⟩
    have version : claim.protocolVersion = Contracts.protocolVersion := valid.version
    refine ⟨_, ⟨version, rfl⟩, ?_⟩
    rw [TypeScript.solidityBurnLeaf_ofCore version, made]
    exact ⟨valid, rfl⟩
  · rintro ⟨value, ⟨version, rfl⟩, returned⟩
    rw [TypeScript.solidityBurnLeaf_ofCore version] at returned
    exact ⟨returned.1, FixedBytes.ext returned.2⟩

/-- A valid claim with the ids of the vault passes the vault's checks if its amount is within the
burn limit and it does not pay the vault. -/
theorem claimable_of_valid (genesis : claim.elementsGenesisHash = vault.elementsGenesisHash)
    (asset : claim.usddAssetId = vault.usddAssetId) (vaultId : claim.vaultId = vault.vaultId)
    (valid : (toCoreClaim claim).Valid)
    (bounded : claim.amountUSDT6.toNat ≤ maxBurnAmountUSDT6.toNat)
    (other : claim.recipient ≠ vault.self) : Claimable vault claim where
  version := valid.version
  genesis := genesis
  asset := asset
  vaultId := vaultId
  burnId := by
    rw [computeBurnId_eq, ← genesis]
    exact valid.binds.symm
  burnId_ne := valid.id_ne
  amount_pos := valid.amount_ne
  amount_le := bounded
  recipient_ne := valid.recipient
  recipient_other := other

/-- Where the validators agree, the vault's checks pass on every valid claim. -/
theorem BurnValidatorsAgree.claimable (agree : BurnValidatorsAgree vault claim burnIndex)
    (valid : (toCoreClaim claim).Valid) : Claimable vault claim := by
  have made : (toCoreClaim claim).burnLeaf burnIndex =
      .ok (hashBytes ((toCoreClaim claim).burnLeafPreimage burnIndex)) :=
    SolidityBurnClaim.burnLeaf_eq_ok.mpr ⟨valid, rfl⟩
  exact checkBurnClaim_eq_ok.mp (agree.payable _ made)

/-- The validators agree on a claim exactly if its amount is within the burn limit and its
recipient is not the vault, or the claim breaks one of the rules that the crate does check. -/
theorem burn_validators_agree_iff
    (genesis : claim.elementsGenesisHash = vault.elementsGenesisHash)
    (asset : claim.usddAssetId = vault.usddAssetId) (vaultId : claim.vaultId = vault.vaultId) :
    BurnValidatorsAgree vault claim burnIndex ↔
      ((toCoreClaim claim).Valid →
        claim.amountUSDT6.toNat ≤ 20000000000000 ∧ claim.recipient ≠ vault.self) := by
  constructor
  · intro agree valid
    have claimable := agree.claimable valid
    exact ⟨claimable.amount_le, claimable.recipient_other⟩
  · intro limits
    constructor
    · exact fun leaf => burnLeaf_iff_solidityBurnLeaf
    · intro leaf made
      rw [hashBurnLeaf_eq]
      exact (SolidityBurnClaim.burnLeaf_eq_ok.mp made).2
    · intro leaf made
      have valid := (SolidityBurnClaim.burnLeaf_eq_ok.mp made).1
      obtain ⟨bounded, other⟩ := limits valid
      exact checkBurnClaim_eq_ok.mpr
        (claimable_of_valid genesis asset vaultId valid bounded other)

section Sample

/-- A claim of the sample vault. -/
def vaultClaim (amountUSDT6 : UInt64) (recipient : EthAddress) : BurnClaim where
  protocolVersion := Contracts.protocolVersion
  elementsGenesisHash := sampleVault.elementsGenesisHash
  usddAssetId := sampleVault.usddAssetId
  vaultId := sampleVault.vaultId
  burnTxid := .ofNat 32 0xf1
  burnVout := 0
  burnId := sampleVault.computeBurnId (.ofNat 32 0xf1) 0
  amountUSDT6 := amountUSDT6
  recipient := recipient

omit [Hashing] in
/-- The largest amount the vault pays, to another account. -/
theorem burn_validators_agree_sample :
    letI := sha256Hashing
    BurnValidatorsAgree sampleVault (vaultClaim 20000000000000 (.ofNat 20 0xc2)) 3 := by
  let := sha256Hashing
  exact (burn_validators_agree_iff rfl rfl rfl).mpr fun _ => ⟨by decide, by decide +kernel⟩

omit [Hashing] in
/-- One micro-unit over the limit is not refused off chain. -/
theorem burn_validators_disagree :
    letI := sha256Hashing
    (toCoreClaim (vaultClaim 20000000000001 (.ofNat 20 0xc2))).Valid ∧
      ¬BurnValidatorsAgree sampleVault (vaultClaim 20000000000001 (.ofNat 20 0xc2)) 3 := by
  let := sha256Hashing
  have valid : (toCoreClaim (vaultClaim 20000000000001 (.ofNat 20 0xc2))).Valid := by
    constructor <;> decide +kernel
  refine ⟨valid, fun agree => ?_⟩
  exact absurd (agree.claimable valid).amount_le (by decide)

end Sample

end Usdd.Verif

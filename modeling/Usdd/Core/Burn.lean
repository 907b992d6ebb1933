import Usdd.Core.Encoding
import Usdd.Core.Limits
/-!
# Burns and their Solidity claims

A burn destroys USDD on Elements and names the Ethereum address its USDT goes to. Its Solidity
claim is the fixed-width record the vault pays against, identified by the burn's outpoint, and
the burn leaf is what the accumulator holds for it at an index.
-/
namespace Usdd.Core

open Usdd.Foundation

/-- `types::SOLIDITY_BURN_LEAF_DOMAIN`. -/
def solidityBurnLeafDomain : Hash32 :=
  .ofNat 32 0xb15e96910e56013406f4167f79c8b6e369c3abf0b409d50a63e99e095b25fb94

/-- `types::BURN_ID_DOMAIN`. -/
def burnIdDomain : Hash32 :=
  .ofNat 32 0x5811f3ff8b8f31fb49ffb91afab13197c3d72e926549ae29dbda46c6998a3e45

/-- `types::OutPoint`. -/
structure OutPoint where
  txid : Hash32
  vout : UInt32
deriving DecidableEq

/-- `types::SolidityBurnClaim`. -/
@[ext]
structure SolidityBurnClaim where
  protocolVersion : UInt32
  elementsGenesisHash : Hash32
  usddAssetId : Hash32
  vaultId : Hash32
  burnTxidDisplay : Hash32
  burnVout : UInt32
  burnId : Hash32
  amountUsdtMicro : UInt64
  recipient : EthAddress
deriving DecidableEq

/-- The preimage of a burn identifier, in `Burn::redemption_id` and in
`SolidityBurnClaim::validate` alike. -/
def burnIdPreimage (genesis txid : Hash32) (vout : UInt32) : List UInt8 :=
  [encode burnIdDomain, encode genesis, encode txid, encode vout].flatten

namespace SolidityBurnClaim

variable [Hashing]

/-- `SolidityBurnClaim::validate`. -/
def validate (claim : SolidityBurnClaim) : Except DecodeError Unit := do
  rejectIf (claim.protocolVersion ≠ Core.protocolVersion ∨ claim.elementsGenesisHash = .zero ∨
      claim.usddAssetId = .zero ∨ claim.vaultId = .zero ∨ claim.burnTxidDisplay = .zero ∨
      claim.burnId = .zero ∨ claim.amountUsdtMicro = 0 ∨ claim.recipient = .zero)
    (.invalidValue "invalid Solidity burn claim")
  rejectIf (hashBytes (burnIdPreimage claim.elementsGenesisHash claim.burnTxidDisplay
      claim.burnVout) ≠ claim.burnId)
    (.invalidValue "burn ID does not bind outpoint")

/-- The preimage of `SolidityBurnClaim::burn_leaf`. -/
def burnLeafPreimage (claim : SolidityBurnClaim) (burnIndex : UInt64) : List UInt8 :=
  [encode (0 : UInt8), encode solidityBurnLeafDomain, encode claim.protocolVersion,
    encode claim.elementsGenesisHash, encode claim.usddAssetId, encode claim.vaultId,
    encode claim.burnId, encode burnIndex, encode claim.amountUsdtMicro,
    encode claim.recipient].flatten

/-- `SolidityBurnClaim::burn_leaf`. -/
def burnLeaf (claim : SolidityBurnClaim) (burnIndex : UInt64) : Except DecodeError Hash32 := do
  claim.validate
  return hashBytes (claim.burnLeafPreimage burnIndex)

/-- What a validated claim satisfies. -/
structure Valid (claim : SolidityBurnClaim) : Prop where
  version : claim.protocolVersion = Core.protocolVersion
  genesis : claim.elementsGenesisHash ≠ .zero
  asset : claim.usddAssetId ≠ .zero
  vault : claim.vaultId ≠ .zero
  txid : claim.burnTxidDisplay ≠ .zero
  id_ne : claim.burnId ≠ .zero
  amount_ne : claim.amountUsdtMicro ≠ 0
  recipient : claim.recipient ≠ .zero
  binds : hashBytes (burnIdPreimage claim.elementsGenesisHash claim.burnTxidDisplay
    claim.burnVout) = claim.burnId

theorem validate_eq_ok {claim : SolidityBurnClaim} : claim.validate = .ok () ↔ claim.Valid := by
  simp only [validate]
  simp only [↓then_eq_ok, rejectIf_eq_ok, not_or, ne_eq, not_not]
  constructor
  · rintro ⟨⟨version, genesis, asset, vault, txid, id, amount, recipient⟩, binds⟩
    exact ⟨version, genesis, asset, vault, txid, id, amount, recipient, binds⟩
  · intro valid
    exact ⟨⟨valid.version, valid.genesis, valid.asset, valid.vault, valid.txid, valid.id_ne,
      valid.amount_ne, valid.recipient⟩, valid.binds⟩

theorem burnLeaf_eq_ok {claim : SolidityBurnClaim} {burnIndex : UInt64} {leaf : Hash32} :
    claim.burnLeaf burnIndex = .ok leaf ↔
      claim.Valid ∧ leaf = hashBytes (claim.burnLeafPreimage burnIndex) := by
  simp only [burnLeaf]
  simp only [↓then_eq_ok, pure_eq_ok, validate_eq_ok]
  exact and_congr_right fun _ => eq_comm

end SolidityBurnClaim

/-- `types::Burn`. -/
structure Burn where
  vaultId : Hash32
  usddAsset : Hash32
  usddAmountBase : UInt64
  usdtAmountMicro : UInt64
  burnOutpoint : OutPoint
  ethereumDestination : EthAddress
deriving DecidableEq

namespace Burn

/-- `Burn::validate`. -/
def validate (burn : Burn) : Except DecodeError Unit := do
  rejectIf (burn.vaultId = .zero ∨ burn.ethereumDestination = .zero)
    (.invalidValue "invalid vault or destination")
  rejectIf (burn.usddAsset = .zero ∨ burn.burnOutpoint.txid = .zero ∨ burn.usddAmountBase = 0)
    (.invalidValue "invalid burn asset, outpoint, or amount")
  rejectIf (usddBaseToUsdtMicro burn.usddAmountBase ≠ some burn.usdtAmountMicro)
    (.invalidValue "burn is not exactly convertible to micro-USDT")
  rejectIf (burn.usddAmountBase > maxBurnAmountUsddBase)
    (.invalidValue "burn exceeds Elements explicit-output limit")

/-- `Burn::redemption_id`. -/
def redemptionId [Hashing] (burn : Burn) (elementsGenesis : Hash32) : Hash32 :=
  hashBytes (burnIdPreimage elementsGenesis burn.burnOutpoint.txid burn.burnOutpoint.vout)

/-- `Burn::solidity_claim`. -/
def solidityClaim [Hashing] (burn : Burn) (elementsGenesis : Hash32) : SolidityBurnClaim where
  protocolVersion := Core.protocolVersion
  elementsGenesisHash := elementsGenesis
  usddAssetId := burn.usddAsset
  vaultId := burn.vaultId
  burnTxidDisplay := burn.burnOutpoint.txid
  burnVout := burn.burnOutpoint.vout
  burnId := burn.redemptionId elementsGenesis
  amountUsdtMicro := burn.usdtAmountMicro
  recipient := burn.ethereumDestination

/-- What a validated burn satisfies. -/
structure Valid (burn : Burn) : Prop where
  vault : burn.vaultId ≠ .zero
  destination : burn.ethereumDestination ≠ .zero
  asset : burn.usddAsset ≠ .zero
  txid : burn.burnOutpoint.txid ≠ .zero
  amount_ne : burn.usddAmountBase ≠ 0
  converted : burn.usddAmountBase.toNat = 100 * burn.usdtAmountMicro.toNat
  amount_le : burn.usddAmountBase.toNat ≤ 2000000000000000

theorem validate_eq_ok {burn : Burn} : burn.validate = .ok () ↔ burn.Valid := by
  simp only [validate]
  simp only [↓then_eq_ok, rejectIf_eq_ok, not_or, ne_eq, not_not, usddBaseToUsdtMicro_eq_some,
    gt_iff_lt, UInt64.lt_iff_toNat_lt, maxBurnAmountUsddBase_toNat, Nat.not_lt]
  constructor
  · rintro ⟨⟨vault, destination⟩, ⟨asset, txid, amountNe⟩, converted, amountLe⟩
    exact ⟨vault, destination, asset, txid, amountNe, converted, amountLe⟩
  · intro valid
    exact ⟨⟨valid.vault, valid.destination⟩, ⟨valid.asset, valid.txid, valid.amount_ne⟩,
      valid.converted, valid.amount_le⟩

/-- The micro-USDT amount of a valid burn is positive and within the burn limit. -/
theorem Valid.amount_bounds {burn : Burn} (valid : burn.Valid) :
    0 < burn.usdtAmountMicro.toNat ∧ burn.usdtAmountMicro.toNat ≤ 20000000000000 := by
  have positive : burn.usddAmountBase.toNat ≠ 0 := fun zero =>
    valid.amount_ne (UInt64.toNat_inj.mp zero)
  have converted := valid.converted
  have bound := valid.amount_le
  omega

/-- The claim of a valid burn is valid as soon as its identifier and the genesis are not zero. -/
theorem Valid.claim [Hashing] {burn : Burn} (valid : burn.Valid) {elementsGenesis : Hash32}
    (genesis : elementsGenesis ≠ .zero) (id_ne : burn.redemptionId elementsGenesis ≠ .zero) :
    (burn.solidityClaim elementsGenesis).Valid where
  version := rfl
  genesis := genesis
  asset := valid.asset
  vault := valid.vault
  txid := valid.txid
  id_ne := id_ne
  amount_ne zero := by
    have positive := valid.amount_bounds.1
    rw [show burn.usdtAmountMicro = 0 from zero] at positive
    exact absurd positive (by decide)
  recipient := valid.destination
  binds := rfl

end Burn

end Usdd.Core

import Usdd.Core.Encoding
import Usdd.Core.Limits
/-!
# Deposits, finality witnesses and mint batches

A deposit is the record the vault commits to; a finality witness is what the Ethereum guest
proved about the chain that holds it; a mint output is what the Elements controller pays for
it. A batch is a run of outputs with consecutive nonces and checked totals. Every validator is
the sequence of guards of its source, and its law names the facts the guards establish.
-/
namespace Usdd.Core

open Usdd.Foundation

/-- `types::SOLIDITY_DEPOSIT_ID_DOMAIN`. -/
def solidityDepositIdDomain : Hash32 :=
  .ofNat 32 0xc0bb4b992ddfe42d70536346a594fd9750dbf7e10534ed34aecdc78d203b88e0

/-- A `u64` as the 32-byte word of the Solidity ABI: 24 zero bytes and the big-endian value. -/
def paddedWord (value : UInt64) : List UInt8 := List.replicate 24 0 ++ encode value

@[simp]
theorem paddedWord_length (value : UInt64) : (paddedWord value).length = 32 := by
  simp [paddedWord]

/-- `types::VaultDeposit`. -/
@[ext]
structure VaultDeposit where
  ethereumChainId : UInt64
  vault : EthAddress
  usdt : EthAddress
  nonce : UInt64
  depositor : EthAddress
  usdtAmountMicro : UInt64
  elementsScript : List UInt8
  userSalt : Hash32
deriving DecidableEq

namespace VaultDeposit

/-- `VaultDeposit::validate`. -/
def validate (deposit : VaultDeposit) : Except DecodeError Unit := do
  rejectIf (deposit.ethereumChainId = 0) (.invalidValue "Ethereum chain ID is zero")
  rejectIf (deposit.vault = .zero ∨ deposit.usdt = .zero ∨ deposit.depositor = .zero)
    (.invalidValue "zero Ethereum address")
  rejectIf (deposit.usdtAmountMicro = 0 ∨ deposit.usdtAmountMicro > maxDepositAmountUsdtMicro ∨
      usdtMicroToUsddBase deposit.usdtAmountMicro = none)
    (.invalidValue "invalid, excessive, or overflowing USDT amount")
  rejectIf (deposit.elementsScript = [] ∨ deposit.elementsScript.length > maxElementsScriptLength)
    (.invalidValue "invalid Elements script length")

/-- What a validated deposit satisfies. -/
structure Valid (deposit : VaultDeposit) : Prop where
  chain : deposit.ethereumChainId ≠ 0
  vault : deposit.vault ≠ .zero
  usdt : deposit.usdt ≠ .zero
  depositor : deposit.depositor ≠ .zero
  amount_pos : 0 < deposit.usdtAmountMicro.toNat
  amount_le : deposit.usdtAmountMicro.toNat ≤ 20000000000000
  script_ne : deposit.elementsScript ≠ []
  script_le : deposit.elementsScript.length ≤ 128

/-- Validation succeeds exactly on valid deposits; within the deposit limit the conversion
never overflows, so its own check adds nothing. -/
theorem validate_eq_ok {deposit : VaultDeposit} :
    deposit.validate = .ok () ↔ deposit.Valid := by
  have positive : deposit.usdtAmountMicro ≠ 0 ↔ 0 < deposit.usdtAmountMicro.toNat := by
    rw [ne_eq, ← UInt64.toNat_inj]
    exact Nat.pos_iff_ne_zero.symm
  have within : ¬deposit.usdtAmountMicro > maxDepositAmountUsdtMicro ↔
      deposit.usdtAmountMicro.toNat ≤ 20000000000000 := by
    rw [gt_iff_lt, UInt64.lt_iff_toNat_lt, maxDepositAmountUsdtMicro_toNat, Nat.not_lt]
  have short : ¬deposit.elementsScript.length > maxElementsScriptLength ↔
      deposit.elementsScript.length ≤ 128 := Nat.not_lt
  simp only [validate]
  simp only [↓then_eq_ok, rejectIf_eq_ok, not_or, ← ne_eq, positive, within,
    short]
  constructor
  · rintro ⟨chain, ⟨vault, usdt, depositor⟩, ⟨amountPos, amountLe, _⟩, scriptNe, scriptLe⟩
    exact ⟨chain, vault, usdt, depositor, amountPos, amountLe, scriptNe, scriptLe⟩
  · intro valid
    obtain ⟨base, converted, _⟩ := usdtMicroToUsddBase_of_le valid.amount_le
    refine ⟨valid.chain, ⟨valid.vault, valid.usdt, valid.depositor⟩,
      ⟨valid.amount_pos, valid.amount_le, ?_⟩, valid.script_ne, valid.script_le⟩
    simp [converted]

/-- `VaultDeposit::elements_script_hash`. -/
def elementsScriptHash [Hashing] (deposit : VaultDeposit) : Hash32 :=
  hashBytes deposit.elementsScript

/-- The preimage of `VaultDeposit::deposit_id`. -/
def depositPreimage [Hashing] (deposit : VaultDeposit) : List UInt8 :=
  [encode solidityDepositIdDomain, encode protocolVersion, paddedWord deposit.ethereumChainId,
    encode deposit.vault, encode deposit.usdt, encode deposit.nonce, encode deposit.depositor,
    encode deposit.usdtAmountMicro, encode deposit.elementsScriptHash,
    encode deposit.userSalt].flatten

/-- `VaultDeposit::deposit_id`. -/
def depositId [Hashing] (deposit : VaultDeposit) : Hash32 := hashBytes deposit.depositPreimage

/-- `VaultDeposit::usdd_amount_base`; the Rust program aborts where the conversion overflows,
which validated deposits never reach. -/
def usddAmountBase (deposit : VaultDeposit) : UInt64 :=
  (usdtMicroToUsddBase deposit.usdtAmountMicro).getD 0

theorem usddAmountBase_toNat {deposit : VaultDeposit} (valid : deposit.Valid) :
    deposit.usddAmountBase.toNat = 100 * deposit.usdtAmountMicro.toNat := by
  obtain ⟨base, converted, exact⟩ := usdtMicroToUsddBase_of_le valid.amount_le
  simp [usddAmountBase, converted, exact]

end VaultDeposit

/-- `types::EthereumFinalityWitness`. -/
structure EthereumFinalityWitness where
  ethereumLightClientDigest : Hash32
  finalizedBeaconSlot : UInt64
  finalizedBeaconRoot : Hash32
  finalizedExecutionBlock : Hash32
  finalizedExecutionStateRoot : Hash32
  executionBlockNumber : UInt64
  executionBlockTimestamp : UInt64
deriving DecidableEq

namespace EthereumFinalityWitness

/-- `EthereumFinalityWitness::validate`. -/
def validate (witness : EthereumFinalityWitness) : Except DecodeError Unit := do
  rejectIf (witness.finalizedBeaconSlot = 0 ∨ witness.ethereumLightClientDigest = .zero ∨
      witness.finalizedBeaconRoot = .zero ∨ witness.finalizedExecutionBlock = .zero ∨
      witness.finalizedExecutionStateRoot = .zero)
    (.invalidValue "invalid Ethereum finality witness")

/-- What a validated witness satisfies. -/
structure Valid (witness : EthereumFinalityWitness) : Prop where
  slot : witness.finalizedBeaconSlot ≠ 0
  digest : witness.ethereumLightClientDigest ≠ .zero
  beaconRoot : witness.finalizedBeaconRoot ≠ .zero
  block : witness.finalizedExecutionBlock ≠ .zero
  stateRoot : witness.finalizedExecutionStateRoot ≠ .zero

theorem validate_eq_ok {witness : EthereumFinalityWitness} :
    witness.validate = .ok () ↔ witness.Valid := by
  simp only [validate, rejectIf_eq_ok, not_or, ← ne_eq]
  constructor
  · rintro ⟨slot, digest, beaconRoot, block, stateRoot⟩
    exact ⟨slot, digest, beaconRoot, block, stateRoot⟩
  · intro valid
    exact ⟨valid.slot, valid.digest, valid.beaconRoot, valid.block, valid.stateRoot⟩

end EthereumFinalityWitness

/-- `types::MintOutput`. -/
@[ext]
structure MintOutput where
  depositId : Hash32
  nonce : UInt64
  usdtAmountMicro : UInt64
  usddAmountBase : UInt64
  elementsScript : List UInt8
deriving DecidableEq

namespace MintOutput

/-- `MintOutput::from_deposit`. -/
def fromDeposit [Hashing] (deposit : VaultDeposit) : Except DecodeError MintOutput := do
  deposit.validate
  return {
    depositId := deposit.depositId
    nonce := deposit.nonce
    usdtAmountMicro := deposit.usdtAmountMicro
    usddAmountBase := deposit.usddAmountBase
    elementsScript := deposit.elementsScript }

/-- `MintOutput::validate`. -/
def validate (output : MintOutput) : Except DecodeError Unit := do
  rejectIf (output.depositId = .zero) (.invalidValue "zero deposit ID")
  rejectIf (output.usdtAmountMicro = 0 ∨ output.usdtAmountMicro > maxDepositAmountUsdtMicro ∨
      usdtMicroToUsddBase output.usdtAmountMicro ≠ some output.usddAmountBase)
    (.invalidValue "USDT/USDD conversion mismatch")
  rejectIf (output.elementsScript = [] ∨ output.elementsScript.length > maxElementsScriptLength)
    (.invalidValue "invalid Elements script length")

/-- What a validated output satisfies. -/
structure Valid (output : MintOutput) : Prop where
  id_ne : output.depositId ≠ .zero
  amount_pos : 0 < output.usdtAmountMicro.toNat
  amount_le : output.usdtAmountMicro.toNat ≤ 20000000000000
  converted : output.usddAmountBase.toNat = 100 * output.usdtAmountMicro.toNat
  script_ne : output.elementsScript ≠ []
  script_le : output.elementsScript.length ≤ 128

theorem validate_eq_ok {output : MintOutput} : output.validate = .ok () ↔ output.Valid := by
  have positive : output.usdtAmountMicro ≠ 0 ↔ 0 < output.usdtAmountMicro.toNat := by
    rw [ne_eq, ← UInt64.toNat_inj]
    exact Nat.pos_iff_ne_zero.symm
  have within : ¬output.usdtAmountMicro > maxDepositAmountUsdtMicro ↔
      output.usdtAmountMicro.toNat ≤ 20000000000000 := by
    rw [gt_iff_lt, UInt64.lt_iff_toNat_lt, maxDepositAmountUsdtMicro_toNat, Nat.not_lt]
  have short : ¬output.elementsScript.length > maxElementsScriptLength ↔
      output.elementsScript.length ≤ 128 := Nat.not_lt
  simp only [validate]
  simp only [↓then_eq_ok, rejectIf_eq_ok, not_or, ← ne_eq, positive, within,
    short, not_not, usdtMicroToUsddBase_eq_some]
  constructor
  · rintro ⟨id, ⟨amountPos, amountLe, converted⟩, scriptNe, scriptLe⟩
    exact ⟨id, amountPos, amountLe, converted, scriptNe, scriptLe⟩
  · intro valid
    exact ⟨valid.id_ne, ⟨valid.amount_pos, valid.amount_le, valid.converted⟩,
      valid.script_ne, valid.script_le⟩

/-- The output of a deposit copies the deposit's fields. -/
theorem fromDeposit_eq_ok [Hashing] {deposit : VaultDeposit} {output : MintOutput} :
    fromDeposit deposit = .ok output ↔ deposit.Valid ∧ output =
      ⟨deposit.depositId, deposit.nonce, deposit.usdtAmountMicro, deposit.usddAmountBase,
        deposit.elementsScript⟩ := by
  simp only [fromDeposit]
  simp only [↓then_eq_ok, pure_eq_ok, VaultDeposit.validate_eq_ok]
  exact and_congr_right fun _ => eq_comm

end MintOutput

end Usdd.Core

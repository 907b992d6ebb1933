import Usdd.Foundation.Checks
/-!
# Frozen limits and the USDT/USDD conversion

One micro-USDT is one hundred USDD base units. The limits are those of the protocol version:
each is the source's constant, and the conversions are exact or absent.
-/
namespace Usdd.Core

open Usdd.Foundation

/-- `types::PROTOCOL_VERSION`. -/
def protocolVersion : UInt32 := 1

/-- `types::MAX_MINT_BATCH_SIZE`. -/
def maxMintBatchSize : Nat := 64

/-- `types::MAX_ELEMENTS_SCRIPT_LENGTH`. -/
def maxElementsScriptLength : Nat := 128

/-- `lib::DRIVECHAIN_SLOT`. -/
def drivechainSlot : UInt8 := 24

/-- `lib::USDT_SCALE`. -/
def usdtScale : UInt64 := 1000000

/-- `lib::USDD_SCALE`. -/
def usddScale : UInt64 := 100000000

/-- `lib::USDD_UNITS_PER_USDT_MICRO`. -/
def usddUnitsPerUsdtMicro : UInt64 := 100

/-- `lib::MAX_ETHEREUM_FINALITY_SLOT_GAP`. -/
def maxEthereumFinalitySlotGap : UInt64 := 4096

/-- `lib::MAX_FINALIZED_TO_BMM_MTP_AGE_SECONDS`. -/
def maxFinalizedToBmmMtpAgeSeconds : UInt64 := 6 * 60 * 60

/-- `lib::MINIMUM_BITCOIN_CONFIRMATIONS`. -/
def minimumBitcoinConfirmations : UInt32 := 100

/-- `lib::MAX_BURN_APPENDS_PER_STATE_TRANSITION`. -/
def maxBurnAppendsPerStateTransition : Nat := 64

/-- `lib::ELEMENTS_MAX_EXPLICIT_OUTPUT_TOTAL_BASE`. -/
def elementsMaxExplicitOutputTotalBase : UInt64 := 21000000 * usddScale

/-- `lib::MINT_TRANSACTION_EXPLICIT_HEADROOM_BASE`. -/
def mintTransactionExplicitHeadroomBase : UInt64 := 1000000 * usddScale

/-- `lib::MAX_MINT_BATCH_USDD_BASE`. -/
def maxMintBatchUsddBase : UInt64 :=
  elementsMaxExplicitOutputTotalBase - mintTransactionExplicitHeadroomBase

/-- `lib::MAX_MINT_BATCH_USDT_MICRO`. -/
def maxMintBatchUsdtMicro : UInt64 := maxMintBatchUsddBase / usddUnitsPerUsdtMicro

/-- `lib::MAX_DEPOSIT_AMOUNT_USDT_MICRO`. -/
def maxDepositAmountUsdtMicro : UInt64 := maxMintBatchUsdtMicro

/-- `lib::MAX_BURN_AMOUNT_USDD_BASE`. -/
def maxBurnAmountUsddBase : UInt64 := maxMintBatchUsddBase

/-- `lib::MAX_BURN_AMOUNT_USDT_MICRO`. -/
def maxBurnAmountUsdtMicro : UInt64 := maxMintBatchUsdtMicro

/-- `lib::ACTIVE_LIABILITY_CAP_USDT_MICRO`. -/
def activeLiabilityCapUsdtMicro : UInt64 := 1000000000000000

/-- `lib::usdt_micro_to_usdd_base`. -/
def usdtMicroToUsddBase (amount : UInt64) : Option UInt64 :=
  checkedMul amount usddUnitsPerUsdtMicro

/-- `lib::usdd_base_to_usdt_micro`. -/
def usddBaseToUsdtMicro (amount : UInt64) : Option UInt64 :=
  if amount % usddUnitsPerUsdtMicro ≠ 0 then none else some (amount / usddUnitsPerUsdtMicro)

@[simp]
theorem maxMintBatchUsddBase_toNat : maxMintBatchUsddBase.toNat = 2000000000000000 := by decide

@[simp]
theorem maxMintBatchUsdtMicro_toNat : maxMintBatchUsdtMicro.toNat = 20000000000000 := by decide

@[simp]
theorem maxDepositAmountUsdtMicro_toNat :
    maxDepositAmountUsdtMicro.toNat = 20000000000000 := by decide

@[simp]
theorem maxBurnAmountUsddBase_toNat : maxBurnAmountUsddBase.toNat = 2000000000000000 := by decide

@[simp]
theorem maxEthereumFinalitySlotGap_toNat : maxEthereumFinalitySlotGap.toNat = 4096 := by decide

/-- Converting to USDD multiplies by one hundred exactly. -/
theorem usdtMicroToUsddBase_eq_some {amount base : UInt64} :
    usdtMicroToUsddBase amount = some base ↔ base.toNat = 100 * amount.toNat := by
  rw [usdtMicroToUsddBase, checkedMul_eq_some, Nat.mul_comm]
  rfl

/-- An amount within the deposit limit converts without overflow. -/
theorem usdtMicroToUsddBase_of_le {amount : UInt64}
    (within : amount.toNat ≤ 20000000000000) :
    ∃ base, usdtMicroToUsddBase amount = some base ∧ base.toNat = 100 * amount.toNat := by
  have fits : amount.toNat * usddUnitsPerUsdtMicro.toNat < 2 ^ 64 := by
    rw [show usddUnitsPerUsdtMicro.toNat = 100 from rfl]
    omega
  have computed : usdtMicroToUsddBase amount = some (amount * usddUnitsPerUsdtMicro) := if_pos fits
  exact ⟨_, computed, usdtMicroToUsddBase_eq_some.mp computed⟩

/-- Converting to USDT divides by one hundred and exists exactly for multiples. -/
theorem usddBaseToUsdtMicro_eq_some {base amount : UInt64} :
    usddBaseToUsdtMicro base = some amount ↔ base.toNat = 100 * amount.toNat := by
  have remainder : base % usddUnitsPerUsdtMicro = 0 ↔ base.toNat % 100 = 0 := by
    rw [← UInt64.toNat_inj, UInt64.toNat_mod]
    rfl
  have quotient : (base / usddUnitsPerUsdtMicro).toNat = base.toNat / 100 := UInt64.toNat_div _ _
  unfold usddBaseToUsdtMicro
  split
  · rename_i uneven
    rw [ne_eq, remainder] at uneven
    simp only [reduceCtorEq, false_iff]
    omega
  · rename_i even
    rw [ne_eq, not_not, remainder] at even
    rw [Option.some.injEq, ← UInt64.toNat_inj, quotient]
    omega

end Usdd.Core

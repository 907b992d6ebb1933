import Usdd.Core.Limits
import Usdd.Core.Hash
import Usdd.Foundation.IndexedFolds
/-!
# The accounting audit

`audit.rs`: an auditor reads the deposits, mints, burns and payouts of the two chains, checks
each list in its own loop, and checks that the totals conserve value. Maps and sets of the loops
are functions and lists; the 128-bit values of a report are numbers, since no sum or product of
64-bit words that the audit makes reaches 2^128.
-/
namespace Usdd.Core

open Usdd.Foundation

/-- `audit::AuditedDeposit`. -/
structure AuditedDeposit where
  nonce : UInt64
  depositId : Hash32
  amountUsdtMicro : UInt64
deriving DecidableEq

/-- `audit::AuditedMint`. -/
structure AuditedMint where
  nonce : UInt64
  depositId : Hash32
  amountUsddBase : UInt64
deriving DecidableEq

/-- `audit::AuditedBurn`. -/
structure AuditedBurn where
  burnIndex : UInt64
  burnId : Hash32
  amountUsddBase : UInt64
  recipient : EthAddress
deriving DecidableEq

/-- `audit::AuditedPayout`. -/
structure AuditedPayout where
  burnId : Hash32
  amountUsdtMicro : UInt64
  recipient : EthAddress
deriving DecidableEq

/-- `audit::AuditSnapshot`. -/
structure AuditSnapshot where
  actualVaultUsdtMicro : UInt64
  recordedBackingUsdtMicro : UInt64
  totalDepositedUsdtMicro : UInt64
  totalPaidUsdtMicro : UInt64
  totalMintedUsddBase : UInt64
  totalBurnedUsddBase : UInt64
  depositsUnmintedUsdtMicro : UInt64
  burnsUnpaidUsdtMicro : UInt64
deriving DecidableEq

/-- `audit::AuditReport`. -/
@[ext]
structure AuditReport where
  expectedBackingUsdtMicro : Nat
  recordedBackingUsdtMicro : Nat
  physicalSurplusUsdtMicro : Nat
  circulatingUsddBase : Nat
deriving DecidableEq

/-- `audit::AuditError`. -/
inductive AuditError where
  | nonConvertibleSupply (name : String)
  | burnExceedsMint
  | paidExceedsDeposited
  | depositMintPartitionMismatch (deposited accounted : Nat)
  | burnPayoutPartitionMismatch (burned accounted : Nat)
  | physicalReserveShortfall (required actual : Nat)
  | recordedBackingMismatch (expected actual : Nat)
  | conservationUnderflow
  | zeroAuditIdentifier (name : String)
  | nonSequentialDepositNonce (expected actual : UInt64)
  | nonSequentialMintNonce (expected actual : UInt64)
  | nonSequentialBurnIndex (expected actual : UInt64)
  | duplicateDepositId
  | duplicateBurnId
  | mintDoesNotMatchDeposit
  | payoutWithoutBurn
  | payoutDoesNotMatchBurn
  | duplicatePayout
  | auditTotalOverflow
deriving DecidableEq

/-- `u64::try_from` of a position. -/
def wordOfPosition (position : Nat) : Option UInt64 :=
  if position < 2 ^ 64 then some (UInt64.ofNat position) else none

/-- `u128::checked_sub`. -/
def checkedSub128 (left right : Nat) : Option Nat :=
  if right ≤ left then some (left - right) else none

/-- `u128::checked_add`. -/
def checkedAdd128 (left right : Nat) : Option Nat :=
  if left + right < 2 ^ 128 then some (left + right) else none

namespace AuditSnapshot

/-- `AuditSnapshot::verify`. -/
def verify (snapshot : AuditSnapshot) : Except AuditError AuditReport := do
  let mintedWord ← okOr (usddBaseToUsdtMicro snapshot.totalMintedUsddBase)
    (.nonConvertibleSupply "minted USDD")
  let burnedWord ← okOr (usddBaseToUsdtMicro snapshot.totalBurnedUsddBase)
    (.nonConvertibleSupply "burned USDD")
  let mintedMicro := mintedWord.toNat
  let burnedMicro := burnedWord.toNat
  rejectIf (burnedMicro > mintedMicro) .burnExceedsMint
  rejectIf (snapshot.totalPaidUsdtMicro > snapshot.totalDepositedUsdtMicro) .paidExceedsDeposited
  let depositPartition := mintedMicro + snapshot.depositsUnmintedUsdtMicro.toNat
  rejectIf (depositPartition ≠ snapshot.totalDepositedUsdtMicro.toNat)
    (.depositMintPartitionMismatch snapshot.totalDepositedUsdtMicro.toNat depositPartition)
  let burnPartition := snapshot.totalPaidUsdtMicro.toNat + snapshot.burnsUnpaidUsdtMicro.toNat
  rejectIf (burnPartition ≠ burnedMicro) (.burnPayoutPartitionMismatch burnedMicro burnPartition)
  let backingFromVault := (snapshot.totalDepositedUsdtMicro - snapshot.totalPaidUsdtMicro).toNat
  rejectIf (backingFromVault ≠ snapshot.recordedBackingUsdtMicro.toNat)
    (.recordedBackingMismatch backingFromVault snapshot.recordedBackingUsdtMicro.toNat)
  let expected ← okOr ((checkedSub128 mintedMicro burnedMicro).bind fun value =>
    (checkedAdd128 value snapshot.depositsUnmintedUsdtMicro.toNat).bind fun value =>
      checkedAdd128 value snapshot.burnsUnpaidUsdtMicro.toNat) .conservationUnderflow
  rejectIf (expected ≠ backingFromVault) (.recordedBackingMismatch expected backingFromVault)
  rejectIf (snapshot.actualVaultUsdtMicro.toNat < backingFromVault)
    (.physicalReserveShortfall backingFromVault snapshot.actualVaultUsdtMicro.toNat)
  return {
    expectedBackingUsdtMicro := expected
    recordedBackingUsdtMicro := backingFromVault
    physicalSurplusUsdtMicro := snapshot.actualVaultUsdtMicro.toNat - backingFromVault
    circulatingUsddBase := (mintedMicro - burnedMicro) * usddUnitsPerUsdtMicro.toNat }

end AuditSnapshot

/-- What the deposit loop keeps: `deposits_by_nonce`, `deposit_ids` and `total_deposited`. -/
structure DepositTable where
  byNonce : UInt64 → Option AuditedDeposit
  ids : List Hash32
  total : UInt64

/-- What the burn loop keeps: `burns_by_id` and `total_burned`. -/
structure BurnTable where
  byId : Hash32 → Option AuditedBurn
  total : UInt64

/-- What the payout loop keeps: `paid_ids` and `total_paid`. -/
structure PayoutTable where
  ids : List Hash32
  total : UInt64

/-- The body of the loop over deposits. -/
def auditDeposit (position : Nat) (table : DepositTable) (deposit : AuditedDeposit) :
    Except AuditError DepositTable := do
  let expected ← okOr (wordOfPosition position) .auditTotalOverflow
  rejectIf (deposit.nonce ≠ expected) (.nonSequentialDepositNonce expected deposit.nonce)
  rejectIf (deposit.depositId = .zero) (.zeroAuditIdentifier "deposit")
  rejectIf (table.ids.contains deposit.depositId) .duplicateDepositId
  rejectIf (deposit.amountUsdtMicro = 0) .mintDoesNotMatchDeposit
  let total ← okOr (checkedAdd table.total deposit.amountUsdtMicro) .auditTotalOverflow
  return {
    byNonce := Function.update table.byNonce deposit.nonce (some deposit)
    ids := deposit.depositId :: table.ids
    total }

/-- The body of the loop over mints. -/
def auditMint (table : DepositTable) (position : Nat) (totalMinted : UInt64) (mint : AuditedMint) :
    Except AuditError UInt64 := do
  let expected ← okOr (wordOfPosition position) .auditTotalOverflow
  rejectIf (mint.nonce ≠ expected) (.nonSequentialMintNonce expected mint.nonce)
  let deposit ← okOr (table.byNonce mint.nonce) .mintDoesNotMatchDeposit
  let expectedAmount ← okOr (checkedMul deposit.amountUsdtMicro usddUnitsPerUsdtMicro)
    .auditTotalOverflow
  rejectIf (mint.depositId ≠ deposit.depositId ∨ mint.amountUsddBase ≠ expectedAmount)
    .mintDoesNotMatchDeposit
  okOr (checkedAdd totalMinted mint.amountUsddBase) .auditTotalOverflow

/-- The body of the loop over burns. -/
def auditBurn (position : Nat) (table : BurnTable) (burn : AuditedBurn) :
    Except AuditError BurnTable := do
  let expected ← okOr (wordOfPosition position) .auditTotalOverflow
  rejectIf (burn.burnIndex ≠ expected) (.nonSequentialBurnIndex expected burn.burnIndex)
  rejectIf (burn.burnId = .zero ∨ burn.recipient = .zero) (.zeroAuditIdentifier "burn")
  rejectIf (usddBaseToUsdtMicro burn.amountUsddBase = none) (.nonConvertibleSupply "burned USDD")
  rejectIf (table.byId burn.burnId ≠ none) .duplicateBurnId
  let total ← okOr (checkedAdd table.total burn.amountUsddBase) .auditTotalOverflow
  return { byId := Function.update table.byId burn.burnId (some burn), total }

/-- The body of the loop over payouts, which has no use for the position. -/
def auditPayout (burns : BurnTable) (_ : Nat) (table : PayoutTable) (payout : AuditedPayout) :
    Except AuditError PayoutTable := do
  rejectIf (payout.burnId = .zero ∨ payout.recipient = .zero) (.zeroAuditIdentifier "payout")
  rejectIf (table.ids.contains payout.burnId) .duplicatePayout
  let burn ← okOr (burns.byId payout.burnId) .payoutWithoutBurn
  let expectedAmount ← okOr (usddBaseToUsdtMicro burn.amountUsddBase)
    (.nonConvertibleSupply "burned USDD")
  rejectIf (payout.amountUsdtMicro ≠ expectedAmount ∨ payout.recipient ≠ burn.recipient)
    .payoutDoesNotMatchBurn
  let total ← okOr (checkedAdd table.total payout.amountUsdtMicro) .auditTotalOverflow
  return { ids := payout.burnId :: table.ids, total }

/-- `audit::reconstruct_audit_snapshot`. -/
def reconstructAuditSnapshot (actualVaultUsdtMicro recordedBackingUsdtMicro : UInt64)
    (deposits : List AuditedDeposit) (mints : List AuditedMint) (burns : List AuditedBurn)
    (payouts : List AuditedPayout) : Except AuditError (AuditSnapshot × AuditReport) := do
  let deposited ← foldIndexed auditDeposit 0 ⟨fun _ => none, [], 0⟩ deposits
  let totalMinted ← foldIndexed (auditMint deposited) 0 0 mints
  let burned ← foldIndexed auditBurn 0 ⟨fun _ => none, 0⟩ burns
  let paid ← foldIndexed (auditPayout burned) 0 ⟨[], 0⟩ payouts
  let mintedMicro ← okOr (usddBaseToUsdtMicro totalMinted) (.nonConvertibleSupply "minted USDD")
  let burnedMicro ← okOr (usddBaseToUsdtMicro burned.total) (.nonConvertibleSupply "burned USDD")
  let unminted ← okOr (checkedSub deposited.total mintedMicro) .mintDoesNotMatchDeposit
  let unpaid ← okOr (checkedSub burnedMicro paid.total) .payoutDoesNotMatchBurn
  let snapshot : AuditSnapshot := {
    actualVaultUsdtMicro
    recordedBackingUsdtMicro
    totalDepositedUsdtMicro := deposited.total
    totalPaidUsdtMicro := paid.total
    totalMintedUsddBase := totalMinted
    totalBurnedUsddBase := burned.total
    depositsUnmintedUsdtMicro := unminted
    burnsUnpaidUsdtMicro := unpaid }
  let report ← snapshot.verify
  return (snapshot, report)

end Usdd.Core

import Usdd.Contracts.VaultLaws
/-!
# The history of a vault

What the vault is for, told without its storage: the deposits it accepted, the Elements states
it finalized and the burns it paid, each in order. The totals, the identities and the hash
chain are functions of these three lists. `VaultHistory.Sound` says which histories a vault may
have; how the storage records a history is `VaultHistory.Recorded`.
-/
namespace Usdd.Spec

open Usdd.Foundation Usdd.Core Usdd.Contracts

/-- A deposit the vault accepted, as it announced it. -/
structure AcceptedDeposit where
  nonce : UInt64
  depositor : EthAddress
  amountUSDT6 : UInt64
  elementsScript : List UInt8
  userSalt : Hash32
  depositId : Hash32
deriving DecidableEq

/-- A burn the vault paid. -/
structure Payout where
  claim : BurnClaim
  burnIndex : UInt64
deriving DecidableEq

/-- What a vault did. -/
@[ext]
structure VaultHistory where
  deposits : List AcceptedDeposit
  states : List ElementsBridgeState
  payouts : List Payout

/-- One entry of a vault's log. -/
abbrev VaultEntry := VaultCall × Except VaultError VaultResult

/-- The deposit an entry made. -/
def depositOf : VaultEntry → Option AcceptedDeposit
  | (.deposit depositor amountUSDT6 elementsScript userSalt, .ok (.deposited nonce depositId)) =>
    some ⟨nonce, depositor, amountUSDT6, elementsScript, userSalt, depositId⟩
  | _ => none

/-- The state an entry finalized. -/
def stateOf : VaultEntry → Option ElementsBridgeState
  | (.advanceElementsState _ next _, .ok _) => some next
  | _ => none

/-- The burn an entry paid. -/
def payoutOf : VaultEntry → Option Payout
  | (.redeem _ claim burnIndex _, .ok _) => some ⟨claim, burnIndex⟩
  | _ => none

/-- A failed call leaves no history. -/
theorem entry_failed (call : VaultCall) (error : VaultError) :
    depositOf (call, .error error) = none ∧ stateOf (call, .error error) = none ∧
      payoutOf (call, .error error) = none := by
  cases call <;> exact ⟨rfl, rfl, rfl⟩

namespace VaultHistory

/-- The history a log tells. -/
def ofLog (log : List VaultEntry) : VaultHistory :=
  ⟨log.filterMap depositOf, log.filterMap stateOf, log.filterMap payoutOf⟩

/-- The micro-USDT deposited. -/
def deposited (history : VaultHistory) : Nat :=
  (history.deposits.map fun deposit => deposit.amountUSDT6.toNat).sum

/-- The micro-USDT paid out. -/
def redeemed (history : VaultHistory) : Nat :=
  (history.payouts.map fun payout => payout.claim.amountUSDT6.toNat).sum

/-- The burn ids paid. -/
def paidIds (history : VaultHistory) : List Hash32 :=
  history.payouts.map fun payout => payout.claim.burnId

/-- The state finalized last. -/
def current (history : VaultHistory) : ElementsBridgeState :=
  history.states.getLast?.getD .zero

/-- The chained hash of the finalized states. -/
def stateHash [Hashing] (history : VaultHistory) : Hash32 :=
  history.states.foldl
    (fun chained next => Hashing.sha256 (stateHashPreimage chained (hashStateContents next))) .zero

section Laws

variable {log : List VaultEntry} {call : VaultCall}

@[simp]
theorem ofLog_nil : ofLog [] = ⟨[], [], []⟩ := rfl

@[simp]
theorem ofLog_failed {error : VaultError} : ofLog (log ++ [(call, .error error)]) = ofLog log := by
  obtain ⟨deposit, state, payout⟩ := entry_failed call error
  simp only [ofLog, List.filterMap_append, List.filterMap_cons, List.filterMap_nil, deposit, state,
    payout, List.append_nil]

@[simp]
theorem ofLog_deposit {depositor : EthAddress} {amountUSDT6 nonce : UInt64}
    {elementsScript : List UInt8} {userSalt depositId : Hash32} :
    ofLog (log ++ [(.deposit depositor amountUSDT6 elementsScript userSalt,
        .ok (.deposited nonce depositId))]) =
      { ofLog log with deposits := (ofLog log).deposits ++
        [⟨nonce, depositor, amountUSDT6, elementsScript, userSalt, depositId⟩] } := by
  simp only [ofLog, List.filterMap_append]
  exact VaultHistory.ext rfl (List.append_nil _) (List.append_nil _)

@[simp]
theorem ofLog_advance {submitter : EthAddress} {next : ElementsBridgeState}
    {proof : List UInt8} {value : VaultResult} :
    ofLog (log ++ [(.advanceElementsState submitter next proof, .ok value)]) =
      { ofLog log with states := (ofLog log).states ++ [next] } := by
  simp only [ofLog, List.filterMap_append]
  exact VaultHistory.ext (List.append_nil _) rfl (List.append_nil _)

@[simp]
theorem ofLog_redeem {submitter : EthAddress} {claim : BurnClaim} {burnIndex : UInt64}
    {merkleBranch : Vector Hash32 64} {value : VaultResult} :
    ofLog (log ++ [(.redeem submitter claim burnIndex merkleBranch, .ok value)]) =
      { ofLog log with payouts := (ofLog log).payouts ++ [⟨claim, burnIndex⟩] } := by
  simp only [ofLog, List.filterMap_append]
  exact VaultHistory.ext (List.append_nil _) (List.append_nil _) rfl

/-- A longer log tells a longer history. -/
theorem ofLog_append (before after : List VaultEntry) :
    ofLog (before ++ after) = ⟨(ofLog before).deposits ++ (ofLog after).deposits,
      (ofLog before).states ++ (ofLog after).states,
      (ofLog before).payouts ++ (ofLog after).payouts⟩ := by
  simp [ofLog]

end Laws

end VaultHistory

section Soundness

variable [Hashing] (vault : Vault)

/-- A deposit this vault may accept. -/
structure AcceptedDeposit.Valid (deposit : AcceptedDeposit) : Prop where
  amount_pos : deposit.amountUSDT6 ≠ 0
  amount_le : deposit.amountUSDT6.toNat ≤ maxDepositAmountUSDT6.toNat
  script_pos : deposit.elementsScript.length ≠ 0
  script_le : deposit.elementsScript.length ≤ Contracts.maxElementsScriptLength
  depositId_eq : deposit.depositId = Hashing.sha256 (vault.depositPreimage deposit.nonce
    deposit.depositor deposit.amountUSDT6 (Hashing.sha256 deposit.elementsScript)
    deposit.userSalt)
  depositId_ne : deposit.depositId ≠ .zero

/-- A burn this vault may pay. -/
structure Payout.Valid (payout : Payout) : Prop where
  version : payout.claim.protocolVersion = Contracts.protocolVersion
  genesis : payout.claim.elementsGenesisHash = vault.elementsGenesisHash
  asset : payout.claim.usddAssetId = vault.usddAssetId
  vaultId : payout.claim.vaultId = vault.vaultId
  burnId_eq : payout.claim.burnId =
    vault.computeBurnId payout.claim.burnTxid payout.claim.burnVout
  burnId_ne : payout.claim.burnId ≠ .zero
  amount_pos : payout.claim.amountUSDT6 ≠ 0
  amount_le : payout.claim.amountUSDT6.toNat ≤ maxBurnAmountUSDT6.toNat
  recipient_ne : payout.claim.recipient ≠ .zero
  recipient_other : payout.claim.recipient ≠ vault.self

/-- A history a vault may have: consecutive nonces, each burn paid once, never more paid than
deposited, never more outstanding than the cap, and each state following the one before. -/
structure VaultHistory.Sound (history : VaultHistory) : Prop where
  nonces : history.deposits.map (fun deposit => deposit.nonce.toNat) =
    List.range history.deposits.length
  deposits : ∀ deposit ∈ history.deposits, deposit.Valid vault
  payouts : ∀ payout ∈ history.payouts, payout.Valid vault
  distinct : history.paidIds.Nodup
  covered : history.redeemed ≤ history.deposited
  cap : history.deposited ≤ history.redeemed + activeLiabilityCapUSDT6.toNat
  chain : List.IsChain ElementsBridgeState.Follows (.zero :: history.states)

/-- How the storage of an idle vault records its history. -/
structure VaultHistory.Recorded (history : VaultHistory) (storage : VaultStorage) : Prop where
  unlocked : storage.reentrancyLock = 1
  nonce : storage.nextDepositNonce.toNat = history.deposits.length
  deposited : storage.totalDepositedUSDT6.toNat = history.deposited
  redeemed : storage.totalRedeemedUSDT6.toNat = history.redeemed
  liability : storage.principalLiabilityUSDT6.toNat + history.redeemed = history.deposited
  commitments : ∀ nonce : UInt64, storage.depositCommitmentByNonce nonce =
    (history.deposits[nonce.toNat]?.map AcceptedDeposit.depositId).getD .zero
  spent : ∀ burnId, storage.spentBurnIds burnId = true ↔ burnId ∈ history.paidIds
  finalized : storage.finalizedState = history.current
  stateHash : storage.bridgeStateHash = history.stateHash
  sequence : storage.finalizedState.sequence.toNat = history.states.length

end Soundness

end Usdd.Spec

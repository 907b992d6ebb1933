import Usdd.Foundation.Locks
import Usdd.Contracts.ExactSafeERC20
import Usdd.Core.Encoding
/-!
# The escrow contract

`USDTHTLC` as programs over its storage and an arbitrary world that answers its balance queries.
A call comes with its sender and the timestamp of its block. The state variable is written before
each transfer, and the transfer is an open call, so what keeps the order of the transitions is
the lock.
-/
namespace Usdd.Contracts

open Usdd.Foundation Usdd.Foundation.Reentrant Usdd.Core

/-- `USDTHTLC.MINIMUM_REFUND_GAP`. -/
def minimumRefundGap : UInt64 := 86400

/-- `USDTHTLC.State`. -/
inductive HtlcState where
  | unfunded
  | funded
  | claimed
  | refunded
deriving DecidableEq

/-- The custom errors of the escrow, its library's errors and the panic of checked arithmetic. -/
inductive HtlcError where
  | zeroAddress
  | addressHasNoCode (target : EthAddress)
  | endpointIsEscrow (endpoint : EthAddress)
  | identicalRecipients (recipient : EthAddress)
  | zeroAmount
  | invalidSecretHash
  | invalidElementsRefundTimestamp (supplied : UInt32) (currentTime : Uint256)
  | invalidRefundTimestamp (supplied : UInt64) (currentTime : Uint256)
  | unsafeRefundOrder (elementsRefundTimestamp : UInt32)
      (externalRefundTimestamp minimumGap : UInt64)
  | invalidState (expected actual : HtlcState)
  | fundingWindowClosed (currentTime : Uint256) (refundTimestamp : UInt32)
  | claimWindowClosed (currentTime : Uint256) (refundTimestamp : UInt64)
  | refundNotAvailable (currentTime : Uint256) (refundTimestamp : UInt64)
  | invalidSecret
  | escrowInsolvent (reserve required : Uint256)
  | reentrantCall
  | token (error : TokenError)
  | arithmeticPanic
deriving DecidableEq

/-- The events of the escrow. -/
inductive HtlcEvent where
  | funded (executor funder : EthAddress) (amount : Uint256)
  | claimed (executor recipient : EthAddress) (amount : Uint256) (secret : Hash32)
  | refunded (executor recipient : EthAddress) (amount : Uint256)

/-- The immutables of a deployed escrow, with the address it was deployed at. -/
structure Htlc where
  self : EthAddress
  usdt : EthAddress
  funder : EthAddress
  claimRecipient : EthAddress
  refundRecipient : EthAddress
  amount : Uint256
  secretHash : Hash32
  elementsRefundTimestamp : UInt32
  refundTimestamp : UInt64

/-- The storage of the escrow, and the events it emitted. -/
structure HtlcStorage where
  state : HtlcState
  reentrancyLock : Uint256
  events : List HtlcEvent

/-- The storage after construction. -/
def HtlcStorage.fresh : HtlcStorage := ⟨.unfunded, 1, []⟩

/-- `msg.sender` and `block.timestamp`. -/
structure Message where
  sender : EthAddress
  timestamp : Uint256

/-- The constructor, at an address and a block, where `codeLength` answers for the code of an
address. -/
def Htlc.construct (codeLength : EthAddress → Nat) (self : EthAddress) (blockTimestamp : Uint256)
    (usdt funder claimRecipient refundRecipient : EthAddress) (amount : Uint256)
    (secretHash : Hash32) (elementsRefundTimestamp : UInt32) (refundTimestamp : UInt64) :
    Except HtlcError Htlc := do
  rejectIf (usdt = .zero ∨ funder = .zero ∨ claimRecipient = .zero ∨ refundRecipient = .zero)
    .zeroAddress
  rejectIf (codeLength usdt = 0) (.addressHasNoCode usdt)
  rejectIf (funder = self) (.endpointIsEscrow funder)
  rejectIf (claimRecipient = self) (.endpointIsEscrow claimRecipient)
  rejectIf (refundRecipient = self) (.endpointIsEscrow refundRecipient)
  rejectIf (claimRecipient = refundRecipient) (.identicalRecipients claimRecipient)
  rejectIf (amount = 0) .zeroAmount
  rejectIf (secretHash = .zero) .invalidSecretHash
  rejectIf (elementsRefundTimestamp.toNat ≤ blockTimestamp.toNat)
    (.invalidElementsRefundTimestamp elementsRefundTimestamp blockTimestamp)
  rejectIf (refundTimestamp.toNat ≤ blockTimestamp.toNat)
    (.invalidRefundTimestamp refundTimestamp blockTimestamp)
  let earliest ← okOr (checkedAdd elementsRefundTimestamp.toUInt64 minimumRefundGap)
    .arithmeticPanic
  rejectIf (refundTimestamp < earliest)
    (.unsafeRefundOrder elementsRefundTimestamp refundTimestamp minimumRefundGap)
  return {
    self := self
    usdt := usdt
    funder := funder
    claimRecipient := claimRecipient
    refundRecipient := refundRecipient
    amount := amount
    secretHash := secretHash
    elementsRefundTimestamp := elementsRefundTimestamp
    refundTimestamp := refundTimestamp }

/-- A program of the escrow. -/
abbrev HtlcProgram (World α : Type) : Type :=
  Program World HtlcStorage TokenRequest CallResult HtlcError α

/-- The external functions that change the escrow. -/
inductive HtlcCall where
  | fund (message : Message)
  | claim (message : Message) (secret : Hash32)
  | refund (message : Message)

section Functions

variable {World : Type}

namespace Htlc

/-- The modifier `nonReentrant`. -/
def nonReentrant {α : Type} (body : HtlcProgram World α) : HtlcProgram World α :=
  Program.locking (fun storage => storage.reentrancyLock ≠ 1) .reentrantCall
    (fun storage => { storage with reentrancyLock := 2 })
    (fun storage => { storage with reentrancyLock := 1 }) body

/-- Require a state. -/
def requireState (expected : HtlcState) : HtlcProgram World Unit := do
  let storage ← Program.load
  Program.revertIf (storage.state ≠ expected) (.invalidState expected storage.state)

/-- Write the state variable. -/
def setState (state : HtlcState) : HtlcProgram World Unit :=
  Program.update fun storage => { storage with state := state }

/-- Append an event. -/
def emit (event : HtlcEvent) : HtlcProgram World Unit :=
  Program.update fun storage => { storage with events := storage.events ++ [event] }

variable (view : BalanceView World) (htlc : Htlc)

/-- `USDTHTLC._requireSolvent`. -/
def requireSolvent : HtlcProgram World Unit := do
  let reserve ← balanceOf view HtlcError.token htlc.usdt htlc.self
  Program.revertIf (reserve < htlc.amount) (.escrowInsolvent reserve htlc.amount)

/-- `USDTHTLC.fund`. -/
def fund (message : Message) : HtlcProgram World Unit := nonReentrant do
  requireState .unfunded
  Program.revertIf (message.timestamp.toNat ≥ htlc.elementsRefundTimestamp.toNat)
    (.fundingWindowClosed message.timestamp htlc.elementsRefundTimestamp)
  setState .funded
  pullExact view HtlcError.token htlc.self htlc.usdt htlc.funder htlc.amount
  requireSolvent view htlc
  emit (.funded message.sender htlc.funder htlc.amount)

/-- `USDTHTLC.claim`. -/
def claim [Hashing] (message : Message) (secret : Hash32) : HtlcProgram World Unit :=
  nonReentrant do
    requireState .funded
    Program.revertIf (message.timestamp.toNat ≥ htlc.refundTimestamp.toNat)
      (.claimWindowClosed message.timestamp htlc.refundTimestamp)
    Program.revertIf (Hashing.sha256 (encode secret) ≠ htlc.secretHash) .invalidSecret
    requireSolvent view htlc
    setState .claimed
    pushExact view HtlcError.token htlc.self htlc.usdt htlc.claimRecipient htlc.amount
    emit (.claimed message.sender htlc.claimRecipient htlc.amount secret)

/-- `USDTHTLC.refund`. -/
def refund (message : Message) : HtlcProgram World Unit := nonReentrant do
  requireState .funded
  Program.revertIf (message.timestamp.toNat < htlc.refundTimestamp.toNat)
    (.refundNotAvailable message.timestamp htlc.refundTimestamp)
  requireSolvent view htlc
  setState .refunded
  pushExact view HtlcError.token htlc.self htlc.usdt htlc.refundRecipient htlc.amount
  emit (.refunded message.sender htlc.refundRecipient htlc.amount)

/-- The escrow: what each external function does. -/
def contract [Hashing] : HtlcCall → HtlcProgram World Unit
  | .fund message => fund view htlc message
  | .claim message secret => claim view htlc message secret
  | .refund message => refund view htlc message

end Htlc

end Functions

end Usdd.Contracts

import Usdd.Foundation.Reentrant
import Usdd.Foundation.Checks
import Usdd.Core.Hash
/-!
# Token transfers with exact balance deltas

The library that moves tokens for the contracts. A balance is a static call that answers with
one word; a transfer is a call that may run any code, and its effect is accepted only when both
balances moved by exactly the amount. The laws say what a returned transfer observed.
-/
namespace Usdd.Contracts

open Usdd.Foundation Usdd.Foundation.Reentrant Usdd.Core

/-- What a low-level call answers: whether it succeeded, and the bytes it returned. -/
structure CallResult where
  success : Bool
  result : List UInt8
deriving DecidableEq

/-- The call data of a token transfer. -/
inductive TokenCall where
  | transferFrom (sender recipient : EthAddress) (amount : Uint256)
  | transfer (recipient : EthAddress) (amount : Uint256)
deriving DecidableEq

/-- A call of a token contract. -/
structure TokenRequest where
  token : EthAddress
  call : TokenCall
deriving DecidableEq

/-- The function selector of a token call. -/
def TokenCall.selector : TokenCall → UInt32
  | .transferFrom .. => 0x23b872dd
  | .transfer .. => 0xa9059cbb

/-- The errors of the library. -/
inductive TokenError where
  | tokenBalanceQueryFailed (token account : EthAddress)
  | tokenCallFailed (token : EthAddress) (selector : UInt32)
  | tokenReturnedFalse (token : EthAddress) (selector : UInt32)
  | tokenReturnedMalformedData (token : EthAddress) (selector : UInt32)
  | senderDeltaMismatch (token : EthAddress) (expected beforeBalance afterBalance : Uint256)
  | receiverDeltaMismatch (token : EthAddress) (expected beforeBalance afterBalance : Uint256)
deriving DecidableEq

/-- How a world answers the static call `balanceOf(account)` on a token. -/
abbrev BalanceView (World : Type) := World → EthAddress → EthAddress → CallResult

section Library

variable {World Storage Error : Type} (view : BalanceView World) (lift : TokenError → Error)
  (self : EthAddress)

/-- The balance a world reports, where the static call answers with one word. -/
def reportedBalance (world : World) (token account : EthAddress) : Option Uint256 :=
  let reply := view world token account
  if reply.success = false ∨ reply.result.length ≠ 32 then none
  else some (BitVec.ofNat 256 (beNat reply.result))

/-- `ExactSafeERC20.balanceOf`. -/
def balanceOf (token account : EthAddress) :
    Program World Storage TokenRequest CallResult Error Uint256 := do
  let balance ← Program.inspect fun world => reportedBalance view world token account
  Program.ofExcept (okOr balance (lift (.tokenBalanceQueryFailed token account)))

/-- `ExactSafeERC20._callOptionalTrue`. -/
def callOptionalTrue (token : EthAddress) (call : TokenCall) :
    Program World Storage TokenRequest CallResult Error Unit := do
  let reply ← Program.call ⟨token, call⟩
  Program.revertIf (reply.success = false) (lift (.tokenCallFailed token call.selector))
  Program.revertIf (reply.result.length ≠ 0 ∧ reply.result.length ≠ 32)
    (lift (.tokenReturnedMalformedData token call.selector))
  Program.revertIf (reply.result.length ≠ 0 ∧ beNat reply.result ≠ 1)
    (lift (.tokenReturnedFalse token call.selector))

/-- The body that `pullExact` and `pushExact` share: measure both accounts, call, and require
that the sender lost and the receiver gained exactly the amount. -/
def moveExact (token sender receiver : EthAddress) (amount : Uint256) (call : TokenCall) :
    Program World Storage TokenRequest CallResult Error Unit := do
  let senderBefore ← balanceOf view lift token sender
  let receiverBefore ← balanceOf view lift token receiver
  callOptionalTrue lift token call
  let senderAfter ← balanceOf view lift token sender
  let receiverAfter ← balanceOf view lift token receiver
  Program.revertIf (senderAfter > senderBefore ∨ senderBefore - senderAfter ≠ amount)
    (lift (.senderDeltaMismatch token amount senderBefore senderAfter))
  Program.revertIf (receiverAfter < receiverBefore ∨ receiverAfter - receiverBefore ≠ amount)
    (lift (.receiverDeltaMismatch token amount receiverBefore receiverAfter))

/-- `ExactSafeERC20.pullExact`. -/
def pullExact (token source : EthAddress) (amount : Uint256) :
    Program World Storage TokenRequest CallResult Error Unit :=
  moveExact view lift token source self amount (.transferFrom source self amount)

/-- `ExactSafeERC20.pushExact`. -/
def pushExact (token recipient : EthAddress) (amount : Uint256) :
    Program World Storage TokenRequest CallResult Error Unit :=
  moveExact view lift token self recipient amount (.transfer recipient amount)

end Library

/-- A reply the library accepts: success with no data, or with the canonical `true`. -/
def CallResult.Accepted (reply : CallResult) : Prop :=
  reply.success = true ∧ (reply.result = [] ∨ reply.result.length = 32 ∧ beNat reply.result = 1)

/-- What a world transition did to two balances: the sender lost and the receiver gained exactly
the amount. -/
structure MovedExactly {World : Type} (view : BalanceView World) (token sender receiver : EthAddress)
    (amount : Uint256) (before after : World) : Prop where
  sender : ∃ was now, reportedBalance view before token sender = some was ∧
    reportedBalance view after token sender = some now ∧ was.toNat = now.toNat + amount.toNat
  receiver : ∃ was now, reportedBalance view before token receiver = some was ∧
    reportedBalance view after token receiver = some now ∧ now.toNat = was.toNat + amount.toNat

section Laws

variable {World Storage Error Call Result : Type} {env : Environment World TokenRequest CallResult}
  {contract : Call → Program World Storage TokenRequest CallResult Error Result}
  {view : BalanceView World} {lift : TokenError → Error} {self : EthAddress}
  {world world' : World} {storage storage' : Storage}

@[simp]
theorem returns_balanceOf {token account : EthAddress} {balance : Uint256} :
    Returns env contract (balanceOf view lift token account) world storage balance world'
        storage' ↔
      reportedBalance view world token account = some balance ∧ world = world' ∧
        storage = storage' := by
  simp only [balanceOf, returns_bind, returns_inspect, returns_ofExcept, okOr_eq_ok]
  constructor
  · rintro ⟨_, _, _, ⟨rfl, rfl, rfl⟩, found, rfl, rfl⟩
    exact ⟨found, rfl, rfl⟩
  · rintro ⟨found, rfl, rfl⟩
    exact ⟨_, _, _, ⟨rfl, rfl, rfl⟩, found, rfl, rfl⟩

@[simp]
theorem reverts_balanceOf {token account : EthAddress} {error : Error} :
    Reverts env contract (balanceOf view lift token account) world storage error ↔
      reportedBalance view world token account = none ∧
        lift (.tokenBalanceQueryFailed token account) = error := by
  simp only [balanceOf, reverts_bind, reverts_inspect, reverts_ofExcept, returns_inspect, false_or]
  constructor
  · rintro ⟨_, _, _, ⟨rfl, rfl, rfl⟩, missing⟩
    cases found : reportedBalance view world token account <;> simp_all [okOr]
  · rintro ⟨missing, rfl⟩
    exact ⟨_, _, _, ⟨rfl, rfl, rfl⟩, by simp [missing, okOr]⟩

private theorem lost_iff {was now amount : Uint256} :
    ¬(now > was ∨ was - now ≠ amount) ↔ was.toNat = now.toNat + amount.toNat := by
  rw [not_or, not_not, gt_iff_lt, BitVec.not_lt]
  constructor
  · rintro ⟨ordered, rfl⟩
    have bound := BitVec.le_def.mp ordered
    rw [BitVec.toNat_sub_of_le ordered]
    omega
  · intro exact
    have ordered : now ≤ was := BitVec.le_def.mpr (by omega)
    refine ⟨ordered, BitVec.eq_of_toNat_eq ?_⟩
    rw [BitVec.toNat_sub_of_le ordered]
    omega

private theorem accepted_iff {reply : CallResult} :
    (¬reply.success = false ∧ ¬(reply.result.length ≠ 0 ∧ reply.result.length ≠ 32) ∧
      ¬(reply.result.length ≠ 0 ∧ beNat reply.result ≠ 1)) ↔ reply.Accepted := by
  unfold CallResult.Accepted
  rw [← List.length_eq_zero_iff]
  simp only [Bool.not_eq_false, ne_eq]
  refine and_congr_right fun _ => ⟨fun ⟨sized, one⟩ => ?_, fun shape => ?_⟩
  · by_cases empty : reply.result.length = 0
    · exact Or.inl empty
    · exact Or.inr ⟨by_contra fun wrong => sized ⟨empty, wrong⟩,
        by_contra fun wrong => one ⟨empty, wrong⟩⟩
  · rcases shape with empty | ⟨sized, one⟩
    · exact ⟨fun ⟨nonempty, _⟩ => nonempty empty, fun ⟨nonempty, _⟩ => nonempty empty⟩
    · exact ⟨fun ⟨_, wrong⟩ => wrong sized, fun ⟨_, wrong⟩ => wrong one⟩

/-- A returned transfer call was answered acceptably, after whatever happened while it was
open. -/
theorem returns_callOptionalTrue {token : EthAddress} {call : TokenCall} {done : Unit} :
    Returns env contract (callOptionalTrue lift token call) world storage done world' storage' ↔
      ∃ reply, Opens env contract world storage world' storage' ∧
        env.answers ⟨token, call⟩ world' reply ∧ reply.Accepted := by
  simp only [callOptionalTrue, returns_bind, returns_call, returns_revertIf]
  constructor
  · rintro ⟨reply, _, _, ⟨opened, answered⟩, _, _, _, ⟨succeeded, rfl, rfl⟩, _, _, _,
      ⟨sized, rfl, rfl⟩, one, rfl, rfl⟩
    exact ⟨reply, opened, answered, accepted_iff.mp ⟨succeeded, sized, one⟩⟩
  · rintro ⟨reply, opened, answered, accepted⟩
    obtain ⟨succeeded, sized, one⟩ := accepted_iff.mpr accepted
    exact ⟨reply, _, _, ⟨opened, answered⟩, (), _, _, ⟨succeeded, rfl, rfl⟩, (), _, _,
      ⟨sized, rfl, rfl⟩, one, rfl, rfl⟩

/-- A transfer call reverts only on an answer the library refuses. -/
theorem reverts_callOptionalTrue {token : EthAddress} {call : TokenCall} {error : Error}
    (failed : Reverts env contract (callOptionalTrue lift token call) world storage error) :
    ∃ reply world' storage', Opens env contract world storage world' storage' ∧
      env.answers ⟨token, call⟩ world' reply ∧ ¬reply.Accepted := by
  simp only [callOptionalTrue, reverts_bind, reverts_call, false_or, returns_call,
    reverts_revertIf, returns_revertIf] at failed
  obtain ⟨reply, middle, kept, ⟨opened, answered⟩, refused⟩ := failed
  refine ⟨reply, middle, kept, opened, answered, fun accepted => ?_⟩
  obtain ⟨succeeded, sized, one⟩ := accepted_iff.mpr accepted
  rcases refused with ⟨wrong, _⟩ | ⟨_, _, _, ⟨_, rfl, rfl⟩, ⟨wrong, _⟩ |
    ⟨_, _, _, ⟨_, rfl, rfl⟩, wrong, _⟩⟩
  · exact succeeded wrong
  · exact sized wrong
  · exact one wrong

/-- A returned transfer was answered acceptably and moved both balances exactly. -/
theorem returns_moveExact {token sender receiver : EthAddress} {amount : Uint256}
    {call : TokenCall} {done : Unit} :
    Returns env contract (moveExact view lift token sender receiver amount call) world storage
        done world' storage' ↔
      ∃ reply, Opens env contract world storage world' storage' ∧
        env.answers ⟨token, call⟩ world' reply ∧ reply.Accepted ∧
        MovedExactly view token sender receiver amount world world' := by
  simp only [moveExact, returns_bind, returns_balanceOf, returns_callOptionalTrue,
    returns_revertIf]
  constructor
  · rintro ⟨senderBefore, _, _, ⟨foundSender, rfl, rfl⟩, receiverBefore, _, _,
      ⟨foundReceiver, rfl, rfl⟩, _, _, _, ⟨reply, opened, answered, accepted⟩, senderAfter, _, _,
      ⟨laterSender, rfl, rfl⟩, receiverAfter, _, _, ⟨laterReceiver, rfl, rfl⟩, _, _, _,
      ⟨lost, rfl, rfl⟩, gained, rfl, rfl⟩
    exact ⟨reply, opened, answered, accepted,
      ⟨⟨senderBefore, senderAfter, foundSender, laterSender, lost_iff.mp lost⟩,
        ⟨receiverBefore, receiverAfter, foundReceiver, laterReceiver, lost_iff.mp gained⟩⟩⟩
  · rintro ⟨reply, opened, answered, accepted,
      ⟨⟨senderBefore, senderAfter, foundSender, laterSender, lost⟩,
        ⟨receiverBefore, receiverAfter, foundReceiver, laterReceiver, gained⟩⟩⟩
    exact ⟨senderBefore, _, _, ⟨foundSender, rfl, rfl⟩, receiverBefore, _, _,
      ⟨foundReceiver, rfl, rfl⟩, (), _, _, ⟨reply, opened, answered, accepted⟩, senderAfter, _, _,
      ⟨laterSender, rfl, rfl⟩, receiverAfter, _, _, ⟨laterReceiver, rfl, rfl⟩, (), _, _,
      ⟨lost_iff.mpr lost, rfl, rfl⟩, lost_iff.mpr gained, rfl, rfl⟩

/-- A transfer reverts only where a balance cannot be read, the token's answer is refused, or
the balances did not move exactly. -/
theorem reverts_moveExact {token sender receiver : EthAddress} {amount : Uint256}
    {call : TokenCall} {error : Error}
    (failed : Reverts env contract (moveExact view lift token sender receiver amount call) world
      storage error) :
    reportedBalance view world token sender = none ∨
      reportedBalance view world token receiver = none ∨
      ∃ reply world' storage', Opens env contract world storage world' storage' ∧
        env.answers ⟨token, call⟩ world' reply ∧
        ¬(reply.Accepted ∧ MovedExactly view token sender receiver amount world world') := by
  simp only [moveExact, reverts_bind, reverts_balanceOf, returns_balanceOf,
    returns_callOptionalTrue, reverts_revertIf, returns_revertIf] at failed
  rcases failed with ⟨missing, _⟩ | ⟨senderBefore, _, _, ⟨foundSender, rfl, rfl⟩,
    ⟨missing, _⟩ | ⟨receiverBefore, _, _, ⟨foundReceiver, rfl, rfl⟩, refused | ⟨_, middle, kept,
      ⟨reply, opened, answered, accepted⟩, rest⟩⟩⟩
  · exact Or.inl missing
  · exact Or.inr (Or.inl missing)
  · obtain ⟨reply, middle, kept, opened, answered, wrong⟩ := reverts_callOptionalTrue refused
    exact Or.inr (Or.inr ⟨reply, middle, kept, opened, answered, fun fine => wrong fine.1⟩)
  · refine Or.inr (Or.inr ⟨reply, middle, kept, opened, answered, ?_⟩)
    rintro ⟨_, ⟨was, now, beforeSender, afterSender, lost⟩, was', now', beforeReceiver,
      afterReceiver, gained⟩
    obtain rfl := Option.some.inj (foundSender.symm.trans beforeSender)
    obtain rfl := Option.some.inj (foundReceiver.symm.trans beforeReceiver)
    rcases rest with ⟨missing, _⟩ | ⟨_, _, _, ⟨found, rfl, rfl⟩, ⟨missing, _⟩ | ⟨_, _, _,
      ⟨found', rfl, rfl⟩, ⟨wrong, _⟩ | ⟨_, _, _, ⟨_, rfl, rfl⟩, wrong, _⟩⟩⟩
    · cases afterSender.symm.trans missing
    · cases afterReceiver.symm.trans missing
    · obtain rfl := Option.some.inj (afterSender.symm.trans found)
      exact lost_iff.mpr lost wrong
    · obtain rfl := Option.some.inj (afterReceiver.symm.trans found')
      exact lost_iff.mpr gained wrong

end Laws

end Usdd.Contracts

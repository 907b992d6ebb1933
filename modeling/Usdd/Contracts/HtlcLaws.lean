import Usdd.Contracts.Htlc
/-!
# What one call of the escrow does

Each entry point has one law: what a returned call checked, what the token did for it, and the
state it left. The constructor has one too: the endpoints are not the escrow, and the refund
opens a day after funding closes.
-/
namespace Usdd.Contracts

open Usdd.Foundation Usdd.Foundation.Reentrant Usdd.Core

/-- What a successful construction checked. -/
structure Htlc.Constructed (htlc : Htlc) : Prop where
  funder_other : htlc.funder ≠ htlc.self
  claim_other : htlc.claimRecipient ≠ htlc.self
  refund_other : htlc.refundRecipient ≠ htlc.self
  recipients : htlc.claimRecipient ≠ htlc.refundRecipient
  amount_ne : htlc.amount ≠ 0
  gap : htlc.elementsRefundTimestamp.toNat + 86400 ≤ htlc.refundTimestamp.toNat

theorem Htlc.construct_ok {codeLength : EthAddress → Nat} {self usdt funder claimRecipient
    refundRecipient : EthAddress} {blockTimestamp amount : Uint256} {secretHash : Hash32}
    {elementsRefundTimestamp : UInt32} {refundTimestamp : UInt64} {htlc : Htlc}
    (constructed : Htlc.construct codeLength self blockTimestamp usdt funder claimRecipient
      refundRecipient amount secretHash elementsRefundTimestamp refundTimestamp = .ok htlc) :
    htlc.Constructed := by
  simp only [Htlc.construct] at constructed
  simp only [↓then_eq_ok, bind_eq_ok, rejectIf_eq_ok, okOr_eq_ok, pure_eq_ok] at constructed
  obtain ⟨-, -, funderOther, claimOther, refundOther, recipients, amountNe, -, -, -, earliest,
    sum, order, rfl⟩ := constructed
  refine ⟨funderOther, claimOther, refundOther, recipients, amountNe, ?_⟩
  have exact := checkedAdd_eq_some.mp sum
  have ordered := UInt64.le_iff_toNat_le.mp (UInt64.not_lt.mp order)
  have widened : elementsRefundTimestamp.toUInt64.toNat = elementsRefundTimestamp.toNat :=
    UInt32.toNat_toUInt64 _
  have gap : minimumRefundGap.toNat = 86400 := rfl
  simp only
  omega

namespace Htlc

variable [Hashing] {World : Type} {view : BalanceView World} {htlc : Htlc}
  {env : Environment World TokenRequest CallResult} {world world' : World}
  {storage storage' : HtlcStorage}

/-- A world in which the escrow holds its amount. -/
def Solvent (view : BalanceView World) (htlc : Htlc) (world : World) : Prop :=
  ∃ reserve, reportedBalance view world htlc.usdt htlc.self = some reserve ∧
    htlc.amount.toNat ≤ reserve.toNat

/-- A held lock refuses every entry point. -/
theorem contract_refuses (held : storage.reentrancyLock ≠ 1) (call : HtlcCall) :
    contract view htlc call world storage = .reverted .reentrantCall := by
  cases call with
  | fund message => exact locking_refuses held
  | claim message secret => exact locking_refuses held
  | refund message => exact locking_refuses held

theorem contract_locked (held : storage.reentrancyLock ≠ 1) :
    Locked (contract view htlc) storage :=
  fun call _ => ⟨.reentrantCall, contract_refuses held call⟩

/-- The solvency check passes exactly in a solvent world and changes nothing. -/
theorem returns_requireSolvent {done : Unit} :
    Returns env (contract view htlc) (requireSolvent view htlc) world storage done world'
        storage' ↔
      Solvent view htlc world ∧ world = world' ∧ storage = storage' := by
  simp only [requireSolvent, returns_bind, returns_balanceOf, returns_revertIf, BitVec.not_lt,
    BitVec.le_def, Solvent]
  constructor
  · rintro ⟨reserve, _, _, ⟨found, rfl, rfl⟩, covered, rfl, rfl⟩
    exact ⟨⟨reserve, found, covered⟩, rfl, rfl⟩
  · rintro ⟨⟨reserve, found, covered⟩, rfl, rfl⟩
    exact ⟨reserve, _, _, ⟨found, rfl, rfl⟩, covered, rfl, rfl⟩

/-- In a solvent world the solvency check cannot fail. -/
theorem not_reverts_requireSolvent (solvent : Solvent view htlc world) {error : HtlcError} :
    ¬Reverts env (contract view htlc) (requireSolvent view htlc) world storage error := by
  obtain ⟨reserve, found, covered⟩ := solvent
  simp only [requireSolvent, reverts_bind, reverts_balanceOf, returns_balanceOf,
    reverts_revertIf, not_or, not_exists, not_and]
  constructor
  · intro missing
    rw [found] at missing
    cases missing
  · intro balance middle kept
    rintro ⟨reported, rfl, rfl⟩ short
    rw [found, Option.some.injEq] at reported
    subst reported
    have below := BitVec.lt_def.mp short
    omega

theorem returns_requireState {expected : HtlcState} {done : Unit} :
    Returns env (contract view htlc) (requireState expected) world storage done world'
        storage' ↔
      storage.state = expected ∧ world = world' ∧ storage = storage' := by
  simp only [requireState, returns_load_bind, returns_revertIf, not_not]

/-- A transfer made with the lock held leaves the storage alone. -/
theorem returns_moveExact_locked {sender receiver : EthAddress} {call : TokenCall} {done : Unit}
    (held : storage.reentrancyLock ≠ 1)
    (moved : Returns env (contract view htlc)
      (moveExact view HtlcError.token htlc.usdt sender receiver htlc.amount call) world storage
      done world' storage') :
    storage' = storage ∧
      MovedExactly view htlc.usdt sender receiver htlc.amount world world' := by
  obtain ⟨_, opened, _, _, exact⟩ := returns_moveExact.mp moved
  exact ⟨(opened.locked (contract_locked held)).1, exact⟩

omit [Hashing] in
private theorem taken_ne : (2 : Uint256) ≠ 1 := by decide

/-- What a returned call of any entry point does: from one state, with the lock free, to another,
moving the amount between two accounts. -/
structure Step (view : BalanceView World) (htlc : Htlc) (before after : HtlcState)
    (sender receiver : EthAddress) (event : HtlcEvent) (world : World) (storage : HtlcStorage)
    (world' : World) (storage' : HtlcStorage) : Prop where
  unlocked : storage.reentrancyLock = 1
  state : storage.state = before
  moved : MovedExactly view htlc.usdt sender receiver htlc.amount world world'
  next : storage' = ⟨after, 1, storage.events ++ [event]⟩

theorem returns_fund {message : Message} {done : Unit}
    (returned : Returns env (contract view htlc) (fund view htlc message) world storage done
      world' storage') :
    Step view htlc .unfunded .funded htlc.funder htlc.self
        (.funded message.sender htlc.funder htlc.amount) world storage world' storage' ∧
      message.timestamp.toNat < htlc.elementsRefundTimestamp.toNat ∧
      Solvent view htlc world' := by
  obtain ⟨free, kept, ran, rfl⟩ := returns_locking.mp returned
  simp only [returns_bind, returns_requireState, returns_revertIf, setState, emit,
    returns_update, pullExact, returns_requireSolvent] at ran
  obtain ⟨_, _, _, ⟨state, rfl, rfl⟩, _, _, _, ⟨window, rfl, rfl⟩, _, _, _, ⟨rfl, rfl⟩, _, _, _,
    pulled, _, _, _, ⟨solvent, rfl, rfl⟩, rfl, rfl⟩ := ran
  obtain ⟨rfl, moved⟩ := returns_moveExact_locked taken_ne pulled
  exact ⟨⟨not_not.mp free, state, moved, rfl⟩, by omega, solvent⟩

theorem returns_claim {message : Message} {secret : Hash32} {done : Unit}
    (returned : Returns env (contract view htlc) (claim view htlc message secret) world storage
      done world' storage') :
    Step view htlc .funded .claimed htlc.self htlc.claimRecipient
        (.claimed message.sender htlc.claimRecipient htlc.amount secret) world storage world'
        storage' ∧
      message.timestamp.toNat < htlc.refundTimestamp.toNat ∧
      Hashing.sha256 (encode secret) = htlc.secretHash := by
  obtain ⟨free, kept, ran, rfl⟩ := returns_locking.mp returned
  simp only [returns_bind, returns_requireState, returns_revertIf, setState, emit,
    returns_update, pushExact, returns_requireSolvent] at ran
  obtain ⟨_, _, _, ⟨state, rfl, rfl⟩, _, _, _, ⟨window, rfl, rfl⟩, _, _, _,
    ⟨secretRight, rfl, rfl⟩, _, _, _, ⟨_, rfl, rfl⟩, _, _, _, ⟨rfl, rfl⟩, _, _, _, pushed, rfl,
    rfl⟩ := ran
  obtain ⟨rfl, moved⟩ := returns_moveExact_locked taken_ne pushed
  exact ⟨⟨not_not.mp free, state, moved, rfl⟩, by omega, not_not.mp secretRight⟩

theorem returns_refund {message : Message} {done : Unit}
    (returned : Returns env (contract view htlc) (refund view htlc message) world storage done
      world' storage') :
    Step view htlc .funded .refunded htlc.self htlc.refundRecipient
        (.refunded message.sender htlc.refundRecipient htlc.amount) world storage world'
        storage' ∧
      htlc.refundTimestamp.toNat ≤ message.timestamp.toNat := by
  obtain ⟨free, kept, ran, rfl⟩ := returns_locking.mp returned
  simp only [returns_bind, returns_requireState, returns_revertIf, setState, emit,
    returns_update, pushExact, returns_requireSolvent] at ran
  obtain ⟨_, _, _, ⟨state, rfl, rfl⟩, _, _, _, ⟨window, rfl, rfl⟩, _, _, _, ⟨_, rfl, rfl⟩, _, _, _,
    ⟨rfl, rfl⟩, _, _, _, pushed, rfl, rfl⟩ := ran
  obtain ⟨rfl, moved⟩ := returns_moveExact_locked taken_ne pushed
  exact ⟨⟨not_not.mp free, state, moved, rfl⟩, by omega⟩

/-- In its window and with its secret, a claim of a funded escrow that holds the amount fails only
where the token does not pay the recipient. -/
theorem reverts_claim {message : Message} {secret : Hash32} {error : HtlcError}
    (free : storage.reentrancyLock = 1) (funded : storage.state = .funded)
    (window : message.timestamp.toNat < htlc.refundTimestamp.toNat)
    (right : Hashing.sha256 (encode secret) = htlc.secretHash)
    (solvent : Solvent view htlc world)
    (failed : Reverts env (contract view htlc) (claim view htlc message secret) world storage
      error) :
    ∃ kept, Reverts env (contract view htlc)
      (pushExact view HtlcError.token htlc.self htlc.usdt htlc.claimRecipient htlc.amount) world
      kept error := by
  simp only [claim, nonReentrant, Program.locking, requireState, setState, emit,
    reverts_load_bind, reverts_revertIf_bind, reverts_update_bind] at failed
  rcases failed with ⟨busy, _⟩ | ⟨_, failed⟩
  · exact absurd free busy
  rw [reverts_bind] at failed
  rcases failed with failed | ⟨_, _, _, _, failed⟩
  · rw [reverts_bind] at failed
    rcases failed with failed | ⟨_, _, _, checked, failed⟩
    · rw [reverts_load_bind, reverts_revertIf] at failed
      exact absurd funded failed.1
    rw [returns_load_bind, returns_revertIf] at checked
    obtain ⟨_, rfl, rfl⟩ := checked
    rw [reverts_revertIf_bind, reverts_revertIf_bind] at failed
    rcases failed with ⟨late, _⟩ | ⟨_, ⟨wrong, _⟩ | ⟨_, failed⟩⟩
    · omega
    · exact absurd right wrong
    rw [reverts_bind] at failed
    rcases failed with failed | ⟨_, _, _, checked, failed⟩
    · exact absurd failed (not_reverts_requireSolvent solvent)
    obtain ⟨_, rfl, rfl⟩ := returns_requireSolvent.mp checked
    rw [reverts_update_bind, reverts_bind] at failed
    rcases failed with failed | ⟨_, _, _, _, failed⟩
    · exact ⟨_, failed⟩
    · exact absurd failed reverts_update
  · exact absurd failed reverts_pure

end Htlc

end Usdd.Contracts

import Usdd.Contracts.HtlcLaws
import Usdd.Verif.VaultRuns
/-!
# Runs of the escrow

The successful calls of an escrow are the beginning of a funding and one payout, whatever calls
fail or re-enter in between. The state variable says which beginning, and while it says that the
escrow is funded the balance is there: the funding left it, and the token takes it away only in
the payout.
-/
namespace Usdd.Verif

open Usdd.Foundation Usdd.Foundation.Reentrant Usdd.Core Usdd.Contracts

/-- A call of the escrow with what its caller saw. -/
abbrev HtlcEntry := HtlcCall × Except HtlcError Unit

/-- The calls of a log that returned, in order. -/
def succeeded (log : List HtlcEntry) : List HtlcCall :=
  log.filterMap fun entry => if entry.2.toBool then some entry.1 else none

/-- The account that a call pays the amount to. -/
def paidBy (htlc : Htlc) : HtlcCall → Option EthAddress
  | .fund _ => none
  | .claim _ _ => some htlc.claimRecipient
  | .refund _ => some htlc.refundRecipient

/-- The lives of a swap: funded in time, then claimed with the secret before the deadline or
refunded after it. -/
inductive Lifecycle [Hashing] (htlc : Htlc) : List HtlcCall → HtlcState → Prop where
  | unfunded : Lifecycle htlc [] .unfunded
  | funded {funding : Message} :
    funding.timestamp.toNat < htlc.elementsRefundTimestamp.toNat →
    Lifecycle htlc [.fund funding] .funded
  | claimed {funding message : Message} {secret : Hash32} :
    funding.timestamp.toNat < htlc.elementsRefundTimestamp.toNat →
    message.timestamp.toNat < htlc.refundTimestamp.toNat →
    Hashing.sha256 (encode secret) = htlc.secretHash →
    Lifecycle htlc [.fund funding, .claim message secret] .claimed
  | refunded {funding message : Message} :
    funding.timestamp.toNat < htlc.elementsRefundTimestamp.toNat →
    htlc.refundTimestamp.toNat ≤ message.timestamp.toNat →
    Lifecycle htlc [.fund funding, .refund message] .refunded

/-- The token never takes balance from the escrow between two calls. -/
def KeepsEscrow {World : Type} (view : BalanceView World) (htlc : Htlc)
    (env : Environment World TokenRequest CallResult) : Prop :=
  ∀ before after, env.drifts before after → ∀ held,
    reportedBalance view before htlc.usdt htlc.self = some held →
    ∃ holds, reportedBalance view after htlc.usdt htlc.self = some holds ∧
      held.toNat ≤ holds.toNat

section Runs

variable [Hashing] {World : Type} {view : BalanceView World} {htlc : Htlc}
  {env : Environment World TokenRequest CallResult} {first last : World} {storage : HtlcStorage}
  {log : List HtlcEntry}

omit [Hashing] in
theorem succeeded_ok (log : List HtlcEntry) (call : HtlcCall) (done : Unit) :
    succeeded (log ++ [(call, .ok done)]) = succeeded log ++ [call] := by
  simp [succeeded, Except.toBool]

omit [Hashing] in
theorem succeeded_error (log : List HtlcEntry) (call : HtlcCall) (error : HtlcError) :
    succeeded (log ++ [(call, .error error)]) = succeeded log := by
  simp [succeeded, Except.toBool]

omit [Hashing] in
theorem mem_succeeded {call : HtlcCall} (logged : (call, Except.ok ()) ∈ log) :
    call ∈ succeeded log := by
  rw [succeeded, List.mem_filterMap]
  exact ⟨_, logged, rfl⟩

/-- What an escrow's log, world and storage satisfy between calls. -/
structure HtlcInvariant (view : BalanceView World) (htlc : Htlc) (log : List HtlcEntry)
    (world : World) (storage : HtlcStorage) : Prop where
  lifecycle : Lifecycle htlc (succeeded log) storage.state
  solvent : storage.state = .funded → Htlc.Solvent view htlc world

/-- Every returned call is the next step of the swap. -/
theorem HtlcInvariant.step {world world' : World} {storage' : HtlcStorage} {call : HtlcCall}
    {done : Unit} (invariant : HtlcInvariant view htlc log world storage)
    (returned : Returns env (Htlc.contract view htlc) (Htlc.contract view htlc call) world
      storage done world' storage') :
    HtlcInvariant view htlc (log ++ [(call, .ok done)]) world' storage' := by
  have lifecycle := invariant.lifecycle
  constructor
  · rw [succeeded_ok]
    cases call with
    | fund message =>
      obtain ⟨⟨-, state, -, rfl⟩, window, -⟩ := Htlc.returns_fund returned
      rw [state] at lifecycle
      generalize succeeded log = calls at lifecycle
      cases lifecycle
      exact .funded window
    | claim message secret =>
      obtain ⟨⟨-, state, -, rfl⟩, window, right⟩ := Htlc.returns_claim returned
      rw [state] at lifecycle
      generalize succeeded log = calls at lifecycle
      cases lifecycle with
      | funded early => exact .claimed early window right
    | refund message =>
      obtain ⟨⟨-, state, -, rfl⟩, window⟩ := Htlc.returns_refund returned
      rw [state] at lifecycle
      generalize succeeded log = calls at lifecycle
      cases lifecycle with
      | funded early => exact .refunded early window
  · intro funded
    cases call with
    | fund message => exact (Htlc.returns_fund returned).2.2
    | claim message secret =>
      obtain ⟨⟨-, -, -, rfl⟩, -⟩ := Htlc.returns_claim returned
      cases funded
    | refund message =>
      obtain ⟨⟨-, -, -, rfl⟩, -⟩ := Htlc.returns_refund returned
      cases funded

/-- The run law of the invariant. -/
theorem HtlcInvariant.run (keeps : KeepsEscrow view htlc env)
    (run : Run env (Htlc.contract view htlc) first .fresh log last storage) :
    HtlcInvariant view htlc log last storage := by
  refine run.preserves (I := HtlcInvariant view htlc) ?_ ?_ ?_ ⟨.unfunded, ?_⟩
  · intro log call world storage done world' storage' invariant returned
    exact invariant.step returned
  · intro log call world storage error invariant
    exact ⟨by rw [succeeded_error]; exact invariant.lifecycle, invariant.solvent⟩
  · intro log before after storage invariant drifted
    refine ⟨invariant.lifecycle, ?_⟩
    intro funded
    obtain ⟨held, reported, enough⟩ := invariant.solvent funded
    obtain ⟨holds, later, kept⟩ := keeps before after drifted held reported
    exact ⟨holds, later, by omega⟩
  · intro funded
    cases funded

/-- Safety of an escrow in a state that a run reached. -/
structure HtlcRun (view : BalanceView World) (htlc : Htlc)
    (env : Environment World TokenRequest CallResult) (first : World) (log : List HtlcEntry)
    (last : World) (storage : HtlcStorage) : Prop where
  lifecycle : Lifecycle htlc (succeeded log) storage.state
  funded_once : ((succeeded log).filter fun call => paidBy htlc call = none).length ≤ 1
  paid_once : ((succeeded log).filter fun call => paidBy htlc call ≠ none).length ≤ 1
  fundings : ∀ message, (HtlcCall.fund message, Except.ok ()) ∈ log →
    message.timestamp.toNat < htlc.elementsRefundTimestamp.toNat
  claims : ∀ message secret, (HtlcCall.claim message secret, Except.ok ()) ∈ log →
    message.timestamp.toNat < htlc.refundTimestamp.toNat ∧
      Hashing.sha256 (encode secret) = htlc.secretHash
  refunds : ∀ message, (HtlcCall.refund message, Except.ok ()) ∈ log →
    htlc.refundTimestamp.toNat ≤ message.timestamp.toNat
  exclusive : ∀ message secret refunding, (HtlcCall.claim message secret, Except.ok ()) ∈ log →
    (HtlcCall.refund refunding, Except.ok ()) ∉ log
  day : ∀ funding refunding, (HtlcCall.fund funding, Except.ok ()) ∈ log →
    (HtlcCall.refund refunding, Except.ok ()) ∈ log →
    funding.timestamp.toNat + 86400 ≤ refunding.timestamp.toNat
  payouts : ∀ before call after recipient, log = before ++ (call, .ok ()) :: after →
    paidBy htlc call = some recipient → ∃ world world' kept kept',
      Run env (Htlc.contract view htlc) first .fresh before world kept ∧
      MovedExactly view htlc.usdt htlc.self recipient htlc.amount world world' ∧
      Run env (Htlc.contract view htlc) world' kept' after last storage
  solvent : storage.state = .funded → Htlc.Solvent view htlc last ∧
    ∀ error, ¬Reverts env (Htlc.contract view htlc) (Htlc.requireSolvent view htlc) last storage
      error
  reverted : ∀ call final error,
    Finishes env (Htlc.contract view htlc) (Htlc.contract view htlc call last storage) final →
    final.outcome = .error error → final.worldAfter last = last ∧
      final.storageAfter storage = storage
  reentered : ∀ held : HtlcStorage, held.reentrancyLock ≠ 1 → ∀ call world final,
    Finishes env (Htlc.contract view htlc) (Htlc.contract view htlc call world held) final →
    final = .reverted .reentrantCall

/-- A life of the swap has at most one funding and one payout. -/
theorem Lifecycle.once {calls : List HtlcCall} {state : HtlcState}
    (lifecycle : Lifecycle htlc calls state) :
    (calls.filter fun call => paidBy htlc call = none).length ≤ 1 ∧
      (calls.filter fun call => paidBy htlc call ≠ none).length ≤ 1 := by
  cases lifecycle <;> simp [paidBy]

theorem Lifecycle.fundings {calls : List HtlcCall} {state : HtlcState}
    (lifecycle : Lifecycle htlc calls state) {message : Message}
    (member : HtlcCall.fund message ∈ calls) :
    message.timestamp.toNat < htlc.elementsRefundTimestamp.toNat := by
  cases lifecycle with
  | unfunded => cases member
  | funded early =>
    simp only [List.mem_singleton, HtlcCall.fund.injEq] at member
    rw [member]
    exact early
  | claimed early =>
    simp only [List.mem_cons, HtlcCall.fund.injEq, reduceCtorEq, List.not_mem_nil, or_false]
      at member
    rw [member]
    exact early
  | refunded early =>
    simp only [List.mem_cons, HtlcCall.fund.injEq, reduceCtorEq, List.not_mem_nil, or_false]
      at member
    rw [member]
    exact early

theorem Lifecycle.claims {calls : List HtlcCall} {state : HtlcState}
    (lifecycle : Lifecycle htlc calls state) {message : Message} {secret : Hash32}
    (member : HtlcCall.claim message secret ∈ calls) :
    (message.timestamp.toNat < htlc.refundTimestamp.toNat ∧
      Hashing.sha256 (encode secret) = htlc.secretHash) ∧
      ∀ refunding, HtlcCall.refund refunding ∉ calls := by
  cases lifecycle with
  | unfunded => cases member
  | funded _ => simp at member
  | claimed _ window right =>
    simp only [List.mem_cons, HtlcCall.claim.injEq, reduceCtorEq, List.not_mem_nil, or_false,
      false_or] at member
    obtain ⟨rfl, rfl⟩ := member
    refine ⟨⟨window, right⟩, ?_⟩
    intro refunding
    simp
  | refunded _ _ => simp at member

theorem Lifecycle.refunds {calls : List HtlcCall} {state : HtlcState}
    (lifecycle : Lifecycle htlc calls state) {message : Message}
    (member : HtlcCall.refund message ∈ calls) :
    htlc.refundTimestamp.toNat ≤ message.timestamp.toNat := by
  cases lifecycle with
  | unfunded => cases member
  | funded _ => simp at member
  | claimed _ _ _ => simp at member
  | refunded _ window =>
    simp only [List.mem_cons, HtlcCall.refund.injEq, reduceCtorEq, List.not_mem_nil, or_false,
      false_or] at member
    rw [member]
    exact window

/-- A returned payout moved exactly the amount to its recipient. -/
theorem payout_moved {world world' : World} {kept kept' : HtlcStorage} {call : HtlcCall}
    {recipient : EthAddress} (pays : paidBy htlc call = some recipient)
    (returned : Returns env (Htlc.contract view htlc) (Htlc.contract view htlc call) world kept ()
      world' kept') :
    MovedExactly view htlc.usdt htlc.self recipient htlc.amount world world' := by
  cases call with
  | fund message => cases pays
  | claim message secret =>
    obtain rfl := Option.some.inj pays
    exact (Htlc.returns_claim returned).1.moved
  | refund message =>
    obtain rfl := Option.some.inj pays
    exact (Htlc.returns_refund returned).1.moved

/-- Along every run of an escrow the swap is funded at most once and paid out at most once, in
its windows and with exactly the amount, and it stays solvent while it is funded. The calls may
come from anyone at any time, fail, and re-enter. -/
theorem htlc_run {codeLength : EthAddress → Nat} {self usdt funder claimRecipient
    refundRecipient : EthAddress} {blockTimestamp amount : Uint256} {secretHash : Hash32}
    {elementsRefundTimestamp : UInt32} {refundTimestamp : UInt64}
    (constructed : Htlc.construct codeLength self blockTimestamp usdt funder claimRecipient
      refundRecipient amount secretHash elementsRefundTimestamp refundTimestamp = .ok htlc)
    (keeps : KeepsEscrow view htlc env)
    (run : Run env (Htlc.contract view htlc) first .fresh log last storage) :
    HtlcRun view htlc env first log last storage := by
  have invariant := HtlcInvariant.run keeps run
  have lifecycle := invariant.lifecycle
  have gap := (Htlc.construct_ok constructed).gap
  refine ⟨lifecycle, lifecycle.once.1, lifecycle.once.2, ?_, ?_, ?_, ?_, ?_, ?_, ?_, ?_, ?_⟩
  · intro message logged
    exact lifecycle.fundings (mem_succeeded logged)
  · intro message secret logged
    exact (lifecycle.claims (mem_succeeded logged)).1
  · intro message logged
    exact lifecycle.refunds (mem_succeeded logged)
  · intro message secret refunding claimed refunded
    exact (lifecycle.claims (mem_succeeded claimed)).2 refunding (mem_succeeded refunded)
  · intro funding refunding funded refunded
    have early := lifecycle.fundings (mem_succeeded funded)
    have late := lifecycle.refunds (mem_succeeded refunded)
    omega
  · intro before call after recipient cut pays
    rw [cut] at run
    obtain ⟨world, kept, world', kept', early, returned, late⟩ := run.returned
    exact ⟨world, world', kept, kept', early, payout_moved pays returned, late⟩
  · intro funded
    have solvent := invariant.solvent funded
    exact ⟨solvent, fun error => Htlc.not_reverts_requireSolvent solvent⟩
  · intro call final error done failed
    cases final with
    | reverted error => exact ⟨rfl, rfl⟩
    | returned value world storage => cases failed
  · intro held locked call world final done
    rw [Htlc.contract_refuses locked] at done
    exact finishes_reverted.mp done

end Runs

section Sample

/-- The secret of the sample swap. -/
def sampleSecret : Hash32 := .ofNat 32 7

/-- An escrow of five micro-USDT. -/
def sampleHtlc : Htlc where
  self := .ofNat 20 0xe5
  usdt := .ofNat 20 0xa1
  funder := .ofNat 20 0xf1
  claimRecipient := .ofNat 20 0xc1
  refundRecipient := .ofNat 20 0xd1
  amount := 5
  secretHash :=
    .ofNat 32 0x48428bdb7ddd829410d6bbb924fdeb3a3d7e88c2577bffae073b990c6f061d08
  elementsRefundTimestamp := 2000
  refundTimestamp := 90000

/-- A token whose balances change in the escrow's calls only. -/
def quietToken : Environment Holdings TokenRequest CallResult :=
  ⟨fun _ _ => True, fun _ _ _ => True, fun before after => before = after⟩

/-- The balances that holdings report. -/
def holdingsView : BalanceView Holdings :=
  fun holdings _ account => ⟨true, encode (holdings account)⟩

/-- A swap that is claimed at the second attempt; its refund comes too late. -/
def sampleSwap : List HtlcCall :=
  [.fund ⟨.ofNat 20 1, 1500⟩, .claim ⟨.ofNat 20 2, 1600⟩ .zero,
    .claim ⟨.ofNat 20 2, 1700⟩ sampleSecret, .refund ⟨.ofNat 20 3, 95000⟩]

theorem htlc_run_sample :
    letI := sha256Hashing
    let holdings : Holdings := fun account => if account = .ofNat 20 0xf1 then 9 else 0
    let played := play (plainToken sampleHtlc.self) (Htlc.contract holdingsView sampleHtlc)
      sampleSwap holdings .fresh
    HtlcRun holdingsView sampleHtlc quietToken holdings played.1 played.2.1 played.2.2 ∧
      played.2.2.state = .claimed ∧ played.2.1 (.ofNat 20 0xc1) = 5 := by
  letI := sha256Hashing
  have constructed : Htlc.construct (fun _ => 1) (.ofNat 20 0xe5) 1000 (.ofNat 20 0xa1)
      (.ofNat 20 0xf1) (.ofNat 20 0xc1) (.ofNat 20 0xd1) 5 sampleHtlc.secretHash 2000 90000 =
      .ok sampleHtlc := by rfl
  have keeps : KeepsEscrow holdingsView sampleHtlc quietToken := by
    rintro before after rfl held reported
    exact ⟨held, reported, Nat.le_refl _⟩
  refine ⟨htlc_run constructed keeps (run_play (fun _ _ => trivial) (fun _ _ => trivial) _ _ _),
    ?_, ?_⟩
  · decide +kernel
  · decide +kernel

end Sample

end Usdd.Verif

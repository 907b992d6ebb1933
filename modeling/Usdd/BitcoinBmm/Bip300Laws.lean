import Usdd.BitcoinBmm.BlockLaws
import Usdd.BitcoinBmm.Bip300
/-!
# What one step of the replay does

Each part of the replay that returned says what it checked and what it changed: the transaction
that raises the treasury output, the messages of a coinbase, the aging of the proposals, and the
block as a whole. Everything later about runs is derived from these facts alone.
-/
namespace Usdd.BitcoinBmm

open Usdd.Foundation Usdd.Core

@[simp]
theorem orError_eq_ok {α : Type} (computation : Except ElementsSlot24ReplayError α) (value : α) :
    orError computation = .ok value ↔ computation = .ok value :=
  mapError_eq_ok _ _ _

theorem indexU32_eq_some {index : Nat} {found : UInt32} :
    indexU32 index = some found ↔ index = found.toNat := by
  unfold indexU32
  have fits := found.toNat_lt
  split
  · next small =>
    rw [Option.some.injEq, ← UInt32.toNat_inj, UInt32.toNat_ofNat_of_lt' small]
  · next large =>
    constructor
    · intro none
      cases none
    · rintro rfl
      exact absurd fits large

section Treasury

/-- The treasury outputs of a transaction with their indices, from an index on. -/
def treasuryOutputs : Nat → List ParsedOutput → List (Nat × Nat)
  | _, [] => []
  | index, output :: outputs =>
    (if isSlot24Treasury output.script then [(index, output.satoshis)] else []) ++
      treasuryOutputs (index + 1) outputs

/-- The loop returns the only treasury output, nothing where there is none, and refuses more
than one. -/
theorem treasuryOutput_eq (outputs : List ParsedOutput) (index : Nat)
    (found : Option (Nat × Nat)) :
    treasuryOutput index found outputs =
      match found.toList ++ treasuryOutputs index outputs with
      | [] => .ok none
      | [only] => .ok (some only)
      | _ => .error .multipleTreasuryOutputs := by
  induction outputs generalizing index found with
  | nil => cases found <;> rfl
  | cons output outputs ih =>
    unfold treasuryOutput treasuryOutputs
    by_cases treasury : isSlot24Treasury output.script
    · simp only [treasury, if_true]
      cases found with
      | none =>
        simp only [rejectIf, Option.isSome_none, Bool.false_eq_true, if_false, bind, Except.bind]
        rw [ih]
        rfl
      | some first => rfl
    · simp only [treasury, Bool.false_eq_true, if_false]
      rw [ih]
      rfl

/-- The loop returned the list of treasury outputs, which has at most one member. -/
theorem treasuryOutput_ok {outputs : List ParsedOutput} {found : Option (Nat × Nat)}
    (searched : treasuryOutput 0 none outputs = .ok found) :
    treasuryOutputs 0 outputs = found.toList := by
  rw [treasuryOutput_eq] at searched
  simp only [Option.toList_none, List.nil_append] at searched
  split at searched
  · next none => rw [none, ← Except.ok.inj searched]; rfl
  · next only single => rw [single, ← Except.ok.inj searched]; rfl
  · cases searched

/-- A transaction that replaces the treasury output by a larger one of its own: it spends the old
one, where there is one, has exactly one treasury output, and is followed by an address. -/
structure Raises (context : TransactionContext) (ctip : Option Slot24Ctip)
    (transaction : ParsedTransaction) (next : Slot24Ctip)
    (deposits : List MintableSlot24Deposit) (address : List UInt8) : Prop where
  spends : ∀ old, ctip = some old →
    (transaction.inputs.countP fun input => inputSpends input old) = 1
  txid : next.txid = transaction.txid
  single : treasuryOutputs 0 transaction.outputs = [(next.vout.toNat, next.valueSat)]
  larger : (ctip.map (·.valueSat)).getD 0 < next.valueSat
  addressed : (transaction.outputs[next.vout.toNat + 1]?.bind fun output =>
    extractSingleOpReturnPush output.script) = some address
  deposits : deposits =
    if context.requiredActive ∧ address ≠ [] ∧ address.length ≤ 128 then
      [⟨next, context.blockHash, context.height,
        next.valueSat - (ctip.map (·.valueSat)).getD 0, address⟩]
    else []

/-- A transaction leaves the treasury output or raises it. -/
theorem moveCtip_ok {context : TransactionContext} {progress next : TransactionProgress}
    {transaction : ParsedTransaction}
    (moved : moveCtip context progress transaction = .ok next) :
    next = progress ∨ ∃ ctip deposits address,
      Raises context progress.ctip transaction ctip deposits address ∧
      next = { progress with ctip := some ctip, deposits := progress.deposits ++ deposits } := by
  simp only [moveCtip] at moved
  simp only [↓then_eq_ok, bind_eq_ok, orError_eq_ok, rejectIf_eq_ok] at moved
  obtain ⟨treasury, searched, parallel, replaced, moved⟩ := moved
  split at moved
  · exact .inl (Except.ok.inj moved).symm
  · next moves =>
    simp only [↓then_eq_ok, bind_eq_ok, rejectIf_eq_ok, okOr_eq_ok, orError_eq_ok, pure_eq_ok,
      Prod.exists, raiseCtip, indexU32_eq_some] at moved
    obtain ⟨few, index, value, rfl, ctip, deposits, ⟨changed, grows, address, addressed, -, vout,
      rfl, made⟩, rfl⟩ := moved
    rw [Prod.mk.injEq] at made
    obtain ⟨rfl, rfl⟩ := made
    refine .inr ⟨⟨transaction.txid, vout, value⟩, _, address,
      ⟨?_, rfl, treasuryOutput_ok searched, ?_, addressed, rfl⟩, rfl⟩
    · intro old same
      simp only [same, currentCtipInputs] at few moves
      have some : ¬(transaction.inputs.countP fun input => inputSpends input old) = 0 :=
        fun zero => moves (.inl ⟨rfl, zero⟩)
      omega
    · simp only
      omega

/-- What one transaction does: its request is counted, and the treasury output is left or
raised. -/
theorem applyTransaction_ok {context : TransactionContext} {progress next : TransactionProgress}
    {transaction : ParsedTransaction}
    (applied : applyTransaction context progress transaction = .ok next) :
    checkM8 context progress.matchingM8Requests transaction = .ok next.matchingM8Requests ∧
    ((next.ctip = progress.ctip ∧ next.deposits = progress.deposits) ∨
      ∃ ctip deposits address, Raises context progress.ctip transaction ctip deposits address ∧
        next.ctip = some ctip ∧ next.deposits = progress.deposits ++ deposits) := by
  simp only [applyTransaction, bind_eq_ok, orError_eq_ok] at applied
  obtain ⟨requests, checked, applied⟩ := applied
  split at applied
  · rcases moveCtip_ok applied with rfl | ⟨ctip, deposits, address, raises, rfl⟩
    · exact ⟨checked, .inl ⟨rfl, rfl⟩⟩
    · exact ⟨checked, .inr ⟨ctip, deposits, address, raises, rfl, rfl⟩⟩
  · cases applied
    exact ⟨checked, .inl ⟨rfl, rfl⟩⟩

/-- A request is counted when it names the block's commitment and the block before it. -/
theorem checkM8_ok {context : TransactionContext} {before after : Nat}
    {transaction : ParsedTransaction} (checked : checkM8 context before transaction = .ok after) :
    after = before + (if (parseSlot24M8 transaction).isSome then 1 else 0) ∧
    ∀ childHash previousHash, parseSlot24M8 transaction = some (childHash, previousHash) →
      ∃ m7, context.observedM7 = some m7 ∧ childHash = m7.childHash ∧
        previousHash = context.previousBlock := by
  unfold checkM8 at checked
  split at checked
  · next none =>
    cases checked
    exact ⟨by simp [none], fun _ _ same => by simp [none] at same⟩
  · next childHash previousHash request =>
    simp only [↓then_eq_ok, bind_eq_ok, okOr_eq_ok, rejectIf_eq_ok, pure_eq_ok,
      not_not] at checked
    obtain ⟨m7, observed, child, previous, -, rfl⟩ := checked
    refine ⟨by simp [request], fun childHash' previousHash' same => ?_⟩
    rw [request, Option.some.injEq, Prod.mk.injEq] at same
    obtain ⟨rfl, rfl⟩ := same
    exact ⟨m7, observed, child, previous⟩

/-- All requests of a block are counted, and each names the commitment and the block before. -/
theorem applyTransactions_requests {context : TransactionContext}
    {transactions : List ParsedTransaction} {progress final : TransactionProgress}
    (applied : applyTransactions context progress transactions = .ok final) :
    final.matchingM8Requests = progress.matchingM8Requests +
      transactions.countP (fun transaction => (parseSlot24M8 transaction).isSome) ∧
    ∀ transaction ∈ transactions, ∀ childHash previousHash,
      parseSlot24M8 transaction = some (childHash, previousHash) →
        ∃ m7, context.observedM7 = some m7 ∧ childHash = m7.childHash ∧
          previousHash = context.previousBlock := by
  induction transactions generalizing progress with
  | nil =>
    cases applied
    exact ⟨rfl, by simp⟩
  | cons transaction transactions ih =>
    simp only [applyTransactions, bind_eq_ok] at applied
    obtain ⟨next, one, applied⟩ := applied
    obtain ⟨count, named⟩ := checkM8_ok (applyTransaction_ok one).1
    obtain ⟨counts, all⟩ := ih applied
    rw [List.countP_cons]
    exact ⟨by omega, List.forall_mem_cons.mpr ⟨named, all⟩⟩

end Treasury

section Blocks

variable [Hashing]

/-- An accepted block went through its messages, its commitment and its transactions, and the
state it leaves is valid. -/
structure AppliedBlock (state : ElementsSlot24ReplayState) (parsed : ParsedBlock)
    (next : ElementsSlot24ReplayState) (effects : ElementsSlot24BlockEffects)
    (messaged : ElementsSlot24ReplayState) (observed : Option ObservedM7)
    (progress : TransactionProgress) : Prop where
  messages : applyCoinbaseMessages state parsed state.nextHeight = .ok messaged
  seen : observeSlot24M7 parsed = .ok observed
  transactions : applyTransactions
    (transactionContext messaged parsed state.nextHeight observed) ⟨messaged.ctip, [], 0⟩
      (parsed.transactions.drop 1) = .ok progress
  height : next.nextHeight.toNat = state.nextHeight.toNat + 1
  final : next = { messaged with
    ctip := progress.ctip
    tipHash := parsed.metadata.blockHash
    nextHeight := next.nextHeight }
  valid : next.validate = .ok ()
  reported : effects = {
    deposits := progress.deposits
    bmmEdge := bmmEdge parsed state.nextHeight messaged.requiredProposalIsActive observed
    matchingM8Requests := progress.matchingM8Requests
    sawSlot24M7 := observed.isSome
    requiredProposalActive := messaged.requiredProposalIsActive }

theorem applyParsedBlock_ok {state next : ElementsSlot24ReplayState} {parsed : ParsedBlock}
    {effects : ElementsSlot24BlockEffects}
    (applied : applyParsedBlock state parsed = .ok (next, effects)) :
    ∃ messaged observed progress,
      AppliedBlock state parsed next effects messaged observed progress := by
  simp only [applyParsedBlock] at applied
  simp only [↓then_eq_ok, bind_eq_ok, orError_eq_ok, rejectIf_eq_ok, okOr_eq_ok, pure_eq_ok,
    Prod.mk.injEq, checkedSucc_eq_some] at applied
  obtain ⟨-, -, messaged, messages, observed, seen, progress, moved, -, height, counted, valid, rfl,
    rfl⟩ := applied
  exact ⟨messaged, observed, progress, messages, seen, moved, counted.symm, rfl, valid, rfl⟩

/-- An accepted block was parsed, applied to a valid state, and left a valid one. -/
theorem applyBlock_ok {state next : ElementsSlot24ReplayState} {bytes : List UInt8}
    {effects : ElementsSlot24BlockEffects}
    (applied : applyMerkleBoundElementsSlot24ParentBlock state bytes = .ok (next, effects)) :
    ∃ parsed, parseAndVerifyBlock bytes = .ok parsed ∧
      applyParsedBlock state parsed = .ok (next, effects) := by
  simp only [applyMerkleBoundElementsSlot24ParentBlock, bind_eq_ok, mapError_eq_ok] at applied
  obtain ⟨_, -, parsed, accepted, applied⟩ := applied
  exact ⟨parsed, accepted, applied⟩

end Blocks

end Usdd.BitcoinBmm

import Usdd.Verif.ReplayRuns
/-!
# Conservation of the slot-24 treasury

A block threads the treasury output through its transactions: those that raise it form a chain
from the output before the block to the one after it. The deposits of the block are read off that
chain, so the deposits of a run never add up to more than the treasury output holds.
-/
namespace Usdd.Verif

open Usdd.Foundation Usdd.Core Usdd.BitcoinBmm

section Chains

/-- A transaction that replaced the treasury output, with the output it spent, the one it created
and the address behind it. -/
structure TreasuryRaise where
  transaction : ParsedTransaction
  spent : Option Slot24Ctip
  created : Slot24Ctip
  address : List UInt8

/-- The value of a treasury output; there is none before the first one. -/
def ctipValue (ctip : Option Slot24Ctip) : Nat := (ctip.map (·.valueSat)).getD 0

namespace TreasuryRaise

/-- By how much the treasury output grew. -/
def increase (raise : TreasuryRaise) : Nat := raise.created.valueSat - ctipValue raise.spent

/-- The address behind the treasury output has 1 to 128 bytes. -/
def Addressed (raise : TreasuryRaise) : Prop :=
  raise.address ≠ [] ∧ raise.address.length ≤ 128

instance (raise : TreasuryRaise) : Decidable raise.Addressed := by
  unfold Addressed
  infer_instance

/-- The deposit of a block that the transaction makes. -/
def deposit (blockHash : BlockHash) (height : UInt32) (raise : TreasuryRaise) :
    MintableSlot24Deposit where
  outpoint := raise.created
  blockHash
  blockHeight := height
  valueSat := raise.increase
  elementsAddress := raise.address

/-- The transaction spends the output before it in one input, creates the output behind it as its
only treasury output, of a larger value, and has the address in the output that follows. -/
structure Sound (raise : TreasuryRaise) : Prop where
  spends : ∀ old, raise.spent = some old →
    (raise.transaction.inputs.countP fun input => inputSpends input old) = 1
  outpoint : raise.created.txid = raise.transaction.txid
  single : treasuryOutputs 0 raise.transaction.outputs =
    [(raise.created.vout.toNat, raise.created.valueSat)]
  larger : ctipValue raise.spent < raise.created.valueSat
  followed : (raise.transaction.outputs[raise.created.vout.toNat + 1]?.bind fun output =>
    extractSingleOpReturnPush output.script) = some raise.address

end TreasuryRaise

/-- The treasury output goes from one to another through raises, each spending what the one
before it created. -/
inductive CtipChain : Option Slot24Ctip → List TreasuryRaise → Option Slot24Ctip → Prop
  | unchanged (ctip : Option Slot24Ctip) : CtipChain ctip [] ctip
  | raised {raise : TreasuryRaise} {raises : List TreasuryRaise} {final : Option Slot24Ctip} :
      CtipChain (some raise.created) raises final → CtipChain raise.spent (raise :: raises) final

namespace CtipChain

variable {first final : Option Slot24Ctip} {raises : List TreasuryRaise}

/-- Along a chain a treasury output that is there stays there. -/
theorem isSome (chain : CtipChain first raises final) (there : first.isSome) : final.isSome := by
  induction chain with
  | unchanged => exact there
  | raised _ ih => exact ih rfl

/-- A chain ends where it began or with what one of its transactions created. -/
theorem final_eq (chain : CtipChain first raises final) :
    final = first ∨ ∃ raise ∈ raises, final = some raise.created := by
  induction chain with
  | unchanged => exact .inl rfl
  | @raised raise raises final _ ih =>
    rcases ih with rfl | ⟨later, member, made⟩
    · exact .inr ⟨raise, List.mem_cons_self, rfl⟩
    · exact .inr ⟨later, List.mem_cons_of_mem _ member, made⟩

/-- The increases along a chain add up to the difference of its ends. -/
theorem sum_increase (chain : CtipChain first raises final)
    (sound : ∀ raise ∈ raises, raise.Sound) :
    ctipValue first + (raises.map (·.increase)).sum = ctipValue final := by
  induction chain with
  | unchanged => rfl
  | @raised raise raises final _ ih =>
    have larger := (sound raise List.mem_cons_self).larger
    have rest := ih fun other member => sound other (List.mem_cons_of_mem _ member)
    have created : ctipValue (some raise.created) = raise.created.valueSat := rfl
    rw [List.map_cons, List.sum_cons, ← rest, created, TreasuryRaise.increase]
    omega

end CtipChain

/-- The deposits a chain of raises makes in a block. -/
def mintable (active : Bool) (blockHash : BlockHash) (height : UInt32)
    (raises : List TreasuryRaise) : List MintableSlot24Deposit :=
  if active then (raises.filter (·.Addressed)).map (·.deposit blockHash height) else []

/-- The deposits are worth at most the increases of their chain. -/
theorem mintable_sum_le (active : Bool) (blockHash : BlockHash) (height : UInt32)
    (raises : List TreasuryRaise) :
    ((mintable active blockHash height raises).map (·.valueSat)).sum ≤
      (raises.map (·.increase)).sum := by
  unfold mintable
  split
  · rw [List.map_map]
    exact (List.filter_sublist.map _).sum_le_sum fun _ _ => Nat.zero_le _
  · exact Nat.zero_le _

end Chains

section Blocks

/-- One transaction extends the chain of its block or leaves it. -/
theorem applyTransaction_raise {context : TransactionContext} {progress next : TransactionProgress}
    {transaction : ParsedTransaction}
    (applied : applyTransaction context progress transaction = .ok next) :
    (next.ctip = progress.ctip ∧ next.deposits = progress.deposits) ∨
    ∃ raise : TreasuryRaise, raise.Sound ∧ raise.transaction = transaction ∧
      raise.spent = progress.ctip ∧ next.ctip = some raise.created ∧
      next.deposits = progress.deposits ++
        mintable context.requiredActive context.blockHash context.height [raise] := by
  rcases (applyTransaction_ok applied).2 with same | ⟨ctip, deposits, address, raises, made, added⟩
  · exact .inl same
  · refine .inr ⟨⟨transaction, progress.ctip, ctip, address⟩, ⟨raises.spends, raises.txid,
      raises.single, raises.larger, raises.addressed⟩, rfl, rfl, made, ?_⟩
    rw [added, raises.deposits]
    congr 1
    unfold mintable
    by_cases active : context.requiredActive
    · by_cases addressed : address ≠ [] ∧ address.length ≤ 128
      · have kept : TreasuryRaise.Addressed ⟨transaction, progress.ctip, ctip, address⟩ := addressed
        rw [if_pos ⟨active, addressed⟩, if_pos active, List.filter_cons_of_pos (by simpa using kept)]
        rfl
      · have dropped : ¬TreasuryRaise.Addressed ⟨transaction, progress.ctip, ctip, address⟩ :=
          addressed
        rw [if_neg fun both => addressed both.2, if_pos active,
          List.filter_cons_of_neg (by simpa using dropped)]
        rfl
    · rw [if_neg fun both => active both.1, if_neg active]

/-- Deposits of two parts of a chain follow one another. -/
theorem mintable_cons (active : Bool) (blockHash : BlockHash) (height : UInt32)
    (raise : TreasuryRaise) (raises : List TreasuryRaise) :
    mintable active blockHash height (raise :: raises) =
      mintable active blockHash height [raise] ++ mintable active blockHash height raises := by
  unfold mintable
  split
  · rw [← List.map_append, ← List.filter_append]
    rfl
  · rfl

/-- The transactions of a block thread the treasury output through a chain of raises. -/
theorem applyTransactions_chain {context : TransactionContext}
    {transactions : List ParsedTransaction} {progress final : TransactionProgress}
    (applied : applyTransactions context progress transactions = .ok final) :
    ∃ raises, (raises.map TreasuryRaise.transaction).Sublist transactions ∧
      (∀ raise ∈ raises, raise.Sound) ∧ CtipChain progress.ctip raises final.ctip ∧
      final.deposits = progress.deposits ++
        mintable context.requiredActive context.blockHash context.height raises := by
  induction transactions generalizing progress with
  | nil =>
    cases applied
    exact ⟨[], .refl _, nofun, .unchanged _, by simp [mintable]⟩
  | cons transaction transactions ih =>
    simp only [applyTransactions, bind_eq_ok] at applied
    obtain ⟨next, one, applied⟩ := applied
    obtain ⟨raises, inside, sound, chain, deposits⟩ := ih applied
    rcases applyTransaction_raise one with ⟨ctip, same⟩ | ⟨raise, sound', rfl, spent, made, added⟩
    · rw [ctip] at chain
      rw [same] at deposits
      exact ⟨raises, inside.cons _, sound, chain, deposits⟩
    · refine ⟨raise :: raises, inside.cons_cons _, List.forall_mem_cons.mpr ⟨sound', sound⟩, ?_, ?_⟩
      · rw [made] at chain
        rw [← spent]
        exact .raised chain
      · rw [deposits, added, mintable_cons _ _ _ raise raises, List.append_assoc]

variable [Hashing]

/-- What an accepted block does to the treasury: a chain of raises, made by transactions behind
the coinbase, leads from the output before the block to the one after it, and the deposits are
those of the chain while the required proposal is active. -/
structure BlockTreasury (parsed : ParsedBlock) (before after : ElementsSlot24ReplayState)
    (effects : ElementsSlot24BlockEffects) (raises : List TreasuryRaise) : Prop where
  made : (raises.map TreasuryRaise.transaction).Sublist (parsed.transactions.drop 1)
  sound : ∀ raise ∈ raises, raise.Sound
  chain : CtipChain before.ctip raises after.ctip
  deposits : effects.deposits = mintable after.requiredProposalIsActive parsed.metadata.blockHash
    before.nextHeight raises

/-- Every step of a run treats the treasury that way. -/
theorem RunStep.treasury {bytes : List UInt8} {before after : ElementsSlot24ReplayState}
    {effects : ElementsSlot24BlockEffects} {parsed : ParsedBlock}
    {messaged : ElementsSlot24ReplayState} {observed : Option ObservedM7}
    {progress : TransactionProgress}
    (step : RunStep bytes before after effects parsed messaged observed progress) :
    ∃ raises, BlockTreasury parsed before after effects raises := by
  obtain ⟨raises, inside, sound, chain, deposits⟩ :=
    applyTransactions_chain step.applied.transactions
  have ctip : after.ctip = progress.ctip := by rw [step.applied.final]
  have active : after.requiredProposalIsActive = messaged.requiredProposalIsActive := by
    rw [step.applied.final]
    rfl
  refine ⟨raises, inside, sound, ?_, ?_⟩
  · rw [ctip, ← step.messages.ctip]
    exact chain
  · rw [step.applied.reported, active]
    exact deposits

omit [Hashing] in
/-- The deposits a block makes fit between the treasury outputs around it. -/
theorem BlockTreasury.deposits_le {parsed : ParsedBlock} {before after : ElementsSlot24ReplayState}
    {effects : ElementsSlot24BlockEffects} {raises : List TreasuryRaise}
    (block : BlockTreasury parsed before after effects raises) :
    ctipValue before.ctip + (effects.deposits.map (·.valueSat)).sum ≤ ctipValue after.ctip := by
  have total := block.chain.sum_increase block.sound
  have few := mintable_sum_le after.requiredProposalIsActive parsed.metadata.blockHash
    before.nextHeight raises
  rw [block.deposits]
  omega

end Blocks

section Runs

variable [Hashing]

/-- The deposits the first blocks of a run returned. -/
def depositsOf (results : List (ElementsSlot24ReplayState × ElementsSlot24BlockEffects))
    (count : Nat) : List MintableSlot24Deposit :=
  ((results.take count).map fun result => result.2.deposits).flatten

variable {start : ElementsSlot24ReplayState} {blocks : List (List UInt8)}
  {results : List (ElementsSlot24ReplayState × ElementsSlot24BlockEffects)}

/-- The deposits of a run never add up to more than its treasury output holds. -/
theorem acceptBlocks_deposits (accepted : acceptBlocks start blocks = .ok results) {count : Nat}
    {state : ElementsSlot24ReplayState} (here : stateAt start results count = some state) :
    ((depositsOf results count).map (·.valueSat)).sum ≤ ctipValue state.ctip := by
  induction count generalizing state with
  | zero => exact Nat.zero_le _
  | succ count ih =>
    obtain ⟨effects, found⟩ := stateAt_succ.mp here
    obtain ⟨bytes, before, -, earlier, parsed, messaged, observed, progress, step⟩ :=
      acceptBlocks_step accepted found
    obtain ⟨raises, block⟩ := step.treasury
    have sofar := ih earlier
    have now := block.deposits_le
    have split : depositsOf results (count + 1) = depositsOf results count ++ effects.deposits := by
      rw [depositsOf, depositsOf, List.take_add_one, found]
      simp
    rw [split, List.map_append, List.sum_append]
    omega

/-- A treasury output that is there stays there. -/
theorem acceptBlocks_ctip_stays (accepted : acceptBlocks start blocks = .ok results)
    {count more : Nat} {state later : ElementsSlot24ReplayState}
    (here : stateAt start results count = some state)
    (there : stateAt start results (count + more) = some later) (held : state.ctip.isSome) :
    later.ctip.isSome := by
  induction more generalizing later with
  | zero =>
    rw [Nat.add_zero, here, Option.some.injEq] at there
    exact there ▸ held
  | succ more ih =>
    obtain ⟨effects, found⟩ := stateAt_succ.mp there
    obtain ⟨bytes, before, -, earlier, parsed, messaged, observed, progress, step⟩ :=
      acceptBlocks_step accepted found
    obtain ⟨raises, block⟩ := step.treasury
    exact block.chain.isSome (ih earlier)

omit [Hashing] in
/-- The treasury output of a valid state holds at most the money there is. -/
theorem ctipValue_le_of_valid {state : ElementsSlot24ReplayState}
    (valid : state.validate = .ok ()) (later : state.nextHeight ≠ 0) :
    ctipValue state.ctip ≤ maxMoneySatoshis := by
  simp only [ElementsSlot24ReplayState.validate] at valid
  simp only [↓then_eq_ok, later, if_false] at valid
  obtain ⟨-, -, -, -, -, -, ctip, -⟩ := valid
  unfold ElementsSlot24ReplayState.validateCtip at ctip
  split at ctip
  · next none => simp [none, ctipValue]
  · next found some =>
    rw [rejectIf_eq_ok, not_or, not_or, not_lt] at ctip
    simpa [some, ctipValue] using ctip.2.2

end Runs

/-- The treasury of slot 24 is conserved along every run: its output stays once it is there,
every change is a chain of raises, and all deposits together fit into it. -/
theorem treasury_conserved [Hashing] (config : ElementsSlot24ReplayConfig)
    (start : ElementsSlot24ReplayState) (blocks : List (List UInt8))
    (results : List (ElementsSlot24ReplayState × ElementsSlot24BlockEffects))
    (begun : ElementsSlot24ReplayState.beforeParentGenesis config = .ok start)
    (accepted : acceptBlocks start blocks = .ok results) :
    (∀ count more state later, stateAt start results count = some state →
      stateAt start results (count + more) = some later → state.ctip.isSome →
        later.ctip.isSome) ∧
    (∀ count state, stateAt start results count = some state →
      ((depositsOf results count).map (·.valueSat)).sum ≤ ctipValue state.ctip ∧
        ctipValue state.ctip ≤ maxMoneySatoshis) ∧
    ∀ position after effects, results[position]? = some (after, effects) →
      ∃ bytes before parsed raises, blocks[position]? = some bytes ∧
        stateAt start results position = some before ∧
        parseAndVerifyBlock bytes = .ok parsed ∧
        BlockTreasury parsed before after effects raises := by
  refine ⟨?_, ?_, ?_⟩
  · intro count more state later here there held
    exact acceptBlocks_ctip_stays accepted here there held
  · intro count state here
    refine ⟨acceptBlocks_deposits accepted here, ?_⟩
    cases count with
    | zero =>
      simp only [ElementsSlot24ReplayState.beforeParentGenesis] at begun
      simp only [↓then_eq_ok, pure_eq_ok] at begun
      obtain ⟨-, rfl⟩ := begun
      cases here
      exact Nat.zero_le _
    | succ count =>
      obtain ⟨effects, found⟩ := stateAt_succ.mp here
      obtain ⟨_, _, -, -, _, _, _, _, step⟩ := acceptBlocks_step accepted found
      obtain ⟨valid, past⟩ := step.valid
      exact ctipValue_le_of_valid valid past
  · intro position after effects found
    obtain ⟨bytes, before, block, earlier, parsed, messaged, observed, progress, step⟩ :=
      acceptBlocks_step accepted found
    obtain ⟨raises, treasury⟩ := step.treasury
    exact ⟨bytes, before, parsed, raises, block, earlier, step.accepted, treasury⟩

/-- The sample run makes one deposit, in its last block, and its treasury holds it. -/
theorem treasury_conserved_sample :
    letI := sha256Hashing
    ∃ results, acceptBlocks sampleStart sampleBlocks = .ok results ∧
      ∀ count state, stateAt sampleStart results count = some state →
        ((depositsOf results count).map (·.valueSat)).sum ≤ ctipValue state.ctip ∧
          ctipValue state.ctip ≤ maxMoneySatoshis := by
  let hashing := sha256Hashing
  obtain ⟨results, accepted⟩ := sampleRun_accepted
  exact ⟨results, accepted, (treasury_conserved sampleConfig sampleStart sampleBlocks results
    sampleStart_begun accepted).2.1⟩

end Usdd.Verif

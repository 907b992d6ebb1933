import Usdd.Simplicity.Transactions
/-!
# Supply in controller transactions

An accepted controller transaction moves the one reissuance token from its first input to its
first output and creates exactly the USDD that its recipients are paid. The paid outputs are
known by position and every later output is known not to be USDD, so the sum over all outputs is
the sum of the batch whatever else the transaction carries.
-/
namespace Usdd.Verif

open Usdd.Foundation Usdd.Simplicity

/-- The USDD that the outputs carry. -/
def usddTotal (arguments : TransactionArguments) (outputs : List ControllerTxOutput) : Int :=
  ((outputs.filter fun txout => txout.assetId = arguments.usddAssetId).map (·.amount)).sum

/-- One input and one output hold the token, with amount one and the controller's scripts. -/
structure TokenMoved (arguments : TransactionArguments) (inputs : List ControllerTxInput)
    (outputs : List ControllerTxOutput) : Prop where
  spent : ∃ txin, inputs[0]? = some txin ∧ txin.assetId = arguments.reissuanceTokenId ∧
    txin.amount = 1 ∧ txin.amountExplicit = true ∧
    txin.scriptHash = arguments.currentControllerScriptHash
  spent_once : ∀ index txin, inputs[index]? = some txin →
    txin.assetId = arguments.reissuanceTokenId → index = 0
  kept : ∃ txout, outputs[0]? = some txout ∧ txout.assetId = arguments.reissuanceTokenId ∧
    txout.amount = 1 ∧ txout.amountExplicit = true ∧
    txout.scriptHash = arguments.successorControllerScriptHash
  kept_once : ∀ index txout, outputs[index]? = some txout →
    txout.assetId = arguments.reissuanceTokenId → index = 0

/-- Nothing comes in as USDD, nothing is issued elsewhere, and no asset is hidden. -/
structure NothingElse (arguments : TransactionArguments) (inputs : List ControllerTxInput)
    (outputs : List ControllerTxOutput) : Prop where
  inputsClear : ∀ txin ∈ inputs, txin.assetId ≠ arguments.usddAssetId ∧
    txin.assetExplicit = true ∧ txin.issuanceTokenAmount = 0
  others : ∀ (index : Nat) txin, inputs[index]? = some txin → index ≠ 0 →
    txin.issuanceKind = .none ∧ txin.issuanceAssetAmount = 0
  outputsClear : ∀ txout ∈ outputs, txout.assetExplicit = true
  explicitTotal : ((outputs.filter (·.amountExplicit)).map (·.amount)).sum ≤
    21000000 * 100000000

/-- What is issued is what the outputs carry, and it pays the recipients in nonce order. -/
structure MintPaid (arguments : TransactionArguments) (inputs : List ControllerTxInput)
    (outputs : List ControllerTxOutput) : Prop where
  issued : ∃ txin, inputs[0]? = some txin ∧ txin.issuanceKind = .reissuance ∧
    txin.issuanceAssetId = some arguments.usddAssetId ∧
    txin.issuanceAssetAmountExplicit = true ∧
    txin.issuanceAssetAmount = usddTotal arguments outputs
  total : usddTotal arguments outputs =
    100 * (arguments.recipients.map (·.amountUsdt6)).sum
  positions : ∀ index txout, outputs[index]? = some txout →
    (txout.assetId = arguments.usddAssetId ↔
      1 ≤ index ∧ index ≤ arguments.recipients.length)
  paid : ∀ (index : Nat) recipient, arguments.recipients[index]? = some recipient →
    recipient.nonce = arguments.expectedNonce + index ∧
      ∃ txout, outputs[index + 1]? = some txout ∧ txout.amountExplicit = true ∧
        txout.amount = 100 * recipient.amountUsdt6 ∧ txout.scriptHash = recipient.scriptHash

/-- A heartbeat issues nothing and carries no USDD. -/
structure HeartbeatOnly (arguments : TransactionArguments) (inputs : List ControllerTxInput)
    (outputs : List ControllerTxOutput) : Prop where
  issued : ∀ txin ∈ inputs, txin.issuanceKind = .none ∧ txin.issuanceAssetAmount = 0
  outputsClear : ∀ txout ∈ outputs, txout.assetId ≠ arguments.usddAssetId

/-- Supply conservation of a transaction. -/
structure SupplyConserved (arguments : TransactionArguments) (inputs : List ControllerTxInput)
    (outputs : List ControllerTxOutput) : Prop where
  token : TokenMoved arguments inputs outputs
  nothingElse : NothingElse arguments inputs outputs
  mint : arguments.heartbeat = false → MintPaid arguments inputs outputs
  heartbeat : arguments.heartbeat = true → HeartbeatOnly arguments inputs outputs

section Checks

theorem checkEach_eq_ok {α : Type} {check : Nat → α → Except String Unit} {items : List α} :
    TransactionArguments.checkEach check items = .ok () ↔
      ∀ index item, items[index]? = some item → check index item = .ok () := by
  rw [TransactionArguments.checkEach, forM_eq_ok]
  constructor
  · intro passed index item found
    exact passed (item, index) (List.mk_mem_zipIdx_iff_getElem?.mpr found)
  · intro passed item member
    exact passed item.2 item.1 (List.mk_mem_zipIdx_iff_getElem?.mp member)

/-- What an accepted input says of itself. -/
structure InputChecked (txin : ControllerTxInput) : Prop where
  assetExplicit : txin.assetExplicit = true
  tokens : txin.issuanceTokenAmount = 0
  quiet : txin.issuanceKind = .none → txin.issuanceAssetAmount = 0

theorem validateInput_checked {arguments : TransactionArguments} {index : Nat}
    {txin : ControllerTxInput} (accepted : arguments.validateInput index txin = .ok ()) :
    InputChecked txin := by
  simp only [TransactionArguments.validateInput] at accepted
  by_cases quiet : txin.issuanceKind = .none
  · rw [if_pos quiet] at accepted
    simp only [↓then_eq_ok, rejectIf_eq_ok, not_or, not_not, ne_eq,
      Bool.not_eq_false] at accepted
    obtain ⟨-, -, -, assets, -, -, -, -, -, -, amount, tokens⟩ := accepted
    exact ⟨assets, tokens, fun _ => amount⟩
  · rw [if_neg quiet] at accepted
    simp only [↓then_eq_ok, rejectIf_eq_ok, not_not, ne_eq, Bool.not_eq_false] at accepted
    obtain ⟨-, -, -, assets, -, -, -, -, -, -, -, tokens⟩ := accepted
    exact ⟨assets, tokens, fun kind => (quiet kind).elim⟩

theorem validateOutput_checked {arguments : TransactionArguments} {index : Nat}
    {txout : ControllerTxOutput} (accepted : arguments.validateOutput index txout = .ok ()) :
    txout.assetExplicit = true := by
  simp only [TransactionArguments.validateOutput] at accepted
  simp only [↓then_eq_ok, rejectIf_eq_ok, Bool.not_eq_false] at accepted
  exact accepted.2.2.2.1

/-- The rules of a transaction that both branches share. -/
structure Projected (arguments : TransactionArguments) (inputs : List ControllerTxInput)
    (outputs : List ControllerTxOutput) (controller : ControllerTxInput)
    (successor : ControllerTxOutput) : Prop where
  distinct : arguments.usddAssetId ≠ arguments.reissuanceTokenId
  nonce : 0 ≤ arguments.expectedNonce
  firstInput : inputs.head? = some controller
  firstOutput : outputs.head? = some successor
  inputsChecked : ∀ txin ∈ inputs, InputChecked txin
  outputsChecked : ∀ txout ∈ outputs, txout.assetExplicit = true
  explicitTotal : ((outputs.filter (·.amountExplicit)).map (·.amount)).sum ≤
    elementsMaxExplicitOutputTotalBase
  singleton : controller.assetId = arguments.reissuanceTokenId ∧ controller.amount = 1 ∧
    controller.amountExplicit = true ∧
    controller.scriptHash = arguments.currentControllerScriptHash
  others : ∀ txin ∈ inputs.tail, ¬arguments.Protocol txin.assetId ∧ txin.issuanceKind = .none
  kept : successor.assetId = arguments.reissuanceTokenId ∧ successor.amount = 1 ∧
    successor.amountExplicit = true ∧
    successor.scriptHash = arguments.successorControllerScriptHash

/-- What a transaction that returns has passed: the shared rules, its branch, and the sweep over
the outputs after the protocol's own. -/
theorem validateControllerTransaction_passed {arguments : TransactionArguments}
    {inputs : List ControllerTxInput} {outputs : List ControllerTxOutput} {total : Int}
    (accepted : validateControllerTransaction inputs outputs arguments = .ok total) :
    ∃ controller successor, Projected arguments inputs outputs controller successor ∧
      (if arguments.heartbeat then arguments.checkHeartbeat controller
        else arguments.checkMint controller outputs) = .ok total ∧
      ∀ txout ∈ outputs.drop (if arguments.heartbeat then 1 else 1 + arguments.recipients.length),
        ¬arguments.Protocol txout.assetId := by
  simp only [validateControllerTransaction] at accepted
  simp only [↓then_eq_ok, bind_eq_ok, rejectIf_eq_ok, okOr_eq_ok, forM_eq_ok, checkEach_eq_ok,
    TransactionArguments.validate, TransactionArguments.checkController,
    TransactionArguments.checkSuccessor] at accepted
  simp only [not_or, not_not, ne_eq, Bool.not_eq_false, checkUint_eq_ok, Bool.false_eq_true,
    if_false, gt_iff_lt, not_lt] at accepted
  obtain ⟨⟨_, -, -, -, -, -, distinct, nonce, -⟩, controller, firstInput, successor, firstOutput,
    inputsPass, outputsPass, explicitTotal, ⟨singleton, others⟩, kept, branch⟩ := accepted
  have projected : Projected arguments inputs outputs controller successor := by
    refine ⟨distinct, nonce, firstInput, firstOutput, ?_, ?_, explicitTotal, singleton, others,
      kept⟩
    · intro txin member
      obtain ⟨index, found⟩ := List.mem_iff_getElem?.mp member
      exact validateInput_checked (inputsPass index txin found)
    · intro txout member
      obtain ⟨index, found⟩ := List.mem_iff_getElem?.mp member
      exact validateOutput_checked (outputsPass index txout found)
  refine ⟨controller, successor, projected, ?_⟩
  cases beats : arguments.heartbeat with
  | true =>
    simp only [beats, if_true] at branch ⊢
    simp only [↓then_eq_ok, bind_eq_ok, rejectIf_eq_ok, forM_eq_ok, pure_eq_ok] at branch
    obtain ⟨_, passed, sweep, rfl⟩ := branch
    exact ⟨passed, sweep⟩
  | false =>
    simp only [beats, Bool.false_eq_true, if_false] at branch ⊢
    simp only [↓then_eq_ok, bind_eq_ok, rejectIf_eq_ok, forM_eq_ok, pure_eq_ok] at branch
    obtain ⟨_, passed, sweep, rfl⟩ := branch
    exact ⟨passed, sweep⟩

end Checks

section Shared

variable {arguments : TransactionArguments} {inputs : List ControllerTxInput}
  {outputs : List ControllerTxOutput} {controller : ControllerTxInput}
  {successor : ControllerTxOutput}

/-- An input past the first is one of the others. -/
theorem mem_tail_of_getElem? {α : Type} {items : List α} {index : Nat} {item : α}
    (found : items[index]? = some item) (later : index ≠ 0) : item ∈ items.tail := by
  obtain ⟨before, rfl⟩ := Nat.exists_eq_succ_of_ne_zero later
  rw [List.mem_iff_getElem?]
  exact ⟨before, by rw [List.getElem?_tail]; exact found⟩

theorem mem_of_drop {α : Type} {items : List α} {index start : Nat} {item : α}
    (found : items[index]? = some item) (later : start ≤ index) : item ∈ items.drop start := by
  rw [List.mem_iff_getElem?]
  exact ⟨index - start, by rw [List.getElem?_drop, Nat.add_sub_cancel' later]; exact found⟩

theorem getElem?_zero_of_head? {α : Type} {items : List α} {item : α}
    (found : items.head? = some item) : items[0]? = some item := by
  rw [← List.head?_eq_getElem?]
  exact found

/-- An input is the controller or one of the others. -/
theorem Projected.input_cases
    (projected : Projected arguments inputs outputs controller successor)
    {txin : ControllerTxInput} (member : txin ∈ inputs) :
    txin = controller ∨ ¬arguments.Protocol txin.assetId ∧ txin.issuanceKind = .none := by
  have firstInput := projected.firstInput
  have others := projected.others
  cases inputs with
  | nil => cases member
  | cons first rest =>
    simp only [List.head?_cons, Option.some.injEq] at firstInput
    rcases List.mem_cons.mp member with rfl | later
    · exact Or.inl firstInput
    · exact Or.inr (others txin later)

theorem Projected.nothingElse
    (projected : Projected arguments inputs outputs controller successor) :
    NothingElse arguments inputs outputs := by
  refine ⟨?_, ?_, projected.outputsChecked, projected.explicitTotal⟩
  · intro txin member
    have checked := projected.inputsChecked txin member
    refine ⟨?_, checked.assetExplicit, checked.tokens⟩
    intro usdd
    rcases projected.input_cases member with rfl | ⟨foreign, -⟩
    · exact projected.distinct (usdd.symm.trans projected.singleton.1)
    · exact foreign (Or.inl usdd)
  · intro index txin found later
    have checked := projected.inputsChecked txin (List.mem_of_getElem? found)
    have kind := (projected.others txin (mem_tail_of_getElem? found later)).2
    exact ⟨kind, checked.quiet kind⟩

/-- The token is moved where no output past the first holds it. -/
theorem Projected.tokenMoved
    (projected : Projected arguments inputs outputs controller successor)
    (once : ∀ index txout, outputs[index]? = some txout →
      txout.assetId = arguments.reissuanceTokenId → index = 0) :
    TokenMoved arguments inputs outputs := by
  refine ⟨⟨controller, getElem?_zero_of_head? projected.firstInput, projected.singleton⟩, ?_,
    ⟨successor, getElem?_zero_of_head? projected.firstOutput, projected.kept⟩, once⟩
  intro index txin found token
  by_contra later
  exact (projected.others txin (mem_tail_of_getElem? found later)).1 (Or.inr token)

end Shared

section Branches

variable {arguments : TransactionArguments} {inputs : List ControllerTxInput}
  {outputs : List ControllerTxOutput} {controller : ControllerTxInput}
  {successor : ControllerTxOutput}

/-- A heartbeat sweeps everything past the successor. -/
theorem Projected.heartbeat {total : Int}
    (projected : Projected arguments inputs outputs controller successor)
    (passed : arguments.checkHeartbeat controller = .ok total)
    (sweep : ∀ txout ∈ outputs.drop 1, ¬arguments.Protocol txout.assetId) :
    TokenMoved arguments inputs outputs ∧ HeartbeatOnly arguments inputs outputs := by
  simp only [TransactionArguments.checkHeartbeat] at passed
  simp only [↓then_eq_ok, rejectIf_eq_ok, pure_eq_ok, not_not, ne_eq] at passed
  obtain ⟨-, quiet, -⟩ := passed
  refine ⟨projected.tokenMoved ?_, ?_, ?_⟩
  · intro index txout found token
    by_contra later
    exact sweep txout (mem_of_drop found (by omega)) (Or.inr token)
  · intro txin member
    have checked := projected.inputsChecked txin member
    rcases projected.input_cases member with rfl | ⟨-, kind⟩
    · exact ⟨quiet, checked.quiet quiet⟩
    · exact ⟨kind, checked.quiet kind⟩
  · intro txout member usdd
    obtain ⟨index, found⟩ := List.mem_iff_getElem?.mp member
    by_cases first : index = 0
    · subst first
      rw [getElem?_zero_of_head? projected.firstOutput, Option.some.injEq] at found
      subst found
      exact projected.distinct (usdd.symm.trans projected.kept.1)
    · exact sweep txout (mem_of_drop found (by omega)) (Or.inl usdd)

/-- What the branch of a mint has passed. -/
structure MintPassed (arguments : TransactionArguments) (controller : ControllerTxInput)
    (outputs : List ControllerTxOutput) : Prop where
  kind : controller.issuanceKind = .reissuance
  asset : controller.issuanceAssetId = some arguments.usddAssetId
  amountExplicit : controller.issuanceAssetAmountExplicit = true
  amount : controller.issuanceAssetAmount =
    100 * (arguments.recipients.map (·.amountUsdt6)).sum
  enough : arguments.recipients.length + 1 ≤ outputs.length
  nonces : ∀ (index : Nat) recipient, arguments.recipients[index]? = some recipient →
    recipient.nonce = arguments.expectedNonce + index
  paid : ∀ (index : Nat) recipient, arguments.recipients[index]? = some recipient →
    ∃ txout, outputs[index + 1]? = some txout ∧ txout.assetId = arguments.usddAssetId ∧
      txout.amount = 100 * recipient.amountUsdt6 ∧ txout.amountExplicit = true ∧
      txout.scriptHash = recipient.scriptHash

theorem checkMint_passed {total : Int} (nonce : 0 ≤ arguments.expectedNonce)
    (passed : arguments.checkMint controller outputs = .ok total) :
    MintPassed arguments controller outputs := by
  obtain ⟨first, firstEq⟩ := Int.eq_ofNat_of_zero_le nonce
  simp only [TransactionArguments.checkMint] at passed
  simp only [↓then_eq_ok, bind_eq_ok, rejectIf_eq_ok, pure_eq_ok, checkEach_eq_ok] at passed
  simp only [not_or, not_not, not_lt, ne_eq, Bool.not_eq_false] at passed
  obtain ⟨size, ⟨converted, batchTotal⟩, batch, ⟨kind, -, asset, amount, amountExplicit, -⟩,
    enough, each, rfl⟩ := passed
  rw [firstEq, validateMintBatch_eq_ok] at batch
  obtain ⟨-, rules, rfl, rfl⟩ := batch
  refine ⟨kind, asset, amountExplicit, amount, by omega, ?_, ?_⟩
  · intro index recipient found
    have bound : index < arguments.recipients.length := (List.getElem?_eq_some_iff.mp found).1
    have named : (arguments.recipients.map (·.nonce))[index]? = some recipient.nonce := by
      rw [List.getElem?_map, found]
      rfl
    rw [rules.consecutive, List.getElem?_map, List.getElem?_range' (by simpa using bound),
      Option.map_some, Option.some.injEq] at named
    rw [← named, firstEq]
    push_cast
    ring
  · intro index recipient found
    have listed : (arguments.recipients.zip
        ((arguments.recipients.map (·.amountUsdt6)).map (· * 100)))[index]? =
          some (recipient, recipient.amountUsdt6 * 100) := by
      rw [List.getElem?_zip_eq_some, List.getElem?_map, List.getElem?_map, found]
      exact ⟨rfl, rfl⟩
    have paid := each index _ listed
    simp only [TransactionArguments.checkRecipient] at paid
    simp only [↓then_eq_ok, bind_eq_ok, rejectIf_eq_ok, okOr_eq_ok, not_or, not_not, ne_eq,
      Bool.not_eq_false] at paid
    obtain ⟨-, txout, held, assetId, value, explicit, script⟩ := paid
    exact ⟨txout, held, assetId, by omega, explicit, script⟩

/-- The positions of the USDD outputs: the recipients' by the batch, none in front of them by
the successor, and none behind by the sweep. -/
theorem MintPassed.positions (minted : MintPassed arguments controller outputs)
    (projected : Projected arguments inputs outputs controller successor)
    (sweep : ∀ txout ∈ outputs.drop (1 + arguments.recipients.length),
      ¬arguments.Protocol txout.assetId) {index : Nat} {txout : ControllerTxOutput}
    (found : outputs[index]? = some txout) :
    (txout.assetId = arguments.usddAssetId ↔
      1 ≤ index ∧ index ≤ arguments.recipients.length) := by
  by_cases first : index = 0
  · subst first
    rw [getElem?_zero_of_head? projected.firstOutput, Option.some.injEq] at found
    subst found
    constructor
    · intro usdd
      exact absurd (usdd.symm.trans projected.kept.1) projected.distinct
    · intro range
      omega
  · by_cases last : index ≤ arguments.recipients.length
    · obtain ⟨before, rfl⟩ := Nat.exists_eq_succ_of_ne_zero first
      have inside : before < arguments.recipients.length := by omega
      obtain ⟨paid, held, usdd, -⟩ := minted.paid before _ (List.getElem?_eq_getElem inside)
      rw [held, Option.some.injEq] at found
      subst found
      constructor
      · intro _
        omega
      · intro _
        exact usdd
    · constructor
      · intro usdd
        exact absurd (Or.inl usdd) (sweep txout (mem_of_drop found (by omega)))
      · intro range
        omega

/-- The items with a property are a window of the list where their positions are an interval. -/
theorem filter_window {α : Type} {items : List α} {property : α → Prop} [DecidablePred property]
    {start count : Nat} (positions : ∀ index item, items[index]? = some item →
      (property item ↔ start ≤ index ∧ index < start + count)) :
    items.filter (fun item => property item) = (items.drop start).take count := by
  have split : items = items.take start ++ ((items.drop start).take count ++
      (items.drop start).drop count) := by
    rw [List.take_append_drop, List.take_append_drop]
  have front : (items.take start).filter (fun item => property item) = [] := by
    rw [List.filter_eq_nil_iff]
    intro item member holds
    obtain ⟨index, found⟩ := List.mem_iff_getElem?.mp member
    have bound := (List.getElem?_eq_some_iff.mp found).1
    rw [List.length_take] at bound
    rw [List.getElem?_take_of_lt (by omega)] at found
    have range := (positions index item found).mp (of_decide_eq_true holds)
    omega
  have middle : ((items.drop start).take count).filter (fun item => property item) =
      (items.drop start).take count := by
    rw [List.filter_eq_self]
    intro item member
    obtain ⟨index, found⟩ := List.mem_iff_getElem?.mp member
    have bound := (List.getElem?_eq_some_iff.mp found).1
    rw [List.length_take] at bound
    rw [List.getElem?_take_of_lt (by omega), List.getElem?_drop] at found
    exact decide_eq_true ((positions _ item found).mpr ⟨by omega, by omega⟩)
  have back : ((items.drop start).drop count).filter (fun item => property item) = [] := by
    rw [List.filter_eq_nil_iff]
    intro item member holds
    obtain ⟨index, found⟩ := List.mem_iff_getElem?.mp member
    rw [List.getElem?_drop, List.getElem?_drop] at found
    have range := (positions _ item found).mp (of_decide_eq_true holds)
    omega
  nth_rewrite 1 [split]
  rw [List.filter_append, List.filter_append, front, middle, back, List.nil_append,
    List.append_nil]

/-- The paid outputs carry the batch, and no other output carries USDD. -/
theorem MintPassed.usddTotal_eq (minted : MintPassed arguments controller outputs)
    (positions : ∀ index txout, outputs[index]? = some txout →
      (txout.assetId = arguments.usddAssetId ↔
        1 ≤ index ∧ index ≤ arguments.recipients.length)) :
    usddTotal arguments outputs = 100 * (arguments.recipients.map (·.amountUsdt6)).sum := by
  have window : outputs.filter (fun txout => txout.assetId = arguments.usddAssetId) =
      (outputs.drop 1).take arguments.recipients.length := by
    refine filter_window ?_
    intro index txout found
    rw [positions index txout found]
    omega
  have amounts : ((outputs.drop 1).take arguments.recipients.length).map (·.amount) =
      arguments.recipients.map fun recipient => 100 * recipient.amountUsdt6 := by
    apply List.ext_getElem?
    intro index
    by_cases inside : index < arguments.recipients.length
    · have found := List.getElem?_eq_getElem inside
      obtain ⟨txout, held, -, amount, -⟩ := minted.paid index _ found
      rw [Nat.add_comm] at held
      rw [List.getElem?_map, List.getElem?_take_of_lt inside, List.getElem?_drop, held,
        List.getElem?_map, found, Option.map_some, Option.map_some, amount]
    · rw [List.getElem?_eq_none (by simp; omega), List.getElem?_eq_none (by simp; omega)]
  rw [usddTotal, window, amounts, List.sum_map_mul_left]

theorem Projected.mint {total : Int}
    (projected : Projected arguments inputs outputs controller successor)
    (passed : arguments.checkMint controller outputs = .ok total)
    (sweep : ∀ txout ∈ outputs.drop (1 + arguments.recipients.length),
      ¬arguments.Protocol txout.assetId) :
    TokenMoved arguments inputs outputs ∧ MintPaid arguments inputs outputs := by
  have minted := checkMint_passed projected.nonce passed
  have positions := fun index txout (found : outputs[index]? = some txout) =>
    minted.positions projected sweep found
  have sum := minted.usddTotal_eq positions
  refine ⟨projected.tokenMoved ?_, ⟨controller, getElem?_zero_of_head? projected.firstInput,
    minted.kind, minted.asset, minted.amountExplicit, minted.amount.trans sum.symm⟩, sum,
    positions, ?_⟩
  · intro index txout found token
    by_contra later
    by_cases last : index ≤ arguments.recipients.length
    · have usdd := (positions index txout found).mpr ⟨by omega, last⟩
      exact projected.distinct (usdd.symm.trans token)
    · exact sweep txout (mem_of_drop found (by omega)) (Or.inr token)
  · intro index recipient found
    obtain ⟨txout, held, -, amount, explicit, script⟩ := minted.paid index recipient found
    exact ⟨minted.nonces index recipient found, txout, held, explicit, amount, script⟩

end Branches

/-- A controller transaction that is accepted conserves the supply. -/
theorem controller_supply_conserved {arguments : TransactionArguments}
    {inputs : List ControllerTxInput} {outputs : List ControllerTxOutput} {total : Int}
    (accepted : validateControllerTransaction inputs outputs arguments = .ok total) :
    SupplyConserved arguments inputs outputs := by
  obtain ⟨controller, successor, projected, branch, sweep⟩ :=
    validateControllerTransaction_passed accepted
  cases beats : arguments.heartbeat with
  | true =>
    simp only [beats, if_true] at branch sweep
    obtain ⟨token, only⟩ := projected.heartbeat branch sweep
    refine ⟨token, projected.nothingElse, ?_, fun _ => only⟩
    intro mints
    rw [beats] at mints
    cases mints
  | false =>
    simp only [beats, Bool.false_eq_true, if_false] at branch sweep
    obtain ⟨token, paid⟩ := projected.mint branch sweep
    refine ⟨token, projected.nothingElse, fun _ => paid, ?_⟩
    intro idle
    rw [beats] at idle
    cases idle

section Sample

/-- A mint for two recipients. -/
def sampleArguments : TransactionArguments where
  currentControllerScriptHash := List.replicate 32 1
  successorControllerScriptHash := List.replicate 32 2
  usddAssetId := List.replicate 32 3
  reissuanceTokenId := List.replicate 32 4
  reissuanceEntropy := List.replicate 32 5
  expectedNonce := 20
  recipients := [⟨20, 2, List.replicate 32 6⟩, ⟨21, 3, List.replicate 32 7⟩]
  heartbeat := false

/-- The controller and an input that pays the fee. -/
def sampleInputs : List ControllerTxInput :=
  [⟨List.replicate 32 4, 1, List.replicate 32 1, true, true, .reissuance,
    some (List.replicate 32 5), some (List.replicate 32 3), 500, true, 0⟩,
   ⟨List.replicate 32 8, 10, List.replicate 32 9, true, false, .none, none, none, 0, true, 0⟩]

/-- The successor, the paid outputs and a foreign one. -/
def sampleOutputs : List ControllerTxOutput :=
  [⟨List.replicate 32 4, 1, List.replicate 32 2, true, true⟩,
   ⟨List.replicate 32 3, 200, List.replicate 32 6, true, true⟩,
   ⟨List.replicate 32 3, 300, List.replicate 32 7, true, true⟩,
   ⟨List.replicate 32 8, 9, List.replicate 32 9, true, false⟩]

theorem controller_supply_conserved_sample :
    validateControllerTransaction sampleInputs sampleOutputs sampleArguments = .ok 500 ∧
      SupplyConserved sampleArguments sampleInputs sampleOutputs := by
  have accepted : validateControllerTransaction sampleInputs sampleOutputs sampleArguments =
      .ok 500 := by decide +kernel
  exact ⟨accepted, controller_supply_conserved accepted⟩

end Sample

end Usdd.Verif

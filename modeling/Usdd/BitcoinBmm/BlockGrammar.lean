import Usdd.BitcoinBmm.BlockReaders
/-!
# The grammar of blocks

A block is a header and a list of transactions, each in its legacy or its witness form. What
makes one valid is stated on these values alone, without the limits the parser sets on the way;
the parser reads exactly the valid transactions whose parts are within its limits.
-/
namespace Usdd.BitcoinBmm

open Usdd.Foundation Usdd.Core

/-- A transaction: its fields, and one witness stack for each input in the witness form. -/
structure Transaction where
  version : FixedBytes 4
  inputs : List ParsedInput
  outputs : List ParsedOutput
  witness : Option (List (List (List UInt8)))
  lockTime : FixedBytes 4

namespace Transaction

/-- The counted inputs. -/
def inputBytes (transaction : Transaction) : List UInt8 :=
  countedBytes ParsedInput.serialize transaction.inputs

/-- The counted outputs. -/
def outputBytes (transaction : Transaction) : List UInt8 :=
  countedBytes ParsedOutput.serialize transaction.outputs

/-- The serialization without witness, which the txid commits to. -/
def stripped (transaction : Transaction) : List UInt8 :=
  [transaction.version.bytes, transaction.inputBytes, transaction.outputBytes,
    transaction.lockTime.bytes].flatten

/-- The marker and flags of the witness form. -/
def markerBytes (transaction : Transaction) : List UInt8 :=
  if transaction.witness.isSome then [0, 1] else []

/-- The witness stacks of the witness form. -/
def witnessBytes (transaction : Transaction) : List UInt8 :=
  ((transaction.witness.getD []).map stackBytes).flatten

/-- The full serialization, with marker, flags and witness in the witness form. -/
def serialize (transaction : Transaction) : List UInt8 :=
  [transaction.version.bytes, transaction.markerBytes, transaction.inputBytes,
    transaction.outputBytes, transaction.witnessBytes, transaction.lockTime.bytes].flatten

/-- The one input spends no output. -/
def IsCoinbase (transaction : Transaction) : Prop :=
  ∃ input, transaction.inputs = [input] ∧ input.outpoint = nullOutpoint

/-- What a transaction must satisfy on its own. -/
structure Valid (transaction : Transaction) : Prop where
  hasInput : transaction.inputs ≠ []
  hasOutput : transaction.outputs ≠ []
  coinbaseScript : transaction.IsCoinbase →
    ∀ input ∈ transaction.inputs, 2 ≤ input.script.length ∧ input.script.length ≤ 100
  noNull : ¬transaction.IsCoinbase → ∀ input ∈ transaction.inputs, input.outpoint ≠ nullOutpoint
  distinct : (transaction.inputs.map (·.outpoint)).Nodup
  values : ∀ output ∈ transaction.outputs, output.satoshis ≤ maxMoneySatoshis
  total : (transaction.outputs.map ParsedOutput.satoshis).sum ≤ maxMoneySatoshis
  witness : ∀ perInput, transaction.witness = some perInput →
    perInput.length = transaction.inputs.length ∧ ∃ stack ∈ perInput, stack ≠ []

/-- The counts and sizes of a transaction are within the limits the parser sets. -/
structure WithinLimits (transaction : Transaction) : Prop where
  inputCount : transaction.inputs.length ≤ maxInputs
  inputs : ∀ input ∈ transaction.inputs, input.WithinLimits
  outputCount : transaction.outputs.length ≤ maxCoinbaseOutputs
  outputs : ∀ output ∈ transaction.outputs,
    output.script.length ≤ maxCoinbaseOutputScriptBytes
  witness : ∀ perInput, transaction.witness = some perInput →
    ∀ stack ∈ perInput, StackWithinLimits stack

instance (transaction : Transaction) : Decidable transaction.IsCoinbase :=
  match inputs : transaction.inputs with
  | [input] =>
    decidable_of_iff (input.outpoint = nullOutpoint)
      ⟨fun same => ⟨input, inputs, same⟩, fun ⟨_, only, same⟩ => by
        rw [inputs, List.cons.injEq] at only
        exact only.1 ▸ same⟩
  | [] => .isFalse fun ⟨_, only, _⟩ => by simp [inputs] at only
  | _ :: _ :: _ => .isFalse fun ⟨_, only, _⟩ => by simp [inputs] at only

/-- The witness stack of a coinbase, empty in the legacy form. -/
def firstStack (transaction : Transaction) : List (List UInt8) :=
  (transaction.witness.getD []).headD []

/-- What the parser reports of a coinbase. -/
def coinbaseParts (transaction : Transaction) : ParsedCoinbase where
  version := transaction.version
  inputsAndOutputCount :=
    transaction.inputBytes ++ encodeCompactSize transaction.outputs.length
  outputs := transaction.outputs
  witness := transaction.firstStack
  lockTime := transaction.lockTime

variable [Hashing]

/-- The hash of the stripped serialization. -/
def txid (transaction : Transaction) : BlockHash := doubleSha256 transaction.stripped

/-- The hash of the full serialization. -/
def wtxid (transaction : Transaction) : BlockHash := doubleSha256 transaction.serialize

/-- What the parser reports of a transaction. -/
def parsed (transaction : Transaction) : ParsedTransaction where
  txid := transaction.txid
  wtxid := transaction.wtxid
  strippedSize := transaction.stripped.length
  hasWitness := transaction.witness.isSome
  isCoinbase := transaction.IsCoinbase
  coinbase := if transaction.IsCoinbase then some transaction.coinbaseParts else none
  inputs :=
    if transaction.IsCoinbase then transaction.inputs.map (·.outpoint)
    else sortOutpoints (transaction.inputs.map (·.outpoint))
  outputs := transaction.outputs

end Transaction

section Inputs

theorem isCoinbaseInputs_iff (inputs : List ParsedInput) :
    isCoinbaseInputs inputs ↔ ∃ input, inputs = [input] ∧ input.outpoint = nullOutpoint := by
  cases inputs with
  | nil => simp [isCoinbaseInputs]
  | cons first rest =>
    cases rest with
    | nil => simp [isCoinbaseInputs]
    | cons second rest => simp [isCoinbaseInputs]

/-- In an ascending list without equal neighbours nothing is repeated. -/
theorem hasEqualNeighbours_ascending {outpoints : List (FixedBytes 36)}
    (ascending : outpoints.Pairwise fun left right => left.toNat ≤ right.toNat) :
    hasEqualNeighbours outpoints = false ↔ outpoints.Nodup := by
  induction outpoints with
  | nil => simp [hasEqualNeighbours]
  | cons first rest ih =>
    obtain ⟨below, others⟩ := List.pairwise_cons.mp ascending
    cases rest with
    | nil => simp [hasEqualNeighbours]
    | cons second rest =>
      rw [hasEqualNeighbours, Bool.or_eq_false_iff, ih others, beq_eq_false_iff_ne,
        List.nodup_cons (a := first)]
      refine and_congr_left fun _ => ?_
      constructor
      · -- A later copy of the first would be squeezed to the second.
        intro apart member
        have least := below second List.mem_cons_self
        rcases List.mem_cons.mp member with same | later
        · exact apart same
        · have above := (List.pairwise_cons.mp others).1 first later
          exact apart (FixedBytes.toNat_inj.mp (Nat.le_antisymm least above))
      · intro absent same
        exact absent (same ▸ List.mem_cons_self)

/-- Equal outpoints stand next to each other once sorted. -/
theorem hasEqualNeighbours_sort (outpoints : List (FixedBytes 36)) :
    hasEqualNeighbours (sortOutpoints outpoints) = false ↔ outpoints.Nodup := by
  have order : ∀ left right : FixedBytes 36,
      (!decide (right < left)) = true ↔ left.toNat ≤ right.toNat := by
    intro left right
    rw [Bool.not_eq_true', decide_eq_false_iff_not, FixedBytes.lt_iff_toNat_lt, not_lt]
  have ascending : (sortOutpoints outpoints).Pairwise fun left right =>
      left.toNat ≤ right.toNat := by
    refine (List.pairwise_mergeSort (fun a b c => ?_) (fun a b => ?_) outpoints).imp
      fun ordered => (order ..).mp ordered
    · rw [order, order, order]
      exact Nat.le_trans
    · rw [Bool.or_eq_true, order, order]
      exact Nat.le_total ..
  rw [hasEqualNeighbours_ascending ascending]
  exact (List.mergeSort_perm ..).nodup_iff

/-- The checks of the inputs are the conditions of a valid transaction on them. -/
theorem checkInputs_eq_ok (transaction : Transaction) :
    checkInputs transaction.inputs = .ok () ↔
      (transaction.IsCoinbase → ∀ input ∈ transaction.inputs,
        2 ≤ input.script.length ∧ input.script.length ≤ 100) ∧
      (¬transaction.IsCoinbase → ∀ input ∈ transaction.inputs, input.outpoint ≠ nullOutpoint) ∧
      (transaction.inputs.map (·.outpoint)).Nodup := by
  have coinbase : isCoinbaseInputs transaction.inputs ↔ transaction.IsCoinbase :=
    isCoinbaseInputs_iff _
  simp only [checkInputs, ↓then_eq_ok, rejectIf_eq_ok, coinbase]
  by_cases first : transaction.IsCoinbase
  · obtain ⟨input, only, null⟩ := id first
    simp only [first, only, not_true_eq_false, false_and, not_false_eq_true, true_and,
      List.head?_cons, Option.map_some, Option.getD_some, not_not, and_true, forall_const,
      List.mem_singleton, forall_eq, false_implies, List.map_cons, List.map_nil,
      List.nodup_singleton]
  · simp only [first, not_false_eq_true, true_and, false_and, false_implies,
      Bool.not_eq_true, hasEqualNeighbours_sort, forall_const, not_not]
    refine and_congr_left fun _ => ?_
    rw [List.countP_eq_zero]
    simp

end Inputs

section Transactions

variable [Hashing]

omit [Hashing] in
/-- The legacy form is the stripped serialization. -/
theorem Transaction.serialize_legacy {transaction : Transaction}
    (legacy : transaction.witness = none) : transaction.serialize = transaction.stripped := by
  simp [Transaction.serialize, Transaction.stripped, Transaction.markerBytes,
    Transaction.witnessBytes, legacy]

/-- The positions at which the parts of a transaction stand in a byte string. -/
structure Transaction.StandsAt (transaction : Transaction) (marks : TransactionPositions) :
    Prop where
  version : marks.transactionStart = transaction.version.bytes ++ marks.afterVersion
  marker : marks.afterVersion = transaction.markerBytes ++ marks.inputCountStart
  inputs : marks.inputCountStart = transaction.inputBytes ++
    (encodeCompactSize transaction.outputs.length ++ marks.outputsStart)
  outputs : marks.outputsStart =
    (transaction.outputs.map ParsedOutput.serialize).flatten ++ marks.outputsEnd
  witness : marks.outputsEnd = transaction.witnessBytes ++ marks.lockTimeStart
  lockTime : marks.lockTimeStart = transaction.lockTime.bytes ++ marks.transactionEnd

/-- What the parser reports of a transaction that stands at the positions it passed. -/
theorem Transaction.StandsAt.report {transaction : Transaction} {marks : TransactionPositions}
    (stands : transaction.StandsAt marks) :
    reportTransaction marks transaction.witness.isSome transaction.version transaction.inputs
      transaction.outputs (transaction.witness.getD []) transaction.lockTime =
        transaction.parsed := by
  have coinbase : isCoinbaseInputs transaction.inputs = decide transaction.IsCoinbase := by
    rw [Bool.eq_iff_iff, decide_eq_true_iff]
    exact isCoinbaseInputs_iff _
  have core : Cursor.between marks.inputCountStart marks.outputsEnd =
      transaction.inputBytes ++ transaction.outputBytes := by
    rw [stands.inputs, stands.outputs, Transaction.outputBytes, countedBytes]
    simp only [← List.append_assoc, Cursor.between_append]
  have counts : Cursor.between marks.inputCountStart marks.outputsStart =
      transaction.inputBytes ++ encodeCompactSize transaction.outputs.length := by
    rw [stands.inputs, ← List.append_assoc, Cursor.between_append]
  have version : Cursor.between marks.transactionStart marks.afterVersion =
      transaction.version.bytes := by
    rw [stands.version, Cursor.between_append]
  have lockTime : Cursor.between marks.lockTimeStart marks.transactionEnd =
      transaction.lockTime.bytes := by
    rw [stands.lockTime, Cursor.between_append]
  have whole : Cursor.between marks.transactionStart marks.transactionEnd =
      transaction.serialize := by
    rw [stands.version, stands.marker, stands.inputs, stands.outputs, stands.witness,
      stands.lockTime]
    simp only [Transaction.serialize, Transaction.outputBytes, countedBytes, List.flatten_cons,
      List.flatten_nil, List.append_nil, ← List.append_assoc, Cursor.between_append]
  have size : transaction.stripped.length =
      4 + (transaction.inputBytes ++ transaction.outputBytes).length + 4 := by
    simp only [Transaction.stripped, List.flatten_cons, List.flatten_nil, List.length_append,
      List.length_nil, transaction.version.length_eq, transaction.lockTime.length_eq]
    omega
  have stripped : transaction.stripped = transaction.version.bytes ++
      (transaction.inputBytes ++ transaction.outputBytes) ++ transaction.lockTime.bytes := by
    simp [Transaction.stripped]
  simp only [reportTransaction, Transaction.parsed, coinbase, core, counts, version, lockTime,
    whole, size, Transaction.txid, Transaction.wtxid, ← stripped, decide_eq_true_eq,
    Transaction.coinbaseParts, Transaction.firstStack]
  cases form : transaction.witness with
  | none => simp [Transaction.serialize_legacy form]
  | some perInput => simp

omit [Hashing] in
/-- The input count of a transaction with inputs does not look like a witness marker. -/
theorem Transaction.inputBytes_head {transaction : Transaction}
    (hasInput : transaction.inputs ≠ []) (rest : List UInt8) :
    ∃ first tail, transaction.inputBytes ++ rest = first :: tail ∧ first ≠ 0 := by
  obtain ⟨first, tail, same, nonzero⟩ :=
    encodeCompactSize_head (List.length_pos_iff.mpr hasInput)
  exact ⟨first, _, by rw [Transaction.inputBytes, countedBytes, same]; rfl, nonzero⟩

/-- Whatever the parser reads is a valid transaction within its limits, in its serialization. -/
theorem parseTransaction_sound {input rest : List UInt8} {parsed : ParsedTransaction}
    (read : parseTransaction input = .ok (parsed, rest)) :
    ∃ transaction : Transaction, transaction.Valid ∧ transaction.WithinLimits ∧
      parsed = transaction.parsed ∧ input = transaction.serialize ++ rest := by
  simp only [parseTransaction, Reader.bind_eq_ok, Cursor.position_eq_ok,
    parseWitnessMarker_eq_ok, parseCount_eq_ok (show maxInputs < 2 ^ 64 by decide)
      (show 0 < minInputBytes by decide), parseCount_eq_ok
      (show maxCoinbaseOutputs < 2 ^ 64 by decide) (show 0 < minOutputBytes by decide),
    Reader.check_eq_ok, parseStacks_eq_ok, Reader.pure_eq_ok] at read
  obtain ⟨_, start, ⟨rfl, rfl⟩, version, _, versioned, _, afterVersion, ⟨rfl, rfl⟩, hasWitness,
    _, marked, _, _, ⟨rfl, rfl⟩, inputCount, _, ⟨⟨someInput, fewInputs, -⟩, rfl⟩, inputs, _,
    inputsRead, _, _, ⟨checked, rfl⟩, outputCount, _, ⟨⟨someOutput, fewOutputs, -⟩, rfl⟩, _, _,
    ⟨rfl, rfl⟩, outputs, _, outputsRead, _, afterOutputs, ⟨rfl, rfl⟩, perInput, _, witnessed, _, _,
    ⟨rfl, rfl⟩, lockTime, _, locked, _, rest, ⟨rfl, rfl⟩, made, rfl⟩ := read
  obtain ⟨-, rfl⟩ := (Cursor.reads_fixed _ _ _ _).mp versioned
  obtain ⟨⟨rfl, smallInputs⟩, rfl⟩ := (reads_parseInput.times _ _ _ _).mp inputsRead
  obtain ⟨⟨rfl, smallOutputs, total⟩, rfl⟩ := (reads_parseOutputs _ _ _ _ _).mp outputsRead
  obtain ⟨-, rfl⟩ := (Cursor.reads_fixed _ _ _ _).mp locked
  obtain ⟨witness, isSome, getD, stackFacts⟩ : ∃ witness : Option (List (List (List UInt8))),
      witness.isSome = hasWitness ∧ witness.getD [] = perInput ∧
      ∀ found, witness = some found → found = perInput ∧ found.length = inputs.length ∧
        (∃ stack ∈ found, stack ≠ []) ∧ ∀ stack ∈ found, StackWithinLimits stack := by
    rcases witnessed with ⟨rfl, facts, -⟩ | ⟨rfl, rfl, -⟩
    · refine ⟨some perInput, rfl, rfl, fun found same => ?_⟩
      cases same
      exact ⟨rfl, facts⟩
    · exact ⟨none, rfl, rfl, by simp⟩
  let transaction : Transaction := ⟨version, inputs, outputs, witness, lockTime⟩
  obtain ⟨script, noNull, distinct⟩ := (checkInputs_eq_ok transaction).mp checked
  have hasOutput : outputs ≠ [] := List.length_pos_iff.mp someOutput
  have totals := total hasOutput
  rw [Nat.zero_add] at totals
  have marker : afterVersion = transaction.markerBytes ++ (encodeCompactSize inputs.length ++
      ((inputs.map ParsedInput.serialize).flatten ++ (encodeCompactSize outputs.length ++
        ((outputs.map ParsedOutput.serialize).flatten ++ afterOutputs)))) := by
    rcases marked with ⟨same, rfl⟩ | ⟨same, rfl, -⟩
    · simp [Transaction.markerBytes, transaction, isSome, same]
    · simp [Transaction.markerBytes, transaction, isSome, same]
  have stacksAt : afterOutputs = transaction.witnessBytes ++ (lockTime.bytes ++ rest) := by
    rcases witnessed with ⟨-, -, rfl⟩ | ⟨-, rfl, rfl⟩
    · simp [Transaction.witnessBytes, transaction, getD]
    · simp [Transaction.witnessBytes, transaction, getD]
  refine ⟨transaction, ⟨List.length_pos_iff.mp someInput, hasOutput, script, noNull, distinct, ?_,
    totals, ?_⟩, ⟨fewInputs, smallInputs, fewOutputs, smallOutputs, ?_⟩, ?_, ?_⟩
  · intro output member
    exact Nat.le_trans (List.single_le_sum (by simp) _ (List.mem_map_of_mem member)) totals
  · intro found same
    exact ⟨(stackFacts found same).2.1, (stackFacts found same).2.2.1⟩
  · intro found same
    exact (stackFacts found same).2.2.2
  · rw [← made, ← isSome, ← getD]
    have inputsAt : encodeCompactSize inputs.length ++
        ((inputs.map ParsedInput.serialize).flatten ++ (encodeCompactSize outputs.length ++
          ((outputs.map ParsedOutput.serialize).flatten ++ afterOutputs))) =
        transaction.inputBytes ++ (encodeCompactSize transaction.outputs.length ++
          ((outputs.map ParsedOutput.serialize).flatten ++ afterOutputs)) := by
      simp [transaction, Transaction.inputBytes, countedBytes]
    have stands : transaction.StandsAt ⟨version.bytes ++ afterVersion, _, _, _, _, _, _⟩ :=
      ⟨rfl, marker, inputsAt, rfl, stacksAt, rfl⟩
    exact stands.report
  · rw [marker, stacksAt]
    simp [transaction, Transaction.serialize, Transaction.inputBytes, Transaction.outputBytes,
      countedBytes]

/-- Every valid transaction within the limits is read from its serialization. -/
theorem parseTransaction_complete {transaction : Transaction} (valid : transaction.Valid)
    (limits : transaction.WithinLimits) (rest : List UInt8) :
    parseTransaction (transaction.serialize ++ rest) = .ok (transaction.parsed, rest) := by
  let atLockTime := transaction.lockTime.bytes ++ rest
  let atWitness := transaction.witnessBytes ++ atLockTime
  let atOutputs := (transaction.outputs.map ParsedOutput.serialize).flatten ++ atWitness
  let atOutputCount := encodeCompactSize transaction.outputs.length ++ atOutputs
  let atInputs := (transaction.inputs.map ParsedInput.serialize).flatten ++ atOutputCount
  let atInputCount := encodeCompactSize transaction.inputs.length ++ atInputs
  let atMarker := transaction.markerBytes ++ atInputCount
  have start : transaction.serialize ++ rest = transaction.version.bytes ++ atMarker := by
    simp [Transaction.serialize, Transaction.inputBytes, Transaction.outputBytes, countedBytes,
      atMarker, atInputCount, atInputs, atOutputCount, atOutputs, atWitness, atLockTime]
  have inputRoom : transaction.inputs.length * minInputBytes ≤ atInputs.length := by
    have covered := length_mul_le_flatten ParsedInput.serialize fun input
      (_ : input ∈ transaction.inputs) => minInputBytes_le input
    rw [List.length_append]
    omega
  have outputRoom : transaction.outputs.length * minOutputBytes ≤ atOutputs.length := by
    have covered := length_mul_le_flatten ParsedOutput.serialize fun output
      (_ : output ∈ transaction.outputs) => minOutputBytes_le output
    rw [List.length_append]
    omega
  have marked : (transaction.witness.isSome = true ∧ atMarker = 0 :: 1 :: atInputCount) ∨
      (transaction.witness.isSome = false ∧ atInputCount = atMarker ∧
        ∃ first tail, atMarker = first :: tail ∧ first ≠ 0) := by
    cases form : transaction.witness with
    | some perInput => exact .inl ⟨rfl, by simp [atMarker, Transaction.markerBytes, form]⟩
    | none =>
      have same : atMarker = atInputCount := by simp [atMarker, Transaction.markerBytes, form]
      obtain ⟨first, tail, cons, nonzero⟩ :=
        Transaction.inputBytes_head valid.hasInput atOutputCount
      refine .inr ⟨rfl, same.symm, first, tail, ?_, nonzero⟩
      rw [same, ← cons]
      simp [atInputCount, atInputs, Transaction.inputBytes, countedBytes]
  have witnessed : (transaction.witness.isSome = true ∧
      ((transaction.witness.getD []).length = transaction.inputs.length ∧
        (∃ stack ∈ transaction.witness.getD [], stack ≠ []) ∧
        ∀ stack ∈ transaction.witness.getD [], StackWithinLimits stack) ∧
      atWitness = ((transaction.witness.getD []).map stackBytes).flatten ++ atLockTime) ∨
      (transaction.witness.isSome = false ∧ transaction.witness.getD [] = [] ∧
        atWitness = atLockTime) := by
    cases form : transaction.witness with
    | some perInput =>
      obtain ⟨length, filled⟩ := valid.witness perInput form
      exact .inl ⟨rfl, ⟨length, filled, limits.witness perInput form⟩,
        by simp [atWitness, Transaction.witnessBytes, form]⟩
    | none => exact .inr ⟨rfl, rfl, by simp [atWitness, Transaction.witnessBytes, form]⟩
  have stands : transaction.StandsAt ⟨transaction.serialize ++ rest, atMarker, atInputCount,
      atOutputs, atWitness, atLockTime, rest⟩ :=
    ⟨start, rfl, by simp [atInputCount, atInputs, atOutputCount, Transaction.inputBytes,
      countedBytes], rfl, rfl, rfl⟩
  simp only [parseTransaction, Reader.bind_eq_ok, Cursor.position_eq_ok,
    parseWitnessMarker_eq_ok, parseCount_eq_ok (show maxInputs < 2 ^ 64 by decide)
      (show 0 < minInputBytes by decide), parseCount_eq_ok
      (show maxCoinbaseOutputs < 2 ^ 64 by decide) (show 0 < minOutputBytes by decide),
    Reader.check_eq_ok, parseStacks_eq_ok, Reader.pure_eq_ok]
  refine ⟨_, _, ⟨rfl, rfl⟩, transaction.version, atMarker, ?_, _, _, ⟨rfl, rfl⟩,
    transaction.witness.isSome, atInputCount, marked, _, _, ⟨rfl, rfl⟩, transaction.inputs.length,
    atInputs, ⟨⟨List.length_pos_iff.mpr valid.hasInput, limits.inputCount, inputRoom⟩, rfl⟩,
    transaction.inputs, atOutputCount, ?_, (), atOutputCount, ⟨?_, rfl⟩,
    transaction.outputs.length, atOutputs,
    ⟨⟨List.length_pos_iff.mpr valid.hasOutput, limits.outputCount, outputRoom⟩, rfl⟩, _, _,
    ⟨rfl, rfl⟩, transaction.outputs, atWitness, ?_, _, _, ⟨rfl, rfl⟩, transaction.witness.getD [],
    atLockTime, witnessed, _, _, ⟨rfl, rfl⟩, transaction.lockTime, rest, ?_, _, _, ⟨rfl, rfl⟩,
    stands.report, rfl⟩
  · exact (Cursor.reads_fixed _ _ _ _).mpr ⟨trivial, start⟩
  · exact (reads_parseInput.times _ _ _ _).mpr ⟨⟨rfl, limits.inputs⟩, rfl⟩
  · exact (checkInputs_eq_ok transaction).mpr
      ⟨valid.coinbaseScript, valid.noNull, valid.distinct⟩
  · refine (reads_parseOutputs _ _ _ _ _).mpr ⟨⟨rfl, limits.outputs, fun _ => ?_⟩, rfl⟩
    rw [Nat.zero_add]
    exact valid.total
  · exact (Cursor.reads_fixed _ _ _ _).mpr ⟨trivial, rfl⟩

/-- The parser reads the valid transactions within its limits, each from its serialization. -/
theorem parseTransaction_eq_ok {input rest : List UInt8} {parsed : ParsedTransaction} :
    parseTransaction input = .ok (parsed, rest) ↔
      ∃ transaction : Transaction, transaction.Valid ∧ transaction.WithinLimits ∧
        parsed = transaction.parsed ∧ input = transaction.serialize ++ rest := by
  constructor
  · exact parseTransaction_sound
  · rintro ⟨transaction, valid, limits, rfl, rfl⟩
    exact parseTransaction_complete valid limits rest

end Transactions

end Usdd.BitcoinBmm

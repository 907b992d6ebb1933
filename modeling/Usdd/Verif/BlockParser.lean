import Usdd.BitcoinBmm.BlockLaws
/-!
# The block parser and its grammar

The parser accepts exactly the serializations of valid blocks, a byte string is the
serialization of at most one of them, and what is reported is read off that block.
-/
namespace Usdd.Verif

open Usdd.Foundation Usdd.Core Usdd.BitcoinBmm

section Unique

/-- Strings of one length in front of equal strings are equal. -/
theorem fixed_append_inj {width : Nat} {left right : FixedBytes width} {after after' : List UInt8}
    (same : left.bytes ++ after = right.bytes ++ after') : left = right ∧ after = after' := by
  obtain ⟨front, back⟩ := List.append_inj same (left.length_eq.trans right.length_eq.symm)
  exact ⟨FixedBytes.ext front, back⟩

/-- The marker tells the two forms apart, because no transaction has zero inputs. -/
theorem markerBytes_inj {left right : Transaction} (leftValid : left.Valid)
    (rightValid : right.Valid) {after after' : List UInt8}
    (same : left.markerBytes ++ (left.inputBytes ++ after) =
      right.markerBytes ++ (right.inputBytes ++ after')) :
    left.witness.isSome = right.witness.isSome ∧
      left.inputBytes ++ after = right.inputBytes ++ after' := by
  obtain ⟨first, tail, cons, nonzero⟩ := Transaction.inputBytes_head leftValid.hasInput after
  obtain ⟨first', tail', cons', nonzero'⟩ := Transaction.inputBytes_head rightValid.hasInput after'
  rw [cons, cons'] at same ⊢
  cases form : left.witness.isSome <;> cases form' : right.witness.isSome
  · simp only [Transaction.markerBytes, form, form', Bool.false_eq_true, if_false,
      List.nil_append] at same
    exact ⟨rfl, same⟩
  · simp only [Transaction.markerBytes, form, form', Bool.false_eq_true, if_false, if_true,
      List.nil_append, List.cons_append, List.cons.injEq] at same
    exact absurd same.1 nonzero
  · simp only [Transaction.markerBytes, form, form', Bool.false_eq_true, if_false, if_true,
      List.nil_append, List.cons_append, List.cons.injEq] at same
    exact absurd same.1.symm nonzero'
  · simp only [Transaction.markerBytes, form, form', if_true, List.cons_append, List.nil_append,
      List.cons.injEq, true_and] at same
    exact ⟨rfl, by rw [same.1, same.2]⟩

/-- The counted inputs determine the inputs. -/
theorem inputBytes_inj {left right : Transaction} (leftLimits : left.WithinLimits)
    (rightLimits : right.WithinLimits) {after after' : List UInt8}
    (same : left.inputBytes ++ after = right.inputBytes ++ after') :
    left.inputs = right.inputs ∧ after = after' := by
  have limit : maxInputs < 2 ^ 64 := by decide
  simp only [Transaction.inputBytes, countedBytes, List.append_assoc] at same
  obtain ⟨count, rest⟩ := Cursor.reads_compactSize.write_inj
    (Nat.lt_of_le_of_lt leftLimits.inputCount limit)
    (Nat.lt_of_le_of_lt rightLimits.inputCount limit) same
  exact (reads_parseInput.times right.inputs.length).write_inj ⟨count, leftLimits.inputs⟩
    ⟨rfl, rightLimits.inputs⟩ rest

/-- The counted outputs determine the outputs. -/
theorem outputBytes_inj {left right : Transaction} (leftValid : left.Valid)
    (rightValid : right.Valid) (leftLimits : left.WithinLimits)
    (rightLimits : right.WithinLimits) {after after' : List UInt8}
    (same : left.outputBytes ++ after = right.outputBytes ++ after') :
    left.outputs = right.outputs ∧ after = after' := by
  have limit : maxCoinbaseOutputs < 2 ^ 64 := by decide
  have within : ∀ {transaction : Transaction}, transaction.Valid →
      ValuesWithin 0 transaction.outputs := by
    intro transaction valid _
    rw [Nat.zero_add]
    exact valid.total
  simp only [Transaction.outputBytes, countedBytes, List.append_assoc] at same
  obtain ⟨count, rest⟩ := Cursor.reads_compactSize.write_inj
    (Nat.lt_of_le_of_lt leftLimits.outputCount limit)
    (Nat.lt_of_le_of_lt rightLimits.outputCount limit) same
  exact (reads_parseOutputs right.outputs.length 0).write_inj
    ⟨count, leftLimits.outputs, within leftValid⟩ ⟨rfl, rightLimits.outputs, within rightValid⟩ rest

/-- The witness bytes determine the witness of transactions in one form with as many inputs. -/
theorem witnessBytes_inj {left right : Transaction} (leftValid : left.Valid)
    (rightValid : right.Valid) (leftLimits : left.WithinLimits)
    (rightLimits : right.WithinLimits) (form : left.witness.isSome = right.witness.isSome)
    (inputs : left.inputs = right.inputs) {after after' : List UInt8}
    (same : left.witnessBytes ++ after = right.witnessBytes ++ after') :
    left.witness = right.witness ∧ after = after' := by
  cases leftForm : left.witness with
  | none =>
    cases rightForm : right.witness with
    | none =>
      simp only [Transaction.witnessBytes, leftForm, rightForm] at same
      exact ⟨rfl, same⟩
    | some perInput => simp [leftForm, rightForm] at form
  | some perInput =>
    cases rightForm : right.witness with
    | none => simp [leftForm, rightForm] at form
    | some perInput' =>
      obtain ⟨length, filled⟩ := leftValid.witness perInput leftForm
      obtain ⟨length', filled'⟩ := rightValid.witness perInput' rightForm
      simp only [Transaction.witnessBytes, leftForm, rightForm, Option.getD_some] at same
      obtain ⟨equal, rest⟩ := (reads_parseWitness right.inputs.length).write_inj
        ⟨inputs ▸ length, filled, leftLimits.witness perInput leftForm⟩
        ⟨length', filled', rightLimits.witness perInput' rightForm⟩ same
      exact ⟨congrArg some equal, rest⟩

/-- A serialization, whatever follows it, is that of one valid transaction. -/
theorem Transaction.serialize_inj {left right : Transaction} (leftValid : left.Valid)
    (rightValid : right.Valid) (leftLimits : left.WithinLimits)
    (rightLimits : right.WithinLimits) {after after' : List UInt8}
    (same : left.serialize ++ after = right.serialize ++ after') :
    left = right ∧ after = after' := by
  simp only [Transaction.serialize, List.flatten_cons, List.flatten_nil, List.append_nil,
    List.append_assoc] at same
  obtain ⟨version, same⟩ := fixed_append_inj same
  obtain ⟨form, same⟩ := markerBytes_inj leftValid rightValid same
  obtain ⟨inputs, same⟩ := inputBytes_inj leftLimits rightLimits same
  obtain ⟨outputs, same⟩ := outputBytes_inj leftValid rightValid leftLimits rightLimits same
  obtain ⟨witness, same⟩ :=
    witnessBytes_inj leftValid rightValid leftLimits rightLimits form inputs same
  obtain ⟨lockTime, ending⟩ := fixed_append_inj same
  cases left
  cases right
  simp only at version inputs outputs witness lockTime
  exact ⟨by rw [version, inputs, outputs, witness, lockTime], ending⟩

/-- Equally many serializations in a row are those of one list of valid transactions. -/
theorem serializations_inj {left right : List Transaction}
    (lengths : left.length = right.length)
    (leftAll : ∀ transaction ∈ left, transaction.Valid ∧ transaction.WithinLimits)
    (rightAll : ∀ transaction ∈ right, transaction.Valid ∧ transaction.WithinLimits)
    (same : (left.map Transaction.serialize).flatten =
      (right.map Transaction.serialize).flatten) : left = right := by
  induction left, right, lengths using sameLength_induction with
  | nil => rfl
  | cons first others first' others' tails ih =>
    obtain ⟨here, rest⟩ := List.forall_mem_cons.mp leftAll
    obtain ⟨here', rest'⟩ := List.forall_mem_cons.mp rightAll
    simp only [List.map_cons, List.flatten_cons] at same
    obtain ⟨rfl, after⟩ := Transaction.serialize_inj here.1 here'.1 here.2 here'.2 same
    rw [ih rest rest' after]

variable [Hashing]

/-- Valid blocks with one serialization are one block. -/
theorem Block.serialize_inj {left right : Block} (leftValid : left.Valid)
    (rightValid : right.Valid) (same : left.serialize = right.serialize) : left = right := by
  have limit : maxTransactions < 2 ^ 64 := by decide
  obtain ⟨header, same⟩ := fixed_append_inj same
  obtain ⟨count, same⟩ := Cursor.reads_compactSize.write_inj
    (Nat.lt_of_le_of_lt (Block.transactionCount_le leftValid.weight leftValid.transactions) limit)
    (Nat.lt_of_le_of_lt (Block.transactionCount_le rightValid.weight rightValid.transactions) limit)
    same
  have transactions := serializations_inj count
    (fun transaction member => ⟨leftValid.transactions transaction member,
      Block.withinLimits leftValid.weight member⟩)
    (fun transaction member => ⟨rightValid.transactions transaction member,
      Block.withinLimits rightValid.weight member⟩) same
  cases left
  cases right
  simp only at header transactions
  rw [header, transactions]

end Unique

variable [Hashing]

/-- A byte string is accepted exactly when it is the serialization of a valid block; there is
then only one such block, and the reported hashes and sizes are those of its stripped and full
serializations. -/
theorem blockParser_grammar (bytes : List UInt8) :
    (Succeeds (parseAndVerifyBlock bytes) ↔
      ∃ block : Block, block.Valid ∧ block.serialize = bytes) ∧
    ∀ block : Block, block.Valid → block.serialize = bytes →
      (∀ other : Block, other.Valid → other.serialize = bytes → other = block) ∧
      ∀ parsed, parseAndVerifyBlock bytes = .ok parsed →
        parsed.txids = block.transactions.map (fun transaction =>
          doubleSha256 transaction.stripped) ∧
        parsed.metadata.strippedSize = block.strippedSize ∧
        parsed.metadata.totalSize = bytes.length ∧
        parsed.metadata.weight = 3 * block.strippedSize + bytes.length := by
  constructor
  · constructor
    · rintro ⟨parsed, accepted⟩
      obtain ⟨block, _, valid, -, rfl, -⟩ := parseAndVerifyBlock_eq_ok.mp accepted
      exact ⟨block, valid, rfl⟩
    · rintro ⟨block, valid, rfl⟩
      obtain ⟨first, others, form, -⟩ := valid.coinbase
      exact ⟨block.parsed first, parseAndVerifyBlock_eq_ok.mpr
        ⟨block, first, valid, by rw [form, List.head?_cons], rfl, rfl⟩⟩
  · rintro block valid rfl
    constructor
    · intro other otherValid same
      exact Block.serialize_inj otherValid valid same
    · intro parsed accepted
      obtain ⟨found, coinbase, foundValid, -, same, rfl⟩ := parseAndVerifyBlock_eq_ok.mp accepted
      rw [Block.serialize_inj foundValid valid same.symm]
      exact ⟨rfl, rfl, rfl, rfl⟩

end Usdd.Verif

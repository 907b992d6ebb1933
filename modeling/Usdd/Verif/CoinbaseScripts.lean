import Usdd.BitcoinBmm.SignetLaws
import Usdd.Verif.BlockParser
import Usdd.Verif.ReplayRuns
/-!
# The coinbase with a script replaced

A coinbase is reported with the raw bytes of its inputs and a list of its outputs. Written again
with a script put back it is the serialization its txid commits to, and with another script it
is read again as the same transaction with that script, as long as the parser admits a script of
that length.
-/
namespace Usdd.Verif

open Usdd.Foundation Usdd.Core Usdd.BitcoinBmm

/-- Outputs written one after another are determined by their bytes. -/
theorem outputs_inj {left right : List ParsedOutput} (lengths : left.length = right.length)
    (leftFits : ∀ output ∈ left, output.script.length < 2 ^ 64)
    (rightFits : ∀ output ∈ right, output.script.length < 2 ^ 64) {after after' : List UInt8}
    (same : (left.map ParsedOutput.serialize).flatten ++ after =
      (right.map ParsedOutput.serialize).flatten ++ after') : left = right := by
  induction left, right, lengths using sameLength_induction with
  | nil => rfl
  | cons output others output' others' tails ih =>
    obtain ⟨fits, othersFit⟩ := List.forall_mem_cons.mp leftFits
    obtain ⟨fits', othersFit'⟩ := List.forall_mem_cons.mp rightFits
    simp only [List.map_cons, List.flatten_cons, ParsedOutput.serialize, List.flatten_nil,
      List.append_nil, List.append_assoc, sizedBytes] at same
    obtain ⟨values, same⟩ := fixed_append_inj same
    obtain ⟨sizes, same⟩ := Cursor.reads_compactSize.write_inj fits fits' same
    obtain ⟨scripts, same⟩ := List.append_inj same sizes
    have outputs : output = output' := by
      cases output
      cases output'
      simp only at values scripts
      rw [values, scripts]
    rw [outputs, ih othersFit othersFit' same]

variable [Hashing]

/-- A coinbase whose replaced script the parser does not admit is not read again. -/
theorem replaced_script_limit {coinbase : Transaction} (valid : coinbase.Valid)
    (limits : coinbase.WithinLimits) {index : Nat} {script rest : List UInt8}
    (inside : index < coinbase.outputs.length) (fits : script.length < 2 ^ 64)
    {read : ParsedTransaction × List UInt8}
    (accepted : parseTransaction ((coinbase.withScript index script).stripped ++ rest) =
      .ok read) : script.length ≤ maxCoinbaseOutputScriptBytes := by
  obtain ⟨parsed, after⟩ := read
  obtain ⟨found, foundValid, foundLimits, -, same⟩ := parseTransaction_sound accepted
  have replacedValid := valid.withScript index script
  rw [← Transaction.serialize_legacy rfl] at same
  simp only [Transaction.serialize, List.flatten_cons, List.flatten_nil, List.append_nil,
    List.append_assoc] at same
  obtain ⟨-, same⟩ := fixed_append_inj same
  obtain ⟨-, same⟩ := markerBytes_inj replacedValid foundValid same
  obtain ⟨-, same⟩ := @inputBytes_inj coinbase found limits foundLimits _ _ same
  have countLimit : maxCoinbaseOutputs < 2 ^ 64 := by decide
  have scriptLimit : maxCoinbaseOutputScriptBytes < 2 ^ 64 := by decide
  have count : (coinbase.withScript index script).outputs.length = coinbase.outputs.length :=
    replaceScript_length ..
  simp only [Transaction.outputBytes, countedBytes, List.append_assoc] at same
  obtain ⟨lengths, same⟩ := Cursor.reads_compactSize.write_inj
    (Nat.lt_of_le_of_lt (count ▸ limits.outputCount) countLimit)
    (Nat.lt_of_le_of_lt foundLimits.outputCount countLimit) same
  have replacedFits : ∀ output ∈ (coinbase.withScript index script).outputs,
      output.script.length < 2 ^ 64 := by
    intro output member
    obtain ⟨position, place, rfl⟩ := List.getElem_of_mem member
    have listed : position < coinbase.outputs.length := count ▸ place
    simp only [Transaction.withScript, replaceScript, List.getElem_modify]
    split
    · exact fits
    · exact Nat.lt_of_le_of_lt (limits.outputs _ (List.getElem_mem listed)) scriptLimit
  have foundFits : ∀ output ∈ found.outputs, output.script.length < 2 ^ 64 :=
    fun output member => Nat.lt_of_le_of_lt (foundLimits.outputs output member) scriptLimit
  have outputs := outputs_inj lengths replacedFits foundFits same
  have place : index < (coinbase.withScript index script).outputs.length := count ▸ inside
  have replaced : (coinbase.withScript index script).outputs[index].script = script := by
    simp [Transaction.withScript, replaceScript]
  rw [← replaced]
  exact foundLimits.outputs _ (outputs ▸ List.getElem_mem place)

/-- The coinbase of an accepted block, as a transaction of the block. -/
theorem accepted_coinbase {bytes : List UInt8} {parsed : ParsedBlock}
    (accepted : parseAndVerifyBlock bytes = .ok parsed) :
    ∃ (block : Block) (coinbase : Transaction), block.Valid ∧ bytes = block.serialize ∧
      block.transactions.head? = some coinbase ∧ coinbase.IsCoinbase ∧ coinbase.Valid ∧
      coinbase.WithinLimits ∧ parsed.coinbase = coinbase.coinbaseParts ∧
      parsed.metadata.coinbaseTxid = coinbase.txid ∧
      parsed.transactions.head? = some coinbase.parsed := by
  obtain ⟨block, coinbase, valid, head, same, rfl⟩ := parseAndVerifyBlock_eq_ok.mp accepted
  obtain ⟨first, others, form, isCoinbase, -⟩ := valid.coinbase
  have isFirst := head
  rw [form, List.head?_cons, Option.some.injEq] at isFirst
  subst isFirst
  have member : first ∈ block.transactions := by
    rw [form]
    exact List.mem_cons_self
  refine ⟨block, first, valid, same, head, isCoinbase, valid.transactions first member,
    Block.withinLimits valid.weight member, rfl, ?_, ?_⟩
  · simp [Block.parsed, Block.txids, form]
  · simp [Block.parsed, form]

/-- What the parser reports of a coinbase with a script replaced. -/
theorem withScript_parsed {coinbase : Transaction} (isCoinbase : coinbase.IsCoinbase)
    (index : Nat) (script : List UInt8) :
    (coinbase.withScript index script).parsed.coinbase = some { coinbase.coinbaseParts with
        outputs := replaceScript index script coinbase.outputs, witness := [] } ∧
      (coinbase.withScript index script).parsed.inputs = coinbase.parsed.inputs := by
  have placed : (coinbase.withScript index script).IsCoinbase := isCoinbase
  have parts : (coinbase.withScript index script).coinbaseParts = { coinbase.coinbaseParts with
      outputs := replaceScript index script coinbase.outputs, witness := [] } := by
    simp only [Transaction.coinbaseParts, Transaction.firstStack, Transaction.withScript,
      Transaction.inputBytes, replaceScript_length]
    rfl
  constructor
  · change (if _ then some _ else none) = _
    rw [if_pos placed, parts]
  · change (if _ then _ else _) = (if _ then _ else _)
    rw [if_pos placed, if_pos isCoinbase]
    rfl

/-- A coinbase of an accepted block written again with its own script is what its txid commits
to, and with another script it is read again, with that script, exactly when the parser admits a
script of that length. -/
theorem coinbase_reserialization {bytes : List UInt8} {parsed : ParsedBlock}
    (accepted : parseAndVerifyBlock bytes = .ok parsed) {index : Nat}
    (inside : index < parsed.coinbase.outputs.length) :
    (∃ (block : Block) (coinbase : Transaction), block.Valid ∧ bytes = block.serialize ∧
      block.transactions.head? = some coinbase ∧
      parsed.coinbase.serializedWithoutWitnessWithReplacedScript index
        parsed.coinbase.outputs[index].script = .ok coinbase.stripped ∧
      parsed.metadata.coinbaseTxid = doubleSha256 coinbase.stripped) ∧
    ∀ script : List UInt8, script.length < 2 ^ 32 → ∃ written,
      parsed.coinbase.serializedWithoutWitnessWithReplacedScript index script = .ok written ∧
      (script.length ≤ 1000000 → ∃ read,
        parseTransaction written = .ok (read, []) ∧
        read.txid = doubleSha256 written ∧
        read.coinbase = some { parsed.coinbase with
          outputs := parsed.coinbase.outputs.modify index fun output => { output with script }
          witness := [] } ∧
        parsed.transactions.head?.map (·.inputs) = some read.inputs) ∧
      (1000000 < script.length → ∀ read, parseTransaction written ≠ .ok read) := by
  obtain ⟨block, coinbase, valid, serialized, head, isCoinbase, coinbaseValid, limits, parts, txid,
    first⟩ := accepted_coinbase accepted
  have listed : index < coinbase.outputs.length := by
    rw [parts] at inside
    exact inside
  constructor
  · refine ⟨block, coinbase, valid, serialized, head, ?_, txid⟩
    have same : coinbase.withScript index coinbase.outputs[index].script =
        { coinbase with witness := none } := by
      rw [Transaction.withScript, replaceScript_self listed]
    have written := serializedWithReplacedScript_eq_ok listed coinbase.outputs[index].script
    rw [same] at written
    simp only [parts]
    exact written
  · intro script fits
    refine ⟨(coinbase.withScript index script).stripped, ?_, ?_, ?_⟩
    · rw [parts]
      exact serializedWithReplacedScript_eq_ok listed script
    · intro small
      have read := parseTransaction_complete (coinbaseValid.withScript index script)
        (limits.withScript small) []
      rw [Transaction.serialize_legacy rfl, List.append_nil] at read
      obtain ⟨reported, inputs⟩ := withScript_parsed isCoinbase index script
      refine ⟨_, read, rfl, ?_, ?_⟩
      · rw [reported, parts]
        rfl
      · rw [first, inputs]
        rfl
    · intro long read accepted'
      rw [← List.append_nil (Transaction.stripped _)] at accepted'
      have small := replaced_script_limit coinbaseValid limits listed (by omega) accepted'
      have limit : maxCoinbaseOutputScriptBytes = 1000000 := rfl
      omega

section Sample

omit [Hashing] in
/-- The block of the sample run that has a commitment is accepted, and its coinbase has an
output. -/
theorem activatingBlock_accepted : letI := sha256Hashing
    ∃ parsed, parseAndVerifyBlock activatingBlock = .ok parsed ∧
      0 < parsed.coinbase.outputs.length := by
  let := sha256Hashing
  obtain ⟨results, accepted⟩ := sampleRun_accepted
  simp only [sampleBlocks, acceptBlocks, bind_eq_ok, Prod.exists] at accepted
  obtain ⟨_, _, -, _, ⟨state, _, -, _, ⟨next, effects, applied, -⟩, -⟩, -⟩ := accepted
  obtain ⟨parsed, read, -⟩ := applyBlock_ok applied
  obtain ⟨_, coinbase, -, -, -, -, valid, -, parts, -⟩ := accepted_coinbase read
  refine ⟨parsed, read, ?_⟩
  rw [parts]
  exact List.length_pos_iff.mpr valid.hasOutput

omit [Hashing] in
/-- A coinbase with one of its scripts replaced by a single byte is read again. -/
theorem coinbase_reserialization_sample : letI := sha256Hashing
    ∃ parsed, parseAndVerifyBlock activatingBlock = .ok parsed ∧ ∃ written,
      parsed.coinbase.serializedWithoutWitnessWithReplacedScript 0 [0x6a] = .ok written ∧
      ∃ read, parseTransaction written = .ok (read, []) := by
  let := sha256Hashing
  obtain ⟨parsed, accepted, inside⟩ := activatingBlock_accepted
  obtain ⟨written, serialized, reads, -⟩ :=
    (coinbase_reserialization accepted inside).2 [0x6a] (by decide)
  obtain ⟨read, parses, -⟩ := reads (by decide)
  exact ⟨parsed, accepted, written, serialized, read, parses⟩

omit [Hashing] in
/-- A coinbase with one of its scripts replaced by 1000001 bytes is not read again. -/
theorem long_script_unread : letI := sha256Hashing
    ∃ parsed, parseAndVerifyBlock activatingBlock = .ok parsed ∧
      (List.replicate 1000001 (0 : UInt8)).length < 2 ^ 32 ∧ ∃ written,
      parsed.coinbase.serializedWithoutWitnessWithReplacedScript 0
        (List.replicate 1000001 0) = .ok written ∧
      ∀ read, parseTransaction written ≠ .ok read := by
  let := sha256Hashing
  obtain ⟨parsed, accepted, inside⟩ := activatingBlock_accepted
  obtain ⟨_, coinbase, -, -, -, -, valid, limits, parts, -⟩ := accepted_coinbase accepted
  rw [parts] at inside
  have serialized := serializedWithReplacedScript_eq_ok inside (List.replicate 1000001 0)
  rw [← parts] at serialized
  refine ⟨parsed, accepted, ?_, _, serialized, ?_⟩
  · rw [List.length_replicate]
    norm_num
  · intro read accepted'
    rw [← List.append_nil (Transaction.stripped _)] at accepted'
    have small := replaced_script_limit valid limits inside
      (by rw [List.length_replicate]; norm_num) accepted'
    rw [List.length_replicate, maxCoinbaseOutputScriptBytes, maxBlockBaseBytes,
      maxBlockWeight] at small
    omega

end Sample

end Usdd.Verif

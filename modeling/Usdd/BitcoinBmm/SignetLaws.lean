import Usdd.BitcoinBmm.BlockLaws
import Usdd.BitcoinBmm.Signet
/-!
# The commitment script and the coinbase it stands in

A coinbase written again with one script replaced is the stripped serialization of the coinbase
with that script. A commitment script is a sequence of operations up to its first malformed one;
the loop that cuts the solution out is a fold over them.
-/
namespace Usdd.BitcoinBmm

open Usdd.Foundation Usdd.Core

section Coinbases

/-- The outputs with the script of one of them replaced. -/
def replaceScript (index : Nat) (script : List UInt8) (outputs : List ParsedOutput) :
    List ParsedOutput :=
  outputs.modify index fun output => { output with script }

/-- A transaction without witness, with the script of one output replaced. -/
def Transaction.withScript (transaction : Transaction) (index : Nat) (script : List UInt8) :
    Transaction :=
  { transaction with outputs := replaceScript index script transaction.outputs, witness := none }

@[simp]
theorem replaceScript_length (index : Nat) (script : List UInt8) (outputs : List ParsedOutput) :
    (replaceScript index script outputs).length = outputs.length :=
  List.length_modify ..

/-- Writing the outputs with one script replaced writes the outputs with that script. -/
theorem replacedOutputs_eq (index : Nat) (script : List UInt8) (outputs : List ParsedOutput) :
    outputs.zipIdx.map (replacedOutput index script) =
      (replaceScript index script outputs).map ParsedOutput.serialize := by
  refine List.ext_getElem (by simp) fun position inside inside' => ?_
  simp only [List.getElem_map, List.getElem_zipIdx, Nat.zero_add, replacedOutput, replaceScript,
    List.getElem_modify]
  by_cases here : position = index
  · rw [if_pos here, if_pos here.symm]
    simp [ParsedOutput.serialize, sizedBytes]
  · rw [if_neg here, if_neg (Ne.symm here)]
    simp [ParsedOutput.serialize, sizedBytes]

/-- Replacing a script by itself changes nothing. -/
theorem replaceScript_self {index : Nat} {outputs : List ParsedOutput}
    (inside : index < outputs.length) :
    replaceScript index outputs[index].script outputs = outputs := by
  refine List.ext_getElem (by simp) fun position left right => ?_
  simp only [replaceScript, List.getElem_modify]
  by_cases here : index = position
  · subst here
    rw [if_pos rfl]
  · rw [if_neg here]

/-- The coinbase written again is the stripped serialization with the script replaced. -/
theorem serializedWithReplacedScript_eq_ok {coinbase : Transaction} {index : Nat}
    (inside : index < coinbase.outputs.length) (script : List UInt8) :
    coinbase.coinbaseParts.serializedWithoutWitnessWithReplacedScript index script =
      .ok (coinbase.withScript index script).stripped := by
  have stripped : (coinbase.withScript index script).stripped =
      [coinbase.version.bytes, coinbase.inputBytes ++ encodeCompactSize coinbase.outputs.length,
        (coinbase.outputs.zipIdx.map (replacedOutput index script)).flatten,
        coinbase.lockTime.bytes].flatten := by
    rw [replacedOutputs_eq]
    simp only [Transaction.stripped, Transaction.withScript, Transaction.inputBytes,
      Transaction.outputBytes, countedBytes, replaceScript_length, List.flatten_cons,
      List.flatten_nil, List.append_nil, List.append_assoc]
  rw [stripped]
  simp only [ParsedCoinbase.serializedWithoutWitnessWithReplacedScript, ↓then_eq_ok,
    rejectIf_eq_ok, not_le, pure_eq_ok]
  exact ⟨inside, rfl⟩

/-- Replacing a script keeps the values of the outputs. -/
theorem replaceScript_values (index : Nat) (script : List UInt8) (outputs : List ParsedOutput) :
    (replaceScript index script outputs).map ParsedOutput.value =
      outputs.map ParsedOutput.value := by
  refine List.ext_getElem (by simp) fun position left right => ?_
  simp only [List.getElem_map, replaceScript, List.getElem_modify]
  split <;> rfl

theorem replaceScript_satoshis (index : Nat) (script : List UInt8) (outputs : List ParsedOutput) :
    (replaceScript index script outputs).map ParsedOutput.satoshis =
      outputs.map ParsedOutput.satoshis := by
  have same := congrArg (List.map fun value : FixedBytes 8 => leNat value.bytes)
    (replaceScript_values index script outputs)
  rw [List.map_map, List.map_map] at same
  exact same

/-- A valid transaction stays valid with a script replaced. -/
theorem Transaction.Valid.withScript {transaction : Transaction} (valid : transaction.Valid)
    (index : Nat) (script : List UInt8) : (transaction.withScript index script).Valid where
  hasInput := valid.hasInput
  hasOutput := by
    rw [← List.length_pos_iff]
    have some := List.length_pos_iff.mpr valid.hasOutput
    simpa [Transaction.withScript] using some
  coinbaseScript := valid.coinbaseScript
  noNull := valid.noNull
  distinct := valid.distinct
  values := by
    intro output member
    have listed : output.satoshis ∈ transaction.outputs.map ParsedOutput.satoshis := by
      rw [← replaceScript_satoshis index script]
      exact List.mem_map_of_mem member
    obtain ⟨original, originalMember, same⟩ := List.mem_map.mp listed
    rw [← same]
    exact valid.values original originalMember
  total := by
    change ((replaceScript index script transaction.outputs).map _).sum ≤ _
    rw [replaceScript_satoshis]
    exact valid.total
  witness := by
    intro perInput absent
    cases absent

/-- A transaction within the limits stays within them with a script within the limit. -/
theorem Transaction.WithinLimits.withScript {transaction : Transaction}
    (limits : transaction.WithinLimits) {index : Nat} {script : List UInt8}
    (small : script.length ≤ maxCoinbaseOutputScriptBytes) :
    (transaction.withScript index script).WithinLimits where
  inputCount := limits.inputCount
  inputs := limits.inputs
  outputCount := by
    change (replaceScript index script transaction.outputs).length ≤ _
    rw [replaceScript_length]
    exact limits.outputCount
  outputs := by
    intro output member
    obtain ⟨position, inside, rfl⟩ := List.getElem_of_mem member
    have listed : position < transaction.outputs.length := by
      simpa [Transaction.withScript] using inside
    simp only [Transaction.withScript, replaceScript, List.getElem_modify]
    split
    · exact small
    · exact limits.outputs _ (List.getElem_mem listed)
  witness := by
    intro perInput absent
    cases absent

end Coinbases

section Scripts

/-- The four encodings of a push. -/
inductive PushForm where
  | direct
  | pushData1
  | pushData2
  | pushData4
deriving DecidableEq

/-- The lengths an encoding has room for. -/
def PushForm.Fits : PushForm → Nat → Prop
  | .direct, length => 1 ≤ length ∧ length ≤ 75
  | .pushData1, length => length < 256 ^ 1
  | .pushData2, length => length < 256 ^ 2
  | .pushData4, length => length < 256 ^ 4

/-- The opcode of a push of a length. -/
def PushForm.opcode : PushForm → Nat → UInt8
  | .direct, length => UInt8.ofNat length
  | .pushData1, _ => 0x4c
  | .pushData2, _ => 0x4d
  | .pushData4, _ => 0x4e

/-- The bytes of the length after the opcode. -/
def PushForm.sizeBytes : PushForm → Nat → List UInt8
  | .direct, _ => []
  | .pushData1, length => leBytes 1 length
  | .pushData2, length => leBytes 2 length
  | .pushData4, length => leBytes 4 length

/-- The encoding that `signet::append_script_push` chooses. -/
def PushForm.shortest (length : Nat) : PushForm :=
  if length < 0x4c then .direct
  else if length ≤ 0xff then .pushData1
  else if length ≤ 0xffff then .pushData2
  else .pushData4

/-- An operation of a script. -/
inductive ScriptOp where
  | plain (opcode : UInt8)
  | push (form : PushForm) (data : List UInt8)
deriving DecidableEq

namespace ScriptOp

/-- A plain opcode pushes no data, and an encoding has room for its data. -/
def WellFormed : ScriptOp → Prop
  | .plain opcode => ¬(0x01 ≤ opcode.toNat ∧ opcode.toNat ≤ 0x4e)
  | .push form data => form.Fits data.length

/-- The opcode of an operation. -/
def opcode : ScriptOp → UInt8
  | .plain opcode => opcode
  | .push form data => form.opcode data.length

/-- The data an operation pushes. -/
def pushdata : ScriptOp → Option (List UInt8)
  | .plain _ => none
  | .push _ data => some data

/-- The bytes of an operation. -/
def serialize : ScriptOp → List UInt8
  | .plain opcode => [opcode]
  | .push form data => form.opcode data.length :: (form.sizeBytes data.length ++ data)

end ScriptOp

/-- No operation stands in front of the bytes: a script ends or is malformed there. -/
def NoOperation (tail : List UInt8) : Prop :=
  ∀ op : ScriptOp, op.WellFormed → ∀ rest, tail ≠ op.serialize ++ rest

theorem takeScript_eq_ok {length : Nat} {input data rest : List UInt8} :
    takeScript length input = .ok (data, rest) ↔ data.length = length ∧ input = data ++ rest :=
  takeFront_eq_ok

theorem scriptByte_eq_ok {input rest : List UInt8} {opcode : UInt8} :
    scriptByte input = .ok (opcode, rest) ↔ input = opcode :: rest := by
  cases input <;> simp [scriptByte]

/-- A length field of a width is read from its digits. -/
theorem lengthField_eq_ok {width : Nat} {input rest : List UInt8} {found : Option Nat} :
    (do
      let length ← takeScript width
      return some (leNat length) : Reader LayerTwoSignetError (Option Nat)) input =
        .ok (found, rest) ↔
      ∃ length, found = some length ∧ length < 256 ^ width ∧
        input = leBytes width length ++ rest := by
  simp only [Reader.bind_eq_ok, takeScript_eq_ok, Reader.pure_eq_ok]
  constructor
  · rintro ⟨field, _, ⟨rfl, rfl⟩, rfl, rfl⟩
    exact ⟨_, rfl, leNat_lt field, by rw [leBytes_leNat]⟩
  · rintro ⟨length, rfl, fits, rfl⟩
    exact ⟨_, rest, ⟨leBytes_length .., rfl⟩, by rw [leNat_leBytes_of_lt fits], rfl⟩

/-- Whatever is read is an operation that stands there. -/
theorem readScriptOp_sound {input rest : List UInt8} {read : UInt8 × Option (List UInt8)}
    (found : readScriptOp input = .ok (read, rest)) :
    ∃ op : ScriptOp, op.WellFormed ∧ input = op.serialize ++ rest := by
  simp only [readScriptOp, Reader.bind_eq_ok, scriptByte_eq_ok] at found
  obtain ⟨opcode, afterOpcode, rfl, size, afterSize, sized, found⟩ := found
  -- The data of a push stands behind its length.
  have pushed : ∀ length, size = some length →
      ∃ data : List UInt8, data.length = length ∧ afterSize = data ++ rest := by
    rintro length rfl
    simp only [Reader.bind_eq_ok, takeScript_eq_ok, Reader.pure_eq_ok] at found
    obtain ⟨data, _, ⟨counted, rfl⟩, -, rfl⟩ := found
    exact ⟨data, counted, rfl⟩
  have field : ∀ (form : PushForm) (width : Nat), opcode = form.opcode 0 →
      (∀ length, form.opcode length = form.opcode 0 ∧ form.sizeBytes length = leBytes width length ∧
        (form.Fits length ↔ length < 256 ^ width)) →
      (do
        let length ← takeScript width
        return some (leNat length) : Reader LayerTwoSignetError (Option Nat)) afterOpcode =
          .ok (size, afterSize) →
      ∃ op : ScriptOp, op.WellFormed ∧ opcode :: afterOpcode = op.serialize ++ rest := by
    intro form width same shape counted
    obtain ⟨length, isSize, fits, rfl⟩ := lengthField_eq_ok.mp counted
    obtain ⟨data, rfl, rfl⟩ := pushed length isSize
    obtain ⟨isOpcode, isSizeBytes, hasRoom⟩ := shape data.length
    refine ⟨.push form data, hasRoom.mpr fits, ?_⟩
    rw [ScriptOp.serialize, isOpcode, isSizeBytes, same, List.cons_append, List.append_assoc]
  rw [pushLength] at sized
  by_cases direct : 0x01 ≤ opcode ∧ opcode ≤ 0x4b
  · rw [if_pos direct, Reader.pure_eq_ok] at sized
    obtain ⟨rfl, rfl⟩ := sized
    obtain ⟨data, counted, rfl⟩ := pushed _ rfl
    refine ⟨.push .direct data, ?_, ?_⟩
    · change 1 ≤ data.length ∧ data.length ≤ 75
      rw [counted]
      exact direct
    · rw [ScriptOp.serialize, PushForm.opcode, counted, UInt8.ofNat_toNat]
      rfl
  · rw [if_neg direct] at sized
    by_cases one : opcode = 0x4c
    · rw [if_pos one] at sized
      exact field .pushData1 1 one (fun _ => ⟨rfl, rfl, Iff.rfl⟩) sized
    · rw [if_neg one] at sized
      by_cases two : opcode = 0x4d
      · rw [if_pos two] at sized
        exact field .pushData2 2 two (fun _ => ⟨rfl, rfl, Iff.rfl⟩) sized
      · rw [if_neg two] at sized
        by_cases four : opcode = 0x4e
        · rw [if_pos four] at sized
          exact field .pushData4 4 four (fun _ => ⟨rfl, rfl, Iff.rfl⟩) sized
        · rw [if_neg four, Reader.pure_eq_ok] at sized
          obtain ⟨rfl, rfl⟩ := sized
          obtain ⟨-, rfl⟩ := Reader.pure_eq_ok.mp found
          refine ⟨.plain opcode, ?_, rfl⟩
          have apart : ∀ number : UInt8, opcode ≠ number → opcode.toNat ≠ number.toNat :=
            fun number differ same => differ (UInt8.toNat_inj.mp same)
          have notDirect : ¬(1 ≤ opcode.toNat ∧ opcode.toNat ≤ 75) := direct
          have not1 : opcode.toNat ≠ 76 := apart 0x4c one
          have not2 : opcode.toNat ≠ 77 := apart 0x4d two
          have not4 : opcode.toNat ≠ 78 := apart 0x4e four
          change ¬(1 ≤ opcode.toNat ∧ opcode.toNat ≤ 78)
          omega

/-- Where no operation stands, nothing is read. -/
theorem NoOperation.readScriptOp {tail : List UInt8} (stops : NoOperation tail) :
    ∃ error, readScriptOp tail = .error error := by
  cases read : BitcoinBmm.readScriptOp tail with
  | error error => exact ⟨error, rfl⟩
  | ok found =>
    obtain ⟨op, wellFormed, same⟩ := readScriptOp_sound read
    exact absurd same (stops op wellFormed _)

/-- An encoding has room for no more than a machine word counts. -/
theorem PushForm.Fits.lt {form : PushForm} {length : Nat} (fits : form.Fits length) :
    length < 256 ^ 4 := by
  cases form with
  | direct =>
    have small := fits.2
    omega
  | pushData1 => exact Nat.lt_trans fits (by norm_num)
  | pushData2 => exact Nat.lt_trans fits (by norm_num)
  | pushData4 => exact fits

end Scripts

section Solutions

/-- The bytes of a solution: its counted script and its counted witness items. -/
def solutionBytes (fields : List UInt8 × List (List UInt8)) : List UInt8 :=
  sizedBytes fields.1 ++ stackBytes fields.2

/-- The counts of a solution fit the widest prefix. -/
def SolutionCounts (fields : List UInt8 × List (List UInt8)) : Prop :=
  fields.1.length < 2 ^ 64 ∧ fields.2.length < 2 ^ 64 ∧ ∀ item ∈ fields.2, item.length < 2 ^ 64

theorem reads_solutionItem : Reads solutionItem sizedBytes fun item => item.length < 2 ^ 64 := by
  intro input item rest
  simp only [solutionItem, Reader.bind_eq_ok]
  constructor
  · rintro ⟨size, middle, counted, taken⟩
    obtain ⟨fits, rfl⟩ := (Cursor.reads_compactSize _ _ _).mp counted
    obtain ⟨rfl, rfl⟩ := (Cursor.reads_take _ _ _ _).mp taken
    exact ⟨fits, by rw [sizedBytes, List.append_assoc]⟩
  · rintro ⟨fits, rfl⟩
    refine ⟨item.length, item ++ rest, ?_, (Cursor.reads_take _ _ _ _).mpr ⟨rfl, rfl⟩⟩
    apply (Cursor.reads_compactSize _ _ _).mpr
    exact ⟨fits, by rw [sizedBytes, List.append_assoc]⟩

theorem reads_solutionFields : Reads solutionFields solutionBytes SolutionCounts := by
  rintro input ⟨scriptSig, witness⟩ rest
  simp only [solutionFields, Reader.bind_eq_ok, Reader.check_eq_ok, rejectIf_eq_ok, not_lt,
    Cursor.remaining_eq_ok, Reader.pure_eq_ok, Prod.mk.injEq]
  constructor
  · rintro ⟨_, _, scripted, count, _, counted, _, _, ⟨rfl, rfl⟩, _, _, ⟨-, rfl⟩, _, _, found,
      ⟨rfl, rfl⟩, rfl⟩
    obtain ⟨small, rfl⟩ := (reads_solutionItem _ _ _).mp scripted
    obtain ⟨fits, rfl⟩ := (Cursor.reads_compactSize _ _ _).mp counted
    obtain ⟨⟨rfl, items⟩, rfl⟩ := (reads_solutionItem.times _ _ _ _).mp found
    refine ⟨⟨small, fits, items⟩, ?_⟩
    simp only [solutionBytes, stackBytes, countedBytes, List.append_assoc]
  · rintro ⟨⟨small, fits, items⟩, rfl⟩
    have afterScript : solutionBytes (scriptSig, witness) ++ rest = sizedBytes scriptSig ++
        (encodeCompactSize witness.length ++ ((witness.map sizedBytes).flatten ++ rest)) := by
      simp only [solutionBytes, stackBytes, countedBytes, List.append_assoc]
    have covered := stack_length_le witness
    refine ⟨scriptSig, _, (reads_solutionItem _ _ _).mpr ⟨small, afterScript⟩, witness.length, _,
      (Cursor.reads_compactSize _ _ _).mpr ⟨fits, rfl⟩, _, _, ⟨rfl, rfl⟩, (), _, ⟨?_, rfl⟩,
      witness, rest, (reads_solutionItem.times _ _ _ _).mpr ⟨⟨rfl, items⟩, rfl⟩, ⟨rfl, rfl⟩, rfl⟩
    rw [List.length_append]
    omega

/-- A solution is accepted exactly when it is the bytes of its fields. -/
theorem parseSolution_eq_ok {solution : List UInt8} {fields : List UInt8 × List (List UInt8)} :
    parseSolution solution = .ok fields ↔
      SolutionCounts fields ∧ solution = solutionBytes fields := by
  simp only [parseSolution]
  simp only [↓then_eq_ok, bind_eq_ok, rejectIf_eq_ok, mapError_eq_ok, pure_eq_ok, Prod.exists,
    reads_solutionFields _ _ _, not_not]
  constructor
  · rintro ⟨scriptSig, witness, rest, ⟨counts, rfl⟩, nothing, rfl⟩
    rw [List.eq_nil_of_length_eq_zero nothing, List.append_nil]
    exact ⟨counts, rfl⟩
  · rintro ⟨counts, rfl⟩
    exact ⟨fields.1, fields.2, [], ⟨counts, (List.append_nil _).symm⟩, rfl, rfl⟩

end Solutions

end Usdd.BitcoinBmm

import Usdd.BitcoinBmm.Blocks
/-!
# What the block readers read

Each reader of the parser returns exactly the values of its grammar, each from its own bytes.
The checks against the remaining bytes refuse nothing, because the parts that were counted are
still to be read.
-/
namespace Usdd.BitcoinBmm

open Usdd.Foundation Usdd.Core

section Serialization

/-- The bytes of a counted byte string. -/
def sizedBytes (bytes : List UInt8) : List UInt8 := encodeCompactSize bytes.length ++ bytes

/-- The bytes of an input. -/
def ParsedInput.serialize (input : ParsedInput) : List UInt8 :=
  [input.outpoint.bytes, sizedBytes input.script, input.sequence.bytes].flatten

/-- The bytes of an output. -/
def ParsedOutput.serialize (output : ParsedOutput) : List UInt8 :=
  [output.value.bytes, sizedBytes output.script].flatten

/-- The number an output's value denotes. -/
def ParsedOutput.satoshis (output : ParsedOutput) : Nat := leNat output.value.bytes

/-- The bytes of a counted list of parts. -/
def countedBytes {α : Type} (write : α → List UInt8) (parts : List α) : List UInt8 :=
  encodeCompactSize parts.length ++ (parts.map write).flatten

/-- The bytes of a witness stack. -/
def stackBytes (stack : List (List UInt8)) : List UInt8 := countedBytes sizedBytes stack

theorem encodeCompactSize_length_pos (value : Nat) : 0 < (encodeCompactSize value).length := by
  unfold encodeCompactSize
  split
  · simp
  · split
    · simp
    · split <;> simp

/-- The bytes of a positive count do not begin with zero. -/
theorem encodeCompactSize_head {value : Nat} (positive : 0 < value) :
    ∃ first tail, encodeCompactSize value = first :: tail ∧ first ≠ 0 := by
  unfold encodeCompactSize
  split
  · next small =>
    refine ⟨_, _, rfl, fun zero => ?_⟩
    have same := congrArg UInt8.toNat zero
    rw [UInt8.toNat_ofNat_of_lt' (show value < 2 ^ 8 by omega)] at same
    simp at same
    omega
  · split
    · exact ⟨_, _, rfl, by decide⟩
    · split
      · exact ⟨_, _, rfl, by decide⟩
      · exact ⟨_, _, rfl, by decide⟩

/-- Parts of a least size add up. -/
theorem length_mul_le_flatten {α : Type} (write : α → List UInt8) {least : Nat} {parts : List α}
    (size : ∀ part ∈ parts, least ≤ (write part).length) :
    parts.length * least ≤ (parts.map write).flatten.length := by
  induction parts with
  | nil => simp
  | cons part rest ih =>
    obtain ⟨head, tail⟩ := List.forall_mem_cons.mp size
    have others := ih tail
    rw [List.map_cons, List.flatten_cons, List.length_append, List.length_cons, Nat.succ_mul]
    omega

/-- No part is longer than all of them. -/
theorem length_le_flatten {α : Type} (write : α → List UInt8) {parts : List α} {part : α}
    (member : part ∈ parts) : (write part).length ≤ (parts.map write).flatten.length := by
  have sublist : List.Sublist (write part) (parts.map write).flatten :=
    List.sublist_flatten_of_mem (List.mem_map_of_mem member)
  exact sublist.length_le

theorem ParsedInput.serialize_length (input : ParsedInput) :
    input.serialize.length = 40 + (sizedBytes input.script).length := by
  simp only [ParsedInput.serialize, List.flatten_cons, List.flatten_nil, List.length_append,
    List.length_nil, input.outpoint.length_eq, input.sequence.length_eq]
  omega

theorem ParsedOutput.serialize_length (output : ParsedOutput) :
    output.serialize.length = 8 + (sizedBytes output.script).length := by
  simp only [ParsedOutput.serialize, List.flatten_cons, List.flatten_nil, List.length_append,
    List.length_nil, output.value.length_eq]
  omega

theorem sizedBytes_length (bytes : List UInt8) :
    bytes.length < (sizedBytes bytes).length := by
  have positive := encodeCompactSize_length_pos bytes.length
  rw [sizedBytes, List.length_append]
  omega

/-- An input has at least the bytes the parser counts for it. -/
theorem minInputBytes_le (input : ParsedInput) : minInputBytes ≤ input.serialize.length := by
  have sized := sizedBytes_length input.script
  rw [input.serialize_length, minInputBytes]
  omega

/-- An output has at least the bytes the parser counts for it. -/
theorem minOutputBytes_le (output : ParsedOutput) : minOutputBytes ≤ output.serialize.length := by
  have sized := sizedBytes_length output.script
  rw [output.serialize_length, minOutputBytes]
  omega

end Serialization

namespace Cursor

theorem position_eq_ok {input rest found : List UInt8} :
    position input = .ok (found, rest) ↔ found = input ∧ rest = input := by
  change Except.ok (input, input) = _ ↔ _
  rw [Except.ok.injEq, Prod.mk.injEq]
  exact and_congr eq_comm eq_comm

theorem remaining_eq_ok {input rest : List UInt8} {found : Nat} :
    remaining input = .ok (found, rest) ↔ found = input.length ∧ rest = input := by
  change Except.ok (input.length, input) = _ ↔ _
  rw [Except.ok.injEq, Prod.mk.injEq]
  exact and_congr eq_comm eq_comm

/-- What was read up to a position is the slice between the two. -/
@[simp]
theorem between_append (read rest : List UInt8) : between (read ++ rest) rest = read := by
  simp [between]

theorem reads_take (length : Nat) :
    Reads (take length) (fun bytes => bytes) fun bytes => bytes.length = length := by
  intro input value rest
  exact takeFront_eq_ok

theorem reads_fixed (width : Nat) :
    Reads (fixed width) FixedBytes.bytes fun _ => True := by
  intro input value rest
  simp only [fixed, true_and]
  split
  · next enough =>
    rw [Except.ok.injEq, Prod.mk.injEq]
    constructor
    · rintro ⟨rfl, rfl⟩
      exact (List.take_append_drop ..).symm
    · rintro rfl
      refine ⟨FixedBytes.ext ?_, ?_⟩
      · exact List.take_left' value.length_eq
      · exact List.drop_left' value.length_eq
  · next short =>
    constructor
    · intro failed
      cases failed
    · rintro rfl
      rw [List.length_append, value.length_eq] at short
      omega

theorem byte_eq_ok {input rest : List UInt8} {first : UInt8} :
    byte input = .ok (first, rest) ↔ input = first :: rest := by
  cases input <;> simp [byte]

theorem peek_eq_ok {input rest : List UInt8} {first : UInt8} :
    peek input = .ok (first, rest) ↔ rest = input ∧ ∃ tail, input = first :: tail := by
  cases input with
  | nil => simp [peek]
  | cons head tail =>
    simp only [peek, Except.ok.injEq, Prod.mk.injEq, List.cons.injEq, exists_and_left,
      exists_eq', and_true]
    exact ⟨fun ⟨same, whole⟩ => ⟨whole.symm, same⟩, fun ⟨whole, same⟩ => ⟨same, whole.symm⟩⟩

/-- A wide count is read from its digits where no shorter form exists. -/
theorem reads_wideSize (width least : Nat) :
    Reads (wideSize width least) (leBytes width)
      fun value => least ≤ value ∧ value < 256 ^ width := by
  intro input value rest
  simp only [wideSize, Reader.bind_eq_ok, Reader.check_eq_ok, rejectIf_eq_ok, Reader.pure_eq_ok]
  constructor
  · rintro ⟨field, middle, taken, _, _, ⟨minimal, rfl⟩, rfl, rfl⟩
    obtain ⟨length, rfl⟩ := (reads_take _ _ _ _).mp taken
    have fits := leNat_lt field
    rw [length] at fits
    refine ⟨⟨not_lt.mp minimal, fits⟩, ?_⟩
    rw [← length, leBytes_leNat]
  · rintro ⟨⟨minimal, fits⟩, rfl⟩
    refine ⟨leBytes width value, rest, (reads_take _ _ _ _).mpr ⟨leBytes_length .., rfl⟩, (), rest,
      ⟨?_, rfl⟩, leNat_leBytes_of_lt fits, rfl⟩
    rw [leNat_leBytes_of_lt fits]
    exact not_lt.mpr minimal

/-- A count is read from its shortest form alone. -/
theorem reads_compactSize : Reads compactSize encodeCompactSize (· < 2 ^ 64) := by
  intro input value rest
  simp only [compactSize, Reader.bind_eq_ok, byte_eq_ok]
  constructor
  · rintro ⟨first, middle, rfl, found⟩
    split at found
    · next small =>
      obtain ⟨rfl, rfl⟩ := Reader.pure_eq_ok.mp found
      have bound : first.toNat ≤ 0xfc := small
      refine ⟨by omega, ?_⟩
      rw [encodeCompactSize, if_pos (by omega), UInt8.ofNat_toNat]
      rfl
    · split at found
      · next here =>
        obtain ⟨⟨least, fits⟩, rfl⟩ := (reads_wideSize ..).mp found
        rw [here, encodeCompactSize, if_neg (by omega), if_pos (by omega)]
        exact ⟨by omega, rfl⟩
      · split at found
        · next here =>
          obtain ⟨⟨least, fits⟩, rfl⟩ := (reads_wideSize ..).mp found
          rw [here, encodeCompactSize, if_neg (by omega), if_neg (by omega), if_pos (by omega)]
          exact ⟨by omega, rfl⟩
        · next large not16 not32 =>
          obtain ⟨⟨least, fits⟩, rfl⟩ := (reads_wideSize ..).mp found
          have top : first = 0xff := by
            apply UInt8.toNat_inj.mp
            have notSmall : ¬first.toNat ≤ 0xfc := large
            have not16' : first.toNat ≠ 0xfd := fun same => not16 (UInt8.toNat_inj.mp same)
            have not32' : first.toNat ≠ 0xfe := fun same => not32 (UInt8.toNat_inj.mp same)
            have byte := first.toNat_lt
            change first.toNat = 255
            omega
          rw [top, encodeCompactSize, if_neg (by omega), if_neg (by omega), if_neg (by omega)]
          exact ⟨by omega, rfl⟩
  · rintro ⟨fits, rfl⟩
    unfold encodeCompactSize
    split
    · next small =>
      have digit : (UInt8.ofNat value).toNat = value :=
        UInt8.toNat_ofNat_of_lt' (show value < 2 ^ 8 by omega)
      have low : UInt8.ofNat value ≤ 0xfc := by
        change (UInt8.ofNat value).toNat ≤ 252
        omega
      refine ⟨_, rest, rfl, ?_⟩
      rw [if_pos low, Reader.pure_eq_ok]
      exact ⟨digit, rfl⟩
    · split
      · refine ⟨0xfd, _, rfl, ?_⟩
        exact (reads_wideSize ..).mpr ⟨⟨by omega, by omega⟩, rfl⟩
      · split
        · refine ⟨0xfe, _, rfl, ?_⟩
          exact (reads_wideSize ..).mpr ⟨⟨by omega, by omega⟩, rfl⟩
        · refine ⟨0xff, _, rfl, ?_⟩
          exact (reads_wideSize ..).mpr ⟨⟨by omega, by omega⟩, rfl⟩

end Cursor

section Parts

/-- A counted byte string no longer than a limit. -/
theorem reads_sized {most : Nat} {error : BlockStructureError} (fits : most < 2 ^ 64) :
    Reads (do
      let size ← Cursor.compactSize
      Reader.check (rejectIf (size > most) error)
      Cursor.take size) sizedBytes fun bytes => bytes.length ≤ most := by
  intro input value rest
  simp only [Reader.bind_eq_ok, Reader.check_eq_ok, rejectIf_eq_ok, not_lt]
  constructor
  · rintro ⟨size, middle, counted, _, _, ⟨small, rfl⟩, taken⟩
    obtain ⟨-, rfl⟩ := (Cursor.reads_compactSize _ _ _).mp counted
    obtain ⟨rfl, rfl⟩ := (Cursor.reads_take _ _ _ _).mp taken
    exact ⟨small, by rw [sizedBytes, List.append_assoc]⟩
  · rintro ⟨small, rfl⟩
    refine ⟨value.length, value ++ rest, (Cursor.reads_compactSize _ _ _).mpr ⟨?_, ?_⟩, (), _,
      ⟨small, rfl⟩, (Cursor.reads_take _ _ _ _).mpr ⟨rfl, rfl⟩⟩
    · omega
    · rw [sizedBytes, List.append_assoc]

theorem reads_parseScript :
    Reads parseScript sizedBytes fun script => script.length ≤ maxCoinbaseOutputScriptBytes :=
  reads_sized (by decide)

theorem reads_parseWitnessItem :
    Reads parseWitnessItem sizedBytes fun item => item.length ≤ maxBlockWeight :=
  reads_sized (by decide)

/-- The script of an input is within the limit the parser sets. -/
def ParsedInput.WithinLimits (input : ParsedInput) : Prop :=
  input.script.length ≤ maxCoinbaseOutputScriptBytes

theorem reads_parseInput :
    Reads parseInput ParsedInput.serialize ParsedInput.WithinLimits := by
  have law : Reads parseInput (fun input =>
      [input.outpoint.bytes, sizedBytes input.script, input.sequence.bytes].flatten)
      ParsedInput.WithinLimits := by
    refine .plain (Cursor.reads_fixed 36) fun outpoint => ?_
    refine .field reads_parseScript (fun _ holds => holds.1) fun script small => ?_
    refine .plain (Cursor.reads_fixed 4) fun sequence => ?_
    refine .pure (fun input => ?_) fun _ _ => rfl
    constructor
    · rintro ⟨⟨⟨-, rfl⟩, rfl⟩, rfl⟩
      rfl
    · rintro rfl
      exact ⟨⟨⟨small, rfl⟩, rfl⟩, rfl⟩
  exact law

/-- A count is admitted exactly when it is positive, small and covered by what remains. -/
theorem parseCount_eq_ok {empty tooMany : BlockStructureError} {most least count : Nat}
    {input rest : List UInt8} (fits : most < 2 ^ 64) (positive : 0 < least) :
    parseCount empty tooMany most least input = .ok (count, rest) ↔
      (0 < count ∧ count ≤ most ∧ count * least ≤ rest.length) ∧
        input = encodeCompactSize count ++ rest := by
  simp only [parseCount, Reader.bind_eq_ok, Reader.check_eq_ok, rejectIf_eq_ok,
    Cursor.remaining_eq_ok, Reader.pure_eq_ok]
  constructor
  · rintro ⟨found, middle, counted, _, _, ⟨some, rfl⟩, remaining, _, ⟨rfl, rfl⟩, _, _,
      ⟨room, rfl⟩, rfl, rfl⟩
    obtain ⟨-, rfl⟩ := (Cursor.reads_compactSize _ _ _).mp counted
    rw [not_or, not_lt, not_lt, Nat.le_div_iff_mul_le positive] at room
    exact ⟨⟨Nat.pos_of_ne_zero some, room⟩, rfl⟩
  · rintro ⟨⟨some, room⟩, rfl⟩
    refine ⟨count, rest, (Cursor.reads_compactSize _ _ _).mpr ⟨?_, rfl⟩, (), rest,
      ⟨Nat.pos_iff_ne_zero.mp some, rfl⟩, rest.length, rest, ⟨rfl, rfl⟩, (), rest, ⟨?_, rfl⟩,
      rfl, rfl⟩
    · omega
    · rw [not_or, not_lt, not_lt, Nat.le_div_iff_mul_le positive]
      exact room

/-- The values of outputs, added to what came before, stay within the money range. -/
def ValuesWithin (before : Nat) (outputs : List ParsedOutput) : Prop :=
  outputs ≠ [] → before + (outputs.map ParsedOutput.satoshis).sum ≤ maxMoneySatoshis

theorem checkOutputValue_eq_ok (value : FixedBytes 8) (before : Nat) :
    checkOutputValue value before = .ok () ↔ before + leNat value.bytes ≤ maxMoneySatoshis := by
  have range : maxMoneySatoshis < 2 ^ 63 := by decide
  simp only [checkOutputValue, ↓then_eq_ok, rejectIf_eq_ok]
  constructor
  · rintro ⟨-, -, within⟩
    omega
  · intro within
    refine ⟨?_, ?_, ?_⟩ <;> omega

/-- The outputs are read with their values checked as they come. -/
theorem reads_parseOutputs (count before : Nat) :
    Reads (parseOutputs count before) (fun outputs => (outputs.map ParsedOutput.serialize).flatten)
      fun outputs => outputs.length = count ∧
        (∀ output ∈ outputs, output.script.length ≤ maxCoinbaseOutputScriptBytes) ∧
        ValuesWithin before outputs := by
  induction count generalizing before with
  | zero =>
    refine .pure (fun outputs => ?_) ?_
    · constructor
      · rintro ⟨empty, -⟩
        exact List.length_eq_zero_iff.mp empty
      · rintro rfl
        exact ⟨rfl, by simp, by simp [ValuesWithin]⟩
    · rintro outputs ⟨empty, -⟩
      rw [List.length_eq_zero_iff.mp empty]
      rfl
  | succ count ih =>
    intro input outputs rest
    simp only [parseOutputs, Reader.bind_eq_ok, Reader.check_eq_ok, checkOutputValue_eq_ok,
      Reader.pure_eq_ok]
    constructor
    · rintro ⟨value, afterValue, valued, _, _, ⟨within, rfl⟩, script, afterScript, scripted, others,
        last, found, rfl, rfl⟩
      obtain ⟨-, rfl⟩ := (Cursor.reads_fixed _ _ _ _).mp valued
      obtain ⟨small, rfl⟩ := (reads_parseScript _ _ _).mp scripted
      obtain ⟨⟨rfl, smalls, totals⟩, rfl⟩ := (ih _ _ _ _).mp found
      refine ⟨⟨rfl, List.forall_mem_cons.mpr ⟨small, smalls⟩, fun _ => ?_⟩, ?_⟩
      · rw [List.map_cons, List.sum_cons, ← Nat.add_assoc]
        by_cases empty : others = []
        · rw [empty]
          exact within
        · exact totals empty
      · simp [ParsedOutput.serialize]
    · rintro ⟨⟨length, smalls, totals⟩, rfl⟩
      cases outputs with
      | nil => simp at length
      | cons output others =>
        obtain ⟨small, smalls⟩ := List.forall_mem_cons.mp smalls
        have total := totals (List.cons_ne_nil _ _)
        rw [List.map_cons, List.sum_cons, ← Nat.add_assoc] at total
        refine ⟨output.value, sizedBytes output.script ++
            ((others.map ParsedOutput.serialize).flatten ++ rest),
          (Cursor.reads_fixed _ _ _ _).mpr ⟨trivial, by simp [ParsedOutput.serialize]⟩, (), _,
          ⟨Nat.le_trans (Nat.le_add_right ..) total, rfl⟩, output.script,
          (others.map ParsedOutput.serialize).flatten ++ rest,
          (reads_parseScript _ _ _).mpr ⟨small, rfl⟩, others, rest,
          (ih _ _ _ _).mpr ⟨⟨Nat.succ.inj length, smalls, fun _ => total⟩, rfl⟩, rfl, rfl⟩

/-- The sizes in a witness stack are within the limits the parser sets. -/
def StackWithinLimits (stack : List (List UInt8)) : Prop :=
  stack.length < 2 ^ 64 ∧ ∀ item ∈ stack, item.length ≤ maxBlockWeight

/-- Every item of a stack takes at least a byte, so the check of the count refuses nothing. -/
theorem stack_length_le (stack : List (List UInt8)) :
    stack.length ≤ (stack.map sizedBytes).flatten.length := by
  have parts : stack.length * 1 ≤ _ := length_mul_le_flatten sizedBytes fun item _ =>
    Nat.lt_of_le_of_lt (Nat.zero_le _) (sizedBytes_length item)
  omega

theorem reads_parseWitnessStack : Reads parseWitnessStack stackBytes StackWithinLimits := by
  intro input stack rest
  simp only [parseWitnessStack, Reader.bind_eq_ok, Reader.check_eq_ok, rejectIf_eq_ok, not_lt,
    Cursor.remaining_eq_ok]
  constructor
  · rintro ⟨count, middle, counted, _, _, ⟨rfl, rfl⟩, _, _, ⟨-, rfl⟩, found⟩
    obtain ⟨fits, rfl⟩ := (Cursor.reads_compactSize _ _ _).mp counted
    obtain ⟨⟨rfl, small⟩, rfl⟩ := (reads_parseWitnessItem.times _ _ _ _).mp found
    exact ⟨⟨fits, small⟩, by rw [stackBytes, countedBytes, List.append_assoc]⟩
  · rintro ⟨⟨fits, small⟩, rfl⟩
    refine ⟨stack.length, (stack.map sizedBytes).flatten ++ rest,
      (Cursor.reads_compactSize _ _ _).mpr ⟨fits, ?_⟩, _, _, ⟨rfl, rfl⟩, (), _, ⟨?_, rfl⟩,
      (reads_parseWitnessItem.times _ _ _ _).mpr ⟨⟨rfl, small⟩, rfl⟩⟩
    · rw [stackBytes, countedBytes, List.append_assoc]
    · have covered := stack_length_le stack
      rw [List.length_append]
      omega

theorem reads_parseWitness (count : Nat) :
    Reads (parseWitness count) (fun perInput => (perInput.map stackBytes).flatten)
      fun perInput => perInput.length = count ∧ (∃ stack ∈ perInput, stack ≠ []) ∧
        ∀ stack ∈ perInput, StackWithinLimits stack := by
  have some : ∀ perInput : List (List (List UInt8)),
      ¬perInput.all List.isEmpty ↔ ∃ stack ∈ perInput, stack ≠ [] := by
    intro perInput
    simp [List.all_eq_true]
  intro input perInput rest
  simp only [parseWitness, Reader.bind_eq_ok, Reader.check_eq_ok, rejectIf_eq_ok,
    Reader.pure_eq_ok, some]
  constructor
  · rintro ⟨found, middle, front, _, _, ⟨filled, rfl⟩, rfl, rfl⟩
    obtain ⟨⟨length, small⟩, rfl⟩ := (reads_parseWitnessStack.times _ _ _ _).mp front
    exact ⟨⟨length, filled, small⟩, rfl⟩
  · rintro ⟨⟨length, filled, small⟩, rfl⟩
    exact ⟨perInput, rest, (reads_parseWitnessStack.times _ _ _ _).mpr ⟨⟨length, small⟩, rfl⟩, (),
      rest, ⟨filled, rfl⟩, rfl, rfl⟩

/-- The witness of a transaction is read in the witness form and is empty in the legacy form. -/
theorem parseStacks_eq_ok {hasWitness : Bool} {count : Nat} {input rest : List UInt8}
    {perInput : List (List (List UInt8))} :
    parseStacks hasWitness count input = .ok (perInput, rest) ↔
      (hasWitness = true ∧ (perInput.length = count ∧ (∃ stack ∈ perInput, stack ≠ []) ∧
        ∀ stack ∈ perInput, StackWithinLimits stack) ∧
        input = (perInput.map stackBytes).flatten ++ rest) ∨
      (hasWitness = false ∧ perInput = [] ∧ input = rest) := by
  cases hasWitness with
  | false =>
    have law : parseStacks false count input = .ok (perInput, rest) ↔
        [] = perInput ∧ input = rest := Reader.pure_eq_ok
    simp [law, eq_comm]
  | true =>
    have law : parseStacks true count input = .ok (perInput, rest) ↔ _ :=
      reads_parseWitness count input perInput rest
    simp [law]

/-- The marker and flags are read where they stand, and nothing is read elsewhere. -/
theorem parseWitnessMarker_eq_ok {input rest : List UInt8} {hasWitness : Bool} :
    parseWitnessMarker input = .ok (hasWitness, rest) ↔
      (hasWitness = true ∧ input = 0 :: 1 :: rest) ∨
      (hasWitness = false ∧ rest = input ∧ ∃ first tail, input = first :: tail ∧ first ≠ 0) := by
  simp only [parseWitnessMarker, Reader.bind_eq_ok, Cursor.peek_eq_ok]
  constructor
  · rintro ⟨marker, _, ⟨rfl, tail, rfl⟩, found⟩
    split at found
    · next zero =>
      simp only [Reader.bind_eq_ok, Cursor.byte_eq_ok, Reader.check_eq_ok, rejectIf_eq_ok,
        Reader.pure_eq_ok, not_not] at found
      obtain ⟨_, _, same, flags, _, rfl, _, _, ⟨rfl, rfl⟩, rfl, rfl⟩ := found
      rw [List.cons.injEq] at same
      obtain ⟨rfl, rfl⟩ := same
      rw [zero]
      exact .inl ⟨rfl, rfl⟩
    · next nonzero =>
      obtain ⟨rfl, rfl⟩ := Reader.pure_eq_ok.mp found
      exact .inr ⟨rfl, rfl, marker, tail, rfl, nonzero⟩
  · rintro (⟨rfl, rfl⟩ | ⟨rfl, rfl, first, tail, rfl, nonzero⟩)
    · refine ⟨0, _, ⟨rfl, _, rfl⟩, ?_⟩
      rw [if_pos rfl]
      simp only [Reader.bind_eq_ok, Cursor.byte_eq_ok, Reader.check_eq_ok, rejectIf_eq_ok,
        Reader.pure_eq_ok, not_not]
      exact ⟨0, _, rfl, 1, rest, rfl, (), rest, ⟨rfl, rfl⟩, trivial, rfl⟩
    · refine ⟨first, _, ⟨rfl, tail, rfl⟩, ?_⟩
      rw [if_neg nonzero]
      exact Reader.pure_eq_ok.mpr ⟨rfl, rfl⟩

end Parts

end Usdd.BitcoinBmm

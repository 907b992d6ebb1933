import Usdd.BitcoinBmm.SignetLaws
/-!
# Every count has one prefix

The four widths of a count meet without gap or overlap: a count is read from its shortest form,
whatever follows, and from no other bytes. The prefixes of an accepted block and of an accepted
Signet solution are therefore the shortest ones.
-/
namespace Usdd.Verif

open Usdd.Foundation Usdd.Core Usdd.BitcoinBmm

/-- A count that was read stands in its shortest form in front of what is left. -/
theorem compactSize_consumed {bytes rest : List UInt8} {value : Nat}
    (read : Cursor.compactSize bytes = .ok (value, rest)) :
    value < 2 ^ 64 ∧ bytes.take (bytes.length - rest.length) = encodeCompactSize value := by
  obtain ⟨fits, rfl⟩ := (Cursor.reads_compactSize _ _ _).mp read
  have consumed : (encodeCompactSize value ++ rest).length - rest.length =
      (encodeCompactSize value).length := by
    rw [List.length_append, Nat.add_sub_cancel]
  rw [consumed, List.take_left]
  exact ⟨fits, rfl⟩

/-- Two fronts read as one count are one byte string. -/
theorem compactSize_front_unique {front front' rest rest' : List UInt8} {value : Nat}
    (read : Cursor.compactSize (front ++ rest) = .ok (value, rest))
    (read' : Cursor.compactSize (front' ++ rest') = .ok (value, rest')) : front = front' := by
  obtain ⟨-, same⟩ := (Cursor.reads_compactSize _ _ _).mp read
  obtain ⟨-, same'⟩ := (Cursor.reads_compactSize _ _ _).mp read'
  rw [List.append_cancel_right same, List.append_cancel_right same']

variable [Hashing]

/-- Counts are canonical: read and written forms agree both ways, no count has two forms, and the
prefixes of accepted blocks and solutions are the written ones. -/
theorem compactSize_canonical :
    (∀ value < 2 ^ 64, ∀ suffix,
      Cursor.compactSize (encodeCompactSize value ++ suffix) = .ok (value, suffix)) ∧
    (∀ bytes value rest, Cursor.compactSize bytes = .ok (value, rest) →
      value < 2 ^ 64 ∧ bytes.take (bytes.length - rest.length) = encodeCompactSize value ∧
        bytes.drop (bytes.length - rest.length) = rest) ∧
    (∀ front front' rest rest' value,
      Cursor.compactSize (front ++ rest) = .ok (value, rest) →
      Cursor.compactSize (front' ++ rest') = .ok (value, rest') → front = front') ∧
    (∀ bytes parsed, parseAndVerifyBlock bytes = .ok parsed →
      ∃ block : Block, block.Valid ∧ bytes = block.header.bytes ++
        countedBytes Transaction.serialize block.transactions) ∧
    (∀ solution scriptSig witness, parseSolution solution = .ok (scriptSig, witness) →
      solution = sizedBytes scriptSig ++ countedBytes sizedBytes witness) := by
  refine ⟨?_, ?_, ?_, ?_, ?_⟩
  · intro value fits suffix
    exact (Cursor.reads_compactSize _ _ _).mpr ⟨fits, rfl⟩
  · intro bytes value rest read
    obtain ⟨fits, front⟩ := compactSize_consumed read
    refine ⟨fits, front, ?_⟩
    obtain ⟨-, rfl⟩ := (Cursor.reads_compactSize _ _ _).mp read
    rw [List.length_append, Nat.add_sub_cancel, List.drop_left]
  · intro front front' rest rest' value read read'
    exact compactSize_front_unique read read'
  · intro bytes parsed accepted
    obtain ⟨block, _, valid, -, rfl, -⟩ := parseAndVerifyBlock_eq_ok.mp accepted
    exact ⟨block, valid, rfl⟩
  · intro solution scriptSig witness accepted
    exact (parseSolution_eq_ok.mp accepted).2

omit [Hashing] in
/-- The counts next to the borders of the widths, and a count in a form one class too wide. -/
theorem compactSize_canonical_sample :
    Cursor.compactSize (encodeCompactSize 0xfc ++ [7]) = .ok (0xfc, [7]) ∧
      Cursor.compactSize (encodeCompactSize 0x10000 ++ [7]) = .ok (0x10000, [7]) ∧
      encodeCompactSize 0xfd = [0xfd, 0xfd, 0] ∧
      Cursor.compactSize [0xfe, 0xff, 0xff, 0, 0] = .error .nonCanonicalCompactSize := by
  let := sha256Hashing
  have written := compactSize_canonical.1
  exact ⟨written 0xfc (by decide) [7], written 0x10000 (by decide) [7], by decide, by decide⟩

end Usdd.Verif

import Usdd.Simplicity.Formats
import Usdd.Verif.ClientCodecs
/-!
# Three decoders of one annex

The crate reads an annex field by field and writes it again, the Python tools unpack its header
and compare lengths, and the client reads slices, writes the annex again, and also reads the
journal inside. The first two accept the same byte strings; the client accepts those among them
that the crate also verifies as a statement about Ethereum.
-/
namespace Usdd.Verif

open Usdd.Foundation Usdd.Core Usdd.ProofCore
open Usdd.TypeScript (slice slice_length pieces flatten_pieces exists_fixed exists_u32)

section Python

/-- An annex of the crate in the Python tools, which keep no statement kind. -/
def pythonAnnex (annex : Sp1ProofAnnex) : Simplicity.Sp1Annex :=
  ⟨annex.guestProgramId.bytes, annex.publicValues, annex.proof⟩

/-- Slices that follow one another are one slice. -/
theorem slice_append (bytes : List UInt8) {start middle stop : Nat} (first : start ≤ middle)
    (second : middle ≤ stop) :
    slice bytes start middle ++ slice bytes middle stop = slice bytes start stop := by
  have width : stop - start = (middle - start) + (stop - middle) := by omega
  have position : start + (middle - start) = middle := by omega
  rw [slice, slice, slice, width, List.take_add, List.drop_drop, position]

/-- The front of a slice is a slice. -/
theorem slice_take (bytes : List UInt8) {start middle stop : Nat} (first : start ≤ middle)
    (second : middle ≤ stop) :
    (slice bytes start stop).take (middle - start) = slice bytes start middle := by
  rw [slice, slice, List.take_take, Nat.min_eq_left (by omega)]

/-- Bytes with the header and the lengths of an annex are those of one. -/
theorem annex_of_slices {bytes : List UInt8} {values proof : UInt32} {program : Hash32}
    (size : 55 + values.toNat + proof.toNat = bytes.length)
    (tag : slice bytes 0 1 = [0x50]) (magic : slice bytes 1 9 = Simplicity.sp1Magic)
    (version : slice bytes 9 10 = [1]) (system : slice bytes 10 11 = [1])
    (statement : slice bytes 11 12 = [1]) (digest : slice bytes 12 13 = [1])
    (flags : slice bytes 13 15 = encode (0 : UInt16)) (valuesLen : slice bytes 15 19 = encode values)
    (proofLen : slice bytes 19 23 = encode proof) (programId : slice bytes 23 55 = program.bytes) :
    bytes = Sp1ProofAnnex.written ⟨.ethereumState, program,
      slice bytes 55 (55 + values.toNat), bytes.drop (55 + values.toNat)⟩ := by
  have whole : (pieces [1, 8, 1, 1, 1, 1, 2, 4, 4, 32, values.toNat, proof.toNat] bytes).flatten =
      bytes := flatten_pieces (by simp only [List.sum_cons, List.sum_nil]; omega)
  have last : (bytes.drop (55 + values.toNat)).take proof.toNat =
      bytes.drop (55 + values.toNat) :=
    List.take_of_length_le (by rw [List.length_drop]; omega)
  have cut : pieces [1, 8, 1, 1, 1, 1, 2, 4, 4, 32, values.toNat, proof.toNat] bytes =
      [slice bytes 0 1, slice bytes 1 9, slice bytes 9 10, slice bytes 10 11, slice bytes 11 12,
        slice bytes 12 13, slice bytes 13 15, slice bytes 15 19, slice bytes 19 23,
        slice bytes 23 55, slice bytes 55 (55 + values.toNat), bytes.drop (55 + values.toNat)] := by
    rw [← last]
    simp [pieces, slice]
  have valuesLength : (slice bytes 55 (55 + values.toNat)).length = values.toNat := by
    rw [slice_length (by omega), Nat.add_sub_cancel_left]
  have proofLength : (bytes.drop (55 + values.toNat)).length = proof.toNat := by
    rw [List.length_drop]
    omega
  have magicBytes : Simplicity.sp1Magic = encode sp1AnnexMagic := by decide
  rw [Sp1ProofAnnex.written, valuesLength, proofLength, UInt32.ofNat_toNat, UInt32.ofNat_toNat]
  rw [cut, tag, magic, version, system, statement, digest, flags, valuesLen, proofLen, programId,
    magicBytes] at whole
  refine whole.symm.trans ?_
  simp [Sp1ProofAnnex.Header.written, encode, StatementKind.tag, sp1AnnexTag]

/-- The Python tools read the annexes of the crate. -/
theorem decodePython_eq_ok {bytes : List UInt8} {annex : Simplicity.Sp1Annex} :
    Simplicity.decodeSp1Annex bytes = .ok annex ↔
      ∃ core, Sp1ProofAnnex.decodeStrict bytes = .ok core ∧ annex = pythonAnnex core := by
  simp only [Simplicity.decodeSp1Annex, Simplicity.checkBytes, Sp1ProofAnnex.decodeStrict_eq_ok]
  simp only [↓then_eq_ok, rejectIf_eq_ok, pure_eq_ok, not_or, ne_eq, not_not]
  simp only [Simplicity.unpackFrom, Simplicity.sp1HeaderSize, Simplicity.sp1MaxSize,
    Simplicity.sp1PublicValuesMaxSize, Simplicity.ethStateV1, Nat.not_lt, gt_iff_lt]
  constructor
  · rintro ⟨-, ⟨-, front⟩, large, small, magic, ⟨version, system, statement, digest, flags⟩,
      ⟨valuesNe, valuesLe, proofNe⟩, ⟨-, nonzero⟩, size, rfl⟩
    obtain ⟨values, valuesLen⟩ : ∃ value : UInt32, slice bytes 15 19 = encode value :=
      exists_u32 (slice_length (by omega))
    obtain ⟨proof, proofLen⟩ : ∃ value : UInt32, slice bytes 19 23 = encode value :=
      exists_u32 (slice_length (by omega))
    obtain ⟨program, programId⟩ : ∃ value : Hash32, slice bytes 23 55 = value.bytes :=
      exists_fixed (slice_length (by omega))
    have valuesNumber : beNat (slice bytes 15 19) = values.toNat := by
      rw [valuesLen]
      exact beNat_beBytes_of_lt values.toNat_lt
    have proofNumber : beNat (slice bytes 19 23) = proof.toNat := by
      rw [proofLen]
      exact beNat_beBytes_of_lt proof.toNat_lt
    rw [valuesNumber] at valuesNe valuesLe size ⊢
    rw [proofNumber] at proofNe size
    have tag : slice bytes 0 1 = [0x50] := by
      rw [← slice_take bytes (show 0 ≤ 1 by omega) (show 1 ≤ 5 by omega), front]
      rfl
    have flagBytes : slice bytes 13 15 = encode (0 : UInt16) :=
      beNat_inj (slice_length (by omega)) (flags.trans rfl)
    have written := annex_of_slices size tag magic
      (Simplicity.byte_of_number (slice_length (by omega)) version)
      (Simplicity.byte_of_number (slice_length (by omega)) system)
      (Simplicity.byte_of_number (slice_length (by omega)) statement)
      (Simplicity.byte_of_number (slice_length (by omega)) digest) flagBytes valuesLen proofLen
      programId
    have valuesLength : (slice bytes 55 (55 + values.toNat)).length = values.toNat := by
      rw [slice_length (by omega), Nat.add_sub_cancel_left]
    have proofLength : (bytes.drop (55 + values.toNat)).length = proof.toNat := by
      rw [List.length_drop]
      omega
    rw [programId] at nonzero ⊢
    refine ⟨⟨.ethereumState, program, slice bytes 55 (55 + values.toNat),
      bytes.drop (55 + values.toNat)⟩, ⟨⟨rfl, ?_, ?_, ?_, ?_, ?_⟩, written⟩, rfl⟩
    · intro zero
      exact nonzero ⟨trivial, (Simplicity.any_ne_zero program).mpr zero⟩
    · exact fun empty => valuesNe (valuesLength.symm.trans (congrArg List.length empty))
    · exact le_of_eq_of_le valuesLength valuesLe
    · exact fun empty => proofNe (proofLength.symm.trans (congrArg List.length empty))
    · change 55 + (slice bytes 55 (55 + values.toNat)).length +
        (bytes.drop (55 + values.toNat)).length ≤ 524288
      omega
  · rintro ⟨core, ⟨valid, rfl⟩, rfl⟩
    obtain ⟨tag, magic, version, system, statement, digest, high, low, values, proof, programId,
      publicValues, rest⟩ := TypeScript.slices_sp1Annex core valid.kind
    have total := Sp1ProofAnnex.written_length core
    have size := valid.size
    have valuesNumber : beNat (slice core.written 15 19) = core.publicValues.length := by
      rw [values]
      exact (beNat_beBytes_of_lt (UInt32.toNat_lt _)).trans
        (UInt32.toNat_ofNat_of_lt' (show _ < 2 ^ 32 by omega))
    have proofNumber : beNat (slice core.written 19 23) = core.proof.length := by
      rw [proof]
      exact (beNat_beBytes_of_lt (UInt32.toNat_lt _)).trans
        (UInt32.toNat_ofNat_of_lt' (show _ < 2 ^ 32 by omega))
    have flags : slice core.written 13 15 = [0, 0] := by
      rw [← slice_append core.written (show 13 ≤ 14 by omega) (show 14 ≤ 15 by omega), high, low]
      rfl
    have front : slice core.written 0 5 = [Simplicity.annexTag, 0x55, 0x53, 0x44, 0x44] := by
      rw [← slice_append core.written (show 0 ≤ 1 by omega) (show 1 ≤ 5 by omega), tag,
        ← slice_take core.written (show 1 ≤ 5 by omega) (show 5 ≤ 9 by omega), magic]
      rfl
    rw [valuesNumber, proofNumber, front, magic, version, system, statement, digest, flags,
      programId, publicValues, rest]
    refine ⟨⟨by simp, by simp⟩, ⟨by omega, rfl⟩, by omega, by omega, rfl,
      ⟨rfl, rfl, rfl, rfl, rfl⟩, ⟨?_, valid.values_le, ?_⟩, ⟨?_, ?_⟩, total.symm, rfl⟩
    · exact fun empty => valid.values_ne (List.length_eq_zero_iff.mp empty)
    · exact fun empty => valid.proof_ne (List.length_eq_zero_iff.mp empty)
    · simp [FixedBytes.length_eq]
    · rintro ⟨-, zero⟩
      exact valid.program ((Simplicity.any_ne_zero _).mp zero)

end Python

section Agreement

variable [Hashing]

/-- What the three decoders make of one byte string. -/
structure AnnexDecodersAgree (bytes : List UInt8) : Prop where
  python : ∀ annex, Simplicity.decodeSp1Annex bytes = .ok annex ↔
    ∃ core, Sp1ProofAnnex.decodeStrict bytes = .ok core ∧ annex = pythonAnnex core
  client : ∀ annex, TypeScript.decodeSp1Annex bytes = .ok annex ↔
    ∃ core journal, Sp1ProofAnnex.decodeStrict bytes = .ok core ∧ annex = .ofCore core ∧
      StrictJournal.decodeStrict core.publicValues = .ok journal ∧
      journal.statementKind = .ethereumState ∧ journal.programId = core.guestProgramId
  verified : ∀ annex, TypeScript.decodeSp1Annex bytes = .ok annex ↔
    ∃ core journal, annex = .ofCore core ∧
      Sp1ProofAnnex.verifyStrictJournal bytes core.guestProgramId .ethereumState =
        .ok (core, journal)

/-- The crate verifies an annex for its own program when its public values are a journal about
Ethereum for that program. -/
theorem verifyStrictJournal_eq_ok {bytes : List UInt8} {core : Sp1ProofAnnex}
    {journal : StrictJournal} :
    Sp1ProofAnnex.verifyStrictJournal bytes core.guestProgramId .ethereumState =
        .ok (core, journal) ↔
      Sp1ProofAnnex.decodeStrict bytes = .ok core ∧
        StrictJournal.decodeStrict core.publicValues = .ok journal ∧
        journal.statementKind = .ethereumState ∧ journal.programId = core.guestProgramId := by
  simp only [Sp1ProofAnnex.verifyStrictJournal, StrictJournal.verifyExpected]
  simp only [↓then_eq_ok, bind_eq_ok, mapError_eq_ok, Sp1ProofAnnex.refuse_eq_ok,
    StrictJournal.refuse_eq_ok, pure_eq_ok, ne_eq, not_not]
  constructor
  · rintro ⟨annex, accepted, kind, program, found, ⟨_, read, sameProgram, sameKind, rfl⟩, same⟩
    obtain ⟨rfl, rfl⟩ := Prod.mk.inj same
    exact ⟨accepted, read, sameKind, sameProgram⟩
  · rintro ⟨accepted, read, sameKind, sameProgram⟩
    have kind := (Sp1ProofAnnex.decodeStrict_eq_ok.mp accepted).1.kind
    exact ⟨core, accepted, kind, rfl, journal, ⟨journal, read, sameProgram, sameKind, rfl⟩, rfl⟩

theorem annexDecodersAgree_of_root (canonical : (emptyBurnNode 64).bytes = TypeScript.emptyBurnRoot)
    (bytes : List UInt8) : AnnexDecodersAgree bytes where
  python _ := decodePython_eq_ok
  client _ := TypeScript.decodeSp1Annex_eq_ok canonical
  verified annex := by
    rw [TypeScript.decodeSp1Annex_eq_ok canonical]
    refine exists_congr fun core => exists_congr fun journal => ?_
    rw [verifyStrictJournal_eq_ok]
    exact and_left_comm

end Agreement

/-- Crate, Python tools and client agree on every byte string. -/
theorem annex_decoders_agree (bytes : List UInt8) : @AnnexDecodersAgree sha256Hashing bytes :=
  @annexDecodersAgree_of_root sha256Hashing emptyBurnNode_sha256 bytes

end Usdd.Verif

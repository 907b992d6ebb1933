import Usdd.ProofCore.JournalCodec
/-!
# The proof annex

The byte string in which an Elements transaction carries an SP1 proof: a header of fixed width
with the lengths of two parts, the program, and the parts, the public values and the proof.
-/
namespace Usdd.ProofCore

open Usdd.Foundation Usdd.Core

/-- `annex::AnnexError`. -/
inductive AnnexError where
  | decode (error : DecodeError)
  | tooLarge
  | truncated
  | wrongTag
  | wrongMagic
  | wrongVersion
  | wrongProofSystem
  | wrongStatementKind
  | wrongDigestMode
  | nonzeroFlags
  | emptyPublicValues
  | publicValuesTooLarge
  | emptyProof
  | zeroGuestProgramId
  | wrongGuestProgramId
  | lengthMismatch
  | nonCanonicalEncoding
  | journal (error : JournalError)
deriving DecidableEq

/-- `annex::SP1_ANNEX_TAG`. -/
def sp1AnnexTag : UInt8 := 0x50

/-- `annex::SP1_ANNEX_MAGIC`, the bytes `USDDSP1` and a zero byte. -/
def sp1AnnexMagic : FixedBytes 8 := .ofNat 8 0x5553444453503100

/-- `annex::SP1_ANNEX_HEADER_SIZE`. -/
def sp1AnnexHeaderSize : Nat := 55

/-- `annex::SP1_ANNEX_MAX_SIZE`. -/
def sp1AnnexMaxSize : Nat := 512 * 1024

/-- `annex::SP1_PUBLIC_VALUES_MAX_SIZE`. -/
def sp1PublicValuesMaxSize : Nat := 16 * 1024

/-- `usize::checked_add`, for a word of 64 bits. -/
def checkedAddUsize (left right : Nat) : Option Nat :=
  if left + right < 2 ^ 64 then some (left + right) else none

/-- `annex::Sp1ProofAnnex`. -/
structure Sp1ProofAnnex where
  statementKind : StatementKind
  guestProgramId : Hash32
  publicValues : List UInt8
  proof : List UInt8
deriving DecidableEq

namespace Sp1ProofAnnex

/-- A check of an annex. -/
def refuse (condition : Prop) [Decidable condition] (error : AnnexError) :
    Except (Fault AnnexError) Unit :=
  rejectIf condition (.error error)

/-- The length of an annex with two parts of these lengths. -/
def sizeOf (publicValuesLen proofLen : Nat) : Option Nat := do
  let size ← checkedAddUsize sp1AnnexHeaderSize publicValuesLen
  checkedAddUsize size proofLen

/-- `Sp1ProofAnnex::validate`. -/
def validate (annex : Sp1ProofAnnex) : Except (Fault AnnexError) Unit := do
  refuse (annex.guestProgramId = .zero) .zeroGuestProgramId
  refuse (annex.publicValues = []) .emptyPublicValues
  refuse (annex.publicValues.length > sp1PublicValuesMaxSize) .publicValuesTooLarge
  refuse (annex.proof = []) .emptyProof
  let size ← okOr (sizeOf annex.publicValues.length annex.proof.length) (.error .tooLarge)
  refuse (size > sp1AnnexMaxSize) .tooLarge

/-- `Sp1ProofAnnex::new`. -/
def new (statementKind : StatementKind) (guestProgramId : Hash32)
    (publicValues proof : List UInt8) : Except (Fault AnnexError) Sp1ProofAnnex := do
  refuse (statementKind ≠ .ethereumState) .wrongStatementKind
  let value : Sp1ProofAnnex := ⟨statementKind, guestProgramId, publicValues, proof⟩
  value.validate
  return value

/-- The fields of the header of an annex. -/
structure Header where
  publicValuesLen : UInt32
  proofLen : UInt32
  guestProgramId : Hash32

/-- The bytes of a header for a statement kind. -/
def Header.written (statementKind : StatementKind) (header : Header) : List UInt8 :=
  [Core.encode sp1AnnexTag, Core.encode sp1AnnexMagic, Core.encode (1 : UInt8),
    Core.encode (1 : UInt8), Core.encode statementKind.tag, Core.encode (1 : UInt8),
    Core.encode (0 : UInt16), Core.encode header.publicValuesLen, Core.encode header.proofLen,
    Core.encode header.guestProgramId].flatten

/-- `Sp1ProofAnnex::encode_to`. -/
def encode {ε : Type} (annex : Sp1ProofAnnex) : Except (Fault ε) (List UInt8) := do
  let publicLen ← encodeLength "public values length fits u32" annex.publicValues.length
  let proofLen ← encodeLength "proof length fits u32" annex.proof.length
  return [Core.encode sp1AnnexTag, Core.encode sp1AnnexMagic, Core.encode (1 : UInt8),
    Core.encode (1 : UInt8), Core.encode annex.statementKind.tag, Core.encode (1 : UInt8),
    Core.encode (0 : UInt16), publicLen, proofLen, Core.encode annex.guestProgramId,
    annex.publicValues, annex.proof].flatten

/-- A field of an annex; decoding errors become annex errors. -/
def field {α : Type} (read : Decoder α) : Reader (Fault AnnexError) α :=
  Reader.orFail (fun error => .error (.decode error)) read

/-- The header that `Sp1ProofAnnex::decode_strict` reads. -/
def decodeHeader : Reader (Fault AnnexError) Header := do
  let tag ← field Decoder.u8
  Reader.check (refuse (tag ≠ sp1AnnexTag) .wrongTag)
  let magic ← field (Decoder.fixed 8)
  Reader.check (refuse (magic ≠ sp1AnnexMagic) .wrongMagic)
  let version ← field Decoder.u8
  Reader.check (refuse (version ≠ 1) .wrongVersion)
  let proofSystem ← field Decoder.u8
  Reader.check (refuse (proofSystem ≠ 1) .wrongProofSystem)
  let statementKind ← field Decoder.u8
  Reader.check (refuse (statementKind ≠ 1) .wrongStatementKind)
  let digestMode ← field Decoder.u8
  Reader.check (refuse (digestMode ≠ 1) .wrongDigestMode)
  let flags ← field Decoder.u16
  Reader.check (refuse (flags ≠ 0) .nonzeroFlags)
  let publicValuesLen ← field Decoder.u32
  let proofLen ← field Decoder.u32
  let guestProgramId ← field (Decoder.fixed 32)
  return { publicValuesLen, proofLen, guestProgramId }

/-- `Sp1ProofAnnex::decode_strict`. -/
def decodeStrict (bytes : List UInt8) : Except (Fault AnnexError) Sp1ProofAnnex := do
  refuse (bytes.length > sp1AnnexMaxSize) .tooLarge
  refuse (bytes.length < sp1AnnexHeaderSize) .truncated
  let (header, afterHeader) ← decodeHeader bytes
  let expectedLen ← okOr (sizeOf header.publicValuesLen.toNat header.proofLen.toNat)
    (.error .lengthMismatch)
  refuse (expectedLen ≠ bytes.length) .lengthMismatch
  let (publicValues, afterValues) ← field (Decoder.take header.publicValuesLen.toNat) afterHeader
  let (proof, remaining) ← field (Decoder.take header.proofLen.toNat) afterValues
  refuse (remaining.length ≠ 0) .lengthMismatch
  let value : Sp1ProofAnnex :=
    ⟨.ethereumState, header.guestProgramId, publicValues, proof⟩
  value.validate
  let again ← value.encode
  refuse (again ≠ bytes) .nonCanonicalEncoding
  return value

/-- `Sp1ProofAnnex::verify_strict_journal`. -/
def verifyStrictJournal [Hashing] (bytes : List UInt8) (expectedProgramId : Hash32)
    (expectedKind : StatementKind) :
    Except (Fault AnnexError) (Sp1ProofAnnex × StrictJournal) := do
  let annex ← decodeStrict bytes
  refuse (annex.statementKind ≠ expectedKind) .wrongStatementKind
  refuse (annex.guestProgramId ≠ expectedProgramId) .wrongGuestProgramId
  let journal ← (StrictJournal.verifyExpected annex.publicValues expectedProgramId
    expectedKind).mapError fun fault => match fault with
      | .error error => .error (.journal error)
      | .panic message => .panic message
  return (annex, journal)

/-- What a validated annex satisfies. -/
structure Valid (annex : Sp1ProofAnnex) : Prop where
  kind : annex.statementKind = .ethereumState
  program : annex.guestProgramId ≠ .zero
  values_ne : annex.publicValues ≠ []
  values_le : annex.publicValues.length ≤ 16384
  proof_ne : annex.proof ≠ []
  size : 55 + annex.publicValues.length + annex.proof.length ≤ 524288

/-- The bytes of an annex whose parts fit their lengths. -/
def written (annex : Sp1ProofAnnex) : List UInt8 :=
  Header.written annex.statementKind ⟨UInt32.ofNat annex.publicValues.length,
    UInt32.ofNat annex.proof.length, annex.guestProgramId⟩ ++
    (annex.publicValues ++ annex.proof)

@[simp]
theorem refuse_eq_ok {condition : Prop} [Decidable condition] {error : AnnexError} {done : Unit} :
    refuse condition error = .ok done ↔ ¬condition :=
  rejectIf_eq_ok _ _ _

theorem refuse_ne_eq_ok {α : Type} [DecidableEq α] {found wanted : α} {error : AnnexError} :
    refuse (found ≠ wanted) error = .ok () ↔ found = wanted := by
  rw [refuse_eq_ok, ne_eq, not_not]

theorem checkedAddUsize_eq_some {left right sum : Nat} :
    checkedAddUsize left right = some sum ↔ left + right < 2 ^ 64 ∧ sum = left + right := by
  simp only [checkedAddUsize]
  by_cases fits : left + right < 2 ^ 64
  · simp only [fits, if_true, Option.some.injEq, true_and, eq_comm]
  · simp only [fits, if_false, reduceCtorEq, false_and]

theorem sizeOf_eq_some {publicValuesLen proofLen size : Nat} :
    sizeOf publicValuesLen proofLen = some size ↔
      55 + publicValuesLen + proofLen < 2 ^ 64 ∧ size = 55 + publicValuesLen + proofLen := by
  simp only [sizeOf, Option.bind_eq_bind, Option.bind_eq_some_iff, checkedAddUsize_eq_some,
    sp1AnnexHeaderSize]
  constructor
  · rintro ⟨_, ⟨_, rfl⟩, fits, rfl⟩
    exact ⟨fits, rfl⟩
  · rintro ⟨fits, rfl⟩
    exact ⟨_, ⟨by omega, rfl⟩, fits, rfl⟩

theorem validate_eq_ok {annex : Sp1ProofAnnex} :
    annex.statementKind = .ethereumState ∧ annex.validate = .ok () ↔ annex.Valid := by
  simp only [validate]
  simp only [↓then_eq_ok, bind_eq_ok, refuse_eq_ok, okOr_eq_ok, sizeOf_eq_some, gt_iff_lt,
    Nat.not_lt, sp1PublicValuesMaxSize, sp1AnnexMaxSize]
  constructor
  · rintro ⟨kind, program, valuesNe, valuesLe, proofNe, _, ⟨_, rfl⟩, size⟩
    exact ⟨kind, program, valuesNe, valuesLe, proofNe, size⟩
  · intro valid
    have size := valid.size
    exact ⟨valid.kind, valid.program, valid.values_ne, valid.values_le, valid.proof_ne, _,
      ⟨by omega, rfl⟩, size⟩

theorem new_eq_ok {statementKind : StatementKind} {guestProgramId : Hash32}
    {publicValues proof : List UInt8} {annex : Sp1ProofAnnex} :
    new statementKind guestProgramId publicValues proof = .ok annex ↔
      annex.Valid ∧ annex = ⟨statementKind, guestProgramId, publicValues, proof⟩ := by
  simp only [new]
  simp only [↓then_eq_ok, refuse_eq_ok, pure_eq_ok, ne_eq, not_not]
  constructor
  · rintro ⟨kind, valid, rfl⟩
    exact ⟨validate_eq_ok.mp ⟨kind, valid⟩, rfl⟩
  · rintro ⟨valid, rfl⟩
    obtain ⟨kind, holds⟩ := validate_eq_ok.mpr valid
    exact ⟨kind, holds, rfl⟩

theorem encode_eq_ok {ε : Type} {annex : Sp1ProofAnnex} {bytes : List UInt8} :
    (annex.encode : Except (Fault ε) _) = .ok bytes ↔ annex.publicValues.length < 2 ^ 32 ∧
      annex.proof.length < 2 ^ 32 ∧ bytes = annex.written := by
  simp only [encode]
  simp only [bind_eq_ok, encodeLength_eq_ok, pure_eq_ok]
  constructor
  · rintro ⟨_, ⟨values, rfl⟩, _, ⟨proof, rfl⟩, rfl⟩
    refine ⟨values, proof, ?_⟩
    simp [written, Header.written, Core.encode, UInt32.toNat_ofNat_of_lt' values,
      UInt32.toNat_ofNat_of_lt' proof]
  · rintro ⟨values, proof, rfl⟩
    refine ⟨_, ⟨values, rfl⟩, _, ⟨proof, rfl⟩, ?_⟩
    simp [written, Header.written, Core.encode, UInt32.toNat_ofNat_of_lt' values,
      UInt32.toNat_ofNat_of_lt' proof]

/-- An annex whose parts have the lengths of a header is written as that header and its parts. -/
theorem encode_of_parts {ε : Type} {header : Header} {publicValues proof : List UInt8}
    (valuesLen : publicValues.length = header.publicValuesLen.toNat)
    (proofLen : proof.length = header.proofLen.toNat) :
    (encode ⟨.ethereumState, header.guestProgramId, publicValues, proof⟩ : Except (Fault ε) _) =
      .ok (header.written .ethereumState ++ (publicValues ++ proof)) := by
  refine encode_eq_ok.mpr ⟨?_, ?_, ?_⟩
  · exact valuesLen ▸ header.publicValuesLen.toNat_lt
  · exact proofLen ▸ header.proofLen.toNat_lt
  · rw [written, valuesLen, proofLen, UInt32.ofNat_toNat, UInt32.ofNat_toNat]

theorem reads_decodeHeader :
    Reads decodeHeader (Header.written .ethereumState) fun _ => True := by
  refine .expected (Reads.orFail reads_u8) (fun _ => refuse_ne_eq_ok) ?_
  refine .expected (Reads.orFail (reads_fixed 8)) (fun _ => refuse_ne_eq_ok) ?_
  refine .expected (Reads.orFail reads_u8) (fun _ => refuse_ne_eq_ok) ?_
  refine .expected (Reads.orFail reads_u8) (fun _ => refuse_ne_eq_ok) ?_
  refine .expected (Reads.orFail reads_u8) (fun _ => refuse_ne_eq_ok) ?_
  refine .expected (Reads.orFail reads_u8) (fun _ => refuse_ne_eq_ok) ?_
  refine .expected (Reads.orFail reads_u16) (fun _ => refuse_ne_eq_ok) ?_
  refine .plain (Reads.orFail reads_u32) fun _ => .plain (Reads.orFail reads_u32) fun _ => ?_
  refine .plain (Reads.orFail (reads_fixed 32)) fun _ => .pure (fun header => ?_) fun _ _ => rfl
  cases header
  simp only [Header.mk.injEq, true_and, and_assoc]

theorem Header.written_length (statementKind : StatementKind) (header : Header) :
    (header.written statementKind).length = 55 := by
  simp [Header.written]

@[simp]
theorem written_length (annex : Sp1ProofAnnex) :
    annex.written.length = 55 + annex.publicValues.length + annex.proof.length := by
  rw [written, List.length_append, Header.written_length, List.length_append, Nat.add_assoc]

/-- A part of an annex is read by its length. -/
theorem take_eq_ok (part rest : List UInt8) :
    field (Decoder.take part.length) (part ++ rest) = .ok (part, rest) :=
  (Reads.orFail (reads_take part.length) _ _ _).mpr ⟨rfl, rfl⟩

/-- A byte string decodes to an annex when the annex is valid and the bytes are its own. -/
theorem decodeStrict_eq_ok {bytes : List UInt8} {annex : Sp1ProofAnnex} :
    decodeStrict bytes = .ok annex ↔ annex.Valid ∧ bytes = annex.written := by
  simp only [decodeStrict]
  simp only [↓then_eq_ok, bind_eq_ok, refuse_eq_ok, okOr_eq_ok, pure_eq_ok, encode_eq_ok, ne_eq,
    not_not, List.length_eq_zero_iff, gt_iff_lt, Nat.not_lt, sp1AnnexMaxSize, sp1AnnexHeaderSize]
  constructor
  · rintro ⟨_, _, ⟨header, afterHeader⟩, fields, _, _, _, ⟨values, afterValues⟩, first,
      ⟨proof, rest⟩, second, rfl, valid, _, ⟨_, _, rfl⟩, rfl, rfl⟩
    exact ⟨validate_eq_ok.mp ⟨rfl, valid⟩, rfl⟩
  · rintro ⟨valid, rfl⟩
    obtain ⟨kind, checked⟩ := validate_eq_ok.mpr valid
    obtain ⟨statementKind, program, values, proof⟩ := annex
    obtain rfl : statementKind = .ethereumState := kind
    have size : 55 + values.length + proof.length ≤ 524288 := valid.size
    have valuesLen : (UInt32.ofNat values.length).toNat = values.length :=
      UInt32.toNat_ofNat_of_lt' (show values.length < 2 ^ 32 by omega)
    have proofLen : (UInt32.ofNat proof.length).toNat = proof.length :=
      UInt32.toNat_ofNat_of_lt' (show proof.length < 2 ^ 32 by omega)
    have header := (reads_decodeHeader _ _ _).mpr
      ⟨trivial, show Sp1ProofAnnex.written ⟨.ethereumState, program, values, proof⟩ = _ from rfl⟩
    have rest := take_eq_ok proof []
    rw [List.append_nil] at rest
    have total : (written ⟨.ethereumState, program, values, proof⟩).length =
        55 + values.length + proof.length := written_length _
    have least : 55 ≤ (written ⟨.ethereumState, program, values, proof⟩).length := by omega
    refine ⟨total ▸ size, refuse_eq_ok.mpr (Nat.not_lt.mpr least), (_, _), header,
      55 + values.length + proof.length, ?_, total.symm, (values, proof), ?_, (proof, []), ?_, rfl,
      checked, _, ⟨?_, ?_, rfl⟩, rfl, rfl⟩
    · rw [sizeOf_eq_some, valuesLen, proofLen]
      exact ⟨by omega, rfl⟩
    · rw [valuesLen]
      exact take_eq_ok values proof
    · rw [proofLen]
      exact rest
    · exact show values.length < 2 ^ 32 by omega
    · exact show proof.length < 2 ^ 32 by omega

end Sp1ProofAnnex

end Usdd.ProofCore

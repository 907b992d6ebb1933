import Usdd.ProofCore.CodecLaws
import Usdd.ProofCore.Journal
/-!
# The journal envelope

The bytes of a journal, and the strict decoder that admits only bytes it would write itself. A
failed `expect` of the source is an outcome of its own, so that its absence can be stated.
-/
namespace Usdd.ProofCore

open Usdd.Foundation Usdd.Core

/-- `journal::JOURNAL_MAGIC`, the bytes `USDDJNL1`. -/
def journalMagic : FixedBytes 8 := .ofNat 8 0x555344444a4e4c31

/-- `journal::JOURNAL_SUCCESS_MARKER`, the bytes `SUCCESS!`. -/
def journalSuccessMarker : FixedBytes 8 := .ofNat 8 0x5355434345535321

/-- `journal::DigestAlgorithm::Sha256`. -/
def digestAlgorithmSha256 : UInt8 := 1

/-- The byte of a statement kind. -/
def StatementKind.tag : StatementKind → UInt8
  | .ethereumState => 1
  | .elementsState => 2

/-- `StatementKind::decode`. -/
def StatementKind.decode (tag : UInt8) : Except (Fault JournalError) StatementKind :=
  if tag = 1 then .ok .ethereumState else if tag = 2 then .ok .elementsState
  else .error (.error (.unsupportedStatementKind tag))

theorem StatementKind.decode_eq_ok {tag : UInt8} {kind : StatementKind} :
    StatementKind.decode tag = .ok kind ↔ tag = kind.tag := by
  simp only [StatementKind.decode]
  by_cases ethereum : tag = 1
  · subst ethereum
    cases kind <;> decide
  · by_cases elements : tag = 2
    · subst elements
      cases kind <;> decide
    · cases kind <;> simp [ethereum, elements, StatementKind.tag]

/-- `u32::try_from(length).expect(message)`, written to bytes. -/
def encodeLength {ε : Type} (message : String) (length : Nat) : Except (Fault ε) (List UInt8) :=
  if length < 2 ^ 32 then .ok (beBytes 4 length) else .error (.panic message)

theorem encodeLength_eq_ok {ε : Type} {message : String} {length : Nat} {bytes : List UInt8} :
    (encodeLength message length : Except (Fault ε) _) = .ok bytes ↔
      length < 2 ^ 32 ∧ beBytes 4 length = bytes := by
  simp only [encodeLength]
  by_cases fits : length < 2 ^ 32
  · simp only [fits, if_true, Except.ok.injEq, true_and]
  · simp only [fits, if_false, reduceCtorEq, false_and]

namespace StrictJournal

/-- `StrictJournal::encode_to`. -/
def encode {ε : Type} (journal : StrictJournal) : Except (Fault ε) (List UInt8) := do
  let length ← encodeLength "canonical byte string exceeds u32" journal.payload.length
  return [Core.encode journalMagic, Core.encode encodingSchema, Core.encode digestAlgorithmSha256,
    Core.encode journalSuccessMarker, Core.encode journal.statementKind.tag,
    Core.encode journal.programId, Core.encode journal.payloadSha256, length,
    journal.payload].flatten

/-- A field of a journal; decoding errors become journal errors. -/
def field {α : Type} (read : Decoder α) : Reader (Fault JournalError) α :=
  Reader.orFail (fun error => .error (.decode error)) read

/-- A check of a decoded journal. -/
def refuse (condition : Prop) [Decidable condition] (error : JournalError) :
    Except (Fault JournalError) Unit :=
  rejectIf condition (.error error)

/-- The statement kind, read from its byte. -/
def statementKindField : Reader (Fault JournalError) StatementKind := do
  let tag ← field Decoder.u8
  StateT.lift (StatementKind.decode tag)

/-- The fields that `StrictJournal::decode_strict` reads, up to the payload. -/
def decodeFields : Reader (Fault JournalError) StrictJournal := do
  let magic ← field (Decoder.fixed 8)
  Reader.check (refuse (magic ≠ journalMagic) .wrongMagic)
  let schema ← field Decoder.u16
  Reader.check (refuse (schema ≠ encodingSchema) (.unsupportedSchema schema))
  let digestTag ← field Decoder.u8
  Reader.check (refuse (digestTag ≠ digestAlgorithmSha256) (.unsupportedDigest digestTag))
  let marker ← field (Decoder.fixed 8)
  Reader.check (refuse (marker ≠ journalSuccessMarker) .guestNotSuccessful)
  let statementKind ← statementKindField
  let programId ← field (Decoder.fixed 32)
  Reader.check (refuse (programId = Hash32.zero) .zeroProgramId)
  let payloadSha256 ← field (Decoder.fixed 32)
  let payload ← field Decoder.bytes
  Reader.check (refuse (payload = []) .emptyPayload)
  return { statementKind, programId, payloadSha256, payload }

section Hashed

variable [Hashing]

/-- `StrictJournal::decode_strict`. -/
def decodeStrict (bytes : List UInt8) : Except (Fault JournalError) StrictJournal := do
  let (journal, remaining) ← decodeFields bytes
  refuse (remaining.length ≠ 0) (.trailingBytes remaining.length)
  refuse (hashBytes journal.payload ≠ journal.payloadSha256) .payloadDigestMismatch
  let _ ← (TypedPublicValues.decode journal.statementKind journal.payload).mapError Fault.error
  let again ← journal.encode
  refuse (again ≠ bytes) .nonCanonicalEncoding
  return journal

/-- `StrictJournal::typed_payload`. -/
def typedPayload (journal : StrictJournal) : Except (Fault JournalError) TypedPublicValues :=
  (TypedPublicValues.decode journal.statementKind journal.payload).mapError fun _ =>
    .panic "StrictJournal constructors validate typed public values"

/-- `StrictJournal::verify_expected`. -/
def verifyExpected (bytes : List UInt8) (expectedProgramId : Hash32)
    (expectedStatementKind : StatementKind) : Except (Fault JournalError) StrictJournal := do
  let journal ← decodeStrict bytes
  refuse (journal.programId ≠ expectedProgramId) .wrongProgramId
  refuse (journal.statementKind ≠ expectedStatementKind) .wrongStatementKind
  return journal

end Hashed

/-- The bytes of a journal whose payload fits its length prefix. -/
def written (journal : StrictJournal) : List UInt8 :=
  [Core.encode journalMagic, Core.encode encodingSchema, Core.encode digestAlgorithmSha256,
    Core.encode journalSuccessMarker, Core.encode journal.statementKind.tag,
    Core.encode journal.programId, Core.encode journal.payloadSha256,
    Core.encode journal.payload].flatten

theorem encode_eq_ok {ε : Type} {journal : StrictJournal} {bytes : List UInt8} :
    (journal.encode : Except (Fault ε) _) = .ok bytes ↔
      journal.payload.length < 2 ^ 32 ∧ bytes = journal.written := by
  simp only [encode]
  simp only [bind_eq_ok, encodeLength_eq_ok, pure_eq_ok]
  constructor
  · rintro ⟨_, ⟨fits, rfl⟩, rfl⟩
    exact ⟨fits, by simp [written, Core.encode]⟩
  · rintro ⟨fits, rfl⟩
    exact ⟨_, ⟨fits, rfl⟩, by simp [written, Core.encode]⟩

@[simp]
theorem refuse_eq_ok {condition : Prop} [Decidable condition] {error : JournalError} {done : Unit} :
    refuse condition error = .ok done ↔ ¬condition :=
  rejectIf_eq_ok _ _ _

theorem refuse_ne_eq_ok {α : Type} [DecidableEq α] {found wanted : α} {error : JournalError} :
    refuse (found ≠ wanted) error = .ok () ↔ found = wanted := by
  rw [refuse_eq_ok, ne_eq, not_not]

theorem reads_statementKindField :
    Reads statementKindField (fun kind => Core.encode kind.tag) fun _ => True :=
  (Reads.orFail reads_u8).convert (g := StatementKind.tag) fun tag kind => by
    rw [StatementKind.decode_eq_ok]

/-- The fields of a journal are read from the bytes it is written as. -/
theorem reads_decodeFields : Reads decodeFields written fun journal =>
    journal.programId ≠ .zero ∧ journal.payload ≠ [] ∧ journal.payload.length < 2 ^ 32 := by
  refine .expected (Reads.orFail (reads_fixed 8)) (fun _ => refuse_ne_eq_ok) ?_
  refine .expected (Reads.orFail reads_u16) (fun _ => refuse_ne_eq_ok) ?_
  refine .expected (Reads.orFail reads_u8) (fun _ => refuse_ne_eq_ok) ?_
  refine .expected (Reads.orFail (reads_fixed 8)) (fun _ => refuse_ne_eq_ok) ?_
  refine .plain reads_statementKindField fun kind => ?_
  refine .plain (Reads.orFail (reads_fixed 32)) fun programId => ?_
  refine .checked ?_ fun nonzero => .plain (Reads.orFail (reads_fixed 32)) fun digest => ?_
  · rintro journal ⟨⟨⟨nonzero, _⟩, _⟩, rfl⟩
    exact refuse_eq_ok.mpr nonzero
  refine .field (Reads.orFail reads_bytes) ?_ fun payload fits => .checked ?_ fun nonempty => ?_
  · rintro journal ⟨⟨⟨⟨_, _, fits⟩, _⟩, _⟩, _⟩
    exact fits
  · rintro journal ⟨⟨⟨⟨⟨_, nonempty, _⟩, _⟩, _⟩, _⟩, rfl⟩
    exact refuse_eq_ok.mpr nonempty
  · refine .pure (fun journal => ?_) fun _ _ => rfl
    cases journal
    simp only [StrictJournal.mk.injEq, and_assoc]
    constructor
    · rintro ⟨_, _, _, rest⟩
      exact rest
    · rintro ⟨rfl, rfl, rfl, rfl⟩
      exact ⟨refuse_eq_ok.mp nonzero, refuse_eq_ok.mp nonempty, fits, rfl, rfl, rfl, rfl⟩

variable [Hashing]

/-- A byte string decodes to a journal when the bytes are the journal's own and the payload is a
record of the journal's kind. -/
theorem decodeStrict_eq_ok {bytes : List UInt8} {journal : StrictJournal} :
    decodeStrict bytes = .ok journal ↔
      bytes = journal.written ∧ journal.programId ≠ .zero ∧ journal.payload ≠ [] ∧
        journal.payload.length < 2 ^ 32 ∧ journal.payloadSha256 = hashBytes journal.payload ∧
        ∃ value, TypedPublicValues.decode journal.statementKind journal.payload = .ok value := by
  simp only [decodeStrict]
  simp only [↓then_eq_ok, bind_eq_ok, refuse_eq_ok, pure_eq_ok, mapError_eq_ok, encode_eq_ok,
    ne_eq, not_not, List.length_eq_zero_iff]
  constructor
  · rintro ⟨⟨found, rest⟩, fields, rfl, digest, value, decoded, _, ⟨fits, rfl⟩, rfl, rfl⟩
    obtain ⟨⟨nonzero, nonempty, _⟩, _⟩ := (reads_decodeFields _ _ _).mp fields
    exact ⟨rfl, nonzero, nonempty, fits, digest.symm, value, decoded⟩
  · rintro ⟨rfl, nonzero, nonempty, fits, digest, value, decoded⟩
    have fields := (reads_decodeFields (journal.written ++ []) journal []).mpr
      ⟨⟨nonzero, nonempty, fits⟩, rfl⟩
    rw [List.append_nil] at fields
    exact ⟨(journal, []), fields, rfl, digest.symm, value, decoded, _, ⟨fits, rfl⟩, rfl, rfl⟩

end StrictJournal

end Usdd.ProofCore

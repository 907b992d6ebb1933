import Usdd.ProofCore.Claims
/-!
# Journals

The public-values envelope of an accepted proof: a statement kind, the program it was proved
for, and a payload that is the canonical record of one of the three public outputs.
-/
namespace Usdd.ProofCore

open Usdd.Foundation Usdd.Core

/-- `journal::JournalError`. -/
inductive JournalError where
  | decode (error : DecodeError)
  | wrongMagic
  | unsupportedSchema (schema : UInt16)
  | unsupportedDigest (tag : UInt8)
  | guestNotSuccessful
  | unsupportedStatementKind (tag : UInt8)
  | zeroProgramId
  | emptyPayload
  | payloadDigestMismatch
  | trailingBytes (count : Nat)
  | nonCanonicalEncoding
  | wrongProgramId
  | wrongStatementKind
  | invalidPayloadForStatement
deriving DecidableEq

/-- `journal::StatementKind`. -/
inductive StatementKind where
  | ethereumState
  | elementsState
deriving DecidableEq

/-- `journal::TypedPublicValues`. -/
inductive TypedPublicValues where
  | deposit (output : DepositPublicOutput)
  | heartbeat (output : HeartbeatPublicOutput)
  | elementsState (output : ElementsStatePublicOutput)
deriving DecidableEq

/-- `journal::StrictJournal`. -/
structure StrictJournal where
  statementKind : StatementKind
  programId : Hash32
  payloadSha256 : Hash32
  payload : List UInt8
deriving DecidableEq

variable [Hashing]

/-- `TypedPublicValues::decode`. -/
def TypedPublicValues.decode (statementKind : StatementKind) (payload : List UInt8) :
    Except JournalError TypedPublicValues :=
  match statementKind with
  | .ethereumState =>
    match decodeExact DepositPublicOutput payload with
    | .ok value => .ok (.deposit value)
    | .error _ =>
      match decodeExact HeartbeatPublicOutput payload with
      | .ok value => .ok (.heartbeat value)
      | .error _ => .error .invalidPayloadForStatement
  | .elementsState =>
    match decodeExact ElementsStatePublicOutput payload with
    | .ok value => .ok (.elementsState value)
    | .error _ => .error .invalidPayloadForStatement

/-- `StrictJournal::new`. -/
def StrictJournal.new (statementKind : StatementKind) (programId : Hash32)
    (payload : List UInt8) : Except JournalError StrictJournal := do
  rejectIf (programId = .zero) JournalError.zeroProgramId
  rejectIf (payload = []) JournalError.emptyPayload
  let _ ← TypedPublicValues.decode statementKind payload
  return {
    statementKind := statementKind
    programId := programId
    payloadSha256 := hashBytes payload
    payload := payload }

/-- A journal that was made carries the payload it was made of, and that payload decodes. -/
theorem StrictJournal.new_eq_ok {statementKind : StatementKind} {programId : Hash32}
    {payload : List UInt8} {journal : StrictJournal} :
    StrictJournal.new statementKind programId payload = .ok journal ↔
      programId ≠ .zero ∧ payload ≠ [] ∧
        (∃ value, TypedPublicValues.decode statementKind payload = .ok value) ∧
        journal = ⟨statementKind, programId, hashBytes payload, payload⟩ := by
  simp only [StrictJournal.new]
  simp only [↓then_eq_ok, bind_eq_ok, rejectIf_eq_ok, pure_eq_ok]
  constructor
  · rintro ⟨program, nonempty, value, decoded, rfl⟩
    exact ⟨program, nonempty, ⟨value, decoded⟩, rfl⟩
  · rintro ⟨program, nonempty, ⟨value, decoded⟩, rfl⟩
    exact ⟨program, nonempty, value, decoded, rfl⟩

end Usdd.ProofCore

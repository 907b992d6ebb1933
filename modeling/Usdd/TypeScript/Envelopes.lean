import Usdd.TypeScript.Claims
/-!
# The envelopes of the TypeScript client

The journal that a proof commits to and the annex that carries it to Elements. Both are read by
slices at fixed positions and written again before they are accepted.
-/
namespace Usdd.TypeScript

open Usdd.Foundation Usdd.Core

section Journals

/-- The type `TypedPublicValues`. -/
inductive TypedPublicValues where
  | deposit (value : DepositPublicOutput)
  | heartbeat (value : HeartbeatPublicOutput)
  | elementsState (value : ElementsStatePublicOutput)

/-- `encodeTypedPublicValues`. -/
def encodeTypedPublicValues : TypedPublicValues → Except String (List UInt8)
  | .deposit value => encodeDepositPublicOutput value
  | .heartbeat value => encodeHeartbeatPublicOutput value
  | .elementsState value => encodeElementsStatePublicOutput value

/-- `decodeTypedPublicValues`. -/
def decodeTypedPublicValues (statementKind : Nat) (payload : List UInt8) :
    Except String TypedPublicValues := do
  rejectIf (payload.length < 4) "journal payload is not a canonical typed record"
  let schema := readUintBe (slice payload 0 2)
  let tag := readUintBe (slice payload 2 4)
  rejectIf (schema ≠ encodingSchema) "journal payload schema"
  if statementKind = 1 ∧ tag = 0x5201 then
    return .deposit (← decodeDepositPublicOutput payload)
  else if statementKind = 1 ∧ tag = 0x5204 then
    return .heartbeat (← decodeHeartbeatPublicOutput payload)
  else if statementKind = 2 ∧ tag = 0x5203 then
    return .elementsState (← decodeElementsStatePublicOutput payload)
  else throw "journal payload is not allowed for its statement kind"

/-- `JOURNAL_MAGIC`, the bytes `USDDJNL1`. -/
def journalMagic : List UInt8 := [0x55, 0x53, 0x44, 0x44, 0x4a, 0x4e, 0x4c, 0x31]

/-- `JOURNAL_SUCCESS`, the bytes `SUCCESS!`. -/
def journalSuccess : List UInt8 := [0x53, 0x55, 0x43, 0x43, 0x45, 0x53, 0x53, 0x21]

/-- The interface `StrictJournal`. -/
structure StrictJournal where
  statementKind : Nat
  programId : List UInt8
  payload : List UInt8

variable [Hashing]

/-- `encodeStrictJournal`. -/
def encodeStrictJournal (value : StrictJournal) : Except String (List UInt8) := do
  assertLength value.programId 32 "program ID"
  rejectIf (value.statementKind ≠ 1 ∧ value.statementKind ≠ 2) "statement kind"
  rejectIf (isZero value.programId = true ∨ value.payload.length = 0) "empty journal field"
  let _ ← decodeTypedPublicValues value.statementKind value.payload
  concat [.ok journalMagic, u16be encodingSchema, .ok [1], .ok journalSuccess,
    .ok [UInt8.ofNat value.statementKind], .ok value.programId, .ok (sha256 value.payload),
    u32be value.payload.length, .ok value.payload]

/-- `decodeStrictJournal`. -/
def decodeStrictJournal (bytes : List UInt8) : Except String StrictJournal := do
  rejectIf (bytes.length < 88) "truncated journal"
  rejectIf (bytesToHex (slice bytes 0 8) ≠ bytesToHex journalMagic) "journal magic"
  rejectIf (readUintBe (slice bytes 8 10) ≠ encodingSchema) "journal schema"
  rejectIf (bytes[10]? ≠ some 1) "SHA-256 required"
  rejectIf (bytesToHex (slice bytes 11 19) ≠ bytesToHex journalSuccess) "success marker"
  rejectIf (bytes[19]? ≠ some 1 ∧ bytes[19]? ≠ some 2) "statement kind"
  let programId := slice bytes 20 52
  rejectIf (isZero programId = true) "zero program ID"
  let digest := slice bytes 52 84
  let length := readUintBe (slice bytes 84 88)
  rejectIf (length = 0 ∨ 88 + length ≠ bytes.length) "journal length/trailing bytes"
  let payload := bytes.drop 88
  rejectIf (bytesToHex (sha256 payload) ≠ bytesToHex digest) "payload digest"
  let value : StrictJournal := ⟨(bytes.getD 19 0).toNat, programId, payload⟩
  let _ ← decodeTypedPublicValues value.statementKind value.payload
  let encoded ← encodeStrictJournal value
  rejectIf (bytesToHex encoded ≠ bytesToHex bytes) "noncanonical journal"
  return value

end Journals

section Annexes

/-- `ANNEX_MAGIC`, the bytes `USDDSP1` and a zero byte. -/
def annexMagic : List UInt8 := [0x55, 0x53, 0x44, 0x44, 0x53, 0x50, 0x31, 0x00]

/-- `ANNEX_HEADER_SIZE`. -/
def annexHeaderSize : Nat := 55

/-- `ANNEX_MAX_SIZE`. -/
def annexMaxSize : Nat := 512 * 1024

/-- `PUBLIC_VALUES_MAX_SIZE`. -/
def publicValuesMaxSize : Nat := 16 * 1024

/-- The interface `Sp1Annex`. -/
structure Sp1Annex where
  statementKind : Nat
  guestProgramId : List UInt8
  publicValues : List UInt8
  proof : List UInt8

/-- `encodeSp1Annex`. -/
def encodeSp1Annex (value : Sp1Annex) : Except String (List UInt8) := do
  rejectIf (value.statementKind ≠ 1) "Elements annex supports ETH_STATE_V1 only"
  assertLength value.guestProgramId 32 "guest program ID"
  rejectIf (isZero value.guestProgramId = true) "zero guest program ID"
  rejectIf (value.publicValues.length = 0 ∨ value.publicValues.length > publicValuesMaxSize)
    "public values length"
  rejectIf (value.proof.length = 0) "empty proof"
  let bytes ← concat [.ok [0x50], .ok annexMagic,
    .ok [1, 1, UInt8.ofNat value.statementKind, 1], u16be 0, u32be value.publicValues.length,
    u32be value.proof.length, .ok value.guestProgramId, .ok value.publicValues, .ok value.proof]
  rejectIf (bytes.length > annexMaxSize) "annex too large"
  return bytes

/-- `decodeSp1Annex`. -/
def decodeSp1Annex [Hashing] (bytes : List UInt8) : Except String Sp1Annex := do
  rejectIf (bytes.length < annexHeaderSize ∨ bytes.length > annexMaxSize) "annex size"
  rejectIf (bytes[0]? ≠ some 0x50 ∨ bytesToHex (slice bytes 1 9) ≠ bytesToHex annexMagic)
    "annex magic"
  rejectIf (bytes[9]? ≠ some 1 ∨ bytes[10]? ≠ some 1) "annex version/system"
  rejectIf (bytes[11]? ≠ some 1) "annex statement"
  rejectIf (bytes[12]? ≠ some 1) "annex SHA-256 mode"
  rejectIf (bytes[13]? ≠ some 0 ∨ bytes[14]? ≠ some 0) "annex flags"
  let publicLength := (readUintBe (slice bytes 15 19)).toNat
  let proofLength := (readUintBe (slice bytes 19 23)).toNat
  rejectIf (annexHeaderSize + publicLength + proofLength ≠ bytes.length)
    "annex length/trailing bytes"
  let value : Sp1Annex := {
    statementKind := (bytes.getD 11 0).toNat
    guestProgramId := slice bytes 23 55
    publicValues := slice bytes 55 (55 + publicLength)
    proof := bytes.drop (55 + publicLength) }
  let encoded ← encodeSp1Annex value
  rejectIf (bytesToHex encoded ≠ bytesToHex bytes) "noncanonical annex"
  let journal ← decodeStrictJournal value.publicValues
  rejectIf (journal.statementKind ≠ value.statementKind ∨
      bytesToHex journal.programId ≠ bytesToHex value.guestProgramId)
    "annex/journal mismatch"
  return value

end Annexes

end Usdd.TypeScript

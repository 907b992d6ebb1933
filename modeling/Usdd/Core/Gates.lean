import Usdd.Core.Hash
import Usdd.Foundation.HexText
import Usdd.Foundation.IndexedFolds
import Usdd.Foundation.Text
/-!
# Launch gates

A release is described by a table with a row for each gate: its status, a measured value and a
reference to evidence. `GateReport::parse_tsv` reads the table and fills in missing gates as
blocked, `verify_evidence_files` compares the evidence of every pass with the file it names, and
only then can `launch_ready` hold. Files are a function of their path.
-/
namespace Usdd.Core

open Usdd.Foundation

section Gates

/-- `gates::REQUIRED_LAUNCH_GATES`. -/
def requiredLaunchGates : List (List Char) :=
  ["proof-size", "x86-latency", "arm-latency", "peak-memory", "block-weight", "evm-gas",
    "full-validity-invalid-block-rejection", "volume-100k", "soak-90-day",
    "sp1-soundness-independent-confirmation", "solidity-independent-audit",
    "sp1-guests-independent-audit", "elements-simplicity-independent-audit",
    "ethereum-client-differential", "elements-bitcoin-enforcer-differential",
    "cross-domain-replay-fuzz"].map String.toList

/-- `gates::GateStatus`. -/
inductive GateStatus where
  | blocked
  | pass
  | fail
deriving DecidableEq

/-- `gates::GateError`. -/
inductive GateError where
  | invalidHeader
  | wrongColumnCount (line actual : Nat)
  | invalidStatus (status : List Char)
  | unknownGate (gate : List Char)
  | duplicateGate (gate : List Char)
  | invalidEvidenceSpec (gate : List Char)
  | unsafeEvidencePath (gate : List Char)
  | evidenceRead (gate : List Char) (message : String)
  | evidenceDigestMismatch (gate : List Char)
deriving DecidableEq

namespace GateStatus

/-- `GateStatus::as_str`. -/
def asStr : GateStatus → List Char
  | .blocked => "BLOCKED".toList
  | .pass => "PASS".toList
  | .fail => "FAIL".toList

/-- `GateStatus::parse`. -/
def parse (value : List Char) : Except GateError GateStatus :=
  if value = "BLOCKED".toList then .ok .blocked
  else if value = "PASS".toList then .ok .pass
  else if value = "FAIL".toList then .ok .fail
  else .error (.invalidStatus value)

theorem parse_eq_ok {value : List Char} {status : GateStatus} :
    parse value = .ok status ↔ value = status.asStr := by
  constructor
  · intro parsed
    unfold parse at parsed
    split_ifs at parsed with blocked pass fail
    · cases parsed
      exact blocked
    · cases parsed
      exact pass
    · cases parsed
      exact fail
  · rintro rfl
    cases status <;> decide

end GateStatus

/-- `gates::GateEntry`. -/
structure GateEntry where
  id : List Char
  status : GateStatus
  measuredValue : List Char
  evidence : List Char
  evidenceVerified : Bool
deriving DecidableEq

/-- Whether a value is a number in a range. -/
def integerIn (value : List Char) (range : UInt64 → Bool) : Bool := (parseU64 value).any range

/-- Whether a value is a fraction whose parts are equal and not zero. -/
def allRejected (value : List Char) : Bool :=
  match splitOnce '/' value with
  | none => false
  | some (rejected, total) =>
    match parseU64 rejected, parseU64 total with
    | some rejected, some total => total > 0 && rejected == total
    | _, _ => false

/-- `gates::meets_gate_criterion`. -/
def meetsGateCriterion (id value : List Char) : Bool :=
  if id = "proof-size".toList then integerIn value (· ≤ 512 * 1024)
  else if id = "x86-latency".toList then integerIn value (· ≤ 500)
  else if id = "arm-latency".toList then integerIn value (· ≤ 2000)
  else if id = "peak-memory".toList then integerIn value (· ≤ 256 * 1024 * 1024)
  else if id = "block-weight".toList then integerIn value (· ≤ 2500)
  else if id = "evm-gas".toList then integerIn value (· ≤ 5000)
  else if id = "full-validity-invalid-block-rejection".toList then allRejected value
  else if id = "volume-100k".toList then integerIn value (· ≥ 100000)
  else if id = "soak-90-day".toList then integerIn value (· ≥ 90)
  else if id = "sp1-soundness-independent-confirmation".toList ∨
      id = "solidity-independent-audit".toList ∨ id = "sp1-guests-independent-audit".toList ∨
      id = "elements-simplicity-independent-audit".toList ∨
      id = "ethereum-client-differential".toList ∨
      id = "elements-bitcoin-enforcer-differential".toList ∨
      id = "cross-domain-replay-fuzz".toList then
    value == "complete".toList
  else false

/-- `GateEntry::is_measured_pass`. -/
def GateEntry.isMeasuredPass (entry : GateEntry) : Bool :=
  entry.status == .pass && entry.evidenceVerified &&
    meetsGateCriterion entry.id entry.measuredValue

/-- `gates::GateReport`. -/
structure GateReport where
  entries : List GateEntry
deriving DecidableEq

/-- The header of the table. -/
def gateHeader : List Char := "gate\tstatus\tmeasured_value\tevidence".toList

/-- The lines `GateReport::parse_tsv` passes over. -/
def isSkipped (line : List Char) : Bool := isBlank line || line.head? == some '#'

/-- One round of the loop of `GateReport::parse_tsv`. -/
def parseLine (lineIndex : Nat) (provided : List GateEntry) (line : List Char) :
    Except GateError (List GateEntry) :=
  if isSkipped line then .ok provided
  else
    match line.splitOn '\t' with
    | [id, status, measuredValue, evidence] => do
      rejectIf (id ∉ requiredLaunchGates) (.unknownGate id)
      let status ← GateStatus.parse status
      rejectIf (provided.any (fun entry => entry.id == id) = true) (.duplicateGate id)
      return provided ++ [⟨id, status, measuredValue, evidence, false⟩]
    | columns => .error (.wrongColumnCount (lineIndex + 2) columns.length)

/-- The entry `GateReport::parse_tsv` inserts for a gate without a row. -/
def missingEntry (id : List Char) : GateEntry :=
  ⟨id, .blocked, "UNMEASURED".toList, "NONE".toList, false⟩

/-- The entry of a gate in the report. -/
def entryFor (provided : List GateEntry) (id : List Char) : GateEntry :=
  (provided.find? fun entry => entry.id == id).getD (missingEntry id)

namespace GateReport

/-- `GateReport::parse_tsv`. -/
def parseTsv (input : List Char) : Except GateError GateReport :=
  match lines input with
  | [] => .error .invalidHeader
  | header :: rest => do
    rejectIf (header ≠ gateHeader) .invalidHeader
    let provided ← foldIndexed parseLine 0 [] rest
    return ⟨requiredLaunchGates.map (entryFor provided)⟩

/-- `GateReport::launch_ready`. -/
def launchReady (report : GateReport) : Bool :=
  report.entries.length == requiredLaunchGates.length &&
    report.entries.all GateEntry.isMeasuredPass

/-- `GateReport::blocked_count`. -/
def blockedCount (report : GateReport) : Nat :=
  (report.entries.filter fun entry => !entry.isMeasuredPass).length

end GateReport

/-- `gates::parse_evidence_spec`. -/
def parseEvidenceSpec (value : List Char) : Option (List Char × List Char) := do
  let (hex, path) ← splitOnce '@' (← stripStart "sha256:".toList value)
  if hex.length ≠ 64 ∨ ¬hex.all (fun digit => (hexDigit digit).isSome) ∨
      ¬hex.any (fun digit => digit ≠ '0') ∨ path = [] then none
  else some (hex, path)

variable [Hashing]

/-- One round of the loop of `GateReport::verify_evidence_files`, over the files under the
evidence root. -/
def verifyEntry (read : List Char → Except String (List UInt8)) (entry : GateEntry) :
    Except GateError GateEntry :=
  if entry.status ≠ .pass then .ok entry
  else do
    let (declaredDigest, path) ←
      okOr (parseEvidenceSpec entry.evidence) (.invalidEvidenceSpec entry.id)
    rejectIf (path = [] ∨ isAbsolute path = true ∨
        (components path).any (fun component => !component.isNormal) = true)
      (.unsafeEvidencePath entry.id)
    let bytes ← (read path).mapError (GateError.evidenceRead entry.id)
    rejectIf (eqIgnoreAsciiCase (lowerHex (hashBytes bytes).bytes) declaredDigest = false)
      (.evidenceDigestMismatch entry.id)
    return { entry with evidenceVerified := true }

/-- `GateReport::verify_evidence_files`. -/
def GateReport.verifyEvidenceFiles (report : GateReport)
    (read : List Char → Except String (List UInt8)) : Except GateError GateReport := do
  return ⟨← report.entries.mapM (verifyEntry read)⟩

end Gates

end Usdd.Core

import Usdd.Foundation.Checks
import Usdd.Foundation.HexText
import Usdd.Foundation.Keccak
import Usdd.Foundation.Sweeps
/-!
# The preflight of the verifier's runtime

`verifier-preflight.mjs` refuses a runtime bytecode that is a blocked one, up to its immutable
references, and one in which a linear disassembly finds an opcode that reaches storage, other
accounts, or new code.
-/
namespace Usdd.Contracts

open Usdd.Foundation

section Tables

/-- `OPCODES`. -/
def opcodes : List (UInt8 × String) :=
  [(0x31, "BALANCE"), (0x3b, "EXTCODESIZE"), (0x3c, "EXTCODECOPY"), (0x3f, "EXTCODEHASH"),
    (0x54, "SLOAD"), (0x55, "SSTORE"), (0x5c, "TLOAD"), (0x5d, "TSTORE"), (0xf0, "CREATE"),
    (0xf1, "CALL"), (0xf2, "CALLCODE"), (0xf4, "DELEGATECALL"), (0xf5, "CREATE2"),
    (0xfa, "STATICCALL"), (0xff, "SELFDESTRUCT")]

/-- `STORAGE_OPCODES`. -/
def storageOpcodes : List String := ["SLOAD", "SSTORE", "TLOAD", "TSTORE"]

/-- `FORBIDDEN_OPCODES`. -/
def forbiddenOpcodes : List String :=
  ["CREATE", "CREATE2", "CALL", "CALLCODE", "DELEGATECALL", "SELFDESTRUCT"]

/-- `EXTERNAL_DEPENDENCY_OPCODES`. -/
def externalDependencyOpcodes : List String :=
  ["BALANCE", "EXTCODESIZE", "EXTCODECOPY", "EXTCODEHASH", "STATICCALL"]

end Tables

section Runtimes

/-- A runtime bytecode, as a buffer or as text. -/
inductive Runtime where
  | buffer (bytes : List UInt8)
  | text (value : List Char)

/-- `hexBody`. -/
def hexBody (value : List Char) : Except String (List Char) := do
  let body := if value.take 2 = ['0', 'x'] then value.drop 2 else value
  rejectIf (body.length % 2 ≠ 0 ∨ ¬body.all (fun digit => (hexDigit digit).isSome))
    "Invalid runtime bytecode hex"
  return body

/-- `runtimeBytes`. The body has been checked, so all of it is decoded. -/
def runtimeBytes : Runtime → Except String (List UInt8)
  | .buffer bytes => return bytes
  | .text value => do
    let body ← hexBody value
    return (parseHex body).getD []

/-- `runtimeKeccak256`. -/
def runtimeKeccak256 (runtime : Runtime) : Except String (List Char) := do
  return ['0', 'x'] ++ lowerHex (keccak256 (← runtimeBytes runtime)).bytes

/-- An entry of `disassembleRelevantOpcodes`. -/
structure RelevantOpcode where
  programCounter : Nat
  opcode : String
deriving DecidableEq

/-- How far `disassembleRelevantOpcodes` moves its program counter. -/
def stride (opcode : UInt8) : Nat :=
  if opcode ≥ 0x60 ∧ opcode ≤ 0x7f then 2 + opcode.toNat - 0x60 else 1

/-- What `disassembleRelevantOpcodes` pushes at a program counter. -/
def relevantAt (programCounter : Nat) (opcode : UInt8) : List RelevantOpcode :=
  match opcodes.lookup opcode with
  | some name => [⟨programCounter, name⟩]
  | none => []

/-- The loop of `disassembleRelevantOpcodes` for a number of rounds, with the program counter it
got to. -/
def disassemble (bytes : List UInt8) (rounds : Nat) : Nat × List RelevantOpcode :=
  sweep stride relevantAt bytes rounds 0 []

/-- `disassembleRelevantOpcodes`. No more rounds are made than there are bytes. -/
def disassembleRelevantOpcodes (runtime : Runtime) : Except String (List RelevantOpcode) := do
  let bytes ← runtimeBytes runtime
  return (disassemble bytes bytes.length).2

/-- A range of immutable bytes. -/
structure ByteRange where
  start : Nat
  length : Nat

/-- A runtime template: its bytecode, and the ranges of each immutable by its name. -/
structure RuntimeTemplate where
  hex : List Char
  immutableReferences : List (String × List ByteRange)

/-- `immutableOffsets`. -/
def immutableOffsets (references : List (String × List ByteRange)) : List Nat :=
  references.flatMap fun reference =>
    reference.2.flatMap fun range => List.range' range.start range.length

/-- `matchesRuntimeTemplate`. -/
def matchesRuntimeTemplate (runtime : Runtime) (template : RuntimeTemplate) :
    Except String Bool := do
  let actual ← runtimeBytes runtime
  let expected ← runtimeBytes (.text template.hex)
  let ignored := immutableOffsets template.immutableReferences
  return actual.length == expected.length &&
    (List.range actual.length).all fun offset =>
      ignored.contains offset || actual[offset]? == expected[offset]?

/-- A blocked fingerprint. -/
structure BlockedFingerprint where
  name : String
  runtimeBytecodeTemplate : RuntimeTemplate

/-- `formatOpcodes`. -/
def formatOpcodes (entries : List RelevantOpcode) : String :=
  ", ".intercalate (entries.map fun entry => entry.opcode ++ "@" ++ toString entry.programCounter)

/-- What `analyzeVerifierRuntime` returns. -/
structure RuntimeAnalysis where
  runtimeBytes : Nat
  runtimeCodeKeccak256 : List Char
  storageOpcodes : List RelevantOpcode
  forbiddenOpcodes : List RelevantOpcode
  externalDependencies : List RelevantOpcode
deriving DecidableEq

/-- `analyzeVerifierRuntime`. -/
def analyzeVerifierRuntime (runtime : Runtime) (blockedFingerprints : List BlockedFingerprint) :
    Except String RuntimeAnalysis := do
  blockedFingerprints.forM fun fingerprint => do
    let blocked ← matchesRuntimeTemplate runtime fingerprint.runtimeBytecodeTemplate
    rejectIf (blocked = true) ("Forbidden verifier runtime fingerprint: " ++ fingerprint.name)
  let relevant ← disassembleRelevantOpcodes runtime
  let storage := relevant.filter fun entry => storageOpcodes.contains entry.opcode
  rejectIf (storage.length ≠ 0)
    ("Verifier runtime accesses mutable storage: " ++ formatOpcodes storage)
  let forbidden := relevant.filter fun entry => forbiddenOpcodes.contains entry.opcode
  rejectIf (forbidden.length ≠ 0)
    ("Verifier runtime contains forbidden opcodes: " ++ formatOpcodes forbidden)
  let externalDependencies :=
    relevant.filter fun entry => externalDependencyOpcodes.contains entry.opcode
  rejectIf (externalDependencies.length ≠ 0)
    ("Verifier runtime contains unauthenticated external-dependency opcodes: " ++
      formatOpcodes externalDependencies)
  return {
    runtimeBytes := (← runtimeBytes runtime).length
    runtimeCodeKeccak256 := ← runtimeKeccak256 runtime
    storageOpcodes := []
    forbiddenOpcodes := []
    externalDependencies := [] }

end Runtimes

section Laws

variable {runtime : Runtime} {bytes : List UInt8}

/-- A checked body is decoded, so the empty default is never taken. -/
theorem hexBody_decodes {value body : List Char} (checked : hexBody value = .ok body) :
    (parseHex body).isSome = true := by
  simp only [hexBody] at checked
  simp only [↓then_eq_ok, rejectIf_eq_ok, pure_eq_ok] at checked
  obtain ⟨passed, rfl⟩ := checked
  rw [not_or, not_not, not_not, List.all_eq_true] at passed
  exact parseHex_isSome passed.1 passed.2

theorem stride_pos (opcode : UInt8) : 0 < stride opcode := by
  unfold stride
  split
  · rename_i push
    have lower : 0x60 ≤ opcode.toNat := UInt8.le_iff_toNat_le.mp push.1
    omega
  · exact Nat.one_pos

/-- The disassembly ends within as many rounds as there are bytes: the program counter has then
left them. -/
theorem length_le_disassemble (bytes : List UInt8) :
    bytes.length ≤ (disassemble bytes bytes.length).1 :=
  length_le_sweep stride_pos (by omega)

/-- It finds the same in any larger number of rounds. -/
theorem disassemble_add (bytes : List UInt8) (extra : Nat) :
    disassemble bytes (bytes.length + extra) = disassemble bytes bytes.length :=
  sweep_add stride_pos (by omega) extra

theorem mem_relevantAt {entry : RelevantOpcode} {programCounter : Nat} {opcode : UInt8} :
    entry ∈ relevantAt programCounter opcode ↔
      opcodes.lookup opcode = some entry.opcode ∧ entry.programCounter = programCounter := by
  unfold relevantAt
  cases opcodes.lookup opcode with
  | none => simp
  | some name =>
    simp only [List.mem_singleton, Option.some.injEq]
    constructor
    · rintro rfl
      exact ⟨rfl, rfl⟩
    · rintro ⟨rfl, rfl⟩
      rfl

/-- The disassembly finds the opcodes of the table at the instructions of the code. -/
theorem mem_disassemble {entry : RelevantOpcode} :
    entry ∈ (disassemble bytes bytes.length).2 ↔ Boundary stride bytes entry.programCounter ∧
      ∃ opcode, bytes[entry.programCounter]? = some opcode ∧
        opcodes.lookup opcode = some entry.opcode := by
  rw [disassemble, mem_sweep stride_pos (by omega) .start]
  simp only [List.not_mem_nil, false_or, Nat.zero_le, true_and, mem_relevantAt]
  constructor
  · rintro ⟨start, opcode, boundary, found, named, rfl⟩
    exact ⟨boundary, opcode, found, named⟩
  · rintro ⟨boundary, opcode, found, named⟩
    exact ⟨_, opcode, boundary, found, named, rfl⟩

/-- Every opcode of the table is in one of the three groups. -/
theorem grouped {entry : RelevantOpcode} (found : entry ∈ (disassemble bytes bytes.length).2) :
    entry.opcode ∈ storageOpcodes ∨ entry.opcode ∈ forbiddenOpcodes ∨
      entry.opcode ∈ externalDependencyOpcodes := by
  obtain ⟨_, opcode, _, named⟩ := mem_disassemble.mp found
  have table : ∀ pair ∈ opcodes, pair.2 ∈ storageOpcodes ∨ pair.2 ∈ forbiddenOpcodes ∨
      pair.2 ∈ externalDependencyOpcodes := by decide
  obtain ⟨before, after, split, _⟩ := List.lookup_eq_some_iff.mp named
  have listed : (opcode, entry.opcode) ∈ opcodes := by simp [split]
  exact table _ listed

/-- The three groups are empty exactly if the disassembly found nothing. -/
theorem groups_empty :
    ((disassemble bytes bytes.length).2.filter
        fun entry => storageOpcodes.contains entry.opcode).length = 0 ∧
      ((disassemble bytes bytes.length).2.filter
        fun entry => forbiddenOpcodes.contains entry.opcode).length = 0 ∧
      ((disassemble bytes bytes.length).2.filter
        fun entry => externalDependencyOpcodes.contains entry.opcode).length = 0 ↔
      (disassemble bytes bytes.length).2 = [] := by
  simp only [List.length_eq_zero_iff, List.filter_eq_nil_iff, List.contains_iff_mem]
  constructor
  · rintro ⟨storage, forbidden, external⟩
    refine List.eq_nil_iff_forall_not_mem.mpr fun entry found => ?_
    rcases grouped found with listed | listed | listed
    · exact storage entry found listed
    · exact forbidden entry found listed
    · exact external entry found listed
  · intro empty
    rw [empty]
    simp

/-- A fingerprint does not stop the analysis exactly if the runtime is decoded and differs. -/
theorem not_blocked_iff {template : RuntimeTemplate} :
    (∃ blocked, matchesRuntimeTemplate runtime template = .ok blocked ∧ ¬blocked = true) ↔
      matchesRuntimeTemplate runtime template = .ok false := by
  constructor
  · rintro ⟨blocked, matched, differs⟩
    rw [matched, Bool.eq_false_of_not_eq_true differs]
  · intro differs
    exact ⟨false, differs, by decide⟩

/-- A runtime is accepted exactly if it is none of the blocked ones and no instruction of it has
an opcode of the table. -/
theorem analyzeVerifierRuntime_eq_ok {blocked : List BlockedFingerprint}
    {analysis : RuntimeAnalysis} :
    analyzeVerifierRuntime runtime blocked = .ok analysis ↔
      ∃ bytes, runtimeBytes runtime = .ok bytes ∧
        (∀ fingerprint ∈ blocked,
          matchesRuntimeTemplate runtime fingerprint.runtimeBytecodeTemplate = .ok false) ∧
        (disassemble bytes bytes.length).2 = [] ∧
        analysis = ⟨bytes.length, ['0', 'x'] ++ lowerHex (keccak256 bytes).bytes, [], [], []⟩ := by
  simp only [analyzeVerifierRuntime, disassembleRelevantOpcodes, runtimeKeccak256]
  simp only [↓then_eq_ok, forM_eq_ok, bind_eq_ok, pure_eq_ok, rejectIf_eq_ok]
  simp only [not_blocked_iff, ne_eq, not_not]
  constructor
  · rintro ⟨differs, relevant, ⟨bytes, decoded, rfl⟩, storage, forbidden, external, again, same,
      digest, ⟨hashed, third, rfl⟩, rfl⟩
    rw [decoded, Except.ok.injEq] at same third
    subst same third
    exact ⟨bytes, decoded, differs, groups_empty.mp ⟨storage, forbidden, external⟩, rfl⟩
  · rintro ⟨bytes, decoded, differs, empty, rfl⟩
    obtain ⟨storage, forbidden, external⟩ := groups_empty.mpr empty
    exact ⟨differs, _, ⟨bytes, decoded, rfl⟩, storage, forbidden, external, bytes, decoded, _,
      ⟨bytes, decoded, rfl⟩, rfl⟩

end Laws

end Usdd.Contracts

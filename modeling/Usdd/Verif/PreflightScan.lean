import Usdd.Contracts.VerifierPreflight
/-!
# What an accepted verifier runtime can execute

The preflight disassembles a runtime in one pass from its first byte. The machine jumps, so the
bytes it executes are another set. It lands only on a `JUMPDEST` that is not data of a push, and
this keeps it at the bytes where an instruction of the pass starts.
-/
namespace Usdd.Verif

open Usdd.Foundation Usdd.Contracts

/-- The number of bytes `PUSH1` to `PUSH32` take from the code. -/
def pushWidth (opcode : UInt8) : Nat :=
  if 0x60 ≤ opcode.toNat ∧ opcode.toNat ≤ 0x7f then opcode.toNat - 0x5f else 0

/-- An instruction of the machine is its opcode and what it pushes. -/
def instructionSize (opcode : UInt8) : Nat := 1 + pushWidth opcode

/-- The byte `JUMPDEST`. -/
def IsJumpdest (opcode : UInt8) : Prop := opcode = 0x5b

/-- A byte in the data of a push. -/
def InPushData (code : List UInt8) (programCounter : Nat) : Prop :=
  InData instructionSize code programCounter

/-- Some execution of a code gets from its first byte to an opcode. The machine goes to the next
instruction or jumps, whatever it computes. -/
def Executes (code : List UInt8) (programCounter : Nat) (opcode : UInt8) : Prop :=
  Relation.ReflTransGen (Moves instructionSize IsJumpdest code) 0 programCounter ∧
    code[programCounter]? = some opcode

/-- The opcodes that reach storage, other accounts or new code. -/
inductive WatchedOpcode where
  | sload | sstore | tload | tstore
  | create | create2 | call | callcode | delegatecall | staticcall | selfdestruct
  | balance | extcodesize | extcodecopy | extcodehash

/-- The byte of an opcode. -/
def WatchedOpcode.byte : WatchedOpcode → UInt8
  | .sload => 0x54
  | .sstore => 0x55
  | .tload => 0x5c
  | .tstore => 0x5d
  | .create => 0xf0
  | .create2 => 0xf5
  | .call => 0xf1
  | .callcode => 0xf2
  | .delegatecall => 0xf4
  | .staticcall => 0xfa
  | .selfdestruct => 0xff
  | .balance => 0x31
  | .extcodesize => 0x3b
  | .extcodecopy => 0x3c
  | .extcodehash => 0x3f

/-- What the preflight guarantees of a runtime. -/
structure PreflightSound (runtime : Runtime) : Prop where
  /-- No execution of an accepted runtime gets to a watched opcode. -/
  safe : ∀ blocked analysis, analyzeVerifierRuntime runtime blocked = .ok analysis →
    ∃ code, runtimeBytes runtime = .ok code ∧
      ∀ programCounter opcode, Executes code programCounter opcode →
        ∀ watched : WatchedOpcode, opcode ≠ watched.byte
  /-- What the disassembly reports is not data. -/
  reports : ∀ code found, runtimeBytes runtime = .ok code →
    disassembleRelevantOpcodes runtime = .ok found →
    ∀ entry ∈ found, ¬InPushData code entry.programCounter
  /-- The disassembly has left the code within as many rounds as there are bytes, and more rounds
  find nothing more. -/
  ends : ∀ code, runtimeBytes runtime = .ok code →
    code.length ≤ (disassemble code code.length).1 ∧
      ∀ extra, disassemble code (code.length + extra) = disassemble code code.length

/-- The disassembly moves by the instructions of the machine. -/
theorem stride_eq : stride = instructionSize := by
  funext opcode
  unfold stride instructionSize pushWidth
  have same : opcode ≥ 0x60 ∧ opcode ≤ 0x7f ↔ 0x60 ≤ opcode.toNat ∧ opcode.toNat ≤ 0x7f :=
    and_congr UInt8.le_iff_toNat_le UInt8.le_iff_toNat_le
  by_cases push : 0x60 ≤ opcode.toNat ∧ opcode.toNat ≤ 0x7f
  · rw [if_pos (same.mpr push), if_pos push]
    omega
  · rw [if_neg fun range => push (same.mp range), if_neg push]

theorem instructionSize_pos (opcode : UInt8) : 0 < instructionSize opcode := by
  rw [← stride_eq]
  exact stride_pos opcode

/-- Every watched opcode is in the table of the preflight. -/
theorem watched_listed (watched : WatchedOpcode) :
    ∃ name, opcodes.lookup watched.byte = some name := by
  rw [← Option.isSome_iff_exists]
  cases watched <;> decide

/-- Whatever opcode of the table can be executed, the disassembly finds. -/
theorem found_of_executes {code : List UInt8} {programCounter : Nat} {opcode : UInt8}
    {name : String} (run : Executes code programCounter opcode)
    (named : opcodes.lookup opcode = some name) :
    ⟨programCounter, name⟩ ∈ (disassemble code code.length).2 := by
  obtain ⟨moves, found⟩ := run
  have boundary := boundary_of_moves instructionSize_pos moves
  rw [← stride_eq] at boundary
  exact mem_disassemble.mpr ⟨boundary, opcode, found, named⟩

/-- No execution of an accepted runtime gets to an opcode that reaches storage, other accounts or
new code, and the disassembly ends and reports no data, for every runtime. -/
theorem preflight_sound (runtime : Runtime) : PreflightSound runtime := by
  constructor
  · intro blocked analysis accepted
    obtain ⟨code, decoded, _, empty, _⟩ := analyzeVerifierRuntime_eq_ok.mp accepted
    refine ⟨code, decoded, ?_⟩
    rintro programCounter opcode run watched rfl
    obtain ⟨name, named⟩ := watched_listed watched
    have found := found_of_executes run named
    rw [empty] at found
    cases found
  · intro code found decoded disassembled entry listed
    simp only [disassembleRelevantOpcodes, bind_eq_ok, pure_eq_ok] at disassembled
    obtain ⟨bytes, again, rfl⟩ := disassembled
    rw [decoded, Except.ok.injEq] at again
    subst again
    have boundary := (mem_disassemble.mp listed).1
    rw [stride_eq] at boundary
    exact boundary.not_inData instructionSize_pos
  · intro code _
    exact ⟨length_le_disassemble code, disassemble_add code⟩

/-- A push of 32 bytes with one left: the disassembly ends behind the code and reports nothing. -/
example : disassemble [0x5b, 0x7f, 0x54] 3 = (34, []) := by decide

end Usdd.Verif

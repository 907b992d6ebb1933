import Usdd.BitcoinBmm.Blocks
/-!
# Pushes behind OP_RETURN and the strict M7 reader

A message of the drivechain stands in an output script that is one push behind OP_RETURN. The
strict reader goes over all coinbase scripts, counts the M7 commitments of slot 24, and returns
the only one when it has the minimal encoding.
-/
namespace Usdd.BitcoinBmm

open Usdd.Foundation Usdd.Core

/-- `lib::ELEMENTS_DRIVECHAIN_SLOT`. -/
def elementsDrivechainSlot : UInt8 := 24

/-- `lib::OP_RETURN`. -/
def opReturn : UInt8 := 0x6a

/-- `lib::M7_TAG`. -/
def m7Tag : List UInt8 := [0xd1, 0x61, 0x73, 0x68]

/-- `lib::M7_PAYLOAD_LEN`. -/
def m7PayloadLen : Nat := 4 + 1 + 32

/-- `lib::M7_CANONICAL_SCRIPT_LEN`. -/
def m7CanonicalScriptLen : Nat := 1 + 1 + m7PayloadLen

/-- Where the payload of a push begins and how long it is, by the opcode behind OP_RETURN. -/
def pushBounds (opcode : UInt8) (rest : List UInt8) : Option (Nat × Nat) :=
  if opcode ≤ 75 then some (2, opcode.toNat)
  else if opcode = 0x4c then
    match rest with
    | length :: _ => some (3, length.toNat)
    | _ => none
  else if opcode = 0x4d then
    match rest with
    | low :: high :: _ => some (4, leNat [low, high])
    | _ => none
  else if opcode = 0x4e then
    match rest with
    | first :: second :: third :: fourth :: _ => some (6, leNat [first, second, third, fourth])
    | _ => none
  else none

/-- `lib::extract_single_op_return_push`. -/
def extractSingleOpReturnPush (script : List UInt8) : Option (List UInt8) :=
  match script with
  | first :: opcode :: rest =>
    if first ≠ opReturn then none
    else
      match pushBounds opcode rest with
      | some (payloadStart, payloadLen) =>
        if payloadStart + payloadLen ≠ script.length then none
        else some ((script.drop payloadStart).take payloadLen)
      | none => none
  | _ => none

/-- A payload that is the M7 commitment of slot 24. -/
def isSlot24M7 (payload : List UInt8) : Bool :=
  payload.length == m7PayloadLen && payload.take 4 == m7Tag &&
    payload[4]? == some elementsDrivechainSlot

/-- The minimal encoding of an M7 commitment. -/
def isCanonicalM7Script (script : List UInt8) : Bool :=
  script.length == m7CanonicalScriptLen && script[0]? == some opReturn &&
    script[1]?.map UInt8.toNat == some m7PayloadLen

/-- The hash behind the tag and the slot, copied into an array. -/
def copyHash (payload : List UInt8) : BlockHash :=
  if width : ((payload.drop 5).take 32).length = 32 then ⟨(payload.drop 5).take 32, width⟩
  else .zero 32

/-- `lib::M7Error`. -/
inductive M7Error where
  | missing
  | duplicate
  | nonCanonical
  | tooManyOutputs
  | aggregateScriptBytesExceeded
  | outputIndexOverflow
  | wrongChildHash
deriving DecidableEq

/-- `lib::UnboundCanonicalM7`. -/
structure UnboundCanonicalM7 where
  outputIndex : UInt32
  committedChildHash : BlockHash
deriving DecidableEq

/-- What the loop of the strict reader has found so far. -/
structure M7Scan where
  found : Nat
  noncanonical : Nat
  matchedIndex : UInt32
  childHash : BlockHash
  aggregateScriptBytes : Nat

/-- `u32::try_from` of an index. -/
def indexU32 (index : Nat) : Option UInt32 :=
  if index < 2 ^ 32 then some (UInt32.ofNat index) else none

/-- One script of the strict reader's loop. -/
def scanM7Script (scan : M7Scan) (index : Nat) (script : List UInt8) :
    Except M7Error M7Scan := do
  let aggregateScriptBytes := scan.aggregateScriptBytes + script.length
  rejectIf (aggregateScriptBytes > maxCoinbaseOutputScriptBytes) .aggregateScriptBytesExceeded
  match extractSingleOpReturnPush script with
  | some payload =>
    if isSlot24M7 payload then
      let matchedIndex ← okOr (indexU32 index) .outputIndexOverflow
      return {
        found := scan.found + 1
        noncanonical := scan.noncanonical + (if isCanonicalM7Script script then 0 else 1)
        matchedIndex
        childHash := copyHash payload
        aggregateScriptBytes }
    else return { scan with aggregateScriptBytes }
  | none => return { scan with aggregateScriptBytes }

/-- The loop of the strict reader, from an index on. -/
def scanM7Scripts : Nat → M7Scan → List (List UInt8) → Except M7Error M7Scan
  | _, scan, [] => .ok scan
  | index, scan, script :: scripts => do
    let next ← scanM7Script scan index script
    scanM7Scripts (index + 1) next scripts

/-- `lib::extract_elements_slot24_m7`. -/
def extractElementsSlot24M7 (coinbaseOutputScripts : List (List UInt8)) :
    Except M7Error UnboundCanonicalM7 := do
  rejectIf (coinbaseOutputScripts.length > maxCoinbaseOutputs) .tooManyOutputs
  let scan ← scanM7Scripts 0 ⟨0, 0, 0, .zero 32, 0⟩ coinbaseOutputScripts
  rejectIf (scan.noncanonical ≠ 0) .nonCanonical
  match scan.found with
  | 0 => .error .missing
  | 1 => .ok ⟨scan.matchedIndex, scan.childHash⟩
  | _ => .error .duplicate

end Usdd.BitcoinBmm

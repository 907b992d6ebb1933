import Usdd.BitcoinBmm.Blocks
/-!
# The Signet challenge of the parent chain

A Signet block carries its authorization in the output script of its witness commitment: a push
that starts with a fixed header holds the solution of the challenge. The solution is cut out of
the script, the coinbase and the Merkle root are computed again without it, and a signature over
a virtual transaction that commits to that root is verified. The hash of the public key and the
curve are supplied from outside.
-/
namespace Usdd.BitcoinBmm

open Usdd.Foundation Usdd.Core

/-- `signet::SIGNET_HEADER`. -/
def signetHeader : List UInt8 := [0xec, 0xc7, 0xda, 0xa2]

/-- `signet::LAYER_TWO_SIGNET_P2WPKH`. -/
def layerTwoSignetP2wpkh : FixedBytes 20 := .ofNat 20 0x8835832e28c816b7acd8fdb19772ab2199603a56

/-- `signet::LAYER_TWO_SIGNET_GENESIS_INTERNAL`. -/
def layerTwoSignetGenesis : BlockHash :=
  .ofNat 32 0xf61eee3b63a380a477a063af32b2bbc97c9ff9f01f2c4225e973988108000000

/-- `signet::LayerTwoSignetError`. -/
inductive LayerTwoSignetError where
  | block (error : BlockStructureError)
  | header (error : HeaderError)
  | missingWitnessCommitment
  | malformedCommitmentScript
  | missingSolution
  | nonCanonicalSolution
  | nonEmptyScriptSig
  | wrongWitnessStack
  | wrongPublicKeyHash
  | invalidPublicKey
  | invalidDerSignature
  | invalidSignature
  | lengthOverflow
deriving DecidableEq

section Scripts

/-- The next bytes of a script. -/
def takeScript (length : Nat) : Reader LayerTwoSignetError (List UInt8) := fun script =>
  if length ≤ script.length then .ok (script.take length, script.drop length)
  else .error .malformedCommitmentScript

/-- The opcode at the position of `signet::read_script_op`. -/
def scriptByte : Reader LayerTwoSignetError UInt8
  | [] => .error .malformedCommitmentScript
  | opcode :: rest => .ok (opcode, rest)

/-- The length of the data an opcode pushes; an opcode that pushes none has no length. -/
def pushLength (opcode : UInt8) : Reader LayerTwoSignetError (Option Nat) :=
  if 0x01 ≤ opcode ∧ opcode ≤ 0x4b then return some opcode.toNat
  else if opcode = 0x4c then do
    let length ← takeScript 1
    return some (leNat length)
  else if opcode = 0x4d then do
    let length ← takeScript 2
    return some (leNat length)
  else if opcode = 0x4e then do
    let length ← takeScript 4
    return some (leNat length)
  else return none

/-- `signet::read_script_op`. Positions fit a machine word, so the ends do not overflow. -/
def readScriptOp : Reader LayerTwoSignetError (UInt8 × Option (List UInt8)) := do
  let opcode ← scriptByte
  match ← pushLength opcode with
  | none => return (opcode, none)
  | some length =>
    let data ← takeScript length
    return (opcode, some data)

/-- The bytes that `signet::append_script_push` appends. -/
def appendScriptPush (data : List UInt8) : Except LayerTwoSignetError (List UInt8) :=
  if data.length < 0x4c then .ok (UInt8.ofNat data.length :: data)
  else if data.length ≤ 0xff then .ok (0x4c :: UInt8.ofNat data.length :: data)
  else if data.length ≤ 0xffff then .ok (0x4d :: (leBytes 2 data.length ++ data))
  else if data.length ≤ 0xffffffff then .ok (0x4e :: (leBytes 4 data.length ++ data))
  else .error .lengthOverflow

/-- The variables of the loop of `signet::extract_solution_and_modified_script`. -/
structure CommitmentSection where
  solution : Option (List UInt8)
  replacement : List UInt8
deriving DecidableEq

/-- One operation of the loop: the first push of the header and more is the solution. -/
def clearScriptOp (progress : CommitmentSection) (opcode : UInt8) (pushdata : Option (List UInt8)) :
    Except LayerTwoSignetError CommitmentSection :=
  match pushdata with
  | none => .ok { progress with replacement := progress.replacement ++ [opcode] }
  | some data =>
    if data = [] then .ok { progress with replacement := progress.replacement ++ [opcode] }
    else if progress.solution = none ∧ data.length > signetHeader.length ∧
        data.take signetHeader.length = signetHeader then do
      let pushed ← appendScriptPush signetHeader
      return {
        solution := some (data.drop signetHeader.length)
        replacement := progress.replacement ++ pushed }
    else do
      let pushed ← appendScriptPush data
      return { progress with replacement := progress.replacement ++ pushed }

/-- The loop, which stops at a malformed operation; every operation takes a byte, so there are
no more of them than bytes. -/
def clearScript : Nat → CommitmentSection → List UInt8 →
    Except LayerTwoSignetError CommitmentSection
  | 0, progress, _ => .ok progress
  | remaining + 1, progress, script =>
    if script = [] then .ok progress
    else
      match readScriptOp script with
      | .error _ => .ok progress
      | .ok ((opcode, pushdata), rest) => do
        let next ← clearScriptOp progress opcode pushdata
        clearScript remaining next rest

/-- `signet::extract_solution_and_modified_script`. -/
def extractSolutionAndModifiedScript (witnessCommitment : List UInt8) :
    Except LayerTwoSignetError (List UInt8 × List UInt8) := do
  let found ← clearScript witnessCommitment.length ⟨none, []⟩ witnessCommitment
  let solution ← okOr found.solution .missingSolution
  return (solution, found.replacement)

end Scripts

section Solutions

/-- A counted byte string of a solution. -/
def solutionItem : Cursor (List UInt8) := do
  let size ← Cursor.compactSize
  Cursor.take size

/-- The script and the witness items of a solution. -/
def solutionFields : Cursor (List UInt8 × List (List UInt8)) := do
  let scriptSig ← solutionItem
  let itemCount ← Cursor.compactSize
  let remaining ← Cursor.remaining
  -- The converted error says nothing of where the solution failed.
  Reader.check (rejectIf (itemCount > remaining) .lengthOverflow)
  let witness ← Reader.times itemCount solutionItem
  return (scriptSig, witness)

/-- `signet::parse_solution`. -/
def parseSolution (solution : List UInt8) :
    Except LayerTwoSignetError (List UInt8 × List (List UInt8)) := do
  let (fields, rest) ← (solutionFields solution).mapError fun _ => .nonCanonicalSolution
  rejectIf (rest.length ≠ 0) .nonCanonicalSolution
  return fields

/-- The tests of an integer of `length` bytes at a position of a signature, which the source
writes out for each of the two: it is negative, or its first byte is superfluous. A read past
the end is `none`. -/
def misencodedInteger (bytes : List UInt8) (start length : Nat) : Option Bool := do
  let first ← bytes[start]?
  if first &&& 0x80 ≠ 0 then return true
  else if length > 1 ∧ first = 0 then
    let second ← bytes[start + 1]?
    return second &&& 0x80 = 0
  else return false

/-- `signet::strict_der_encoding`. A read past the end, which aborts the program, is `none`. -/
def strictDerEncoding (bytes : List UInt8) : Option Bool :=
  if ¬(9 ≤ bytes.length ∧ bytes.length ≤ 73) then return false
  else do
    if (← bytes[0]?) ≠ 0x30 then return false
    else if (← bytes[1]?).toNat ≠ bytes.length - 3 then return false
    else if (← bytes[2]?) ≠ 0x02 then return false
    else
      let lenR := (← bytes[3]?).toNat
      if lenR = 0 ∨ 5 + lenR ≥ bytes.length then return false
      else if (← bytes[4 + lenR]?) ≠ 0x02 then return false
      else
        let lenS := (← bytes[4 + lenR + 1]?).toNat
        if lenR + lenS + 7 ≠ bytes.length ∨ lenS = 0 then return false
        else if ← misencodedInteger bytes 4 lenR then return false
        else if ← misencodedInteger bytes (4 + lenR + 2) lenS then return false
        else return true

end Solutions

/-- The public key hash and the signatures of the crates outside. -/
structure SignetCrypto where
  Signature : Type
  VerifyingKey : Type
  /-- `hash160::Hash::hash`. -/
  hash160 : List UInt8 → FixedBytes 20
  /-- `K256Signature::from_der`. -/
  fromDer : List UInt8 → Option Signature
  /-- `Signature::normalize_s`. -/
  normalizeS : Signature → Option Signature
  /-- `VerifyingKey::from_sec1_bytes`. -/
  fromSec1Bytes : List UInt8 → Option VerifyingKey
  /-- `VerifyingKey::verify_prehash`. -/
  verifyPrehash : VerifyingKey → Hash32 → Signature → Bool

/-- `block::witness_commitment_index`. -/
def witnessCommitmentIndex (outputs : List ParsedOutput) : Option Nat :=
  ((outputs.zipIdx.filter fun output =>
    38 ≤ output.1.script.length ∧ output.1.script.take 6 = witnessCommitmentMarker).map
      Prod.snd).getLast?

/-- The bytes of an output whose script is replaced where its index is given. -/
def replacedOutput (replacementIndex : Nat) (replacementScript : List UInt8)
    (output : ParsedOutput × Nat) : List UInt8 :=
  let script := if output.2 = replacementIndex then replacementScript else output.1.script
  [output.1.value.bytes, encodeCompactSize script.length, script].flatten

/-- `ParsedCoinbase::serialized_without_witness_with_replaced_script`. -/
def ParsedCoinbase.serializedWithoutWitnessWithReplacedScript (coinbase : ParsedCoinbase)
    (replacementIndex : Nat) (replacementScript : List UInt8) :
    Except BlockStructureError (List UInt8) := do
  rejectIf (replacementIndex ≥ coinbase.outputs.length) .lengthOverflow
  return [coinbase.version.bytes, coinbase.inputsAndOutputCount,
    (coinbase.outputs.zipIdx.map (replacedOutput replacementIndex replacementScript)).flatten,
    coinbase.lockTime.bytes].flatten

section Sighashes

variable [Hashing]

/-- The block data of `signet::virtual_spent_txid`. -/
def signetBlockData (header : BitcoinHeader) (modifiedMerkleRoot : BlockHash) : List UInt8 :=
  [leBytes 4 header.version.toUInt32.toNat, header.previousBlock.bytes, modifiedMerkleRoot.bytes,
    leBytes 4 header.time.toNat].flatten

/-- `signet::virtual_spent_txid`. -/
def virtualSpentTxid (header : BitcoinHeader) (modifiedMerkleRoot : BlockHash) : BlockHash :=
  doubleSha256 [leBytes 4 0, [1], List.replicate 32 0, leBytes 4 0xffffffff, [74], [0x00, 0x48],
    signetBlockData header modifiedMerkleRoot, leBytes 4 0, [1], leBytes 8 0, [22], [0x00, 0x14],
    layerTwoSignetP2wpkh.bytes, leBytes 4 0].flatten

/-- `signet::signet_bip143_sighash`. -/
def signetBip143Sighash (spentTxid : BlockHash) (hashType : UInt32) : Hash32 :=
  let baseType := hashType &&& 0x1f
  let anyoneCanPay := hashType &&& 0x80 ≠ 0
  let outpoint := spentTxid.bytes ++ List.replicate 4 0
  let hashPrevouts := if anyoneCanPay then .zero else doubleSha256 outpoint
  let sequence := leBytes 4 0
  let hashSequence :=
    if anyoneCanPay ∨ baseType = 2 ∨ baseType = 3 then .zero else doubleSha256 sequence
  let output := List.replicate 8 0 ++ [1, 0x6a]
  let hashOutputs := if baseType = 2 then .zero else doubleSha256 output
  doubleSha256 [leBytes 4 0, hashPrevouts.bytes, hashSequence.bytes, outpoint, [25],
    [0x76, 0xa9, 0x14], layerTwoSignetP2wpkh.bytes, [0x88, 0xac], leBytes 8 0, sequence,
    hashOutputs.bytes, leBytes 4 0, leBytes 4 hashType.toNat].flatten

/-- The virtual transaction of a block whose commitment script is replaced. -/
def signetSpentTxid (parsed : ParsedBlock) (commitmentIndex : Nat)
    (modifiedCommitment : List UInt8) : Except LayerTwoSignetError BlockHash := do
  let modifiedCoinbase ← (parsed.coinbase.serializedWithoutWitnessWithReplacedScript
    commitmentIndex modifiedCommitment).mapError .block
  let modifiedTxids := parsed.txids.set 0 (doubleSha256 modifiedCoinbase)
  let modifiedMerkleRoot := (merkleRootAndMutation modifiedTxids).1
  return virtualSpentTxid parsed.metadata.header modifiedMerkleRoot

/-- The witness commitment of a block with its solution cut out: the index of the output, the
solution and the script that remains. -/
def signetCommitment (parsed : ParsedBlock) :
    Except LayerTwoSignetError (Nat × List UInt8 × List UInt8) := do
  let commitmentIndex ← okOr (witnessCommitmentIndex parsed.coinbase.outputs)
    .missingWitnessCommitment
  let script := (parsed.coinbase.outputs[commitmentIndex]?.map (·.script)).getD []
  let (solution, modifiedCommitment) ← extractSolutionAndModifiedScript script
  return (commitmentIndex, solution, modifiedCommitment)

/-- `signet::verify_parsed_layer_two_signet`. -/
def verifyParsedLayerTwoSignet (crypto : SignetCrypto) (parsed : ParsedBlock) :
    Except LayerTwoSignetError Unit :=
  if parsed.metadata.blockHash = layerTwoSignetGenesis then .ok ()
  else do
    let (commitmentIndex, solution, modifiedCommitment) ← signetCommitment parsed
    let (scriptSig, witness) ← parseSolution solution
    rejectIf (scriptSig ≠ []) .nonEmptyScriptSig
    rejectIf (witness.length ≠ 2 ∨ witness.headD [] = []) .wrongWitnessStack
    let signatureWithHashType := witness.headD []
    let publicKey := witness.getD 1 []
    rejectIf (crypto.hash160 publicKey ≠ layerTwoSignetP2wpkh) .wrongPublicKeyHash
    rejectIf (strictDerEncoding signatureWithHashType ≠ some true) .invalidDerSignature
    let spentTxid ← signetSpentTxid parsed commitmentIndex modifiedCommitment
    let hashType ← okOr signatureWithHashType.getLast? .invalidDerSignature
    let sighash := signetBip143Sighash spentTxid hashType.toUInt32
    let signature ← okOr (crypto.fromDer signatureWithHashType.dropLast) .invalidDerSignature
    let normalized := (crypto.normalizeS signature).getD signature
    let key ← okOr (crypto.fromSec1Bytes publicKey) .invalidPublicKey
    rejectIf (crypto.verifyPrehash key sighash normalized = false) .invalidSignature

/-- `signet::verify_layer_two_signet_block_solution`. -/
def verifyLayerTwoSignetBlockSolution (crypto : SignetCrypto) (serializedBlock : List UInt8) :
    Except LayerTwoSignetError MerkleVerifiedBitcoinBlock := do
  let parsed ← (parseAndVerifyBlock serializedBlock).mapError .block
  verifyParsedLayerTwoSignet crypto parsed
  return parsed.metadata

end Sighashes

end Usdd.BitcoinBmm

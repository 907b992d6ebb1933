import Usdd.BitcoinBmm.Headers
import Usdd.Foundation.Readers
/-!
# Parsing and verifying a serialized block

A cursor over the remaining bytes reads canonical counts, transactions in their legacy or
witness form, and the list of them; a position of the source is the bytes that remain there, and
a slice between two positions is what was read in between. The block is accepted when the
transactions use all its bytes, the weight is within the limit, and the txids and the witness
commitment agree with the header and the coinbase.
-/
namespace Usdd.BitcoinBmm

open Usdd.Foundation Usdd.Core

/-- `block::BlockStructureError`. -/
inductive BlockStructureError where
  | blockTooShort
  | serializedBlockTooLarge
  | unexpectedEnd
  | nonCanonicalCompactSize
  | lengthOverflow
  | trailingBytes
  | emptyBlock
  | tooManyTransactions
  | emptyInputs
  | tooManyInputs
  | emptyOutputs
  | tooManyOutputs
  | invalidWitnessFlags
  | superfluousWitness
  | firstTransactionNotCoinbase
  | multipleCoinbaseTransactions
  | invalidCoinbaseScriptSize
  | nullPreviousOutput
  | duplicateInput
  | outputValueOutOfRange
  | outputTotalOutOfRange
  | blockWeightExceeded
  | merkleRootMismatch
  | mutatedMerkleTree
  | missingWitnessCommitment
  | invalidCoinbaseWitness
  | witnessCommitmentMismatch
deriving DecidableEq

section Limits

/-- `lib::BITCOIN_MAX_BLOCK_WEIGHT` and `block::BITCOIN_MAX_SERIALIZED_BLOCK_BYTES`. -/
def maxBlockWeight : Nat := 4000000

/-- `lib::BITCOIN_MAX_BLOCK_BASE_BYTES`. -/
def maxBlockBaseBytes : Nat := maxBlockWeight / 4

/-- `lib::BITCOIN_MIN_SERIALIZED_TXOUT_BASE_BYTES`. -/
def minOutputBytes : Nat := 9

/-- `block::BITCOIN_MIN_SERIALIZED_TXIN_BASE_BYTES`. -/
def minInputBytes : Nat := 41

/-- `block::BITCOIN_MIN_TRANSACTION_BASE_BYTES`. -/
def minTransactionBytes : Nat := 60

/-- `lib::BITCOIN_MAX_COINBASE_OUTPUTS`. -/
def maxCoinbaseOutputs : Nat := maxBlockBaseBytes / minOutputBytes

/-- `lib::BITCOIN_MAX_COINBASE_OUTPUT_SCRIPT_BYTES`. -/
def maxCoinbaseOutputScriptBytes : Nat := maxBlockBaseBytes

/-- `block::BITCOIN_MAX_TRANSACTIONS`. -/
def maxTransactions : Nat := maxBlockBaseBytes / minTransactionBytes

/-- `block::BITCOIN_MAX_INPUTS_PER_TRANSACTION`. -/
def maxInputs : Nat := maxBlockBaseBytes / minInputBytes

/-- `block::MAX_MONEY_SATOSHIS`. -/
def maxMoneySatoshis : Nat := 21000000 * 100000000

end Limits

/-- `block::Cursor`: a reader of the bytes from the position on. -/
abbrev Cursor (α : Type) := Reader BlockStructureError α

namespace Cursor

/-- The position, as the bytes that remain there. -/
def position : Cursor (List UInt8) := get

/-- `Cursor::remaining`. -/
def remaining : Cursor Nat := do return (← position).length

/-- `Cursor::take`. No length above the block size is taken, so the end does not overflow. -/
def take (length : Nat) : Cursor (List UInt8) := fun bytes =>
  if length ≤ bytes.length then .ok (bytes.take length, bytes.drop length)
  else .error .unexpectedEnd

/-- `Cursor::take` into an array. -/
def fixed (width : Nat) : Cursor (FixedBytes width) := fun bytes =>
  if enough : width ≤ bytes.length then
    .ok (⟨bytes.take width, List.length_take_of_le enough⟩, bytes.drop width)
  else .error .unexpectedEnd

/-- `Cursor::byte`. -/
def byte : Cursor UInt8
  | [] => .error .unexpectedEnd
  | first :: rest => .ok (first, rest)

/-- `Cursor::peek`. -/
def peek : Cursor UInt8
  | [] => .error .unexpectedEnd
  | first :: rest => .ok (first, first :: rest)

/-- A wide count, refused where a shorter form exists. -/
def wideSize (width least : Nat) : Cursor Nat := do
  let field ← take width
  let value := leNat field
  Reader.check (rejectIf (value < least) .nonCanonicalCompactSize)
  return value

/-- `Cursor::compact_size`. -/
def compactSize : Cursor Nat := do
  let first ← byte
  if first ≤ 0xfc then return first.toNat
  else if first = 0xfd then wideSize 2 0xfd
  else if first = 0xfe then wideSize 4 0x10000
  else wideSize 8 0x100000000

/-- The bytes between two positions of one cursor. -/
def between (start stop : List UInt8) : List UInt8 := start.take (start.length - stop.length)

end Cursor

/-- `block::encode_compact_size`. -/
def encodeCompactSize (value : Nat) : List UInt8 :=
  if value < 0xfd then [UInt8.ofNat value]
  else if value ≤ 0xffff then 0xfd :: leBytes 2 value
  else if value ≤ 0xffffffff then 0xfe :: leBytes 4 value
  else 0xff :: leBytes 8 value

/-- One input as it stands in a transaction. -/
structure ParsedInput where
  outpoint : FixedBytes 36
  script : List UInt8
  sequence : FixedBytes 4
deriving DecidableEq

/-- `block::ParsedOutput`. -/
structure ParsedOutput where
  value : FixedBytes 8
  script : List UInt8
deriving DecidableEq

/-- `block::ParsedCoinbase`. -/
structure ParsedCoinbase where
  version : FixedBytes 4
  inputsAndOutputCount : List UInt8
  outputs : List ParsedOutput
  witness : List (List UInt8)
  lockTime : FixedBytes 4
deriving DecidableEq

/-- `block::ParsedTransaction`. -/
structure ParsedTransaction where
  txid : BlockHash
  wtxid : BlockHash
  strippedSize : Nat
  hasWitness : Bool
  isCoinbase : Bool
  coinbase : Option ParsedCoinbase
  inputs : List (FixedBytes 36)
  outputs : List ParsedOutput
deriving DecidableEq

section Transactions

/-- The outpoint of a coinbase input. -/
def nullOutpoint : FixedBytes 36 := ⟨List.replicate 32 0 ++ List.replicate 4 0xff, rfl⟩

/-- The witness marker and flags, where the transaction has them. -/
def parseWitnessMarker : Cursor Bool := do
  let marker ← Cursor.peek
  if marker = 0 then
    let _ ← Cursor.byte
    let flags ← Cursor.byte
    Reader.check (rejectIf (flags ≠ 1) .invalidWitnessFlags)
    return true
  else return false

/-- A script, no longer than all base bytes of a block. -/
def parseScript : Cursor (List UInt8) := do
  let scriptSize ← Cursor.compactSize
  Reader.check (rejectIf (scriptSize > maxCoinbaseOutputScriptBytes) .lengthOverflow)
  Cursor.take scriptSize

/-- One input. -/
def parseInput : Cursor ParsedInput := do
  let outpoint ← Cursor.fixed 36
  let script ← parseScript
  let sequence ← Cursor.fixed 4
  return { outpoint, script, sequence }

/-- A count of parts that each take a least number of the remaining bytes. -/
def parseCount (empty tooMany : BlockStructureError) (most least : Nat) : Cursor Nat := do
  let count ← Cursor.compactSize
  Reader.check (rejectIf (count = 0) empty)
  let remaining ← Cursor.remaining
  Reader.check (rejectIf (count > most ∨ count > remaining / least) tooMany)
  return count

/-- The outpoints in ascending order. -/
def sortOutpoints (outpoints : List (FixedBytes 36)) : List (FixedBytes 36) :=
  outpoints.mergeSort fun left right => !decide (right < left)

/-- Two neighbours of a list are equal. -/
def hasEqualNeighbours : List (FixedBytes 36) → Bool
  | first :: second :: rest => first == second || hasEqualNeighbours (second :: rest)
  | _ => false

/-- The only input spends no output. -/
def isCoinbaseInputs (inputs : List ParsedInput) : Bool :=
  inputs.length == 1 && inputs.countP (·.outpoint = nullOutpoint) == 1

/-- The checks of the inputs, made once they are all read. -/
def checkInputs (inputs : List ParsedInput) : Except BlockStructureError Unit := do
  let nullPreviousOutputs := inputs.countP (·.outpoint = nullOutpoint)
  let isCoinbase := isCoinbaseInputs inputs
  let soleInputScriptSize : Nat := (inputs.head?.map (·.script.length)).getD 0
  rejectIf (¬isCoinbase ∧ nullPreviousOutputs ≠ 0) .nullPreviousOutput
  rejectIf (isCoinbase ∧ ¬(2 ≤ soleInputScriptSize ∧ soleInputScriptSize ≤ 100))
    .invalidCoinbaseScriptSize
  rejectIf (¬isCoinbase ∧ hasEqualNeighbours (sortOutpoints (inputs.map (·.outpoint))))
    .duplicateInput

/-- The value of an output, which is a nonnegative number within the money range. -/
def checkOutputValue (value : FixedBytes 8) (outputTotal : Nat) :
    Except BlockStructureError Unit := do
  rejectIf (leNat value.bytes ≥ 2 ^ 63) .outputValueOutOfRange
  rejectIf (leNat value.bytes > maxMoneySatoshis) .outputValueOutOfRange
  rejectIf (outputTotal + leNat value.bytes > maxMoneySatoshis) .outputTotalOutOfRange

/-- The outputs, with the total of the values so far. -/
def parseOutputs : Nat → Nat → Cursor (List ParsedOutput)
  | 0, _ => return []
  | count + 1, outputTotal => do
    let value ← Cursor.fixed 8
    Reader.check (checkOutputValue value outputTotal)
    let script ← parseScript
    let outputs ← parseOutputs count (outputTotal + leNat value.bytes)
    return { value, script } :: outputs

/-- One item of a witness stack. -/
def parseWitnessItem : Cursor (List UInt8) := do
  let itemSize ← Cursor.compactSize
  Reader.check (rejectIf (itemSize > maxBlockWeight) .lengthOverflow)
  Cursor.take itemSize

/-- The witness stack of one input. -/
def parseWitnessStack : Cursor (List (List UInt8)) := do
  let itemCount ← Cursor.compactSize
  let remaining ← Cursor.remaining
  Reader.check (rejectIf (itemCount > remaining) .lengthOverflow)
  Reader.times itemCount parseWitnessItem

/-- The witness stacks of all inputs, one of which must have an item. -/
def parseWitness (inputCount : Nat) : Cursor (List (List (List UInt8))) := do
  let perInput ← Reader.times inputCount parseWitnessStack
  Reader.check (rejectIf (perInput.all List.isEmpty) .superfluousWitness)
  return perInput

/-- The witness stacks of a transaction, none in the legacy form. -/
def parseStacks (hasWitnessEncoding : Bool) (inputCount : Nat) :
    Cursor (List (List (List UInt8))) :=
  if hasWitnessEncoding then parseWitness inputCount else pure []

/-- The positions `block::parse_transaction` passes. -/
structure TransactionPositions where
  transactionStart : List UInt8
  afterVersion : List UInt8
  inputCountStart : List UInt8
  outputsStart : List UInt8
  outputsEnd : List UInt8
  lockTimeStart : List UInt8
  transactionEnd : List UInt8

/-- The end of `block::parse_transaction`: what it reports of the parts it read. -/
def reportTransaction [Hashing] (marks : TransactionPositions) (hasWitnessEncoding : Bool)
    (version : FixedBytes 4) (inputs : List ParsedInput) (outputs : List ParsedOutput)
    (perInput : List (List (List UInt8))) (lockTime : FixedBytes 4) : ParsedTransaction :=
  let isCoinbase := isCoinbaseInputs inputs
  let outpoints := inputs.map (·.outpoint)
  let whole := Cursor.between marks.transactionStart marks.transactionEnd
  let txid :=
    if hasWitnessEncoding then
      doubleSha256 (Cursor.between marks.transactionStart marks.afterVersion ++
        Cursor.between marks.inputCountStart marks.outputsEnd ++
        Cursor.between marks.lockTimeStart marks.transactionEnd)
    else doubleSha256 whole
  { txid
    wtxid := if hasWitnessEncoding then doubleSha256 whole else txid
    strippedSize := 4 + (Cursor.between marks.inputCountStart marks.outputsEnd).length + 4
    hasWitness := hasWitnessEncoding
    isCoinbase
    coinbase := if isCoinbase then
        some {
          version
          inputsAndOutputCount := Cursor.between marks.inputCountStart marks.outputsStart
          outputs
          witness := perInput.headD []
          lockTime }
      else none
    inputs := if isCoinbase then outpoints else sortOutpoints outpoints
    outputs }

/-- `block::parse_transaction`. -/
def parseTransaction [Hashing] : Cursor ParsedTransaction := do
  let transactionStart ← Cursor.position
  let version ← Cursor.fixed 4
  let afterVersion ← Cursor.position
  let hasWitnessEncoding ← parseWitnessMarker
  let inputCountStart ← Cursor.position
  let inputCount ← parseCount .emptyInputs .tooManyInputs maxInputs minInputBytes
  let inputs ← Reader.times inputCount parseInput
  Reader.check (checkInputs inputs)
  let outputCount ← parseCount .emptyOutputs .tooManyOutputs maxCoinbaseOutputs minOutputBytes
  -- The source marks this position before the checks of the count, which read nothing.
  let outputsStart ← Cursor.position
  let outputs ← parseOutputs outputCount 0
  let outputsEnd ← Cursor.position
  let perInput ← parseStacks hasWitnessEncoding inputCount
  let lockTimeStart ← Cursor.position
  let lockTime ← Cursor.fixed 4
  let transactionEnd ← Cursor.position
  return reportTransaction
    { transactionStart, afterVersion, inputCountStart, outputsStart, outputsEnd, lockTimeStart,
      transactionEnd }
    hasWitnessEncoding version inputs outputs perInput lockTime

end Transactions

section MerkleTrees

/-- Some pair of a level, counted from its front, has equal halves. -/
def hasEqualPair : List BlockHash → Bool
  | left :: right :: rest => left == right || hasEqualPair rest
  | _ => false

/-- The level above, the last hash of an odd level paired with itself. -/
def nextLevel [Hashing] : List BlockHash → List BlockHash
  | left :: right :: rest => doubleSha256 (left.bytes ++ right.bytes) :: nextLevel rest
  | [last] => [doubleSha256 (last.bytes ++ last.bytes)]
  | [] => []

/-- The levels up to a single hash, at most as many as a count. -/
def merkleLevels [Hashing] : Nat → List BlockHash → Bool → BlockHash × Bool
  | count + 1, first :: second :: rest, mutated =>
    let hashes := first :: second :: rest
    merkleLevels count (nextLevel hashes) (mutated || hasEqualPair hashes)
  | _, hashes, mutated => (hashes.headD (.zero 32), mutated)

/-- `block::merkle_root_and_mutation`. Every level halves, so there are fewer levels than
hashes. -/
def merkleRootAndMutation [Hashing] (hashes : List BlockHash) : BlockHash × Bool :=
  merkleLevels hashes.length hashes false

end MerkleTrees

/-- The marker of a witness commitment. -/
def witnessCommitmentMarker : List UInt8 := [0x6a, 0x24, 0xaa, 0x21, 0xa9, 0xed]

/-- `block::witness_commitment_index`, as the output at that index. -/
def witnessCommitmentOutput (outputs : List ParsedOutput) : Option ParsedOutput :=
  (outputs.filter fun output =>
    38 ≤ output.script.length ∧ output.script.take 6 = witnessCommitmentMarker).getLast?

/-- `block::verify_witness_commitment`. -/
def verifyWitnessCommitment [Hashing] (coinbase : ParsedCoinbase) (wtxids : List BlockHash)
    (blockHasWitness : Bool) : Except BlockStructureError Unit :=
  match witnessCommitmentOutput coinbase.outputs with
  | none => rejectIf blockHasWitness .missingWitnessCommitment
  | some commitment => do
    rejectIf (coinbase.witness.length ≠ 1 ∨ (coinbase.witness.headD []).length ≠ 32)
      .invalidCoinbaseWitness
    let leaves := wtxids.set 0 (.zero 32)
    let root := (merkleRootAndMutation leaves).1
    let expected := doubleSha256 (root.bytes ++ coinbase.witness.headD [])
    rejectIf ((commitment.script.drop 6).take 32 ≠ expected.bytes) .witnessCommitmentMismatch

/-- `block::MerkleVerifiedBitcoinBlock`; its counts and sizes are within the block limit. -/
structure MerkleVerifiedBitcoinBlock where
  header : BitcoinHeader
  blockHash : BlockHash
  coinbaseTxid : BlockHash
  transactionCount : Nat
  strippedSize : Nat
  totalSize : Nat
  weight : Nat
deriving DecidableEq

/-- `block::ParsedBlock`. -/
structure ParsedBlock where
  metadata : MerkleVerifiedBitcoinBlock
  coinbase : ParsedCoinbase
  txids : List BlockHash
  transactions : List ParsedTransaction
deriving DecidableEq

section Blocks

variable [Hashing]

/-- The first transaction of a block, and only the first, is its coinbase. -/
def checkPlacement (first isCoinbase : Bool) : Except BlockStructureError Unit :=
  if first then rejectIf (¬isCoinbase) .firstTransactionNotCoinbase
  else rejectIf isCoinbase .multipleCoinbaseTransactions

/-- The transactions of a block, the first of which may still be to come. -/
def parseTransactions : Bool → Nat → Cursor (List ParsedTransaction)
  | _, 0 => return []
  | first, count + 1 => do
    let transaction ← parseTransaction
    Reader.check (checkPlacement first transaction.isCoinbase)
    let transactions ← parseTransactions false count
    return transaction :: transactions

/-- The sizes of a block's parts add up to its stripped size. -/
def blockStrippedSize (countSize : Nat) (transactions : List ParsedTransaction) : Nat :=
  80 + countSize + (transactions.map (·.strippedSize)).sum

/-- `block::parse_and_verify_block`. -/
def parseAndVerifyBlock (bytes : List UInt8) : Except BlockStructureError ParsedBlock := do
  rejectIf (bytes.length < 80 + 1) .blockTooShort
  rejectIf (bytes.length > maxBlockWeight) .serializedBlockTooLarge
  let header ← (BitcoinHeader.decodeExact (bytes.take 80)).mapError fun _ => .blockTooShort
  let body := bytes.drop 80
  let (transactionCount, afterCount) ←
    parseCount .emptyBlock .tooManyTransactions maxTransactions minTransactionBytes body
  let (transactions, trailing) ← parseTransactions true transactionCount afterCount
  rejectIf (trailing ≠ []) .trailingBytes
  let txids := transactions.map (·.txid)
  let strippedSize :=
    blockStrippedSize (Cursor.between body afterCount).length transactions
  let weight := strippedSize * 3 + bytes.length
  rejectIf (weight > maxBlockWeight) .blockWeightExceeded
  let (merkleRoot, mutated) := merkleRootAndMutation txids
  rejectIf mutated .mutatedMerkleTree
  rejectIf (merkleRoot ≠ header.merkleRoot) .merkleRootMismatch
  let coinbase ← okOr (transactions.head?.bind (·.coinbase)) .firstTransactionNotCoinbase
  verifyWitnessCommitment coinbase (transactions.map (·.wtxid))
    (transactions.any (·.hasWitness))
  return {
    metadata := {
      header
      blockHash := header.blockHash
      coinbaseTxid := txids.headD (.zero 32)
      transactionCount
      strippedSize
      totalSize := bytes.length
      weight }
    coinbase
    txids
    transactions }

end Blocks

end Usdd.BitcoinBmm

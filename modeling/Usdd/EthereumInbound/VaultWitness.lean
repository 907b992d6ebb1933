import Usdd.EthereumInbound.Transition
import Usdd.Foundation.RunningTotals
import Usdd.ProofCore.Annex
/-!
# The vault's storage witness

A deposit proof carries the trie nodes of the vault's account and of one storage slot for each
deposit. The decoder bounds the nodes while it reads them, and the whole witness is bounded once
more when it is read.
-/
namespace Usdd.EthereumInbound

open Usdd.Foundation Usdd.Core Usdd.ProofCore

/-- `lib::MAX_MPT_PROOF_NODES`. -/
def maxMptProofNodes : Nat := 65

/-- `lib::MAX_MPT_NODE_BYTES`. -/
def maxMptNodeBytes : Nat := 4096

/-- `lib::MAX_MPT_WITNESS_BYTES`. -/
def maxMptWitnessBytes : Nat := 4 * 1024 * 1024

/-- `lib::TAG_VAULT_STORAGE_WITNESS`. -/
def tagVaultStorageWitness : UInt16 := 0x6101

/-- `lib::VaultAccountWitness`. -/
structure VaultAccountWitness where
  nonce : UInt64
  balanceBe : FixedBytes 32
  storageRoot : Hash32
  codeHash : Hash32
  proofNodes : List (List UInt8)

/-- `lib::DepositStorageProof`. -/
structure DepositStorageProof where
  proofNodes : List (List UInt8)

/-- `lib::VaultStorageWitness`. -/
structure VaultStorageWitness where
  account : VaultAccountWitness
  deposits : List DepositStorageProof

/-- The loop of `lib::validate_nodes`, from a total on. -/
def sumNodes : Nat → List (List UInt8) → Except InboundVerificationError Nat
  | total, [] => return total
  | total, node :: nodes => do
    rejectIf (node = [] ∨ node.length > maxMptNodeBytes) .proofLimitsExceeded
    let total ← okOr (checkedAddUsize total node.length) .proofLimitsExceeded
    sumNodes total nodes

/-- `lib::validate_nodes`. -/
def validateNodes (nodes : List (List UInt8)) : Except InboundVerificationError Nat := do
  rejectIf (nodes = [] ∨ nodes.length > maxMptProofNodes) .proofLimitsExceeded
  sumNodes 0 nodes

namespace VaultStorageWitness

/-- The loop of `VaultStorageWitness::validate_limits`, from a total on. -/
def addDeposits : Nat → List DepositStorageProof → Except InboundVerificationError Unit
  | _, [] => return ()
  | total, storage :: deposits => do
    let bytes ← validateNodes storage.proofNodes
    let total ← okOr (checkedAddUsize total bytes) .proofLimitsExceeded
    rejectIf (total > maxMptWitnessBytes) .proofLimitsExceeded
    addDeposits total deposits

/-- `VaultStorageWitness::validate_limits`. -/
def validateLimits (witness : VaultStorageWitness) : Except InboundVerificationError Unit := do
  rejectIf (witness.deposits.length > maxMintBatchSize) .tooManyDeposits
  let total ← validateNodes witness.account.proofNodes
  addDeposits total witness.deposits

end VaultStorageWitness

/-- One node of `lib::encode_nodes`. -/
def encodeNode (node : List UInt8) : List UInt8 :=
  [encode (UInt16.ofNat node.length), node].flatten

/-- `lib::encode_nodes`. -/
def encodeNodes (nodes : List (List UInt8)) : List UInt8 :=
  [encodeCount nodes.length, (nodes.map encodeNode).flatten].flatten

section Panics

/-- A count that must fit a byte, or the `expect` message. -/
def expectU8 (count : Nat) (message : String) : Except String UInt8 :=
  if count < 2 ^ 8 then .ok (UInt8.ofNat count) else .error message

/-- A length that must fit two bytes, or the `expect` message. -/
def expectU16 (length : Nat) (message : String) : Except String UInt16 :=
  if length < 2 ^ 16 then .ok (UInt16.ofNat length) else .error message

/-- `lib::encode_nodes`, with its panics. -/
def encodeNodesOrPanic (nodes : List (List UInt8)) : Except String (List UInt8) := do
  let count ← expectU8 nodes.length "MPT proof node count fits u8"
  let written ← nodes.mapM fun node => do
    let length ← expectU16 node.length "MPT proof node length fits u16"
    return [encode length, node].flatten
  return [encode count, written.flatten].flatten

/-- `VaultStorageWitness::encode_to`, with its panics. -/
def encodeVaultWitnessOrPanic (witness : VaultStorageWitness) : Except String (List UInt8) := do
  let account ← encodeNodesOrPanic witness.account.proofNodes
  let count ← expectU8 witness.deposits.length "deposit proof count fits u8"
  let deposits ← witness.deposits.mapM fun deposit => encodeNodesOrPanic deposit.proofNodes
  return [encodeHeader tagVaultStorageWitness, encode witness.account.nonce,
    encode witness.account.balanceBe, encode witness.account.storageRoot,
    encode witness.account.codeHash, account, encode count, deposits.flatten].flatten

end Panics

instance : CanonicalEncode VaultStorageWitness where
  encode value := [encodeHeader tagVaultStorageWitness, encode value.account.nonce,
    encode value.account.balanceBe, encode value.account.storageRoot,
    encode value.account.codeHash, encodeNodes value.account.proofNodes,
    encodeCount value.deposits.length,
    (value.deposits.map fun deposit => encodeNodes deposit.proofNodes).flatten].flatten

/-- One node of `lib::decode_nodes`, and the total after it. -/
def decodeNode (total : Nat) : Decoder (List UInt8 × Nat) := do
  let length ← Decoder.u16
  Decoder.check (rejectIf (length.toNat = 0 ∨ length.toNat > maxMptNodeBytes)
    (.invalidValue "invalid MPT proof node length"))
  let total ← StateT.lift (okOr (checkedAddUsize total length.toNat) .lengthOverflow)
  Decoder.check (rejectIf (total > maxMptWitnessBytes)
    (.invalidValue "MPT witness exceeds byte limit"))
  let node ← Decoder.take length.toNat
  return (node, total)

/-- `lib::decode_nodes`. -/
def decodeNodes (total : Nat) : Decoder (List (List UInt8) × Nat) := do
  let count ← Decoder.u8
  Decoder.check (rejectIf (count = 0 ∨ count.toNat > maxMptProofNodes)
    (.invalidValue "invalid MPT proof node count"))
  Reader.running decodeNode count.toNat total

/-- One deposit's proof, and the total after it. -/
def decodeDeposit (total : Nat) : Decoder (DepositStorageProof × Nat) := do
  let (nodes, total) ← decodeNodes total
  return (⟨nodes⟩, total)

/-- The header that `VaultStorageWitness::decode_from` expects. -/
def decodeVaultWitnessHeader : Decoder Unit := do
  let wrong := DecodeError.invalidValue "invalid vault witness header"
  let schema ← Decoder.u16
  Decoder.check (rejectIf (schema ≠ encodingSchema) wrong)
  let tag ← Decoder.u16
  Decoder.check (rejectIf (tag ≠ tagVaultStorageWitness) wrong)

/-- `VaultStorageWitness::decode_from` up to the validation of the whole witness. -/
def decodeVaultWitnessStreamed : Decoder VaultStorageWitness := do
  decodeVaultWitnessHeader
  let nonce ← Decoder.u64
  let balanceBe ← Decoder.fixed 32
  let storageRoot ← Decoder.fixed 32
  let codeHash ← Decoder.fixed 32
  let (proofNodes, total) ← decodeNodes 0
  let count ← Decoder.u8
  Decoder.check (rejectIf (count.toNat > maxMintBatchSize)
    (.invalidValue "too many deposit storage proofs"))
  let (deposits, _) ← Reader.running decodeDeposit count.toNat total
  return ⟨⟨nonce, balanceBe, storageRoot, codeHash, proofNodes⟩, deposits⟩

/-- The limits, as the decoder reports them. -/
def VaultStorageWitness.validate (witness : VaultStorageWitness) : Except DecodeError Unit :=
  witness.validateLimits.mapError fun _ =>
    DecodeError.invalidValue "vault witness exceeds resource bounds"

instance : CanonicalDecode VaultStorageWitness where
  decodeFrom := do
    decodeVaultWitnessHeader
    let nonce ← Decoder.u64
    let balanceBe ← Decoder.fixed 32
    let storageRoot ← Decoder.fixed 32
    let codeHash ← Decoder.fixed 32
    let (proofNodes, total) ← decodeNodes 0
    let count ← Decoder.u8
    Decoder.check (rejectIf (count.toNat > maxMintBatchSize)
      (.invalidValue "too many deposit storage proofs"))
    let (deposits, _) ← Reader.running decodeDeposit count.toNat total
    Decoder.validated VaultStorageWitness.validate
      ⟨⟨nonce, balanceBe, storageRoot, codeHash, proofNodes⟩, deposits⟩

end Usdd.EthereumInbound

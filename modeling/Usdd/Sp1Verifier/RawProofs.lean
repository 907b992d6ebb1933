import Usdd.Foundation.IndexedFolds
import Usdd.Foundation.Limbs
import Usdd.ProofCore.Annex
import Usdd.ProofCore.JournalCodec
/-!
# The adapter for raw compressed proofs

`usdd-sp1-verifier`: the eight words of a verifying-key hash are one field element each, little
endian in the raw encoding and big endian in the program id. A proof is checked for its sizes, its
key and its journal before it is decoded. The decoder and the verifier of the proof system are
parameters, which may panic.
-/
namespace Usdd.Sp1Verifier

open Usdd.Foundation Usdd.Core Usdd.ProofCore

/-- `lib::MAX_RAW_COMPRESSED_PROOF_SIZE`. -/
def maxRawCompressedProofSize : Nat := sp1AnnexMaxSize

/-- `lib::RAW_VKEY_HASH_SIZE`. -/
def rawVkeyHashSize : Nat := 32

/-- `lib::KOALA_BEAR_MODULUS`. -/
def koalaBearModulus : UInt32 := 0x7f000001

/-- `lib::RejectedProofMode`. -/
inductive RejectedProofMode where
  | core
  | plonk
  | groth16
deriving DecidableEq

/-- `lib::VerificationError`, over the errors of the verifier of the proof system. -/
inductive VerificationError (CompressedError : Type) where
  | emptyProof
  | proofTooLarge (actual maximum : Nat)
  | publicValuesTooLarge (actual maximum : Nat)
  | annexSizeOverflow
  | annexTooLarge (actual maximum : Nat)
  | malformedProof
  | nonCanonicalProof
  | unsupportedProofMode (mode : RejectedProofMode)
  | wrongVkeyHashLength (actual : Nat)
  | nonCanonicalVkeyWord (index : Nat) (value : UInt32)
  | nonCanonicalProgramIdWord (index : Nat) (value : UInt32)
  | zeroProgramId
  | vkeyProgramIdMismatch
  | journal (error : JournalError)
  | invalidRecursionPublicValuesLength (actual expected : Nat)
  | nonByteCommittedDigestLimb (index : Nat) (value : UInt32)
  | publicValuesDigestMismatch
  | proofRejected (error : CompressedError)
  | verifierPanicked
deriving DecidableEq

variable {CompressedError : Type}

section Conversions

/-- `slice::chunks_exact` at four bytes. -/
def chunksExact : List UInt8 → List (List UInt8)
  | first :: second :: third :: fourth :: rest =>
    [first, second, third, fourth] :: chunksExact rest
  | _ => []

/-- The body of both conversion loops: a word is read in one byte order, checked, and written in
the other. -/
def convertWord (read : List UInt8 → Nat) (write : Nat → List UInt8)
    (refuse : Nat → UInt32 → VerificationError CompressedError) (index : Nat)
    (written word : List UInt8) : Except (VerificationError CompressedError) (List UInt8) := do
  let value := UInt32.ofNat (read word)
  rejectIf (value ≥ koalaBearModulus) (refuse index value)
  return written ++ write value.toNat

/-- A zero array whose front was written. -/
def filled (width : Nat) (written : List UInt8) : FixedBytes width :=
  ⟨(written ++ List.replicate width 0).take width, by simp⟩

/-- `lib::program_id_from_raw_vkey_hash`. -/
def programIdFromRawVkeyHash (rawVkeyHash : List UInt8) :
    Except (VerificationError CompressedError) Hash32 := do
  rejectIf (rawVkeyHash.length ≠ rawVkeyHashSize) (.wrongVkeyHashLength rawVkeyHash.length)
  let written ← foldIndexed (convertWord leNat (beBytes 4) .nonCanonicalVkeyWord) 0 []
    (chunksExact rawVkeyHash)
  let programId : Hash32 := filled 32 written
  rejectIf (programId = .zero) .zeroProgramId
  return programId

/-- `lib::raw_vkey_hash_from_program_id`. -/
def rawVkeyHashFromProgramId (programId : Hash32) :
    Except (VerificationError CompressedError) (FixedBytes 32) := do
  rejectIf (programId = .zero) .zeroProgramId
  let written ← foldIndexed (convertWord beNat (leBytes 4) .nonCanonicalProgramIdWord) 0 []
    (chunksExact programId.bytes)
  return filled 32 written

end Conversions

section Verification

/-- What the adapter uses of the proof system: the fixed-width decoder and encoder of a proof, the
recursion public values of a compressed one, and the raw verifier. Each may panic. -/
structure ProofSystem (CompressedError : Type) where
  Proof : Type
  deserialize : List UInt8 → Except (Fault Unit) Proof
  serialize : Proof → Except (Fault Unit) (List UInt8)
  /-- The recursion public values of `SP1Proof::Compressed`, as canonical field elements. -/
  compressed : Proof → Option (List UInt32)
  /-- `PROOF_MAX_NUM_PVS`. -/
  proofMaxNumPvs : Nat
  /-- The limbs of `RecursionPublicValues::committed_value_digest`, a byte each when canonical. -/
  committedValueDigest : List UInt32 → List UInt32
  /-- `SP1CompressedVerifierRaw::verify`. -/
  verifyRaw : List UInt8 → List UInt8 → Except (Fault CompressedError) Unit

/-- An error of the proof system turned into one of the adapter; a panic stays one. -/
def convertFault {ε ε' : Type} (convert : ε → ε') : Fault ε → Fault ε'
  | .error error => .error (convert error)
  | .panic message => .panic message

variable [Hashing]

/-- `lib::require_sha256_public_values_digest`. -/
def requireSha256PublicValuesDigest (committedDigest : List UInt8) (publicValues : List UInt8) :
    Except (VerificationError CompressedError) Unit :=
  rejectIf (committedDigest ≠ (hashBytes publicValues).bytes) .publicValuesDigestMismatch

/-- The part of `lib::verify_inner` before the journal: the sizes, and the key of the program. -/
def checkSizesAndKey (rawProof publicValues rawVkeyHash : List UInt8)
    (expectedProgramId : Hash32) : Except (VerificationError CompressedError) Unit := do
  rejectIf (rawProof = []) .emptyProof
  rejectIf (rawProof.length > maxRawCompressedProofSize)
    (.proofTooLarge rawProof.length maxRawCompressedProofSize)
  rejectIf (publicValues.length > sp1PublicValuesMaxSize)
    (.publicValuesTooLarge publicValues.length sp1PublicValuesMaxSize)
  let annexSize ← okOr ((checkedAddUsize sp1AnnexHeaderSize publicValues.length).bind
    fun size => checkedAddUsize size rawProof.length) .annexSizeOverflow
  rejectIf (annexSize > sp1AnnexMaxSize) (.annexTooLarge annexSize sp1AnnexMaxSize)
  let actualProgramId ← programIdFromRawVkeyHash rawVkeyHash
  rejectIf (actualProgramId ≠ expectedProgramId) .vkeyProgramIdMismatch

/-- `lib::reject_noncompressed_tag`. -/
def rejectNoncompressedTag (rawProof : List UInt8) :
    Except (VerificationError CompressedError) Unit := do
  rejectIf (rawProof.length < 4) .malformedProof
  match leNat (rawProof.take 4) with
  | 1 => return ()
  | 0 => .error (.unsupportedProofMode .core)
  | 2 => .error (.unsupportedProofMode .plonk)
  | 3 => .error (.unsupportedProofMode .groth16)
  | _ => .error .malformedProof

/-- One limb of the committed digest, which must be a byte. -/
def committedByte (index : Nat) (digest : List UInt8) (value : UInt32) :
    Except (VerificationError CompressedError) (List UInt8) := do
  rejectIf (value > 255) (.nonByteCommittedDigestLimb index value)
  return digest ++ [value.toUInt8]

variable (system : ProofSystem CompressedError)

/-- `lib::deserialize_canonical_proof`. -/
def deserializeCanonicalProof (rawProof : List UInt8) :
    Except (Fault (VerificationError CompressedError)) system.Proof := do
  let proof ← (system.deserialize rawProof).mapError (convertFault fun _ => .malformedProof)
  let canonical ← (system.serialize proof).mapError (convertFault fun _ => .malformedProof)
  rejectIf (canonical ≠ rawProof) (.error .nonCanonicalProof)
  return proof

/-- The part of `lib::verify_inner` after the journal. -/
def verifyProof (rawProof publicValues rawVkeyHash : List UInt8) :
    Except (Fault (VerificationError CompressedError)) Unit := do
  (rejectNoncompressedTag rawProof).mapError .error
  let proof ← deserializeCanonicalProof system rawProof
  let recursionValues ← okOr (system.compressed proof) (.error .malformedProof)
  rejectIf (recursionValues.length ≠ system.proofMaxNumPvs)
    (.error (.invalidRecursionPublicValuesLength recursionValues.length system.proofMaxNumPvs))
  let committedDigest ← (foldIndexed committedByte 0 []
    (system.committedValueDigest recursionValues)).mapError .error
  (requireSha256PublicValuesDigest committedDigest publicValues).mapError .error
  (system.verifyRaw rawProof rawVkeyHash).mapError (convertFault .proofRejected)

/-- `lib::verify_inner`. -/
def verifyInner (rawProof publicValues rawVkeyHash : List UInt8) (expectedProgramId : Hash32)
    (expectedStatementKind : StatementKind) :
    Except (Fault (VerificationError CompressedError)) StrictJournal := do
  (checkSizesAndKey rawProof publicValues rawVkeyHash expectedProgramId).mapError .error
  let journal ← (StrictJournal.verifyExpected publicValues expectedProgramId
    expectedStatementKind).mapError (convertFault .journal)
  verifyProof system rawProof publicValues rawVkeyHash
  return journal

/-- `lib::verify_raw_compressed_sha256`. -/
def verifyRawCompressedSha256 (rawProof publicValues rawVkeyHash : List UInt8)
    (expectedProgramId : Hash32) (expectedStatementKind : StatementKind) :
    Except (VerificationError CompressedError) StrictJournal :=
  (verifyInner system rawProof publicValues rawVkeyHash expectedProgramId
    expectedStatementKind).mapError fun
    | .error error => error
    | .panic _ => .verifierPanicked

end Verification

end Usdd.Sp1Verifier

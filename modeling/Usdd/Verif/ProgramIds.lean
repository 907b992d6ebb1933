import Usdd.Sp1Verifier.RawProofs
/-!
# Program ids and raw verifying-key hashes

Both conversions reverse the bytes of every word and refuse a word outside the field, so they are
inverse bijections between the nonzero canonical strings of the two byte orders. A proof is
therefore checked against its journal under one raw key for each program.
-/
namespace Usdd.Verif

open Usdd.Foundation Usdd.Core Usdd.ProofCore Usdd.Sp1Verifier

section Words

/-- The bytes of every word in the other order. -/
def swapWords (bytes : List UInt8) : List UInt8 :=
  ((chunksExact bytes).map List.reverse).flatten

theorem chunksExact_length {bytes word : List UInt8} (listed : word ∈ chunksExact bytes) :
    word.length = 4 := by
  fun_induction chunksExact bytes with
  | case1 first second third fourth rest ih =>
    obtain same | later := List.mem_cons.mp listed
    · rw [same]
      rfl
    · exact ih later
  | case2 => cases listed

/-- A word is a front of four bytes. -/
theorem chunksExact_append {word : List UInt8} (four : word.length = 4) (rest : List UInt8) :
    chunksExact (word ++ rest) = word :: chunksExact rest := by
  obtain ⟨first, second, third, fourth, rfl⟩ := List.length_eq_four.mp four
  rfl

theorem chunksExact_flatten {words : List (List UInt8)} (four : ∀ word ∈ words, word.length = 4) :
    chunksExact words.flatten = words := by
  induction words with
  | nil => rfl
  | cons word words ih =>
    obtain ⟨here, rest⟩ := List.forall_mem_cons.mp four
    rw [List.flatten_cons, chunksExact_append here, ih rest]

/-- Whole words make up their string. -/
theorem flatten_chunksExact {bytes : List UInt8} {count : Nat} (length : bytes.length = 4 * count) :
    (chunksExact bytes).flatten = bytes := by
  induction count generalizing bytes with
  | zero =>
    rw [List.eq_nil_of_length_eq_zero length]
    rfl
  | succ count ih =>
    have taken : (bytes.take 4).length = 4 := List.length_take_of_le (by omega)
    have dropped : (bytes.drop 4).length = 4 * count := by
      rw [List.length_drop]
      omega
    conv_lhs => rw [← List.take_append_drop 4 bytes]
    rw [chunksExact_append taken, List.flatten_cons, ih dropped, List.take_append_drop]

/-- Swapping reverses every word. -/
theorem chunksExact_swapWords (bytes : List UInt8) :
    chunksExact (swapWords bytes) = (chunksExact bytes).map List.reverse := by
  apply chunksExact_flatten
  intro word listed
  obtain ⟨original, member, rfl⟩ := List.mem_map.mp listed
  rw [List.length_reverse, chunksExact_length member]

/-- Swapping twice returns the string. -/
theorem swapWords_swapWords {bytes : List UInt8} {count : Nat}
    (length : bytes.length = 4 * count) : swapWords (swapWords bytes) = bytes := by
  rw [swapWords, chunksExact_swapWords, List.map_map, List.reverse_involutive.comp_self,
    List.map_id, flatten_chunksExact length]

theorem swapWords_length {bytes : List UInt8} {count : Nat} (length : bytes.length = 4 * count) :
    (swapWords bytes).length = bytes.length := by
  have reversed : ((chunksExact bytes).map List.reverse).map List.length =
      (chunksExact bytes).map List.length := by simp
  conv_rhs => rw [← flatten_chunksExact length]
  rw [swapWords, List.length_flatten, List.length_flatten, reversed]

/-- The words of 32 bytes stay 32 bytes. -/
theorem swapWords_length_hash {bytes : List UInt8} (length : bytes.length = 32) :
    (swapWords bytes).length = 32 := by
  have words : bytes.length = 4 * 8 := length
  rw [swapWords_length words, length]

end Words

section Loops

variable {CompressedError : Type}

/-- A conversion loop accepts exactly the words below the modulus and writes each of them. -/
theorem convertLoop (read : List UInt8 → Nat) (write : Nat → List UInt8)
    (refuse : Nat → UInt32 → VerificationError CompressedError) :
    FoldLaw (convertWord read write refuse) []
      (fun words written => written =
        (words.map fun word => write (UInt32.ofNat (read word)).toNat).flatten)
      (fun words => ∀ word ∈ words, UInt32.ofNat (read word) < koalaBearModulus) where
  empty := by simp
  start := rfl
  closed listed := (List.forall_mem_append.mp listed).1
  accepts := by
    intro words written word listed known
    simp only [Succeeds, convertWord, then_eq_ok, rejectIf_eq_ok, pure_eq_ok, ge_iff_le,
      UInt32.not_le, exists_and_left, exists_eq', and_true, List.forall_mem_append,
      List.forall_mem_singleton]
    exact (and_iff_right listed).symm
  keeps := by
    intro words written word next known ran
    simp only [convertWord, then_eq_ok, pure_eq_ok] at ran
    obtain ⟨-, rfl⟩ := ran
    simp [known]

/-- A word of four bytes is the number of its machine word. -/
theorem vkeyWord_toNat {number : Nat} (fits : number < 256 ^ 4) :
    (UInt32.ofNat number).toNat = number :=
  UInt32.toNat_ofNat_of_lt' fits

/-- A conversion that reads every word in one order and writes it in the other swaps words. -/
theorem convertWords_eq_ok {read : List UInt8 → Nat} {write : Nat → List UInt8}
    {refuse : Nat → UInt32 → VerificationError CompressedError} {bytes written : List UInt8}
    (fits : ∀ word ∈ chunksExact bytes, read word < 256 ^ 4)
    (swaps : ∀ word ∈ chunksExact bytes, write (read word) = word.reverse) :
    foldIndexed (convertWord read write refuse) 0 [] (chunksExact bytes) = .ok written ↔
      (∀ word ∈ chunksExact bytes, read word < koalaBearModulus.toNat) ∧
        written = swapWords bytes := by
  have law := convertLoop read write refuse
  have below : (∀ word ∈ chunksExact bytes, UInt32.ofNat (read word) < koalaBearModulus) ↔
      ∀ word ∈ chunksExact bytes, read word < koalaBearModulus.toNat := by
    refine forall₂_congr fun word listed => ?_
    rw [UInt32.lt_iff_toNat_lt, vkeyWord_toNat (fits word listed)]
  have all : (chunksExact bytes).map (fun word => write (UInt32.ofNat (read word)).toNat) =
      (chunksExact bytes).map List.reverse := by
    apply List.map_congr_left
    intro word listed
    rw [vkeyWord_toNat (fits word listed), swaps word listed]
  rw [← below]
  constructor
  · intro ran
    have held := law.holds ran
    rw [all] at held
    exact ⟨(law.succeeds _).mp ⟨written, ran⟩, held⟩
  · rintro ⟨canonical, rfl⟩
    obtain ⟨written, ran⟩ := (law.succeeds _).mpr canonical
    have held := law.holds ran
    rw [all] at held
    rw [ran, held]
    rfl

theorem filled_bytes {width : Nat} {written : List UInt8} (length : written.length = width) :
    (filled width written).bytes = written := by
  simp [filled, ← length]

end Loops

section Conversions

variable {CompressedError : Type} {programId : Hash32}

/-- A raw hash converts when it has the right length, its little-endian words lie in the field and
they are not all zero. -/
theorem programIdFromRawVkeyHash_eq_ok {rawVkeyHash : List UInt8} :
    (programIdFromRawVkeyHash rawVkeyHash : Except (VerificationError CompressedError) Hash32) =
        .ok programId ↔
      rawVkeyHash.length = 32 ∧
        (∀ word ∈ chunksExact rawVkeyHash, leNat word < koalaBearModulus.toNat) ∧
        programId ≠ .zero ∧ programId.bytes = swapWords rawVkeyHash := by
  have fits : ∀ word ∈ chunksExact rawVkeyHash, leNat word < 256 ^ 4 := by
    intro word listed
    have bound := leNat_lt word
    rwa [chunksExact_length listed] at bound
  have swaps : ∀ word ∈ chunksExact rawVkeyHash, beBytes 4 (leNat word) = word.reverse := by
    intro word listed
    have four : word.reverse.length = 4 := by rw [List.length_reverse, chunksExact_length listed]
    rw [← List.reverse_reverse word, leNat_reverse, ← four, beBytes_beNat, List.reverse_reverse]
  simp only [programIdFromRawVkeyHash]
  simp only [↓then_eq_ok, bind_eq_ok, rejectIf_eq_ok, pure_eq_ok, convertWords_eq_ok fits swaps]
  simp only [ne_eq, not_not, rawVkeyHashSize]
  constructor
  · rintro ⟨length, written, ⟨canonical, rfl⟩, nonzero, rfl⟩
    have whole := filled_bytes (swapWords_length_hash length)
    exact ⟨length, canonical, nonzero, whole⟩
  · rintro ⟨length, canonical, nonzero, same⟩
    have whole : filled 32 (swapWords rawVkeyHash) = programId := by
      apply FixedBytes.ext
      rw [filled_bytes (swapWords_length_hash length), same]
    exact ⟨length, _, ⟨canonical, rfl⟩, whole ▸ nonzero, whole⟩

/-- A program id converts when it is not zero and its big-endian words lie in the field. -/
theorem rawVkeyHashFromProgramId_eq_ok {rawVkeyHash : FixedBytes 32} :
    (rawVkeyHashFromProgramId programId :
        Except (VerificationError CompressedError) (FixedBytes 32)) = .ok rawVkeyHash ↔
      programId ≠ .zero ∧
        (∀ word ∈ chunksExact programId.bytes, beNat word < koalaBearModulus.toNat) ∧
        rawVkeyHash.bytes = swapWords programId.bytes := by
  have fits : ∀ word ∈ chunksExact programId.bytes, beNat word < 256 ^ 4 := by
    intro word listed
    have bound := beNat_lt word
    rwa [chunksExact_length listed] at bound
  have swaps : ∀ word ∈ chunksExact programId.bytes, leBytes 4 (beNat word) = word.reverse := by
    intro word listed
    have four : word.reverse.length = 4 := by rw [List.length_reverse, chunksExact_length listed]
    rw [← leNat_reverse, ← four, leBytes_leNat]
  have length := programId.length_eq
  have whole := filled_bytes (swapWords_length_hash length)
  simp only [rawVkeyHashFromProgramId]
  simp only [↓then_eq_ok, bind_eq_ok, rejectIf_eq_ok, pure_eq_ok, convertWords_eq_ok fits swaps]
  constructor
  · rintro ⟨nonzero, written, ⟨canonical, rfl⟩, rfl⟩
    exact ⟨nonzero, canonical, whole⟩
  · rintro ⟨nonzero, canonical, same⟩
    exact ⟨nonzero, _, ⟨canonical, rfl⟩, FixedBytes.ext (whole.trans same.symm)⟩

/-- The raw hash of a program id leads back to it. -/
theorem programId_of_rawVkeyHash {rawVkeyHash : FixedBytes 32}
    (derived : (rawVkeyHashFromProgramId programId :
      Except (VerificationError CompressedError) (FixedBytes 32)) = .ok rawVkeyHash) :
    (programIdFromRawVkeyHash rawVkeyHash.bytes :
      Except (VerificationError CompressedError) Hash32) = .ok programId := by
  obtain ⟨nonzero, canonical, same⟩ := rawVkeyHashFromProgramId_eq_ok.mp derived
  have length : programId.bytes.length = 4 * 8 := programId.length_eq
  apply programIdFromRawVkeyHash_eq_ok.mpr
  refine ⟨rawVkeyHash.length_eq, ?_, nonzero, ?_⟩
  · intro word listed
    rw [same, chunksExact_swapWords] at listed
    obtain ⟨original, member, rfl⟩ := List.mem_map.mp listed
    rw [leNat_reverse]
    exact canonical original member
  · rw [same, swapWords_swapWords length]

/-- The program id of a raw hash leads back to it. -/
theorem rawVkeyHash_of_programId {rawVkeyHash : List UInt8}
    (converted : (programIdFromRawVkeyHash rawVkeyHash :
      Except (VerificationError CompressedError) Hash32) = .ok programId) :
    ∃ raw : FixedBytes 32, raw.bytes = rawVkeyHash ∧
      (rawVkeyHashFromProgramId programId :
        Except (VerificationError CompressedError) (FixedBytes 32)) = .ok raw := by
  obtain ⟨length, canonical, nonzero, same⟩ := programIdFromRawVkeyHash_eq_ok.mp converted
  have whole : rawVkeyHash.length = 4 * 8 := length
  refine ⟨⟨rawVkeyHash, length⟩, rfl, ?_⟩
  apply rawVkeyHashFromProgramId_eq_ok.mpr
  refine ⟨nonzero, ?_, ?_⟩
  · intro word listed
    rw [same, chunksExact_swapWords] at listed
    obtain ⟨original, member, rfl⟩ := List.mem_map.mp listed
    rw [← leNat_reverse, List.reverse_reverse]
    exact canonical original member
  · rw [same, swapWords_swapWords whole]

/-- A string of words is all zero when it is so in the other byte order. -/
theorem swapWords_eq_zero {bytes : List UInt8} (length : bytes.length = 4 * 8) :
    swapWords bytes = (Hash32.zero).bytes ↔ bytes = (Hash32.zero).bytes := by
  have fixed : swapWords (Hash32.zero).bytes = (Hash32.zero).bytes := by decide
  constructor
  · intro same
    rw [← swapWords_swapWords length, same, fixed]
  · rintro rfl
    exact fixed

/-- A program id has a raw hash exactly if it is not zero and its words lie in the field. -/
theorem rawVkeyHashFromProgramId_succeeds :
    Succeeds (rawVkeyHashFromProgramId programId :
        Except (VerificationError CompressedError) (FixedBytes 32)) ↔
      programId ≠ .zero ∧
        ∀ word ∈ chunksExact programId.bytes, beNat word < koalaBearModulus.toNat := by
  have made := swapWords_length_hash programId.length_eq
  simp only [Succeeds, rawVkeyHashFromProgramId_eq_ok]
  constructor
  · rintro ⟨raw, nonzero, canonical, -⟩
    exact ⟨nonzero, canonical⟩
  · rintro ⟨nonzero, canonical⟩
    exact ⟨⟨swapWords programId.bytes, made⟩, nonzero, canonical, rfl⟩

/-- A raw hash has a program id exactly if it is 32 bytes long, not zero, and its words lie in the
field. -/
theorem programIdFromRawVkeyHash_succeeds {rawVkeyHash : List UInt8} :
    Succeeds (programIdFromRawVkeyHash rawVkeyHash :
        Except (VerificationError CompressedError) Hash32) ↔
      rawVkeyHash.length = 32 ∧ rawVkeyHash ≠ List.replicate 32 0 ∧
        ∀ word ∈ chunksExact rawVkeyHash, leNat word < koalaBearModulus.toNat := by
  simp only [Succeeds, programIdFromRawVkeyHash_eq_ok]
  constructor
  · rintro ⟨programId, length, canonical, nonzero, same⟩
    refine ⟨length, ?_, canonical⟩
    intro zero
    apply nonzero
    exact FixedBytes.ext (same.trans ((swapWords_eq_zero length).mpr zero))
  · rintro ⟨length, nonzero, canonical⟩
    have made := swapWords_length_hash length
    refine ⟨⟨swapWords rawVkeyHash, made⟩, length, canonical, ?_, rfl⟩
    intro zero
    exact nonzero ((swapWords_eq_zero length).mp (congrArg FixedBytes.bytes zero))

end Conversions

section Claims

variable {CompressedError : Type}

/-- The sizes with which a proof gets as far as its key. -/
def SizesAdmitted (rawProof publicValues : List UInt8) : Prop :=
  rawProof ≠ [] ∧ rawProof.length ≤ maxRawCompressedProofSize ∧
    publicValues.length ≤ sp1PublicValuesMaxSize ∧
    sp1AnnexHeaderSize + publicValues.length + rawProof.length ≤ sp1AnnexMaxSize

/-- A proof reaches its journal when its sizes are admitted and the key is that of the expected
program. -/
theorem checkSizesAndKey_eq_ok {rawProof publicValues rawVkeyHash : List UInt8}
    {expectedProgramId : Hash32} :
    (checkSizesAndKey rawProof publicValues rawVkeyHash expectedProgramId :
        Except (VerificationError CompressedError) Unit) = .ok () ↔
      SizesAdmitted rawProof publicValues ∧
        (programIdFromRawVkeyHash rawVkeyHash :
          Except (VerificationError CompressedError) Hash32) = .ok expectedProgramId := by
  have annex : ∀ size, ((checkedAddUsize sp1AnnexHeaderSize publicValues.length).bind
      fun size => checkedAddUsize size rawProof.length) = some size ↔
      sp1AnnexHeaderSize + publicValues.length + rawProof.length < 2 ^ 64 ∧
        size = sp1AnnexHeaderSize + publicValues.length + rawProof.length := by
    intro size
    simp only [checkedAddUsize, Option.bind_eq_some_iff, Option.ite_none_right_eq_some,
      Option.some.injEq]
    constructor
    · rintro ⟨_, ⟨-, rfl⟩, fits, rfl⟩
      exact ⟨fits, rfl⟩
    · rintro ⟨fits, rfl⟩
      exact ⟨_, ⟨by omega, rfl⟩, fits, rfl⟩
  have limit : sp1AnnexMaxSize < 2 ^ 64 := by decide
  simp only [checkSizesAndKey]
  simp only [↓then_eq_ok, bind_eq_ok, rejectIf_eq_ok, okOr_eq_ok, annex]
  simp only [gt_iff_lt, not_lt, ne_eq, not_not]
  constructor
  · rintro ⟨nonempty, small, values, _, ⟨-, rfl⟩, room, _, converted, rfl⟩
    exact ⟨⟨nonempty, small, values, room⟩, converted⟩
  · rintro ⟨⟨nonempty, small, values, room⟩, converted⟩
    exact ⟨nonempty, small, values, _, ⟨Nat.lt_of_le_of_lt room limit, rfl⟩, room, _, converted,
      rfl⟩

/-- The one raw key with which a proof of a program reaches its journal. -/
theorem checkSizesAndKey_key {rawProof publicValues rawVkeyHash : List UInt8}
    {expectedProgramId : Hash32} :
    (checkSizesAndKey rawProof publicValues rawVkeyHash expectedProgramId :
        Except (VerificationError CompressedError) Unit) = .ok () ↔
      SizesAdmitted rawProof publicValues ∧ ∃ raw : FixedBytes 32, raw.bytes = rawVkeyHash ∧
        (rawVkeyHashFromProgramId expectedProgramId :
          Except (VerificationError CompressedError) (FixedBytes 32)) = .ok raw := by
  rw [checkSizesAndKey_eq_ok]
  refine and_congr_right fun _ => ?_
  constructor
  · exact rawVkeyHash_of_programId
  · rintro ⟨raw, rfl, derived⟩
    exact programId_of_rawVkeyHash derived

/-- A program with a raw hash has one key with which its proofs reach their journal. -/
theorem checkSizesAndKey_unique {rawProof publicValues : List UInt8} {expectedProgramId : Hash32}
    (sizes : SizesAdmitted rawProof publicValues)
    (convertible : Succeeds (rawVkeyHashFromProgramId expectedProgramId :
      Except (VerificationError CompressedError) (FixedBytes 32))) :
    ∃! rawVkeyHash, (checkSizesAndKey rawProof publicValues rawVkeyHash expectedProgramId :
      Except (VerificationError CompressedError) Unit) = .ok () := by
  obtain ⟨raw, derived⟩ := convertible
  refine ⟨raw.bytes, checkSizesAndKey_key.mpr ⟨sizes, raw, rfl, derived⟩, ?_⟩
  intro other reached
  obtain ⟨-, raw', rfl, derived'⟩ := checkSizesAndKey_key.mp reached
  rw [derived, Except.ok.injEq] at derived'
  rw [derived']

variable [Hashing]

/-- A proof that verifies got past its sizes and its key. -/
theorem checked_of_verified {system : ProofSystem CompressedError}
    {rawProof publicValues rawVkeyHash : List UInt8} {expectedProgramId : Hash32}
    {kind : StatementKind} {journal : StrictJournal}
    (verified : verifyRawCompressedSha256 system rawProof publicValues rawVkeyHash
      expectedProgramId kind = .ok journal) :
    (checkSizesAndKey rawProof publicValues rawVkeyHash expectedProgramId :
      Except (VerificationError CompressedError) Unit) = .ok () := by
  rw [verifyRawCompressedSha256, mapError_eq_ok, verifyInner, then_eq_ok, mapError_eq_ok]
    at verified
  exact verified.1

/-- Program ids and raw verifying-key hashes correspond one to one, and a proof of a program
reaches its journal check with exactly one raw hash. -/
theorem programIds_one_to_one (CompressedError : Type) :
    (∀ programId : Hash32,
      (Succeeds (rawVkeyHashFromProgramId programId :
          Except (VerificationError CompressedError) (FixedBytes 32)) ↔
        programId ≠ .zero ∧
          ∀ word ∈ chunksExact programId.bytes, beNat word < koalaBearModulus.toNat) ∧
      ∀ raw, (rawVkeyHashFromProgramId programId :
          Except (VerificationError CompressedError) (FixedBytes 32)) = .ok raw →
        (programIdFromRawVkeyHash raw.bytes :
          Except (VerificationError CompressedError) Hash32) = .ok programId) ∧
    (∀ rawVkeyHash : List UInt8,
      (Succeeds (programIdFromRawVkeyHash rawVkeyHash :
          Except (VerificationError CompressedError) Hash32) ↔
        rawVkeyHash.length = 32 ∧ rawVkeyHash ≠ List.replicate 32 0 ∧
          ∀ word ∈ chunksExact rawVkeyHash, leNat word < koalaBearModulus.toNat) ∧
      ∀ programId, (programIdFromRawVkeyHash rawVkeyHash :
          Except (VerificationError CompressedError) Hash32) = .ok programId →
        ∃ raw : FixedBytes 32, raw.bytes = rawVkeyHash ∧
          (rawVkeyHashFromProgramId programId :
            Except (VerificationError CompressedError) (FixedBytes 32)) = .ok raw) ∧
    (∀ rawProof publicValues expectedProgramId, SizesAdmitted rawProof publicValues →
      Succeeds (rawVkeyHashFromProgramId expectedProgramId :
        Except (VerificationError CompressedError) (FixedBytes 32)) →
      ∃! rawVkeyHash, (checkSizesAndKey rawProof publicValues rawVkeyHash expectedProgramId :
        Except (VerificationError CompressedError) Unit) = .ok ()) ∧
    (∀ rawProof publicValues rawVkeyHash expectedProgramId,
      (checkSizesAndKey rawProof publicValues rawVkeyHash expectedProgramId :
        Except (VerificationError CompressedError) Unit) = .ok () →
      ∃ raw : FixedBytes 32, raw.bytes = rawVkeyHash ∧
        (rawVkeyHashFromProgramId expectedProgramId :
          Except (VerificationError CompressedError) (FixedBytes 32)) = .ok raw) ∧
    (∀ (system : ProofSystem CompressedError) rawProof publicValues rawVkeyHash expectedProgramId
        kind journal,
      verifyRawCompressedSha256 system rawProof publicValues rawVkeyHash expectedProgramId kind =
        .ok journal →
      ∃ raw : FixedBytes 32, raw.bytes = rawVkeyHash ∧
        (rawVkeyHashFromProgramId expectedProgramId :
          Except (VerificationError CompressedError) (FixedBytes 32)) = .ok raw) := by
  refine ⟨fun programId => ⟨?_, ?_⟩, fun rawVkeyHash => ⟨?_, ?_⟩, ?_, ?_, ?_⟩
  · exact rawVkeyHashFromProgramId_succeeds
  · intro raw derived
    exact programId_of_rawVkeyHash derived
  · exact programIdFromRawVkeyHash_succeeds
  · intro programId converted
    exact rawVkeyHash_of_programId converted
  · intro rawProof publicValues expectedProgramId sizes derived
    exact checkSizesAndKey_unique sizes derived
  · intro rawProof publicValues rawVkeyHash expectedProgramId reached
    exact (checkSizesAndKey_key.mp reached).2
  · intro system rawProof publicValues rawVkeyHash expectedProgramId kind journal verified
    exact (checkSizesAndKey_key.mp (checked_of_verified verified)).2

omit [Hashing] in
/-- A program id of small words, its raw hash, and a proof that comes with it. -/
theorem programIds_one_to_one_sample :
    (programIdFromRawVkeyHash ((List.replicate 8 [1, 2, 3, 4]).flatten) :
        Except (VerificationError Unit) Hash32) =
      .ok ⟨(List.replicate 8 [4, 3, 2, 1]).flatten, rfl⟩ ∧
    ∃! rawVkeyHash, (checkSizesAndKey [0] [] rawVkeyHash
      ⟨(List.replicate 8 [4, 3, 2, 1]).flatten, rfl⟩ :
        Except (VerificationError Unit) Unit) = .ok () := by
  let := sha256Hashing
  have corresponds := programIds_one_to_one Unit
  have derived : (rawVkeyHashFromProgramId ⟨(List.replicate 8 [4, 3, 2, 1]).flatten, rfl⟩ :
      Except (VerificationError Unit) (FixedBytes 32)) =
      .ok ⟨(List.replicate 8 [1, 2, 3, 4]).flatten, rfl⟩ := by decide
  constructor
  · exact (corresponds.1 _).2 _ derived
  · apply corresponds.2.2.1 [0] [] _ ?_ ⟨_, derived⟩
    exact ⟨by decide, by decide, by decide, by decide⟩

end Claims

end Usdd.Verif

import Usdd.TypeScript.SlicedRecords
/-!
# Fields and annexes of the Simplicity tools

The Python tools around the Simplicity contracts check the width of every field and the range of
every number. They read an annex with one `struct` of its header and slices of its parts, and do
not write it again to check it.
-/
namespace Usdd.Simplicity

open Usdd.Foundation Usdd.TypeScript

/-- `ANNEX_TAG`. -/
def annexTag : UInt8 := 0x50

/-- `SP1_MAGIC`, the bytes `USDDSP1` and a zero byte. -/
def sp1Magic : List UInt8 := [0x55, 0x53, 0x44, 0x44, 0x53, 0x50, 0x31, 0x00]

/-- `SP1_HEADER_SIZE`. -/
def sp1HeaderSize : Nat := 55

/-- `SP1_MAX_SIZE`. -/
def sp1MaxSize : Nat := 512 * 1024

/-- `SP1_PUBLIC_VALUES_MAX_SIZE`. -/
def sp1PublicValuesMaxSize : Nat := 16 * 1024

/-- `ETH_STATE_V1`. -/
def ethStateV1 : Nat := 1

/-- `USDD_UNITS_PER_USDT_MICRO`. -/
def usddUnitsPerUsdtMicro : Int := 100

/-- `MAX_MINT_BATCH_USDD_BASE`. -/
def maxMintBatchUsddBase : Int := 20000000 * 100000000

/-- The largest number of an unsigned word of 64 bits. -/
def u64Max : Int := 0xFFFFFFFFFFFFFFFF

/-- The class `Sp1Annex`. -/
structure Sp1Annex where
  guestProgramId : List UInt8
  publicValues : List UInt8
  proof : List UInt8

/-- `_bytes`, for a value that is a byte string. -/
def checkBytes (name : String) (value : List UInt8) (length : Option Nat) (nonzero : Bool) :
    Except String Unit := do
  rejectIf ((length.any fun width => value.length != width) = true)
    (name ++ " must be exactly " ++ toString (length.getD 0) ++ " bytes")
  rejectIf (nonzero = true ∧ value.any (· != 0) = false) (name ++ " must not be zero")

/-- `_uint`, for a value that is an integer. -/
def checkUint (name : String) (value : Int) (bits : Nat) (positive : Bool) :
    Except String Unit :=
  let minimum : Int := if positive then 1 else 0
  rejectIf (value < minimum ∨ value > 2 ^ bits - 1)
    (name ++ " must be " ++ (if positive then "positive " else "") ++ "u" ++ toString bits)

/-- `usdt6_to_usdd8`. -/
def usdt6ToUsdd8 (amountUsdt6 : Int) : Except String Int := do
  checkUint "amount_usdt6" amountUsdt6 64 true
  let amountUsdd8 := amountUsdt6 * usddUnitsPerUsdtMicro
  rejectIf (amountUsdd8 > u64Max) "USDT6 to USDD8 multiplication overflows u64"
  return amountUsdd8

/-- `struct.pack` of a header with the format `>BBBBHII32s`, behind the tag and the magic. -/
def packHeader (publicLen proofLen : Nat) (guestProgramId : List UInt8) : List UInt8 :=
  [[annexTag], sp1Magic, [1, 1, UInt8.ofNat ethStateV1, 1], beBytes 2 0, beBytes 4 publicLen,
    beBytes 4 proofLen, guestProgramId].flatten

/-- `encode_sp1_annex`. -/
def encodeSp1Annex (guestProgramId publicValues proof : List UInt8) :
    Except String (List UInt8) := do
  checkBytes "guest_program_id" guestProgramId (some 32) true
  checkBytes "public_values" publicValues none false
  checkBytes "proof" proof none false
  rejectIf (publicValues.length = 0 ∨ publicValues.length > sp1PublicValuesMaxSize)
    "public_values length must be 1..16 KiB"
  rejectIf (proof.length = 0) "proof must not be empty"
  rejectIf (sp1HeaderSize + publicValues.length + proof.length > sp1MaxSize)
    "annex exceeds 512 KiB"
  let header := packHeader publicValues.length proof.length guestProgramId
  rejectIf (header.length ≠ sp1HeaderSize) "AssertionError"
  return header ++ publicValues ++ proof

/-- The numbers that `struct.unpack_from` reads with the format `>BBBBHII32s`, and its bytes. -/
structure HeaderFields where
  version : Nat
  proofSystem : Nat
  statement : Nat
  digest : Nat
  flags : Nat
  publicLen : Nat
  proofLen : Nat
  vkey : List UInt8

/-- `struct.unpack_from`, at the position that the decoder reads from. -/
def unpackFrom (data : List UInt8) : HeaderFields where
  version := beNat (slice data 9 10)
  proofSystem := beNat (slice data 10 11)
  statement := beNat (slice data 11 12)
  digest := beNat (slice data 12 13)
  flags := beNat (slice data 13 15)
  publicLen := beNat (slice data 15 19)
  proofLen := beNat (slice data 19 23)
  vkey := slice data 23 55

/-- `decode_sp1_annex`. -/
def decodeSp1Annex (data : List UInt8) : Except String Sp1Annex := do
  checkBytes "annex" data none false
  rejectIf (data.length < 5 ∨ slice data 0 5 ≠ annexTag :: [0x55, 0x53, 0x44, 0x44])
    "not a USDD annex"
  rejectIf (data.length > sp1MaxSize) "annex exceeds 512 KiB"
  rejectIf (data.length < sp1HeaderSize) "truncated annex"
  rejectIf (slice data 1 9 ≠ sp1Magic) "bad annex magic"
  let header := unpackFrom data
  rejectIf (header.version ≠ 1 ∨ header.proofSystem ≠ 1 ∨ header.statement ≠ ethStateV1 ∨
      header.digest ≠ 1 ∨ header.flags ≠ 0)
    "unsupported annex header"
  rejectIf (header.publicLen = 0 ∨ header.publicLen > sp1PublicValuesMaxSize ∨
      header.proofLen = 0)
    "invalid annex field length"
  checkBytes "guest_program_id" header.vkey (some 32) true
  rejectIf (sp1HeaderSize + header.publicLen + header.proofLen ≠ data.length)
    "declared lengths do not exactly match annex"
  let publicEnd := sp1HeaderSize + header.publicLen
  return ⟨header.vkey, slice data sp1HeaderSize publicEnd, data.drop publicEnd⟩

section Fields

/-- A string has a byte that is not zero exactly when it differs from the zero string. -/
theorem any_ne_zero {width : Nat} (value : FixedBytes width) :
    (value.bytes.any (· != 0)) = false ↔ value = .zero width := by
  rw [← isZero_fixed, isZero, List.any_eq_false, List.all_eq_true]
  simp

/-- One byte is the number it is read as. -/
theorem byte_of_number {bytes : List UInt8} (length : bytes.length = 1) {byte : UInt8}
    (number : beNat bytes = byte.toNat) : bytes = [byte] := by
  have same : beNat [byte] = byte.toNat := by simp [beNat_cons, beNat_nil]
  exact beNat_inj length (number.trans same.symm)

@[simp]
theorem checkUint_eq_ok {name : String} {value : Int} {bits : Nat} {positive : Bool} :
    checkUint name value bits positive = .ok () ↔
      (if positive then 1 else 0) ≤ value ∧ value < 2 ^ bits := by
  rw [checkUint, rejectIf_eq_ok]
  omega

/-- The check of a width passes on the strings of that width. -/
theorem checkBytes_eq_ok {name : String} {value : List UInt8} {width : Nat} {nonzero : Bool} :
    checkBytes name value (some width) nonzero = .ok () ↔
      ∃ fixed : FixedBytes width, value = fixed.bytes ∧ (nonzero = true → fixed ≠ .zero width) := by
  simp only [checkBytes]
  simp only [↓then_eq_ok, rejectIf_eq_ok, Option.any_some, bne_iff_ne, ne_eq, not_not]
  constructor
  · rintro ⟨length, checked⟩
    obtain ⟨fixed, rfl⟩ := exists_fixed length
    refine ⟨fixed, rfl, ?_⟩
    intro required zero
    exact checked ⟨required, (any_ne_zero fixed).mpr zero⟩
  · rintro ⟨fixed, rfl, checked⟩
    refine ⟨fixed.length_eq, ?_⟩
    rintro ⟨required, zero⟩
    exact checked required ((any_ne_zero fixed).mp zero)

theorem usdt6ToUsdd8_eq_ok {amount converted : Int} :
    usdt6ToUsdd8 amount = .ok converted ↔
      1 ≤ amount ∧ amount * 100 ≤ u64Max ∧ converted = amount * 100 := by
  simp only [usdt6ToUsdd8]
  simp only [↓then_eq_ok, rejectIf_eq_ok, pure_eq_ok, checkUint_eq_ok]
  simp only [usddUnitsPerUsdtMicro, u64Max, if_true]
  omega

end Fields

end Usdd.Simplicity

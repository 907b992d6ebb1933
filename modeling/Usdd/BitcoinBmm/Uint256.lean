import Usdd.Core.Hash
import Usdd.Foundation.Limbs
/-!
# 256-bit unsigned integers of the Bitcoin parent

Targets and work are four little-endian 64-bit limbs. Every operation is the limb loop of the
source; the number of a value is the number its limbs denote.
-/
namespace Usdd.BitcoinBmm

open Usdd.Foundation Usdd.Core

/-- `lib::Uint256`: four little-endian 64-bit limbs. -/
@[ext]
structure Uint256 where
  /-- The limbs, least significant first. -/
  limbs : List UInt64
  /-- There are four of them. -/
  length_eq : limbs.length = 4
deriving DecidableEq

namespace Uint256

/-- `Uint256::from_limbs_le`. -/
def fromLimbsLe (limb0 limb1 limb2 limb3 : UInt64) : Uint256 := ⟨[limb0, limb1, limb2, limb3], rfl⟩

/-- `Uint256::ZERO`. -/
def zero : Uint256 := fromLimbsLe 0 0 0 0

/-- `Uint256::MAX`. -/
def max : Uint256 :=
  fromLimbsLe 0xffffffffffffffff 0xffffffffffffffff 0xffffffffffffffff 0xffffffffffffffff

instance : Inhabited Uint256 := ⟨zero⟩

/-- The number the limbs denote. -/
def toNat (value : Uint256) : Nat := limbsNat value.limbs

/-- The limb of an index. -/
def limb (value : Uint256) (index : Nat) : UInt64 := value.limbs.getD index 0

/-- `Uint256::from_le_bytes`. -/
def fromLeBytes (bytes : FixedBytes 32) : Uint256 :=
  ⟨limbsOfBytes 4 bytes.bytes, limbsOfBytes_length _ _⟩

/-- `Uint256::from_be_bytes`. -/
def fromBeBytes (bytes : FixedBytes 32) : Uint256 :=
  fromLeBytes ⟨bytes.bytes.reverse, (List.length_reverse ..).trans bytes.length_eq⟩

/-- `Uint256::to_le_bytes`. -/
def toLeBytes (value : Uint256) : FixedBytes 32 :=
  ⟨bytesOfLimbs value.limbs, by rw [bytesOfLimbs_length, value.length_eq]⟩

/-- `Uint256::to_be_bytes`. -/
def toBeBytes (value : Uint256) : FixedBytes 32 :=
  ⟨value.toLeBytes.bytes.reverse, (List.length_reverse ..).trans value.toLeBytes.length_eq⟩

/-- `Uint256::is_zero`. -/
def isZero (value : Uint256) : Bool := value.limbs.all (· == 0)

/-- `Uint256::checked_add`. -/
def checkedAdd (left right : Uint256) : Option Uint256 :=
  let sum := addLimbs left.limbs right.limbs false
  if sum.2 then none
  else some ⟨sum.1, (addLimbs_length _ (left.length_eq.trans right.length_eq.symm)).trans
    left.length_eq⟩

/-- `Uint256::checked_add_one`. -/
def checkedAddOne (value : Uint256) : Option Uint256 := value.checkedAdd (fromLimbsLe 1 0 0 0)

/-- `Uint256::bit`. -/
def bit (value : Uint256) (index : Nat) : Bool :=
  (value.limb (index / 64) >>> UInt64.ofNat (index % 64)) &&& 1 != 0

/-- `Uint256::set_bit`. -/
def setBit (value : Uint256) (index : Nat) : Uint256 :=
  ⟨value.limbs.set (index / 64) (value.limb (index / 64) ||| (1 <<< UInt64.ofNat (index % 64))),
    (List.length_set ..).trans value.length_eq⟩

/-- The position above the highest set bit, from the limb of a count down. -/
def bitLenFrom (value : Uint256) : Nat → Nat
  | 0 => 0
  | index + 1 =>
    if value.limb index ≠ 0 then index * 64 + ((value.limb index).toNat.log2 + 1)
    else value.bitLenFrom index

/-- `Uint256::bit_len`. -/
def bitLen (value : Uint256) : Nat := value.bitLenFrom 4

/-- `Uint256::low_u64`. -/
def lowU64 (value : Uint256) : UInt64 := value.limb 0

/-- The limb of an index after a shift to the right. -/
def shrLimb (value : Uint256) (wordShift bitShift index : Nat) : UInt64 :=
  let source := index + wordShift
  if 4 ≤ source then 0
  else
    let low := value.limb source >>> UInt64.ofNat bitShift
    if bitShift ≠ 0 ∧ source + 1 < 4 then
      low ||| (value.limb (source + 1) <<< UInt64.ofNat (64 - bitShift))
    else low

/-- `Uint256::shr`. -/
def shr (value : Uint256) (shift : Nat) : Uint256 :=
  if 256 ≤ shift then zero
  else ⟨(List.range 4).map (value.shrLimb (shift / 64) (shift % 64)), rfl⟩

/-- One limb of the source spread over the result of a shift to the left. -/
def shlStep (value : Uint256) (wordShift bitShift : Nat) (out : List UInt64) (source : Nat) :
    List UInt64 :=
  let target := source + wordShift
  if 4 ≤ target then out
  else
    let low := out.set target
      (out.getD target 0 ||| (value.limb source <<< UInt64.ofNat bitShift))
    if bitShift ≠ 0 ∧ target + 1 < 4 then
      low.set (target + 1)
        (low.getD (target + 1) 0 ||| (value.limb source >>> UInt64.ofNat (64 - bitShift)))
    else low

theorem shlStep_length (value : Uint256) (wordShift bitShift : Nat) (out : List UInt64)
    (source : Nat) : (value.shlStep wordShift bitShift out source).length = out.length := by
  simp only [shlStep]
  split
  · rfl
  · split <;> simp

/-- `Uint256::checked_shl`. -/
def checkedShl (value : Uint256) (shift : Nat) : Option Uint256 :=
  if 256 ≤ shift then if value.isZero then some zero else none
  else if shift ≠ 0 ∧ 256 - shift < value.bitLen then none
  else some ⟨(List.range 4).foldl (value.shlStep (shift / 64) (shift % 64)) zero.limbs,
    by simp only [List.range, List.range.loop, List.foldl, shlStep_length]; rfl⟩

theorem mulLimbs_length (limbs : List UInt64) (factor : UInt64) (carry : Nat) :
    (mulLimbs limbs factor carry).1.length = limbs.length := by
  induction limbs generalizing carry with
  | nil => rfl
  | cons limb rest ih => simp [mulLimbs, ih]

/-- `Uint256::checked_mul_u64`. -/
def checkedMulU64 (value : Uint256) (factor : UInt64) : Option Uint256 :=
  let product := mulLimbs value.limbs factor 0
  if product.2 = 0 then some ⟨product.1, (mulLimbs_length ..).trans value.length_eq⟩ else none

theorem divLimbs_length (limbs : List UInt64) (divisor : UInt64) :
    (divLimbs limbs divisor).1.length = limbs.length := by
  induction limbs with
  | nil => rfl
  | cons limb rest ih => simp [divLimbs, ih]

/-- `Uint256::div_u64`. -/
def divU64 (value : Uint256) (divisor : UInt64) : Option Uint256 :=
  if divisor = 0 then none
  else some ⟨(divLimbs value.limbs divisor).1, (divLimbs_length ..).trans value.length_eq⟩

/-- `Uint256::wrapping_not`. -/
def wrappingNot (value : Uint256) : Uint256 :=
  ⟨value.limbs.map (~~~ ·), (List.length_map _).trans value.length_eq⟩

/-- One bit of the long division: the five-limb remainder and the quotient. -/
def divStep (numerator : Uint256) (divisor : List UInt64)
    (progress : List UInt64 × Uint256) (index : Nat) : List UInt64 × Uint256 :=
  let remainder := doubleLimbs progress.1 (carryWord (numerator.bit index))
  if cmpLimbs remainder divisor ≠ .lt then
    ((subLimbs remainder divisor false).1, progress.2.setBit index)
  else (remainder, progress.2)

/-- `Uint256::div`: shift and subtract with a 257-bit remainder. -/
def div (numerator denominator : Uint256) : Option Uint256 :=
  if denominator.isZero then none
  else some ((List.range 256).reverse.foldl (numerator.divStep (denominator.limbs ++ [0]))
    (List.replicate 5 0, zero)).2

/-- `Uint256::to_compact`. -/
def toCompact (value : Uint256) : UInt32 :=
  let size := (value.bitLen + 7) / 8
  let compact :=
    if size ≤ 3 then (value.lowU64 <<< UInt64.ofNat (8 * (3 - size))).toUInt32
    else (value.shr (8 * (size - 3))).lowU64.toUInt32
  if compact &&& 0x00800000 ≠ 0 then (compact >>> 8) ||| (UInt32.ofNat (size + 1) <<< 24)
  else compact ||| (UInt32.ofNat size <<< 24)

/-- `Uint256::cmp`. -/
def cmp (left right : Uint256) : Ordering := cmpLimbs left.limbs right.limbs

instance : LT Uint256 := ⟨fun left right => left.cmp right = .lt⟩

instance (left right : Uint256) : Decidable (left < right) :=
  inferInstanceAs (Decidable (left.cmp right = .lt))

theorem toNat_lt (value : Uint256) : value.toNat < 2 ^ 256 := by
  have bound := limbsNat_lt value.limbs
  rw [value.length_eq] at bound
  exact bound

@[simp]
theorem toNat_fromLeBytes (bytes : FixedBytes 32) :
    (fromLeBytes bytes).toNat = leNat bytes.bytes :=
  limbsNat_limbsOfBytes 4 bytes.bytes bytes.length_eq

/-- The order of the limbs from the top is numeric order. -/
theorem lt_iff_toNat_lt {left right : Uint256} : left < right ↔ left.toNat < right.toNat := by
  change cmpLimbs left.limbs right.limbs = .lt ↔ _
  rw [cmpLimbs_eq (left.length_eq.trans right.length_eq.symm), compare_lt_iff_lt]
  rfl

/-- A checked sum that exists is the exact sum. -/
theorem toNat_of_checkedAdd {left right sum : Uint256} (added : left.checkedAdd right = some sum) :
    sum.toNat = left.toNat + right.toNat := by
  have exact := addLimbs_exact false (left.length_eq.trans right.length_eq.symm)
  simp only [checkedAdd] at added
  split at added
  · cases added
  · next carry =>
    cases added
    simp only [Bool.not_eq_true] at carry
    rw [carry] at exact
    simpa [toNat] using exact

/-- Adding one leaves a positive value. -/
theorem toNat_of_checkedAddOne {value next : Uint256} (added : value.checkedAddOne = some next) :
    next.toNat = value.toNat + 1 :=
  toNat_of_checkedAdd added

end Uint256

end Usdd.BitcoinBmm

import Usdd.BitcoinBmm.Uint256Laws
/-!
# 256-bit limb arithmetic is exact

Every operation on four limbs is the operation on the numbers they denote. A result is read as an
optional number: the checked operations return it exactly where it fits, a division by a word
fails at zero alone, the order is the numeric one, and both byte orders are inverse pairs that
keep it.
-/
namespace Usdd.Verif

open Usdd.Foundation (FixedBytes)
open Usdd.BitcoinBmm

/-- The carries, the cross-limb shifts and the byte orders of 256-bit values are exact. -/
theorem uint256_arithmetic_exact (left right : Uint256) (factor : UInt64) (shift : Nat)
    (bytes other : FixedBytes 32) :
    (left.checkedAdd right).map Uint256.toNat =
        (if left.toNat + right.toNat < 2 ^ 256 then some (left.toNat + right.toNat) else none) ∧
      (left.checkedMulU64 factor).map Uint256.toNat =
        (if left.toNat * factor.toNat < 2 ^ 256 then some (left.toNat * factor.toNat)
          else none) ∧
      (left.divU64 factor).map Uint256.toNat =
        (if factor = 0 then none else some (left.toNat / factor.toNat)) ∧
      (left.checkedShl shift).map Uint256.toNat =
        (if left.toNat * 2 ^ shift < 2 ^ 256 then some (left.toNat * 2 ^ shift) else none) ∧
      (left.shr shift).toNat = left.toNat / 2 ^ shift ∧
      left.cmp right = compare left.toNat right.toNat ∧
      (Uint256.fromLeBytes left.toLeBytes = left ∧
        (Uint256.fromLeBytes bytes).toLeBytes = bytes ∧
        Uint256.fromBeBytes left.toBeBytes = left ∧
        (Uint256.fromBeBytes bytes).toBeBytes = bytes) ∧
      (left.toBeBytes < right.toBeBytes ↔ left < right) ∧
      (Uint256.fromBeBytes bytes < Uint256.fromBeBytes other ↔ bytes < other) ∧
      (left.toLeBytes.bytes.reverse < right.toLeBytes.bytes.reverse ↔ left < right) ∧
      (Uint256.fromLeBytes bytes < Uint256.fromLeBytes other ↔
        bytes.bytes.reverse < other.bytes.reverse) := by
  refine ⟨?_, ?_, ?_, ?_, ?_, ?_, ?_, ?_, ?_, ?_, ?_⟩
  · exact Uint256.map_toNat_of_exact (fun _ => Uint256.checkedAdd_eq_some)
  · exact Uint256.map_toNat_of_exact (fun _ => Uint256.checkedMulU64_eq_some)
  · exact left.map_toNat_divU64 factor
  · exact left.map_toNat_checkedShl shift
  · exact left.toNat_shr shift
  · exact left.cmp_eq_compare right
  · exact ⟨left.fromLeBytes_toLeBytes, Uint256.toLeBytes_fromLeBytes bytes,
      left.fromBeBytes_toBeBytes, Uint256.toBeBytes_fromBeBytes bytes⟩
  · exact Uint256.toBeBytes_lt_iff
  · exact Uint256.fromBeBytes_lt_iff
  · exact Uint256.toLeBytes_reverse_lt_iff
  · exact Uint256.fromLeBytes_lt_iff

-- A shift by whole limbs, one across a limb, and the byte that leads each order.
example :
    (Uint256.fromLimbsLe 3 0 0 0).checkedShl 64 = some (.fromLimbsLe 0 3 0 0) ∧
      (Uint256.fromLimbsLe 3 0 0 0).checkedShl 63 =
        some (.fromLimbsLe 0x8000000000000000 1 0 0) ∧
      (Uint256.fromLimbsLe 3 0 0 0).checkedShl 255 = none ∧
      (Uint256.fromLimbsLe 1 0 0 0).toBeBytes.bytes.getLast? = some 1 := by
  decide

end Usdd.Verif

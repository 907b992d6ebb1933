import Mathlib.Tactic
/-!
# Encodings by a mantissa and an exponent

A mantissa and an exponent denote the mantissa scaled by a power of the base, the point standing a
fixed number of digits up, and digits below one are dropped. A mantissa is normal when it lies in a
window one digit wide. Every positive number has at most one normal mantissa and exponent; they
denote the largest encodable number not above it, and encode what they denote.
-/
namespace Usdd.Foundation

/-- The number a mantissa and an exponent denote. -/
def floatValue (base point mantissa exponent : Nat) : Nat :=
  mantissa * base ^ exponent / base ^ point

/-- A mantissa in the window from `low`, holding the leading digits of a value. -/
structure Normalised (base point low value mantissa exponent : Nat) : Prop where
  floor : mantissa = value * base ^ point / base ^ exponent
  lower : low ≤ mantissa
  upper : mantissa < low * base

variable {base point low value mantissa exponent mantissa' exponent' : Nat}

/-- With the point no higher than the exponent, no digit is dropped. -/
theorem floatValue_of_le (positive : 0 < base) (above : point ≤ exponent) :
    floatValue base point mantissa exponent = mantissa * base ^ (exponent - point) := by
  have split : base ^ exponent = base ^ (exponent - point) * base ^ point := by
    rw [← Nat.pow_add, Nat.sub_add_cancel above]
  rw [floatValue, split, ← Nat.mul_assoc, Nat.mul_div_cancel _ (Nat.pow_pos positive)]

/-- With the point above the exponent, the mantissa loses its low digits. -/
theorem floatValue_of_ge (positive : 0 < base) (below : exponent ≤ point) :
    floatValue base point mantissa exponent = mantissa / base ^ (point - exponent) := by
  have split : base ^ point = base ^ (point - exponent) * base ^ exponent := by
    rw [← Nat.pow_add, Nat.sub_add_cancel below]
  rw [floatValue, split, Nat.mul_div_mul_right _ _ (Nat.pow_pos positive)]

namespace Normalised

/-- A value with room below the point is denoted exactly. -/
theorem exact (positive : 0 < base) (below : exponent ≤ point)
    (normal : Normalised base point low value mantissa exponent) :
    floatValue base point mantissa exponent = value := by
  have split : base ^ point = base ^ (point - exponent) * base ^ exponent := by
    rw [← Nat.pow_add, Nat.sub_add_cancel below]
  have whole : mantissa = value * base ^ (point - exponent) := by
    rw [normal.floor, split, ← Nat.mul_assoc, Nat.mul_div_cancel _ (Nat.pow_pos positive)]
  rw [floatValue_of_ge positive below, whole, Nat.mul_div_cancel _ (Nat.pow_pos positive)]

/-- What is denoted is not above the value. -/
theorem value_le (positive : 0 < base)
    (normal : Normalised base point low value mantissa exponent) :
    floatValue base point mantissa exponent ≤ value := by
  have kept : mantissa * base ^ exponent ≤ value * base ^ point := by
    rw [normal.floor]
    exact Nat.div_mul_le_self _ _
  rw [floatValue]
  calc mantissa * base ^ exponent / base ^ point
      ≤ value * base ^ point / base ^ point := Nat.div_le_div_right kept
    _ = value := Nat.mul_div_cancel _ (Nat.pow_pos positive)

/-- What is denoted is positive with the value. -/
theorem value_pos (positive : 0 < base) (lowPositive : 0 < low) (some : 0 < value)
    (normal : Normalised base point low value mantissa exponent) :
    0 < floatValue base point mantissa exponent := by
  by_cases small : exponent ≤ point
  · rw [normal.exact positive small]
    exact some
  · rw [floatValue_of_le positive (by omega)]
    exact Nat.mul_pos (lowPositive.trans_le normal.lower) (Nat.pow_pos positive)

/-- No encodable number between what is denoted and the value. -/
theorem largest (positive : 0 < base)
    (normal : Normalised base point low value mantissa exponent)
    (upper : mantissa' < low * base)
    (below : floatValue base point mantissa' exponent' ≤ value) :
    floatValue base point mantissa' exponent' ≤ floatValue base point mantissa exponent := by
  by_cases smaller : exponent' < exponent
  · -- A smaller exponent cannot reach the window's lower end.
    have scaled : mantissa' * base ^ exponent' ≤ mantissa * base ^ exponent := by
      calc mantissa' * base ^ exponent'
          ≤ low * base * base ^ exponent' := Nat.mul_le_mul_right _ upper.le
        _ = low * base ^ (exponent' + 1) := by rw [Nat.pow_succ]; ring
        _ ≤ low * base ^ exponent :=
            Nat.mul_le_mul_left _ (Nat.pow_le_pow_right positive smaller)
        _ ≤ mantissa * base ^ exponent := Nat.mul_le_mul_right _ normal.lower
    exact Nat.div_le_div_right scaled
  · by_cases small : exponent ≤ point
    · rw [normal.exact positive small]
      exact below
    · -- A multiple of the exponent's power that stays below the value stays below its floor.
      have split : base ^ exponent' = base ^ (exponent' - exponent) * base ^ exponent := by
        rw [← Nat.pow_add, Nat.sub_add_cancel (Nat.not_lt.mp smaller)]
      have whole : mantissa' * base ^ exponent' =
          floatValue base point mantissa' exponent' * base ^ point := by
        rw [floatValue_of_le positive (by omega), Nat.mul_assoc, ← Nat.pow_add]
        congr 2
        omega
      have floored : mantissa' * base ^ (exponent' - exponent) ≤ mantissa := by
        rw [normal.floor]
        apply (Nat.le_div_iff_mul_le (Nat.pow_pos positive)).mpr
        rw [Nat.mul_assoc, ← split, whole]
        exact Nat.mul_le_mul_right _ below
      have scaled : mantissa' * base ^ exponent' ≤ mantissa * base ^ exponent := by
        rw [split, ← Nat.mul_assoc]
        exact Nat.mul_le_mul_right _ floored
      exact Nat.div_le_div_right scaled

/-- What is denoted has the same mantissa and exponent. -/
theorem denoted (positive : 0 < base)
    (normal : Normalised base point low value mantissa exponent) :
    Normalised base point low (floatValue base point mantissa exponent) mantissa exponent := by
  by_cases small : exponent ≤ point
  · rw [normal.exact positive small]
    exact normal
  · have above : point ≤ exponent := by omega
    constructor
    · rw [floatValue_of_le positive above, Nat.mul_assoc, ← Nat.pow_add,
        Nat.sub_add_cancel above, Nat.mul_div_cancel _ (Nat.pow_pos positive)]
    · exact normal.lower
    · exact normal.upper

/-- The window holds the leading digits for one exponent only. -/
theorem exponent_le (positive : 0 < base)
    (normal : Normalised base point low value mantissa exponent)
    (normal' : Normalised base point low value mantissa' exponent') : exponent' ≤ exponent := by
  by_contra larger
  have below : value * base ^ point < low * base * base ^ exponent :=
    (Nat.div_lt_iff_lt_mul (Nat.pow_pos positive)).mp (normal.floor ▸ normal.upper)
  have above : low * base ^ exponent' ≤ value * base ^ point :=
    (Nat.le_div_iff_mul_le (Nat.pow_pos positive)).mp (normal'.floor ▸ normal'.lower)
  have scale : low * base * base ^ exponent ≤ low * base ^ exponent' := by
    rw [Nat.mul_assoc, ← Nat.pow_succ']
    exact Nat.mul_le_mul_left _ (Nat.pow_le_pow_right positive (by omega))
  omega

/-- A value has one normal mantissa and exponent. -/
theorem unique (positive : 0 < base)
    (normal : Normalised base point low value mantissa exponent)
    (normal' : Normalised base point low value mantissa' exponent') :
    mantissa' = mantissa ∧ exponent' = exponent := by
  have same : exponent' = exponent := Nat.le_antisymm (normal.exponent_le positive normal')
    (normal'.exponent_le positive normal)
  exact ⟨by rw [normal'.floor, normal.floor, same], same⟩

end Normalised

end Usdd.Foundation

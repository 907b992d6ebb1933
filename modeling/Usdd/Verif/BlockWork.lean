import Usdd.BitcoinBmm.Headers
import Usdd.BitcoinBmm.Uint256Laws
/-!
# The work of a block

The work of a target is the number of hashes expected until one meets it. Forming two to the 256th
power would overflow, so the source divides the complement of the target and adds one; the long
division underneath keeps a remainder of five limbs.
-/
namespace Usdd.Verif

open Usdd.Foundation hiding Uint256
open Usdd.BitcoinBmm

/-- Dividing the complement and adding one divides two to the 256th power. -/
theorem complement_div_succ {complement target power : Nat}
    (total : complement + target + 1 = power) :
    complement / (target + 1) + 1 = power / (target + 1) := by
  rw [← total, Nat.add_assoc, Nat.add_div_right complement (Nat.succ_pos target)]

/-- The work of a target exists where its successor and the quotient fit, and is the quotient. -/
theorem blockWork_eq_ok {target work : Uint256} :
    blockWork target = .ok work ↔
      target.toNat + 1 < 2 ^ 256 ∧ 2 ^ 256 / (target.toNat + 1) = work.toNat := by
  have complement := complement_div_succ target.toNat_wrappingNot
  simp only [blockWork, bind_eq_ok, okOr_eq_ok, Option.bind_eq_some_iff,
    Uint256.checkedAddOne_eq_some]
  constructor
  · rintro ⟨denominator, next, quotient, divided, added⟩
    have positive : 0 < denominator.toNat := by omega
    have exact := (Uint256.div_eq_some positive).mp divided
    have fits := denominator.toNat_lt
    rw [← next] at exact fits
    exact ⟨fits, by omega⟩
  · rintro ⟨room, total⟩
    obtain ⟨denominator, next⟩ := Uint256.exists_toNat room
    have positive : 0 < denominator.toNat := by omega
    have small : target.wrappingNot.toNat / denominator.toNat < 2 ^ 256 :=
      (Nat.div_le_self _ _).trans_lt target.wrappingNot.toNat_lt
    obtain ⟨quotient, divided⟩ := Uint256.exists_toNat small
    refine ⟨denominator, next.symm, quotient, (Uint256.div_eq_some positive).mpr divided.symm, ?_⟩
    rw [divided, next, complement, total]

/-- Every positive target below the largest value has a work. -/
theorem exists_blockWork {target : Uint256} (positive : 0 < target.toNat)
    (below : target.toNat < 2 ^ 256 - 1) :
    ∃ work, blockWork target = .ok work ∧ work.toNat = 2 ^ 256 / (target.toNat + 1) := by
  have small : 2 ^ 256 / (target.toNat + 1) < 2 ^ 256 := Nat.div_lt_self (by decide) (by omega)
  obtain ⟨work, exact⟩ := Uint256.exists_toNat small
  exact ⟨work, blockWork_eq_ok.mpr ⟨by omega, exact.symm⟩, exact⟩

/-- The shifted remainder of every bit of the long division stays below twice the divisor, and
taking the divisor away from it borrows nothing. -/
theorem long_division_remainder (numerator : Uint256) {denominator : Uint256}
    (positive : 0 < denominator.toNat) {count : Nat} (inside : count < 256) :
    let shifted := doubleLimbs (numerator.divProgress denominator count).1
      (carryWord (numerator.bit (255 - count)))
    limbsNat shifted < 2 * denominator.toNat ∧
      (cmpLimbs shifted (denominator.limbs ++ [0]) ≠ .lt →
        (subLimbs shifted (denominator.limbs ++ [0]) false).2 = false) := by
  intro shifted
  have kept := Uint256.divProgress_invariant numerator positive inside.le
  have index : 256 - count = 255 - count + 1 := by omega
  rw [index] at kept
  have length : shifted.length = 5 := by rw [doubleLimbs_length, kept.length]
  constructor
  · exact (kept.shifted positive).2
  · intro reached
    have enough := (Uint256.cmp_divisor length).mp reached
    rw [← Uint256.limbsNat_divisor] at enough
    exact (subLimbs_of_le (length.trans (Uint256.divisor_length _).symm) enough).1

/-- Block work is exact: it is the floor of two to the 256th power over the successor of the
target, by a long division that returns the floor quotient without a borrow at any bit, and a
larger target has no more work, and some. -/
theorem block_work_exact :
    (∀ target : Uint256, 0 < target.toNat → target.toNat < 2 ^ 256 - 1 →
      ∃ work, blockWork target = .ok work ∧ work.toNat = 2 ^ 256 / (target.toNat + 1)) ∧
    (∀ numerator denominator : Uint256, 0 < denominator.toNat →
      (∃ quotient, numerator.div denominator = some quotient ∧
        quotient.toNat = numerator.toNat / denominator.toNat) ∧
      numerator.div denominator = some (numerator.divProgress denominator 256).2 ∧
      ∀ count < 256,
        numerator.divProgress denominator (count + 1) =
          numerator.divStep (denominator.limbs ++ [0]) (numerator.divProgress denominator count)
            (255 - count) ∧
        let shifted := doubleLimbs (numerator.divProgress denominator count).1
          (carryWord (numerator.bit (255 - count)))
        limbsNat shifted < 2 * denominator.toNat ∧
          (cmpLimbs shifted (denominator.limbs ++ [0]) ≠ .lt →
            (subLimbs shifted (denominator.limbs ++ [0]) false).2 = false)) ∧
    (∀ (lower higher : Uint256), 0 < lower.toNat → lower.toNat ≤ higher.toNat →
      higher.toNat < 2 ^ 256 - 1 →
      ∃ more less, blockWork lower = .ok more ∧ blockWork higher = .ok less ∧
        less.toNat ≤ more.toNat ∧ 1 ≤ less.toNat) := by
  refine ⟨fun target positive below => exists_blockWork positive below, ?_, ?_⟩
  · intro numerator denominator positive
    have small : numerator.toNat / denominator.toNat < 2 ^ 256 :=
      (Nat.div_le_self _ _).trans_lt numerator.toNat_lt
    obtain ⟨quotient, exact⟩ := Uint256.exists_toNat small
    refine ⟨⟨quotient, (Uint256.div_eq_some positive).mpr exact.symm, exact⟩, ?_, ?_⟩
    · exact Uint256.div_eq_divProgress numerator positive
    · intro count inside
      exact ⟨Uint256.divProgress_succ numerator denominator inside,
        long_division_remainder numerator positive inside⟩
  · intro lower higher positive ordered below
    obtain ⟨more, lowerWork, moreExact⟩ := exists_blockWork positive (ordered.trans_lt below)
    obtain ⟨less, higherWork, lessExact⟩ :=
      exists_blockWork (positive.trans_le ordered) below
    refine ⟨more, less, lowerWork, higherWork, ?_, ?_⟩
    · rw [moreExact, lessExact]
      exact Nat.div_le_div_left (Nat.succ_le_succ ordered) (Nat.succ_pos _)
    · exact blockWork_pos higherWork

/-- The target of the smallest difficulty a test network starts with. -/
theorem block_work_exact_sample :
    (∃ work, blockWork (.fromLimbsLe 0 0 0 0x7fffff0000000000) = .ok work ∧
      work.toNat = 2) ∧
    (∃ quotient, Uint256.max.div (.fromLimbsLe 0 0 0 0x8000000000000001) = some quotient ∧
      quotient.toNat = 1) ∧
    ∃ more less, blockWork (.fromLimbsLe 1 0 0 0) = .ok more ∧
      blockWork (.fromLimbsLe 2 0 0 0) = .ok less ∧ less.toNat ≤ more.toNat := by
  refine ⟨?_, ?_, ?_⟩
  · obtain ⟨work, worked, exact⟩ := block_work_exact.1 (.fromLimbsLe 0 0 0 0x7fffff0000000000)
      (by decide) (by decide)
    exact ⟨work, worked, exact.trans (by decide)⟩
  · obtain ⟨quotient, divided, exact⟩ :=
      (block_work_exact.2.1 .max (.fromLimbsLe 0 0 0 0x8000000000000001) (by decide)).1
    exact ⟨quotient, divided, exact.trans (by decide)⟩
  · obtain ⟨more, less, lower, higher, ordered, -⟩ := block_work_exact.2.2
      (.fromLimbsLe 1 0 0 0) (.fromLimbsLe 2 0 0 0) (by decide) (by decide) (by decide)
    exact ⟨more, less, lower, higher, ordered⟩

end Usdd.Verif

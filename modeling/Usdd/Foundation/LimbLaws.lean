import Usdd.Foundation.Limbs
import Mathlib.Data.Nat.Size
/-!
# The limb loops are exact

Subtraction, doubling, multiplication and division limb by limb give the difference, the double,
the product and the quotient of the numbers denoted, the borrow or carry that leaves the last
limb being what does not fit. Bits of a number are bits of its limbs, so shifts and single-bit
updates of the limbs are read off position by position.
-/
namespace Usdd.Foundation

section Words

/-- The wrapped difference and the borrow together are the exact difference. -/
theorem overflowingSub_exact (left right : UInt64) :
    (overflowingSub left right).1.toNat + right.toNat =
      left.toNat + 2 ^ 64 * (overflowingSub left right).2.toNat := by
  have leftFits := left.toNat_lt
  have rightFits := right.toNat_lt
  simp only [overflowingSub, UInt64.toNat_sub]
  by_cases wraps : left.toNat < right.toNat
  · simp only [wraps, decide_true, Bool.toNat_true]
    omega
  · simp only [wraps, decide_false, Bool.toNat_false]
    omega

/-- Shifting a bit into a word leaves the low 63 bits doubled. -/
theorem toNat_shiftIn (limb carry : UInt64) (bit : carry.toNat ≤ 1) :
    (limb <<< 1 ||| carry).toNat = 2 * (limb.toNat % 2 ^ 63) + carry.toNat := by
  have shifted : (limb <<< 1).toNat = 2 ^ 1 * (limb.toNat % 2 ^ 63) := by
    rw [UInt64.toNat_shiftLeft, Nat.shiftLeft_eq]
    change limb.toNat * 2 ^ 1 % 2 ^ 64 = _
    omega
  have fits : carry.toNat < 2 ^ 1 := by omega
  rw [UInt64.toNat_or, shifted, ← Nat.two_pow_add_eq_or_of_lt fits]

/-- The bit a doubling pushes out of a word. -/
theorem toNat_shiftOut (limb : UInt64) : (limb >>> 63).toNat = limb.toNat / 2 ^ 63 := by
  rw [UInt64.toNat_shiftRight, Nat.shiftRight_eq_div_pow]
  rfl

/-- Complementing a word counts down from the largest. -/
theorem toNat_not_add (limb : UInt64) : (~~~limb).toNat + limb.toNat + 1 = 2 ^ 64 := by
  have fits := limb.toNat_lt
  rw [UInt64.toNat_not]
  change 2 ^ 64 - 1 - limb.toNat + limb.toNat + 1 = 2 ^ 64
  omega

end Words

section Loops

/-- One limb more multiplies the capacity by that of a limb. -/
theorem limbCapacity_succ (limb : UInt64) (rest : List UInt64) :
    2 ^ (64 * (limb :: rest).length) = 2 ^ 64 * 2 ^ (64 * rest.length) := by
  rw [List.length_cons, Nat.mul_succ, Nat.pow_add, Nat.mul_comm]

/-- The difference of the limbs and the last borrow together are the exact difference. -/
theorem subLimbs_exact {left right : List UInt64} (borrow : Bool)
    (lengths : left.length = right.length) :
    limbsNat (subLimbs left right borrow).1 + limbsNat right + borrow.toNat =
      limbsNat left + 2 ^ (64 * left.length) * (subLimbs left right borrow).2.toNat := by
  induction left, right, lengths using sameLength_induction generalizing borrow with
  | nil => simp [subLimbs, limbsNat]
  | cons limb rest limb' rest' tails ih =>
    have first := overflowingSub_exact limb limb'
    have second := overflowingSub_exact (overflowingSub limb limb').1 (carryWord borrow)
    have firstFits := (overflowingSub limb limb').1.toNat_lt
    have secondFits :=
      (overflowingSub (overflowingSub limb limb').1 (carryWord borrow)).1.toNat_lt
    have limbFits := limb.toNat_lt
    have limbFits' := limb'.toNat_lt
    have incoming : borrow.toNat ≤ 1 := Bool.toNat_le borrow
    have others := ih ((overflowingSub limb limb').2 ||
      (overflowingSub (overflowingSub limb limb').1 (carryWord borrow)).2)
    rw [carryWord_toNat] at second
    -- The two borrows cannot both be set, so their disjunction is their sum.
    have one : ((overflowingSub limb limb').2 ||
        (overflowingSub (overflowingSub limb limb').1 (carryWord borrow)).2).toNat =
        (overflowingSub limb limb').2.toNat +
          (overflowingSub (overflowingSub limb limb').1 (carryWord borrow)).2.toNat := by
      cases h : (overflowingSub limb limb').2 <;>
        cases h' : (overflowingSub (overflowingSub limb limb').1 (carryWord borrow)).2 <;>
        simp only [h, h', Bool.toNat_true, Bool.toNat_false] at first second ⊢ <;>
        first | rfl | omega
    rw [one] at others
    rw [limbCapacity_succ, subLimbs, limbsNat, limbsNat, limbsNat]
    linear_combination (2 ^ 64) * others + first + second

@[simp]
theorem subLimbs_length {left right : List UInt64} (borrow : Bool)
    (lengths : left.length = right.length) :
    (subLimbs left right borrow).1.length = left.length := by
  induction left, right, lengths using sameLength_induction generalizing borrow with
  | nil => rfl
  | cons limb rest limb' rest' tails ih => simp [subLimbs, ih]

/-- Taking away no more than there is borrows nothing and gives the difference. -/
theorem subLimbs_of_le {left right : List UInt64} (lengths : left.length = right.length)
    (enough : limbsNat right ≤ limbsNat left) :
    (subLimbs left right false).2 = false ∧
      limbsNat (subLimbs left right false).1 = limbsNat left - limbsNat right := by
  have exact := subLimbs_exact false lengths
  have fits := limbsNat_lt (subLimbs left right false).1
  rw [subLimbs_length false lengths] at fits
  cases borrowed : (subLimbs left right false).2 with
  | false =>
    rw [borrowed, Bool.toNat_false] at exact
    exact ⟨rfl, by omega⟩
  | true =>
    rw [borrowed, Bool.toNat_true, Bool.toNat_false] at exact
    omega

@[simp]
theorem doubleLimbs_length (limbs : List UInt64) (carry : UInt64) :
    (doubleLimbs limbs carry).length = limbs.length := by
  induction limbs generalizing carry with
  | nil => rfl
  | cons limb rest ih => simp [doubleLimbs, ih]

/-- Doubling and adding the bit shifted in, as far as the limbs hold it. -/
theorem limbsNat_doubleLimbs (limbs : List UInt64) (carry : UInt64) (bit : carry.toNat ≤ 1) :
    limbsNat (doubleLimbs limbs carry) =
      (2 * limbsNat limbs + carry.toNat) % 2 ^ (64 * limbs.length) := by
  induction limbs generalizing carry with
  | nil => simp [doubleLimbs, limbsNat, Nat.mod_one]
  | cons limb rest ih =>
    have fits := limb.toNat_lt
    have out := toNat_shiftOut limb
    have outBit : (limb >>> 63).toNat ≤ 1 := by omega
    have low : (2 * (limb.toNat + 2 ^ 64 * limbsNat rest) + carry.toNat) % 2 ^ 64 =
        2 * (limb.toNat % 2 ^ 63) + carry.toNat := by omega
    have high : (2 * (limb.toNat + 2 ^ 64 * limbsNat rest) + carry.toNat) / 2 ^ 64 =
        2 * limbsNat rest + limb.toNat / 2 ^ 63 := by omega
    rw [limbCapacity_succ, doubleLimbs, limbsNat, limbsNat, toNat_shiftIn limb carry bit,
      ih _ outBit, out, Nat.mod_mul, low, high]

/-- The product of the limbs and the last carry together are the exact product. -/
theorem mulLimbs_exact (limbs : List UInt64) (factor : UInt64) (carry : Nat) :
    limbsNat (mulLimbs limbs factor carry).1 +
        2 ^ (64 * limbs.length) * (mulLimbs limbs factor carry).2 =
      limbsNat limbs * factor.toNat + carry := by
  induction limbs generalizing carry with
  | nil => simp [mulLimbs, limbsNat]
  | cons limb rest ih =>
    have others := ih ((limb.toNat * factor.toNat + carry) / 2 ^ 64)
    have split := Nat.mod_add_div (limb.toNat * factor.toNat + carry) (2 ^ 64)
    rw [limbCapacity_succ, mulLimbs, limbsNat, limbsNat, UInt64.toNat_ofNat']
    linear_combination (2 ^ 64) * others + split

/-- Dividing from the top limb down gives the quotient and the remainder. -/
theorem divLimbs_exact (limbs : List UInt64) {divisor : UInt64} (positive : 0 < divisor.toNat) :
    limbsNat (divLimbs limbs divisor).1 * divisor.toNat + (divLimbs limbs divisor).2 =
      limbsNat limbs ∧ (divLimbs limbs divisor).2 < divisor.toNat := by
  induction limbs with
  | nil => exact ⟨by simp [divLimbs, limbsNat], positive⟩
  | cons limb rest ih =>
    obtain ⟨others, small⟩ := ih
    have limbFits := limb.toNat_lt
    -- The remainder is below the divisor, so one quotient digit fits a limb.
    have digit : ((divLimbs rest divisor).2 * 2 ^ 64 + limb.toNat) / divisor.toNat < 2 ^ 64 := by
      apply (Nat.div_lt_iff_lt_mul positive).mpr
      calc (divLimbs rest divisor).2 * 2 ^ 64 + limb.toNat
          < ((divLimbs rest divisor).2 + 1) * 2 ^ 64 := by omega
        _ ≤ divisor.toNat * 2 ^ 64 := Nat.mul_le_mul_right _ small
        _ = 2 ^ 64 * divisor.toNat := Nat.mul_comm _ _
    have split := Nat.div_add_mod ((divLimbs rest divisor).2 * 2 ^ 64 + limb.toNat) divisor.toNat
    constructor
    · rw [divLimbs, limbsNat, limbsNat, UInt64.toNat_ofNat', Nat.mod_eq_of_lt digit]
      linear_combination (2 ^ 64) * others + split
    · exact Nat.mod_lt _ positive

/-- The quotient limbs denote the floor quotient. -/
theorem limbsNat_divLimbs (limbs : List UInt64) {divisor : UInt64}
    (positive : 0 < divisor.toNat) :
    limbsNat (divLimbs limbs divisor).1 = limbsNat limbs / divisor.toNat := by
  have exact := divLimbs_exact limbs positive
  symm
  apply Nat.div_eq_of_lt_le
  · omega
  · rw [Nat.succ_mul]
    omega

/-- Complementing every limb counts down from the largest number. -/
theorem limbsNat_map_not (limbs : List UInt64) :
    limbsNat (limbs.map (~~~ ·)) + limbsNat limbs + 1 = 2 ^ (64 * limbs.length) := by
  induction limbs with
  | nil => simp [limbsNat]
  | cons limb rest ih =>
    have first := toNat_not_add limb
    rw [limbCapacity_succ, List.map_cons, limbsNat, limbsNat]
    linear_combination (2 ^ 64) * ih + first

@[simp]
theorem limbsNat_replicate_zero (count : Nat) : limbsNat (List.replicate count 0) = 0 := by
  induction count with
  | zero => rfl
  | succ count ih => simp [List.replicate_succ, limbsNat, ih]

/-- Only zero limbs denote zero. -/
theorem limbsNat_eq_zero {limbs : List UInt64} :
    limbsNat limbs = 0 ↔ limbs.all (· == 0) = true := by
  induction limbs with
  | nil => simp [limbsNat]
  | cons limb rest ih =>
    rw [limbsNat, List.all_cons, Bool.and_eq_true, ← ih, beq_iff_eq, ← UInt64.toNat_inj,
      UInt64.toNat_zero]
    omega

/-- As many limbs denote one number only when they are the same. -/
theorem limbsNat_inj {left right : List UInt64} (lengths : left.length = right.length) :
    limbsNat left = limbsNat right ↔ left = right := by
  constructor
  · intro same
    induction left, right, lengths using sameLength_induction with
    | nil => rfl
    | cons limb rest limb' rest' tails ih =>
      have fits := limb.toNat_lt
      have fits' := limb'.toNat_lt
      rw [limbsNat, limbsNat] at same
      have first : limb = limb' := UInt64.toNat_inj.mp (by omega)
      have others : rest = rest' := ih (by omega)
      rw [first, others]
  · intro same
    rw [same]

/-- A concatenation denotes its first part plus the shifted second. -/
theorem limbsNat_append (first second : List UInt64) :
    limbsNat (first ++ second) = limbsNat first + 2 ^ (64 * first.length) * limbsNat second := by
  induction first with
  | nil => simp [limbsNat]
  | cons limb rest ih =>
    rw [limbCapacity_succ, List.cons_append, limbsNat, limbsNat, ih]
    ring

end Loops

section Bits

/-- A bit of the number is the bit of the limb it falls in. -/
theorem testBit_limbsNat (limbs : List UInt64) (index : Nat) :
    (limbsNat limbs).testBit index =
      (limbs.getD (index / 64) 0).toNat.testBit (index % 64) := by
  induction limbs generalizing index with
  | nil => simp [limbsNat]
  | cons limb rest ih =>
    rw [limbsNat, Nat.add_comm, Nat.testBit_two_pow_mul_add _ limb.toNat_lt]
    by_cases first : index < 64
    · rw [if_pos first, Nat.div_eq_of_lt first, Nat.mod_eq_of_lt first, List.getD_cons_zero]
    · have place : index / 64 = (index - 64) / 64 + 1 := by omega
      have offset : index % 64 = (index - 64) % 64 := by omega
      rw [if_neg first, place, offset, List.getD_cons_succ, ih]

/-- A word has no bit at or above 64. -/
theorem testBit_word_high (word : UInt64) {index : Nat} (high : 64 ≤ index) :
    word.toNat.testBit index = false :=
  Nat.testBit_lt_two_pow (word.toNat_lt.trans_le (Nat.pow_le_pow_right (by decide) high))

/-- A bit of a word shifted to the right. -/
theorem testBit_word_shiftRight (word : UInt64) {shift : Nat} (small : shift < 64)
    (index : Nat) :
    (word >>> UInt64.ofNat shift).toNat.testBit index = word.toNat.testBit (shift + index) := by
  have shiftFits : (UInt64.ofNat shift).toNat % 64 = shift := by
    rw [UInt64.toNat_ofNat_of_lt' (by change shift < 2 ^ 64; omega), Nat.mod_eq_of_lt small]
  rw [UInt64.toNat_shiftRight, shiftFits, Nat.testBit_shiftRight]

/-- A bit of a word shifted to the left. -/
theorem testBit_word_shiftLeft (word : UInt64) {shift : Nat} (small : shift < 64)
    (index : Nat) :
    (word <<< UInt64.ofNat shift).toNat.testBit index =
      (decide (index < 64) && decide (shift ≤ index) && word.toNat.testBit (index - shift)) := by
  have shiftFits : (UInt64.ofNat shift).toNat % 64 = shift := by
    rw [UInt64.toNat_ofNat_of_lt' (by change shift < 2 ^ 64; omega), Nat.mod_eq_of_lt small]
  rw [UInt64.toNat_shiftLeft, shiftFits, Nat.testBit_mod_two_pow, Nat.testBit_shiftLeft,
    Bool.and_assoc]

/-- The limb at a position of an updated list. -/
theorem getD_set (limbs : List UInt64) (place : Nat) (inside : place < limbs.length)
    (limb : UInt64) (index : Nat) :
    (limbs.set place limb).getD index 0 = if index = place then limb else limbs.getD index 0 := by
  rw [List.getD_eq_getElem?_getD, List.getD_eq_getElem?_getD, List.getElem?_set]
  by_cases here : index = place
  · subst here
    rw [if_pos rfl, if_pos inside, if_pos rfl, Option.getD_some]
  · rw [if_neg (Ne.symm here), if_neg here]

/-- Joining a word to one limb joins its bits to the number at the limb's place. -/
theorem limbsNat_setOr (limbs : List UInt64) {place : Nat} (inside : place < limbs.length)
    (word : UInt64) :
    limbsNat (limbs.set place (limbs.getD place 0 ||| word)) =
      limbsNat limbs ||| word.toNat <<< (64 * place) := by
  apply Nat.eq_of_testBit_eq
  intro index
  rw [testBit_limbsNat, getD_set _ _ inside, Nat.testBit_or, testBit_limbsNat,
    Nat.testBit_shiftLeft]
  by_cases here : index / 64 = place
  · have offset : index - 64 * place = index % 64 := by omega
    have above : 64 * place ≤ index := by omega
    rw [if_pos here, here, UInt64.toNat_or, Nat.testBit_or, offset, decide_eq_true above,
      Bool.true_and]
  · rw [if_neg here]
    by_cases above : 64 * place ≤ index
    · have beyond : word.toNat.testBit (index - 64 * place) = false :=
        testBit_word_high word (by omega)
      rw [beyond, Bool.and_false, Bool.or_false]
    · rw [decide_eq_false above, Bool.false_and, Bool.or_false]

/-- Setting one bit of one limb sets that bit of the number. -/
theorem limbsNat_setBit (limbs : List UInt64) {index : Nat} (inside : index / 64 < limbs.length) :
    limbsNat (limbs.set (index / 64)
        (limbs.getD (index / 64) 0 ||| (1 <<< UInt64.ofNat (index % 64)))) =
      limbsNat limbs ||| 2 ^ index := by
  have small : index % 64 < 64 := Nat.mod_lt _ (by decide)
  have single : (1 <<< UInt64.ofNat (index % 64) : UInt64).toNat = 2 ^ (index % 64) := by
    apply Nat.eq_of_testBit_eq
    intro other
    rw [testBit_word_shiftLeft 1 small, show (1 : UInt64).toNat = 2 ^ 0 from rfl,
      Nat.testBit_two_pow, Nat.testBit_two_pow, Bool.eq_iff_iff]
    simp only [Bool.and_eq_true, decide_eq_true_eq]
    omega
  have place : index % 64 + 64 * (index / 64) = index := Nat.mod_add_div index 64
  rw [limbsNat_setOr _ inside, single, Nat.shiftLeft_eq, ← Nat.pow_add, place]

/-- A word shifted left fills the two limbs it reaches into. -/
theorem toNat_shiftLeft_split (word : UInt64) {shift : Nat} (small : shift < 64)
    (positive : 0 < shift) :
    (word <<< UInt64.ofNat shift).toNat ||| (word >>> UInt64.ofNat (64 - shift)).toNat <<< 64 =
      word.toNat <<< shift := by
  apply Nat.eq_of_testBit_eq
  intro index
  rw [Nat.testBit_or, testBit_word_shiftLeft word small, Nat.testBit_shiftLeft,
    testBit_word_shiftRight word (by omega), Nat.testBit_shiftLeft]
  by_cases low : index < 64
  · have notHigh : ¬ 64 ≤ index := by omega
    rw [decide_eq_true low, decide_eq_false notHigh, Bool.true_and, Bool.false_and, Bool.or_false]
  · have high : 64 ≤ index := by omega
    have reached : shift ≤ index := by omega
    have place : 64 - shift + (index - 64) = index - shift := by omega
    rw [decide_eq_false low, decide_eq_true high, decide_eq_true reached, place, Bool.false_and,
      Bool.false_and, Bool.false_or]

/-- A number shifted past the end of the digits leaves nothing in them. -/
theorem shiftLeft_mod_of_le {number shift capacity : Nat} (beyond : capacity ≤ shift) :
    number <<< shift % 2 ^ capacity = 0 := by
  have divides : 2 ^ capacity ∣ number * 2 ^ shift :=
    Dvd.dvd.mul_left (Nat.pow_dvd_pow 2 beyond) number
  rw [Nat.shiftLeft_eq]
  exact Nat.mod_eq_zero_of_dvd divides

/-- A number shifted within the digits loses nothing. -/
theorem shiftLeft_mod_of_lt {number width shift capacity : Nat} (fits : number < 2 ^ width)
    (inside : width + shift ≤ capacity) : number <<< shift % 2 ^ capacity = number <<< shift := by
  apply Nat.mod_eq_of_lt
  rw [Nat.shiftLeft_eq]
  calc number * 2 ^ shift
      < 2 ^ width * 2 ^ shift := Nat.mul_lt_mul_of_pos_right fits (Nat.two_pow_pos shift)
    _ = 2 ^ (width + shift) := (Nat.pow_add ..).symm
    _ ≤ 2 ^ capacity := Nat.pow_le_pow_right (by decide) inside

end Bits

section Division

/-- The number down to a bit is twice the number above it and the bit. -/
theorem div_two_pow_succ (number index : Nat) :
    number / 2 ^ index = 2 * (number / 2 ^ (index + 1)) + (number.testBit index).toNat := by
  have above : number / 2 ^ (index + 1) = number / 2 ^ index / 2 := by
    rw [Nat.pow_succ, Nat.div_div_eq_div_mul]
  have parity : (number.testBit index).toNat = number / 2 ^ index % 2 := by
    rw [Nat.testBit_eq_decide_div_mod_eq]
    rcases Nat.mod_two_eq_zero_or_one (number / 2 ^ index) with even | odd
    · rw [even]
      decide
    · rw [odd]
      decide
  rw [above, parity]
  omega

/-- One bit of a division: the doubled remainder with the next bit stays below twice the
divisor. -/
theorem doubled_remainder_lt (number : Nat) {divisor : Nat} (positive : 0 < divisor)
    (index : Nat) :
    2 * (number / 2 ^ (index + 1) % divisor) + (number.testBit index).toNat < 2 * divisor := by
  have small := Nat.mod_lt (number / 2 ^ (index + 1)) positive
  have bit := Bool.toNat_le (number.testBit index)
  omega

/-- The number down to a bit, in terms of the quotient and the remainder above it. -/
theorem div_two_pow_split (number divisor index : Nat) :
    number / 2 ^ index = divisor * (2 * (number / 2 ^ (index + 1) / divisor)) +
      (2 * (number / 2 ^ (index + 1) % divisor) + (number.testBit index).toNat) := by
  have split := Nat.div_add_mod (number / 2 ^ (index + 1)) divisor
  have next := div_two_pow_succ number index
  rw [← split] at next
  linear_combination next

/-- Where the doubled remainder reaches the divisor, the quotient gains a one. -/
theorem restoring_step_of_le {number divisor index : Nat} (positive : 0 < divisor)
    (reached : divisor ≤
      2 * (number / 2 ^ (index + 1) % divisor) + (number.testBit index).toNat) :
    number / 2 ^ index / divisor = 2 * (number / 2 ^ (index + 1) / divisor) + 1 ∧
      number / 2 ^ index % divisor =
        2 * (number / 2 ^ (index + 1) % divisor) + (number.testBit index).toNat - divisor := by
  have below := doubled_remainder_lt number positive index
  have split := div_two_pow_split number divisor index
  apply (Nat.div_mod_unique positive).mpr
  constructor
  · rw [Nat.mul_succ]
    omega
  · omega

/-- Where it does not, the quotient gains a zero. -/
theorem restoring_step_of_lt {number divisor index : Nat} (positive : 0 < divisor)
    (below : 2 * (number / 2 ^ (index + 1) % divisor) + (number.testBit index).toNat < divisor) :
    number / 2 ^ index / divisor = 2 * (number / 2 ^ (index + 1) / divisor) ∧
      number / 2 ^ index % divisor =
        2 * (number / 2 ^ (index + 1) % divisor) + (number.testBit index).toNat := by
  have split := div_two_pow_split number divisor index
  apply (Nat.div_mod_unique positive).mpr
  constructor
  · omega
  · exact below

end Division

end Usdd.Foundation

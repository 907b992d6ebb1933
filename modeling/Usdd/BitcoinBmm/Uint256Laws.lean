import Usdd.BitcoinBmm.Uint256
import Usdd.Foundation.LimbLaws
/-!
# What each operation on 256-bit integers computes

Every operation is stated on the numbers: checked addition and multiplication exist exactly where
the result fits, shifts multiply and divide by a power of two, the bit length is the size of the
number, and the shift-and-subtract division returns the floor quotient.
-/
namespace Usdd.BitcoinBmm

open Usdd.Foundation

namespace Uint256

section Values

/-- A value is the number its limbs denote. -/
theorem toNat_inj {left right : Uint256} : left.toNat = right.toNat ↔ left = right := by
  rw [Uint256.ext_iff]
  exact limbsNat_inj (left.length_eq.trans right.length_eq.symm)

/-- Every number below two to the 256th power is the number of a value. -/
theorem exists_toNat {number : Nat} (fits : number < 2 ^ 256) :
    ∃ value : Uint256, value.toNat = number := by
  have length : (leBytes 32 number).length = 32 := leBytes_length 32 number
  exact ⟨fromLeBytes ⟨leBytes 32 number, length⟩,
    (toNat_fromLeBytes _).trans (leNat_leBytes_of_lt fits)⟩

/-- A value is zero when its number is. -/
theorem isZero_iff {value : Uint256} : value.isZero = true ↔ value.toNat = 0 :=
  limbsNat_eq_zero.symm

@[simp]
theorem toNat_zero : zero.toNat = 0 := by decide

@[simp]
theorem toNat_max : max.toNat = 2 ^ 256 - 1 := by decide

/-- A value of one limb. -/
@[simp]
theorem toNat_fromLimbsLe_low (word : UInt64) : (fromLimbsLe word 0 0 0).toNat = word.toNat := by
  simp [fromLimbsLe, toNat, limbsNat]

/-- The lowest limb is the number modulo a limb. -/
theorem lowU64_toNat (value : Uint256) : value.lowU64.toNat = value.toNat % 2 ^ 64 := by
  rcases value with ⟨limbs, length⟩
  cases limbs with
  | nil => cases length
  | cons first rest =>
    have fits := first.toNat_lt
    change first.toNat = (first.toNat + 2 ^ 64 * limbsNat rest) % 2 ^ 64
    omega

/-- The numeric reading of the order of values. -/
theorem cmp_eq_compare (left right : Uint256) :
    left.cmp right = compare left.toNat right.toNat :=
  cmpLimbs_eq (left.length_eq.trans right.length_eq.symm)

end Values

section Conversions

/-- The little-endian bytes of a value denote its number. -/
@[simp]
theorem leNat_toLeBytes (value : Uint256) : leNat value.toLeBytes.bytes = value.toNat :=
  leNat_bytesOfLimbs value.limbs

/-- The big-endian bytes of a value denote its number. -/
@[simp]
theorem toNat_toBeBytes (value : Uint256) : value.toBeBytes.toNat = value.toNat := by
  change beNat value.toLeBytes.bytes.reverse = value.toNat
  rw [← leNat_reverse, List.reverse_reverse, leNat_toLeBytes]

/-- Reading big-endian bytes gives the number they denote. -/
@[simp]
theorem toNat_fromBeBytes (bytes : FixedBytes 32) :
    (fromBeBytes bytes).toNat = bytes.toNat := by
  rw [fromBeBytes, toNat_fromLeBytes]
  exact leNat_reverse bytes.bytes

/-- Writing a value in little-endian order and reading it back returns it. -/
theorem fromLeBytes_toLeBytes (value : Uint256) : fromLeBytes value.toLeBytes = value := by
  apply toNat_inj.mp
  rw [toNat_fromLeBytes, leNat_toLeBytes]

/-- Reading little-endian bytes and writing them back returns them. -/
theorem toLeBytes_fromLeBytes (bytes : FixedBytes 32) : (fromLeBytes bytes).toLeBytes = bytes := by
  have same : leNat (fromLeBytes bytes).toLeBytes.bytes = leNat bytes.bytes := by
    rw [leNat_toLeBytes, toNat_fromLeBytes]
  apply FixedBytes.ext
  exact leNat_inj ((fromLeBytes bytes).toLeBytes.length_eq.trans bytes.length_eq.symm) same

/-- Writing a value in big-endian order and reading it back returns it. -/
theorem fromBeBytes_toBeBytes (value : Uint256) : fromBeBytes value.toBeBytes = value := by
  apply toNat_inj.mp
  rw [toNat_fromBeBytes, toNat_toBeBytes]

/-- Reading big-endian bytes and writing them back returns them. -/
theorem toBeBytes_fromBeBytes (bytes : FixedBytes 32) : (fromBeBytes bytes).toBeBytes = bytes := by
  apply FixedBytes.toNat_inj.mp
  rw [toNat_toBeBytes, toNat_fromBeBytes]

/-- The order of big-endian strings is the order of the values. -/
theorem toBeBytes_lt_iff {left right : Uint256} :
    left.toBeBytes < right.toBeBytes ↔ left < right := by
  rw [FixedBytes.lt_iff_toNat_lt, toNat_toBeBytes, toNat_toBeBytes, lt_iff_toNat_lt]

/-- The order of little-endian strings read from the end is the order of the values. -/
theorem toLeBytes_reverse_lt_iff {left right : Uint256} :
    left.toLeBytes.bytes.reverse < right.toLeBytes.bytes.reverse ↔ left < right :=
  toBeBytes_lt_iff

/-- Reading big-endian strings keeps their order. -/
theorem fromBeBytes_lt_iff {left right : FixedBytes 32} :
    fromBeBytes left < fromBeBytes right ↔ left < right := by
  rw [lt_iff_toNat_lt, toNat_fromBeBytes, toNat_fromBeBytes, FixedBytes.lt_iff_toNat_lt]

/-- Reading little-endian strings keeps the order they have from the end. -/
theorem fromLeBytes_lt_iff {left right : FixedBytes 32} :
    fromLeBytes left < fromLeBytes right ↔ left.bytes.reverse < right.bytes.reverse := by
  have lengths : left.bytes.reverse.length = right.bytes.reverse.length := by
    rw [List.length_reverse, List.length_reverse, left.length_eq, right.length_eq]
  rw [lt_iff_toNat_lt, toNat_fromLeBytes, toNat_fromLeBytes, lt_iff_beNat_lt lengths,
    ← leNat_reverse, ← leNat_reverse, List.reverse_reverse, List.reverse_reverse]

end Conversions

section Arithmetic

/-- Complementing counts down from the largest value. -/
theorem toNat_wrappingNot (value : Uint256) :
    value.wrappingNot.toNat + value.toNat + 1 = 2 ^ 256 := by
  have exact := limbsNat_map_not value.limbs
  rw [value.length_eq] at exact
  exact exact

/-- A checked sum exists exactly where the sum fits, and is the sum. -/
theorem checkedAdd_eq_some {left right sum : Uint256} :
    left.checkedAdd right = some sum ↔ left.toNat + right.toNat = sum.toNat := by
  constructor
  · intro added
    exact (toNat_of_checkedAdd added).symm
  · intro total
    have exact := addLimbs_exact false (left.length_eq.trans right.length_eq.symm)
    have fits := sum.toNat_lt
    rw [left.length_eq, Bool.toNat_false, Nat.add_zero] at exact
    change limbsNat left.limbs + limbsNat right.limbs = sum.toNat at total
    have kept : (addLimbs left.limbs right.limbs false).2 = false := by
      cases carried : (addLimbs left.limbs right.limbs false).2 with
      | false => rfl
      | true =>
        rw [carried, Bool.toNat_true] at exact
        omega
    rw [kept, Bool.toNat_false, Nat.mul_zero, Nat.add_zero, total] at exact
    simp only [checkedAdd, kept, Bool.false_eq_true, if_false, Option.some.injEq]
    exact toNat_inj.mp exact

/-- Adding one succeeds below the largest value. -/
theorem checkedAddOne_eq_some {value next : Uint256} :
    value.checkedAddOne = some next ↔ value.toNat + 1 = next.toNat := by
  have one : (fromLimbsLe 1 0 0 0).toNat = 1 := by decide
  rw [checkedAddOne, checkedAdd_eq_some, one]

/-- A checked product exists exactly where the product fits, and is the product. -/
theorem checkedMulU64_eq_some {value product : Uint256} {factor : UInt64} :
    value.checkedMulU64 factor = some product ↔
      value.toNat * factor.toNat = product.toNat := by
  have exact := mulLimbs_exact value.limbs factor 0
  rw [value.length_eq, Nat.add_zero] at exact
  have fits := product.toNat_lt
  unfold checkedMulU64
  by_cases kept : (mulLimbs value.limbs factor 0).2 = 0
  · rw [kept, Nat.mul_zero, Nat.add_zero] at exact
    rw [if_pos kept, Option.some.injEq, ← toNat_inj]
    change limbsNat (mulLimbs value.limbs factor 0).1 = _ ↔ limbsNat value.limbs * _ = _
    rw [exact]
  · rw [if_neg kept]
    constructor
    · intro absent
      cases absent
    · intro total
      have carried : 1 ≤ (mulLimbs value.limbs factor 0).2 := Nat.pos_of_ne_zero kept
      have above := Nat.mul_le_mul_left (2 ^ 256) carried
      change limbsNat value.limbs * factor.toNat = product.toNat at total
      omega

/-- Dividing by a positive word gives the floor quotient. -/
theorem divU64_eq_some {value quotient : Uint256} {divisor : UInt64}
    (positive : 0 < divisor.toNat) :
    value.divU64 divisor = some quotient ↔ value.toNat / divisor.toNat = quotient.toNat := by
  have nonzero : divisor ≠ 0 := by
    intro same
    rw [same] at positive
    cases positive
  unfold divU64
  rw [if_neg nonzero, Option.some.injEq, ← toNat_inj]
  change limbsNat (divLimbs value.limbs divisor).1 = _ ↔ limbsNat value.limbs / _ = _
  rw [limbsNat_divLimbs _ positive]

/-- A result that exists exactly where a number fits 256 bits, and denotes that number. -/
theorem map_toNat_of_exact {result : Option Uint256} {number : Nat}
    (exact : ∀ value, result = some value ↔ number = value.toNat) :
    result.map toNat = if number < 2 ^ 256 then some number else none := by
  by_cases fits : number < 2 ^ 256
  · obtain ⟨value, denotes⟩ := exists_toNat fits
    rw [if_pos fits, (exact value).mpr denotes.symm, Option.map_some, denotes]
  · rw [if_neg fits, Option.map_eq_none_iff]
    cases found : result with
    | none => rfl
    | some value =>
      have denotes := (exact value).mp found
      have below := value.toNat_lt
      omega

/-- Division by a word fails at zero and gives the floor quotient elsewhere. -/
theorem map_toNat_divU64 (value : Uint256) (divisor : UInt64) :
    (value.divU64 divisor).map toNat =
      if divisor = 0 then none else some (value.toNat / divisor.toNat) := by
  by_cases zero : divisor = 0
  · rw [if_pos zero, divU64, if_pos zero, Option.map_none]
  · have positive : 0 < divisor.toNat :=
      Nat.pos_of_ne_zero (fun none => zero (UInt64.toNat_inj.mp none))
    have below : value.toNat / divisor.toNat < 2 ^ 256 :=
      Nat.lt_of_le_of_lt (Nat.div_le_self ..) value.toNat_lt
    rw [if_neg zero, map_toNat_of_exact (fun _ => divU64_eq_some positive), if_pos below]

end Arithmetic

section Bits

/-- The bit of a position. -/
theorem bit_eq_testBit (value : Uint256) (index : Nat) :
    value.bit index = value.toNat.testBit index := by
  have small : index % 64 < 64 := Nat.mod_lt _ (by decide)
  have lowBit : ∀ word : UInt64, (word &&& 1 != 0) = word.toNat.testBit 0 := by
    intro word
    rw [Nat.testBit_zero, Bool.eq_iff_iff, bne_iff_ne, ne_eq, ← UInt64.toNat_inj, UInt64.toNat_and]
    change ¬ (word.toNat &&& 1) = 0 ↔ _
    rw [Nat.and_one_is_mod, decide_eq_true_eq]
    omega
  rw [bit, lowBit, testBit_word_shiftRight _ small, Nat.add_zero]
  exact (testBit_limbsNat value.limbs index).symm

/-- Setting a bit sets it in the number. -/
theorem toNat_setBit (value : Uint256) {index : Nat} (inside : index < 256) :
    (value.setBit index).toNat = value.toNat ||| 2 ^ index := by
  apply limbsNat_setBit
  rw [value.length_eq]
  omega

/-- The number of the lowest limbs. -/
theorem limbsNat_take_succ (value : Uint256) {count : Nat} (inside : count < 4) :
    limbsNat (value.limbs.take (count + 1)) =
      limbsNat (value.limbs.take count) + 2 ^ (64 * count) * (value.limb count).toNat := by
  have bound : count < value.limbs.length := by rw [value.length_eq]; exact inside
  have lowest : (value.limbs.take count).length = count := by
    rw [List.length_take]
    omega
  rw [List.take_succ_eq_append_getElem bound, limbsNat_append, lowest, limb,
    List.getD_eq_getElem?_getD, List.getElem?_eq_getElem bound, Option.getD_some, limbsNat,
    limbsNat, Nat.mul_zero, Nat.add_zero]

/-- The lowest limbs denote a number below the power their count allows. -/
theorem limbsNat_take_lt (value : Uint256) {count : Nat} (inside : count ≤ 4) :
    limbsNat (value.limbs.take count) < 2 ^ (64 * count) := by
  have fits := limbsNat_lt (value.limbs.take count)
  have lowest : (value.limbs.take count).length = count := by
    rw [List.length_take, value.length_eq]
    omega
  rw [lowest] at fits
  exact fits

/-- The bit length of the lowest limbs is the size of their number. -/
theorem bitLenFrom_eq_size (value : Uint256) {count : Nat} (inside : count ≤ 4) :
    value.bitLenFrom count = Nat.size (limbsNat (value.limbs.take count)) := by
  induction count with
  | zero => simp [bitLenFrom, limbsNat]
  | succ count ih =>
    have lowFits := value.limbsNat_take_lt (Nat.le_of_succ_le inside)
    rw [bitLenFrom, limbsNat_take_succ value inside]
    by_cases empty : value.limb count = 0
    · rw [if_neg (not_not.mpr empty), ih (by omega), empty, UInt64.toNat_zero, Nat.mul_zero,
        Nat.add_zero]
    · have nonzero : (value.limb count).toNat ≠ 0 := by
        intro same
        exact empty (UInt64.toNat_inj.mp same)
      rw [if_pos empty]
      -- The highest limb that is not zero decides the size.
      apply Nat.le_antisymm
      · have bottom := Nat.log2_self_le nonzero
        have whole : 2 ^ (count * 64 + (value.limb count).toNat.log2) ≤
            limbsNat (value.limbs.take count) + 2 ^ (64 * count) * (value.limb count).toNat := by
          rw [Nat.pow_add, Nat.mul_comm count 64]
          have scaled := Nat.mul_le_mul_left (2 ^ (64 * count)) bottom
          omega
        exact Nat.lt_size.mpr whole
      · have top := Nat.lt_log2_self (n := (value.limb count).toNat)
        apply Nat.size_le.mpr
        rw [Nat.pow_add, Nat.mul_comm count 64]
        calc limbsNat (value.limbs.take count) + 2 ^ (64 * count) * (value.limb count).toNat
            < 2 ^ (64 * count) * ((value.limb count).toNat + 1) := by
              rw [Nat.mul_succ]
              omega
          _ ≤ 2 ^ (64 * count) * 2 ^ ((value.limb count).toNat.log2 + 1) :=
              Nat.mul_le_mul_left _ top

/-- The bit length is the size of the number. -/
theorem bitLen_eq_size (value : Uint256) : value.bitLen = Nat.size value.toNat := by
  rw [bitLen, bitLenFrom_eq_size value (le_refl 4), List.take_of_length_le value.length_eq.le]
  rfl

/-- There is no fifth limb. -/
theorem limb_of_le (value : Uint256) {index : Nat} (beyond : 4 ≤ index) : value.limb index = 0 := by
  have outside : value.limbs.length ≤ index := value.length_eq.trans_le beyond
  rw [limb, List.getD_eq_getElem?_getD, List.getElem?_eq_none outside, Option.getD_none]

/-- A bit of a limb is the bit of the number at the limb's place. -/
theorem testBit_limb (value : Uint256) (place : Nat) {index : Nat} (inside : index < 64) :
    (value.limb place).toNat.testBit index = value.toNat.testBit (64 * place + index) := by
  have limbPlace : (64 * place + index) / 64 = place := by omega
  have offset : (64 * place + index) % 64 = index := by omega
  rw [toNat, testBit_limbsNat, limbPlace, offset, limb]

/-- A bit of a shifted limb comes from further up. -/
theorem testBit_shrLimb (value : Uint256) (wordShift : Nat) {bitShift : Nat}
    (small : bitShift < 64) (place : Nat) {index : Nat} (inside : index < 64) :
    (value.shrLimb wordShift bitShift place).toNat.testBit index =
      value.toNat.testBit (64 * (place + wordShift) + (bitShift + index)) := by
  unfold shrLimb
  by_cases beyond : 4 ≤ place + wordShift
  · have high : 2 ^ 256 ≤ 2 ^ (64 * (place + wordShift) + (bitShift + index)) :=
      Nat.pow_le_pow_right (by decide) (by omega)
    rw [if_pos beyond, UInt64.toNat_zero, Nat.zero_testBit,
      Nat.testBit_lt_two_pow (value.toNat_lt.trans_le high)]
  · rw [if_neg beyond]
    have low := testBit_word_shiftRight (value.limb (place + wordShift)) small index
    by_cases same : bitShift + index < 64
    · -- The bit lies in the limb itself; the next limb contributes nothing here.
      rw [testBit_limb _ _ same] at low
      split
      · next both =>
        have notNext : ¬ 64 - bitShift ≤ index := by omega
        rw [UInt64.toNat_or, Nat.testBit_or, low, testBit_word_shiftLeft _ (by omega),
          decide_eq_false notNext, Bool.and_false, Bool.false_and, Bool.or_false]
      · exact low
    · -- The bit lies in the next limb, which may not exist.
      have empty := testBit_word_high (value.limb (place + wordShift)) (Nat.not_lt.mp same)
      have source : 64 * (place + wordShift) + (bitShift + index) =
          64 * (place + wordShift + 1) + (index - (64 - bitShift)) := by omega
      rw [empty] at low
      rw [source, ← testBit_limb _ _ (by omega)]
      split
      · next both =>
        have next : 64 - bitShift ≤ index := by omega
        rw [UInt64.toNat_or, Nat.testBit_or, low, testBit_word_shiftLeft _ (by omega),
          decide_eq_true inside, decide_eq_true next, Bool.true_and, Bool.true_and, Bool.false_or]
      · next last =>
        have absent : value.limb (place + wordShift + 1) = 0 := limb_of_le value (by omega)
        rw [absent, UInt64.toNat_zero, Nat.zero_testBit, low]

/-- A shift to the right divides by a power of two. -/
theorem toNat_shr (value : Uint256) (shift : Nat) :
    (value.shr shift).toNat = value.toNat / 2 ^ shift := by
  unfold shr
  by_cases far : 256 ≤ shift
  · have all : value.toNat < 2 ^ shift :=
      value.toNat_lt.trans_le (Nat.pow_le_pow_right (by decide) far)
    rw [if_pos far, toNat_zero, Nat.div_eq_of_lt all]
  · rw [if_neg far, ← Nat.shiftRight_eq_div_pow]
    apply Nat.eq_of_testBit_eq
    intro index
    have offset : index % 64 < 64 := Nat.mod_lt _ (by decide)
    rw [toNat, testBit_limbsNat, Nat.testBit_shiftRight, List.getD_eq_getElem?_getD,
      List.getElem?_map]
    by_cases inside : index / 64 < 4
    · have place : 64 * (index / 64 + shift / 64) + (shift % 64 + index % 64) =
          shift + index := by omega
      rw [List.getElem?_range inside, Option.map_some, Option.getD_some,
        testBit_shrLimb value _ (Nat.mod_lt _ (by decide)) _ offset, place]
    · have outside : (List.range 4).length ≤ index / 64 := by rw [List.length_range]; omega
      have high : 2 ^ 256 ≤ 2 ^ (shift + index) :=
        Nat.pow_le_pow_right (by decide) (by omega)
      rw [List.getElem?_eq_none outside, Option.map_none, Option.getD_none, UInt64.toNat_zero,
        Nat.zero_testBit, Nat.testBit_lt_two_pow (value.toNat_lt.trans_le high)]

/-- One limb shifted to the left joins the result, as far as the result reaches. -/
theorem limbsNat_shlStep (value : Uint256) {wordShift bitShift : Nat} (small : bitShift < 64)
    {out : List UInt64} (length : out.length = 4) (source : Nat) :
    limbsNat (value.shlStep wordShift bitShift out source) = limbsNat out |||
      (value.limb source).toNat <<< (64 * (source + wordShift) + bitShift) % 2 ^ 256 := by
  have fits := (value.limb source).toNat_lt
  unfold shlStep
  by_cases beyond : 4 ≤ source + wordShift
  · rw [if_pos beyond, shiftLeft_mod_of_le (by omega), Nat.or_zero]
  · have inside : source + wordShift < out.length := by omega
    rw [if_neg beyond]
    by_cases whole : bitShift = 0
    · have shiftNone : (value.limb source <<< UInt64.ofNat bitShift) = value.limb source := by
        rw [whole]
        exact UInt64.shiftLeft_zero
      rw [if_neg (by omega), shiftNone, whole, Nat.add_zero, shiftLeft_mod_of_lt fits (by omega),
        limbsNat_setOr _ inside]
    · have parts := toNat_shiftLeft_split (value.limb source) small (Nat.pos_of_ne_zero whole)
      have place : 64 * (source + wordShift) + bitShift = bitShift + 64 * (source + wordShift) :=
        Nat.add_comm _ _
      by_cases last : source + wordShift + 1 < 4
      · have second : source + wordShift + 1 < (out.set (source + wordShift)
            (out.getD (source + wordShift) 0 ||| value.limb source <<< UInt64.ofNat bitShift)
            ).length := by
          rw [List.length_set]
          omega
        have next : 64 * (source + wordShift + 1) = 64 + 64 * (source + wordShift) := by omega
        rw [if_pos ⟨whole, last⟩, limbsNat_setOr _ second, limbsNat_setOr _ inside,
          shiftLeft_mod_of_lt fits (by omega), place, Nat.shiftLeft_add, ← parts,
          Nat.shiftLeft_or_distrib, ← Nat.shiftLeft_add, ← next, Nat.or_assoc]
      · -- What the top limb pushes out lies beyond the result.
        have pushed : ((value.limb source >>> UInt64.ofNat (64 - bitShift)).toNat <<<
            (64 + 64 * (source + wordShift))) % 2 ^ 256 = 0 := shiftLeft_mod_of_le (by omega)
        rw [if_neg (by omega), limbsNat_setOr _ inside, place, Nat.shiftLeft_add, ← parts,
          Nat.shiftLeft_or_distrib, ← Nat.shiftLeft_add, Nat.or_mod_two_pow,
          pushed, Nat.or_zero,
          shiftLeft_mod_of_lt (UInt64.toNat_lt _) (by omega)]

theorem foldl_shlStep_length (value : Uint256) (wordShift bitShift : Nat) (sources : List Nat)
    (out : List UInt64) :
    (sources.foldl (value.shlStep wordShift bitShift) out).length = out.length := by
  induction sources generalizing out with
  | nil => rfl
  | cons source rest ih => rw [List.foldl_cons, ih, shlStep_length]

/-- The lowest limbs shifted to the left, as far as the result reaches. -/
theorem limbsNat_foldl_shlStep (value : Uint256) (shift : Nat) {count : Nat}
    (inside : count ≤ 4) :
    limbsNat ((List.range count).foldl (value.shlStep (shift / 64) (shift % 64)) zero.limbs) =
      limbsNat (value.limbs.take count) <<< shift % 2 ^ 256 := by
  induction count with
  | zero =>
    have empty : limbsNat zero.limbs = 0 := toNat_zero
    rw [List.range_zero, List.foldl_nil, List.take_zero, empty, limbsNat, Nat.zero_shiftLeft,
      Nat.zero_mod]
  | succ count ih =>
    have length := foldl_shlStep_length value (shift / 64) (shift % 64) (List.range count)
      zero.limbs
    have lowFits := value.limbsNat_take_lt (Nat.le_of_succ_le inside)
    have place : 64 * (count + shift / 64) + shift % 64 = 64 * count + shift := by omega
    -- The next limb stands above the lower ones, so their sum is their join.
    have joined : limbsNat (value.limbs.take (count + 1)) =
        limbsNat (value.limbs.take count) ||| (value.limb count).toNat <<< (64 * count) := by
      rw [limbsNat_take_succ value inside, Nat.add_comm, Nat.two_pow_add_eq_or_of_lt lowFits,
        Nat.or_comm, Nat.shiftLeft_eq, Nat.mul_comm]
    rw [List.range_succ, List.foldl_append, List.foldl_cons, List.foldl_nil,
      limbsNat_shlStep value (Nat.mod_lt _ (by decide)) (length.trans zero.length_eq),
      ih (by omega), place, joined, Nat.shiftLeft_or_distrib, Nat.or_mod_two_pow,
      ← Nat.shiftLeft_add]

/-- A checked shift of 256 or more returns zero or nothing. -/
theorem toNat_of_checkedShl_far {value shifted : Uint256} {shift : Nat} (far : 256 ≤ shift)
    (done : value.checkedShl shift = some shifted) : shifted.toNat = 0 := by
  unfold checkedShl at done
  rw [if_pos far] at done
  split at done
  · cases done
    exact toNat_zero
  · cases done

/-- A checked shift below 256 exists exactly where the product fits, and is the product. -/
theorem checkedShl_eq_some {value shifted : Uint256} {shift : Nat} (near : shift < 256) :
    value.checkedShl shift = some shifted ↔ value.toNat * 2 ^ shift = shifted.toNat := by
  have powers : 2 ^ 256 = 2 ^ (256 - shift) * 2 ^ shift := by
    rw [← Nat.pow_add, Nat.sub_add_cancel near.le]
  have room : 256 - shift < value.bitLen ↔ 2 ^ 256 ≤ value.toNat * 2 ^ shift := by
    rw [bitLen_eq_size, Nat.lt_size, powers]
    exact (Nat.mul_le_mul_right_iff (Nat.two_pow_pos shift)).symm
  have fits := shifted.toNat_lt
  unfold checkedShl
  rw [if_neg (by omega)]
  by_cases overflows : 2 ^ 256 ≤ value.toNat * 2 ^ shift
  · have positive : shift ≠ 0 := by
      intro none
      rw [none, Nat.pow_zero, Nat.mul_one] at overflows
      exact absurd value.toNat_lt (Nat.not_lt.mpr overflows)
    rw [if_pos ⟨positive, room.mpr overflows⟩]
    constructor
    · intro absent
      cases absent
    · intro total
      omega
  · have whole : limbsNat (value.limbs.take 4) = value.toNat := by
      rw [List.take_of_length_le value.length_eq.le]
      rfl
    rw [if_neg (fun both => overflows (room.mp both.2)), Option.some.injEq, ← toNat_inj]
    change limbsNat _ = _ ↔ _
    rw [limbsNat_foldl_shlStep value shift (le_refl 4), whole, Nat.shiftLeft_eq,
      Nat.mod_eq_of_lt (Nat.not_le.mp overflows)]

/-- A checked shift is the exact product where it fits; past 256 bits only zero remains. -/
theorem map_toNat_checkedShl (value : Uint256) (shift : Nat) :
    (value.checkedShl shift).map toNat =
      if value.toNat * 2 ^ shift < 2 ^ 256 then some (value.toNat * 2 ^ shift) else none := by
  by_cases near : shift < 256
  · exact map_toNat_of_exact (fun _ => checkedShl_eq_some near)
  · have far : 256 ≤ shift := Nat.not_lt.mp near
    have power : 2 ^ 256 ≤ 2 ^ shift := Nat.pow_le_pow_right (by decide) far
    unfold checkedShl
    rw [if_pos far]
    by_cases empty : value.isZero = true
    · have none := isZero_iff.mp empty
      rw [if_pos empty, Option.map_some, toNat_zero, none, Nat.zero_mul, if_pos (by decide)]
    · have positive : 1 ≤ value.toNat := by
        have nonzero := mt isZero_iff.mpr empty
        omega
      have above := Nat.mul_le_mul positive power
      rw [if_neg empty, Option.map_none, if_neg (by omega)]

end Bits

section Division

/-- The remainder and the quotient of the long division after a count of bits. -/
def divProgress (numerator denominator : Uint256) (count : Nat) : List UInt64 × Uint256 :=
  ((List.range 256).reverse.take count).foldl (numerator.divStep (denominator.limbs ++ [0]))
    (List.replicate 5 0, zero)

/-- What the long division holds once the bits from an index up are processed: the quotient and
the remainder of the number these bits form. -/
structure DivInvariant (numerator denominator : Uint256) (index : Nat)
    (progress : List UInt64 × Uint256) : Prop where
  length : progress.1.length = 5
  remainder : limbsNat progress.1 = numerator.toNat / 2 ^ index % denominator.toNat
  quotient : progress.2.toNat = 2 ^ index * (numerator.toNat / 2 ^ index / denominator.toNat)

/-- The five-limb divisor denotes the denominator. -/
theorem limbsNat_divisor (denominator : Uint256) :
    limbsNat (denominator.limbs ++ [0]) = denominator.toNat := by
  rw [limbsNat_append, limbsNat, limbsNat, UInt64.toNat_zero, Nat.mul_zero, Nat.add_zero,
    Nat.mul_zero, Nat.add_zero, toNat]

theorem divisor_length (denominator : Uint256) : (denominator.limbs ++ [0]).length = 5 := by
  rw [List.length_append, denominator.length_eq]
  rfl

/-- The shifted remainder loses no bit and stays below twice the divisor. -/
theorem DivInvariant.shifted {numerator denominator : Uint256} {index : Nat}
    {progress : List UInt64 × Uint256}
    (kept : DivInvariant numerator denominator (index + 1) progress)
    (positive : 0 < denominator.toNat) :
    limbsNat (doubleLimbs progress.1 (carryWord (numerator.bit index))) =
        2 * (numerator.toNat / 2 ^ (index + 1) % denominator.toNat) +
          (numerator.toNat.testBit index).toNat ∧
      limbsNat (doubleLimbs progress.1 (carryWord (numerator.bit index))) <
        2 * denominator.toNat := by
  have below := doubled_remainder_lt numerator.toNat positive index
  have small := denominator.toNat_lt
  have bit : (carryWord (numerator.bit index)).toNat ≤ 1 := by
    rw [carryWord_toNat]
    exact Bool.toNat_le _
  have exact : limbsNat (doubleLimbs progress.1 (carryWord (numerator.bit index))) =
      2 * (numerator.toNat / 2 ^ (index + 1) % denominator.toNat) +
        (numerator.toNat.testBit index).toNat := by
    rw [limbsNat_doubleLimbs _ _ bit, kept.length, kept.remainder, carryWord_toNat,
      bit_eq_testBit]
    apply Nat.mod_eq_of_lt
    omega
  exact ⟨exact, exact ▸ below⟩

/-- The comparison of the shifted remainder with the divisor is numeric. -/
theorem cmp_divisor {denominator : Uint256} {remainder : List UInt64}
    (length : remainder.length = 5) :
    cmpLimbs remainder (denominator.limbs ++ [0]) ≠ .lt ↔
      denominator.toNat ≤ limbsNat remainder := by
  rw [cmpLimbs_eq (length.trans (divisor_length denominator).symm), limbsNat_divisor, ne_eq,
    compare_lt_iff_lt, Nat.not_lt]

/-- One bit keeps the invariant. -/
theorem DivInvariant.step {numerator denominator : Uint256} {index : Nat}
    {progress : List UInt64 × Uint256}
    (kept : DivInvariant numerator denominator (index + 1) progress)
    (positive : 0 < denominator.toNat) (inside : index < 256) :
    DivInvariant numerator denominator index
      (numerator.divStep (denominator.limbs ++ [0]) progress index) := by
  obtain ⟨exact, -⟩ := kept.shifted positive
  have length : (doubleLimbs progress.1 (carryWord (numerator.bit index))).length = 5 := by
    rw [doubleLimbs_length, kept.length]
  have lengths := length.trans (divisor_length denominator).symm
  have scale : 2 ^ (index + 1) = 2 ^ index * 2 := Nat.pow_succ ..
  unfold divStep
  by_cases reached : cmpLimbs (doubleLimbs progress.1 (carryWord (numerator.bit index)))
      (denominator.limbs ++ [0]) ≠ .lt
  · have enough := (cmp_divisor length).mp reached
    rw [exact] at enough
    obtain ⟨quotient, remainder⟩ := restoring_step_of_le positive enough
    have reachable : limbsNat (denominator.limbs ++ [0]) ≤
        limbsNat (doubleLimbs progress.1 (carryWord (numerator.bit index))) := by
      rw [limbsNat_divisor, exact]
      exact enough
    obtain ⟨-, difference⟩ := subLimbs_of_le lengths reachable
    rw [if_pos reached]
    constructor
    · rw [subLimbs_length false lengths, length]
    · rw [difference, limbsNat_divisor, exact, remainder]
    · -- The quotient so far is a multiple of the next power, so joining the bit adds it.
      have low : 2 ^ index < 2 ^ (index + 1) := by
        rw [scale]
        have := Nat.two_pow_pos index
        omega
      rw [toNat_setBit _ inside, kept.quotient, ← Nat.two_pow_add_eq_or_of_lt low, quotient, scale]
      ring
  · have below : limbsNat (doubleLimbs progress.1 (carryWord (numerator.bit index))) <
        denominator.toNat := Nat.not_le.mp (fun enough => reached ((cmp_divisor length).mpr enough))
    rw [exact] at below
    obtain ⟨quotient, remainder⟩ := restoring_step_of_lt positive below
    rw [if_neg reached]
    constructor
    · exact length
    · rw [exact, remainder]
    · rw [kept.quotient, quotient, scale]
      ring

/-- One more bit of the long division. -/
theorem divProgress_succ (numerator denominator : Uint256) {count : Nat} (inside : count < 256) :
    numerator.divProgress denominator (count + 1) =
      numerator.divStep (denominator.limbs ++ [0]) (numerator.divProgress denominator count)
        (255 - count) := by
  have bound : count < (List.range 256).reverse.length := by
    rw [List.length_reverse, List.length_range]
    exact inside
  have place : (List.range 256).reverse[count] = 255 - count := by
    rw [List.getElem_reverse, List.getElem_range, List.length_range]
  rw [divProgress, List.take_succ_eq_append_getElem bound, List.foldl_append, place,
    List.foldl_cons, List.foldl_nil, divProgress]

/-- The invariant of the long division after any count of bits. -/
theorem divProgress_invariant (numerator : Uint256) {denominator : Uint256}
    (positive : 0 < denominator.toNat) {count : Nat} (inside : count ≤ 256) :
    DivInvariant numerator denominator (256 - count) (numerator.divProgress denominator count) := by
  induction count with
  | zero =>
    have none : numerator.toNat / 2 ^ 256 = 0 := Nat.div_eq_of_lt numerator.toNat_lt
    constructor
    · rfl
    · rw [divProgress, List.take_zero, List.foldl_nil, limbsNat_replicate_zero, none,
        Nat.zero_mod]
    · rw [divProgress, List.take_zero, List.foldl_nil, toNat_zero, none, Nat.zero_div,
        Nat.mul_zero]
  | succ count ih =>
    have kept := ih (by omega)
    have index : 256 - count = 255 - count + 1 := by omega
    have next : 256 - (count + 1) = 255 - count := by omega
    rw [index] at kept
    rw [divProgress_succ numerator denominator inside, next]
    exact kept.step positive (by omega)

/-- The long division is the run over all 256 bits. -/
theorem div_eq_divProgress (numerator : Uint256) {denominator : Uint256}
    (positive : 0 < denominator.toNat) :
    numerator.div denominator = some (numerator.divProgress denominator 256).2 := by
  have nonzero : ¬ denominator.isZero = true := by
    rw [isZero_iff]
    omega
  have whole : (List.range 256).reverse.take 256 = (List.range 256).reverse :=
    List.take_of_length_le (by rw [List.length_reverse, List.length_range])
  rw [div, if_neg nonzero, divProgress, whole]

/-- The long division returns the floor quotient. -/
theorem div_eq_some {numerator denominator quotient : Uint256}
    (positive : 0 < denominator.toNat) :
    numerator.div denominator = some quotient ↔
      numerator.toNat / denominator.toNat = quotient.toNat := by
  have done := (divProgress_invariant numerator positive (le_refl 256)).quotient
  rw [Nat.sub_self, Nat.pow_zero, Nat.div_one, Nat.one_mul] at done
  rw [div_eq_divProgress numerator positive, Option.some.injEq, ← toNat_inj, done]

end Division

end Uint256

end Usdd.BitcoinBmm

import Usdd.BitcoinBmm.Headers
import Usdd.BitcoinBmm.Uint256Laws
import Usdd.Foundation.Floating
import Mathlib.Data.Nat.Bitwise
/-!
# Compact difficulty targets

The four bytes of a compact target are a size, a sign bit and a 23-bit mantissa, which denote the
mantissa scaled by a power of 256. The decoder accepts the words whose sign is clear and whose
number lies in range, and the encoder writes the leading bytes of a number, one byte fewer where
they would reach into the sign bit.
-/
namespace Usdd.BitcoinBmm

open Usdd.Foundation hiding Uint256

/-- The number a compact mantissa and size denote, rounded down. -/
abbrev compactValue (mantissa size : Nat) : Nat := floatValue 256 3 mantissa size

/-- The mantissa and the size of the compact form of a number. -/
abbrev CompactForm (value mantissa size : Nat) : Prop :=
  Normalised 256 3 (2 ^ 15) value mantissa size

/-- The size byte of a compact word. -/
def compactSize (bits : UInt32) : Nat := (bits >>> 24).toNat

/-- The mantissa of a compact word. -/
def compactMantissa (bits : UInt32) : Nat := (bits &&& 0x007fffff).toNat

section Words

theorem compactSize_eq (bits : UInt32) : compactSize bits = bits.toNat / 2 ^ 24 := by
  rw [compactSize, UInt32.toNat_shiftRight, Nat.shiftRight_eq_div_pow]
  rfl

theorem compactMantissa_eq (bits : UInt32) : compactMantissa bits = bits.toNat % 2 ^ 23 := by
  rw [compactMantissa, UInt32.toNat_and]
  exact Nat.and_two_pow_sub_one_eq_mod bits.toNat 23

theorem compactMantissa_lt (bits : UInt32) : compactMantissa bits < 2 ^ 23 := by
  rw [compactMantissa_eq]
  exact Nat.mod_lt _ (by decide)

/-- The sign bit of a word is its 24th. -/
theorem sign_eq_zero_iff (word : UInt32) :
    word &&& 0x00800000 = 0 ↔ word.toNat / 2 ^ 23 % 2 = 0 := by
  have joined : (word &&& 0x00800000).toNat = (word.toNat.testBit 23).toNat * 2 ^ 23 := by
    rw [UInt32.toNat_and]
    exact Nat.and_two_pow word.toNat 23
  rw [← UInt32.toNat_inj, joined, Nat.testBit_eq_decide_div_mod_eq]
  change (decide (word.toNat / 2 ^ 23 % 2 = 1)).toNat * 2 ^ 23 = 0 ↔ _
  by_cases set : word.toNat / 2 ^ 23 % 2 = 1
  · rw [decide_eq_true set]
    change 1 * 2 ^ 23 = 0 ↔ _
    omega
  · rw [decide_eq_false set]
    change 0 * 2 ^ 23 = 0 ↔ _
    omega

/-- A word joined from a mantissa below the size byte and a size. -/
theorem toNat_joinSize {mantissa : UInt32} {size : Nat} (low : mantissa.toNat < 2 ^ 24)
    (fits : size < 256) :
    (mantissa ||| (UInt32.ofNat size <<< 24)).toNat = mantissa.toNat + 2 ^ 24 * size := by
  have sized : (UInt32.ofNat size).toNat = size :=
    UInt32.toNat_ofNat_of_lt' (by change size < 2 ^ 32; omega)
  have shifted : (UInt32.ofNat size <<< 24).toNat = 2 ^ 24 * size := by
    rw [UInt32.toNat_shiftLeft, sized, Nat.shiftLeft_eq]
    change size * 2 ^ 24 % 2 ^ 32 = _
    omega
  rw [UInt32.toNat_or, shifted, Nat.or_comm, ← Nat.two_pow_add_eq_or_of_lt low, Nat.add_comm]

end Words

section Decoder

/-- The mantissa the decoder works with, shifted down where the size is below the point. -/
theorem decodedWord_toNat {bits : UInt32} (small : bits >>> 24 ≤ 3) :
    ((bits &&& 0x007fffff) >>> ((8 : UInt32) * ((3 : UInt32) - bits >>> 24))).toNat =
      compactValue (compactMantissa bits) (compactSize bits) := by
  have bound : compactSize bits ≤ 3 := UInt32.le_iff_toNat_le.mp small
  have distance :
      ((8 : UInt32) * ((3 : UInt32) - bits >>> 24)).toNat = 8 * (3 - compactSize bits) := by
    rw [UInt32.toNat_mul, UInt32.toNat_sub_of_le _ _ small]
    change 8 * (3 - compactSize bits) % 2 ^ 32 = _
    omega
  have power : 2 ^ (8 * (3 - compactSize bits)) = 256 ^ (3 - compactSize bits) := by
    rw [Nat.pow_mul]
  have reduced : 8 * (3 - compactSize bits) % 32 = 8 * (3 - compactSize bits) := by omega
  rw [UInt32.toNat_shiftRight, distance, reduced, Nat.shiftRight_eq_div_pow, power, compactValue,
    floatValue_of_ge (by decide) bound, compactMantissa]

/-- A word beyond the overflow thresholds denotes a number of more than 256 bits. -/
theorem overflow_le {mantissa size : Nat} (above : 3 < size)
    (overflow : mantissa ≠ 0 ∧
      (34 < size ∨ (0xff < mantissa ∧ 33 < size) ∨ (0xffff < mantissa ∧ 32 < size))) :
    2 ^ 256 ≤ compactValue mantissa size := by
  obtain ⟨nonzero, thresholds⟩ := overflow
  rw [compactValue, floatValue_of_le (by decide) above.le]
  have scaled : ∀ bytes digits, 256 ^ bytes ≤ mantissa → 32 - bytes ≤ digits → bytes ≤ 32 →
      2 ^ 256 ≤ mantissa * 256 ^ digits := by
    intro bytes digits enough long short
    calc 2 ^ 256 = 256 ^ bytes * 256 ^ (32 - bytes) := by
          rw [← Nat.pow_add, Nat.add_sub_cancel' short, Nat.pow_mul 2 8 32]
      _ ≤ mantissa * 256 ^ digits :=
          Nat.mul_le_mul enough (Nat.pow_le_pow_right (by decide) long)
  rcases thresholds with huge | ⟨second, large⟩ | ⟨third, high⟩
  · exact scaled 0 _ (by omega) (by omega) (by decide)
  · exact scaled 1 _ (by omega) (by omega) (by decide)
  · exact scaled 2 _ (by omega) (by omega) (by decide)

/-- Within the thresholds a mantissa is shifted by fewer than 256 bits. -/
theorem size_le_of_lt {mantissa size : Nat} (above : 3 < size) (nonzero : mantissa ≠ 0)
    (inside : compactValue mantissa size < 2 ^ 256) :
    size ≤ 34 ∧ (0xff < mantissa → size ≤ 33) ∧ (0xffff < mantissa → size ≤ 32) := by
  have within := mt (overflow_le above) (Nat.not_le.mpr inside)
  omega

/-- A word is decoded exactly where its sign is clear and its number lies in range. -/
theorem decodeAndValidateTarget_eq_ok {bits : UInt32} {limit target : Uint256} :
    decodeAndValidateTarget bits limit = .ok target ↔
      target.toNat = compactValue (compactMantissa bits) (compactSize bits) ∧
      bits &&& 0x00800000 = 0 ∧ 0 < target.toNat ∧ target.toNat ≤ limit.toNat := by
  have fits := target.toNat_lt
  have mantissa : (bits &&& 0x007fffff).toNat = compactMantissa bits := rfl
  simp only [decodeAndValidateTarget]
  by_cases small : bits >>> 24 ≤ 3
  · have word := decodedWord_toNat small
    have sizeBound : (bits >>> 24).toNat ≤ 3 := UInt32.le_iff_toNat_le.mp small
    simp only [if_pos small, ↓then_eq_ok, bind_eq_ok, rejectIf_eq_ok, pure_eq_ok, not_and_or,
      not_not, Uint256.lt_iff_toNat_lt, not_lt, Uint256.isZero_iff]
    generalize (bits &&& 0x007fffff) >>> ((8 : UInt32) * ((3 : UInt32) - bits >>> 24)) = shifted
      at word ⊢
    have base : (Uint256.fromLimbsLe shifted.toUInt64 0 0 0).toNat = shifted.toNat := by
      rw [Uint256.toNat_fromLimbsLe_low, UInt32.toNat_toUInt64]
    constructor
    · rintro ⟨sign, -, _, rfl, nonzero, below, rfl⟩
      rw [base] at nonzero below ⊢
      have clear : bits &&& 0x00800000 = 0 := by
        apply sign.resolve_left
        intro none
        exact nonzero (congrArg UInt32.toNat none)
      exact ⟨word, clear, Nat.pos_of_ne_zero nonzero, below⟩
    · rintro ⟨exact, sign, positive, below⟩
      have notLarge : ¬ (bits >>> 24 > 34 ∨ shifted > 255 ∧ bits >>> 24 > 33 ∨
          shifted > 65535 ∧ bits >>> 24 > 32) := by
        simp only [gt_iff_lt, UInt32.lt_iff_toNat_lt]
        change ¬ (34 < (bits >>> 24).toNat ∨ 255 < shifted.toNat ∧ 33 < (bits >>> 24).toNat ∨
          65535 < shifted.toNat ∧ 32 < (bits >>> 24).toNat)
        omega
      have same : Uint256.fromLimbsLe shifted.toUInt64 0 0 0 = target := by
        rw [← Uint256.toNat_inj, base, word, exact]
      exact ⟨.inr sign, .inr notLarge, target, same, by omega, below, rfl⟩
  · have sizeBound : 3 < compactSize bits :=
      Nat.not_le.mp (fun short => small (UInt32.le_iff_toNat_le.mpr short))
    have power : 2 ^ (8 * (compactSize bits - 3)) = 256 ^ (compactSize bits - 3) := by
      rw [Nat.pow_mul]
    simp only [if_neg small, ↓then_eq_ok, bind_eq_ok, rejectIf_eq_ok, pure_eq_ok, okOr_eq_ok,
      not_and_or, not_not, Uint256.lt_iff_toNat_lt, not_lt, Uint256.isZero_iff]
    change (_ ∧ _ ∧ ∃ value, Uint256.checkedShl _ (8 * (compactSize bits - 3)) = some value ∧ _) ↔ _
    generalize bits &&& 0x007fffff = word at mantissa ⊢
    have base : (Uint256.fromLimbsLe word.toUInt64 0 0 0).toNat = compactMantissa bits := by
      rw [Uint256.toNat_fromLimbsLe_low, UInt32.toNat_toUInt64, mantissa]
    have whole : compactValue (compactMantissa bits) (compactSize bits) =
        compactMantissa bits * 256 ^ (compactSize bits - 3) :=
      floatValue_of_le (by decide) sizeBound.le
    constructor
    · rintro ⟨sign, thresholds, target', shifted, nonzero, below, rfl⟩
      have near : 8 * (compactSize bits - 3) < 256 := by
        by_contra far
        exact nonzero (Uint256.toNat_of_checkedShl_far (Nat.not_lt.mp far) shifted)
      have exact := (Uint256.checkedShl_eq_some near).mp shifted
      rw [base, power, ← whole] at exact
      have clear : bits &&& 0x00800000 = 0 := by
        apply sign.resolve_left
        intro none
        have zero : compactMantissa bits = 0 := mantissa.symm.trans (congrArg UInt32.toNat none)
        rw [whole, zero, Nat.zero_mul] at exact
        exact nonzero exact.symm
      exact ⟨exact.symm, clear, Nat.pos_of_ne_zero nonzero, below⟩
    · rintro ⟨exact, sign, positive, below⟩
      have nonzero : compactMantissa bits ≠ 0 := by
        intro zero
        rw [whole, zero, Nat.zero_mul] at exact
        omega
      have within := size_le_of_lt sizeBound nonzero (exact ▸ fits)
      have notLarge : ¬ (bits >>> 24 > 34 ∨ word > 255 ∧ bits >>> 24 > 33 ∨
          word > 65535 ∧ bits >>> 24 > 32) := by
        simp only [gt_iff_lt, UInt32.lt_iff_toNat_lt, mantissa]
        change ¬ (34 < compactSize bits ∨ 255 < compactMantissa bits ∧ 33 < compactSize bits ∨
          65535 < compactMantissa bits ∧ 32 < compactSize bits)
        omega
      refine ⟨.inr sign, .inr notLarge, target, ?_, by omega, below, rfl⟩
      apply (Uint256.checkedShl_eq_some (by omega)).mpr
      rw [base, power, ← whole, exact]

end Decoder

section Encoder

/-- The bytes a positive value takes. -/
theorem byteLength_bounds {value : Uint256} (positive : 0 < value.toNat) :
    1 ≤ (value.bitLen + 7) / 8 ∧ (value.bitLen + 7) / 8 ≤ 32 ∧
      256 ^ ((value.bitLen + 7) / 8 - 1) ≤ value.toNat ∧
      value.toNat < 256 ^ ((value.bitLen + 7) / 8) := by
  have some : 0 < value.bitLen := by
    rw [Uint256.bitLen_eq_size]
    exact Nat.size_pos.mpr positive
  have most : value.bitLen ≤ 256 := by
    rw [Uint256.bitLen_eq_size]
    exact Nat.size_le.mpr value.toNat_lt
  have power : ∀ count, 256 ^ count = 2 ^ (8 * count) := fun count => (Nat.pow_mul 2 8 count).symm
  refine ⟨by omega, by omega, ?_, ?_⟩
  · rw [power]
    apply Nat.lt_size.mp
    rw [← Uint256.bitLen_eq_size]
    omega
  · rw [power]
    apply Nat.size_le.mp
    rw [← Uint256.bitLen_eq_size]
    omega

/-- The three leading bytes of a positive value, as the encoder gathers them. -/
theorem leadingBytes_toNat {value : Uint256} (positive : 0 < value.toNat) :
    (if (value.bitLen + 7) / 8 ≤ 3 then
        (value.lowU64 <<< UInt64.ofNat (8 * (3 - (value.bitLen + 7) / 8))).toUInt32
      else (value.shr (8 * ((value.bitLen + 7) / 8 - 3))).lowU64.toUInt32).toNat =
      value.toNat * 256 ^ 3 / 256 ^ ((value.bitLen + 7) / 8) := by
  obtain ⟨least, most, -, above⟩ := byteLength_bounds positive
  generalize (value.bitLen + 7) / 8 = size at least most above ⊢
  by_cases small : size ≤ 3
  · -- At most three bytes: they are shifted up to the top of the window.
    have power : 256 ^ 3 = 256 ^ (3 - size) * 256 ^ size := by
      rw [← Nat.pow_add, Nat.sub_add_cancel small]
    have window : value.toNat * 256 ^ (3 - size) < 256 ^ 3 := by
      rw [power, Nat.mul_comm]
      exact Nat.mul_lt_mul_of_pos_left above (Nat.pow_pos (by decide))
    have low : value.lowU64.toNat = value.toNat := by
      rw [Uint256.lowU64_toNat]
      apply Nat.mod_eq_of_lt
      exact above.trans_le ((Nat.pow_le_pow_right (by decide) small).trans (by decide))
    have distance : (UInt64.ofNat (8 * (3 - size))).toNat % 64 = 8 * (3 - size) := by
      rw [UInt64.toNat_ofNat']
      omega
    have shift : 2 ^ (8 * (3 - size)) = 256 ^ (3 - size) := Nat.pow_mul 2 8 _
    rw [if_pos small, UInt64.toNat_toUInt32, UInt64.toNat_shiftLeft, distance, low,
      Nat.shiftLeft_eq, shift, power, ← Nat.mul_assoc,
      Nat.mul_div_cancel _ (Nat.pow_pos (by decide)), Nat.mod_eq_of_lt (window.trans (by decide)),
      Nat.mod_eq_of_lt (window.trans (by decide))]
  · -- More: the lower ones are shifted away.
    have power : 256 ^ size = 256 ^ (size - 3) * 256 ^ 3 := by
      rw [← Nat.pow_add, Nat.sub_add_cancel (by omega)]
    have shift : 2 ^ (8 * (size - 3)) = 256 ^ (size - 3) := Nat.pow_mul 2 8 _
    have window : value.toNat / 256 ^ (size - 3) < 256 ^ 3 := by
      apply (Nat.div_lt_iff_lt_mul (Nat.pow_pos (by decide))).mpr
      rw [Nat.mul_comm, ← power]
      exact above
    rw [if_neg small, UInt64.toNat_toUInt32, Uint256.lowU64_toNat, Uint256.toNat_shr, shift, power,
      Nat.mul_div_mul_right _ _ (Nat.pow_pos (by decide)),
      Nat.mod_eq_of_lt (window.trans (by decide)), Nat.mod_eq_of_lt (window.trans (by decide))]

/-- The encoder writes the compact form of a positive value. -/
theorem exists_compactForm {value : Uint256} (positive : 0 < value.toNat) :
    ∃ mantissa size, CompactForm value.toNat mantissa size ∧ size ≤ 33 ∧
      value.toCompact.toNat = mantissa + 2 ^ 24 * size := by
  have leading := leadingBytes_toNat positive
  obtain ⟨least, most, bottom, above⟩ := byteLength_bounds positive
  simp only [Uint256.toCompact]
  generalize (value.bitLen + 7) / 8 = size at leading least most bottom above ⊢
  generalize (if size ≤ 3 then (value.lowU64 <<< UInt64.ofNat (8 * (3 - size))).toUInt32
    else (value.shr (8 * (size - 3))).lowU64.toUInt32) = compact at leading ⊢
  have lower : 2 ^ 16 ≤ compact.toNat := by
    rw [leading]
    apply (Nat.le_div_iff_mul_le (Nat.pow_pos (by decide))).mpr
    have power : 256 ^ size = 256 ^ (size - 1) * 256 := by
      rw [← Nat.pow_succ, Nat.succ_eq_add_one, Nat.sub_add_cancel least]
    rw [power]
    omega
  have upper : compact.toNat < 2 ^ 24 := by
    rw [leading]
    apply (Nat.div_lt_iff_lt_mul (Nat.pow_pos (by decide))).mpr
    omega
  by_cases sign : compact &&& 0x00800000 = 0
  · -- The top bit is clear: the three bytes are the mantissa.
    have short := (sign_eq_zero_iff compact).mp sign
    rw [if_neg (not_not.mpr sign)]
    refine ⟨compact.toNat, size, ⟨leading, by omega, by omega⟩, by omega, ?_⟩
    exact toNat_joinSize upper (by omega)
  · -- The top bit is set: one byte moves into the size.
    have long := mt (sign_eq_zero_iff compact).mpr sign
    have shifted : (compact >>> 8).toNat = compact.toNat / 256 := by
      rw [UInt32.toNat_shiftRight, Nat.shiftRight_eq_div_pow]
      rfl
    have leading' : compact.toNat / 256 = value.toNat * 256 ^ 3 / 256 ^ (size + 1) := by
      rw [leading, Nat.div_div_eq_div_mul, ← Nat.pow_succ]
    rw [if_pos sign]
    refine ⟨compact.toNat / 256, size + 1, ⟨leading', by omega, by omega⟩, by omega, ?_⟩
    rw [← shifted]
    exact toNat_joinSize (by omega) (by omega)

/-- The word of a compact form holds its mantissa and size and a clear sign. -/
theorem word_of_compactForm {value mantissa size : Nat} {bits : UInt32}
    (form : CompactForm value mantissa size) (word : bits.toNat = mantissa + 2 ^ 24 * size) :
    compactMantissa bits = mantissa ∧ compactSize bits = size ∧ bits &&& 0x00800000 = 0 := by
  have upper : mantissa < 2 ^ 23 := form.upper
  rw [compactMantissa_eq, compactSize_eq, sign_eq_zero_iff, word]
  omega

/-- What the encoder writes for a positive value decodes, under any limit that admits it, to the
number its compact form denotes. -/
theorem decode_toCompact {value limit : Uint256} (positive : 0 < value.toNat)
    (below : value.toNat ≤ limit.toNat) :
    ∃ mantissa size target, CompactForm value.toNat mantissa size ∧
      value.toCompact.toNat = mantissa + 2 ^ 24 * size ∧
      target.toNat = compactValue mantissa size ∧
      decodeAndValidateTarget value.toCompact limit = .ok target := by
  obtain ⟨mantissa, size, form, -, word⟩ := exists_compactForm positive
  obtain ⟨sameMantissa, sameSize, sign⟩ := word_of_compactForm form word
  have rounded : compactValue mantissa size ≤ value.toNat := form.value_le (by decide)
  have some : 0 < compactValue mantissa size := form.value_pos (by decide) (by decide) positive
  obtain ⟨target, exact⟩ := Uint256.exists_toNat (rounded.trans_lt value.toNat_lt)
  refine ⟨mantissa, size, target, form, word, exact, decodeAndValidateTarget_eq_ok.mpr ?_⟩
  rw [sameMantissa, sameSize, exact]
  exact ⟨rfl, sign, some, rounded.trans below⟩

end Encoder

end Usdd.BitcoinBmm

import Usdd.BitcoinBmm.CompactLaws
/-!
# Compact targets round down exactly

Encoding a number and decoding the word gives the largest number below it that any word decodes
to, and encoding that gives the word again. Decoding is exact on every word: overflow of 256 bits
is rejected and nothing in range is.
-/
namespace Usdd.Verif

open Usdd.Foundation hiding Uint256
open Usdd.BitcoinBmm

/-- The target decoded from the encoding of a number: it is not above the number, no decodable
target lies between, and it has the same encoding. -/
theorem toCompact_rounds_down {value : Uint256} (positive : 0 < value.toNat) :
    ∃ target, decodeAndValidateTarget value.toCompact .max = .ok target ∧
      target.toNat ≤ value.toNat ∧
      (∀ bits limit other, decodeAndValidateTarget bits limit = .ok other →
        other.toNat ≤ value.toNat → other.toNat ≤ target.toNat) ∧
      target.toCompact = value.toCompact := by
  have below : value.toNat ≤ Uint256.max.toNat := by
    have fits := value.toNat_lt
    rw [Uint256.toNat_max]
    omega
  obtain ⟨mantissa, size, target, form, word, exact, decoded⟩ := decode_toCompact positive below
  have base : 0 < 256 := by decide
  have some : 0 < target.toNat := (decodeAndValidateTarget_eq_ok.mp decoded).2.2.1
  refine ⟨target, decoded, exact ▸ form.value_le base, ?_, ?_⟩
  · intro bits limit other accepted smaller
    obtain ⟨denoted, -⟩ := decodeAndValidateTarget_eq_ok.mp accepted
    rw [exact, denoted]
    rw [denoted] at smaller
    exact form.largest base (compactMantissa_lt bits) smaller
  · obtain ⟨mantissa', size', form', -, word'⟩ := exists_compactForm some
    rw [exact] at form'
    obtain ⟨rfl, rfl⟩ := (form.denoted base).unique base form'
    exact UInt32.toNat_inj.mp (word'.trans word.symm)

/-- Compact targets round down exactly, and a word is decoded exactly where its sign is clear and
the number it denotes lies in range. -/
theorem compact_targets_exact :
    (∀ value : Uint256, 0 < value.toNat →
      ∃ target, decodeAndValidateTarget value.toCompact .max = .ok target ∧
        target.toNat ≤ value.toNat ∧
        (∀ bits limit other, decodeAndValidateTarget bits limit = .ok other →
          other.toNat ≤ value.toNat → other.toNat ≤ target.toNat) ∧
        target.toCompact = value.toCompact) ∧
    (∀ (bits : UInt32) (limit target : Uint256),
      decodeAndValidateTarget bits limit = .ok target ↔
        target.toNat =
            (bits &&& 0x007fffff).toNat * 256 ^ (bits >>> 24).toNat / 256 ^ 3 ∧
          bits &&& 0x00800000 = 0 ∧ 0 < target.toNat ∧ target.toNat ≤ limit.toNat) :=
  ⟨fun _ positive => toCompact_rounds_down positive,
    fun _ _ _ => decodeAndValidateTarget_eq_ok⟩

/-- A number of 256 bits whose leading byte would reach into the sign bit, and the word of the
first difficulty. -/
theorem compact_targets_exact_sample :
    (∃ target, decodeAndValidateTarget (Uint256.fromLimbsLe 1 0 0 0x8000000000000000).toCompact
        .max = .ok target ∧ target.toNat ≤ 2 ^ 255 + 1 ∧ target.toCompact = 0x21008000) ∧
    decodeAndValidateTarget 0x1d00ffff .max = .ok (.fromLimbsLe 0 0 0 0xffff0000) := by
  obtain ⟨target, decoded, below, -, same⟩ :=
    compact_targets_exact.1 (.fromLimbsLe 1 0 0 0x8000000000000000) (by decide)
  constructor
  · exact ⟨target, decoded, below.trans (by decide), same.trans (by decide +kernel)⟩
  · apply (compact_targets_exact.2 0x1d00ffff .max (.fromLimbsLe 0 0 0 0xffff0000)).mpr
    decide

end Usdd.Verif

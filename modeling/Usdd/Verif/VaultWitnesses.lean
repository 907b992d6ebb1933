import Usdd.EthereumInbound.VaultWitnessLaws
import Usdd.Guests.EthereumState
/-!
# Vault storage witnesses have one bounded encoding

The limits that the decoder enforces node by node and those of the whole witness admit the same
witnesses. Each of them is written without a panic, in at most the bytes that the guest accepts,
and is read back from these bytes and from no others.
-/
namespace Usdd.Verif

open Usdd.Foundation Usdd.Core Usdd.EthereumInbound Usdd.Guests

/-- A witness decodes exactly from its own encoding, where it is within its limits. -/
theorem decodeExact_vaultWitness {bytes : List UInt8} {witness : VaultStorageWitness} :
    decodeExact VaultStorageWitness bytes = .ok witness ↔
      witness.validateLimits = .ok () ∧ bytes = encode witness := by
  rw [decodeExact_eq_ok, VaultStorageWitness.validateLimits_eq_ok]
  exact and_congr_left fun _ => VaultStorageWitness.validate_eq_ok

/-- The encoding of a witness within its limits is accepted by the guest's bound. -/
theorem encode_vaultWitness_le {witness : VaultStorageWitness}
    (limits : witness.validateLimits = .ok ()) :
    (encode witness).length ≤ maxVaultWitnessBytes := by
  have bound := encode_vaultWitness_length_le (VaultStorageWitness.validateLimits_eq_ok.mp limits)
  change _ ≤ 4 * 1024 * 1024 + 16 * 1024
  omega

/-- Vault storage witnesses have one bounded encoding, and the streaming limits are those of the
whole witness. -/
theorem vaultWitness_bounded_encoding :
    (∀ witness : VaultStorageWitness, witness.validateLimits = .ok () →
      encodeVaultWitnessOrPanic witness = .ok (encode witness) ∧
      decodeExact VaultStorageWitness (encode witness) = .ok witness ∧
      (encode witness).length ≤ 4 * 1024 * 1024 + 16 * 1024) ∧
    (∀ bytes witness, decodeExact VaultStorageWitness bytes = .ok witness →
      witness.validateLimits = .ok () ∧ encodeVaultWitnessOrPanic witness = .ok bytes) ∧
    (∀ witness : VaultStorageWitness, witness.validateLimits = .ok () ↔
      ∃ bytes rest, decodeVaultWitnessStreamed bytes = .ok (witness, rest)) := by
  refine ⟨?_, ?_, ?_⟩
  · intro witness limits
    have numbers := VaultStorageWitness.validateLimits_eq_ok.mp limits
    exact ⟨encodeVaultWitnessOrPanic_of_limits numbers,
      decodeExact_vaultWitness.mpr ⟨limits, rfl⟩, encode_vaultWitness_le limits⟩
  · intro bytes witness decoded
    obtain ⟨limits, rfl⟩ := decodeExact_vaultWitness.mp decoded
    exact ⟨limits, encodeVaultWitnessOrPanic_of_limits
      (VaultStorageWitness.validateLimits_eq_ok.mp limits)⟩
  · intro witness
    rw [VaultStorageWitness.validateLimits_eq_ok]
    constructor
    · intro limits
      exact ⟨encode witness ++ [], [], (reads_decodeVaultWitnessStreamed _ _ _).mpr ⟨limits, rfl⟩⟩
    · rintro ⟨bytes, rest, streamed⟩
      exact ((reads_decodeVaultWitnessStreamed _ _ _).mp streamed).1

/-- A witness of one account node and one deposit. -/
theorem vaultWitness_bounded_encoding_sample :
    decodeExact VaultStorageWitness
      (encode (⟨⟨1, .zero 32, .zero, .zero, [[0xc0]]⟩, [⟨[[0x80]]⟩]⟩ : VaultStorageWitness)) =
        .ok ⟨⟨1, .zero 32, .zero, .zero, [[0xc0]]⟩, [⟨[[0x80]]⟩]⟩ :=
  (vaultWitness_bounded_encoding.1 _ (by decide)).2.1

end Usdd.Verif

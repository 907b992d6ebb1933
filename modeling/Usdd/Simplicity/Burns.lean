import Usdd.Simplicity.Formats
/-!
# Burn payloads of the Simplicity tools

The tools write a burn payload only where the amount fits the explicit outputs of a transaction.
They read one where the converted amount fits a word, which is a larger range.
-/
namespace Usdd.Simplicity

open Usdd.Foundation Usdd.TypeScript
open Usdd.Core (encode)

/-- `BURN_MAGIC`, the bytes `USDD`. -/
def burnMagic : List UInt8 := [0x55, 0x53, 0x44, 0x44]

/-- `BURN_DATA_SIZE`. -/
def burnDataSize : Nat := 65

/-- `BURN_SCRIPT_SIZE`. -/
def burnScriptSize : Nat := 67

/-- The opcodes in front of a burn payload: `OP_RETURN` and a direct push. -/
def burnScriptPrefix : List UInt8 := [0x6a, 0x41]

/-- The class `BurnData`. -/
structure BurnData where
  vaultId : List UInt8
  ethereumRecipient : List UInt8
  amountUsdt6 : Int

/-- `encode_burn_data`. -/
def encodeBurnData (vaultId ethereumRecipient : List UInt8) (amountUsdt6 : Int) :
    Except String (List UInt8) := do
  checkBytes "vault_id" vaultId (some 32) true
  checkBytes "ethereum_recipient" ethereumRecipient (some 20) true
  let amountUsdd8 ← usdt6ToUsdd8 amountUsdt6
  rejectIf (amountUsdd8 > maxMintBatchUsddBase) "burn exceeds the Elements explicit-output limit"
  let data := [burnMagic, [1], vaultId, ethereumRecipient, beBytes 8 amountUsdt6.toNat].flatten
  rejectIf (data.length ≠ burnDataSize) "AssertionError"
  return data

/-- `decode_burn_data`: the fields are those of the format `>4sB32s20sQ`. -/
def decodeBurnData (data : List UInt8) : Except String BurnData := do
  checkBytes "burn data" data (some burnDataSize) false
  let magic := slice data 0 4
  let version := beNat (slice data 4 5)
  let vault := slice data 5 37
  let recipient := slice data 37 57
  let amount : Int := beNat (slice data 57 65)
  rejectIf (magic ≠ burnMagic ∨ version ≠ 1) "invalid burn magic/version"
  checkBytes "vault_id" vault (some 32) true
  checkBytes "ethereum_recipient" recipient (some 20) true
  let _ ← usdt6ToUsdd8 amount
  return ⟨vault, recipient, amount⟩

/-- `encode_burn_script`. -/
def encodeBurnScript (vaultId ethereumRecipient : List UInt8) (amountUsdt6 : Int) :
    Except String (List UInt8) := do
  let data ← encodeBurnData vaultId ethereumRecipient amountUsdt6
  return burnScriptPrefix ++ data

/-- `decode_burn_script`. -/
def decodeBurnScript (script : List UInt8) : Except String BurnData := do
  checkBytes "burn script" script (some burnScriptSize) false
  rejectIf (slice script 0 2 ≠ burnScriptPrefix)
    "burn script must use minimal OP_RETURN direct push 0x41"
  decodeBurnData (script.drop 2)

section Laws

/-- A burn payload of the crate in the tools. -/
def BurnData.ofCore (payload : Core.BurnPayload) : BurnData where
  vaultId := payload.vaultId.bytes
  ethereumRecipient := payload.ethereumRecipient.bytes
  amountUsdt6 := payload.amountUsdtMicro.toNat

/-- What the tools' decoder requires of a payload: its fields are there and its amount converts
within a word. -/
structure Convertible (payload : Core.BurnPayload) : Prop where
  vault : payload.vaultId ≠ .zero
  recipient : payload.ethereumRecipient ≠ .zero
  positive : 0 < payload.amountUsdtMicro.toNat
  converts : payload.amountUsdtMicro.toNat * 100 ≤ 18446744073709551615

theorem beNat_word (value : UInt64) : beNat (encode value) = value.toNat :=
  beNat_beBytes_of_lt value.toNat_lt

/-- The crate's payloads are the convertible ones within the budget of a transaction. -/
theorem validate_iff {payload : Core.BurnPayload} :
    payload.validate = .ok () ↔
      Convertible payload ∧ payload.amountUsdtMicro.toNat ≤ 20000000000000 := by
  have limit : Core.maxBurnAmountUsdtMicro.toNat = 20000000000000 :=
    Core.maxMintBatchUsdtMicro_toNat
  have zero : payload.amountUsdtMicro = 0 ↔ payload.amountUsdtMicro.toNat = 0 :=
    UInt64.toNat_inj.symm
  rw [Core.BurnPayload.validate, rejectIf_eq_ok, not_or, not_or, not_or, not_or, gt_iff_lt,
    UInt64.lt_iff_toNat_lt, limit, zero]
  constructor
  · rintro ⟨vault, recipient, positive, bound, -⟩
    exact ⟨⟨vault, recipient, by omega, by omega⟩, by omega⟩
  · rintro ⟨convertible, bound⟩
    obtain ⟨base, converted, -⟩ := Core.usdtMicroToUsddBase_of_le bound
    have positive := convertible.positive
    refine ⟨convertible.vault, convertible.recipient, by omega, by omega, ?_⟩
    rw [converted]
    exact Option.some_ne_none base

/-- The tools write the payloads that the crate accepts. -/
theorem encodeBurnData_eq_ok {vaultId recipient : List UInt8} {amount : Int}
    {data : List UInt8} :
    encodeBurnData vaultId recipient amount = .ok data ↔
      ∃ payload : Core.BurnPayload, payload.validate = .ok () ∧
        vaultId = payload.vaultId.bytes ∧ recipient = payload.ethereumRecipient.bytes ∧
        amount = payload.amountUsdtMicro.toNat ∧ data = encode payload := by
  simp only [encodeBurnData]
  simp only [↓then_eq_ok, bind_eq_ok, rejectIf_eq_ok, pure_eq_ok, checkBytes_eq_ok]
  constructor
  · rintro ⟨⟨vault, rfl, vaultNe⟩, ⟨recipient, rfl, recipientNe⟩, converted, amounts, budget,
      -, rfl⟩
    obtain ⟨positive, fits, rfl⟩ := usdt6ToUsdd8_eq_ok.mp amounts
    simp only [maxMintBatchUsddBase, u64Max] at budget fits
    have word : amount.toNat < 2 ^ 64 := by omega
    have same : (UInt64.ofNat amount.toNat).toNat = amount.toNat :=
      UInt64.toNat_ofNat_of_lt' word
    refine ⟨⟨vault, recipient, .ofNat amount.toNat⟩, ?_, rfl, rfl, ?_, ?_⟩
    · rw [validate_iff]
      exact ⟨⟨vaultNe trivial, recipientNe trivial, by rw [same]; omega, by rw [same]; omega⟩,
        by rw [same]; omega⟩
    · rw [same]
      omega
    · simp only [encode, same, Core.burnPayloadMagic]
      rfl
  · rintro ⟨payload, valid, rfl, rfl, rfl, rfl⟩
    obtain ⟨convertible, bound⟩ := validate_iff.mp valid
    have positive := convertible.positive
    have converts := convertible.converts
    refine ⟨⟨payload.vaultId, rfl, fun _ => convertible.vault⟩,
      ⟨payload.ethereumRecipient, rfl, fun _ => convertible.recipient⟩, _,
      usdt6ToUsdd8_eq_ok.mpr ⟨by omega, by simp only [u64Max]; omega, rfl⟩, ?_, ?_, rfl⟩
    · simp only [maxMintBatchUsddBase]
      omega
    · have length : (encode payload).length = 65 := by simp [encode, FixedBytes.length_eq]
      exact not_not.mpr length

/-- The tools read the payloads that convert. -/
theorem decodeBurnData_eq_ok {data : List UInt8} {value : BurnData} :
    decodeBurnData data = .ok value ↔ ∃ payload : Core.BurnPayload,
      Convertible payload ∧ data = encode payload ∧ value = .ofCore payload := by
  simp only [decodeBurnData]
  simp only [↓then_eq_ok, bind_eq_ok, rejectIf_eq_ok, pure_eq_ok, checkBytes_eq_ok, not_or,
    not_not, ne_eq]
  constructor
  · rintro ⟨⟨whole, wholeEq, -⟩, ⟨magic, version⟩, ⟨vault, vaultEq, vaultNe⟩,
      ⟨recipient, recipientEq, recipientNe⟩, converted, amounts, rfl⟩
    have length : data.length = 65 := by rw [wholeEq, whole.length_eq, burnDataSize]
    obtain ⟨payload, rfl⟩ := exists_burnPayload length magic
      (byte_of_number (slice_length (by omega)) version)
    obtain ⟨-, -, vaultIs, recipientIs, amountIs⟩ := slices_burnPayload payload
    rw [vaultIs] at vaultEq
    rw [recipientIs] at recipientEq
    rw [vaultIs, recipientIs, amountIs, beNat_word]
    rw [amountIs, beNat_word] at amounts
    obtain ⟨positive, fits, -⟩ := usdt6ToUsdd8_eq_ok.mp amounts
    simp only [u64Max] at fits
    refine ⟨payload, ⟨?_, ?_, by omega, by omega⟩, rfl, rfl⟩
    · rw [FixedBytes.ext vaultEq]
      exact vaultNe trivial
    · rw [FixedBytes.ext recipientEq]
      exact recipientNe trivial
  · rintro ⟨payload, convertible, rfl, rfl⟩
    obtain ⟨magic, version, vaultIs, recipientIs, amountIs⟩ := slices_burnPayload payload
    have length : (encode payload).length = 65 := by simp [encode, FixedBytes.length_eq]
    have positive := convertible.positive
    have converts := convertible.converts
    rw [magic, version, vaultIs, recipientIs, amountIs, beNat_word]
    refine ⟨⟨⟨encode payload, length⟩, rfl, ?_⟩, ⟨rfl, rfl⟩,
      ⟨payload.vaultId, rfl, fun _ => convertible.vault⟩,
      ⟨payload.ethereumRecipient, rfl, fun _ => convertible.recipient⟩, _,
      usdt6ToUsdd8_eq_ok.mpr ⟨by omega, by simp only [u64Max]; omega, rfl⟩, rfl⟩
    simp

theorem encodeBurnScript_eq_ok {vaultId recipient : List UInt8} {amount : Int}
    {script : List UInt8} :
    encodeBurnScript vaultId recipient amount = .ok script ↔
      ∃ data, encodeBurnData vaultId recipient amount = .ok data ∧
        script = burnScriptPrefix ++ data := by
  simp only [encodeBurnScript, bind_eq_ok, pure_eq_ok, @eq_comm _ script]

/-- A script is read where it is the two opcodes and a payload that is read. -/
theorem decodeBurnScript_eq_ok {script : List UInt8} {value : BurnData} :
    decodeBurnScript script = .ok value ↔
      ∃ data, script = burnScriptPrefix ++ data ∧ decodeBurnData data = .ok value := by
  simp only [decodeBurnScript]
  simp only [↓then_eq_ok, rejectIf_eq_ok, checkBytes_eq_ok, not_not, ne_eq]
  constructor
  · rintro ⟨-, front, decoded⟩
    refine ⟨script.drop 2, ?_, decoded⟩
    rw [← front, slice, List.drop_zero]
    exact (List.take_append_drop 2 script).symm
  · rintro ⟨data, rfl, decoded⟩
    obtain ⟨payload, -, rfl, rfl⟩ := decodeBurnData_eq_ok.mp decoded
    have length : (burnScriptPrefix ++ encode payload).length = burnScriptSize := by
      simp [encode, FixedBytes.length_eq, burnScriptPrefix, burnScriptSize]
    refine ⟨⟨⟨_, length⟩, rfl, ?_⟩, rfl, decoded⟩
    simp

end Laws

end Usdd.Simplicity

import Usdd.Simplicity.Burns
/-!
# Decoders of one burn payload

The crate, the client and the Simplicity tools read one payload of 65 bytes. The first two hold
the amount to the budget that all three encoders hold it to; the tools' decoder holds it only to
what converts within a word. Between the two limits the tools read what nobody writes.
-/
namespace Usdd.Verif

open Usdd.Foundation Usdd.Core

/-- A payload whose amount converts within a word but is above the budget of a transaction. -/
def OverBudget (data : List UInt8) : Prop :=
  ∃ payload : BurnPayload, Simplicity.Convertible payload ∧
    20000000000000 < payload.amountUsdtMicro.toNat ∧ data = encode payload

/-- The decoders read what the encoder can write, and all of them the same. -/
structure BurnDecodersAgree (bytes : List UInt8) : Prop where
  script : (∃ burn, Simplicity.decodeBurnScript bytes = .ok burn) ↔
    ∃ vaultId recipient amount,
      Simplicity.encodeBurnScript vaultId recipient amount = .ok bytes
  tools : ∀ burn, Simplicity.decodeBurnData bytes = .ok burn ↔
    ∃ payload, decodeExact BurnPayload bytes = .ok payload ∧ burn = .ofCore payload
  client : ∀ value, TypeScript.decodeBurnPayload bytes = .ok value ↔
    ∃ payload, decodeExact BurnPayload bytes = .ok payload ∧ value = .ofCore payload
  amount : ∀ burn, Simplicity.decodeBurnData bytes = .ok burn ∨
    Simplicity.decodeBurnScript bytes = .ok burn →
      1 ≤ burn.amountUsdt6 ∧ burn.amountUsdt6 ≤ 20000000000000

section Limits

theorem decodeExact_burnPayload {bytes : List UInt8} {payload : BurnPayload} :
    decodeExact BurnPayload bytes = .ok payload ↔
      (Simplicity.Convertible payload ∧ payload.amountUsdtMicro.toNat ≤ 20000000000000) ∧
        bytes = encode payload := by
  rw [decodeExact_eq_ok, ← Simplicity.validate_iff]
  rfl

/-- What the tools read is what the crate reads, or over the budget. -/
theorem decodeBurnData_cases {bytes : List UInt8} {burn : Simplicity.BurnData}
    (decoded : Simplicity.decodeBurnData bytes = .ok burn) :
    (∃ payload, decodeExact BurnPayload bytes = .ok payload ∧ burn = .ofCore payload) ∨
      OverBudget bytes := by
  obtain ⟨payload, convertible, written, rfl⟩ := Simplicity.decodeBurnData_eq_ok.mp decoded
  by_cases bound : payload.amountUsdtMicro.toNat ≤ 20000000000000
  · exact Or.inl ⟨payload, decodeExact_burnPayload.mpr ⟨⟨convertible, bound⟩, written⟩, rfl⟩
  · exact Or.inr ⟨payload, convertible, by omega, written⟩

theorem decodeBurnData_of_core {bytes : List UInt8} {payload : BurnPayload}
    (decoded : decodeExact BurnPayload bytes = .ok payload) :
    Simplicity.decodeBurnData bytes = .ok (.ofCore payload) := by
  obtain ⟨⟨convertible, -⟩, written⟩ := decodeExact_burnPayload.mp decoded
  exact Simplicity.decodeBurnData_eq_ok.mpr ⟨payload, convertible, written, rfl⟩

/-- A payload over the budget is read with its amount. -/
theorem OverBudget.decoded {bytes : List UInt8} (exceeds : OverBudget bytes) :
    ∃ burn, Simplicity.decodeBurnData bytes = .ok burn ∧ 20000000000000 < burn.amountUsdt6 := by
  obtain ⟨payload, convertible, above, written⟩ := exceeds
  refine ⟨.ofCore payload, Simplicity.decodeBurnData_eq_ok.mpr
    ⟨payload, convertible, written, rfl⟩, ?_⟩
  simp only [Simplicity.BurnData.ofCore]
  omega

theorem amount_of_core {bytes : List UInt8} {payload : BurnPayload}
    (decoded : decodeExact BurnPayload bytes = .ok payload) :
    1 ≤ (Simplicity.BurnData.ofCore payload).amountUsdt6 ∧
      (Simplicity.BurnData.ofCore payload).amountUsdt6 ≤ 20000000000000 := by
  obtain ⟨⟨convertible, bound⟩, -⟩ := decodeExact_burnPayload.mp decoded
  have positive := convertible.positive
  simp only [Simplicity.BurnData.ofCore]
  omega

/-- The tools write what the crate reads. -/
theorem encodeBurnData_iff {data : List UInt8} :
    (∃ vaultId recipient amount,
      Simplicity.encodeBurnData vaultId recipient amount = .ok data) ↔
      ∃ payload, decodeExact BurnPayload data = .ok payload := by
  constructor
  · rintro ⟨vaultId, recipient, amount, written⟩
    obtain ⟨payload, valid, -, -, -, bytes⟩ := Simplicity.encodeBurnData_eq_ok.mp written
    exact ⟨payload, decodeExact_eq_ok.mpr ⟨valid, bytes⟩⟩
  · rintro ⟨payload, decoded⟩
    obtain ⟨valid, bytes⟩ := decodeExact_eq_ok.mp decoded
    exact ⟨_, _, _, Simplicity.encodeBurnData_eq_ok.mpr ⟨payload, valid, rfl, rfl, rfl, bytes⟩⟩

end Limits

/-- The decoders agree on a byte string exactly where it is not over the budget, nor a script
of a payload that is. -/
theorem burn_decoders_agree_iff (bytes : List UInt8) :
    BurnDecodersAgree bytes ↔ ¬OverBudget bytes ∧
      ∀ data, bytes = Simplicity.burnScriptPrefix ++ data → ¬OverBudget data := by
  constructor
  · intro agree
    constructor
    · intro exceeds
      obtain ⟨burn, decoded, above⟩ := exceeds.decoded
      have bound := (agree.amount burn (Or.inl decoded)).2
      omega
    · intro data script exceeds
      obtain ⟨burn, decoded, above⟩ := exceeds.decoded
      have whole := Simplicity.decodeBurnScript_eq_ok.mpr ⟨data, script, decoded⟩
      have bound := (agree.amount burn (Or.inr whole)).2
      omega
  · rintro ⟨within, withinScript⟩
    have tools : ∀ burn, Simplicity.decodeBurnData bytes = .ok burn ↔
        ∃ payload, decodeExact BurnPayload bytes = .ok payload ∧ burn = .ofCore payload := by
      intro burn
      constructor
      · intro decoded
        exact (decodeBurnData_cases decoded).resolve_right within
      · rintro ⟨payload, decoded, rfl⟩
        exact decodeBurnData_of_core decoded
    have inScript : ∀ burn, Simplicity.decodeBurnScript bytes = .ok burn →
        ∃ data payload, bytes = Simplicity.burnScriptPrefix ++ data ∧
          decodeExact BurnPayload data = .ok payload ∧ burn = .ofCore payload := by
      intro burn decoded
      obtain ⟨data, script, inner⟩ := Simplicity.decodeBurnScript_eq_ok.mp decoded
      obtain ⟨payload, exact, same⟩ :=
        (decodeBurnData_cases inner).resolve_right (withinScript data script)
      exact ⟨data, payload, script, exact, same⟩
    refine ⟨?_, tools, ?_, ?_⟩
    · constructor
      · rintro ⟨burn, decoded⟩
        obtain ⟨data, payload, script, exact, -⟩ := inScript burn decoded
        obtain ⟨vaultId, recipient, amount, written⟩ := encodeBurnData_iff.mpr ⟨payload, exact⟩
        exact ⟨vaultId, recipient, amount,
          Simplicity.encodeBurnScript_eq_ok.mpr ⟨data, written, script⟩⟩
      · rintro ⟨vaultId, recipient, amount, written⟩
        obtain ⟨data, inner, script⟩ := Simplicity.encodeBurnScript_eq_ok.mp written
        obtain ⟨payload, exact⟩ := encodeBurnData_iff.mp ⟨_, _, _, inner⟩
        exact ⟨_, Simplicity.decodeBurnScript_eq_ok.mpr
          ⟨data, script, decodeBurnData_of_core exact⟩⟩
    · intro value
      exact TypeScript.agrees_burnPayload.accepts bytes value
    · rintro burn (decoded | decoded)
      · obtain ⟨payload, exact, rfl⟩ := (tools burn).mp decoded
        exact amount_of_core exact
      · obtain ⟨data, payload, -, exact, rfl⟩ := inScript burn decoded
        exact amount_of_core exact

/-- One micro-unit over the budget. -/
def overBudgetPayload : BurnPayload := ⟨.ofNat 32 1, .ofNat 20 1, 20000000000001⟩

theorem burn_decoders_disagree : ¬BurnDecodersAgree (encode overBudgetPayload) := by
  intro agree
  have decoded : Simplicity.decodeBurnData (encode overBudgetPayload) =
      .ok (.ofCore overBudgetPayload) := by
    refine Simplicity.decodeBurnData_eq_ok.mpr ⟨_, ⟨?_, ?_, ?_, ?_⟩, rfl, rfl⟩ <;> decide
  have bound := (agree.amount _ (Or.inl decoded)).2
  exact absurd bound (by decide)

end Usdd.Verif

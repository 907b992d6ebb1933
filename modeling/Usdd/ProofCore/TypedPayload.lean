import Usdd.ProofCore.CodecLaws
import Usdd.ProofCore.Journal
/-!
# Typed payloads

A payload decodes by trial as one of three records. The tags of the records tell them apart, so a
payload is at most one of them, and it is the encoding of what it decodes to.
-/
namespace Usdd.ProofCore

open Usdd.Foundation Usdd.Core

section Lengths

@[simp]
theorem encodeHeader_length (tag : UInt16) : (encodeHeader tag).length = 4 := by
  rw [encodeHeader, List.length_append, encode_u16_length, encode_u16_length]

@[simp]
theorem encode_controllerState_length (state : MintControllerState) :
    (encode state).length = 164 := by
  simp [encode, FixedBytes.length_eq]

theorem encode_mintOutput_length_le {output : MintOutput} (valid : output.Valid) :
    (encode output).length ≤ 192 := by
  have script := valid.script_le
  have length : (encode output).length = 64 + output.elementsScript.length := by
    simp [encode, FixedBytes.length_eq]
    omega
  omega

theorem encode_mintBatch_length_le {batch : MintBatch} (valid : batch.Valid) :
    (encode batch).length ≤ 12325 := by
  have outputs : (batch.outputs.map encode).flatten.length ≤ 192 * batch.outputs.length := by
    rw [List.length_flatten, List.map_map, Nat.mul_comm]
    refine le_of_le_of_eq (List.sum_le_card_nsmul _ 192 fun length present => ?_)
      (by rw [List.length_map, smul_eq_mul])
    obtain ⟨output, member, rfl⟩ := List.mem_map.mp present
    exact encode_mintOutput_length_le (valid.outputs output member)
  have size := valid.size_le
  have length : (encode batch).length = 37 + (batch.outputs.map encode).flatten.length := by
    simp [encode, encodeCount]
    omega
  omega

@[simp]
theorem encode_bridgeState_length (state : SolidityElementsBridgeState) :
    (encode state).length = 204 := by
  simp [encode, SolidityElementsBridgeState.packedContents,
    SolidityElementsBridgeState.packedSegments, FixedBytes.length_eq]

end Lengths

/-- The record that typed public values are written as. -/
def TypedPublicValues.encode : TypedPublicValues → List UInt8
  | .deposit output => Core.encode output
  | .heartbeat output => Core.encode output
  | .elementsState output => Core.encode output

/-- The statement kind that typed public values belong to. -/
def TypedPublicValues.kind : TypedPublicValues → StatementKind
  | .deposit _ => .ethereumState
  | .heartbeat _ => .ethereumState
  | .elementsState _ => .elementsState

/-- Records with different tags have different bytes. -/
theorem header_apart {tag tag' : UInt16} {rest rest' : List UInt8} (apart : tag ≠ tag') :
    encodeHeader tag ++ rest ≠ encodeHeader tag' ++ rest' := by
  intro same
  have headers := (List.append_inj same (by simp)).1
  have tags := (List.append_inj headers rfl).2
  have equal := (reads_u16.write_inj trivial trivial (congrArg (· ++ []) tags)).1
  exact apart equal

theorem deposit_ne_heartbeat (deposit : DepositPublicOutput) (heartbeat : HeartbeatPublicOutput) :
    encode deposit ≠ encode heartbeat :=
  header_apart (by decide)

theorem deposit_ne_elements (deposit : DepositPublicOutput) (elements : ElementsStatePublicOutput) :
    encode deposit ≠ encode elements :=
  header_apart (by decide)

theorem heartbeat_ne_elements (heartbeat : HeartbeatPublicOutput)
    (elements : ElementsStatePublicOutput) : encode heartbeat ≠ encode elements :=
  header_apart (by decide)

variable [Hashing]

/-- The decode-time conditions of typed public values. -/
def TypedPublicValues.DecodeValid : TypedPublicValues → Prop
  | .deposit output => output.validate = .ok ()
  | .heartbeat output => output.validate = .ok ()
  | .elementsState output => output.validate = .ok ()

/-- A payload decodes to typed public values of a kind when they are valid, of that kind, and
written as the payload. -/
theorem TypedPublicValues.decode_eq_ok {kind : StatementKind} {payload : List UInt8}
    {value : TypedPublicValues} : TypedPublicValues.decode kind payload = .ok value ↔
      value.DecodeValid ∧ value.kind = kind ∧
        payload = value.encode := by
  have deposit := @decodeExact_eq_ok DepositPublicOutput _ _ _ payload
  have heartbeat := @decodeExact_eq_ok HeartbeatPublicOutput _ _ _ payload
  have elements := @decodeExact_eq_ok ElementsStatePublicOutput _ _ _ payload
  cases kind with
  | ethereumState =>
    simp only [TypedPublicValues.decode]
    cases first : decodeExact DepositPublicOutput payload with
    | ok output =>
      obtain ⟨valid, rfl⟩ := deposit.mp first
      constructor
      · rintro ⟨rfl⟩
        exact ⟨valid, rfl, rfl⟩
      · rintro ⟨holds, same, written⟩
        cases value with
        | deposit other =>
          have equal := encode_injOn valid holds written
          rw [equal]
        | heartbeat other => exact absurd written (deposit_ne_heartbeat output other)
        | elementsState other => exact nomatch same
    | error failed =>
      have none_ (output : DepositPublicOutput) (valid : output.validate = .ok ()) :
          payload ≠ Core.encode output := fun same =>
        absurd (first.symm.trans (deposit.mpr ⟨valid, same⟩)) (by simp)
      cases second : decodeExact HeartbeatPublicOutput payload with
      | ok output =>
        obtain ⟨valid, rfl⟩ := heartbeat.mp second
        constructor
        · rintro ⟨rfl⟩
          exact ⟨valid, rfl, rfl⟩
        · rintro ⟨holds, same, written⟩
          cases value with
          | deposit other => exact absurd written (none_ other holds)
          | heartbeat other =>
            have equal := encode_injOn valid holds written
            rw [equal]
          | elementsState other => exact nomatch same
      | error failed' =>
        constructor
        · rintro ⟨⟩
        · rintro ⟨holds, same, written⟩
          cases value with
          | deposit other => exact absurd written (none_ other holds)
          | heartbeat other =>
            exact absurd (second.symm.trans (heartbeat.mpr ⟨holds, written⟩)) (by simp)
          | elementsState other => exact nomatch same
  | elementsState =>
    simp only [TypedPublicValues.decode]
    cases first : decodeExact ElementsStatePublicOutput payload with
    | ok output =>
      obtain ⟨valid, rfl⟩ := elements.mp first
      constructor
      · rintro ⟨rfl⟩
        exact ⟨valid, rfl, rfl⟩
      · rintro ⟨holds, same, written⟩
        cases value with
        | deposit other => exact nomatch same
        | heartbeat other => exact nomatch same
        | elementsState other =>
          have equal := encode_injOn valid holds written
          rw [equal]
    | error failed =>
      constructor
      · rintro ⟨⟩
      · rintro ⟨holds, same, written⟩
        cases value with
        | deposit other => exact nomatch same
        | heartbeat other => exact nomatch same
        | elementsState other =>
          exact absurd (first.symm.trans (elements.mpr ⟨holds, written⟩)) (by simp)

/-- Valid typed public values have fewer than `2 ^ 32` bytes. -/
theorem TypedPublicValues.encode_length_lt {value : TypedPublicValues}
    (valid : value.DecodeValid) : value.encode.length < 2 ^ 32 := by
  cases value with
  | deposit output =>
    have batch := MintBatch.validate_eq_ok.mp (DepositPublicOutput.parts_valid valid).2.2
    have bound := encode_mintBatch_length_le batch
    change [encodeHeader tagDepositPublicOutput, Core.encode output.manifestId,
      Core.encode output.claimId, Core.encode output.priorState, Core.encode output.nextState,
      Core.encode output.finalizedExecutionBlockTimestamp,
      Core.encode output.mintBatch].flatten.length < _
    simp
    omega
  | heartbeat output =>
    change [encodeHeader tagHeartbeatPublicOutput, Core.encode output.manifestId,
      Core.encode output.claimId, Core.encode output.priorState, Core.encode output.nextState,
      Core.encode output.finalizedExecutionBlockTimestamp].flatten.length < _
    simp
  | elementsState output =>
    change [encodeHeader tagElementsStatePublicOutput, Core.encode output.manifestId,
      Core.encode output.claimId, Core.encode output.priorBridgeStateHash,
      Core.encode output.nextBridgeStateHash, Core.encode output.verifierStatement,
      Core.encode output.priorState, Core.encode output.nextState].flatten.length < _
    simp

end Usdd.ProofCore

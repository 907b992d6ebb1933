import Usdd.Verif.ControllerModels
import Usdd.Verif.ControllerRuns
/-!
# Traces of the two controllers

A controller state is stored as bytes. The Simplicity tools are shown the next state as bytes and
check the step to it, and the crate computes the next state from a batch or a witness. Seen from
outside, through the amounts that are minted and the bytes that are stored, the tools and the crate
have the same runs, as long as mints keep to the rules on the finalized context.
-/
namespace Usdd.Verif

open Usdd.Foundation Usdd.Foundation.Attempts Usdd.Core Usdd.ProofCore
open Usdd.Simplicity (ControllerState decodeControllerState encodeControllerState)

section Codec

/-- The bytes of a state that the tools unpack are those of the crate's state. -/
theorem unpackControllerState_encode (state : MintControllerState) :
    Simplicity.unpackControllerState (encode state) = .ofCore state := by
  have slices := TypeScript.slices_controllerState state
  simp only [TypeScript.readUintBe_eq, TypeScript.MintControllerState.ofCore,
    TypeScript.MintControllerState.mk.injEq] at slices
  obtain ⟨version, sequence, nonce, digest, slot, root, stateRoot, total, config⟩ := slices
  simp only [Simplicity.unpackControllerState, ControllerState.ofCore, version, sequence, nonce,
    digest, slot, root, stateRoot, total, config]

/-- The tools read the states that the crate reads. -/
theorem decodeControllerState_eq_ok {bytes : List UInt8} {value : ControllerState} :
    decodeControllerState bytes = .ok value ↔
      ∃ state : MintControllerState, state.Valid ∧ bytes = encode state ∧ value = .ofCore state := by
  simp only [decodeControllerState]
  simp only [↓then_eq_ok, Simplicity.checkBytes_eq_ok, pure_eq_ok]
  constructor
  · rintro ⟨⟨whole, rfl, _⟩, validated, rfl⟩
    obtain ⟨state, same⟩ := TypeScript.exists_controllerState whole.length_eq
    rw [same, unpackControllerState_encode] at validated ⊢
    exact ⟨state, Simplicity.validateControllerState_ofCore.mp validated, rfl, rfl⟩
  · rintro ⟨state, valid, rfl, rfl⟩
    have length : (encode state).length = 164 := encode_controllerState_length state
    rw [unpackControllerState_encode]
    exact ⟨⟨⟨_, length⟩, rfl, by simp⟩, Simplicity.validateControllerState_ofCore.mpr valid, rfl⟩

/-- The tools write the states that they accept as the crate does. -/
theorem encodeControllerState_eq_ok {value : ControllerState} {bytes : List UInt8} :
    encodeControllerState value = .ok bytes ↔
      ∃ state : MintControllerState, state.Valid ∧ value = .ofCore state ∧ bytes = encode state := by
  simp only [encodeControllerState]
  simp only [↓then_eq_ok, rejectIf_eq_ok, pure_eq_ok, Simplicity.validateControllerState_eq_ok]
  have packed : ∀ state : MintControllerState,
      Simplicity.packControllerState (.ofCore state) = encode state := fun _ => rfl
  constructor
  · rintro ⟨⟨state, valid, rfl⟩, _, rfl⟩
    exact ⟨state, valid, rfl, packed state⟩
  · rintro ⟨state, valid, rfl, rfl⟩
    have length : (encode state).length = 164 := encode_controllerState_length state
    rw [packed]
    exact ⟨⟨state, valid, rfl⟩, not_not.mpr length, rfl⟩

end Codec

section Heartbeats

/-- A heartbeat rests on its witness only through the context that the next state keeps. -/
theorem heartbeatStep_witnessOf {prior next : MintControllerState}
    {finality : EthereumFinalityWitness} (step : prior.HeartbeatStep finality next) :
    prior.HeartbeatStep (witnessOf next) next := by
  have slot : next.finalizedBeaconSlot = finality.finalizedBeaconSlot := step.context.slot
  refine ⟨step.valid, witnessOf_valid step.next_valid (sequence_ne_zero step.sequence), ?_,
    advance_of_context step.context step.advance, step.version, step.sequence, step.nextNonce,
    context_witnessOf next, step.total, step.configuration⟩
  change _ < next.finalizedBeaconSlot.toNat
  rw [slot]
  exact step.newer

/-- The tools accept the heartbeats that the crate can make. -/
theorem validateHeartbeatTransition_iff {current proposed : ControllerState} :
    Simplicity.validateHeartbeatTransition current proposed = .ok () ↔
      ∃ prior next : MintControllerState, current = .ofCore prior ∧ proposed = .ofCore next ∧
        prior.HeartbeatStep (witnessOf next) next := by
  simp only [Simplicity.validateHeartbeatTransition]
  simp only [↓then_eq_ok, rejectIf_eq_ok, not_or, not_not, not_lt, not_le, ne_eq,
    Simplicity.validateControllerState_eq_ok]
  constructor
  · rintro ⟨⟨prior, priorValid, rfl⟩, ⟨next, nextValid, rfl⟩, ⟨_, sequence⟩, ⟨nonce, total⟩,
      ⟨_, config⟩, newer, gap, digest⟩
    simp only [ControllerState.ofCore, Simplicity.maxEthereumFinalitySlotGap] at *
    have advanced : next.sequence.toNat = prior.sequence.toNat + 1 := by omega
    have later : prior.finalizedBeaconSlot.toNat < next.finalizedBeaconSlot.toNat := by omega
    have apart : next.ethereumLightClientDigest ≠ prior.ethereumLightClientDigest :=
      fun same => digest (congrArg FixedBytes.bytes same)
    refine ⟨prior, next, rfl, rfl, priorValid,
      witnessOf_valid nextValid (sequence_ne_zero advanced), later,
      ⟨Nat.le_of_lt later, by change next.finalizedBeaconSlot.toNat ≤ _; omega, ?_, fun _ => apart⟩,
      nextValid.version.trans priorValid.version.symm, advanced, UInt64.toNat_inj.mp (by omega),
      context_witnessOf next, UInt64.toNat_inj.mp (by omega), FixedBytes.ext config⟩
    intro same _
    have stands : next.finalizedBeaconSlot = prior.finalizedBeaconSlot := same
    rw [stands] at later
    exact absurd later (Nat.lt_irrefl _)
  · rintro ⟨prior, next, rfl, rfl, step⟩
    have sequence := step.sequence
    have sequenceFits := next.sequence.toNat_lt
    have newer : prior.finalizedBeaconSlot.toNat < next.finalizedBeaconSlot.toNat := step.newer
    have gap : next.finalizedBeaconSlot.toNat ≤ prior.finalizedBeaconSlot.toNat + 4096 :=
      step.advance.gap_le
    have apart : next.ethereumLightClientDigest ≠ prior.ethereumLightClientDigest :=
      step.advance.newer newer
    refine ⟨⟨prior, step.valid, rfl⟩, ⟨next, step.next_valid, rfl⟩, ?_, ?_, ?_, ?_, ?_, ?_⟩
    · simp only [ControllerState.ofCore, Simplicity.u64Max]
      omega
    · simp only [ControllerState.ofCore, step.nextNonce, step.total, and_self]
    · simp only [ControllerState.ofCore, step.version, step.configuration, and_self]
    · simp only [ControllerState.ofCore]
      omega
    · simp only [ControllerState.ofCore, Simplicity.maxEthereumFinalitySlotGap]
      omega
    · exact fun same => apart (FixedBytes.ext same)

end Heartbeats

/-- A run that the tools follow through stored states, with what each step mints. -/
inductive ToolTrace (initial : List UInt8) : List (List Int × List UInt8) → List UInt8 → Prop
  | start : ToolTrace initial [] initial
  | mint {trace : List (List Int × List UInt8)} {current proposed : List UInt8}
    {state next : ControllerState} {nonces amounts : List Int} {total : Int} :
    ToolTrace initial trace current →
    decodeControllerState current = .ok state → decodeControllerState proposed = .ok next →
    Simplicity.validateControllerTransition state next nonces amounts = .ok total →
    ContextRules state next →
    ToolTrace initial (trace ++ [(amounts, proposed)]) proposed
  | heartbeat {trace : List (List Int × List UInt8)} {current proposed : List UInt8}
    {state next : ControllerState} :
    ToolTrace initial trace current →
    decodeControllerState current = .ok state → decodeControllerState proposed = .ok next →
    Simplicity.validateHeartbeatTransition state next = .ok () →
    ToolTrace initial (trace ++ [([], proposed)]) proposed

/-- What is seen of an accepted step of the crate. -/
def observe (step : ControllerAttempt × MintControllerState) : List Int × List UInt8 :=
  (step.1.outputs.map fun output => (output.usdtAmountMicro.toNat : Int), encode step.2)

theorem encode_controllerState_inj {left right : MintControllerState} (leftValid : left.Valid)
    (rightValid : right.Valid) (same : encode left = encode right) : left = right := by
  have first := decodeExact_eq_ok.mpr
    ⟨MintControllerState.validate_eq_ok.mpr leftValid, (rfl : encode left = encode left)⟩
  have second := decodeExact_eq_ok.mpr
    ⟨MintControllerState.validate_eq_ok.mpr rightValid, same⟩
  rw [first] at second
  exact Except.ok.inj second

/-- Accepted steps of the crate lead from valid states to valid states. -/
theorem apply_valid {prior next : MintControllerState} {attempt : ControllerAttempt}
    (applied : attempt.apply prior = .ok next) : prior.Valid ∧ next.Valid := by
  cases attempt with
  | mint batch finality =>
    have step := MintControllerState.applyMintBatch_eq_ok.mp applied
    exact ⟨step.valid, step.next_valid⟩
  | heartbeat finality =>
    have step := MintControllerState.applyHeartbeat_eq_ok.mp applied
    exact ⟨step.valid, step.next_valid⟩

/-- A step of the crate is one that the tools follow. -/
theorem ToolTrace.of_apply {initial : List UInt8} {trace : List (List Int × List UInt8)}
    {prior next : MintControllerState} {attempt : ControllerAttempt}
    (followed : ToolTrace initial trace (encode prior))
    (applied : attempt.apply prior = .ok next) :
    ToolTrace initial (trace ++ [observe (attempt, next)]) (encode next) := by
  obtain ⟨priorValid, nextValid⟩ := apply_valid applied
  have before := decodeControllerState_eq_ok.mpr ⟨prior, priorValid, rfl, rfl⟩
  have after := decodeControllerState_eq_ok.mpr ⟨next, nextValid, rfl, rfl⟩
  cases attempt with
  | mint batch finality =>
    have minted : CrateMints (.ofCore prior) (.ofCore next)
        (batch.outputs.map fun output => (output.nonce.toNat : Int))
        (batch.outputs.map fun output => (output.usdtAmountMicro.toNat : Int)) :=
      ⟨prior, next, batch, finality, rfl, rfl, rfl, rfl, applied⟩
    obtain ⟨rules, context⟩ := crateMints_iff.mp minted
    obtain ⟨total, validated⟩ := validateControllerTransition_iff.mpr rules
    exact .mint followed before after validated context
  | heartbeat finality =>
    have step := MintControllerState.applyHeartbeat_eq_ok.mp applied
    have validated := validateHeartbeatTransition_iff.mpr
      ⟨prior, next, rfl, rfl, heartbeatStep_witnessOf step⟩
    exact .heartbeat followed before after validated

/-- Every run that the tools follow is a run of the crate. -/
theorem ToolTrace.simulated {initial : MintControllerState} (valid : initial.Valid)
    {trace : List (List Int × List UInt8)} {bytes : List UInt8}
    (followed : ToolTrace (encode initial) trace bytes) :
    ∃ log last, Reaches ControllerAttempt.apply initial log
        last ∧ trace = log.map observe ∧ bytes = encode last ∧ last.Valid := by
  induction followed with
  | start => exact ⟨[], initial, .start, rfl, rfl, valid⟩
  | @mint trace current proposed state next nonces amounts total _ before after validated context
    ih =>
    obtain ⟨log, last, run, rfl, rfl, lastValid⟩ := ih
    obtain ⟨prior, priorValid, same, rfl⟩ := decodeControllerState_eq_ok.mp before
    obtain rfl := encode_controllerState_inj lastValid priorValid same
    obtain ⟨later, laterValid, rfl, rfl⟩ := decodeControllerState_eq_ok.mp after
    obtain ⟨prior, next, batch, finality, priorIs, nextIs, rfl, rfl, applied⟩ :=
      crateMints_iff.mpr ⟨validateControllerTransition_iff.mp ⟨total, validated⟩, context⟩
    obtain rfl := ofCore_inj priorIs
    obtain rfl := ofCore_inj nextIs
    have accepted : ControllerAttempt.apply last (.mint batch finality) = .ok later := applied
    refine ⟨log ++ [(.mint batch finality, later)], later, .accept run accepted, ?_, rfl,
      laterValid⟩
    rw [List.map_append]
    rfl
  | @heartbeat trace current proposed state next _ before after validated ih =>
    obtain ⟨log, last, run, rfl, rfl, lastValid⟩ := ih
    obtain ⟨prior, priorValid, same, rfl⟩ := decodeControllerState_eq_ok.mp before
    obtain rfl := encode_controllerState_inj lastValid priorValid same
    obtain ⟨later, laterValid, rfl, rfl⟩ := decodeControllerState_eq_ok.mp after
    obtain ⟨prior, next, priorIs, nextIs, step⟩ := validateHeartbeatTransition_iff.mp validated
    obtain rfl := ofCore_inj priorIs
    obtain rfl := ofCore_inj nextIs
    have accepted : ControllerAttempt.apply last (.heartbeat (witnessOf later)) = .ok later :=
      MintControllerState.applyHeartbeat_eq_ok.mpr step
    refine ⟨log ++ [(.heartbeat (witnessOf later), later)], later, .accept run accepted, ?_, rfl,
      laterValid⟩
    rw [List.map_append]
    rfl

/-- The tools follow exactly the runs of the crate from a valid state. -/
theorem controller_traces_agree (initial : MintControllerState) (valid : initial.Valid)
    (trace : List (List Int × List UInt8)) (bytes : List UInt8) :
    ToolTrace (encode initial) trace bytes ↔
      ∃ log last, Reaches ControllerAttempt.apply initial log
        last ∧ trace = log.map observe ∧ bytes = encode last := by
  constructor
  · intro followed
    obtain ⟨log, last, run, seen, stored, _⟩ := followed.simulated valid
    exact ⟨log, last, run, seen, stored⟩
  · rintro ⟨log, last, run, rfl, rfl⟩
    induction run with
    | start => exact .start
    | accept _ applied ih =>
      rw [List.map_append]
      exact ih.of_apply applied

/-- The controller after a heartbeat at a later slot. -/
def freshProposed : MintControllerState :=
  { staleCurrent with
    sequence := 8
    ethereumLightClientDigest := .ofNat 32 7
    finalizedBeaconSlot := 101
    finalizedBeaconRoot := .ofNat 32 5
    finalizedExecutionStateRoot := .ofNat 32 6 }

/-- The tools follow a heartbeat of the crate. -/
theorem controller_traces_agree_sample :
    ToolTrace (encode staleCurrent) [([], encode freshProposed)] (encode freshProposed) := by
  have valid : staleCurrent.Valid := MintControllerState.validate_eq_ok.mp (by decide +kernel)
  have applied : ControllerAttempt.apply staleCurrent (.heartbeat (witnessOf freshProposed)) =
      .ok freshProposed := by decide +kernel
  exact (controller_traces_agree staleCurrent valid _ _).mpr
    ⟨[(.heartbeat (witnessOf freshProposed), freshProposed)], freshProposed, .single applied, rfl,
      rfl⟩

end Usdd.Verif

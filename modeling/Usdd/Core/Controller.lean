import Usdd.Core.MintBatch
/-!
# The mint controller

The controller state is spent and recreated by every accepted transition: a mint batch moves
the nonce and the minted total, a heartbeat moves only the finalized Ethereum context. Both
share one finality rule. The two transition laws say everything an accepted transition does,
and that the validation of the successor at its end rejects nothing.
-/
namespace Usdd.Core

open Usdd.Foundation

/-- `types::MintControllerState`. -/
@[ext]
structure MintControllerState where
  version : UInt32
  sequence : UInt64
  nextMintNonce : UInt64
  ethereumLightClientDigest : Hash32
  finalizedBeaconSlot : UInt64
  finalizedBeaconRoot : Hash32
  finalizedExecutionStateRoot : Hash32
  totalMintedUsddBase : UInt64
  configurationHash : Hash32
deriving DecidableEq

namespace MintControllerState

/-- `MintControllerState::validate`. -/
def validate (state : MintControllerState) : Except DecodeError Unit := do
  rejectIf (state.version ≠ protocolVersion ∨ state.configurationHash = .zero ∨
      state.ethereumLightClientDigest = .zero)
    (.invalidValue "invalid controller identity")
  if state.finalizedBeaconSlot = 0 then
    rejectIf (state.sequence ≠ 0 ∨ state.totalMintedUsddBase ≠ 0 ∨
        state.finalizedBeaconRoot ≠ .zero ∨ state.finalizedExecutionStateRoot ≠ .zero)
      (.invalidValue "invalid bootstrap controller state")
  else
    rejectIf (state.finalizedBeaconRoot = .zero ∨ state.finalizedExecutionStateRoot = .zero)
      (.invalidValue "zero finalized state commitment")
  rejectIf (state.totalMintedUsddBase % usddUnitsPerUsdtMicro ≠ 0)
    (.invalidValue "nonconvertible minted total")

/-- `MintControllerState::bootstrap`. -/
def bootstrap (configurationHash : Hash32) (firstMintNonce : UInt64)
    (finality : EthereumFinalityWitness) : Except DecodeError MintControllerState := do
  finality.validate
  let value : MintControllerState := {
    version := protocolVersion
    sequence := 0
    nextMintNonce := firstMintNonce
    ethereumLightClientDigest := finality.ethereumLightClientDigest
    finalizedBeaconSlot := finality.finalizedBeaconSlot
    finalizedBeaconRoot := finality.finalizedBeaconRoot
    finalizedExecutionStateRoot := finality.finalizedExecutionStateRoot
    totalMintedUsddBase := 0
    configurationHash := configurationHash }
  value.validate
  return value

/-- `MintControllerState::validate_finality_advance`. -/
def validateFinalityAdvance (state : MintControllerState) (finality : EthereumFinalityWitness) :
    Except DecodeError Unit := do
  rejectIf (finality.finalizedBeaconSlot < state.finalizedBeaconSlot)
    (.invalidValue "Ethereum finality regressed")
  let slotGap ← okOr (checkedSub finality.finalizedBeaconSlot state.finalizedBeaconSlot)
    (.invalidValue "Ethereum finality regressed")
  rejectIf (slotGap > maxEthereumFinalitySlotGap)
    (.invalidValue "Ethereum finalized slot gap exceeds 4096")
  rejectIf (finality.finalizedBeaconSlot = state.finalizedBeaconSlot ∧
      state.finalizedBeaconSlot ≠ 0 ∧
      (finality.finalizedBeaconRoot ≠ state.finalizedBeaconRoot ∨
        finality.finalizedExecutionStateRoot ≠ state.finalizedExecutionStateRoot ∨
        finality.ethereumLightClientDigest ≠ state.ethereumLightClientDigest))
    (.invalidValue "conflicting Ethereum state at the same finalized slot")
  rejectIf (finality.finalizedBeaconSlot > state.finalizedBeaconSlot ∧
      finality.ethereumLightClientDigest = state.ethereumLightClientDigest)
    (.invalidValue "Ethereum light-client digest did not advance")

/-- `MintControllerState::apply_mint_batch` up to the validation of its result. -/
def mintSuccessor (state : MintControllerState) (batch : MintBatch)
    (finality : EthereumFinalityWitness) : Except DecodeError MintControllerState := do
  state.validate
  batch.validate
  finality.validate
  rejectIf (batch.firstNonce ≠ state.nextMintNonce) (.invalidValue "mint batch nonce is not next")
  state.validateFinalityAdvance finality
  let sequence ← okOr (checkedAdd state.sequence 1) (.invalidValue "controller sequence overflow")
  let total ← okOr (checkedAdd state.totalMintedUsddBase batch.totalUsddAmountBase)
    (.invalidValue "minted supply overflow")
  return {
    version := state.version
    sequence := sequence
    nextMintNonce := batch.nextNonce
    ethereumLightClientDigest := finality.ethereumLightClientDigest
    finalizedBeaconSlot := finality.finalizedBeaconSlot
    finalizedBeaconRoot := finality.finalizedBeaconRoot
    finalizedExecutionStateRoot := finality.finalizedExecutionStateRoot
    totalMintedUsddBase := total
    configurationHash := state.configurationHash }

/-- `MintControllerState::apply_mint_batch`. -/
def applyMintBatch (state : MintControllerState) (batch : MintBatch)
    (finality : EthereumFinalityWitness) : Except DecodeError MintControllerState := do
  let next ← state.mintSuccessor batch finality
  next.validate
  return next

/-- `MintControllerState::apply_heartbeat` up to the validation of its result. -/
def heartbeatSuccessor (state : MintControllerState) (finality : EthereumFinalityWitness) :
    Except DecodeError MintControllerState := do
  state.validate
  finality.validate
  rejectIf (finality.finalizedBeaconSlot ≤ state.finalizedBeaconSlot)
    (.invalidValue "heartbeat must advance to a strictly newer finalized beacon slot")
  state.validateFinalityAdvance finality
  let sequence ← okOr (checkedAdd state.sequence 1) (.invalidValue "controller sequence overflow")
  return {
    version := state.version
    sequence := sequence
    nextMintNonce := state.nextMintNonce
    ethereumLightClientDigest := finality.ethereumLightClientDigest
    finalizedBeaconSlot := finality.finalizedBeaconSlot
    finalizedBeaconRoot := finality.finalizedBeaconRoot
    finalizedExecutionStateRoot := finality.finalizedExecutionStateRoot
    totalMintedUsddBase := state.totalMintedUsddBase
    configurationHash := state.configurationHash }

/-- `MintControllerState::apply_heartbeat`. -/
def applyHeartbeat (state : MintControllerState) (finality : EthereumFinalityWitness) :
    Except DecodeError MintControllerState := do
  let next ← state.heartbeatSuccessor finality
  next.validate
  return next

/-- What a validated state satisfies. -/
structure Valid (state : MintControllerState) : Prop where
  version : state.version = protocolVersion
  configuration : state.configurationHash ≠ .zero
  digest : state.ethereumLightClientDigest ≠ .zero
  fresh : state.finalizedBeaconSlot = 0 → state.sequence = 0 ∧ state.totalMintedUsddBase = 0 ∧
    state.finalizedBeaconRoot = .zero ∧ state.finalizedExecutionStateRoot = .zero
  finalized : state.finalizedBeaconSlot ≠ 0 → state.finalizedBeaconRoot ≠ .zero ∧
    state.finalizedExecutionStateRoot ≠ .zero
  convertible : state.totalMintedUsddBase.toNat % 100 = 0

theorem validate_eq_ok {state : MintControllerState} :
    state.validate = .ok () ↔ state.Valid := by
  have remainder : state.totalMintedUsddBase % usddUnitsPerUsdtMicro = 0 ↔
      state.totalMintedUsddBase.toNat % 100 = 0 := by
    rw [← UInt64.toNat_inj, UInt64.toNat_mod]
    rfl
  simp only [validate]
  by_cases fresh : state.finalizedBeaconSlot = 0
  · simp only [↓then_eq_ok, fresh, ↓reduceIte, rejectIf_eq_ok, not_or, not_not, ne_eq, remainder]
    constructor
    · rintro ⟨⟨version, configuration, digest⟩, blank, convertible⟩
      exact ⟨version, configuration, digest, fun _ => blank, fun wrong => (wrong fresh).elim,
        convertible⟩
    · intro valid
      exact ⟨⟨valid.version, valid.configuration, valid.digest⟩, valid.fresh fresh,
        valid.convertible⟩
  · simp only [↓then_eq_ok, fresh, ↓reduceIte, rejectIf_eq_ok, not_or, not_not, ne_eq, remainder]
    constructor
    · rintro ⟨⟨version, configuration, digest⟩, roots, convertible⟩
      exact ⟨version, configuration, digest, fun wrong => (fresh wrong).elim, fun _ => roots,
        convertible⟩
    · intro valid
      exact ⟨⟨valid.version, valid.configuration, valid.digest⟩, valid.finalized fresh,
        valid.convertible⟩

/-- The finality rule shared by mints and heartbeats. -/
structure FinalityAdvance (state : MintControllerState) (finality : EthereumFinalityWitness) :
    Prop where
  slot_le : state.finalizedBeaconSlot.toNat ≤ finality.finalizedBeaconSlot.toNat
  gap_le : finality.finalizedBeaconSlot.toNat ≤ state.finalizedBeaconSlot.toNat + 4096
  same : finality.finalizedBeaconSlot = state.finalizedBeaconSlot →
    state.finalizedBeaconSlot ≠ 0 →
      finality.finalizedBeaconRoot = state.finalizedBeaconRoot ∧
      finality.finalizedExecutionStateRoot = state.finalizedExecutionStateRoot ∧
      finality.ethereumLightClientDigest = state.ethereumLightClientDigest
  newer : state.finalizedBeaconSlot.toNat < finality.finalizedBeaconSlot.toNat →
    finality.ethereumLightClientDigest ≠ state.ethereumLightClientDigest

theorem validateFinalityAdvance_eq_ok {state : MintControllerState}
    {finality : EthereumFinalityWitness} :
    state.validateFinalityAdvance finality = .ok () ↔ state.FinalityAdvance finality := by
  simp only [validateFinalityAdvance]
  simp only [↓then_eq_ok, bind_eq_ok, rejectIf_eq_ok, okOr_eq_ok, checkedSub_eq_some, gt_iff_lt,
    UInt64.lt_iff_toNat_lt, maxEthereumFinalitySlotGap_toNat, Nat.not_lt, not_and, not_or, ne_eq,
    not_not]
  constructor
  · rintro ⟨slot, gap, exact, gapLe, same, newer⟩
    exact ⟨slot, by omega, same, newer⟩
  · intro advance
    obtain ⟨gap, computed, exact⟩ : ∃ gap, checkedSub finality.finalizedBeaconSlot
        state.finalizedBeaconSlot = some gap ∧
        finality.finalizedBeaconSlot.toNat = gap.toNat + state.finalizedBeaconSlot.toNat := by
      have computed : checkedSub finality.finalizedBeaconSlot state.finalizedBeaconSlot =
          some _ := if_pos advance.slot_le
      exact ⟨_, computed, checkedSub_eq_some.mp computed⟩
    have bound := advance.gap_le
    exact ⟨advance.slot_le, gap, exact, by omega, advance.same, advance.newer⟩

/-- The finalized Ethereum context of a successor is the witness's. -/
structure Context (next : MintControllerState) (finality : EthereumFinalityWitness) : Prop where
  digest : next.ethereumLightClientDigest = finality.ethereumLightClientDigest
  slot : next.finalizedBeaconSlot = finality.finalizedBeaconSlot
  root : next.finalizedBeaconRoot = finality.finalizedBeaconRoot
  stateRoot : next.finalizedExecutionStateRoot = finality.finalizedExecutionStateRoot

/-- Everything an accepted mint transition establishes. -/
structure MintStep (state : MintControllerState) (batch : MintBatch)
    (finality : EthereumFinalityWitness) (next : MintControllerState) : Prop where
  valid : state.Valid
  batchValid : batch.Valid
  finalityValid : finality.Valid
  nonce : batch.firstNonce = state.nextMintNonce
  advance : state.FinalityAdvance finality
  version : next.version = state.version
  sequence : next.sequence.toNat = state.sequence.toNat + 1
  nextNonce : next.nextMintNonce = batch.nextNonce
  context : next.Context finality
  total : next.totalMintedUsddBase.toNat =
    state.totalMintedUsddBase.toNat + batch.totalUsddAmountBase.toNat
  configuration : next.configurationHash = state.configurationHash

/-- Everything an accepted heartbeat establishes. -/
structure HeartbeatStep (state : MintControllerState) (finality : EthereumFinalityWitness)
    (next : MintControllerState) : Prop where
  valid : state.Valid
  finalityValid : finality.Valid
  newer : state.finalizedBeaconSlot.toNat < finality.finalizedBeaconSlot.toNat
  advance : state.FinalityAdvance finality
  version : next.version = state.version
  sequence : next.sequence.toNat = state.sequence.toNat + 1
  nextNonce : next.nextMintNonce = state.nextMintNonce
  context : next.Context finality
  total : next.totalMintedUsddBase = state.totalMintedUsddBase
  configuration : next.configurationHash = state.configurationHash

/-- A state with a valid witness's context, a valid state's identity and a convertible total is
valid. -/
theorem Context.valid {next state : MintControllerState} {finality : EthereumFinalityWitness}
    (context : next.Context finality) (accepted : finality.Valid) (valid : state.Valid)
    (version : next.version = state.version)
    (configuration : next.configurationHash = state.configurationHash)
    (convertible : next.totalMintedUsddBase.toNat % 100 = 0) : next.Valid where
  version := version.trans valid.version
  configuration := configuration ▸ valid.configuration
  digest := context.digest ▸ accepted.digest
  fresh zero := (accepted.slot (context.slot ▸ zero)).elim
  finalized _ := ⟨context.root ▸ accepted.beaconRoot, context.stateRoot ▸ accepted.stateRoot⟩
  convertible := convertible

theorem MintStep.next_valid {state next : MintControllerState} {batch : MintBatch}
    {finality : EthereumFinalityWitness} (step : MintStep state batch finality next) :
    next.Valid := by
  refine step.context.valid step.finalityValid step.valid step.version step.configuration ?_
  have before := step.valid.convertible
  have minted := step.batchValid.converted
  have total := step.total
  omega

theorem HeartbeatStep.next_valid {state next : MintControllerState}
    {finality : EthereumFinalityWitness} (step : HeartbeatStep state finality next) :
    next.Valid :=
  step.context.valid step.finalityValid step.valid step.version step.configuration
    (step.total ▸ step.valid.convertible)

theorem mintSuccessor_eq_ok {state next : MintControllerState} {batch : MintBatch}
    {finality : EthereumFinalityWitness} :
    state.mintSuccessor batch finality = .ok next ↔ MintStep state batch finality next := by
  simp only [mintSuccessor]
  simp only [↓then_eq_ok, bind_eq_ok, rejectIf_eq_ok, okOr_eq_ok, pure_eq_ok, validate_eq_ok,
    MintBatch.validate_eq_ok, EthereumFinalityWitness.validate_eq_ok,
    validateFinalityAdvance_eq_ok, checkedAdd_eq_some, ne_eq, not_not]
  constructor
  · rintro ⟨valid, batchValid, finalityValid, nonce, advance, sequence, sequenceValue, total,
      totalValue, rfl⟩
    exact ⟨valid, batchValid, finalityValid, nonce, advance, rfl, sequenceValue, rfl,
      ⟨rfl, rfl, rfl, rfl⟩, totalValue, rfl⟩
  · intro step
    refine ⟨step.valid, step.batchValid, step.finalityValid, step.nonce, step.advance, next.sequence,
      step.sequence, next.totalMintedUsddBase, step.total, ?_⟩
    ext1
    · exact step.version.symm
    · rfl
    · exact step.nextNonce.symm
    · exact step.context.digest.symm
    · exact step.context.slot.symm
    · exact step.context.root.symm
    · exact step.context.stateRoot.symm
    · rfl
    · exact step.configuration.symm

theorem heartbeatSuccessor_eq_ok {state next : MintControllerState}
    {finality : EthereumFinalityWitness} :
    state.heartbeatSuccessor finality = .ok next ↔ HeartbeatStep state finality next := by
  simp only [heartbeatSuccessor]
  simp only [↓then_eq_ok, bind_eq_ok, rejectIf_eq_ok, okOr_eq_ok, pure_eq_ok, validate_eq_ok,
    EthereumFinalityWitness.validate_eq_ok, validateFinalityAdvance_eq_ok, checkedAdd_eq_some,
    UInt64.le_iff_toNat_le, Nat.not_le]
  constructor
  · rintro ⟨valid, finalityValid, newer, advance, sequence, sequenceValue, rfl⟩
    exact ⟨valid, finalityValid, newer, advance, rfl, sequenceValue, rfl, ⟨rfl, rfl, rfl, rfl⟩,
      rfl, rfl⟩
  · intro step
    refine ⟨step.valid, step.finalityValid, step.newer, step.advance, next.sequence, step.sequence, ?_⟩
    ext1
    · exact step.version.symm
    · rfl
    · exact step.nextNonce.symm
    · exact step.context.digest.symm
    · exact step.context.slot.symm
    · exact step.context.root.symm
    · exact step.context.stateRoot.symm
    · exact step.total.symm
    · exact step.configuration.symm

/-- A mint transition is accepted exactly as its step law says: the successor's own validation
never fails. -/
theorem applyMintBatch_eq_ok {state next : MintControllerState} {batch : MintBatch}
    {finality : EthereumFinalityWitness} :
    state.applyMintBatch batch finality = .ok next ↔ MintStep state batch finality next := by
  simp only [applyMintBatch]
  simp only [bind_eq_ok, ↓then_eq_ok, mintSuccessor_eq_ok, pure_eq_ok, validate_eq_ok]
  constructor
  · rintro ⟨_, step, _, rfl⟩
    exact step
  · exact fun step => ⟨next, step, step.next_valid, rfl⟩

/-- A heartbeat is accepted exactly as its step law says. -/
theorem applyHeartbeat_eq_ok {state next : MintControllerState}
    {finality : EthereumFinalityWitness} :
    state.applyHeartbeat finality = .ok next ↔ HeartbeatStep state finality next := by
  simp only [applyHeartbeat]
  simp only [bind_eq_ok, ↓then_eq_ok, heartbeatSuccessor_eq_ok, pure_eq_ok, validate_eq_ok]
  constructor
  · rintro ⟨_, step, _, rfl⟩
    exact step
  · exact fun step => ⟨next, step, step.next_valid, rfl⟩

/-- A bootstrapped state is valid, has minted nothing and carries the witness's context. -/
theorem bootstrap_eq_ok {configurationHash : Hash32} {firstMintNonce : UInt64}
    {finality : EthereumFinalityWitness} {state : MintControllerState} :
    bootstrap configurationHash firstMintNonce finality = .ok state ↔
      finality.Valid ∧ configurationHash ≠ .zero ∧ state = {
        version := protocolVersion
        sequence := 0
        nextMintNonce := firstMintNonce
        ethereumLightClientDigest := finality.ethereumLightClientDigest
        finalizedBeaconSlot := finality.finalizedBeaconSlot
        finalizedBeaconRoot := finality.finalizedBeaconRoot
        finalizedExecutionStateRoot := finality.finalizedExecutionStateRoot
        totalMintedUsddBase := 0
        configurationHash := configurationHash } := by
  simp only [bootstrap]
  simp only [↓then_eq_ok, pure_eq_ok, validate_eq_ok, EthereumFinalityWitness.validate_eq_ok]
  constructor
  · rintro ⟨accepted, valid, rfl⟩
    exact ⟨accepted, valid.configuration, rfl⟩
  · rintro ⟨accepted, configuration, rfl⟩
    exact ⟨accepted, ⟨rfl, configuration, accepted.digest, fun zero => (accepted.slot zero).elim,
      fun _ => ⟨accepted.beaconRoot, accepted.stateRoot⟩, rfl⟩, rfl⟩

end MintControllerState

end Usdd.Core

import Usdd.Simplicity.Controller
import Usdd.ProofCore.OutputLaws
/-!
# Two models of the controller

The crate advances the controller, and the Simplicity tools check an advance that they are given.
On mints the tools check every rule of the crate but those on the finalized context: that one slot
keeps one context, and that a later slot has another light-client digest.
-/
namespace Usdd.Verif

open Usdd.Foundation Usdd.Core Usdd.ProofCore
open Usdd.Simplicity (ControllerState BatchRules)

/-- The crate has a batch of these nonces and amounts and a finality witness that take one state
to the other. -/
def CrateMints (current proposed : ControllerState) (nonces amounts : List Int) : Prop :=
  ∃ (prior next : MintControllerState) (batch : MintBatch) (finality : EthereumFinalityWitness),
    current = .ofCore prior ∧ proposed = .ofCore next ∧
      nonces = batch.outputs.map (fun output => (output.nonce.toNat : Int)) ∧
      amounts = batch.outputs.map (fun output => (output.usdtAmountMicro.toNat : Int)) ∧
      prior.applyMintBatch batch finality = .ok next

/-- The rules of a mint that do not compare the finalized contexts. -/
structure MintRules (prior next : MintControllerState) (nonces amounts : List Int) : Prop where
  priorValid : prior.Valid
  nextValid : next.Valid
  batch : BatchRules prior.nextMintNonce.toNat nonces amounts
  sequence : next.sequence.toNat = prior.sequence.toNat + 1
  nonce : next.nextMintNonce.toNat = prior.nextMintNonce.toNat + nonces.length
  total : (next.totalMintedUsddBase.toNat : Int) =
    prior.totalMintedUsddBase.toNat + 100 * amounts.sum
  configuration : next.configurationHash = prior.configurationHash
  slot_le : prior.finalizedBeaconSlot.toNat ≤ next.finalizedBeaconSlot.toNat
  gap_le : next.finalizedBeaconSlot.toNat ≤ prior.finalizedBeaconSlot.toNat + 4096

/-- The rules of a mint between two states of the tools. -/
def ToolRules (current proposed : ControllerState) (nonces amounts : List Int) : Prop :=
  ∃ prior next : MintControllerState, current = .ofCore prior ∧ proposed = .ofCore next ∧
    MintRules prior next nonces amounts

/-- One slot keeps one finalized context, and a later slot has another digest. -/
structure ContextRules (current proposed : ControllerState) : Prop where
  same : proposed.finalizedBeaconSlot = current.finalizedBeaconSlot →
    proposed.finalizedBeaconRoot = current.finalizedBeaconRoot ∧
      proposed.executionRoot = current.executionRoot ∧
      proposed.ethLightClientDigest = current.ethLightClientDigest
  newer : current.finalizedBeaconSlot < proposed.finalizedBeaconSlot →
    proposed.ethLightClientDigest ≠ current.ethLightClientDigest

section Tools

theorem ofCore_inj {left right : MintControllerState}
    (same : ControllerState.ofCore left = .ofCore right) : left = right := by
  simp only [ControllerState.ofCore, ControllerState.mk.injEq, Int.natCast_inj,
    UInt32.toNat_inj, UInt64.toNat_inj] at same
  obtain ⟨version, sequence, nonce, digest, slot, root, stateRoot, total, config⟩ := same
  ext1
  · exact version
  · exact sequence
  · exact nonce
  · exact FixedBytes.ext digest
  · exact slot
  · exact FixedBytes.ext root
  · exact FixedBytes.ext stateRoot
  · exact total
  · exact FixedBytes.ext config

/-- The tools accept a mint exactly where its rules hold. -/
theorem validateControllerTransition_iff {current proposed : ControllerState}
    {nonces amounts : List Int} :
    (∃ total, Simplicity.validateControllerTransition current proposed nonces amounts =
      .ok total) ↔ ToolRules current proposed nonces amounts := by
  simp only [Simplicity.validateControllerTransition]
  simp only [↓then_eq_ok, bind_eq_ok, rejectIf_eq_ok, pure_eq_ok, not_or, not_not, not_lt, ne_eq,
    Simplicity.validateControllerState_eq_ok]
  constructor
  · rintro ⟨_, ⟨prior, priorValid, rfl⟩, ⟨next, nextValid, rfl⟩, ⟨converted, total⟩, batch,
      ⟨-, sequence⟩, ⟨-, nonce⟩, ⟨-, totals⟩, ⟨-, config⟩, slot, gap, rfl⟩
    obtain ⟨-, rules, -, rfl⟩ := Simplicity.validateMintBatch_eq_ok.mp batch
    simp only [ControllerState.ofCore, Simplicity.maxEthereumFinalitySlotGap] at *
    refine ⟨prior, next, rfl, rfl, priorValid, nextValid, rules, by omega, by omega, totals,
      FixedBytes.ext config, by omega, by omega⟩
  · rintro ⟨prior, next, rfl, rfl, rules⟩
    have sequence := rules.sequence
    have nonce := rules.nonce
    have slot := rules.slot_le
    have gap := rules.gap_le
    have total := rules.total
    have sequenceFits := next.sequence.toNat_lt
    have nonceFits := next.nextMintNonce.toNat_lt
    have totalFits := next.totalMintedUsddBase.toNat_lt
    have version : next.version = prior.version :=
      rules.nextValid.version.trans rules.priorValid.version.symm
    refine ⟨_, ⟨prior, rules.priorValid, rfl⟩, ⟨next, rules.nextValid, rfl⟩,
      (amounts.map (· * 100), 100 * amounts.sum),
      Simplicity.validateMintBatch_eq_ok.mpr ⟨UInt64.toNat_lt _, rules.batch, rfl, rfl⟩, ?_, ?_, ?_,
      ?_, ?_, ?_, rfl⟩ <;>
      simp only [ControllerState.ofCore, Simplicity.maxEthereumFinalitySlotGap, Simplicity.u64Max,
        version, rules.configuration, true_and] <;> omega

end Tools

section Crate

theorem sum_cast (numbers : List Nat) :
    (numbers.map (Nat.cast : Nat → Int)).sum = (numbers.sum : Nat) := by
  induction numbers with
  | nil => rfl
  | cons number numbers ih =>
    rw [List.map_cons, List.sum_cons, List.sum_cons, ih, Nat.cast_add]

/-- The amounts of outputs add up as they do in the crate. -/
theorem amounts_sum (outputs : List MintOutput) :
    (outputs.map fun output => (output.usdtAmountMicro.toNat : Int)).sum =
      (MintBatch.usdtSum outputs : Nat) := by
  rw [MintBatch.usdtSum, ← sum_cast, List.map_map]
  rfl

/-- A step of the crate obeys the rules, and its witness is the next context. -/
theorem MintRules.of_step {prior next : MintControllerState} {batch : MintBatch}
    {finality : EthereumFinalityWitness} (step : prior.MintStep batch finality next) :
    MintRules prior next (batch.outputs.map fun output => (output.nonce.toNat : Int))
      (batch.outputs.map fun output => (output.usdtAmountMicro.toNat : Int)) := by
  have valid := step.batchValid
  have size := List.length_pos_iff.mpr valid.nonempty
  have nextNonce := valid.next
  have total := step.total
  have converted := valid.converted
  have usdt := valid.usdt
  have usdtLe := valid.usdt_le
  have slot : next.finalizedBeaconSlot.toNat = finality.finalizedBeaconSlot.toNat :=
    congrArg UInt64.toNat step.context.slot
  refine ⟨step.valid, step.next_valid, ⟨?_, ?_, ?_, ?_, ?_, ?_, ?_⟩, step.sequence, ?_, ?_,
    step.configuration, ?_, ?_⟩
  · rw [List.length_map, List.length_map]
  · rw [List.length_map]
    exact size
  · rw [List.length_map]
    exact valid.size_le
  · rw [List.length_map, ← step.nonce, ← valid.consecutive, MintBatch.nonces, List.map_map]
    rfl
  · rw [List.forall_mem_map]
    intro output _
    have bound := output.nonce.toNat_lt
    omega
  · rw [List.forall_mem_map]
    intro output member
    have positive := (valid.outputs output member).amount_pos
    have bound := (valid.outputs output member).amount_le
    omega
  · rw [amounts_sum]
    omega
  · rw [step.nextNonce, List.length_map, nextNonce, step.nonce]
  · rw [amounts_sum]
    omega
  · rw [slot]
    exact step.advance.slot_le
  · rw [slot]
    exact step.advance.gap_le

theorem ContextRules.of_step {prior next : MintControllerState} {batch : MintBatch}
    {finality : EthereumFinalityWitness} (step : prior.MintStep batch finality next) :
    ContextRules (.ofCore prior) (.ofCore next) := by
  obtain ⟨digest, slot, root, stateRoot⟩ := step.context
  constructor
  · intro equal
    have slots : next.finalizedBeaconSlot = prior.finalizedBeaconSlot :=
      UInt64.toNat_inj.mp (Int.natCast_inj.mp equal)
    rw [slot] at slots
    obtain ⟨sameRoot, sameStateRoot, sameDigest⟩ :=
      step.advance.same slots (slots ▸ step.finalityValid.slot)
    simp only [ControllerState.ofCore]
    rw [root, stateRoot, digest, sameRoot, sameStateRoot, sameDigest]
    exact ⟨rfl, rfl, rfl⟩
  · intro later equal
    have order : prior.finalizedBeaconSlot.toNat < next.finalizedBeaconSlot.toNat :=
      Int.ofNat_lt.mp later
    rw [slot] at order
    exact step.advance.newer order (digest.symm.trans (FixedBytes.ext equal))

/-- The output for a nonce and an amount. -/
def outputOf (pair : Int × Int) : MintOutput :=
  ⟨.ofNat 32 1, .ofNat pair.1.toNat, .ofNat pair.2.toNat, .ofNat (100 * pair.2.toNat), [0]⟩

theorem word_toNat {value : Int} (lower : 0 ≤ value) (upper : value < 2 ^ 64) :
    ((UInt64.ofNat value.toNat).toNat : Int) = value := by
  have fits : value.toNat < 2 ^ 64 := by omega
  rw [UInt64.toNat_ofNat_of_lt' fits]
  omega

/-- The batch of a sequence of nonces and amounts. -/
def batchOf (prior next : MintControllerState) (nonces amounts : List Int) : MintBatch where
  firstNonce := prior.nextMintNonce
  nextNonce := next.nextMintNonce
  outputs := (nonces.zip amounts).map outputOf
  totalUsdtAmountMicro := .ofNat amounts.sum.toNat
  totalUsddAmountBase := .ofNat (100 * amounts.sum.toNat)

theorem nonce_range {nonces amounts : List Int} {first : Nat}
    (rules : BatchRules first nonces amounts) {nonce : Int} (member : nonce ∈ nonces) :
    0 ≤ nonce ∧ nonce < 2 ^ 64 := by
  refine ⟨?_, rules.nonces_lt nonce member⟩
  rw [rules.consecutive] at member
  obtain ⟨number, -, rfl⟩ := List.mem_map.mp member
  exact Int.natCast_nonneg number

theorem batchOf_nonces {prior next : MintControllerState} {nonces amounts : List Int}
    {first : Nat} (rules : BatchRules first nonces amounts) :
    (batchOf prior next nonces amounts).outputs.map (fun output => (output.nonce.toNat : Int)) =
      nonces := by
  rw [batchOf, List.map_map]
  have each : ∀ pair ∈ nonces.zip amounts, ((outputOf pair).nonce.toNat : Int) = pair.1 := by
    intro pair member
    obtain ⟨lower, upper⟩ := nonce_range rules (List.of_mem_zip member).1
    exact word_toNat lower upper
  exact (List.map_congr_left each).trans (List.map_fst_zip rules.sizes.le)

theorem batchOf_amounts {prior next : MintControllerState} {nonces amounts : List Int}
    {first : Nat} (rules : BatchRules first nonces amounts) :
    (batchOf prior next nonces amounts).outputs.map
      (fun output => (output.usdtAmountMicro.toNat : Int)) = amounts := by
  rw [batchOf, List.map_map]
  have each : ∀ pair ∈ nonces.zip amounts,
      ((outputOf pair).usdtAmountMicro.toNat : Int) = pair.2 := by
    intro pair member
    obtain ⟨lower, upper⟩ := rules.each pair.2 (List.of_mem_zip member).2
    exact word_toNat (by omega) (by omega)
  exact (List.map_congr_left each).trans (List.map_snd_zip rules.sizes.ge)

theorem batchOf_length {prior next : MintControllerState} {nonces amounts : List Int}
    {first : Nat} (rules : BatchRules first nonces amounts) :
    (batchOf prior next nonces amounts).outputs.length = nonces.length := by
  rw [batchOf, List.length_map, List.length_zip, ← rules.sizes, Nat.min_self]

theorem outputOf_valid {pair : Int × Int} (positive : 1 ≤ pair.2)
    (bound : pair.2 ≤ 20000000000000) : (outputOf pair).Valid := by
  have usdt : (outputOf pair).usdtAmountMicro.toNat = pair.2.toNat :=
    UInt64.toNat_ofNat_of_lt' (show pair.2.toNat < 2 ^ 64 by omega)
  have usdd : (outputOf pair).usddAmountBase.toNat = 100 * pair.2.toNat :=
    UInt64.toNat_ofNat_of_lt' (show 100 * pair.2.toNat < 2 ^ 64 by omega)
  refine ⟨by simp only [outputOf]; decide, by omega, by omega, by omega,
    List.cons_ne_nil _ _, ?_⟩
  simp [outputOf]

theorem batchOf_valid {prior next : MintControllerState} {nonces amounts : List Int}
    (rules : MintRules prior next nonces amounts) :
    (batchOf prior next nonces amounts).Valid := by
  have size := @batchOf_length prior next _ _ _ rules.batch
  have nonempty := rules.batch.nonempty
  have budget := rules.batch.budget
  have outputs : ∀ output ∈ (batchOf prior next nonces amounts).outputs, output.Valid := by
    intro output member
    obtain ⟨pair, listed, rfl⟩ := List.mem_map.mp member
    obtain ⟨lower, upper⟩ := rules.batch.each pair.2 (List.of_mem_zip listed).2
    exact outputOf_valid lower upper
  have sum : amounts.sum =
      (MintBatch.usdtSum (batchOf prior next nonces amounts).outputs : Nat) := by
    rw [← amounts_sum, batchOf_amounts rules.batch]
  have usdt : (batchOf prior next nonces amounts).totalUsdtAmountMicro.toNat =
      amounts.sum.toNat :=
    UInt64.toNat_ofNat_of_lt' (show amounts.sum.toNat < 2 ^ 64 by omega)
  have usdd : (batchOf prior next nonces amounts).totalUsddAmountBase.toNat =
      100 * amounts.sum.toNat :=
    UInt64.toNat_ofNat_of_lt' (show 100 * amounts.sum.toNat < 2 ^ 64 by omega)
  refine ⟨?_, ?_, ?_, outputs, ?_, by omega, ?_, by omega⟩
  · exact List.length_pos_iff.mp (by omega)
  · rw [size]
    exact rules.batch.size_le
  · rw [size]
    exact rules.nonce
  · have casts : (MintBatch.nonces (batchOf prior next nonces amounts).outputs).map
        (Nat.cast : Nat → Int) = nonces := by
      rw [MintBatch.nonces, List.map_map]
      exact batchOf_nonces rules.batch
    rw [size]
    refine List.map_injective_iff.mpr Nat.cast_injective (casts.trans ?_)
    exact rules.batch.consecutive
  · rw [usdd, MintBatch.usddSum_of_valid outputs]
    omega

/-- Where the rules hold, the batch of the nonces and amounts takes one state to the other. -/
theorem MintRules.step {prior next : MintControllerState} {nonces amounts : List Int}
    (rules : MintRules prior next nonces amounts)
    (context : ContextRules (.ofCore prior) (.ofCore next)) :
    prior.MintStep (batchOf prior next nonces amounts) (witnessOf next) next := by
  have valid := batchOf_valid rules
  have usdt := valid.usdt
  have converted := valid.converted
  have total := rules.total
  have sum : amounts.sum =
      (MintBatch.usdtSum (batchOf prior next nonces amounts).outputs : Nat) := by
    rw [← amounts_sum, batchOf_amounts rules.batch]
  refine ⟨rules.priorValid, valid,
    witnessOf_valid rules.nextValid (sequence_ne_zero rules.sequence), rfl,
    ⟨rules.slot_le, rules.gap_le, ?_, ?_⟩, ?_, rules.sequence, rfl, context_witnessOf next, ?_,
    rules.configuration⟩
  · intro same _
    obtain ⟨root, stateRoot, digest⟩ :=
      context.same (congrArg (fun slot : UInt64 => (slot.toNat : Int)) same)
    exact ⟨FixedBytes.ext root, FixedBytes.ext stateRoot, FixedBytes.ext digest⟩
  · intro later same
    exact context.newer (Int.ofNat_lt.mpr later) (congrArg FixedBytes.bytes same)
  · exact rules.nextValid.version.trans rules.priorValid.version.symm
  · omega

/-- The crate mints exactly where those rules and the context rules hold. -/
theorem crateMints_iff {current proposed : ControllerState} {nonces amounts : List Int} :
    CrateMints current proposed nonces amounts ↔
      ToolRules current proposed nonces amounts ∧ ContextRules current proposed := by
  constructor
  · rintro ⟨prior, next, batch, finality, rfl, rfl, rfl, rfl, applied⟩
    have step := MintControllerState.applyMintBatch_eq_ok.mp applied
    exact ⟨⟨prior, next, rfl, rfl, .of_step step⟩, .of_step step⟩
  · rintro ⟨⟨prior, next, rfl, rfl, rules⟩, context⟩
    exact ⟨prior, next, batchOf prior next nonces amounts, witnessOf next, rfl, rfl,
      (batchOf_nonces rules.batch).symm, (batchOf_amounts rules.batch).symm,
      MintControllerState.applyMintBatch_eq_ok.mpr (rules.step context)⟩

end Crate

/-- The tools and the crate agree on a mint exactly where the context rules hold or another rule
does not. -/
theorem controller_models_agree_iff (current proposed : ControllerState)
    (nonces amounts : List Int) :
    ((∃ total, Simplicity.validateControllerTransition current proposed nonces amounts =
      .ok total) ↔ CrateMints current proposed nonces amounts) ↔
      (ToolRules current proposed nonces amounts → ContextRules current proposed) := by
  rw [validateControllerTransition_iff, crateMints_iff]
  constructor
  · intro agree rules
    exact (agree.mp rules).2
  · intro context
    constructor
    · intro rules
      exact ⟨rules, context rules⟩
    · intro both
      exact both.1

/-- A controller before a mint. -/
def staleCurrent : MintControllerState where
  version := 1
  sequence := 7
  nextMintNonce := 20
  ethereumLightClientDigest := .ofNat 32 1
  finalizedBeaconSlot := 100
  finalizedBeaconRoot := .ofNat 32 2
  finalizedExecutionStateRoot := .ofNat 32 3
  totalMintedUsddBase := 1000
  configurationHash := .ofNat 32 4

/-- The controller after a mint of one micro-unit at a later slot, with the digest of before. -/
def staleProposed : MintControllerState :=
  { staleCurrent with
    sequence := 8
    nextMintNonce := 21
    finalizedBeaconSlot := 101
    finalizedBeaconRoot := .ofNat 32 5
    finalizedExecutionStateRoot := .ofNat 32 6
    totalMintedUsddBase := 1100 }

theorem controller_models_disagree :
    ¬((∃ total, Simplicity.validateControllerTransition (.ofCore staleCurrent)
      (.ofCore staleProposed) [20] [1] = .ok total) ↔
      CrateMints (.ofCore staleCurrent) (.ofCore staleProposed) [20] [1]) := by
  intro agree
  have accepted : Simplicity.validateControllerTransition (.ofCore staleCurrent)
      (.ofCore staleProposed) [20] [1] = .ok 100 := by decide +kernel
  have rules := (crateMints_iff.mp (agree.mp ⟨100, accepted⟩)).2
  exact rules.newer (by decide) rfl

end Usdd.Verif

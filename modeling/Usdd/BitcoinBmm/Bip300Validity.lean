import Usdd.BitcoinBmm.Bip300Messages
import Mathlib.Algebra.Order.BigOperators.Group.Finset
/-!
# Valid replay states

The checks of `ElementsSlot24ReplayState::validate` as one list of facts, which the state before
the genesis meets too, and what an accepted block needs to leave a state that meets them again.
-/
namespace Usdd.BitcoinBmm

open Usdd.Foundation Usdd.Core

section Configuration

variable {config : ElementsSlot24ReplayConfig}

/-- The largest age a proposal may ever have. -/
def ElementsSlot24ReplayConfig.anyMaxAge (config : ElementsSlot24ReplayConfig) : Nat :=
  max config.unusedProposalMaxAge.toNat config.usedProposalMaxAge.toNat

/-- The most votes a proposal may ever have without becoming active. -/
def ElementsSlot24ReplayConfig.anyThreshold (config : ElementsSlot24ReplayConfig) : Nat :=
  max config.unusedActivationThreshold.toNat config.usedActivationThreshold.toNat

theorem maxAge_le_anyMaxAge (slotIsUsed : Bool) : config.maxAge slotIsUsed ≤ config.anyMaxAge := by
  cases slotIsUsed with
  | false => exact Nat.le_max_left _ _
  | true => exact Nat.le_max_right _ _

theorem activationThreshold_le_anyThreshold (slotIsUsed : Bool) :
    config.activationThreshold slotIsUsed ≤ config.anyThreshold := by
  cases slotIsUsed with
  | false => exact Nat.le_max_left _ _
  | true => exact Nat.le_max_right _ _

/-- In a valid configuration a proposal may live for a block, and votes fit their word. -/
theorem ElementsSlot24ReplayConfig.validate_bounds (valid : config.validate = .ok ()) :
    0 < config.anyMaxAge ∧ config.anyThreshold + 1 < 2 ^ 16 := by
  rw [validate, rejectIf_eq_ok] at valid
  simp only [not_or] at valid
  obtain ⟨-, unused, -, below, used, -, below'⟩ := valid
  have unusedFits := config.unusedProposalMaxAge.toNat_lt
  have usedFits := config.usedProposalMaxAge.toNat_lt
  have positive : config.unusedProposalMaxAge.toNat ≠ 0 := fun zero =>
    unused (UInt16.toNat_inj.mp zero)
  have less := UInt16.lt_iff_toNat_lt.mp (UInt16.not_le.mp below)
  have less' := UInt16.lt_iff_toNat_lt.mp (UInt16.not_le.mp below')
  simp only [anyMaxAge, anyThreshold]
  omega

end Configuration

section States

/-- A proposal that is live at a height. -/
structure LiveProposal (state : ElementsSlot24ReplayState) (tipHeight : Nat) (hash : Hash32)
    (proposal : PendingSlot24Proposal) : Prop where
  past : proposal.proposalHeight.toNat ≤ tipHeight
  few : proposal.votes.toNat ≤ tipHeight - proposal.proposalHeight.toNat
  nonzero : hash ≠ .zero
  own : hash = proposal.proposalHash
  fresh : ¬isExpired state.config state.activeProposalHash.isSome
    (tipHeight - proposal.proposalHeight.toNat)
    (tipHeight - proposal.proposalHeight.toNat - proposal.votes.toNat)

/-- What every state of a run satisfies. -/
structure SoundState (state : ElementsSlot24ReplayState) : Prop where
  config : state.config.validate = .ok ()
  room : state.pendingProposals.entries.length ≤ state.config.maximumPendingProposals
  idle : state.activeProposalHash = none → state.ctip = none
  required : state.activeProposalHash = some state.config.requiredProposalHash ↔
    state.requiredActivation.isSome
  activation : ∀ height hash, state.requiredActivation = some (height, hash) →
    height < state.nextHeight ∧ hash ≠ .zero 32
  treasury : ∀ ctip, state.ctip = some ctip →
    ctip.txid ≠ .zero 32 ∧ ctip.valueSat ≠ 0 ∧ ctip.valueSat ≤ maxMoneySatoshis
  proposals : ∀ hash proposal, state.pendingProposals.lookup hash = some proposal →
    state.nextHeight ≠ 0 ∧ LiveProposal state (state.nextHeight.toNat - 1) hash proposal

variable {state : ElementsSlot24ReplayState}

theorem validateProposal_eq_ok {tipHeight : Nat} {hash : Hash32}
    {proposal : PendingSlot24Proposal} :
    state.validateProposal tipHeight hash proposal = .ok () ↔
      LiveProposal state tipHeight hash proposal := by
  simp only [ElementsSlot24ReplayState.validateProposal, then_eq_ok, rejectIf_eq_ok, not_lt, not_or,
    not_not]
  constructor
  · rintro ⟨past, few, nonzero, own, -, fresh⟩
    exact ⟨past, few, nonzero, own, fresh⟩
  · intro live
    exact ⟨live.past, live.few, live.nonzero, live.own, live.past, live.fresh⟩

theorem validateProposals_eq_ok {tipHeight : Nat}
    {entries : List (Sigma fun _ : Hash32 => PendingSlot24Proposal)} :
    state.validateProposals tipHeight entries = .ok () ↔
      ∀ entry ∈ entries, LiveProposal state tipHeight entry.1 entry.2 := by
  induction entries with
  | nil => simp [ElementsSlot24ReplayState.validateProposals]
  | cons entry entries ih =>
    rw [ElementsSlot24ReplayState.validateProposals, then_eq_ok, validateProposal_eq_ok, ih,
      List.forall_mem_cons]

/-- A state past the genesis is valid when it is sound and has a tip. -/
theorem validate_eq_ok (later : state.nextHeight ≠ 0) :
    state.validate = .ok () ↔ SoundState state ∧ state.tipHash ≠ .zero 32 := by
  simp only [ElementsSlot24ReplayState.validate]
  simp only [later, if_false]
  simp only [↓then_eq_ok, rejectIf_eq_ok, validateProposals_eq_ok, not_lt, not_not]
  have activation : state.activeProposalHash = some state.config.requiredProposalHash →
      (state.validateActivation = .ok () ↔
      ∀ height hash, state.requiredActivation = some (height, hash) →
        height < state.nextHeight ∧ hash ≠ .zero 32) := by
    intro active
    unfold ElementsSlot24ReplayState.validateActivation
    split
    · next none => simp [none]
    · next height hash recorded => simp [recorded, active]
  have treasury : state.validateCtip = .ok () ↔ ∀ ctip, state.ctip = some ctip →
      ctip.txid ≠ .zero 32 ∧ ctip.valueSat ≠ 0 ∧ ctip.valueSat ≤ maxMoneySatoshis := by
    unfold ElementsSlot24ReplayState.validateCtip
    split
    · next none => simp [none]
    · next ctip held => simp only [held, rejectIf_eq_ok, not_or, not_lt, Option.some.injEq,
        forall_eq']
  have proposals : (∀ entry ∈ state.pendingProposals.entries,
        LiveProposal state (state.nextHeight.toNat - 1) entry.1 entry.2) ↔
      ∀ hash proposal, state.pendingProposals.lookup hash = some proposal →
        state.nextHeight ≠ 0 ∧ LiveProposal state (state.nextHeight.toNat - 1) hash proposal := by
    constructor
    · intro all hash proposal live
      exact ⟨later, all ⟨hash, proposal⟩ (AList.mem_lookup_iff.mp live)⟩
    · intro all entry member
      exact (all entry.1 entry.2 (AList.mem_lookup_iff.mpr member)).2
  have required : decide (state.activeProposalHash = some state.config.requiredProposalHash) =
      state.requiredActivation.isSome ↔
      (state.activeProposalHash = some state.config.requiredProposalHash ↔
        state.requiredActivation.isSome) := by
    rw [Bool.eq_iff_iff, decide_eq_true_iff]
  have idle : ¬(state.activeProposalHash = none ∧ state.ctip.isSome = true) ↔
      (state.activeProposalHash = none → state.ctip = none) := by
    rw [not_and, Option.not_isSome_iff_eq_none]
  rw [treasury, proposals, required, idle]
  constructor
  · rintro ⟨config, room, tip, idle', required', activated, treasury', proposals'⟩
    refine ⟨⟨config, room, idle', required', ?_, treasury', proposals'⟩, tip⟩
    intro height hash recorded
    exact (activation (required'.mpr (by rw [recorded]; rfl))).mp activated height hash recorded
  · rintro ⟨sound, tip⟩
    refine ⟨sound.config, sound.room, tip, sound.idle, sound.required, ?_, sound.treasury,
      sound.proposals⟩
    by_cases active : state.activeProposalHash = some state.config.requiredProposalHash
    · exact (activation active).mpr sound.activation
    · have none : state.requiredActivation = none := by
        rw [← Option.not_isSome_iff_eq_none, ← sound.required]
        exact active
      rw [ElementsSlot24ReplayState.validateActivation, none]

/-- A valid configuration has a state before the genesis. -/
theorem beforeParentGenesis_of_valid {config : ElementsSlot24ReplayConfig}
    (valid : config.validate = .ok ()) :
    ∃ start, ElementsSlot24ReplayState.beforeParentGenesis config = .ok start := by
  rw [ElementsSlot24ReplayState.beforeParentGenesis, valid]
  exact ⟨_, rfl⟩

/-- The state before the genesis is sound. -/
theorem beforeParentGenesis_sound {config : ElementsSlot24ReplayConfig}
    (begun : ElementsSlot24ReplayState.beforeParentGenesis config = .ok state) :
    SoundState state := by
  simp only [ElementsSlot24ReplayState.beforeParentGenesis, then_eq_ok, pure_eq_ok] at begun
  obtain ⟨valid, rfl⟩ := begun
  exact ⟨valid, Nat.zero_le _, fun _ => rfl, by simp, by simp, by simp, by simp⟩

/-- The state before the genesis is valid. -/
theorem beforeParentGenesis_valid {config : ElementsSlot24ReplayConfig}
    (begun : ElementsSlot24ReplayState.beforeParentGenesis config = .ok state) :
    state.validate = .ok () := by
  simp only [ElementsSlot24ReplayState.beforeParentGenesis, then_eq_ok, pure_eq_ok] at begun
  obtain ⟨valid, rfl⟩ := begun
  simp only [ElementsSlot24ReplayState.validate]
  simp [valid]

end States

section Crowds

/-- The live proposals created at a height. -/
def createdAt (pending : PendingProposals) (height : Nat) : Finset Hash32 :=
  pending.keys.toFinset.filter fun hash =>
    (pending.lookup hash).map (·.proposalHeight.toNat) = some height

theorem mem_createdAt {pending : PendingProposals} {height : Nat} {hash : Hash32} :
    hash ∈ createdAt pending height ↔
      ∃ proposal, pending.lookup hash = some proposal ∧
        proposal.proposalHeight.toNat = height := by
  rw [createdAt, Finset.mem_filter, List.mem_toFinset, ← AList.mem_keys, ← AList.lookup_isSome,
    Option.map_eq_some_iff]
  constructor
  · rintro ⟨-, found⟩
    exact found
  · rintro ⟨proposal, live, height⟩
    exact ⟨by rw [live]; rfl, proposal, live, height⟩

theorem card_keys (pending : PendingProposals) :
    pending.keys.toFinset.card = pending.entries.length := by
  rw [List.toFinset_card_of_nodup pending.keys_nodup, AList.keys, List.keys, List.length_map]

/-- When few proposals are created at each height, few are live within a range of heights. -/
theorem pending_length_le {pending : PendingProposals} (tip : Nat) {age each : Nat}
    (young : ∀ hash proposal, pending.lookup hash = some proposal →
      proposal.proposalHeight.toNat ≤ tip ∧ tip - proposal.proposalHeight.toNat ≤ age)
    (few : ∀ height, (createdAt pending height).card ≤ each) :
    pending.entries.length ≤ each * (age + 1) := by
  have inside : ∀ hash ∈ pending.keys.toFinset,
      ((pending.lookup hash).map (·.proposalHeight.toNat)).getD 0 ∈
        Finset.Icc (tip - age) tip := by
    intro hash member
    rw [List.mem_toFinset, ← AList.mem_keys, ← AList.lookup_isSome,
      Option.isSome_iff_exists] at member
    obtain ⟨proposal, live⟩ := member
    obtain ⟨past, recent⟩ := young hash proposal live
    rw [live, Option.map_some, Option.getD_some, Finset.mem_Icc]
    omega
  have fibers : ∀ height ∈ Finset.Icc (tip - age) tip,
      (pending.keys.toFinset.filter fun hash =>
        ((pending.lookup hash).map (·.proposalHeight.toNat)).getD 0 = height).card ≤ each := by
    intro height _
    refine Nat.le_trans (Finset.card_le_card fun hash member => ?_) (few height)
    rw [Finset.mem_filter, List.mem_toFinset, ← AList.mem_keys, ← AList.lookup_isSome,
      Option.isSome_iff_exists] at member
    obtain ⟨⟨proposal, live⟩, same⟩ := member
    rw [live, Option.map_some, Option.getD_some] at same
    exact mem_createdAt.mpr ⟨proposal, live, same⟩
  have counted := Finset.card_le_mul_card_image_of_maps_to inside each fibers
  rw [card_keys, Nat.card_Icc] at counted
  exact Nat.le_trans counted (Nat.mul_le_mul_left _ (by omega))

end Crowds

end Usdd.BitcoinBmm

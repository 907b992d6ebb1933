import Usdd.Foundation.Attempts
import Usdd.Core.Controller
/-!
# Runs of the mint controller

The controller is driven by arbitrary attempts to mint and to beat. Along every run the minted
nonces are an interval, the minted total is one hundred times the minted deposits, every
accepted transition counts once, and the finalized context moves only forward. One accepted
step establishes each relation; the run laws carry it to every state of the run.
-/
namespace Usdd.Verif

open Usdd.Foundation Usdd.Foundation.Attempts Usdd.Core

/-- An attempt to move the controller. -/
inductive ControllerAttempt where
  /-- `MintControllerState::apply_mint_batch`. -/
  | mint (batch : MintBatch) (finality : EthereumFinalityWitness)
  /-- `MintControllerState::apply_heartbeat`. -/
  | heartbeat (finality : EthereumFinalityWitness)

namespace ControllerAttempt

/-- The operation an attempt calls. -/
def apply (state : MintControllerState) : ControllerAttempt → Except DecodeError MintControllerState
  | .mint batch finality => state.applyMintBatch batch finality
  | .heartbeat finality => state.applyHeartbeat finality

/-- The outputs an attempt mints. -/
def outputs : ControllerAttempt → List MintOutput
  | .mint batch _ => batch.outputs
  | .heartbeat _ => []

/-- The finality witness an attempt presents. -/
def finality : ControllerAttempt → EthereumFinalityWitness
  | .mint _ finality => finality
  | .heartbeat finality => finality

end ControllerAttempt

/-- The outputs minted by the accepted attempts of a run, in order. -/
def minted (log : List (ControllerAttempt × MintControllerState)) : List MintOutput :=
  log.flatMap fun entry => entry.1.outputs

@[simp]
theorem minted_concat (log : List (ControllerAttempt × MintControllerState))
    (attempt : ControllerAttempt) (next : MintControllerState) :
    minted (log ++ [(attempt, next)]) = minted log ++ attempt.outputs := by
  simp [minted]

@[simp]
theorem usdtSum_append (before after : List MintOutput) :
    MintBatch.usdtSum (before ++ after) = MintBatch.usdtSum before + MintBatch.usdtSum after := by
  rw [MintBatch.usdtSum, List.map_append, List.sum_append, MintBatch.usdtSum, MintBatch.usdtSum]

/-- What one accepted attempt does to the state, whichever operation it calls. -/
structure ControllerStep (state : MintControllerState) (attempt : ControllerAttempt)
    (next : MintControllerState) : Prop where
  valid : state.Valid
  next_valid : next.Valid
  finality_valid : attempt.finality.Valid
  version : next.version = state.version
  configuration : next.configurationHash = state.configurationHash
  sequence : next.sequence.toNat = state.sequence.toNat + 1
  outputs_valid : ∀ output ∈ attempt.outputs, output.Valid
  nonces : MintBatch.nonces attempt.outputs =
    List.range' state.nextMintNonce.toNat attempt.outputs.length
  nextNonce : next.nextMintNonce.toNat = state.nextMintNonce.toNat + attempt.outputs.length
  total : next.totalMintedUsddBase.toNat =
    state.totalMintedUsddBase.toNat + 100 * MintBatch.usdtSum attempt.outputs
  advance : state.FinalityAdvance attempt.finality
  context : next.Context attempt.finality

/-- The step law of the two operations. -/
theorem ControllerAttempt.step {state next : MintControllerState} {attempt : ControllerAttempt}
    (accepted : attempt.apply state = .ok next) : ControllerStep state attempt next := by
  cases attempt with
  | mint batch finality =>
    have step := MintControllerState.applyMintBatch_eq_ok.mp accepted
    have batchValid := step.batchValid
    exact {
      valid := step.valid
      next_valid := step.next_valid
      finality_valid := step.finalityValid
      version := step.version
      configuration := step.configuration
      sequence := step.sequence
      outputs_valid := batchValid.outputs
      nonces := by simpa [outputs, step.nonce] using batchValid.consecutive
      nextNonce := by simpa [outputs, step.nextNonce, step.nonce] using batchValid.next
      total := by rw [step.total, batchValid.converted, batchValid.usdt]; rfl
      advance := step.advance
      context := step.context }
  | heartbeat finality =>
    have step := MintControllerState.applyHeartbeat_eq_ok.mp accepted
    exact {
      valid := step.valid
      next_valid := step.next_valid
      finality_valid := step.finalityValid
      version := step.version
      configuration := step.configuration
      sequence := step.sequence
      outputs_valid := by simp [outputs]
      nonces := rfl
      nextNonce := by rw [step.nextNonce]; rfl
      total := by rw [step.total]; rfl
      advance := step.advance
      context := step.context }

/-- The accounts a run keeps: which nonces were minted, for how much, in how many steps. -/
structure ControllerAccounts (first : UInt64)
    (log : List (ControllerAttempt × MintControllerState)) (state : MintControllerState) :
    Prop where
  nonces : MintBatch.nonces (minted log) = List.range' first.toNat (minted log).length
  nextNonce : state.nextMintNonce.toNat = first.toNat + (minted log).length
  total : state.totalMintedUsddBase.toNat = 100 * MintBatch.usdtSum (minted log)
  sequence : state.sequence.toNat = log.length

/-- An accepted attempt keeps the accounts. -/
theorem ControllerAccounts.step {first : UInt64}
    {log : List (ControllerAttempt × MintControllerState)} {state next : MintControllerState}
    {attempt : ControllerAttempt} (accounts : ControllerAccounts first log state)
    (accepted : attempt.apply state = .ok next) :
    ControllerAccounts first (log ++ [(attempt, next)]) next := by
  have step := attempt.step accepted
  refine ⟨?_, ?_, ?_, ?_⟩
  · have nonces := step.nonces
    have known := accounts.nonces
    rw [accounts.nextNonce] at nonces
    simp only [MintBatch.nonces] at nonces known ⊢
    rw [minted_concat, List.map_append, known, nonces, List.length_append, List.range'_append_1]
  · rw [step.nextNonce, accounts.nextNonce, minted_concat, List.length_append, Nat.add_assoc]
  · rw [step.total, accounts.total, minted_concat, usdtSum_append, Nat.mul_add]
  · rw [step.sequence, accounts.sequence, List.length_append, List.length_singleton]

/-- How the finalized context of a later state relates to that of an earlier one. -/
structure ContextOrder (before after : MintControllerState) : Prop where
  slot_le : before.finalizedBeaconSlot.toNat ≤ after.finalizedBeaconSlot.toNat
  nonce_le : before.nextMintNonce.toNat ≤ after.nextMintNonce.toNat
  finalized : before.finalizedBeaconSlot ≠ 0 → after.finalizedBeaconSlot ≠ 0
  same : before.finalizedBeaconSlot ≠ 0 → before.finalizedBeaconSlot = after.finalizedBeaconSlot →
    before.finalizedBeaconRoot = after.finalizedBeaconRoot ∧
    before.finalizedExecutionStateRoot = after.finalizedExecutionStateRoot ∧
    before.ethereumLightClientDigest = after.ethereumLightClientDigest

/-- Order of contexts is transitive: two states with one slot have only that slot between
them. -/
instance : IsTrans MintControllerState ContextOrder where
  trans first second third early late := by
    refine ⟨early.slot_le.trans late.slot_le, early.nonce_le.trans late.nonce_le,
      fun finalized => late.finalized (early.finalized finalized), ?_⟩
    intro finalized equal
    have lower := early.slot_le
    have upper := late.slot_le
    rw [← equal] at upper
    have left : first.finalizedBeaconSlot = second.finalizedBeaconSlot :=
      UInt64.toNat_inj.mp (Nat.le_antisymm lower upper)
    obtain ⟨root, stateRoot, digest⟩ := early.same finalized left
    obtain ⟨root', stateRoot', digest'⟩ := late.same (early.finalized finalized)
      (left.symm.trans equal)
    exact ⟨root.trans root', stateRoot.trans stateRoot', digest.trans digest'⟩

/-- An accepted attempt moves the context forward. -/
theorem ControllerStep.order {state next : MintControllerState} {attempt : ControllerAttempt}
    (step : ControllerStep state attempt next) : ContextOrder state next where
  slot_le := by rw [step.context.slot]; exact step.advance.slot_le
  nonce_le := by rw [step.nextNonce]; exact Nat.le_add_right _ _
  finalized _ := by rw [step.context.slot]; exact step.finality_valid.slot
  same finalized equal := by
    rw [step.context.slot] at equal
    obtain ⟨root, stateRoot, digest⟩ := step.advance.same equal.symm finalized
    rw [step.context.root, step.context.stateRoot, step.context.digest]
    exact ⟨root.symm, stateRoot.symm, digest.symm⟩

/-- The facts a run of the controller from its bootstrap establishes. -/
structure ControllerRun (configurationHash : Hash32) (first : UInt64)
    (initial : MintControllerState) (log : List (ControllerAttempt × MintControllerState))
    (state : MintControllerState) : Prop where
  /-- The minted nonces are the interval from the first nonce to the next one. -/
  nonces : first.toNat ≤ state.nextMintNonce.toNat ∧ MintBatch.nonces (minted log) =
    List.range' first.toNat (state.nextMintNonce.toNat - first.toNat)
  /-- The minted supply is one hundred times the minted deposits. -/
  total : state.totalMintedUsddBase.toNat = 100 * MintBatch.usdtSum (minted log)
  /-- Every accepted transition counts once. -/
  sequence : state.sequence.toNat = log.length
  /-- Version and configuration never change. -/
  identity : ∀ reached ∈ states initial log, reached.version = protocolVersion ∧
    reached.configurationHash = configurationHash
  /-- The finalized slot never falls and never jumps by more than the gap. -/
  slots : (states initial log).IsChain fun before after =>
    before.finalizedBeaconSlot.toNat ≤ after.finalizedBeaconSlot.toNat ∧
    after.finalizedBeaconSlot.toNat ≤ before.finalizedBeaconSlot.toNat + 4096
  /-- Two states at one slot carry one finalized context. -/
  agreement : ∀ left ∈ states initial log, ∀ right ∈ states initial log,
    left.finalizedBeaconSlot = right.finalizedBeaconSlot →
      left.finalizedBeaconRoot = right.finalizedBeaconRoot ∧
      left.finalizedExecutionStateRoot = right.finalizedExecutionStateRoot ∧
      left.ethereumLightClientDigest = right.ethereumLightClientDigest
  /-- Consecutive states at different slots carry different digests. -/
  progress : (states initial log).IsChain fun before after =>
    before.finalizedBeaconSlot ≠ after.finalizedBeaconSlot →
      before.ethereumLightClientDigest ≠ after.ethereumLightClientDigest
  /-- A minted batch is refused by every later state, whatever witness accompanies it. -/
  noReplay : ∀ before batch finality next after,
    log = before ++ (ControllerAttempt.mint batch finality, next) :: after →
      ∀ later ∈ states next after, ∀ witness, ¬Succeeds (later.applyMintBatch batch witness)
  /-- The validation that closes a mint rejects nothing the earlier checks let through. -/
  mintCloses : ∀ prior batch finality next,
    MintControllerState.mintSuccessor prior batch finality = .ok next → next.validate = .ok ()
  /-- The validation that closes a heartbeat rejects nothing the earlier checks let through. -/
  heartbeatCloses : ∀ prior finality next,
    MintControllerState.heartbeatSuccessor prior finality = .ok next → next.validate = .ok ()

section Runs

variable {initial state : MintControllerState}
  {log : List (ControllerAttempt × MintControllerState)}

private theorem agree_of_order {left right : MintControllerState}
    (finalized : left.finalizedBeaconSlot ≠ 0)
    (ordered : ContextOrder left right ∨ ContextOrder right left ∨ left = right)
    (equal : left.finalizedBeaconSlot = right.finalizedBeaconSlot) :
    left.finalizedBeaconRoot = right.finalizedBeaconRoot ∧
      left.finalizedExecutionStateRoot = right.finalizedExecutionStateRoot ∧
      left.ethereumLightClientDigest = right.ethereumLightClientDigest := by
  rcases ordered with forward | backward | rfl
  · exact forward.same finalized equal
  · obtain ⟨root, stateRoot, digest⟩ := backward.same (equal ▸ finalized) equal.symm
    exact ⟨root.symm, stateRoot.symm, digest.symm⟩
  · exact ⟨rfl, rfl, rfl⟩

/-- In a list whose earlier members precede the later ones, any two members are comparable. -/
private theorem comparable {R : MintControllerState → MintControllerState → Prop}
    {list : List MintControllerState} (ordered : list.Pairwise R)
    {left right : MintControllerState} (memberLeft : left ∈ list) (memberRight : right ∈ list) :
    R left right ∨ R right left ∨ left = right := by
  induction ordered with
  | nil => cases memberLeft
  | cons head _ ih =>
    rcases List.mem_cons.mp memberLeft with rfl | inLeft
    · rcases List.mem_cons.mp memberRight with rfl | inRight
      · exact Or.inr (Or.inr rfl)
      · exact Or.inl (head _ inRight)
    · rcases List.mem_cons.mp memberRight with rfl | inRight
      · exact Or.inr (Or.inl (head _ inLeft))
      · exact ih inLeft inRight

/-- Along a run from a finalized state, states with one slot carry one context. -/
theorem controller_agreement (run : Reaches ControllerAttempt.apply initial log state)
    (finalized : initial.finalizedBeaconSlot ≠ 0) :
    ∀ left ∈ states initial log, ∀ right ∈ states initial log,
      left.finalizedBeaconSlot = right.finalizedBeaconSlot →
        left.finalizedBeaconRoot = right.finalizedBeaconRoot ∧
        left.finalizedExecutionStateRoot = right.finalizedExecutionStateRoot ∧
        left.ethereumLightClientDigest = right.ethereumLightClientDigest := by
  have ordered : (states initial log).Pairwise ContextOrder :=
    run.pairwise fun _ attempt _ accepted => (attempt.step accepted).order
  intro left memberLeft right memberRight
  refine agree_of_order ?_ (comparable ordered memberLeft memberRight)
  rcases List.mem_cons.mp memberLeft with rfl | later
  · exact finalized
  · exact ((List.pairwise_cons.mp ordered).1 left later).finalized finalized

/-- A batch minted in a run is refused by every state after it: the next nonce has passed it. -/
theorem controller_noReplay
    (run : Reaches ControllerAttempt.apply initial log state)
    {before after : List (ControllerAttempt × MintControllerState)} {batch : MintBatch}
    {finality : EthereumFinalityWitness} {next : MintControllerState}
    (cut : log = before ++ (ControllerAttempt.mint batch finality, next) :: after)
    {later : MintControllerState} (member : later ∈ states next after)
    (witness : EthereumFinalityWitness) : ¬Succeeds (later.applyMintBatch batch witness) := by
  obtain ⟨middle, early, late⟩ := run.split (before ++ [(.mint batch finality, next)]) after
    (by rw [cut, List.append_assoc]; rfl)
  obtain ⟨prior, _, accepted, rfl⟩ := early.of_append rfl
  have minting := MintControllerState.applyMintBatch_eq_ok.mp accepted
  have ordered : (states middle after).Pairwise ContextOrder :=
    late.pairwise fun _ attempt _ accepted => (attempt.step accepted).order
  have passed : middle.nextMintNonce.toNat ≤ later.nextMintNonce.toNat := by
    rcases List.mem_cons.mp member with rfl | member
    · exact Nat.le_refl _
    · exact ((List.pairwise_cons.mp ordered).1 later member).nonce_le
  rintro ⟨last, replayed⟩
  have replay := MintControllerState.applyMintBatch_eq_ok.mp replayed
  have size := List.length_pos_iff.mpr minting.batchValid.nonempty
  have next := minting.batchValid.next
  rw [← minting.nextNonce] at next
  have nonce := congrArg UInt64.toNat replay.nonce
  omega

end Runs

/-- Every run of attempts on a bootstrapped controller keeps its accounts, moves its finalized
context forward and never mints a batch twice. -/
theorem controller_run {configurationHash : Hash32} {first : UInt64}
    {finality : EthereumFinalityWitness} {initial : MintControllerState}
    (booted : MintControllerState.bootstrap configurationHash first finality = .ok initial)
    (attempts : List ControllerAttempt) :
    ControllerRun configurationHash first initial
      (history ControllerAttempt.apply initial attempts)
      (reached ControllerAttempt.apply initial attempts) := by
  obtain ⟨accepted, _, start⟩ := MintControllerState.bootstrap_eq_ok.mp booted
  have finalized : initial.finalizedBeaconSlot ≠ 0 := by rw [start]; exact accepted.slot
  have run : Reaches _ initial _ _ := reaches_history ControllerAttempt.apply attempts
  have accounts : ControllerAccounts first _ _ :=
    run.invariant (I := fun log state => ControllerAccounts first log state)
      ⟨rfl, by rw [start]; rfl, by rw [start]; rfl, by rw [start]; rfl⟩
      fun _ _ _ _ kept accepted => kept.step accepted
  have identity : (states initial _).IsChain fun before after =>
      after.version = before.version ∧ after.configurationHash = before.configurationHash :=
    run.isChain fun _ attempt _ accepted =>
      ⟨(attempt.step accepted).version, (attempt.step accepted).configuration⟩
  refine ⟨⟨?_, ?_⟩, accounts.total, accounts.sequence, ?_, ?_, controller_agreement run finalized,
    ?_, fun before batch finality next after cut later member witness =>
      controller_noReplay run cut member witness, ?_, ?_⟩
  · rw [accounts.nextNonce]
    exact Nat.le_add_right _ _
  · rw [accounts.nextNonce, Nat.add_sub_cancel_left]
    exact accounts.nonces
  · refine List.IsChain.induction (fun state => state.version = protocolVersion ∧
      state.configurationHash = configurationHash) _ identity ?_ ?_
    · rintro before after ⟨version, configuration⟩ ⟨known, kept⟩
      exact ⟨version.trans known, configuration.trans kept⟩
    · intro _
      have known : initial.version = protocolVersion ∧
          initial.configurationHash = configurationHash := by
        rw [start]
        exact ⟨rfl, rfl⟩
      exact known
  · refine run.isChain fun _ attempt next accepted => ?_
    have step := attempt.step accepted
    rw [step.context.slot]
    exact ⟨step.advance.slot_le, step.advance.gap_le⟩
  · refine run.isChain fun state attempt next accepted different => ?_
    have step := attempt.step accepted
    rw [step.context.slot] at different
    rw [step.context.digest]
    refine (step.advance.newer (Nat.lt_of_le_of_ne step.advance.slot_le ?_)).symm
    exact fun equal => different (UInt64.toNat_inj.mp equal)
  · exact fun _ _ _ _ accepted => MintControllerState.validate_eq_ok.mpr
      (MintControllerState.mintSuccessor_eq_ok.mp accepted).next_valid
  · exact fun _ _ _ accepted => MintControllerState.validate_eq_ok.mpr
      (MintControllerState.heartbeatSuccessor_eq_ok.mp accepted).next_valid

/-- A finality witness at a slot, with a digest and roots that name it. -/
def sampleFinality (slot : UInt64) (digest : Nat) : EthereumFinalityWitness where
  ethereumLightClientDigest := .ofNat 32 digest
  finalizedBeaconSlot := slot
  finalizedBeaconRoot := .ofNat 32 (digest + 1)
  finalizedExecutionBlock := .ofNat 32 (digest + 2)
  finalizedExecutionStateRoot := .ofNat 32 (digest + 3)
  executionBlockNumber := 1
  executionBlockTimestamp := 1700000000

/-- A batch that mints one deposit of five micro-USDT at nonce seven. -/
def sampleBatch : MintBatch where
  firstNonce := 7
  nextNonce := 8
  outputs := [⟨.ofNat 32 1, 7, 5, 500, [0x51]⟩]
  totalUsdtAmountMicro := 5
  totalUsddAmountBase := 500

/-- The controller that a bootstrap at nonce seven leaves. -/
def sampleController : MintControllerState where
  version := protocolVersion
  sequence := 0
  nextMintNonce := 7
  ethereumLightClientDigest := .ofNat 32 100
  finalizedBeaconSlot := 16
  finalizedBeaconRoot := .ofNat 32 101
  finalizedExecutionStateRoot := .ofNat 32 103
  totalMintedUsddBase := 0
  configurationHash := .ofNat 32 9

/-- A mint, its replay and a heartbeat: the first and the last are accepted. -/
def sampleAttempts : List ControllerAttempt :=
  [.mint sampleBatch (sampleFinality 16 100), .mint sampleBatch (sampleFinality 17 200),
    .heartbeat (sampleFinality 4112 300)]

theorem controller_run_sample :
    (history ControllerAttempt.apply sampleController sampleAttempts).length = 2 ∧
      ControllerRun (.ofNat 32 9) 7 sampleController
        (history ControllerAttempt.apply sampleController sampleAttempts)
        (reached ControllerAttempt.apply sampleController sampleAttempts) :=
  ⟨by decide +kernel, controller_run
    (show MintControllerState.bootstrap _ _ (sampleFinality 16 100) = .ok _ by decide +kernel) _⟩

end Usdd.Verif

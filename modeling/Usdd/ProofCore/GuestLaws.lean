import Usdd.ProofCore.Guest
/-!
# What an accepted Elements claim established

An accepted append opened an empty position under the root before it, for a valid burn of this
vault and asset, and its branch carried the burn's leaf to the root after it. An accepted claim
made those steps from the root of its prior state to the root of its next state, one for each
burn the count grew by.
-/
namespace Usdd.Core.Burn

/-- The leaf of a burn at a position of the tree. -/
def leafAt [Hashing] (burn : Burn) (genesis : Hash32) (position : Nat) : Hash32 :=
  hashBytes ((burn.solidityClaim genesis).burnLeafPreimage (UInt64.ofNat position))

end Usdd.Core.Burn

namespace Usdd.ProofCore

open Usdd.Foundation Usdd.Foundation.SparseTree Usdd.Core

variable [Hashing] {Proof : Type} {verifier : ElementsValidityProofVerifier Proof}
  {manifest : ProtocolManifest} {claim : ElementsStateTransitionClaim} {proof : Proof}

omit [Hashing] in
/-- `u64::try_from` is the length where it fits. -/
theorem wordOfLength_eq_some {length : Nat} {word : UInt64} :
    wordOfLength length = some word ↔ word.toNat = length := by
  unfold wordOfLength
  split
  · rename_i fits
    rw [Option.some.injEq, ← UInt64.toNat_inj, UInt64.toNat_ofNat_of_lt' fits]
    exact eq_comm
  · have bound := word.toNat_lt
    simp only [reduceCtorEq, false_iff]
    omega

/-- A burn that the guest appends for a manifest. -/
structure Admitted (manifest : ProtocolManifest) (burn : Burn) : Prop where
  valid : burn.Valid
  vaultId : burn.vaultId = manifest.vaultId
  asset : burn.usddAsset = manifest.usddAsset
  claim : (burn.solidityClaim manifest.elementsGenesis).Valid

/-- What the checks of one append established at a position under a root. -/
structure AppendStep (manifest : ProtocolManifest) (root : Hash32) (position : Nat)
    (append : BurnAppend) : Prop where
  fits : position < 2 ^ 64
  admitted : Admitted manifest append.burn
  opens : climb burnAccumulatorNode (emptyBurnNode 0) position append.emptyBranch.sibling 64 = root

/-- The root an append carries its leaf to. -/
def BurnAppend.rootAfter (append : BurnAppend) (genesis : Hash32) (position : Nat) : Hash32 :=
  climb burnAccumulatorNode (append.burn.leafAt genesis position) position
    append.emptyBranch.sibling 64

/-- The appends of a claim lead from a position and a root to a last root. -/
inductive Appends (manifest : ProtocolManifest) : Nat → Hash32 → List BurnAppend → Hash32 → Prop
  | done (position : Nat) (root : Hash32) : Appends manifest position root [] root
  | step {position : Nat} {root last : Hash32} {append : BurnAppend} {rest : List BurnAppend} :
    AppendStep manifest root position append →
    Appends manifest (position + 1) (append.rootAfter manifest.elementsGenesis position) rest last →
    Appends manifest position root (append :: rest) last

/-- The loop over the appended burns returns exactly where the appends lead. -/
theorem appendBurns_eq_ok {priorCount : UInt64} {appends : List BurnAppend} {offset : Nat}
    {root last : Hash32} (short : offset + appends.length < 2 ^ 64) :
    appendBurns manifest priorCount (emptyBurnNode 0) offset root appends = .ok last ↔
      Appends manifest (priorCount.toNat + offset) root appends last := by
  induction appends generalizing offset root with
  | nil =>
    simp only [appendBurns, pure_eq_ok]
    constructor
    · rintro rfl
      exact .done _ _
    · intro steps
      cases steps
      rfl
  | cons append rest ih =>
    rw [List.length_cons] at short
    have offsetFits : (UInt64.ofNat offset).toNat = offset :=
      UInt64.toNat_ofNat_of_lt' (by change offset < 2 ^ 64; omega)
    have continued := @ih (offset + 1)
    simp only [appendBurns]
    simp only [↓then_eq_ok, bind_eq_ok, rejectIf_eq_ok, okOr_eq_ok, mapError_eq_ok,
      Burn.validate_eq_ok, SolidityBurnClaim.burnLeaf_eq_ok, checkedAdd_eq_some, not_or, ne_eq,
      not_not, Bool.not_eq_false, BurnProof.verify_eq_true, BurnProof.computeRoot_eq_climb,
      offsetFits]
    constructor
    · rintro ⟨valid, ⟨vaultId, asset⟩, index, exact, opens, _, ⟨claimValid, rfl⟩, later⟩
      rw [exact] at opens
      have position : UInt64.ofNat (priorCount.toNat + offset) = index := by
        rw [← exact, UInt64.ofNat_toNat]
      rw [continued (by omega), exact] at later
      refine .step ⟨?_, ⟨valid, vaultId, asset, claimValid⟩, opens⟩ ?_
      · rw [← exact]
        exact index.toNat_lt
      · rw [BurnAppend.rootAfter, Burn.leafAt, position]
        exact later
    · intro steps
      cases steps with
      | step step later =>
        have exact : (UInt64.ofNat (priorCount.toNat + offset)).toNat =
            priorCount.toNat + offset := UInt64.toNat_ofNat_of_lt' step.fits
        have admitted := step.admitted
        refine ⟨admitted.valid, ⟨admitted.vaultId, admitted.asset⟩, _, exact, ?_, _,
          ⟨admitted.claim, rfl⟩, ?_⟩
        · rw [exact]
          exact step.opens
        · rw [continued (by omega), exact]
          exact later

/-- Every burn of appends that lead somewhere is admitted. -/
theorem Appends.admitted {position : Nat} {root last : Hash32} {appends : List BurnAppend}
    (steps : Appends manifest position root appends last) :
    ∀ append ∈ appends, Admitted manifest append.burn := by
  induction steps with
  | done position root => simp
  | step step later ih => exact List.forall_mem_cons.mpr ⟨step.admitted, ih⟩

/-- The root an Elements claim starts from. -/
def startRoot (state : SolidityElementsBridgeState) : Hash32 :=
  if state.IsZero then emptyBurnNode 64 else state.cumulativeBurnRoot

/-- A canonical state is not the zero state, so a claim starts from its own root. -/
theorem startRoot_of_canonical {state : SolidityElementsBridgeState}
    (canonical : state.Canonical) : startRoot state = state.cumulativeBurnRoot := by
  refine if_neg fun blank => canonical.tip ?_
  rw [SolidityElementsBridgeState.isZero_iff.mp blank]
  rfl

theorem startingRoot_eq_ok {state : SolidityElementsBridgeState} {root : Hash32} :
    startingRoot state = .ok root ↔ startRoot state = root := by
  unfold startingRoot startRoot
  split <;> simp [burnAccumulatorEmpty_eq_ok]

/-- What an accepted Elements claim established. -/
structure TransitionStep (manifest : ProtocolManifest) (claim : ElementsStateTransitionClaim)
    (output : ElementsStatePublicOutput) : Prop where
  manifest_valid : manifest.Valid
  manifestId : claim.manifestId = domainHash .manifest (encode manifest)
  active : claim.priorState.IsZero ↔ claim.priorBridgeStateHash = .zero
  prior : claim.priorState = .zero ∨ claim.priorState.Canonical
  follows : claim.priorState.Follows claim.nextState
  activated : claim.priorBridgeStateHash = .zero →
    manifest.minimumActivationChainwork.toNat ≤ claim.nextState.bitcoinChainwork.toNat
  count : claim.nextState.burnCount.toNat =
    claim.priorState.burnCount.toNat + claim.appendedBurns.length
  appends : Appends manifest claim.priorState.burnCount.toNat (startRoot claim.priorState)
    claim.appendedBurns claim.nextState.cumulativeBurnRoot
  prior_eq : output.priorState = claim.priorState
  next_eq : output.nextState = claim.nextState
  priorHash_eq : output.priorBridgeStateHash = claim.priorBridgeStateHash
  nextHash_eq : output.nextBridgeStateHash =
    hashBytes (nextHashPreimage claim.priorBridgeStateHash claim.nextState.contentsHash)
  statement_eq : output.verifierStatement = hashBytes (statementPreimage manifest
    claim.priorBridgeStateHash claim.priorState.contentsHash output.nextBridgeStateHash
    claim.nextState.contentsHash)

theorem checkManifest_eq_ok {claimed id : Hash32} :
    checkManifest manifest claimed = .ok id ↔
      manifest.Valid ∧ claimed = id ∧ id = domainHash .manifest (encode manifest) := by
  simp only [checkManifest]
  simp only [↓then_eq_ok, bind_eq_ok, rejectIf_eq_ok, mapError_eq_ok, pure_eq_ok,
    ProtocolManifest.validate_eq_ok, ProtocolManifest.manifestId_eq_ok, ne_eq, not_not]
  constructor
  · rintro ⟨valid, _, ⟨_, rfl⟩, rfl, rfl⟩
    exact ⟨valid, rfl, rfl⟩
  · rintro ⟨valid, rfl, rfl⟩
    exact ⟨valid, _, ⟨valid, rfl⟩, rfl, rfl⟩

/-- The law of `build_elements_state_journal`, up to its journal. -/
theorem elementsStateOutput_eq_ok {output : ElementsStatePublicOutput}
    (built : elementsStateOutput verifier manifest claim proof = .ok output) :
    TransitionStep manifest claim output ∧
      verifier.verifyElementsStateTransition manifest claim proof = .ok () := by
  simp only [elementsStateOutput] at built
  simp only [↓then_eq_ok, bind_eq_ok, rejectIf_eq_ok, okOr_eq_ok, mapError_eq_ok, pure_eq_ok,
    checkManifest_eq_ok, SolidityElementsBridgeState.validateSuccessor_eq_ok, wordOfLength_eq_some,
    checkedAdd_eq_some, startingRoot_eq_ok,
    burnAccumulatorEmpty_eq_ok (Nat.zero_le 64), not_and, not_not, ne_eq,
    FixedBytes.lt_iff_toNat_lt, Nat.not_lt, Except.ok.injEq] at built
  obtain ⟨_, ⟨valid, rfl, identified⟩, active, ⟨prior, follows⟩, activated, appendCount, counted,
    expected, sum, same, _, rfl, _, rfl, _, appended, reached, verified, rfl⟩ := built
  have bound := expected.toNat_lt
  subst same reached
  rw [appendBurns_eq_ok (by omega), Nat.add_zero] at appended
  exact ⟨{
    manifest_valid := valid
    manifestId := identified
    active := active
    prior := prior
    follows := follows
    activated := activated
    count := by rw [sum, counted]
    appends := appended
    prior_eq := rfl
    next_eq := rfl
    priorHash_eq := rfl
    nextHash_eq := rfl
    statement_eq := rfl }, verified⟩

/-- A journal that was returned carries the public output of its claim. -/
theorem buildElementsStateJournal_eq_ok {journal : StrictJournal}
    (built : buildElementsStateJournal verifier manifest claim proof = .ok journal) :
    ∃ output, elementsStateOutput verifier manifest claim proof = .ok output ∧
      journal.payload = encode output ∧ journal.statementKind = .elementsState := by
  simp only [buildElementsStateJournal, bind_eq_ok, mapError_eq_ok] at built
  obtain ⟨output, accepted, made⟩ := built
  obtain ⟨_, _, _, rfl⟩ := StrictJournal.new_eq_ok.mp made
  exact ⟨output, accepted, rfl, rfl⟩

section Deposits

variable {stateVerifier : EthereumStateProofVerifier Proof} {deposits : EthereumDepositClaim}

/-- What an accepted deposit claim established, and how its output was made. -/
structure DepositStep (manifest : ProtocolManifest) (claim : EthereumDepositClaim)
    (output : DepositPublicOutput) : Prop where
  manifest_valid : manifest.Valid
  manifestId : claim.manifestId = domainHash .manifest (encode manifest)
  configuration : claim.priorState.configurationHash = manifest.controllerConfigurationHash
  targets : ∀ deposit ∈ claim.deposits, deposit.ethereumChainId = manifest.ethereumChainId ∧
    deposit.vault = manifest.vault ∧ deposit.usdt = manifest.usdt
  batch : MintBatch.fromDeposits claim.deposits = .ok output.mintBatch
  step : claim.priorState.MintStep output.mintBatch claim.finality output.nextState
  output_eq : output = ⟨claim.manifestId, claim.claimId, claim.priorState, output.nextState,
    claim.finality.executionBlockTimestamp, output.mintBatch⟩

/-- The law of `build_deposit_journal`, up to its journal. -/
theorem depositOutput_eq_ok {output : DepositPublicOutput} :
    depositOutput stateVerifier manifest deposits proof = .ok output ↔
      DepositStep manifest deposits output ∧
        stateVerifier.verifyFinalizedDeposits manifest deposits proof = .ok () := by
  simp only [depositOutput]
  simp only [↓then_eq_ok, bind_eq_ok, rejectIf_eq_ok, mapError_eq_ok, pure_eq_ok, forM_eq_ok,
    checkManifest_eq_ok, MintControllerState.applyMintBatch_eq_ok,
    MintControllerState.validate_eq_ok]
  simp only [not_or, ne_eq, not_not]
  constructor
  · rintro ⟨_, ⟨valid, rfl, identified⟩, -, configuration, targets, batch, made, nonce, next, step,
      verified, rfl⟩
    exact ⟨⟨valid, identified, configuration, targets, made, step, rfl⟩, verified⟩
  · rintro ⟨law, verified⟩
    exact ⟨deposits.manifestId, ⟨law.manifest_valid, rfl, law.manifestId⟩, law.step.valid,
      law.configuration, law.targets, output.mintBatch, law.batch, law.step.nonce,
      output.nextState, law.step, verified, law.output_eq.symm⟩

/-- What `build_heartbeat_journal` established, up to its journal. -/
theorem heartbeatOutput_eq_ok {claim : EthereumHeartbeatClaim} {output : HeartbeatPublicOutput}
    (built : heartbeatOutput stateVerifier manifest claim proof = .ok output) :
    claim.priorState.HeartbeatStep claim.finality output.nextState ∧
      stateVerifier.verifyFinalizedHeartbeat manifest claim proof = .ok () := by
  simp only [heartbeatOutput] at built
  simp only [↓then_eq_ok, bind_eq_ok, rejectIf_eq_ok, mapError_eq_ok, pure_eq_ok,
    MintControllerState.applyHeartbeat_eq_ok] at built
  obtain ⟨_, _, _, next, step, verified, rfl⟩ := built
  exact ⟨step, verified⟩

end Deposits

end Usdd.ProofCore

import Usdd.ProofCore.TypedPayload
import Usdd.Verif.Redeemability
/-!
# No admitted burn gets stuck

From the state that a vault has finalized, the accumulator over all burns so far makes the appends
of a claim about up to 64 further burns. The guest accepts that claim, the vault accepts the state
it leads to, and in that state each of the burns is redeemed with the accumulator's proof. So a
burn that the manifest admits is carried to its payout by the accumulator alone.
-/
namespace Usdd.Verif

open Usdd.Foundation Usdd.Foundation.Reentrant Usdd.Foundation.SparseTree Usdd.Core
  Usdd.Contracts Usdd.ProofCore Usdd.Spec

variable [Hashing]

/-- The appends that an accumulator makes for burns, one after the other: the leaf of a burn is
appended, and its branch is the proof of it that the longer accumulator collects. -/
inductive MadeAppends (genesis : Hash32) :
    BurnAccumulator → List Burn → List BurnAppend → BurnAccumulator → Prop
  | done (accumulator : BurnAccumulator) : MadeAppends genesis accumulator [] [] accumulator
  | step {accumulator longer last : BurnAccumulator} {burn : Burn} {rest : List Burn}
    {leaf : Hash32} {index : UInt64} {proof : BurnProof} {appends : List BurnAppend} :
    (burn.solidityClaim genesis).burnLeaf accumulator.burnCount = .ok leaf →
    accumulator.append leaf = .ok (index, longer) →
    longer.proof index = .ok proof →
    MadeAppends genesis longer rest appends last →
    MadeAppends genesis accumulator (burn :: rest) (⟨burn, proof⟩ :: appends) last

section Appends

variable {manifest : ProtocolManifest}

/-- The proof of a leaf that was appended last opens its position in the tree before the append,
and carries the leaf to the root after it. -/
theorem proof_of_appended {leaves : List Hash32} {leaf : Hash32} {index : UInt64}
    {proof : BurnProof} (position : index.toNat = leaves.length)
    (collected : BurnAccumulator.proof ⟨leaves ++ [leaf]⟩ index = .ok proof) :
    climb burnAccumulatorNode (emptyBurnNode 0) leaves.length proof.sibling 64 =
      rootForLeaves leaves ∧
    climb burnAccumulatorNode leaf leaves.length proof.sibling 64 =
      rootForLeaves (leaves ++ [leaf]) := by
  have bound : leaves.length < 2 ^ 64 := by
    rw [← position]
    exact index.toNat_lt
  have top : leaves.length / 2 ^ 64 = 0 := Nat.div_eq_of_lt bound
  obtain ⟨found, same, siblings⟩ := @BurnAccumulator.proof_eq_ok _ ⟨leaves ++ [leaf]⟩ index
    (by simp [position])
  obtain rfl := Except.ok.inj (collected.symm.trans same)
  have longer : burnLeaves (leaves ++ [leaf]) =
      Function.update (burnLeaves leaves) leaves.length leaf := leavesOf_append _ _ _
  -- A branch does not contain its own leaf, so it is the branch of the shorter tree as well.
  have kept : ∀ level < 64, proof.sibling level =
      branchOf burnAccumulatorNode (burnLeaves leaves) leaves.length level := by
    intro level small
    rw [siblings level small, position, longer, branchOf_update]
  constructor
  · have empty : emptyBurnNode 0 = burnLeaves leaves leaves.length :=
      (leavesOf_eq_empty (Nat.le_refl _)).symm
    rw [climb_congr _ kept, empty, climb_branchOf, rootForLeaves_eq, top]
  · rw [climb_congr _ kept, climb_update, ← longer, rootForLeaves_eq, top]

/-- The accumulator makes appends for all admitted burns that fit, and the guest follows them from
root to root. -/
theorem madeAppends_followed {before burns : List Burn}
    (admitted : ∀ burn ∈ burns, Admitted manifest burn)
    (fits : before.length + burns.length < 2 ^ 64) :
    ∃ appends, appends.map BurnAppend.burn = burns ∧
      MadeAppends manifest.elementsGenesis ⟨leavesFor manifest.elementsGenesis before⟩ burns appends
        ⟨leavesFor manifest.elementsGenesis (before ++ burns)⟩ ∧
      Appends manifest before.length (rootForLeaves (leavesFor manifest.elementsGenesis before))
        appends (rootForLeaves (leavesFor manifest.elementsGenesis (before ++ burns))) := by
  induction burns generalizing before with
  | nil =>
    rw [List.append_nil]
    exact ⟨[], rfl, .done _, .done _ _⟩
  | cons burn rest ih =>
    rw [List.length_cons] at fits
    have first := admitted burn List.mem_cons_self
    have later : ∀ other ∈ rest, Admitted manifest other :=
      fun other member => admitted other (List.mem_cons_of_mem _ member)
    have shifted : (before ++ [burn]).length + rest.length < 2 ^ 64 := by
      rw [List.length_append, List.length_singleton]
      omega
    obtain ⟨appends, same, made, steps⟩ := ih later shifted
    rw [List.append_assoc, List.singleton_append] at made steps
    have position : (UInt64.ofNat before.length).toNat = before.length := by
      apply UInt64.toNat_ofNat_of_lt'
      change before.length < 2 ^ 64
      omega
    have longer := leavesFor_append manifest.elementsGenesis before burn
    rw [longer] at made steps
    rw [List.length_append, List.length_singleton] at steps
    have counted : (BurnAccumulator.mk
        (leavesFor manifest.elementsGenesis before)).burnCount = UInt64.ofNat before.length := by
      rw [BurnAccumulator.burnCount, leavesFor_length]
    obtain ⟨proof, collected, _⟩ := @BurnAccumulator.proof_eq_ok _
      ⟨leavesFor manifest.elementsGenesis before ++
        [burn.leafAt manifest.elementsGenesis before.length]⟩ (UInt64.ofNat before.length)
      (by simp [position])
    have branch := proof_of_appended (by rw [position, leavesFor_length]) collected
    rw [leavesFor_length] at branch
    obtain ⟨opens, reached⟩ := branch
    refine ⟨⟨burn, proof⟩ :: appends, ?_, ?_, ?_⟩
    · rw [List.map_cons, same]
    · refine .step (SolidityBurnClaim.burnLeaf_eq_ok.mpr ⟨first.claim, rfl⟩) ?_ collected made
      have room : ¬2 ^ 64 ≤ (leavesFor manifest.elementsGenesis before).length := by
        rw [leavesFor_length]
        omega
      rw [counted, BurnAccumulator.append, rejectIf, if_neg room, leavesFor_length]
      rfl
    · refine .step ⟨by omega, first, opens⟩ ?_
      rw [BurnAppend.rootAfter, reached]
      exact steps

end Appends

section Guest

variable {Proof : Type} {verifier : ElementsValidityProofVerifier Proof}
  {manifest : ProtocolManifest} {claim : ElementsStateTransitionClaim} {proof : Proof}
  {output : ElementsStatePublicOutput}

/-- The guest returns the public output of a step that its verifier accepts. -/
theorem elementsStateOutput_of_step (step : TransitionStep manifest claim output)
    (manifestId : output.manifestId = claim.manifestId) (claimId : output.claimId = claim.claimId)
    (verified : verifier.verifyElementsStateTransition manifest claim proof = .ok ()) :
    elementsStateOutput verifier manifest claim proof = .ok output := by
  have bound := claim.nextState.burnCount.toNat_lt
  have count := step.count
  have counted : (UInt64.ofNat claim.appendedBurns.length).toNat = claim.appendedBurns.length := by
    apply UInt64.toNat_ofNat_of_lt'
    change claim.appendedBurns.length < 2 ^ 64
    omega
  have appended : appendBurns manifest claim.priorState.burnCount (emptyBurnNode 0) 0
      (startRoot claim.priorState) claim.appendedBurns =
      .ok claim.nextState.cumulativeBurnRoot := by
    rw [appendBurns_eq_ok (by omega), Nat.add_zero]
    exact step.appends
  have written : output = ⟨claim.manifestId, claim.claimId, claim.priorBridgeStateHash,
      hashBytes (nextHashPreimage claim.priorBridgeStateHash claim.nextState.contentsHash),
      hashBytes (statementPreimage manifest claim.priorBridgeStateHash
        claim.priorState.contentsHash
        (hashBytes (nextHashPreimage claim.priorBridgeStateHash claim.nextState.contentsHash))
        claim.nextState.contentsHash), claim.priorState, claim.nextState⟩ := by
    have statement := step.statement_eq
    rw [step.nextHash_eq] at statement
    rw [← manifestId, ← claimId, ← statement, ← step.nextHash_eq, ← step.priorHash_eq,
      ← step.prior_eq, ← step.next_eq]
  simp only [elementsStateOutput]
  simp only [↓then_eq_ok, bind_eq_ok, rejectIf_eq_ok, okOr_eq_ok, mapError_eq_ok, pure_eq_ok,
    checkManifest_eq_ok, SolidityElementsBridgeState.validateSuccessor_eq_ok, wordOfLength_eq_some,
    checkedAdd_eq_some, startingRoot_eq_ok,
    burnAccumulatorEmpty_eq_ok (Nat.zero_le 64), not_and, not_not, ne_eq,
    FixedBytes.lt_iff_toNat_lt, Nat.not_lt, Except.ok.injEq]
  exact ⟨claim.manifestId, ⟨step.manifest_valid, rfl, step.manifestId⟩, step.active,
    ⟨step.prior, step.follows⟩, step.activated, _, counted, claim.nextState.burnCount,
    by rw [counted]; exact count, rfl, _, rfl, _, rfl, _, appended, rfl, verified, written.symm⟩

/-- The output of a step is written to a journal, if no digest is zero. -/
theorem buildElementsStateJournal_of_step (nonzero : ∀ message, Hashing.sha256 message ≠ .zero)
    (step : TransitionStep manifest claim output)
    (manifestId : output.manifestId = claim.manifestId) (claimId : output.claimId = claim.claimId)
    (verified : verifier.verifyElementsStateTransition manifest claim proof = .ok ()) :
    ∃ journal, buildElementsStateJournal verifier manifest claim proof = .ok journal ∧
      journal.payload = encode output := by
  have program : manifest.elementsGuestProgramId ≠ .zero :=
    step.manifest_valid.hashes ("elements_guest_program_id", manifest.elementsGuestProgramId)
      (by simp [ProtocolManifest.requiredHashes])
  have valid : output.validate = .ok () := by
    simp only [ElementsStatePublicOutput.validate]
    simp only [↓then_eq_ok, rejectIf_eq_ok, not_or, not_not,
      SolidityElementsBridgeState.validateSuccessor_eq_ok]
    refine ⟨⟨?_, ?_, ?_, ?_, ?_⟩, ?_⟩
    · rw [manifestId, step.manifestId]
      exact nonzero _
    · rw [claimId]
      exact nonzero _
    · rw [step.nextHash_eq]
      exact nonzero _
    · rw [step.statement_eq]
      exact nonzero _
    · rw [step.prior_eq, step.priorHash_eq]
      exact step.active
    · rw [step.prior_eq, step.next_eq]
      exact ⟨step.prior, step.follows⟩
  have typed : TypedPublicValues.decode .elementsState (encode output) =
      .ok (.elementsState output) :=
    TypedPublicValues.decode_eq_ok.mpr ⟨valid, rfl, rfl⟩
  have nonempty : encode output ≠ [] := by
    intro none
    have length := congrArg List.length none
    simp [encode, FixedBytes.length_eq] at length
  refine ⟨⟨.elementsState, manifest.elementsGuestProgramId, hashBytes (encode output),
    encode output⟩, ?_, rfl⟩
  simp only [buildElementsStateJournal, bind_eq_ok, mapError_eq_ok]
  exact ⟨output, elementsStateOutput_of_step step manifestId claimId verified,
    StrictJournal.new_eq_ok.mpr ⟨program, nonempty, ⟨_, typed⟩, rfl⟩⟩

end Guest

section Vault

variable {World : Type} {view : VaultView World} {vault : Vault}
  {env : Environment World TokenRequest CallResult} {world world' : World}
  {storage storage' : VaultStorage}

/-- The verifier that a vault pinned is as it was, and accepts a proof of a statement. -/
structure VerifierAccepts (view : VaultView World) (vault : Vault) (world : World)
    (statement : Hash32) (proof : List UInt8) : Prop where
  codehash : view.codehash world vault.proofVerifier = vault.proofVerifierCodehash
  programId : view.verifierProgramId world vault.proofVerifier = some vault.verifierProgramId
  configHash : view.verifierConfigHash world vault.proofVerifier = some vault.verifierConfigHash
  verified : view.verify world vault.proofVerifier statement proof = some true

/-- A view of the world before the rest of a program. -/
theorem reverts_inspect_bind {α β : Type} {observe : World → α}
    {next : α → VaultProgram World β} {error : VaultError} :
    Reverts env (vaultContract view vault) (Program.inspect observe >>= next) world storage error ↔
      Reverts env (vaultContract view vault) (next (observe world)) world storage error := Iff.rfl

/-- A state that the vault's rules allow is taken, and never refused, if the verifier accepts its
statement. -/
theorem advance_neverReverts {sender : EthAddress} {next : ElementsBridgeState}
    {proof : List UInt8} (idle : storage.reentrancyLock = 1)
    (allowed : validateNextState vault storage next = .ok ())
    (accepts : VerifierAccepts view vault world (vault.elementsStateStatement storage next).2
      proof) :
    NeverReverts view vault env (.advanceElementsState sender next proof) world storage := by
  constructor
  · have ran : ∃ storage', Returns env (vaultContract view vault)
        (advanceElementsState view vault sender next proof) world storage () world storage' := by
      simp only [advanceElementsState, returns_nonReentrant, returns_revertIf_bind,
        returns_load_bind, returns_ofExcept_bind, returns_update_bind, returns_inspect_bind,
        returns_emit, okOr_eq_ok, ne_eq, not_not, Bool.not_eq_false]
      exact ⟨_, idle, _, ⟨(), allowed, accepts.codehash, _, accepts.programId, rfl, _,
        accepts.configHash, rfl, true, accepts.verified, rfl, trivial, rfl⟩, rfl⟩
    obtain ⟨storage', ran⟩ := ran
    exact ⟨.advanced, world, storage',
      returns_bind.mpr ⟨(), world, storage', ran, returns_pure.mpr ⟨rfl, rfl, rfl⟩⟩⟩
  · intro error failed
    rcases reverts_bind.mp failed with failed | ⟨_, _, _, _, failed⟩
    · rcases reverts_nonReentrant.mp failed with ⟨busy, _⟩ | ⟨_, failed⟩
      · exact busy idle
      · rw [reverts_load_bind, reverts_ofExcept_bind] at failed
        rcases failed with wrong | ⟨_, _, failed⟩
        · exact absurd (allowed.symm.trans wrong) (by simp)
        · have verified : view.verify world vault.proofVerifier (vault.elementsStateStatement
              { storage with reentrancyLock := 2 } next).2 proof = some true := accepts.verified
          simp only [reverts_inspect_bind, reverts_revertIf_bind, reverts_ofExcept_bind,
            reverts_update_bind, accepts.codehash, accepts.programId, accepts.configHash, verified,
            okOr, ne_eq, not_true_eq_false, not_false_eq_true, reduceCtorEq, Except.ok.injEq,
            exists_eq_left', Bool.true_eq_false, false_and, true_and, false_or] at failed
          exact absurd failed (by simp [emit])
    · exact absurd failed reverts_pure

/-- A branch that verifies for the crate verifies for the vault. -/
theorem vault_verifies {proof : BurnProof} {root leaf : Hash32} {index : UInt64}
    (verified : proof.verify root leaf index = true) :
    Sha256SparseMerkle.verify root leaf index proof.siblings = true := by
  rw [BurnProof.verify_eq_true] at verified
  rw [Sha256SparseMerkle.verify, beq_iff_eq, Sha256SparseMerkle.computeRoot_eq_climb, hashNode_eq]
  exact verified

/-- The finalized state of a vault is the zero state exactly before the first chained hash. -/
theorem VaultInvariant.isZero_iff {log : List VaultEntry}
    (nonzero : ∀ message, Hashing.sha256 message ≠ .zero)
    (invariant : VaultInvariant vault log storage) :
    (toCore storage.finalizedState).IsZero ↔ storage.bridgeStateHash = .zero := by
  rw [SolidityElementsBridgeState.isZero_iff]
  constructor
  · intro blank
    have sequence : storage.finalizedState.sequence = 0 :=
      congrArg SolidityElementsBridgeState.sequence blank
    exact (invariant.accounts nonzero).active.mpr sequence
  · intro inactive
    rw [invariant.recorded.stateHash, stateHash_eq_zero nonzero] at inactive
    rw [invariant.recorded.finalized, VaultHistory.current, inactive]
    rfl

end Vault

section Withdrawals

variable {World : Type} {view : VaultView World} {vault : Vault}
  {past env : Environment World TokenRequest CallResult} {first world : World}
  {log : List VaultEntry} {storage : VaultStorage} {genesis : Hash32}
  {manifest : ProtocolManifest} {chain : List AcceptedTransition} {burns : List Burn}
  {next : SolidityElementsBridgeState}

/-- A state that follows the last state of a chain, with burns that the manifest admits appended to
those of the chain. -/
structure Continues (manifest : ProtocolManifest) (chain : List AcceptedTransition)
    (burns : List Burn) (next : SolidityElementsBridgeState) : Prop where
  admitted : ∀ burn ∈ burns, Admitted manifest burn
  follows : (stateAfter chain).Follows next
  activated : (stateAfter chain).IsZero →
    manifest.minimumActivationChainwork.toNat ≤ next.bitcoinChainwork.toNat
  count : next.burnCount.toNat = (burnsOf chain).length + burns.length
  root : next.cumulativeBurnRoot =
    rootForLeaves (leavesFor manifest.elementsGenesis (burnsOf chain ++ burns))

/-- Every accepted claim that continues a chain leads to such a state, if nothing collides. -/
theorem continues_of_accepted {transition : AcceptedTransition}
    (linked : Linked genesis (chain ++ [transition]))
    (free : CollisionFree genesis (appendsOf (chain ++ [transition]))) :
    Continues transition.manifest chain (transition.claim.appendedBurns.map BurnAppend.burn)
      transition.claim.nextState := by
  obtain ⟨output, accepted⟩ := transition.step
  have same := linked.genesis transition (by simp)
  have prior := linked.prior chain transition [] rfl
  have tree := BurnTreeInvariant.run linked free
  have burns : burnsOf (chain ++ [transition]) =
      burnsOf chain ++ transition.claim.appendedBurns.map BurnAppend.burn := by
    rw [burnsOf_append]
    simp [burnsOf, appendsOf]
  have root := tree.root
  have count := tree.count
  rw [burns, stateAfter_append] at root count
  rw [startRoot_of_canonical accepted.follows.canonical] at root
  rw [List.length_append] at count
  refine ⟨?_, ?_, ?_, count, ?_⟩
  · intro burn member
    obtain ⟨append, appended, rfl⟩ := List.mem_map.mp member
    exact accepted.appends.admitted append appended
  · rw [← prior]
    exact accepted.follows
  · intro blank
    rw [← prior] at blank
    exact accepted.activated (accepted.active.mp blank)
  · rw [same]
    exact root.symm

/-- The claim that leads from the last state of a chain, under a chained hash, to a next state. -/
def nextClaim (manifest : ProtocolManifest) (chain : List AcceptedTransition) (hash : Hash32)
    (next : SolidityElementsBridgeState) (appends : List BurnAppend) :
    ElementsStateTransitionClaim where
  manifestId := domainHash .manifest (encode manifest)
  priorBridgeStateHash := hash
  priorState := stateAfter chain
  nextState := next
  appendedBurns := appends

/-- The accumulator's appends make a claim whose step the guest takes. -/
theorem Continues.step (continues : Continues manifest chain burns next)
    (tree : BurnTreeInvariant manifest.elementsGenesis chain) (valid : manifest.Valid)
    {hash : Hash32} (active : (stateAfter chain).IsZero ↔ hash = .zero) :
    ∃ appends output,
      MadeAppends manifest.elementsGenesis ⟨leavesFor manifest.elementsGenesis (burnsOf chain)⟩
        burns appends ⟨leavesFor manifest.elementsGenesis (burnsOf chain ++ burns)⟩ ∧
      TransitionStep manifest (nextClaim manifest chain hash next appends) output ∧
      output.manifestId = (nextClaim manifest chain hash next appends).manifestId ∧
      output.claimId = (nextClaim manifest chain hash next appends).claimId := by
  have bound := next.burnCount.toNat_lt
  have count := continues.count
  obtain ⟨appends, same, made, steps⟩ :=
    @madeAppends_followed _ manifest (burnsOf chain) burns continues.admitted (by omega)
  have length : appends.length = burns.length := by
    rw [← same, List.length_map]
  have prior : stateAfter chain = .zero ∨ (stateAfter chain).Canonical := by
    by_cases empty : chain = []
    · rw [empty]
      exact Or.inl rfl
    · exact Or.inr (tree.active empty)
  rw [tree.root, ← continues.root, ← tree.count] at steps
  let claim := nextClaim manifest chain hash next appends
  let nextHash := hashBytes (nextHashPreimage hash next.contentsHash)
  let statement := hashBytes (statementPreimage manifest hash (stateAfter chain).contentsHash
    nextHash next.contentsHash)
  refine ⟨appends, ⟨claim.manifestId, claim.claimId, hash, nextHash, statement, stateAfter chain,
    next⟩, made, ?_, rfl, rfl⟩
  exact {
    manifest_valid := valid
    manifestId := rfl
    active := active
    prior := prior
    follows := continues.follows
    activated := fun inactive => continues.activated (active.mpr inactive)
    count := by
      rw [← tree.count, ← length] at count
      exact count
    appends := steps
    prior_eq := rfl
    next_eq := rfl
    priorHash_eq := rfl
    nextHash_eq := rfl
    statement_eq := rfl }

/-- A burn to another account that a vault can pay: its id is unspent, its amount is within the
liability, the reserve covers the liability, and the token pays it out. -/
structure Payable (view : VaultView World) (vault : Vault)
    (env : Environment World TokenRequest CallResult) (world : World) (storage : VaultStorage)
    (burn : Burn) : Prop where
  other : burn.ethereumDestination ≠ vault.self
  unspent : storage.spentBurnIds (burn.redemptionId vault.elementsGenesisHash) = false
  covered : burn.usdtAmountMicro.toNat ≤ storage.principalLiabilityUSDT6.toNat
  solvent : Solvent view vault world storage.principalLiabilityUSDT6.toNat
  token : PaysOut view env vault world burn.ethereumDestination (widen burn.usdtAmountMicro)

/-- A claim about burns after a chain carries them from their chain to their payout. -/
structure Withdrawable (view : VaultView World) (vault : Vault)
    (env : Environment World TokenRequest CallResult) (world : World) (storage : VaultStorage)
    (manifest : ProtocolManifest) (chain : List AcceptedTransition) (burns : List Burn)
    (claim : ElementsStateTransitionClaim) : Prop where
  /-- The claim continues the chain. -/
  linked : ∃ transition : AcceptedTransition, transition.manifest = manifest ∧
    transition.claim = claim ∧ Linked vault.elementsGenesisHash (chain ++ [transition])
  /-- The guest writes a journal of it, with the vault's own hash and statement. -/
  proved : ∀ (Proof : Type) (verifier : ElementsValidityProofVerifier Proof) (proof : Proof),
    verifier.verifyElementsStateTransition manifest claim proof = .ok () →
      ∃ (journal : StrictJournal) (output : ElementsStatePublicOutput),
        buildElementsStateJournal verifier manifest claim proof = .ok journal ∧
        journal.payload = encode output ∧
        vault.elementsStateStatement storage (ofCore claim.nextState) =
          (output.nextBridgeStateHash, output.verifierStatement)
  /-- The vault takes its next state with a proof of that statement. -/
  advanced : ∀ sender proof, VerifierAccepts view vault world
      (vault.elementsStateStatement storage (ofCore claim.nextState)).2 proof →
    NeverReverts view vault env (.advanceElementsState sender (ofCore claim.nextState) proof) world
      storage
  /-- Afterwards each burn that can be paid is paid with the accumulator's proof of it. -/
  paid : ∀ sender proof value world' storage', Returns env (vaultContract view vault)
      (vaultContract view vault (.advanceElementsState sender (ofCore claim.nextState) proof)) world
      storage value world' storage' →
    ∀ position burn, burns[position]? = some burn → Payable view vault env world' storage' burn →
      ∃ index branch, index.toNat = (burnsOf chain).length + position ∧
        BurnAccumulator.proof ⟨leavesFor vault.elementsGenesisHash (burnsOf chain ++ burns)⟩ index =
          .ok branch ∧
        ∀ submitter, NeverReverts view vault env (.redeem submitter
          (claimFor burn vault.elementsGenesisHash) index branch.siblings) world' storage'

/-- A burn that is appended to others has the leaf of its position. -/
theorem leavesFor_appended {genesis : Hash32} {before burns : List Burn} {position : Nat}
    {burn : Burn} (found : burns[position]? = some burn) :
    (leavesFor genesis (before ++ burns))[before.length + position]? =
      some (hashBurnLeaf (claimFor burn genesis) (UInt64.ofNat (before.length + position))) := by
  have stands : (before ++ burns)[before.length + position]? = some burn := by
    rw [List.getElem?_append_right (Nat.le_add_right _ _), Nat.add_sub_cancel_left]
    exact found
  rw [leavesFor, List.getElem?_mapIdx, stands, hashBurnLeaf_eq]
  rfl

/-- What an advanced vault covers can be added to what it has redeemed. -/
theorem redeemed_fits {sender : EthAddress} {next : ElementsBridgeState} {proof : List UInt8}
    {storage' : VaultStorage} {amount : UInt64} (invariant : VaultInvariant vault log storage)
    (advanced : AdvanceStep view vault sender next proof world storage storage')
    (covered : amount.toNat ≤ storage'.principalLiabilityUSDT6.toNat) :
    storage'.totalRedeemedUSDT6.toNat + amount.toNat < 2 ^ 256 := by
  have recorded := invariant.recorded
  have redeemed := recorded.redeemed
  have deposited := recorded.deposited
  have liability := recorded.liability
  have limit := storage.totalDepositedUSDT6.isLt
  rw [advanced.liability] at covered
  rw [advanced.redeemed]
  omega

/-- In a state that was advanced to one that continues a chain, each of its burns that can be paid
is redeemed with the accumulator's proof. -/
theorem Continues.paid (nonzero : ∀ message, Hashing.sha256 message ≠ .zero)
    (continues : Continues manifest chain burns next) (matching : Matches manifest vault)
    (invariant : VaultInvariant vault log storage) {sender : EthAddress} {proof : List UInt8}
    {storage' : VaultStorage}
    (advanced : AdvanceStep view vault sender (ofCore next) proof world storage storage')
    {position : Nat} {burn : Burn} (found : burns[position]? = some burn)
    (payable : Payable view vault env world storage' burn) :
    ∃ index branch, index.toNat = (burnsOf chain).length + position ∧
      BurnAccumulator.proof ⟨leavesFor vault.elementsGenesisHash (burnsOf chain ++ burns)⟩ index =
        .ok branch ∧
      ∀ submitter, NeverReverts view vault env (.redeem submitter
        (claimFor burn vault.elementsGenesisHash) index branch.siblings) world storage' := by
  have genesis := matching.genesis
  have admitted := continues.admitted burn (List.mem_of_getElem? found)
  have claim := admitted.claim
  have root := continues.root
  have count := continues.count
  rw [← genesis] at claim root
  obtain ⟨inside, _⟩ := List.getElem?_eq_some_iff.mp found
  have bound := next.burnCount.toNat_lt
  have indexed : (UInt64.ofNat ((burnsOf chain).length + position)).toNat =
      (burnsOf chain).length + position := by
    apply UInt64.toNat_ofNat_of_lt'
    change (burnsOf chain).length + position < 2 ^ 64
    omega
  obtain ⟨branch, collected, _⟩ := @BurnAccumulator.proof_eq_ok _
    ⟨leavesFor vault.elementsGenesisHash (burnsOf chain ++ burns)⟩
    (UInt64.ofNat ((burnsOf chain).length + position)) (by
      have room : (burnsOf chain).length + position < (burnsOf chain ++ burns).length := by
        rw [List.length_append]
        omega
      rw [indexed, leavesFor_length]
      exact room)
  refine ⟨_, branch, indexed, collected, fun submitter => ?_⟩
  obtain ⟨stored, verified⟩ := BurnAccumulator.proof_verifies collected
  have leaf : (leavesFor vault.elementsGenesisHash (burnsOf chain ++ burns))[
      (UInt64.ofNat ((burnsOf chain).length + position)).toNat] =
      hashBurnLeaf (claimFor burn vault.elementsGenesisHash)
        (UInt64.ofNat ((burnsOf chain).length + position)) := by
    rw [List.getElem_eq_iff, indexed]
    exact leavesFor_appended found
  have state := advanced.finalized
  have redeemable : Redeemable vault storage' (claimFor burn vault.elementsGenesisHash)
      (UInt64.ofNat ((burnsOf chain).length + position)) branch.siblings := by
    constructor
    · rw [advanced.stateHash]
      exact nonzero _
    · rfl
    · rfl
    · exact admitted.asset.trans matching.asset.symm
    · exact admitted.vaultId.trans matching.vaultId.symm
    · rw [computeBurnId_eq]
      rfl
    · exact claim.id_ne
    · exact claim.amount_ne
    · exact admitted.valid.amount_bounds.2
    · exact claim.recipient
    · exact payable.other
    · rw [state, indexed]
      change _ < next.burnCount.toNat
      omega
    · exact payable.unspent
    · exact payable.covered
    · rw [state, ← leaf]
      change Sha256SparseMerkle.verify next.cumulativeBurnRoot _ _ _ = true
      rw [root]
      exact vault_verifies verified
  exact redeem_neverReverts advanced.released redeemable payable.solvent
    (redeemed_fits invariant advanced payable.covered) payable.token

/-- From the state that a run of a vault finalized, the accumulator over the burns so far makes a
claim about any admitted burns, up to 64 and as long as they can be counted, that carries them to
their payout. -/
theorem burns_withdrawable (nonzero : ∀ message, Hashing.sha256 message ≠ .zero)
    (emptyRoot : emptyBurnNode 64 = emptyBurnRoot) (valid : manifest.Valid)
    (matching : Matches manifest vault) (linked : Linked vault.elementsGenesisHash chain)
    (free : CollisionFree vault.elementsGenesisHash (appendsOf chain))
    (run : Run past (vaultContract view vault) first .fresh log world storage)
    (state : toCore storage.finalizedState = stateAfter chain)
    (continues : Continues manifest chain burns next) :
    ∃ appends,
      MadeAppends vault.elementsGenesisHash
        ⟨leavesFor vault.elementsGenesisHash (burnsOf chain)⟩ burns appends
        ⟨leavesFor vault.elementsGenesisHash (burnsOf chain ++ burns)⟩ ∧
      Withdrawable view vault env world storage manifest chain burns
        (nextClaim manifest chain storage.bridgeStateHash next appends) := by
  have invariant : VaultInvariant vault log storage := VaultInvariant.fresh.run run
  have tree := BurnTreeInvariant.run linked free
  have active := invariant.isZero_iff nonzero
  rw [state] at active
  rw [matching.genesis] at tree linked ⊢
  obtain ⟨appends, output, made, step, manifestId, claimId⟩ := continues.step tree valid active
  have built := fun (Proof : Type) (verifier : ElementsValidityProofVerifier Proof)
    (proof : Proof) => @buildElementsStateJournal_of_step _ Proof verifier _ _ proof _ nonzero step
      manifestId claimId
  refine ⟨appends, made, ?_, ?_, ?_, ?_⟩
  · obtain ⟨journal, accepted, _⟩ := built Unit satisfiedVerifier () rfl
    rw [matching.genesis]
    exact ⟨⟨manifest, _, Unit, satisfiedVerifier, (), journal, accepted⟩, rfl, rfl,
      linked.append rfl rfl⟩
  · intro Proof verifier proof verified
    obtain ⟨journal, accepted, payload⟩ := built Proof verifier proof verified
    have statement := TransitionStep.statement step matching state.symm rfl
    exact ⟨journal, output, accepted, payload, statement⟩
  · intro sender proof accepts
    refine advance_neverReverts invariant.recorded.unlocked ?_ accepts
    rw [validateNextState_eq_ok, follows_toCore emptyRoot, toCore_ofCore, state]
    refine ⟨continues.follows, ?_⟩
    intro inactive
    rw [ofCore_work, matching.work]
    exact continues.activated (active.mpr inactive)
  · intro sender proof value world' storage' returned position burn found payable
    obtain ⟨_, rfl, advanced⟩ := returns_vaultContract returned
    exact continues.paid nonzero matching invariant advanced found payable

end Withdrawals

section Sample

/-- A burn after the sample burn. -/
def laterBurn : Burn := { sampleBurn with burnOutpoint := ⟨.ofNat 32 0xf2, 1⟩ }

/-- A state after that of the sample claim, with a root of its own. -/
def laterState (root : Hash32) : SolidityElementsBridgeState where
  sequence := 2
  burnCount := 2
  elementsTipHash := .ofNat 32 4
  elementsConsensusStateDigest := .ofNat 32 5
  cumulativeBurnRoot := root
  finalizedBitcoinBlockHash := .ofNat 32 6
  bitcoinHeight := 800001
  elementsHeight := 3000001
  bitcoinMedianTimePast := 1700000000
  bitcoinChainwork := .ofNat 32 1001

theorem laterState_follows {root : Hash32} (rooted : root ≠ .zero) :
    sampleClaim.nextState.Follows (laterState root) where
  canonical := by
    have tip : (FixedBytes.ofNat 32 4 : Hash32) ≠ Hash32.zero := by decide
    have digest : (FixedBytes.ofNat 32 5 : Hash32) ≠ Hash32.zero := by decide
    have block : (FixedBytes.ofNat 32 6 : Hash32) ≠ Hash32.zero := by decide
    have work : (FixedBytes.ofNat 32 1001 : Hash32) ≠ Hash32.zero := by decide
    have burns : (2 : UInt64) ≠ 0 := by decide
    exact ⟨tip, digest, rooted, block, work, fun none => absurd none burns⟩
  sequence := rfl
  count_le := show 1 ≤ 2 by decide
  growth_le := show 2 ≤ 1 + 64 by decide
  root := by
    have grown : (2 : UInt64) ≠ 1 := by decide
    exact fun _ same => absurd same grown
  digest := by
    have changed : (FixedBytes.ofNat 32 5 : Hash32) ≠ .ofNat 32 2 := by decide
    exact fun _ => changed
  bitcoinHeight := show 800000 < 800001 by decide
  elementsHeight := show 3000000 < 3000001 by decide
  medianTime := Nat.le_refl _
  work := by
    have before : (FixedBytes.ofNat 32 1000).toNat = 1000 := FixedBytes.toNat_ofNat (by norm_num)
    have after : (FixedBytes.ofNat 32 1001).toNat = 1001 := FixedBytes.toNat_ofNat (by norm_num)
    change (FixedBytes.ofNat 32 1000).toNat < (FixedBytes.ofNat 32 1001).toNat
    omega

omit [Hashing] in
/-- The later burn continues the chain of the sample claim. -/
theorem laterState_continues : letI := nonzeroSha256Hashing
    ∀ root, root = rootForLeaves (leavesFor sampleManifest.elementsGenesis
      (burnsOf [sampleTransition] ++ [laterBurn])) →
    Continues sampleManifest [sampleTransition] [laterBurn] (laterState root) := by
  let hashing := nonzeroSha256Hashing
  intro root same
  have rooted : root ≠ .zero := by
    rw [same, rootForLeaves_eq, nodeAt, burnAccumulatorNode, hashBytes]
    exact nonzeroSha256_ne _
  have stands : stateAfter [sampleTransition] = sampleClaim.nextState := rfl
  constructor
  · intro burn member
    rw [List.mem_singleton.mp member]
    exact ⟨Burn.validate_eq_ok.mp (by decide +kernel), rfl, rfl,
      SolidityBurnClaim.validate_eq_ok.mp (by decide +kernel)⟩
  · rw [stands]
    exact laterState_follows rooted
  · intro blank
    rw [stands] at blank
    exact absurd blank (by decide)
  · rfl
  · exact same

omit [Hashing] in
/-- A later burn is carried to its payout from the vault that finalized the sample claim. -/
theorem burns_withdrawable_sample : letI := nonzeroSha256Hashing
    let played := finalizedVault sampleClaim
    let before := leavesFor sampleVault.elementsGenesisHash (burnsOf [sampleTransition])
    let after := leavesFor sampleVault.elementsGenesisHash
      (burnsOf [sampleTransition] ++ [laterBurn])
    let next := laterState (rootForLeaves (leavesFor sampleManifest.elementsGenesis
      (burnsOf [sampleTransition] ++ [laterBurn])))
    ∃ appends, MadeAppends sampleVault.elementsGenesisHash ⟨before⟩ [laterBurn] appends ⟨after⟩ ∧
      Withdrawable (sampleView fun _ => true) sampleVault
        (exactToken sampleVault.self played.2.1) played.2.1 played.2.2 sampleManifest
        [sampleTransition] [laterBurn]
        (nextClaim sampleManifest [sampleTransition] played.2.2.bridgeStateHash next appends) := by
  let hashing := nonzeroSha256Hashing
  have finalized := @finalizedBurn_first _ sampleTransition sampleBurn emptyBurnNode_apart rfl rfl
    rfl rfl paidFor_sampleBurn
  have valid : sampleManifest.Valid := ProtocolManifest.validate_eq_ok.mp (by decide +kernel)
  have continues := laterState_continues _ rfl
  exact burns_withdrawable nonzeroSha256_ne emptyBurnNode_nonzeroSha256 valid
    (matches_vaultFor sampleManifest) finalized.linked finalized.free finalized.run finalized.state
    continues

end Sample

end Usdd.Verif

import Usdd.Foundation.IndexedFolds
import Usdd.Verif.BurnTree
import Usdd.Verif.ElementsStatement
/-!
# Every redemption pays a burn

The proof verifier of a vault is assumed to accept only statements of journals that the Elements
guest returned, and SHA-256 not to collide on the byte strings that guests, provers and the
vault hash. Then the states a vault finalizes are those of one chain of accepted claims, every
payout is for the burn that the chain appended at the payout's index, and no burn is paid twice.
-/
namespace Usdd.Verif

open Usdd.Foundation Usdd.Foundation.Reentrant Usdd.Foundation.SparseTree Usdd.Core
  Usdd.Contracts Usdd.ProofCore Usdd.Spec

variable [Hashing]

namespace AcceptedTransition

/-- The bytes of the statement that a claim's journal carries. -/
def statementPreimage (transition : AcceptedTransition) : List UInt8 :=
  ProofCore.statementPreimage transition.manifest transition.claim.priorBridgeStateHash
    transition.claim.priorState.contentsHash
    (hashBytes (nextHashPreimage transition.claim.priorBridgeStateHash
      transition.claim.nextState.contentsHash))
    transition.claim.nextState.contentsHash

/-- A statement is the one in the public output of a journal for this claim. -/
def States (transition : AcceptedTransition) (statement : Hash32) : Prop :=
  ∃ (Proof : Type) (verifier : ElementsValidityProofVerifier Proof) (proof : Proof)
    (journal : StrictJournal) (output : ElementsStatePublicOutput),
    buildElementsStateJournal verifier transition.manifest transition.claim proof = .ok journal ∧
    elementsStateOutput verifier transition.manifest transition.claim proof = .ok output ∧
    output.verifierStatement = statement

/-- The statement is the hash of its bytes. -/
theorem States.eq {transition : AcceptedTransition} {statement : Hash32}
    (states : transition.States statement) :
    statement = Hashing.sha256 transition.statementPreimage := by
  obtain ⟨_, _, _, _, output, _, accepted, rfl⟩ := states
  obtain ⟨step, _⟩ := elementsStateOutput_eq_ok accepted
  rw [step.statement_eq, step.nextHash_eq]
  rfl

end AcceptedTransition

/-- The bytes of the statement a vault with a history verifies for a next state. -/
def statementPreimageAfter (vault : Vault) (history : VaultHistory) (next : ElementsBridgeState) :
    List UInt8 :=
  vault.statementPreimage history.stateHash (hashStateContents history.current)
    (Hashing.sha256 (stateHashPreimage history.stateHash (hashStateContents next)))
    (hashStateContents next)

/-- A chain of claims from a set. -/
structure ProvenChain (vault : Vault) (proven : Set AcceptedTransition)
    (chain : List AcceptedTransition) : Prop where
  proven : ∀ transition ∈ chain, transition ∈ proven
  linked : Linked vault.elementsGenesisHash chain

/-- The byte strings hashed for the statements a guest makes, for the burn trees of its chains,
and by a vault with a log. -/
inductive Hashed (vault : Vault) (proven : Set AcceptedTransition) (log : List VaultEntry) :
    List UInt8 → Prop
  | priorContents {transition : AcceptedTransition} : transition ∈ proven →
    Hashed vault proven log transition.claim.priorState.packedContents
  | nextContents {transition : AcceptedTransition} : transition ∈ proven →
    Hashed vault proven log transition.claim.nextState.packedContents
  | statement {transition : AcceptedTransition} : transition ∈ proven →
    Hashed vault proven log transition.statementPreimage
  | node {chain : List AcceptedTransition} {pair : Hash32 × Hash32} :
    ProvenChain vault proven chain →
    pair ∈ hashedPairs vault.elementsGenesisHash (appendsOf chain) →
    Hashed vault proven log (burnNodePreimage pair.1 pair.2)
  | treeNode {chain : List AcceptedTransition} {position level : Nat} {pair : Hash32 × Hash32} :
    ProvenChain vault proven chain → position < (burnsOf chain).length → level < 64 →
    pair = treePair burnAccumulatorNode
      (burnLeaves (leavesFor vault.elementsGenesisHash (burnsOf chain))) position level →
    Hashed vault proven log (burnNodePreimage pair.1 pair.2)
  | leaf {chain : List AcceptedTransition} {position : Nat} {burn : Burn} :
    ProvenChain vault proven chain → (burnsOf chain)[position]? = some burn →
    Hashed vault proven log
      ((burn.solidityClaim vault.elementsGenesisHash).burnLeafPreimage (UInt64.ofNat position))
  | burnId {chain : List AcceptedTransition} {burn : Burn} :
    ProvenChain vault proven chain → burn ∈ burnsOf chain →
    Hashed vault proven log (burnIdPreimage vault.elementsGenesisHash burn.burnOutpoint.txid
      burn.burnOutpoint.vout)
  | finalizedContents {before after : List VaultEntry} {submitter : EthAddress}
    {next : ElementsBridgeState} {proof : List UInt8} {value : VaultResult} :
    log = before ++ (.advanceElementsState submitter next proof, .ok value) :: after →
    Hashed vault proven log (VaultHistory.ofLog before).current.packed
  | acceptedContents {before after : List VaultEntry} {submitter : EthAddress}
    {next : ElementsBridgeState} {proof : List UInt8} {value : VaultResult} :
    log = before ++ (.advanceElementsState submitter next proof, .ok value) :: after →
    Hashed vault proven log next.packed
  | verifiedStatement {before after : List VaultEntry} {submitter : EthAddress}
    {next : ElementsBridgeState} {proof : List UInt8} {value : VaultResult} :
    log = before ++ (.advanceElementsState submitter next proof, .ok value) :: after →
    Hashed vault proven log (statementPreimageAfter vault (VaultHistory.ofLog before) next)
  | redeemedLeaf {submitter : EthAddress} {claim : BurnClaim} {burnIndex : UInt64}
    {merkleBranch : Vector Hash32 64} {value : VaultResult} :
    (.redeem submitter claim burnIndex merkleBranch, .ok value) ∈ log →
    Hashed vault proven log ((toCoreClaim claim).burnLeafPreimage burnIndex)
  | redeemedId {submitter : EthAddress} {claim : BurnClaim} {burnIndex : UInt64}
    {merkleBranch : Vector Hash32 64} {value : VaultResult} :
    (.redeem submitter claim burnIndex merkleBranch, .ok value) ∈ log →
    Hashed vault proven log
      (burnIdPreimage vault.elementsGenesisHash claim.burnTxid claim.burnVout)
  | redeemedNode {submitter : EthAddress} {claim : BurnClaim} {burnIndex : UInt64}
    {merkleBranch : Vector Hash32 64} {value : VaultResult} {level : Nat}
    {pair : Hash32 × Hash32} :
    (.redeem submitter claim burnIndex merkleBranch, .ok value) ∈ log → level < 64 →
    pair = climbPair burnAccumulatorNode (hashBurnLeaf claim burnIndex) burnIndex.toNat
      (fun level => merkleBranch[level]?.getD .zero) level →
    Hashed vault proven log (burnNodePreimage pair.1 pair.2)

/-- SHA-256 does not collide on what is hashed. -/
def NoCollision (vault : Vault) (proven : Set AcceptedTransition) (log : List VaultEntry) : Prop :=
  Set.InjOn Hashing.sha256 { bytes | Hashed vault proven log bytes }

/-- A claim pays exactly a burn. -/
structure PaysFor (burn : Burn) (claim : BurnClaim) : Prop where
  vaultId : burn.vaultId = claim.vaultId
  asset : burn.usddAsset = claim.usddAssetId
  outpoint : burn.burnOutpoint = ⟨claim.burnTxid, claim.burnVout⟩
  amount : burn.usdtAmountMicro = claim.amountUSDT6
  destination : burn.ethereumDestination = claim.recipient

section Laws

variable {World : Type} {view : VaultView World} {vault : Vault}
  {env : Environment World TokenRequest CallResult} {world world' : World}
  {storage storage' : VaultStorage} {log : List VaultEntry} {proven : Set AcceptedTransition}
  {chain : List AcceptedTransition}

/-- A longer log hashes more. -/
theorem Hashed.append {bytes : List UInt8} (later : List VaultEntry)
    (hashed : Hashed vault proven log bytes) : Hashed vault proven (log ++ later) bytes := by
  cases hashed with
  | priorContents present => exact .priorContents present
  | nextContents present => exact .nextContents present
  | statement present => exact .statement present
  | node proven present => exact .node proven present
  | treeNode proven inside small same => exact .treeNode proven inside small same
  | leaf proven found => exact .leaf proven found
  | burnId proven present => exact .burnId proven present
  | finalizedContents cut =>
    exact .finalizedContents (by rw [cut, List.append_assoc, List.cons_append])
  | acceptedContents cut =>
    exact .acceptedContents (by rw [cut, List.append_assoc, List.cons_append])
  | verifiedStatement cut =>
    exact .verifiedStatement (by rw [cut, List.append_assoc, List.cons_append])
  | redeemedLeaf present => exact .redeemedLeaf (List.mem_append_left _ present)
  | redeemedId present => exact .redeemedId (List.mem_append_left _ present)
  | redeemedNode present small same =>
    exact .redeemedNode (List.mem_append_left _ present) small same

theorem NoCollision.prefix {later : List VaultEntry}
    (free : NoCollision vault proven (log ++ later)) : NoCollision vault proven log :=
  Set.InjOn.mono (fun _ hashed => hashed.append later) free

/-- Where nothing hashed collides, the node function does not collide on hashed pairs. -/
theorem NoCollision.nodes (free : NoCollision vault proven log) :
    Set.InjOn (fun pair : Hash32 × Hash32 => burnAccumulatorNode pair.1 pair.2)
      { pair | Hashed vault proven log (burnNodePreimage pair.1 pair.2) } := by
  intro left leftHashed right rightHashed same
  have bytes := free leftHashed rightHashed same
  obtain ⟨first, second⟩ := burnNodePreimage_inj bytes
  exact Prod.ext first second

theorem NoCollision.appends (free : NoCollision vault proven log)
    (chained : ProvenChain vault proven chain) :
    CollisionFree vault.elementsGenesisHash (appendsOf chain) :=
  Set.InjOn.mono (fun _ present => Hashed.node chained present) free.nodes

/-- The binding of a redemption: the redeemed leaf is that of the burn at its index. -/
theorem redeemable_binds {claim : BurnClaim} {burnIndex : UInt64}
    {merkleBranch : Vector Hash32 64} {submitter : EthAddress} {value : VaultResult}
    (free : NoCollision vault proven log) (chained : ProvenChain vault proven chain)
    (called : (.redeem submitter claim burnIndex merkleBranch, .ok value) ∈ log)
    (state : stateAfter chain = toCore storage.finalizedState)
    (redeemable : Redeemable vault storage claim burnIndex merkleBranch) :
    ∃ burn, (burnsOf chain)[burnIndex.toNat]? = some burn ∧ PaysFor burn claim := by
  have tree := BurnTreeInvariant.run chained.linked (free.appends chained)
  have count : storage.finalizedState.burnCount.toNat = (burnsOf chain).length := by
    rw [← tree.count, state]
    rfl
  have inside : burnIndex.toNat < (burnsOf chain).length := count ▸ redeemable.finalized
  have nonempty : chain ≠ [] := by
    rintro rfl
    exact absurd inside (Nat.not_lt_zero _)
  have root : storage.finalizedState.cumulativeBurnRoot =
      nodeAt burnAccumulatorNode
        (burnLeaves (leavesFor vault.elementsGenesisHash (burnsOf chain))) 64 0 := by
    have canonical := tree.active nonempty
    have start := tree.root
    rw [startRoot_of_canonical canonical, state, rootForLeaves_eq] at start
    exact start.symm
  have proof := redeemable.proven
  rw [Sha256SparseMerkle.verify, beq_iff_eq, Sha256SparseMerkle.computeRoot_eq_climb, hashNode_eq,
    root, ← Nat.div_eq_of_lt burnIndex.toNat_lt] at proof
  obtain ⟨bound, _⟩ := climb_binding burnAccumulatorNode free.nodes
    (fun level small => Hashed.redeemedNode called small rfl)
    (fun level small => Hashed.treeNode chained inside small rfl) proof
  have found : (burnsOf chain)[burnIndex.toNat]? = some (burnsOf chain)[burnIndex.toNat] :=
    List.getElem?_eq_getElem inside
  generalize (burnsOf chain)[burnIndex.toNat] = burn at found
  have leaf : burnLeaves (leavesFor vault.elementsGenesisHash (burnsOf chain)) burnIndex.toNat =
      burn.leafAt vault.elementsGenesisHash burnIndex.toNat := by
    simp [burnLeaves, leavesOf, leavesFor, found]
  rw [leaf, hashBurnLeaf_eq] at bound
  have bytes := free (Hashed.redeemedLeaf called) (Hashed.leaf chained found) bound
  obtain ⟨asset, vaultId, burnId, amount, recipient⟩ := burnLeafPreimage_inj bytes
  have identified : hashBytes (burnIdPreimage vault.elementsGenesisHash claim.burnTxid
      claim.burnVout) = burn.redemptionId vault.elementsGenesisHash := by
    rw [← computeBurnId_eq, ← redeemable.burnId]
    exact burnId
  obtain ⟨_, txid, vout⟩ := burnIdPreimage_inj (free (Hashed.redeemedId called)
    (Hashed.burnId chained (List.mem_of_getElem? found)) identified)
  refine ⟨burn, found, vaultId.symm, asset.symm, ?_, amount.symm, recipient.symm⟩
  rw [txid, vout]

/-- The binding of a state advance: the claim whose statement was verified is about the state
the vault held and the state it accepted. -/
theorem advance_binds {before after : List VaultEntry} {submitter : EthAddress}
    {next : ElementsBridgeState} {proof : List UInt8} {value : VaultResult}
    {transition : AcceptedTransition}
    (free : NoCollision vault proven
      (before ++ (.advanceElementsState submitter next proof, .ok value) :: after))
    (matching : Matches transition.manifest vault) (present : transition ∈ proven)
    (states : transition.States
      (Hashing.sha256 (statementPreimageAfter vault (VaultHistory.ofLog before) next))) :
    transition.claim.priorState = toCore (VaultHistory.ofLog before).current ∧
      transition.claim.nextState = toCore next := by
  have same := free (Hashed.verifiedStatement rfl) (Hashed.statement present) states.eq
  rw [statementPreimageAfter, statementPreimage_eq matching] at same
  obtain ⟨_, current, _, contents⟩ := statementPreimage_inj same
  have prior := free (Hashed.finalizedContents rfl) (Hashed.priorContents present) current
  have later := free (Hashed.acceptedContents rfl) (Hashed.nextContents present) contents
  exact ⟨(SolidityElementsBridgeState.packedContents_inj ((packed_toCore _).symm.trans prior)).symm,
    (SolidityElementsBridgeState.packedContents_inj ((packed_toCore _).symm.trans later)).symm⟩

/-- The chain of accepted claims behind a history, and the burns it paid. -/
structure Backed (vault : Vault) (proven : Set AcceptedTransition) (history : VaultHistory)
    (chain : List AcceptedTransition) : Prop where
  chained : ProvenChain vault proven chain
  matching : ∀ transition ∈ chain, Matches transition.manifest vault
  states : chain.map (fun transition => transition.claim.nextState) = history.states.map toCore
  paid : ∀ payout ∈ history.payouts, ∃ burn,
    (burnsOf chain)[payout.burnIndex.toNat]? = some burn ∧ PaysFor burn payout.claim

/-- The state behind a backed history. -/
theorem Backed.state {history : VaultHistory} (backed : Backed vault proven history chain) :
    stateAfter chain = toCore history.current := by
  have last := congrArg List.getLast? backed.states
  rw [List.getLast?_map, List.getLast?_map] at last
  rw [stateAfter, last, VaultHistory.current]
  cases history.states.getLast? <;> rfl

theorem Backed.empty : Backed vault proven ⟨[], [], []⟩ [] where
  chained := {
    proven := by simp
    linked := .empty }
  matching := by simp
  states := rfl
  paid := by simp

/-- A verified state advance extends the chain. -/
theorem Backed.advance {history : VaultHistory} {next : ElementsBridgeState}
    {transition : AcceptedTransition} (backed : Backed vault proven history chain)
    (matching : Matches transition.manifest vault) (present : transition ∈ proven)
    (prior : transition.claim.priorState = toCore history.current)
    (later : transition.claim.nextState = toCore next) :
    Backed vault proven { history with states := history.states ++ [next] }
      (chain ++ [transition]) := by
  refine ⟨⟨?_, ?_⟩, ?_, ?_, ?_⟩
  · intro link member
    rcases List.mem_append.mp member with old | new
    · exact backed.chained.proven link old
    · rw [List.mem_singleton.mp new]
      exact present
  · exact backed.chained.linked.append matching.genesis.symm (prior.trans backed.state.symm)
  · intro link member
    rcases List.mem_append.mp member with old | new
    · exact backed.matching link old
    · rw [List.mem_singleton.mp new]
      exact matching
  · simp [backed.states, later]
  · intro payout member
    obtain ⟨burn, found, pays⟩ := backed.paid payout member
    refine ⟨burn, ?_, pays⟩
    rw [burnsOf_append, List.getElem?_append_left (List.getElem?_eq_some_iff.mp found).1, found]

/-- A redemption of a burn of the chain is backed. -/
theorem Backed.redeem {history : VaultHistory} {claim : BurnClaim} {burnIndex : UInt64}
    {burn : Burn} (backed : Backed vault proven history chain)
    (found : (burnsOf chain)[burnIndex.toNat]? = some burn) (pays : PaysFor burn claim) :
    Backed vault proven { history with payouts := history.payouts ++ [⟨claim, burnIndex⟩] }
      chain := by
  refine ⟨backed.chained, backed.matching, backed.states, ?_⟩
  intro payout member
  rcases List.mem_append.mp member with old | new
  · exact backed.paid payout old
  · rw [List.mem_singleton.mp new]
    exact ⟨burn, found, pays⟩

/-- What the proof verifier is trusted with: an accepted statement is one that a journal of the
guest carries, for a manifest that matches the vault. -/
def VerifierSound (view : VaultView World) (vault : Vault) (proven : Set AcceptedTransition) :
    Prop :=
  ∀ world statement proof, view.verify world vault.proofVerifier statement proof = some true →
    ∃ transition ∈ proven, Matches transition.manifest vault ∧ transition.States statement

/-- The step law: a returned call keeps the history backed. -/
theorem Backed.step {call : VaultCall} {value : VaultResult}
    (sound : VerifierSound view vault proven) (invariant : VaultInvariant vault log storage)
    (backed : Backed vault proven (VaultHistory.ofLog log) chain)
    (free : NoCollision vault proven (log ++ [(call, .ok value)]))
    (returned : Returns env (vaultContract view vault) (vaultContract view vault call) world
      storage value world' storage') :
    ∃ chain, Backed vault proven (VaultHistory.ofLog (log ++ [(call, .ok value)])) chain := by
  have law := returns_vaultContract returned
  have recorded := invariant.recorded
  cases call with
  | deposit depositor amountUSDT6 elementsScript userSalt =>
    obtain ⟨nonce, depositId, rfl, _⟩ := law
    rw [VaultHistory.ofLog_deposit]
    exact ⟨chain, backed.chained, backed.matching, backed.states, backed.paid⟩
  | advanceElementsState submitter next proof =>
    obtain ⟨rfl, _, step⟩ := law
    have verified := step.verified
    rw [Vault.elementsStateStatement, recorded.finalized, recorded.stateHash] at verified
    obtain ⟨transition, present, matching, states⟩ := sound _ _ _ verified
    obtain ⟨prior, later⟩ := advance_binds free matching present states
    rw [VaultHistory.ofLog_advance]
    exact ⟨_, backed.advance matching present prior later⟩
  | redeem submitter claim burnIndex merkleBranch =>
    obtain ⟨rfl, step⟩ := law
    have state := backed.state
    rw [← recorded.finalized] at state
    obtain ⟨burn, found, pays⟩ := redeemable_binds free backed.chained
      (List.mem_append_right _ (List.mem_singleton_self _)) state step.redeemable
    rw [VaultHistory.ofLog_redeem]
    exact ⟨chain, backed.redeem found pays⟩

/-- The run law: the history of every run of a fresh vault is backed. -/
theorem Backed.run {first last : World} (sound : VerifierSound view vault proven)
    (run : Run env (vaultContract view vault) first .fresh log last storage)
    (free : NoCollision vault proven log) :
    ∃ chain, Backed vault proven (VaultHistory.ofLog log) chain := by
  have both : VaultInvariant vault log storage ∧ (NoCollision vault proven log →
      ∃ chain, Backed vault proven (VaultHistory.ofLog log) chain) := by
    refine run.invariant (I := fun log storage => VaultInvariant vault log storage ∧
      (NoCollision vault proven log →
        ∃ chain, Backed vault proven (VaultHistory.ofLog log) chain)) ?_ ?_ ?_
    · rintro log call world storage value world' storage' ⟨invariant, backed⟩ returned
      refine ⟨invariant.step returned, fun free => ?_⟩
      obtain ⟨chain, backed⟩ := backed free.prefix
      exact backed.step sound invariant free returned
    · rintro log call storage error ⟨invariant, backed⟩
      refine ⟨⟨?_, ?_⟩, fun free => ?_⟩
      · rw [VaultHistory.ofLog_failed]
        exact invariant.sound
      · rw [VaultHistory.ofLog_failed]
        exact invariant.recorded
      · rw [VaultHistory.ofLog_failed]
        exact backed free.prefix
    · exact ⟨.fresh, fun _ => ⟨[], .empty⟩⟩
  exact both.2 free

end Laws

section Sample

end Sample

end Usdd.Verif

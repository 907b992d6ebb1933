import Usdd.ProofCore.GuestLaws
/-!
# The burn tree behind the Elements guest

A chain of accepted claims appends burns one after the other. The guest folds branches that the
prover supplies and never holds the tree; where the node function does not collide on the pairs
that were hashed, each branch is the one of the tree over all earlier burns, and the root each
claim ends with is the root of the accumulator over all burns so far.
-/
namespace Usdd.Verif

open Usdd.Foundation Usdd.Foundation.SparseTree Usdd.Core Usdd.ProofCore

variable [Hashing]

/-- A claim that `build_elements_state_journal` accepted. -/
structure AcceptedTransition where
  manifest : ProtocolManifest
  claim : ElementsStateTransitionClaim
  accepted : ∃ (Proof : Type) (verifier : ElementsValidityProofVerifier Proof) (proof : Proof)
    (journal : StrictJournal), buildElementsStateJournal verifier manifest claim proof = .ok journal

/-- What was established when a claim was accepted. -/
theorem AcceptedTransition.step (transition : AcceptedTransition) :
    ∃ output, TransitionStep transition.manifest transition.claim output := by
  obtain ⟨_, _, _, _, built⟩ := transition.accepted
  obtain ⟨output, accepted, _⟩ := buildElementsStateJournal_eq_ok built
  exact ⟨output, (elementsStateOutput_eq_ok accepted).1⟩

/-- The state that a chain of claims ends with. -/
def stateAfter (chain : List AcceptedTransition) : SolidityElementsBridgeState :=
  (chain.getLast?.map fun transition => transition.claim.nextState).getD .zero

/-- The appends of all claims of a chain. -/
def appendsOf (chain : List AcceptedTransition) : List BurnAppend :=
  chain.flatMap fun transition => transition.claim.appendedBurns

/-- The burns appended by all claims of a chain. -/
def burnsOf (chain : List AcceptedTransition) : List Burn := (appendsOf chain).map BurnAppend.burn

/-- Each claim of a chain starts from the state the one before ended with, the first from the
zero state; all are about one Elements chain. -/
structure Linked (genesis : Hash32) (chain : List AcceptedTransition) : Prop where
  genesis : ∀ transition ∈ chain, transition.manifest.elementsGenesis = genesis
  prior : ∀ before transition after, chain = before ++ transition :: after →
    transition.claim.priorState = stateAfter before

/-- The leaves of burns that were appended in order. -/
def leavesFor (genesis : Hash32) (burns : List Burn) : List Hash32 :=
  burns.mapIdx fun position burn => burn.leafAt genesis position

/-- The pairs of nodes hashed when a branch of an append is folded from the empty leaf, and
those above the same position in the tree over the earlier burns. -/
def hashedPairs (genesis : Hash32) (appends : List BurnAppend) : Set (Hash32 × Hash32) :=
  { pair | ∃ before append after, appends = before ++ append :: after ∧ ∃ level < 64,
    pair = climbPair burnAccumulatorNode (emptyBurnNode 0) before.length
      append.emptyBranch.sibling level ∨
    pair = treePair burnAccumulatorNode
      (burnLeaves (leavesFor genesis (before.map BurnAppend.burn))) before.length level }

/-- The node function does not collide on the pairs that a list of appends hashes. -/
def CollisionFree (genesis : Hash32) (appends : List BurnAppend) : Prop :=
  Set.InjOn (fun pair : Hash32 × Hash32 => burnAccumulatorNode pair.1 pair.2)
    (hashedPairs genesis appends)

section Lists

omit [Hashing] in
/-- A list of one element has one cut. -/
theorem cut_singleton {α : Type*} {only item : α} {before after : List α}
    (cut : [only] = before ++ item :: after) : before = [] ∧ only = item ∧ after = [] := by
  cases before with
  | nil =>
    obtain ⟨same, rest⟩ := List.cons.inj cut
    exact ⟨rfl, same, rest.symm⟩
  | cons head tail => simp at cut

omit [Hashing] in
/-- A cut of a list with one more element is at that element or a cut of the list. -/
theorem cut_concat {α : Type*} {items before after : List α} {last item : α}
    (cut : items ++ [last] = before ++ item :: after) :
    (before = items ∧ item = last ∧ after = []) ∨
      ∃ shorter, items = before ++ item :: shorter := by
  rcases List.eq_nil_or_concat after with rfl | ⟨shorter, final, rfl⟩
  · obtain ⟨same, only⟩ := List.append_inj' cut rfl
    exact Or.inl ⟨same.symm, (List.head_eq_of_cons_eq only).symm, rfl⟩
  · have longer : items ++ [last] = (before ++ item :: shorter) ++ [final] := by
      simpa using cut
    exact Or.inr ⟨shorter, (List.append_inj' longer rfl).1⟩

@[simp]
theorem leavesFor_length (genesis : Hash32) (burns : List Burn) :
    (leavesFor genesis burns).length = burns.length := by
  simp [leavesFor]

theorem leavesFor_append (genesis : Hash32) (burns : List Burn) (burn : Burn) :
    leavesFor genesis (burns ++ [burn]) =
      leavesFor genesis burns ++ [burn.leafAt genesis burns.length] := by
  simp [leavesFor]

/-- Burns appended later keep the leaves appended earlier. -/
theorem leavesFor_prefix (genesis : Hash32) (before after : List Burn) :
    leavesFor genesis before <+: leavesFor genesis (before ++ after) := by
  rw [leavesFor, leavesFor, List.mapIdx_append]
  exact List.prefix_append _ _

@[simp]
theorem appendsOf_append (before after : List AcceptedTransition) :
    appendsOf (before ++ after) = appendsOf before ++ appendsOf after :=
  List.flatMap_append

@[simp]
theorem burnsOf_append (before after : List AcceptedTransition) :
    burnsOf (before ++ after) = burnsOf before ++ burnsOf after := by
  rw [burnsOf, appendsOf_append, List.map_append, burnsOf, burnsOf]

@[simp]
theorem stateAfter_append (chain : List AcceptedTransition) (transition : AcceptedTransition) :
    stateAfter (chain ++ [transition]) = transition.claim.nextState := by
  simp [stateAfter]

variable {genesis : Hash32}

/-- A prefix of a chain is a chain. -/
theorem Linked.prefix {before after : List AcceptedTransition}
    (linked : Linked genesis (before ++ after)) : Linked genesis before where
  genesis transition present := linked.genesis transition (List.mem_append_left _ present)
  prior early transition late cut := linked.prior early transition (late ++ after) (by simp [cut])

/-- No claims are a chain. -/
theorem Linked.empty : Linked genesis [] where
  genesis transition member := absurd member List.not_mem_nil
  prior before transition after cut := by simp at cut

/-- A claim that starts where a chain ended continues it. -/
theorem Linked.append {chain : List AcceptedTransition} {transition : AcceptedTransition}
    (linked : Linked genesis chain) (same : transition.manifest.elementsGenesis = genesis)
    (prior : transition.claim.priorState = stateAfter chain) :
    Linked genesis (chain ++ [transition]) where
  genesis link member := by
    rcases List.mem_append.mp member with old | new
    · exact linked.genesis link old
    · rw [List.mem_singleton.mp new]
      exact same
  prior before link after cut := by
    rcases cut_concat cut with ⟨rfl, rfl, _⟩ | ⟨shorter, earlier⟩
    · exact prior
    · exact linked.prior before link shorter earlier

/-- Fewer appends hash fewer pairs. -/
theorem CollisionFree.prefix {before after : List BurnAppend}
    (free : CollisionFree genesis (before ++ after)) : CollisionFree genesis before := by
  refine Set.InjOn.mono ?_ free
  rintro pair ⟨early, append, late, cut, hashed⟩
  exact ⟨early, append, late ++ after, by simp [cut], hashed⟩

end Lists

section Runs

variable {genesis : Hash32} {manifest : ProtocolManifest}

/-- Every branch of a list of appends is the branch of the tree over the earlier burns. -/
def TrueBranches (genesis : Hash32) (appends : List BurnAppend) : Prop :=
  ∀ before append after, appends = before ++ append :: after → ∀ level < 64,
    append.emptyBranch.sibling level = branchOf burnAccumulatorNode
      (burnLeaves (leavesFor genesis (before.map BurnAppend.burn))) before.length level

/-- The step law: an append that opens the next position under the root over the earlier burns
carries the true branch, and leads to the root over one more burn. -/
theorem appendStep_extends {before after : List BurnAppend} {append : BurnAppend} {root : Hash32}
    (free : CollisionFree genesis (before ++ append :: after))
    (holds : rootForLeaves (leavesFor genesis (before.map BurnAppend.burn)) = root)
    (step : AppendStep manifest root before.length append) :
    (∀ level < 64, append.emptyBranch.sibling level = branchOf burnAccumulatorNode
      (burnLeaves (leavesFor genesis (before.map BurnAppend.burn))) before.length level) ∧
    append.rootAfter genesis before.length =
      rootForLeaves (leavesFor genesis ((before ++ [append]).map BurnAppend.burn)) := by
  have length : (leavesFor genesis (before.map BurnAppend.burn)).length = before.length := by simp
  have opens := step.opens
  rw [← holds, rootForLeaves_eq, burnLeaves] at opens
  rw [← length] at opens ⊢
  obtain ⟨siblings, reached⟩ := climb_append burnAccumulatorNode free
    (append.burn.leafAt genesis before.length) (by rw [length]; exact step.fits)
    (fun level small => ⟨before, append, after, rfl, level, small, Or.inl (by rw [length])⟩)
    (fun level small => ⟨before, append, after, rfl, level, small, Or.inr (by rw [length]; rfl)⟩)
    opens
  refine ⟨siblings, ?_⟩
  rw [List.map_append, List.map_singleton, leavesFor_append, rootForLeaves_eq, burnLeaves,
    List.length_map, BurnAppend.rootAfter, length]
  rw [length] at reached
  exact reached

/-- The run law for the appends of one claim. -/
theorem appends_extend {before appends : List BurnAppend} {root last : Hash32}
    (same : manifest.elementsGenesis = genesis)
    (free : CollisionFree genesis (before ++ appends)) (known : TrueBranches genesis before)
    (holds : rootForLeaves (leavesFor genesis (before.map BurnAppend.burn)) = root)
    (steps : Appends manifest before.length root appends last) :
    TrueBranches genesis (before ++ appends) ∧
      rootForLeaves (leavesFor genesis ((before ++ appends).map BurnAppend.burn)) = last := by
  induction appends generalizing before root with
  | nil =>
    cases steps
    simpa using ⟨known, holds⟩
  | cons append rest ih =>
    cases steps with
    | step step later =>
      subst same
      obtain ⟨siblings, reached⟩ := appendStep_extends free holds step
      have split : before ++ append :: rest = (before ++ [append]) ++ rest := by simp
      rw [split] at free ⊢
      refine ih free ?_ reached.symm ?_
      · intro early found late cut level small
        rcases cut_concat cut with ⟨rfl, rfl, _⟩ | ⟨shorter, earlier⟩
        · exact siblings level small
        · exact known early found shorter earlier level small
      · rw [List.length_append, List.length_singleton]
        exact later

/-- What a chain of claims satisfies after its last claim. -/
structure BurnTreeInvariant (genesis : Hash32) (chain : List AcceptedTransition) : Prop where
  count : (stateAfter chain).burnCount.toNat = (burnsOf chain).length
  root : rootForLeaves (leavesFor genesis (burnsOf chain)) = startRoot (stateAfter chain)
  active : chain ≠ [] → (stateAfter chain).Canonical
  branches : TrueBranches genesis (appendsOf chain)
  claims : ∀ burn ∈ burnsOf chain, (burn.solidityClaim genesis).Valid

/-- The empty chain ends with the zero state. -/
theorem BurnTreeInvariant.empty : BurnTreeInvariant genesis [] where
  count := rfl
  root := rfl
  active nonempty := absurd rfl nonempty
  branches before append after cut := by simp [appendsOf] at cut
  claims := by simp [burnsOf, appendsOf]

/-- A claim that continues a chain keeps the invariant. -/
theorem BurnTreeInvariant.step {chain : List AcceptedTransition} {transition : AcceptedTransition}
    (invariant : BurnTreeInvariant genesis chain) (linked : Linked genesis (chain ++ [transition]))
    (free : CollisionFree genesis (appendsOf (chain ++ [transition]))) :
    BurnTreeInvariant genesis (chain ++ [transition]) := by
  obtain ⟨output, accepted⟩ := transition.step
  have same := linked.genesis transition (by simp)
  have prior := linked.prior chain transition [] rfl
  have single : appendsOf [transition] = transition.claim.appendedBurns := by simp [appendsOf]
  have length : (appendsOf chain).length = (burnsOf chain).length := by simp [burnsOf]
  have steps := accepted.appends
  rw [prior, invariant.count, ← length] at steps
  have grown := accepted.count
  rw [prior, invariant.count] at grown
  have canonical := accepted.follows.canonical
  rw [appendsOf_append, single] at free
  obtain ⟨branches, root⟩ := appends_extend same free invariant.branches invariant.root steps
  refine ⟨?_, ?_, fun _ => ?_, ?_, ?_⟩
  · rw [stateAfter_append, burnsOf_append, List.length_append, grown, burnsOf, burnsOf, single,
      List.length_map, List.length_map]
  · rw [stateAfter_append, startRoot_of_canonical canonical, ← root, burnsOf, appendsOf_append,
      single]
  · rw [stateAfter_append]
    exact canonical
  · rw [appendsOf_append, single]
    exact branches
  · intro burn present
    rw [burnsOf_append, List.mem_append] at present
    rcases present with old | new
    · exact invariant.claims burn old
    · rw [burnsOf, single, List.mem_map] at new
      obtain ⟨append, appended, rfl⟩ := new
      rw [← same]
      exact (steps.admitted append appended).claim

/-- The run law: the invariant holds after every claim of a chain. -/
theorem BurnTreeInvariant.run {chain : List AcceptedTransition} (linked : Linked genesis chain)
    (free : CollisionFree genesis (appendsOf chain)) : BurnTreeInvariant genesis chain := by
  induction chain using List.reverseRecOn with
  | nil => exact .empty
  | append_singleton chain transition ih =>
    have earlier := free
    rw [appendsOf_append] at earlier
    exact (ih linked.prefix earlier.prefix).step linked free

/-- After a first claim the accumulator over the appended leaves has the root of the state, and its
proof of each leaf verifies against that root. -/
theorem BurnTreeInvariant.accumulated {chain : List AcceptedTransition}
    (invariant : BurnTreeInvariant genesis chain) (nonempty : chain ≠ []) :
    ∃ accumulator,
      BurnAccumulator.fromLeaves (leavesFor genesis (burnsOf chain)) = .ok accumulator ∧
      accumulator.root = (stateAfter chain).cumulativeBurnRoot ∧
      ∀ (index : UInt64) (leaf : Hash32),
        (leavesFor genesis (burnsOf chain))[index.toNat]? = some leaf →
        ∃ proof, accumulator.proof index = .ok proof ∧
          proof.verify (stateAfter chain).cumulativeBurnRoot leaf index = true := by
  have fits : ¬2 ^ 64 ≤ (leavesFor genesis (burnsOf chain)).length := by
    rw [leavesFor_length, ← invariant.count]
    exact Nat.not_le.mpr (stateAfter chain).burnCount.toNat_lt
  have root : rootForLeaves (leavesFor genesis (burnsOf chain)) =
      (stateAfter chain).cumulativeBurnRoot :=
    invariant.root.trans (startRoot_of_canonical (invariant.active nonempty))
  refine ⟨⟨leavesFor genesis (burnsOf chain)⟩, ?_, root, ?_⟩
  · simp only [BurnAccumulator.fromLeaves, rejectIf, fits, ↓reduceIte]
    rfl
  · intro index leaf found
    obtain ⟨inside, rfl⟩ := List.getElem?_eq_some_iff.mp found
    obtain ⟨proof, collected, _⟩ := BurnAccumulator.proof_eq_ok
      (show index.toNat < (BurnAccumulator.mk (leavesFor genesis (burnsOf chain))).leaves.length
        from inside)
    obtain ⟨_, verified⟩ := BurnAccumulator.proof_verifies collected
    refine ⟨proof, collected, ?_⟩
    rw [← root]
    exact verified

/-- What the guest's appends have in common with the plain accumulator, after the claims
`before` of a chain that goes on with `after`. -/
structure GuestTree (genesis : Hash32) (before after : List AcceptedTransition) : Prop where
  leaf : ∀ (position : Nat) (burn : Burn), (burnsOf before)[position]? = some burn →
    ∃ leaf, (burn.solidityClaim genesis).burnLeaf (UInt64.ofNat position) = .ok leaf ∧
      (leavesFor genesis (burnsOf before))[position]? = some leaf
  count : (stateAfter before).burnCount.toNat = (leavesFor genesis (burnsOf before)).length
  root : ∃ accumulator,
    BurnAccumulator.fromLeaves (leavesFor genesis (burnsOf before)) = .ok accumulator ∧
    accumulator.root = (stateAfter before).cumulativeBurnRoot ∧
    ∀ (index : UInt64) (leaf : Hash32),
      (leavesFor genesis (burnsOf before))[index.toNat]? = some leaf →
      ∃ proof, accumulator.proof index = .ok proof ∧
        proof.verify (stateAfter before).cumulativeBurnRoot leaf index = true
  branches : TrueBranches genesis (appendsOf before)
  kept : leavesFor genesis (burnsOf before) <+: leavesFor genesis (burnsOf (before ++ after))

/-- After every claim of a chain, the burn count and root are those of the accumulator over the
leaves of all appended burns; each branch the prover supplied is the true one, earlier leaves
stay in place, and the accumulator's proof of each leaf verifies against the root. -/
theorem guest_appends_refine {before after : List AcceptedTransition} (nonempty : before ≠ [])
    (linked : Linked genesis (before ++ after))
    (free : CollisionFree genesis (appendsOf (before ++ after))) :
    GuestTree genesis before after := by
  rw [appendsOf_append] at free
  have invariant := BurnTreeInvariant.run linked.prefix free.prefix
  refine ⟨?_, ?_, invariant.accumulated nonempty, invariant.branches, ?_⟩
  · intro position burn found
    refine ⟨_, SolidityBurnClaim.burnLeaf_eq_ok.mpr
      ⟨invariant.claims burn (List.mem_of_getElem? found), rfl⟩, ?_⟩
    simp [leavesFor, found, Burn.leafAt]
  · rw [leavesFor_length, invariant.count]
  · rw [burnsOf_append]
    exact leavesFor_prefix genesis _ _

end Runs

section Sample

/-- A burn of five micro-USDT. -/
def sampleBurn : Burn where
  vaultId := sampleManifest.vaultId
  usddAsset := sampleManifest.usddAsset
  usddAmountBase := 500
  usdtAmountMicro := 5
  burnOutpoint := ⟨.ofNat 32 0xf1, 0⟩
  ethereumDestination := .ofNat 20 0xc2

/-- The empty nodes from a node up. -/
def emptyNodesFrom : Nat → Hash32 → List Hash32
  | 0, _ => []
  | height + 1, node => node :: emptyNodesFrom height (burnAccumulatorNode node node)

theorem emptyNodesFrom_length (height : Nat) (node : Hash32) :
    (emptyNodesFrom height node).length = height := by
  induction height generalizing node with
  | zero => rfl
  | succ height ih => rw [emptyNodesFrom, List.length_cons, ih]

/-- The branch of the first position of an empty tree. -/
def emptyBranch : BurnProof :=
  ⟨⟨(emptyNodesFrom 64 (emptyBurnNode 0)).toArray, by simp [emptyNodesFrom_length]⟩⟩

/-- A claim that appends the burn to an empty tree. -/
def sampleClaim : ElementsStateTransitionClaim where
  manifestId :=
    .ofNat 32 0xea766e738be4ee99ded3f05a9003612d329c54f0496b0e3f74987b2c3fd7bbe2
  priorBridgeStateHash := .zero
  priorState := .zero
  nextState := {
    sequence := 1
    burnCount := 1
    elementsTipHash := .ofNat 32 1
    elementsConsensusStateDigest := .ofNat 32 2
    cumulativeBurnRoot :=
      .ofNat 32 0x5b688fe375287d519d48396011fbc8ec475e8413cb32af6162263e5f93da255b
    finalizedBitcoinBlockHash := .ofNat 32 3
    bitcoinHeight := 800000
    elementsHeight := 3000000
    bitcoinMedianTimePast := 1700000000
    bitcoinChainwork := .ofNat 32 1000 }
  appendedBurns := [⟨sampleBurn, emptyBranch⟩]

/-- A verifier that is satisfied with every claim. -/
def satisfiedVerifier : ElementsValidityProofVerifier Unit := ⟨fun _ _ _ => .ok ()⟩

theorem emptyNodesFrom_getElem (count height : Nat) {level : Nat}
    (inside : level < (emptyNodesFrom count (emptyBurnNode height)).length) :
    (emptyNodesFrom count (emptyBurnNode height))[level] = emptyBurnNode (height + level) := by
  induction count generalizing height level with
  | zero => simp [emptyNodesFrom] at inside
  | succ count ih =>
    cases level with
    | zero => rfl
    | succ level =>
      have next : burnAccumulatorNode (emptyBurnNode height) (emptyBurnNode height) =
          emptyBurnNode (height + 1) := rfl
      simp only [emptyNodesFrom, List.getElem_cons_succ, next]
      rw [ih, Nat.add_assoc, Nat.add_comm 1 level]

/-- The empty node of a level is listed at its level. -/
theorem exists_emptyNode {level : Nat} (small : level < 64) :
    ∃ inside : level < (emptyNodesFrom 64 (emptyBurnNode 0)).length,
      (emptyNodesFrom 64 (emptyBurnNode 0))[level] = emptyBurnNode level := by
  have inside : level < (emptyNodesFrom 64 (emptyBurnNode 0)).length := by
    rw [emptyNodesFrom_length]
    exact small
  have read := emptyNodesFrom_getElem 64 0 inside
  rw [Nat.zero_add] at read
  exact ⟨inside, read⟩

theorem emptyBranch_sibling {level : Nat} (small : level < 64) :
    emptyBranch.sibling level = emptyBurnNode level := by
  obtain ⟨inside, read⟩ := exists_emptyNode small
  simp [BurnProof.sibling, emptyBranch, small, read]

/-- The climb of the empty leaf along empty nodes hashes the empty node of each level twice. -/
theorem climbPair_empty {branch : Nat → Hash32}
    (blank : ∀ level < 64, branch level = emptyBurnNode level) {level : Nat} (small : level < 64) :
    climbPair burnAccumulatorNode (hashBytes [0]) 0 branch level =
      (emptyBurnNode level, emptyBurnNode level) := by
  have reached := climb_empty burnAccumulatorNode blank level small.le
  simp only [climbPair, orderedPair, Nat.zero_div, Nat.zero_mod, ↓reduceIte, blank level small]
  rw [reached, emptyBurnNode]

/-- Where no empty node below the root is the root, the pairs of equal empty nodes do not
collide. -/
theorem emptyPairs_injOn (apart : ∀ level < 64, emptyBurnNode level ≠ emptyBurnNode 64)
    {pairs : Set (Hash32 × Hash32)}
    (paired : ∀ pair ∈ pairs, ∃ level < 64, pair = (emptyBurnNode level, emptyBurnNode level)) :
    Set.InjOn (fun pair : Hash32 × Hash32 => burnAccumulatorNode pair.1 pair.2) pairs := by
  intro left leftHashed right rightHashed same
  obtain ⟨lower, lowerSmall, rfl⟩ := paired left leftHashed
  obtain ⟨upper, upperSmall, rfl⟩ := paired right rightHashed
  have equal : lower + 1 = upper + 1 := emptyAt_injOn burnAccumulatorNode apart
    (Set.mem_Iic.mpr lowerSmall) (Set.mem_Iic.mpr upperSmall) same
  rw [Nat.add_right_cancel equal]

/-- A first append into an empty tree hashes pairs of equal empty nodes only. -/
theorem collisionFree_first (genesis : Hash32) (burn : Burn)
    (apart : ∀ level < 64, emptyBurnNode level ≠ emptyBurnNode 64) :
    CollisionFree genesis [⟨burn, emptyBranch⟩] := by
  have paired : ∀ pair ∈ hashedPairs genesis [⟨burn, emptyBranch⟩], ∃ level < 64,
      pair = (emptyBurnNode level, emptyBurnNode level) := by
    rintro pair ⟨before, append, after, cut, level, small, hashed⟩
    obtain ⟨rfl, rfl, _⟩ := cut_singleton cut
    refine ⟨level, small, ?_⟩
    rcases hashed with rfl | rfl
    · exact climbPair_empty (fun below => emptyBranch_sibling) small
    · apply climbPair_empty _ small
      intro below _
      exact nodeAt_empty _ (fun position (_ : 0 ≤ position) => rfl) below _ (Nat.zero_le _)
  exact emptyPairs_injOn apart paired

omit [Hashing] in
/-- The sample claim is accepted. -/
theorem sampleClaim_accepted : letI := nonzeroSha256Hashing
    Succeeds (buildElementsStateJournal satisfiedVerifier sampleManifest sampleClaim ()) := by
  decide +kernel

/-- The sample claim as a link of a chain. -/
def sampleTransition : @AcceptedTransition nonzeroSha256Hashing :=
  letI := nonzeroSha256Hashing
  ⟨sampleManifest, sampleClaim, Unit, satisfiedVerifier, (), sampleClaim_accepted⟩

omit [Hashing] in
/-- The sample claim is a chain of one. -/
theorem sampleTransition_linked : letI := nonzeroSha256Hashing
    Linked sampleManifest.elementsGenesis [sampleTransition] := by
  let := nonzeroSha256Hashing
  exact @Linked.append _ _ [] sampleTransition .empty rfl rfl

omit [Hashing] in
/-- No empty node below the root is the root. -/
theorem emptyBurnNode_apart : letI := nonzeroSha256Hashing
    ∀ level < 64, emptyBurnNode level ≠ emptyBurnNode 64 := by
  let := nonzeroSha256Hashing
  have apart : ∀ node ∈ emptyNodesFrom 64 (emptyBurnNode 0), node ≠ emptyBurnNode 64 := by
    decide +kernel
  intro level small
  obtain ⟨inside, read⟩ := exists_emptyNode small
  rw [← read]
  exact apart _ (List.getElem_mem inside)

omit [Hashing] in
/-- A chain of one claim with one burn. -/
theorem guest_appends_refine_sample : letI := nonzeroSha256Hashing
    (stateAfter [sampleTransition]).burnCount = 1 ∧
      GuestTree sampleManifest.elementsGenesis [sampleTransition] [] :=
  let := nonzeroSha256Hashing
  ⟨rfl, guest_appends_refine (by simp) sampleTransition_linked
    (collisionFree_first _ _ emptyBurnNode_apart)⟩

end Sample

end Usdd.Verif

import Usdd.BitcoinBmm.Bip300Messages
/-!
# Runs of the slot-24 replay

A run applies one block after another to the state before the parent genesis. A live proposal
has a history: the block that created it, the blocks that voted for it, and every state in
between, in which it was live. The vote that activates it closes that history.
-/
namespace Usdd.Verif

open Usdd.Foundation Usdd.Core Usdd.BitcoinBmm

variable [Hashing]

/-- The states after each of a list of blocks and what the blocks returned, when every block is
accepted. -/
def acceptBlocks : ElementsSlot24ReplayState → List (List UInt8) →
    Except (Fault ElementsSlot24ReplayError)
      (List (ElementsSlot24ReplayState × ElementsSlot24BlockEffects))
  | _, [] => .ok []
  | state, bytes :: rest => do
    let (next, effects) ← applyMerkleBoundElementsSlot24ParentBlock state bytes
    let results ← acceptBlocks next rest
    return (next, effects) :: results

/-- The state of a run when a number of its blocks are applied. -/
def stateAt (start : ElementsSlot24ReplayState)
    (results : List (ElementsSlot24ReplayState × ElementsSlot24BlockEffects)) (count : Nat) :
    Option ElementsSlot24ReplayState :=
  (start :: results.map Prod.fst)[count]?

/-- The slot-24 messages of a block. -/
def blockMessages (bytes : List UInt8) : List ParentMessage :=
  match parseAndVerifyBlock bytes with
  | .ok parsed => coinbaseMessages parsed.coinbase.outputs
  | .error _ => []

/-- The hash of a block's header. -/
def headerHash (bytes : List UInt8) : Option BlockHash :=
  match parseAndVerifyBlock bytes with
  | .ok parsed => some parsed.metadata.blockHash
  | .error _ => none

/-- The slot-24 messages of the block at a height. -/
def messagesAt (blocks : List (List UInt8)) (height : Nat) : List ParentMessage :=
  (blocks[height]?.map blockMessages).getD []

/-- What one accepted block of a run is. -/
structure RunStep (bytes : List UInt8) (before after : ElementsSlot24ReplayState)
    (effects : ElementsSlot24BlockEffects) (parsed : ParsedBlock)
    (messaged : ElementsSlot24ReplayState) (observed : Option ObservedM7)
    (progress : TransactionProgress) : Prop where
  accepted : parseAndVerifyBlock bytes = .ok parsed
  applied : AppliedBlock before parsed after effects messaged observed progress
  messages : Messaged before before.nextHeight parsed.metadata.blockHash (blockMessages bytes)
    messaged

section Runs

variable {start : ElementsSlot24ReplayState} {blocks : List (List UInt8)}
  {results : List (ElementsSlot24ReplayState × ElementsSlot24BlockEffects)}

omit [Hashing] in
@[simp]
theorem stateAt_zero : stateAt start results 0 = some start := rfl

omit [Hashing] in
theorem stateAt_succ {count : Nat} {state : ElementsSlot24ReplayState} :
    stateAt start results (count + 1) = some state ↔
      ∃ effects, results[count]? = some (state, effects) := by
  simp only [stateAt, List.getElem?_cons_succ, List.getElem?_map, Option.map_eq_some_iff]
  constructor
  · rintro ⟨⟨state', effects⟩, found, rfl⟩
    exact ⟨effects, found⟩
  · rintro ⟨effects, found⟩
    exact ⟨_, found, rfl⟩

/-- Each result of a run is that of its block in the state before it. -/
theorem acceptBlocks_step (accepted : acceptBlocks start blocks = .ok results) {position : Nat}
    {after : ElementsSlot24ReplayState} {effects : ElementsSlot24BlockEffects}
    (here : results[position]? = some (after, effects)) :
    ∃ bytes before, blocks[position]? = some bytes ∧
      stateAt start results position = some before ∧
      ∃ parsed messaged observed progress,
        RunStep bytes before after effects parsed messaged observed progress := by
  induction blocks generalizing start results position with
  | nil =>
    cases accepted
    simp at here
  | cons bytes rest ih =>
    simp only [acceptBlocks, bind_eq_ok, pure_eq_ok, Prod.exists] at accepted
    obtain ⟨next, effects', applied, others, restAccepted, rfl⟩ := accepted
    cases position with
    | zero =>
      simp only [List.getElem?_cons_zero, Option.some.injEq, Prod.mk.injEq] at here
      obtain ⟨rfl, rfl⟩ := here
      obtain ⟨parsed, read, behind⟩ := applyBlock_ok applied
      obtain ⟨messaged, observed, progress, step⟩ := applyParsedBlock_ok behind
      have messages : blockMessages bytes = coinbaseMessages parsed.coinbase.outputs := by
        rw [blockMessages, read]
      exact ⟨bytes, start, rfl, rfl, parsed, messaged, observed, progress, read, step,
        messages ▸ applyCoinbaseMessages_ok step.messages⟩
    | succ position =>
      exact ih restAccepted here

/-- The settings of a run and the height of its states. -/
theorem acceptBlocks_frame (accepted : acceptBlocks start blocks = .ok results)
    (first : start.nextHeight = 0) {count : Nat} {state : ElementsSlot24ReplayState}
    (here : stateAt start results count = some state) :
    state.config = start.config ∧ state.nextHeight.toNat = count := by
  induction count generalizing state with
  | zero =>
    cases here
    exact ⟨rfl, by rw [first]; rfl⟩
  | succ count ih =>
    obtain ⟨effects, found⟩ := stateAt_succ.mp here
    obtain ⟨bytes, before, -, earlier, parsed, messaged, observed, progress, step⟩ :=
      acceptBlocks_step accepted found
    obtain ⟨config, height⟩ := ih earlier
    constructor
    · rw [step.applied.final]
      exact step.messages.config.trans config
    · rw [step.applied.height, height]

/-- The history of a live proposal. -/
structure PendingHistory (start : ElementsSlot24ReplayState)
    (results : List (ElementsSlot24ReplayState × ElementsSlot24BlockEffects))
    (blocks : List (List UInt8)) (count : Nat) (hash : Hash32)
    (proposal : PendingSlot24Proposal) (votes : Finset Nat) : Prop where
  past : proposal.proposalHeight.toNat < count
  created : .proposal hash ∈ messagesAt blocks proposal.proposalHeight.toNat
  card : votes.card = proposal.votes.toNat
  vote : ∀ height ∈ votes, proposal.proposalHeight.toNat < height ∧ height < count ∧
    acks (messagesAt blocks height) = [hash]
  live : ∀ earlier, proposal.proposalHeight.toNat < earlier → earlier ≤ count →
    ∃ state then_, stateAt start results earlier = some state ∧
      state.pendingProposals.lookup hash = some then_ ∧
      then_.proposalHeight = proposal.proposalHeight
  young : count ≤ proposal.proposalHeight.toNat + 1 +
    max start.config.unusedProposalMaxAge.toNat start.config.usedProposalMaxAge.toNat

omit [Hashing] in
/-- Either age of a configuration is at most the larger one. -/
theorem maxAge_le (config : ElementsSlot24ReplayConfig) (slotIsUsed : Bool) :
    config.maxAge slotIsUsed ≤
      max config.unusedProposalMaxAge.toNat config.usedProposalMaxAge.toNat := by
  cases slotIsUsed
  · exact le_max_left ..
  · exact le_max_right ..

/-- Every live proposal of a run has a history. -/
theorem acceptBlocks_history (accepted : acceptBlocks start blocks = .ok results)
    (first : start.nextHeight = 0) (empty : start.pendingProposals = ∅) {count : Nat}
    {state : ElementsSlot24ReplayState} (here : stateAt start results count = some state)
    {hash : Hash32} {proposal : PendingSlot24Proposal}
    (live : state.pendingProposals.lookup hash = some proposal) :
    ∃ votes, PendingHistory start results blocks count hash proposal votes := by
  induction count generalizing state proposal with
  | zero =>
    cases here
    rw [empty, AList.lookup_empty] at live
    cases live
  | succ count ih =>
    obtain ⟨effects, found⟩ := stateAt_succ.mp here
    obtain ⟨bytes, before, block, earlier, parsed, messaged, observed, progress, step⟩ :=
      acceptBlocks_step accepted found
    obtain ⟨config, height⟩ := acceptBlocks_frame accepted first earlier
    have now : ∃ state then_, stateAt start results (count + 1) = some state ∧
        state.pendingProposals.lookup hash = some then_ ∧
        then_.proposalHeight = proposal.proposalHeight := ⟨state, proposal, here, live, rfl⟩
    have messages : messagesAt blocks count = blockMessages bytes := by
      rw [messagesAt, block]
      rfl
    rw [step.applied.final] at live
    obtain ⟨origin, past, few, fresh⟩ := step.messages.pending hash proposal live
    rw [height] at past few fresh
    have young : count + 1 ≤ proposal.proposalHeight.toNat + 1 +
        max start.config.unusedProposalMaxAge.toNat start.config.usedProposalMaxAge.toNat := by
      have bound := maxAge_le messaged.config messaged.activeProposalHash.isSome
      have aged := not_or.mp fresh
      have same : messaged.config = start.config := step.messages.config.trans config
      rw [same] at bound aged
      omega
    have extend : ∀ {old : PendingSlot24Proposal} {votes : Finset Nat},
        PendingHistory start results blocks count hash old votes →
        proposal.proposalHeight = old.proposalHeight →
        ∀ earlier, proposal.proposalHeight.toNat < earlier → earlier ≤ count + 1 →
          ∃ state then_, stateAt start results earlier = some state ∧
            state.pendingProposals.lookup hash = some then_ ∧
            then_.proposalHeight = proposal.proposalHeight := by
      intro old votes history same between after upTo
      rcases Nat.eq_or_lt_of_le upTo with rfl | inside
      · exact now
      · rw [same] at after ⊢
        exact history.live between after (Nat.le_of_lt_succ inside)
    cases origin with
    | created member made =>
      have here' : proposal.proposalHeight.toNat = count := by rw [made]; exact height
      refine ⟨∅, by omega, ?_, ?_, nofun, ?_, young⟩
      · rw [here', messages]
        exact member
      · rw [made]
        rfl
      · intro between after upTo
        have only : between = count + 1 := by omega
        exact only ▸ now
    | kept old =>
      obtain ⟨votes, history⟩ := ih earlier old
      exact ⟨votes, Nat.lt_succ_of_lt history.past, history.created, history.card,
        fun vote member => ⟨(history.vote vote member).1,
          Nat.lt_succ_of_lt (history.vote vote member).2.1, (history.vote vote member).2.2⟩,
        extend history rfl, young⟩
    | voted old only votes' below =>
      obtain ⟨votes, history⟩ := ih earlier votes'.live
      have absent : count ∉ votes := fun member =>
        Nat.lt_irrefl _ (history.vote count member).2.1
      refine ⟨insert count votes, ?_, ?_, ?_, ?_, extend history votes'.height, young⟩
      · rw [votes'.height]
        exact Nat.lt_succ_of_lt history.past
      · rw [votes'.height]
        exact history.created
      · rw [Finset.card_insert_of_notMem absent, history.card, votes'.counted]
      · intro vote member
        rw [votes'.height]
        rcases Finset.mem_insert.mp member with rfl | earlier'
        · exact ⟨history.past, Nat.lt_succ_self _, messages ▸ only⟩
        · obtain ⟨after, before', named⟩ := history.vote vote earlier'
          exact ⟨after, Nat.lt_succ_of_lt before', named⟩

omit [Hashing] in
/-- In a valid state behind the genesis the required proposal is active exactly when its
activation is recorded. -/
theorem required_iff_of_valid {state : ElementsSlot24ReplayState} (valid : state.validate = .ok ())
    (later : state.nextHeight ≠ 0) :
    state.activeProposalHash = some state.config.requiredProposalHash ↔
      state.requiredActivation.isSome := by
  simp only [ElementsSlot24ReplayState.validate] at valid
  simp only [↓then_eq_ok, rejectIf_eq_ok, later, if_false, not_not] at valid
  obtain ⟨-, -, -, -, same, -⟩ := valid
  rw [← same, decide_eq_true_iff]

/-- What one block does to the recorded activation. -/
theorem RunStep.required {bytes : List UInt8} {before after : ElementsSlot24ReplayState}
    {effects : ElementsSlot24BlockEffects} {parsed : ParsedBlock}
    {messaged : ElementsSlot24ReplayState} {observed : Option ObservedM7}
    {progress : TransactionProgress}
    (step : RunStep bytes before after effects parsed messaged observed progress) :
    after.requiredActivation = before.requiredActivation ∨
      (before.requiredActivation = none ∧
        after.requiredActivation = some (before.nextHeight, parsed.metadata.blockHash)) := by
  rw [step.applied.final]
  rcases step.messages.active with ⟨-, same⟩ | ⟨hash, activates⟩
  · exact .inl same
  · have recorded := activates.required
    split at recorded
    · next fresh => exact .inr ⟨fresh.1, recorded⟩
    · exact .inl recorded

/-- The state behind a block is past the genesis and valid. -/
theorem RunStep.valid {bytes : List UInt8} {before after : ElementsSlot24ReplayState}
    {effects : ElementsSlot24BlockEffects} {parsed : ParsedBlock}
    {messaged : ElementsSlot24ReplayState} {observed : Option ObservedM7}
    {progress : TransactionProgress}
    (step : RunStep bytes before after effects parsed messaged observed progress) :
    after.validate = .ok () ∧ after.nextHeight ≠ 0 := by
  refine ⟨step.applied.valid, fun zero => ?_⟩
  have height := step.applied.height
  rw [zero] at height
  exact absurd height (Nat.succ_ne_zero _).symm

/-- A recorded activation stays, and with it the required proposal stays active. -/
theorem acceptBlocks_required_stays (accepted : acceptBlocks start blocks = .ok results)
    (first : start.nextHeight = 0) {count : Nat} {state : ElementsSlot24ReplayState}
    (here : stateAt start results count = some state) {activation : UInt32 × BlockHash}
    (recorded : state.requiredActivation = some activation) {more : Nat}
    {later : ElementsSlot24ReplayState}
    (there : stateAt start results (count + (more + 1)) = some later) :
    later.requiredActivation = some activation ∧
      later.activeProposalHash = some start.config.requiredProposalHash := by
  have last : later.requiredActivation = some activation := by
    induction more generalizing later with
    | zero =>
      obtain ⟨effects, found⟩ := stateAt_succ.mp there
      obtain ⟨bytes, before, -, earlier, parsed, messaged, observed, progress, step⟩ :=
        acceptBlocks_step accepted found
      rw [here, Option.some.injEq] at earlier
      subst earlier
      rcases step.required with same | ⟨none, -⟩
      · rw [same, recorded]
      · simp [recorded] at none
    | succ more ih =>
      obtain ⟨effects, found⟩ := stateAt_succ.mp there
      obtain ⟨bytes, before, -, earlier, parsed, messaged, observed, progress, step⟩ :=
        acceptBlocks_step accepted found
      have kept := ih earlier
      rcases step.required with same | ⟨none, -⟩
      · rw [same, kept]
      · simp [kept] at none
  refine ⟨last, ?_⟩
  obtain ⟨config, -⟩ := acceptBlocks_frame accepted first there
  obtain ⟨effects, found⟩ := stateAt_succ.mp there
  obtain ⟨bytes, before, -, -, parsed, messaged, observed, progress, step⟩ :=
    acceptBlocks_step accepted found
  obtain ⟨valid, past⟩ := step.valid
  rw [← config]
  exact (required_iff_of_valid valid past).mpr (by rw [last]; rfl)

/-- The block in which the required proposal became active. -/
structure BecameRequired (start : ElementsSlot24ReplayState) (blocks : List (List UInt8))
    (results : List (ElementsSlot24ReplayState × ElementsSlot24BlockEffects))
    (height : UInt32) (hash : BlockHash) (before after : ElementsSlot24ReplayState) : Prop where
  stateBefore : stateAt start results height.toNat = some before
  stateAfter : stateAt start results (height.toNat + 1) = some after
  named : blocks[height.toNat]?.bind headerHash = some hash
  inactive : before.activeProposalHash ≠ some start.config.requiredProposalHash
  active : after.activeProposalHash = some start.config.requiredProposalHash
  recorded : after.requiredActivation = some (height, hash)

/-- A recorded activation names the block in which the required proposal became active. -/
theorem acceptBlocks_required (accepted : acceptBlocks start blocks = .ok results)
    (first : start.nextHeight = 0) (fresh : start.activeProposalHash = none)
    (unrecorded : start.requiredActivation = none) {count : Nat}
    {state : ElementsSlot24ReplayState} (here : stateAt start results count = some state)
    {height : UInt32} {hash : BlockHash}
    (recorded : state.requiredActivation = some (height, hash)) :
    height.toNat < count ∧
      ∃ before after, BecameRequired start blocks results height hash before after := by
  induction count generalizing state with
  | zero =>
    cases here
    simp [unrecorded] at recorded
  | succ count ih =>
    obtain ⟨effects, found⟩ := stateAt_succ.mp here
    obtain ⟨bytes, before, block, earlier, parsed, messaged, observed, progress, step⟩ :=
      acceptBlocks_step accepted found
    rcases step.required with same | ⟨none, made⟩
    · rw [same] at recorded
      obtain ⟨past, became⟩ := ih earlier recorded
      exact ⟨Nat.lt_succ_of_lt past, became⟩
    · rw [recorded, Option.some.injEq, Prod.mk.injEq] at made
      obtain ⟨rfl, rfl⟩ := made
      obtain ⟨config, now⟩ := acceptBlocks_frame accepted first earlier
      obtain ⟨config', -⟩ := acceptBlocks_frame accepted first here
      obtain ⟨valid, past⟩ := step.valid
      refine ⟨by omega, before, state, by rw [now]; exact earlier, by rw [now]; exact here, ?_, ?_,
        ?_, recorded⟩
      · rw [now, block, Option.bind_some, headerHash, step.accepted]
      · cases count with
        | zero =>
          cases earlier
          simp [fresh]
        | succ count =>
          obtain ⟨effects', found'⟩ := stateAt_succ.mp earlier
          obtain ⟨_, _, -, -, _, _, _, _, step'⟩ := acceptBlocks_step accepted found'
          obtain ⟨valid', past'⟩ := step'.valid
          rw [← config, Ne, required_iff_of_valid valid' past', none]
          simp
      · rw [← config']
        exact (required_iff_of_valid valid past).mpr (by rw [recorded]; rfl)

/-- The history of an activation: the block that created the proposal, more votes for it than the
threshold, each the only ACK of its block and the last in the block that activates it, and the
states in between, in all of which the proposal was live. -/
structure ActivationHistory (start : ElementsSlot24ReplayState) (blocks : List (List UInt8))
    (results : List (ElementsSlot24ReplayState × ElementsSlot24BlockEffects))
    (slotIsUsed : Bool) (hash : Hash32) (created last : Nat) (votes : Finset Nat) : Prop where
  earlier : created < last
  message : .proposal hash ∈ messagesAt blocks created
  enough : start.config.activationThreshold slotIsUsed < votes.card
  closing : last ∈ votes
  vote : ∀ height ∈ votes, created < height ∧ height ≤ last ∧
    acks (messagesAt blocks height) = [hash]
  live : ∀ count, created < count → count ≤ last →
    ∃ state proposal, stateAt start results count = some state ∧
      state.pendingProposals.lookup hash = some proposal ∧
      proposal.proposalHeight.toNat = created
  young : last - created ≤
    max start.config.unusedProposalMaxAge.toNat start.config.usedProposalMaxAge.toNat + 1

/-- A proposal that becomes active has such a history. -/
theorem acceptBlocks_activation (accepted : acceptBlocks start blocks = .ok results)
    (first : start.nextHeight = 0) (empty : start.pendingProposals = ∅) {last : Nat}
    {before after : ElementsSlot24ReplayState}
    (beforeState : stateAt start results last = some before)
    (afterState : stateAt start results (last + 1) = some after) {hash : Hash32}
    (inactive : before.activeProposalHash ≠ some hash)
    (active : after.activeProposalHash = some hash) :
    ∃ created votes, ActivationHistory start blocks results before.activeProposalHash.isSome hash
      created last votes := by
  obtain ⟨effects, found⟩ := stateAt_succ.mp afterState
  obtain ⟨bytes, before', block, earlier, parsed, messaged, observed, progress, step⟩ :=
    acceptBlocks_step accepted found
  rw [beforeState, Option.some.injEq] at earlier
  subst earlier
  obtain ⟨config, -⟩ := acceptBlocks_frame accepted first beforeState
  rw [step.applied.final] at active
  rcases step.messages.active with ⟨same, -⟩ | ⟨voted, activates⟩
  · exact absurd (same.symm.trans active) inactive
  · have same : voted = hash := Option.some.inj (activates.active.symm.trans active)
    subst same
    obtain ⟨old, new, votes', enough⟩ := activates.enough
    obtain ⟨votes, history⟩ := acceptBlocks_history accepted first empty beforeState votes'.live
    have absent : last ∉ votes := fun member => Nat.lt_irrefl _ (history.vote last member).2.1
    refine ⟨old.proposalHeight.toNat, insert last votes, history.past, history.created, ?_,
      Finset.mem_insert_self .., ?_, ?_, ?_⟩
    · rw [Finset.card_insert_of_notMem absent, history.card, ← votes'.counted, ← config]
      exact enough
    · intro height member
      rcases Finset.mem_insert.mp member with rfl | earlier
      · refine ⟨history.past, Nat.le_refl _, ?_⟩
        rw [messagesAt, block]
        exact activates.only
      · obtain ⟨later, inside, named⟩ := history.vote height earlier
        exact ⟨later, Nat.le_of_lt inside, named⟩
    · intro count after upTo
      obtain ⟨state, proposal, there, live, height⟩ := history.live count after upTo
      exact ⟨state, proposal, there, live, congrArg UInt32.toNat height⟩
    · have young := history.young
      omega

end Runs

/-- Activations in a run have a valid history: more votes than the threshold of the slot, each in
a block of its own behind the proposal's message, while the proposal stayed live; and a recorded
activation of the required proposal names its block and never changes. -/
theorem activation_history (config : ElementsSlot24ReplayConfig)
    (start : ElementsSlot24ReplayState) (blocks : List (List UInt8))
    (results : List (ElementsSlot24ReplayState × ElementsSlot24BlockEffects))
    (begun : ElementsSlot24ReplayState.beforeParentGenesis config = .ok start)
    (accepted : acceptBlocks start blocks = .ok results) :
    (∀ last before after hash, stateAt start results last = some before →
      stateAt start results (last + 1) = some after →
      before.activeProposalHash ≠ some hash → after.activeProposalHash = some hash →
      ∃ created votes, ActivationHistory start blocks results before.activeProposalHash.isSome
        hash created last votes) ∧
    ∀ count state height hash, stateAt start results count = some state →
      state.requiredActivation = some (height, hash) →
      height.toNat < count ∧
      (∃ before after, BecameRequired start blocks results height hash before after) ∧
      ∀ count' later, height.toNat < count' → stateAt start results count' = some later →
        later.requiredActivation = some (height, hash) ∧
          later.activeProposalHash = some config.requiredProposalHash := by
  simp only [ElementsSlot24ReplayState.beforeParentGenesis] at begun
  simp only [↓then_eq_ok, pure_eq_ok] at begun
  obtain ⟨-, rfl⟩ := begun
  constructor
  · intro last before after hash beforeState afterState inactive active
    exact acceptBlocks_activation accepted rfl rfl beforeState afterState inactive active
  · intro count state height hash here recorded
    obtain ⟨past, before, after, became⟩ :=
      acceptBlocks_required accepted rfl rfl rfl here recorded
    refine ⟨past, ⟨before, after, became⟩, fun count' later behind there => ?_⟩
    obtain ⟨more, rfl⟩ := Nat.exists_eq_add_of_lt behind
    cases more with
    | zero =>
      rw [Nat.add_zero, became.stateAfter, Option.some.injEq] at there
      subst there
      exact ⟨became.recorded, became.active⟩
    | succ more =>
      have moved : height.toNat + (more + 1) + 1 = height.toNat + 1 + (more + 1) := by omega
      rw [moved] at there
      exact acceptBlocks_required_stays accepted rfl became.stateAfter became.recorded there

section Sample

/-- A block whose coinbase proposes. -/
def proposalBlock : List UInt8 :=
  [beBytes 1 0x01,
    List.replicate 35 0x00,
    beBytes 32 0x877cebcbcbeea43b8e1c2bc557c1b3ef0f6cc5152e32cd7ac7c0f13b851867f4,
    List.replicate 12 0x00,
    beBytes 6 0x010100000001,
    List.replicate 32 0x00,
    beBytes 32 0xffffffff020100ffffffff010000000000000000086a06d5e0c4af1807000000,
    beBytes 1 0x00].flatten

/-- A block whose coinbase votes for the proposal. -/
def voteBlock : List UInt8 :=
  [beBytes 32 0x01000000ba1dc5f0b93a269ed7d8a4c89a677221f6373dd26b1577dd2391eb7f,
    beBytes 32 0xe952ffc4c1875a901ff3fa1d577c3e620b419ee623f374953e562624db5ed19d,
    beBytes 4 0xfb3dd76d,
    List.replicate 12 0x00,
    beBytes 6 0x010100000001,
    List.replicate 32 0x00,
    beBytes 32 0xffffffff020101ffffffff010000000000000000276a25d6e1c5df18b6d58dfa,
    beBytes 32 0x6547c1eb7f0d4ffd3e3bd6452213210ea51baa70b97c31f01118721500000000].flatten

/-- The block whose vote activates the proposal; it has a commitment, and a transaction that requests
it and makes a deposit. -/
def activatingBlock : List UInt8 :=
  [beBytes 32 0x01000000dcb3fa74c03f8bb5d7abeba3d806ebe1b3dee7f5191d64419629efeb,
    beBytes 32 0xc4dce6bcee06204f621f528cf926d61c21e5ed4b980c4513e83ac880f595c49a,
    beBytes 4 0x88329f57,
    List.replicate 12 0x00,
    beBytes 6 0x020100000001,
    List.replicate 32 0x00,
    beBytes 32 0xffffffff020102ffffffff020000000000000000276a25d6e1c5df18b6d58dfa,
    beBytes 32 0x6547c1eb7f0d4ffd3e3bd6452213210ea51baa70b97c31f01118721500000000,
    beBytes 12 0x00000000276a25d161736818,
    List.replicate 32 0x05,
    beBytes 9 0x000000000100000001,
    List.replicate 32 0x09,
    beBytes 25 0x0000000000ffffffff030000000000000000466a4400bf0018,
    List.replicate 32 0x05,
    beBytes 32 0xdcb3fa74c03f8bb5d7abeba3d806ebe1b3dee7f5191d64419629efebc4dce6bc,
    beBytes 31 0xe80300000000000004b40118510000000000000000056a0301020300000000].flatten

/-- The settings under which two votes activate the proposal. -/
def sampleConfig : ElementsSlot24ReplayConfig where
  requiredProposalHash := .ofNat 32
    0xb6d58dfa6547c1eb7f0d4ffd3e3bd6452213210ea51baa70b97c31f011187215
  unusedProposalMaxAge := 2
  unusedActivationThreshold := 1
  usedProposalMaxAge := 2
  usedActivationThreshold := 1

/-- The blocks of a run that activates the required proposal and makes a deposit. -/
def sampleBlocks : List (List UInt8) := [proposalBlock, voteBlock, activatingBlock]

/-- The state the sample run begins in. -/
def sampleStart : ElementsSlot24ReplayState :=
  ⟨sampleConfig, 0, .zero 32, none, none, ∅, none⟩

omit [Hashing] in
/-- The settings of the sample run are valid. -/
theorem sampleStart_begun :
    ElementsSlot24ReplayState.beforeParentGenesis sampleConfig = .ok sampleStart := by
  have valid : sampleConfig.validate = .ok () := by decide
  rw [ElementsSlot24ReplayState.beforeParentGenesis, valid]
  rfl

omit [Hashing] in
/-- The blocks of the sample run are accepted. -/
theorem sampleRun_accepted :
    letI := sha256Hashing
    Succeeds (acceptBlocks sampleStart sampleBlocks) := by
  decide +kernel

omit [Hashing] in
/-- The sample run has the history of its activation. -/
theorem activation_history_sample :
    letI := sha256Hashing
    ∃ results, acceptBlocks sampleStart sampleBlocks = .ok results ∧
      ∀ last before after hash, stateAt sampleStart results last = some before →
        stateAt sampleStart results (last + 1) = some after →
        before.activeProposalHash ≠ some hash → after.activeProposalHash = some hash →
        ∃ created votes, ActivationHistory sampleStart sampleBlocks results
          before.activeProposalHash.isSome hash created last votes := by
  let hashing := sha256Hashing
  obtain ⟨results, accepted⟩ := sampleRun_accepted
  exact ⟨results, accepted, (activation_history sampleConfig sampleStart sampleBlocks results
    sampleStart_begun accepted).1⟩

end Sample

end Usdd.Verif

import Usdd.BitcoinBmm.ParentTransitions
import Usdd.Foundation.HashChains
import Usdd.Verif.BlockIdentity
import Usdd.Verif.HeaderRuns
import Usdd.Verif.M7Readers
/-!
# Runs of the parent chain

A run adds one block after another, each with its commitment. Its last tip commits to all of it:
the blocks, the states and the commitments. The replay of the same blocks stays in step with it
and reports the same commitments once the required proposal is active.
-/
namespace Usdd.Verif

open Usdd.Foundation Usdd.Foundation.Attempts Usdd.Core Usdd.BitcoinBmm

section Sizes

/-- A commitment that counts as canonical has a script of one length. -/
theorem commitments_canonical {scripts : List (List UInt8)} {index : Nat} {observed : ObservedM7}
    (member : observed ∈ commitments index scripts)
    (canonical : observed.canonicalForElements = true) :
    ∃ script ∈ scripts, script.length = m7CanonicalScriptLen := by
  induction scripts generalizing index with
  | nil => cases member
  | cons script scripts ih =>
    rw [commitments, List.mem_append, Option.mem_toList] at member
    rcases member with here | later
    · refine ⟨script, List.mem_cons_self, ?_⟩
      unfold commitmentAt at here
      split at here
      · split at here
        · simp only [Option.some.injEq] at here
          subst here
          simp only [isCanonicalM7Script, Bool.and_eq_true, beq_iff_eq] at canonical
          exact canonical.1.1
        · cases here
      · cases here
    · obtain ⟨found, listed, length⟩ := ih later
      exact ⟨found, List.mem_cons_of_mem _ listed, length⟩

variable [Hashing]

/-- A coinbase with a canonical commitment is longer than a pair of hashes. -/
theorem coinbaseSize_of_extracted {bytes : List UInt8} {parsed : ParsedBlock}
    (accepted : parseAndVerifyBlock bytes = .ok parsed) {m7 : UnboundCanonicalM7}
    (extracted : extractElementsSlot24M7 (coinbaseScripts parsed) = .ok m7) :
    coinbaseSize parsed ≠ some 64 := by
  obtain ⟨few, small⟩ := coinbaseScripts_within accepted
  have canonical : ∃ script ∈ coinbaseScripts parsed, script.length = m7CanonicalScriptLen := by
    rw [extractElementsSlot24M7_eq few small] at extracted
    split at extracted
    · cases extracted
    · rename_i noneBad
      rw [not_not, List.countP_eq_zero] at noneBad
      split at extracted
      · cases extracted
      · rename_i only found
        have member : only ∈ commitments 0 (coinbaseScripts parsed) := by
          rw [found]
          exact List.mem_singleton_self _
        exact commitments_canonical member (by simpa using noneBad only member)
      · cases extracted
  obtain ⟨block, coinbase, valid, head, rfl, rfl⟩ := parseAndVerifyBlock_eq_ok.mp accepted
  obtain ⟨script, listed, length⟩ := canonical
  obtain ⟨output, member, rfl⟩ := List.mem_map.mp listed
  have coinbaseValid := valid.transactions coinbase (List.mem_of_head? head)
  obtain ⟨input, present⟩ := List.exists_mem_of_ne_nil _ coinbaseValid.hasInput
  have inputSize := minInputBytes_le input
  have outputSize := output.serialize_length
  have scriptSize := sizedBytes_length output.script
  have inputs := length_lt_countedBytes ParsedInput.serialize present
  have outputs := length_lt_countedBytes ParsedOutput.serialize
    (show output ∈ coinbase.outputs from member)
  have size := coinbase.stripped_length
  have canonicalLength : m7CanonicalScriptLen = 39 := rfl
  have least : minInputBytes = 41 := rfl
  intro short
  simp only [coinbaseSize, Block.parsed, List.head?_map, head, Option.map_some,
    Transaction.parsed, Option.some.injEq] at short
  rw [size, Transaction.inputBytes, Transaction.outputBytes] at short
  omega

end Sizes

section Parents

variable [Hashing]

/-- The transitions of a list of parent blocks, when every block is accepted. -/
def acceptParentBlocks (params : PowParameters) : HeaderChainState → List (List UInt8) →
    Except ParentBlockM7Error (List PowMerkleBoundM7Transition)
  | _, [] => .ok []
  | prior, bytes :: rest => do
    let transition ← verifyPowMerkleBoundElementsM7Successor prior bytes params
    let transitions ← acceptParentBlocks params transition.nextParentState rest
    return transition :: transitions

omit [Hashing] in
/-- The state after some transitions. -/
def parentTip (start : HeaderChainState) (transitions : List PowMerkleBoundM7Transition) :
    HeaderChainState :=
  (transitions.getLast?.map (·.nextParentState)).getD start

/-- The state after one block. -/
def parentStep (params : PowParameters) (prior : HeaderChainState) (bytes : List UInt8) :
    Except ParentBlockM7Error HeaderChainState :=
  (verifyPowMerkleBoundElementsM7Successor prior bytes params).map (·.nextParentState)

variable {params : PowParameters} {prior start : HeaderChainState} {bytes : List UInt8}
  {blocks : List (List UInt8)} {transition : PowMerkleBoundM7Transition}
  {transitions : List PowMerkleBoundM7Transition}

/-- The tip after a transition is the header of the parsed block. -/
theorem boundTransition_tip {parsed : ParsedBlock} {m7 : UnboundCanonicalM7}
    (bound : BoundTransition prior bytes params transition parsed m7) :
    transition.nextParentState.tip.header = parsed.metadata.header ∧
      transition.nextParentState.tip.hash = parsed.metadata.blockHash := by
  obtain ⟨_, -, -, verified, -⟩ := verifySuccessor_ok bound.successor
  obtain ⟨decoded, -, -, hashed, -⟩ := verifyHeaderPow_eq_ok.mp verified
  obtain ⟨block, coinbase, -, -, -, parts⟩ := parseAndVerifyBlock_eq_ok.mp bound.accepted
  obtain ⟨raw, same, form⟩ := BitcoinHeader.decodeExact_eq_ok.mp decoded
  have header : transition.nextParentState.tip.header = parsed.metadata.header := by
    rw [parts] at same ⊢
    rw [form, FixedBytes.ext same]
    rfl
  refine ⟨header, ?_⟩
  rw [hashed, header, parts]
  rfl

theorem parentStep_eq_ok {next : HeaderChainState} :
    parentStep params prior bytes = .ok next ↔ ∃ transition parsed m7,
      BoundTransition prior bytes params transition parsed m7 ∧
        transition.nextParentState = next := by
  unfold parentStep
  constructor
  · intro stepped
    cases taken : verifyPowMerkleBoundElementsM7Successor prior bytes params with
    | error error =>
      rw [taken] at stepped
      cases stepped
    | ok transition =>
      rw [taken] at stepped
      obtain ⟨parsed, m7, bound⟩ := verifyPowMerkleBound_eq_ok.mp taken
      exact ⟨transition, parsed, m7, bound, Except.ok.inj stepped⟩
  · rintro ⟨transition, parsed, m7, bound, rfl⟩
    rw [verifyPowMerkleBound_eq_ok.mpr ⟨parsed, m7, bound⟩]
    rfl

/-- A list of accepted blocks is a run of single steps. -/
theorem acceptParentBlocks_reaches
    (accepted : acceptParentBlocks params start blocks = .ok transitions) :
    Reaches (parentStep params) start (blocks.zip (transitions.map (·.nextParentState)))
        (parentTip start transitions) ∧ transitions.length = blocks.length := by
  induction blocks generalizing start transitions with
  | nil =>
    cases accepted
    exact ⟨.start, rfl⟩
  | cons bytes rest ih =>
    simp only [acceptParentBlocks, bind_eq_ok, pure_eq_ok] at accepted
    obtain ⟨transition, taken, others, restAccepted, rfl⟩ := accepted
    obtain ⟨run, length⟩ := ih restAccepted
    have stepped : parentStep params start bytes = .ok transition.nextParentState := by
      rw [parentStep, taken]
      rfl
    have last : parentTip start (transition :: others) =
        parentTip transition.nextParentState others := by
      rw [parentTip, parentTip, List.getLast?_cons]
      cases others.getLast? <;> rfl
    refine ⟨?_, by rw [List.length_cons, List.length_cons, length]⟩
    rw [last]
    exact (Reaches.single stepped).trans run

/-- Each block adds one to the height. -/
theorem parentRun_height {log : List (List UInt8 × HeaderChainState)}
    {state : HeaderChainState} (run : Reaches (parentStep params) start log state) :
    state.height.toNat = start.height.toNat + log.length := by
  induction run with
  | start => rfl
  | accept _ accepted ih =>
    obtain ⟨transition, parsed, m7, bound, rfl⟩ := parentStep_eq_ok.mp accepted
    obtain ⟨_, -, -, -, -, height, -⟩ := verifySuccessor_ok bound.successor
    rw [height, ih, List.length_append]
    rfl

/-- The hash of a tip determines the block that made it the tip, and the tip before. -/
theorem parentStep_determines {blocks : List (List UInt8)}
    (apart : Set.InjOn doubleSha256 { input | ∃ bytes ∈ blocks, HashedFor bytes input }) :
    TipsDetermine (parentStep params) (·.tip.hash) { bytes | bytes ∈ blocks } := by
  intro state other bytes bytes' next next' member member' stepped stepped' tips
  obtain ⟨transition, parsed, m7, bound, rfl⟩ := parentStep_eq_ok.mp stepped
  obtain ⟨transition', parsed', m7', bound', rfl⟩ := parentStep_eq_ok.mp stepped'
  obtain ⟨header, hash⟩ := boundTransition_tip bound
  obtain ⟨header', hash'⟩ := boundTransition_tip bound'
  have pair : Set.InjOn doubleSha256 { input | HashedFor bytes input ∨ HashedFor bytes' input } := by
    refine Set.InjOn.mono ?_ apart
    rintro input (hashed | hashed)
    · exact ⟨bytes, member, hashed⟩
    · exact ⟨bytes', member', hashed⟩
  have same : bytes = bytes' := block_hash_names_block bound.accepted bound'.accepted pair
    (coinbaseSize_of_extracted bound.accepted bound.extracted)
    (coinbaseSize_of_extracted bound'.accepted bound'.extracted) (by rw [← hash, ← hash']; exact tips)
  subst same
  have parts : parsed = parsed' := by
    have read := bound.accepted
    rw [bound'.accepted, Except.ok.injEq] at read
    exact read.symm
  obtain ⟨_, -, -, -, linked, -⟩ := verifySuccessor_ok bound.successor
  obtain ⟨_, -, -, -, linked', -⟩ := verifySuccessor_ok bound'.successor
  refine ⟨?_, rfl⟩
  change state.tip.hash = other.tip.hash
  rw [← linked, ← linked', header, header', parts]

/-- Two runs from one state whose last tips have one height and one hash added the same blocks, with
the same states and commitments. -/
theorem parent_tip_names_history {left right : List (List UInt8)}
    {leftTransitions rightTransitions : List PowMerkleBoundM7Transition}
    (leftAccepted : acceptParentBlocks params start left = .ok leftTransitions)
    (rightAccepted : acceptParentBlocks params start right = .ok rightTransitions)
    (apart : Set.InjOn doubleSha256 { input | ∃ bytes ∈ left ++ right, HashedFor bytes input })
    (height : (parentTip start leftTransitions).height = (parentTip start rightTransitions).height)
    (hash : (parentTip start leftTransitions).tip.hash =
      (parentTip start rightTransitions).tip.hash) :
    left = right ∧ leftTransitions = rightTransitions := by
  obtain ⟨leftRun, leftLength⟩ := acceptParentBlocks_reaches leftAccepted
  obtain ⟨rightRun, rightLength⟩ := acceptParentBlocks_reaches rightAccepted
  have leftHeight := parentRun_height leftRun
  have rightHeight := parentRun_height rightRun
  have length : (left.zip (leftTransitions.map (·.nextParentState))).length =
      (right.zip (rightTransitions.map (·.nextParentState))).length := by
    rw [height] at leftHeight
    omega
  have logs := (Reaches.determined (parentStep_determines apart) leftRun rightRun
    (fun _ member => List.mem_append_left _ (List.of_mem_zip member).1)
    (fun _ member => List.mem_append_right _ (List.of_mem_zip member).1) length hash).1
  have same : left = right := by
    have firsts := congrArg (List.map Prod.fst) logs
    rwa [List.map_fst_zip (by rw [List.length_map, leftLength]),
      List.map_fst_zip (by rw [List.length_map, rightLength])] at firsts
  refine ⟨same, ?_⟩
  rw [same, rightAccepted, Except.ok.injEq] at leftAccepted
  exact leftAccepted.symm

/-- The Signet transitions of a list of parent blocks, when every block is accepted. -/
def acceptSignetBlocks (crypto : SignetCrypto) : HeaderChainState → List (List UInt8) →
    Except SignetTransitionError (List PowMerkleBoundM7Transition)
  | _, [] => .ok []
  | prior, bytes :: rest => do
    let transition ← verifyLayerTwoSignetPowMerkleBoundElementsM7Successor crypto prior bytes
    let transitions ← acceptSignetBlocks crypto transition.nextParentState rest
    return transition :: transitions

/-- A Signet run is a run under the Signet parameters whose blocks have accepted solutions. -/
theorem acceptSignetBlocks_eq_ok {crypto : SignetCrypto} :
    acceptSignetBlocks crypto start blocks = .ok transitions ↔
      (∀ bytes ∈ blocks, ∃ block, verifyLayerTwoSignetBlockSolution crypto bytes = .ok block) ∧
        acceptParentBlocks .layerTwoSignet start blocks = .ok transitions := by
  induction blocks generalizing start transitions with
  | nil => simp [acceptSignetBlocks, acceptParentBlocks]
  | cons bytes rest ih =>
    simp only [acceptSignetBlocks, acceptParentBlocks, bind_eq_ok, pure_eq_ok,
      verifyLayerTwoSignetPowMerkleBound_eq_ok, ih, List.forall_mem_cons]
    constructor
    · rintro ⟨transition, ⟨solved, taken⟩, others, ⟨restSolved, restAccepted⟩, rfl⟩
      exact ⟨⟨solved, restSolved⟩, transition, taken, others, restAccepted, rfl⟩
    · rintro ⟨⟨solved, restSolved⟩, transition, taken, others, restAccepted, rfl⟩
      exact ⟨transition, ⟨solved, taken⟩, others, ⟨restSolved, restAccepted⟩, rfl⟩

/-- Signet runs are named by their tips too. -/
theorem signet_tip_names_history {crypto : SignetCrypto} {left right : List (List UInt8)}
    {leftTransitions rightTransitions : List PowMerkleBoundM7Transition}
    (leftAccepted : acceptSignetBlocks crypto start left = .ok leftTransitions)
    (rightAccepted : acceptSignetBlocks crypto start right = .ok rightTransitions)
    (apart : Set.InjOn doubleSha256 { input | ∃ bytes ∈ left ++ right, HashedFor bytes input })
    (height : (parentTip start leftTransitions).height = (parentTip start rightTransitions).height)
    (hash : (parentTip start leftTransitions).tip.hash =
      (parentTip start rightTransitions).tip.hash) :
    left = right ∧ leftTransitions = rightTransitions :=
  parent_tip_names_history (acceptSignetBlocks_eq_ok.mp leftAccepted).2
    (acceptSignetBlocks_eq_ok.mp rightAccepted).2 apart height hash

end Parents

section Replays

variable [Hashing] {params : PowParameters} {parent : HeaderChainState}
  {replay : ElementsSlot24ReplayState} {blocks : List (List UInt8)}
  {transitions : List PowMerkleBoundM7Transition}
  {results : List (ElementsSlot24ReplayState × ElementsSlot24BlockEffects)}

omit [Hashing] in
/-- The replay has applied the blocks up to the tip of the header chain. -/
structure InStep (parent : HeaderChainState) (replay : ElementsSlot24ReplayState) : Prop where
  tip : replay.tipHash = parent.tip.hash
  height : replay.nextHeight.toNat = parent.height.toNat + 1

omit [Hashing] in
/-- The edge that a transition's commitment is. -/
def edgeOf (transition : PowMerkleBoundM7Transition) : ElementsSlot24BmmEdge where
  parentBlockHash := transition.nextParentState.tip.header.previousBlock
  successorBlockHash := transition.commitment.parentBlockHash
  successorHeight := transition.commitment.parentHeight
  coinbaseTxid := transition.commitment.coinbaseTxid
  m7OutputIndex := transition.commitment.outputIndex
  committedChildHash := transition.commitment.committedChildHash

omit [Hashing] in
/-- The replay of a block ends in step with its transition and reports the commitment of the
transition once the required proposal is active. -/
structure ReplayAgrees (transition : PowMerkleBoundM7Transition)
    (result : ElementsSlot24ReplayState × ElementsSlot24BlockEffects) : Prop where
  inStep : InStep transition.nextParentState result.1
  seen : result.2.sawSlot24M7 = true
  edge : result.2.bmmEdge =
    if result.1.requiredProposalIsActive then some (edgeOf transition) else none

/-- The replay of one block. -/
theorem replay_step {bytes : List UInt8} {transition : PowMerkleBoundM7Transition}
    {result : ElementsSlot24ReplayState × ElementsSlot24BlockEffects}
    (inStep : InStep parent replay)
    (taken : verifyPowMerkleBoundElementsM7Successor parent bytes params = .ok transition)
    (applied : applyMerkleBoundElementsSlot24ParentBlock replay bytes = .ok result) :
    ReplayAgrees transition result := by
  obtain ⟨next, effects⟩ := result
  obtain ⟨parsed, m7, bound⟩ := verifyPowMerkleBound_eq_ok.mp taken
  obtain ⟨parsed', accepted', behind⟩ := applyBlock_ok applied
  obtain rfl : parsed = parsed' := by
    rw [bound.accepted, Except.ok.injEq] at accepted'
    exact accepted'
  obtain ⟨messaged, observed, progress, step⟩ := applyParsedBlock_ok behind
  obtain ⟨header, hash⟩ := boundTransition_tip bound
  obtain ⟨_, -, -, -, -, height, -⟩ := verifySuccessor_ok bound.successor
  obtain ⟨found, seen, canonical, read⟩ :=
    ((readersAgree accepted').canonical m7).mp bound.extracted
  rw [step.seen, Except.ok.injEq] at seen
  have tip : next.tipHash = parsed.metadata.blockHash := by
    rw [step.final]
  have heights : replay.nextHeight = transition.nextParentState.height := by
    rw [← UInt32.toNat_inj, inStep.height, height]
  have active : next.requiredProposalIsActive = messaged.requiredProposalIsActive := by
    rw [step.final]
    rfl
  refine ⟨⟨tip.trans hash.symm, ?_⟩, ?_, ?_⟩
  · rw [step.height, heights]
  · rw [step.reported, seen]
    rfl
  · change effects.bmmEdge = if next.requiredProposalIsActive then _ else _
    rw [active, step.reported, seen]
    cases messaged.requiredProposalIsActive with
    | false => rfl
    | true =>
      simp only [bmmEdge, Option.filter_some, Bool.true_and, canonical, if_true, Option.map_some,
        edgeOf, bound.commitment, boundM7, header, heights, read]

/-- The header chain and the replay stay in step over the blocks that both accept, and the replay
reports the commitments of the transitions. -/
theorem replay_in_step (inStep : InStep parent replay)
    (parentAccepted : acceptParentBlocks params parent blocks = .ok transitions)
    (replayAccepted : acceptBlocks replay blocks = .ok results) :
    List.Forall₂ ReplayAgrees transitions results := by
  induction blocks generalizing parent replay transitions results with
  | nil =>
    cases parentAccepted
    cases replayAccepted
    exact .nil
  | cons bytes rest ih =>
    simp only [acceptParentBlocks, bind_eq_ok, pure_eq_ok] at parentAccepted
    simp only [acceptBlocks, bind_eq_ok, pure_eq_ok, Prod.exists] at replayAccepted
    obtain ⟨transition, taken, others, parentRest, rfl⟩ := parentAccepted
    obtain ⟨next, effects, applied, others', replayRest, rfl⟩ := replayAccepted
    have agrees := replay_step inStep taken applied
    exact .cons agrees (ih agrees.inStep parentRest replayRest)

/-- The replay of one block, as a step of a state. -/
def replayStep (state : ElementsSlot24ReplayState) (bytes : List UInt8) :
    Except (Fault ElementsSlot24ReplayError) ElementsSlot24ReplayState :=
  (applyMerkleBoundElementsSlot24ParentBlock state bytes).map Prod.fst

omit [Hashing] in
/-- The state after some results. -/
def replayTip (start : ElementsSlot24ReplayState)
    (results : List (ElementsSlot24ReplayState × ElementsSlot24BlockEffects)) :
    ElementsSlot24ReplayState :=
  (results.getLast?.map Prod.fst).getD start

/-- What a replayed block links to: its height, and zero or the block before it. -/
def replayLink (state : ElementsSlot24ReplayState) : UInt32 × BlockHash :=
  (state.nextHeight, if state.nextHeight = 0 then .zero 32 else state.tipHash)

/-- A replayed block is linked to the state before it. -/
theorem replayStep_ok {state next : ElementsSlot24ReplayState} {bytes : List UInt8}
    (stepped : replayStep state bytes = .ok next) :
    ∃ parsed, parseAndVerifyBlock bytes = .ok parsed ∧
      (replayLink state).2 = parsed.metadata.header.previousBlock ∧
      next.tipHash = parsed.metadata.blockHash ∧
      next.nextHeight.toNat = state.nextHeight.toNat + 1 := by
  cases applied : applyMerkleBoundElementsSlot24ParentBlock state bytes with
  | error error =>
    rw [replayStep, applied] at stepped
    cases stepped
  | ok result =>
    rw [replayStep, applied] at stepped
    obtain rfl : result.1 = next := Except.ok.inj stepped
    obtain ⟨parsed, accepted, behind⟩ := applyBlock_ok applied
    obtain ⟨messaged, observed, progress, step⟩ := applyParsedBlock_ok behind
    refine ⟨parsed, accepted, ?_, by rw [step.final], step.height⟩
    simp only [applyParsedBlock] at behind
    simp only [↓then_eq_ok, rejectIf_eq_ok, not_and, not_not] at behind
    unfold replayLink
    by_cases first : state.nextHeight = 0
    · rw [if_pos first, behind.2.1 first]
    · rw [if_neg first, behind.1 first]

/-- No coinbase of a list of blocks has the size of a pair of hashes. -/
def LongCoinbases (blocks : List (List UInt8)) : Prop :=
  ∀ bytes ∈ blocks, ∀ parsed, parseAndVerifyBlock bytes = .ok parsed →
    coinbaseSize parsed ≠ some 64

/-- The link of a state determines the block before it, and the link of the state before that. -/
theorem replayStep_determines (long : LongCoinbases blocks)
    (apart : Set.InjOn doubleSha256 { input | ∃ bytes ∈ blocks, HashedFor bytes input }) :
    TipsDetermine replayStep replayLink { bytes | bytes ∈ blocks } := by
  intro state other bytes bytes' next next' member member' stepped stepped' links
  obtain ⟨parsed, accepted, linked, tip, height⟩ := replayStep_ok stepped
  obtain ⟨parsed', accepted', linked', tip', height'⟩ := replayStep_ok stepped'
  have later : ∀ {later : ElementsSlot24ReplayState} {before : Nat},
      later.nextHeight.toNat = before + 1 → replayLink later = (later.nextHeight, later.tipHash) := by
    intro later before positive
    have nonzero : later.nextHeight ≠ 0 := by
      intro zero
      rw [zero] at positive
      cases positive
    rw [replayLink, if_neg nonzero]
  rw [later height, later height', Prod.mk.injEq] at links
  have pair : Set.InjOn doubleSha256 { input | HashedFor bytes input ∨ HashedFor bytes' input } := by
    refine Set.InjOn.mono ?_ apart
    rintro input (hashed | hashed)
    · exact ⟨bytes, member, hashed⟩
    · exact ⟨bytes', member', hashed⟩
  have same : bytes = bytes' := block_hash_names_block accepted accepted' pair
    (long bytes member parsed accepted) (long bytes' member' parsed' accepted')
    (by rw [← tip, ← tip', links.2])
  subst same
  have parts : parsed = parsed' := by
    rw [accepted', Except.ok.injEq] at accepted
    exact accepted.symm
  have heights : state.nextHeight = other.nextHeight := by
    rw [← UInt32.toNat_inj]
    rw [links.1] at height
    omega
  refine ⟨Prod.ext heights ?_, rfl⟩
  rw [linked, linked', parts]

/-- A list of replayed blocks is a run of single steps. -/
theorem acceptBlocks_reaches (accepted : acceptBlocks replay blocks = .ok results) :
    Reaches replayStep replay (blocks.zip (results.map Prod.fst)) (replayTip replay results) ∧
      results.length = blocks.length := by
  induction blocks generalizing replay results with
  | nil =>
    cases accepted
    exact ⟨.start, rfl⟩
  | cons bytes rest ih =>
    simp only [acceptBlocks, bind_eq_ok, pure_eq_ok, Prod.exists] at accepted
    obtain ⟨next, effects, applied, others, restAccepted, rfl⟩ := accepted
    obtain ⟨run, length⟩ := ih restAccepted
    have stepped : replayStep replay bytes = .ok next := by
      rw [replayStep, applied]
      rfl
    have last : replayTip replay ((next, effects) :: others) = replayTip next others := by
      rw [replayTip, replayTip, List.getLast?_cons]
      cases others.getLast? <;> rfl
    refine ⟨?_, by rw [List.length_cons, List.length_cons, length]⟩
    rw [last]
    exact (Reaches.single stepped).trans run

/-- Each replayed block adds one to the height. -/
theorem replayRun_height {log : List (List UInt8 × ElementsSlot24ReplayState)}
    {state : ElementsSlot24ReplayState} (run : Reaches replayStep replay log state) :
    state.nextHeight.toNat = replay.nextHeight.toNat + log.length := by
  induction run with
  | start => rfl
  | accept _ accepted ih =>
    obtain ⟨_, -, -, -, height⟩ := replayStep_ok accepted
    rw [height, ih, List.length_append]
    rfl

/-- Two replays from one state that end at one height with one tip applied the same blocks, with the
same states, deposits and edges. -/
theorem replay_tip_names_history {left right : List (List UInt8)}
    {leftResults rightResults : List (ElementsSlot24ReplayState × ElementsSlot24BlockEffects)}
    (leftAccepted : acceptBlocks replay left = .ok leftResults)
    (rightAccepted : acceptBlocks replay right = .ok rightResults)
    (long : LongCoinbases (left ++ right))
    (apart : Set.InjOn doubleSha256 { input | ∃ bytes ∈ left ++ right, HashedFor bytes input })
    (height : (replayTip replay leftResults).nextHeight = (replayTip replay rightResults).nextHeight)
    (tip : (replayTip replay leftResults).tipHash = (replayTip replay rightResults).tipHash) :
    left = right ∧ leftResults = rightResults := by
  obtain ⟨leftRun, leftLength⟩ := acceptBlocks_reaches leftAccepted
  obtain ⟨rightRun, rightLength⟩ := acceptBlocks_reaches rightAccepted
  have leftHeight := replayRun_height leftRun
  have rightHeight := replayRun_height rightRun
  have length : (left.zip (leftResults.map Prod.fst)).length =
      (right.zip (rightResults.map Prod.fst)).length := by
    rw [height] at leftHeight
    omega
  have links : replayLink (replayTip replay leftResults) =
      replayLink (replayTip replay rightResults) := by
    rw [replayLink, replayLink, height, tip]
  have logs := (Reaches.determined (replayStep_determines long apart) leftRun rightRun
    (fun _ member => List.mem_append_left _ (List.of_mem_zip member).1)
    (fun _ member => List.mem_append_right _ (List.of_mem_zip member).1) length links).1
  have same : left = right := by
    have firsts := congrArg (List.map Prod.fst) logs
    rwa [List.map_fst_zip (by rw [List.length_map, leftLength]),
      List.map_fst_zip (by rw [List.length_map, rightLength])] at firsts
  refine ⟨same, ?_⟩
  rw [same, rightAccepted, Except.ok.injEq] at leftAccepted
  exact leftAccepted.symm

end Replays

section Sample

/-- A coinbase with a commitment. -/
def committedCoinbase : Transaction where
  version := ⟨[1, 0, 0, 0], rfl⟩
  inputs := [⟨nullOutpoint, [1, 2], ⟨List.replicate 4 0xff, rfl⟩⟩]
  outputs := [⟨.zero 8, [0x6a, 0x25, 0xd1, 0x61, 0x73, 0x68, 24] ++ List.replicate 32 5⟩]
  witness := none
  lockTime := .zero 4

/-- A block of that coinbase. -/
def committedBlock : Block where
  header := ⟨[[1, 0, 0, 0], List.replicate 31 0, [1],
    beBytes 32 0x6ebd9ce357d762830b5c9d97b6ec03f7232511b2aaaa5a0af8d6aea9aba59759,
    [0x90, 0x01, 0, 0], [0xff, 0xff, 0x7f, 0x1f], [105, 0, 0, 0]].flatten, by decide⟩
  transactions := [committedCoinbase]

/-- The state of the header chain before the block. -/
def committedParent : HeaderChainState :=
  { easyStart with tip := { easyStart.tip with hash := .ofNat 32 1 } }

/-- The state of the replay before the block, in which the required proposal is active. -/
def committedReplay : ElementsSlot24ReplayState :=
  ⟨sampleConfig, 1, .ofNat 32 1, some sampleConfig.requiredProposalHash, some (0, .ofNat 32 1), ∅,
    none⟩

theorem committedCoinbase_valid : committedCoinbase.Valid where
  hasInput := by simp [committedCoinbase]
  hasOutput := by simp [committedCoinbase]
  coinbaseScript := by
    intro _ input member
    rw [committedCoinbase, List.mem_singleton] at member
    subst member
    decide
  noNull := fun other => absurd ⟨_, rfl, rfl⟩ other
  distinct := by decide
  values := by decide
  total := by decide
  witness := fun _ some => nomatch some

theorem committedBlock_valid : letI := sha256Hashing
    committedBlock.Valid := by
  let := sha256Hashing
  constructor
  · intro transaction member
    rw [committedBlock, List.mem_singleton] at member
    subst member
    exact committedCoinbase_valid
  · exact ⟨committedCoinbase, [], rfl, ⟨_, rfl, rfl⟩, by simp⟩
  · decide +kernel
  · decide +kernel
  · intro coinbase head
    obtain rfl : committedCoinbase = coinbase := Option.some.inj head
    have absent : witnessCommitmentOutput committedCoinbase.outputs = none := by decide
    constructor
    · intro _ transaction member
      rw [committedBlock, List.mem_singleton] at member
      rw [member]
      rfl
    · intro commitment found
      rw [absent] at found
      cases found

/-- Only the header and the coinbase are hashed for the block, and they do not collide. -/
theorem committedBlock_apart : letI := sha256Hashing
    Set.InjOn doubleSha256 { input | HashedFor committedBlock.serialize input } := by
  let := sha256Hashing
  have hashed : ∀ input, HashedFor committedBlock.serialize input →
      input = committedBlock.header.bytes ∨ input = committedCoinbase.stripped := by
    rintro input ⟨block, valid, same, hashed⟩
    obtain rfl := Block.serialize_inj committedBlock_valid valid same
    have alone : ∀ {hashes : List BlockHash} {pair : BlockHash × BlockHash},
        hashes.length = 1 → ¬HashedPair hashes pair := by
      intro hashes pair single found
      cases found with
      | here several _ => omega
      | above several _ => omega
    cases hashed with
    | header => exact Or.inl rfl
    | stripped member =>
      rw [committedBlock, List.mem_singleton] at member
      exact Or.inr (by rw [member])
    | full member =>
      rw [committedBlock, List.mem_singleton] at member
      exact Or.inr (by rw [member, Transaction.serialize_legacy rfl])
    | txidPair found => exact absurd found (alone rfl)
    | witnessPair found => exact absurd found (alone rfl)
    | commitment member stack =>
      rw [committedBlock, List.mem_singleton] at member
      rw [member] at stack
      cases stack
  have apart : doubleSha256 committedBlock.header.bytes ≠
      doubleSha256 committedCoinbase.stripped := by
    decide +kernel
  intro one oneHashed other otherHashed same
  rcases hashed one oneHashed with rfl | rfl <;> rcases hashed other otherHashed with rfl | rfl
  · rfl
  · exact absurd same apart
  · exact absurd same.symm apart
  · rfl

theorem committedBlocks_apart : letI := sha256Hashing
    Set.InjOn doubleSha256 { input | ∃ bytes ∈ [committedBlock.serialize] ++
      [committedBlock.serialize], HashedFor bytes input } := by
  let := sha256Hashing
  refine Set.InjOn.mono ?_ committedBlock_apart
  rintro input ⟨bytes, member, hashed⟩
  rw [List.mem_append, or_self, List.mem_singleton] at member
  exact member ▸ hashed

theorem committedBlock_accepted : letI := sha256Hashing
    ∃ parsed, parseAndVerifyBlock committedBlock.serialize = .ok parsed ∧
      coinbaseSize parsed ≠ some 64 := by
  let := sha256Hashing
  refine ⟨_, parseAndVerifyBlock_eq_ok.mpr ⟨_, _, committedBlock_valid, rfl, rfl, rfl⟩, ?_⟩
  decide +kernel

/-- The sample block is named by its hash. -/
theorem block_hash_names_block_sample : letI := sha256Hashing
    ∃ parsed, parseAndVerifyBlock committedBlock.serialize = .ok parsed ∧
      committedBlock.serialize = committedBlock.serialize := by
  let := sha256Hashing
  obtain ⟨parsed, accepted, long⟩ := committedBlock_accepted
  refine ⟨parsed, accepted, block_hash_names_block accepted accepted ?_ long long rfl⟩
  exact Set.InjOn.mono (fun _ hashed => or_self_iff.mp hashed) committedBlock_apart

/-- The transition and the replay accept the sample block. -/
theorem committedBlock_transitions : letI := sha256Hashing
    Succeeds (acceptParentBlocks easyParameters committedParent [committedBlock.serialize]) ∧
      Succeeds (acceptBlocks committedReplay [committedBlock.serialize]) := by
  constructor
  · decide +kernel
  · decide +kernel

/-- The run of the sample block is named by its tip. -/
theorem parent_tip_names_history_sample : letI := sha256Hashing
    ∃ transitions, acceptParentBlocks easyParameters committedParent [committedBlock.serialize] =
        .ok transitions ∧
      [committedBlock.serialize] = [committedBlock.serialize] ∧ transitions = transitions := by
  let := sha256Hashing
  obtain ⟨⟨transitions, accepted⟩, -⟩ := committedBlock_transitions
  exact ⟨transitions, accepted,
    parent_tip_names_history accepted accepted committedBlocks_apart rfl rfl⟩

/-- The replay reports the commitment of the sample block. -/
theorem replay_in_step_sample : letI := sha256Hashing
    ∃ transitions results, acceptParentBlocks easyParameters committedParent
        [committedBlock.serialize] = .ok transitions ∧
      acceptBlocks committedReplay [committedBlock.serialize] = .ok results ∧
      List.Forall₂ ReplayAgrees transitions results := by
  let := sha256Hashing
  obtain ⟨⟨transitions, accepted⟩, results, replayed⟩ := committedBlock_transitions
  exact ⟨transitions, results, accepted, replayed,
    replay_in_step ⟨rfl, rfl⟩ accepted replayed⟩

/-- The replay of the sample block is named by its tip. -/
theorem replay_tip_names_history_sample : letI := sha256Hashing
    ∃ results, acceptBlocks committedReplay [committedBlock.serialize] = .ok results ∧
      [committedBlock.serialize] = [committedBlock.serialize] ∧ results = results := by
  let := sha256Hashing
  obtain ⟨-, results, replayed⟩ := committedBlock_transitions
  obtain ⟨parsed, read, long⟩ := committedBlock_accepted
  have longCoinbases : LongCoinbases ([committedBlock.serialize] ++ [committedBlock.serialize]) := by
    intro bytes member parsed' read'
    rw [List.mem_append, or_self, List.mem_singleton] at member
    rw [member, read, Except.ok.injEq] at read'
    exact read' ▸ long
  exact ⟨results, replayed,
    replay_tip_names_history replayed replayed longCoinbases committedBlocks_apart rfl rfl⟩

end Sample

end Usdd.Verif

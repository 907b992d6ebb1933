import Usdd.BitcoinBmm.Bip300Answers
import Usdd.Verif.M7Readers
import Usdd.Verif.Treasury
/-!
# The replay answers every block

A block has room for at most 62,500 proposals, each in an output of at least 16 bytes, so the
proposals that are live at once stay below the bound of the replay although one block more than
the bound counts may contribute. With votes that stay below the larger threshold and a treasury
that follows the parsed values, every parsed block gets a verdict of its own.
-/
namespace Usdd.Verif

open Usdd.Foundation Usdd.Core Usdd.BitcoinBmm

section Sizes

/-- The most proposals that fit into the coinbase of a block. -/
def proposalsPerBlock : Nat := maxBlockBaseBytes / 16

/-- A push is at least two bytes shorter than its script. -/
theorem extractSingleOpReturnPush_length {script payload : List UInt8}
    (found : extractSingleOpReturnPush script = some payload) :
    payload.length + 2 ≤ script.length := by
  have starts : ∀ opcode rest payloadStart payloadLen,
      pushBounds opcode rest = some (payloadStart, payloadLen) → 2 ≤ payloadStart := by
    intro opcode rest payloadStart payloadLen bounds
    unfold pushBounds at bounds
    split at bounds
    · cases bounds
      exact Nat.le_refl _
    · repeat' split at bounds
      all_goals cases bounds <;> decide
  match script with
  | [] => cases found
  | [_] => cases found
  | first :: opcode :: rest =>
    simp only [extractSingleOpReturnPush] at found
    split at found
    · cases found
    · split at found
      · next payloadStart payloadLen bounds =>
        split at found
        · cases found
        · next whole =>
          have start := starts _ _ _ _ bounds
          rw [not_not] at whole
          rw [← Option.some.inj found, List.length_take]
          omega
      · cases found

/-- A proposal message has a script of at least seven bytes. -/
theorem proposal_script_length [Hashing] {script : List UInt8} {hash : Hash32}
    (message : parseSlot24ParentMessage script = some (.proposal hash)) : 7 ≤ script.length := by
  unfold parseSlot24ParentMessage at message
  split at message
  · cases message
  · next payload found =>
    have size := extractSingleOpReturnPush_length found
    split at message
    · cases message
    · next long =>
      rw [not_or] at long
      omega

/-- Each proposal of a coinbase takes at least 16 bytes. -/
theorem newHashes_mul_le [Hashing] (outputs : List ParsedOutput) :
    (newHashes (coinbaseMessages outputs)).length * 16 ≤
      (outputs.map fun output => output.script.length + minOutputBytes).sum := by
  induction outputs with
  | nil => exact Nat.le_refl _
  | cons output outputs ih =>
    rw [List.map_cons, List.sum_cons, coinbaseMessages, List.filterMap_cons]
    rw [coinbaseMessages] at ih
    cases message : parseSlot24ParentMessage output.script with
    | none =>
      simp only
      omega
    | some message' =>
      simp only [newHashes, List.filterMap_cons]
      rw [newHashes] at ih
      cases message' with
      | proposal hash =>
        have size := proposal_script_length message
        simp only [ParentMessage.newHash, List.length_cons, minOutputBytes] at ih ⊢
        omega
      | ack hash =>
        simp only [ParentMessage.newHash]
        omega

/-- An accepted block has at most that many proposals. -/
theorem newHashes_length_le [Hashing] {bytes : List UInt8} {parsed : ParsedBlock}
    (accepted : parseAndVerifyBlock bytes = .ok parsed) :
    (newHashes (coinbaseMessages parsed.coinbase.outputs)).length ≤ proposalsPerBlock := by
  rw [proposalsPerBlock, Nat.le_div_iff_mul_le (by decide)]
  exact Nat.le_trans (newHashes_mul_le _) (coinbaseScripts_sum_le accepted)

/-- The bound of the replay leaves room for the proposals of one block more than it counts. -/
theorem proposalsPerBlock_le {age : Nat} (positive : 0 < age) :
    proposalsPerBlock * (age + 1) + proposalsPerBlock ≤ maxCoinbaseOutputs * (age + 1) := by
  have block : proposalsPerBlock = 62500 := by decide
  have outputs : maxCoinbaseOutputs = 111111 := by decide
  rw [block, outputs]
  omega

/-- The transactions of an accepted block are movable, and their outputs hold money there is. -/
theorem transactions_movable [Hashing] {bytes : List UInt8} {parsed : ParsedBlock}
    (accepted : parseAndVerifyBlock bytes = .ok parsed) :
    parsed.transactions.length ≤ maxTransactions ∧
    ∀ transaction ∈ parsed.transactions.drop 1, Movable transaction ∧
      ∀ output ∈ transaction.outputs, output.satoshis ≤ maxMoneySatoshis := by
  obtain ⟨coinbase, others, parts, -, -, facts, regular, count⟩ := parseAndVerifyBlock_parts accepted
  rw [parts]
  refine ⟨by simpa using count, ?_⟩
  intro transaction member
  rw [List.drop_one, List.tail_cons, List.mem_map] at member
  obtain ⟨other, there, rfl⟩ := member
  obtain ⟨valid, limits, -⟩ := facts other (List.mem_cons_of_mem _ there)
  have few : maxCoinbaseOutputs < 2 ^ 32 := by decide
  refine ⟨⟨?_, Nat.lt_of_le_of_lt limits.outputCount few⟩, valid.values⟩
  have sorted : other.parsed.inputs = sortOutpoints (other.inputs.map (·.outpoint)) :=
    if_neg (regular other there)
  rw [sorted]
  exact (List.mergeSort_perm _ _).nodup_iff.mpr valid.distinct

end Sizes

section States

variable [Hashing]

/-- What keeps the replay from being wedged: a sound state, votes below the larger threshold, and
no more proposals of one height than fit into a block. -/
structure Uncrowded (state : ElementsSlot24ReplayState) : Prop where
  sound : SoundState state
  votes : VotesBounded state
  crowd : ∀ height, (createdAt state.pendingProposals height).card ≤ proposalsPerBlock

omit [Hashing] in
/-- An uncrowded state has room for the proposals of one more block. -/
theorem Uncrowded.room {state : ElementsSlot24ReplayState} (uncrowded : Uncrowded state) :
    state.pendingProposals.entries.length + proposalsPerBlock ≤
      state.config.maximumPendingProposals := by
  have few : state.pendingProposals.entries.length ≤
      proposalsPerBlock * (state.config.anyMaxAge + 1) := by
    refine pending_length_le (state.nextHeight.toNat - 1) ?_ uncrowded.crowd
    intro hash proposal live
    obtain ⟨-, live'⟩ := uncrowded.sound.proposals hash proposal live
    have young := Nat.not_lt.mp (not_or.mp live'.fresh).1
    exact ⟨live'.past, Nat.le_trans young (maxAge_le_anyMaxAge _)⟩
  have positive := (ElementsSlot24ReplayConfig.validate_bounds uncrowded.sound.config).1
  exact Nat.le_trans (Nat.add_le_add_right few _) (proposalsPerBlock_le positive)

variable {before messaged : ElementsSlot24ReplayState} {parsed : ParsedBlock}
  {messages : List ParentMessage} {blockHash : BlockHash}

omit [Hashing] in
/-- The messages of a block keep the votes below the larger threshold. -/
theorem messaged_votesBounded (bounded : VotesBounded before)
    (done : Messaged before before.nextHeight blockHash messages messaged) :
    VotesBounded messaged := by
  intro hash proposal live
  rw [done.config]
  exact (done.pending hash proposal live).1.votes_le bounded

omit [Hashing] in
/-- The messages of a block create at most its proposals at its height, and none at another. -/
theorem messaged_crowd (sound : SoundState before)
    (done : Messaged before before.nextHeight blockHash messages messaged)
    (few : (newHashes messages).length ≤ proposalsPerBlock)
    (crowd : ∀ height, (createdAt before.pendingProposals height).card ≤ proposalsPerBlock)
    (height : Nat) : (createdAt messaged.pendingProposals height).card ≤ proposalsPerBlock := by
  have earlier : ∀ hash proposal, before.pendingProposals.lookup hash = some proposal →
      proposal.proposalHeight.toNat < before.nextHeight.toNat := by
    intro hash proposal live
    obtain ⟨later, live'⟩ := sound.proposals hash proposal live
    have positive : before.nextHeight.toNat ≠ 0 := fun zero => later (UInt32.toNat_inj.mp zero)
    have past := live'.past
    omega
  by_cases now : height = before.nextHeight.toNat
  · have inside : createdAt messaged.pendingProposals height ⊆ (newHashes messages).toFinset := by
      intro hash member
      obtain ⟨proposal, live, same⟩ := mem_createdAt.mp member
      rw [List.mem_toFinset, mem_newHashes]
      cases (done.pending hash proposal live).1 with
      | created member' _ => exact member'
      | kept old =>
        have past := earlier hash proposal old
        omega
      | voted old _ votes _ =>
        have past := earlier hash old votes.live
        rw [votes.height] at same
        omega
    exact Nat.le_trans (Finset.card_le_card inside)
      (Nat.le_trans (List.toFinset_card_le _) few)
  · refine Nat.le_trans (Finset.card_le_card fun hash member => ?_) (crowd height)
    obtain ⟨proposal, live, same⟩ := mem_createdAt.mp member
    cases (done.pending hash proposal live).1 with
    | created _ made =>
      rw [made] at same
      exact absurd same.symm now
    | kept old => exact mem_createdAt.mpr ⟨proposal, old, same⟩
    | voted old _ votes _ => exact mem_createdAt.mpr ⟨old, votes.live, votes.height ▸ same⟩

/-- The states of a run are uncrowded. -/
theorem acceptBlocks_uncrowded {config : ElementsSlot24ReplayConfig}
    {start : ElementsSlot24ReplayState} {blocks : List (List UInt8)}
    {results : List (ElementsSlot24ReplayState × ElementsSlot24BlockEffects)}
    (begun : ElementsSlot24ReplayState.beforeParentGenesis config = .ok start)
    (accepted : acceptBlocks start blocks = .ok results) {count : Nat}
    {state : ElementsSlot24ReplayState} (here : stateAt start results count = some state) :
    Uncrowded state := by
  induction count generalizing state with
  | zero =>
    cases here
    have empty : start.pendingProposals = ∅ := by
      simp only [ElementsSlot24ReplayState.beforeParentGenesis, then_eq_ok, pure_eq_ok] at begun
      obtain ⟨-, rfl⟩ := begun
      rfl
    refine ⟨beforeParentGenesis_sound begun, ?_, ?_⟩
    · intro hash proposal live
      rw [empty, AList.lookup_empty] at live
      cases live
    · intro height
      rw [empty]
      exact Nat.zero_le _
  | succ count ih =>
    obtain ⟨effects, found⟩ := stateAt_succ.mp here
    obtain ⟨bytes, before, -, earlier, parsed, messaged, observed, progress, step⟩ :=
      acceptBlocks_step accepted found
    have uncrowded := ih earlier
    obtain ⟨valid, past⟩ := step.valid
    have few : (newHashes (blockMessages bytes)).length ≤ proposalsPerBlock := by
      rw [blockMessages, step.accepted]
      exact newHashes_length_le step.accepted
    refine ⟨((validate_eq_ok past).mp valid).1, ?_, ?_⟩
    · have bounded := messaged_votesBounded uncrowded.votes step.messages
      rw [step.applied.final]
      exact bounded
    · have crowd := messaged_crowd uncrowded.sound step.messages few uncrowded.crowd
      rw [step.applied.final]
      exact crowd

end States

section Answers

variable [Hashing]

/-- No hash of a block that the replay stores is zero. -/
def NonzeroHashes (parsed : ParsedBlock) : Prop :=
  parsed.metadata.blockHash ≠ .zero 32 ∧
    (∀ transaction ∈ parsed.transactions, transaction.txid ≠ .zero 32) ∧
    ∀ message ∈ coinbaseMessages parsed.coinbase.outputs, message ≠ .proposal .zero

instance (parsed : ParsedBlock) : Decidable (NonzeroHashes parsed) :=
  inferInstanceAs (Decidable (_ ∧ _ ∧ _))

variable {bytes : List UInt8} {parsed : ParsedBlock}
  {before messaged : ElementsSlot24ReplayState} {observed : Option ObservedM7}
  {progress : TransactionProgress} {nextHeight : UInt32}

/-- The treasury output a block leaves has a nonzero transaction and holds money there is. -/
theorem treasury_next (sound : SoundState before) (read : parseAndVerifyBlock bytes = .ok parsed)
    (nonzero : NonzeroHashes parsed) (same : messaged.ctip = before.ctip)
    {context : TransactionContext}
    (moved : applyTransactions context ⟨messaged.ctip, [], 0⟩ (parsed.transactions.drop 1) =
      .ok progress) {ctip : Slot24Ctip} (held : progress.ctip = some ctip) :
    ctip.txid ≠ .zero 32 ∧ ctip.valueSat ≠ 0 ∧ ctip.valueSat ≤ maxMoneySatoshis := by
  obtain ⟨raises, inside, sound', chain, -⟩ := applyTransactions_chain moved
  rcases chain.final_eq with kept | ⟨raise, member, made⟩
  · rw [held, same] at kept
    exact sound.treasury ctip kept.symm
  · rw [held, Option.some.injEq] at made
    subst made
    have raised := sound' raise member
    have there : raise.transaction ∈ parsed.transactions.drop 1 :=
      inside.subset (List.mem_map_of_mem member)
    have single : (raise.created.vout.toNat, raise.created.valueSat) ∈
        treasuryOutputs 0 raise.transaction.outputs := by
      rw [raised.single]
      exact List.mem_singleton_self _
    obtain ⟨-, output, inOutputs, value⟩ := mem_treasuryOutputs single
    have money := ((transactions_movable read).2 raise.transaction there).2 output inOutputs
    refine ⟨?_, Nat.ne_of_gt (Nat.lt_of_le_of_lt (Nat.zero_le _) raised.larger), ?_⟩
    · rw [raised.outpoint]
      exact nonzero.2.1 _ (List.mem_of_mem_drop there)
    · simp only at value
      exact value ▸ money

/-- The messages of a block keep the active proposal and the recorded activation together. -/
theorem required_next (sound : SoundState before)
    (done : Messaged before before.nextHeight parsed.metadata.blockHash
      (coinbaseMessages parsed.coinbase.outputs) messaged) :
    messaged.activeProposalHash = some messaged.config.requiredProposalHash ↔
      messaged.requiredActivation.isSome := by
  rw [done.config]
  rcases done.active with ⟨active, required⟩ | ⟨hash, activates⟩
  · rw [active, required]
    exact sound.required
  · rw [activates.active, activates.required, Option.some.injEq]
    cases recorded : before.requiredActivation with
    | none =>
      by_cases same : hash = before.config.requiredProposalHash
      · simp [same]
      · simp [same]
    | some activation =>
      have same := activates.kept (by rw [recorded]; rfl)
      simp [same]

/-- A block that went through its messages and its transactions leaves a sound state. -/
theorem soundState_next (uncrowded : Uncrowded before)
    (read : parseAndVerifyBlock bytes = .ok parsed) (nonzero : NonzeroHashes parsed)
    (done : Messaged before before.nextHeight parsed.metadata.blockHash
      (coinbaseMessages parsed.coinbase.outputs) messaged)
    (moved : applyTransactions
      (transactionContext messaged parsed before.nextHeight observed) ⟨messaged.ctip, [], 0⟩
        (parsed.transactions.drop 1) = .ok progress)
    (counted : nextHeight.toNat = before.nextHeight.toNat + 1) :
    SoundState { messaged with
      ctip := progress.ctip
      tipHash := parsed.metadata.blockHash
      nextHeight } := by
  have sound := uncrowded.sound
  have valid : messaged.config.validate = .ok () := done.config ▸ sound.config
  have tip : nextHeight.toNat - 1 = before.nextHeight.toNat := by omega
  have required := required_next sound done
  refine ⟨valid, ?_, ?_, required, ?_, ?_, ?_⟩
  · have few : messaged.pendingProposals.entries.length ≤
        proposalsPerBlock * (messaged.config.anyMaxAge + 1) := by
      refine pending_length_le before.nextHeight.toNat ?_
        (messaged_crowd sound done (newHashes_length_le read) uncrowded.crowd)
      intro hash proposal live
      obtain ⟨-, past, -, fresh⟩ := done.pending hash proposal live
      have young := Nat.not_lt.mp (not_or.mp fresh).1
      exact ⟨past, Nat.le_trans young (maxAge_le_anyMaxAge _)⟩
    have positive := (ElementsSlot24ReplayConfig.validate_bounds valid).1
    have room := proposalsPerBlock_le positive
    exact Nat.le_trans few (by
      rw [ElementsSlot24ReplayConfig.maximumPendingProposals]
      exact Nat.le_trans (Nat.le_add_right _ _) room)
  · intro inactive
    simp only at inactive
    have unused : (transactionContext messaged parsed before.nextHeight observed).slotIsUsed =
        false := by
      rw [transactionContext, inactive]
      rfl
    have idle : before.activeProposalHash = none := by
      rcases done.active with ⟨active, -⟩ | ⟨hash, activates⟩
      · rw [← active, inactive]
      · rw [activates.active] at inactive
        cases inactive
    rw [applyTransactions_unused unused moved, done.ctip]
    exact sound.idle idle
  · intro height hash recorded
    simp only at recorded
    have known : before.requiredActivation = some (height, hash) ∨
        (height, hash) = (before.nextHeight, parsed.metadata.blockHash) := by
      rcases done.active with ⟨-, required⟩ | ⟨voted, activates⟩
      · exact .inl (required ▸ recorded)
      · rw [activates.required] at recorded
        split at recorded
        · exact .inr (Option.some.inj recorded).symm
        · exact .inl recorded
    have grows : before.nextHeight < nextHeight := UInt32.lt_iff_toNat_lt.mpr (by omega)
    rcases known with old | new
    · obtain ⟨earlier, named⟩ := sound.activation height hash old
      exact ⟨UInt32.lt_trans earlier grows, named⟩
    · rw [Prod.mk.injEq] at new
      rw [new.1, new.2]
      exact ⟨grows, nonzero.1⟩
  · intro ctip held
    exact treasury_next sound read nonzero done.ctip moved held
  · intro hash proposal live
    obtain ⟨origin, past, few, fresh⟩ := done.pending hash proposal live
    have later : nextHeight ≠ 0 := by
      rintro rfl
      exact absurd counted.symm (Nat.succ_ne_zero _)
    have named : hash ≠ .zero ∧ hash = proposal.proposalHash := by
      cases origin with
      | created member made =>
        rw [made]
        refine ⟨?_, rfl⟩
        rintro rfl
        exact nonzero.2.2 _ member rfl
      | kept old =>
        obtain ⟨-, live'⟩ := sound.proposals hash proposal old
        exact ⟨live'.nonzero, live'.own⟩
      | voted old _ votes _ =>
        obtain ⟨-, live'⟩ := sound.proposals hash old votes.live
        exact ⟨live'.nonzero, live'.own.trans votes.hash.symm⟩
    refine ⟨later, ?_⟩
    simp only [tip]
    exact ⟨past, few, named.1, named.2, fresh⟩

/-- An uncrowded state gives every parsed block a verdict. -/
theorem applyParsedBlock_answers (uncrowded : Uncrowded before)
    (read : parseAndVerifyBlock bytes = .ok parsed) (nonzero : NonzeroHashes parsed) :
    FailsWith Verdict (applyParsedBlock before parsed) := by
  have sound := uncrowded.sound
  have room := uncrowded.room
  have few := newHashes_length_le read
  have readers := readersAgree read
  obtain ⟨count, movable⟩ := transactions_movable read
  have limit : maxTransactions < 2 ^ 32 := by decide
  have verdict : ∀ error : ElementsSlot24ReplayError, error ∉ internalErrors →
      Verdict (.error error) := fun _ outside => outside
  simp only [applyParsedBlock]
  refine .bind (.rejectIf (verdict _ (by decide))) fun _ _ =>
    .bind (.rejectIf (verdict _ (by decide))) fun _ _ =>
    .bind (failsWith_orError (applyCoinbaseMessages_answers sound uncrowded.votes (by omega)))
      fun messaged messages => .bind (failsWith_orError ?_) fun observed seen => .bind ?_
      fun progress moved => .bind (.rejectIf (verdict _ (by decide))) fun _ _ =>
      .bind (.okOr (verdict _ (by decide))) fun nextHeight counted =>
      .bind (failsWith_orError ?_) fun _ _ => .ok _
  · intro error failed
    have unindexed := readers.indexed.2
    unfold observeSlot24M7 at failed unindexed
    have outputs : parsed.coinbase.outputs.length ≤ 2 ^ 32 := by
      have within := (coinbaseScripts_within read).1
      have bound : maxCoinbaseOutputs ≤ 2 ^ 32 := by decide
      rw [coinbaseScripts, List.length_map] at within
      omega
    rw [observeOutputs_eq _ _ _ (by omega)] at failed
    split at failed
    · cases failed
    · cases failed
    · cases failed
      decide
  · refine applyTransactions_answers (fun transaction member => (movable transaction member).1) ?_
    simp only [List.length_drop]
    omega
  · rw [orError_eq_ok] at messages
    rw [okOr_eq_ok, checkedSucc_eq_some] at counted
    have next := soundState_next uncrowded read nonzero (applyCoinbaseMessages_ok messages) moved
      counted.symm
    have later : nextHeight ≠ 0 := by
      rintro rfl
      exact absurd counted (Nat.succ_ne_zero _)
    rw [(validate_eq_ok later).mpr ⟨next, nonzero.1⟩]
    exact .ok _

end Answers

/-- The replay is never wedged: in every state of a run from a valid configuration, every parsed
block without zero hashes is accepted or refused with a verdict of its own, never with an
internal error and never with a panic. -/
theorem replay_answers [Hashing] (requiredProposalHash : Hash32)
    (unusedProposalMaxAge unusedActivationThreshold usedProposalMaxAge
      usedActivationThreshold : UInt16) (config : ElementsSlot24ReplayConfig)
    (made : ElementsSlot24ReplayConfig.fromManifestBoundIdentity requiredProposalHash
      unusedProposalMaxAge unusedActivationThreshold usedProposalMaxAge usedActivationThreshold =
        .ok config) :
    ∃ start, ElementsSlot24ReplayState.beforeParentGenesis config = .ok start ∧
      ∀ blocks results, acceptBlocks start blocks = .ok results →
        ∀ count state, stateAt start results count = some state →
          ∀ bytes parsed, parseAndVerifyBlock bytes = .ok parsed → NonzeroHashes parsed →
            FailsWith Verdict (applyMerkleBoundElementsSlot24ParentBlock state bytes) := by
  simp only [ElementsSlot24ReplayConfig.fromManifestBoundIdentity, then_eq_ok, pure_eq_ok] at made
  obtain ⟨valid, rfl⟩ := made
  obtain ⟨start, begun⟩ := beforeParentGenesis_of_valid valid
  refine ⟨start, begun, ?_⟩
  intro blocks results accepted count state here bytes parsed read nonzero
  have valid : state.validate = .ok () := by
    cases count with
    | zero =>
      cases here
      exact beforeParentGenesis_valid begun
    | succ count =>
      obtain ⟨effects, found⟩ := stateAt_succ.mp here
      obtain ⟨_, _, -, -, _, _, _, _, step⟩ := acceptBlocks_step accepted found
      exact step.valid.1
  rw [applyMerkleBoundElementsSlot24ParentBlock, valid, read]
  exact .bind (.ok _) fun _ _ => .bind (.ok _) fun _ same => by
    cases same
    exact applyParsedBlock_answers (acceptBlocks_uncrowded begun accepted here) read nonzero

/-- Whether a computation returns a value with a property can be computed. -/
theorem exists_ok_of_any {ε α : Type} {computation : Except ε α} {property : α → Prop}
    [DecidablePred property]
    (checked : (computation.toOption.any fun value => property value) = true) :
    ∃ value, computation = .ok value ∧ property value := by
  cases computation with
  | ok value => exact ⟨value, rfl, of_decide_eq_true checked⟩
  | error _ => cases checked

/-- The activating block of the sample run has no zero hash. -/
theorem activatingBlock_nonzero :
    letI := sha256Hashing
    ∃ parsed, parseAndVerifyBlock activatingBlock = .ok parsed ∧ NonzeroHashes parsed := by
  let hashing := sha256Hashing
  exact exists_ok_of_any (by decide +kernel)

/-- The activating block gets a verdict in every state of the sample run. -/
theorem replay_answers_sample :
    letI := sha256Hashing
    ∃ results, acceptBlocks sampleStart sampleBlocks = .ok results ∧
      ∀ count state, stateAt sampleStart results count = some state →
        FailsWith Verdict (applyMerkleBoundElementsSlot24ParentBlock state activatingBlock) := by
  let hashing := sha256Hashing
  obtain ⟨results, accepted⟩ := sampleRun_accepted
  obtain ⟨parsed, read, nonzero⟩ := activatingBlock_nonzero
  obtain ⟨start, begun, answers⟩ := replay_answers sampleConfig.requiredProposalHash 2 1 2 1
    sampleConfig (by decide)
  rw [sampleStart_begun, Except.ok.injEq] at begun
  subst begun
  exact ⟨results, accepted, fun count state here =>
    answers sampleBlocks results accepted count state here activatingBlock parsed read nonzero⟩

end Usdd.Verif

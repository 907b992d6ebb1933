import Usdd.BitcoinBmm.Bip300Laws
/-!
# What the coinbase messages of one block do

One message creates a proposal, votes for one that was live before the block, or does nothing;
the only vote of a block may activate its proposal. The invariant of the loop says so of the
messages processed so far, and aging afterwards only removes proposals.
-/
namespace Usdd.BitcoinBmm

open Usdd.Foundation Usdd.Core

/-- The hash an ACK names. -/
def ParentMessage.ackHash : ParentMessage → Option Hash32
  | .ack hash => some hash
  | .proposal _ => none

/-- The hash a proposal message has. -/
def ParentMessage.newHash : ParentMessage → Option Hash32
  | .proposal hash => some hash
  | .ack _ => none

/-- The hashes the ACKs among messages name. -/
def acks (messages : List ParentMessage) : List Hash32 := messages.filterMap ParentMessage.ackHash

/-- The hashes of the proposal messages among messages. -/
def newHashes (messages : List ParentMessage) : List Hash32 :=
  messages.filterMap ParentMessage.newHash

theorem mem_newHashes {messages : List ParentMessage} {hash : Hash32} :
    hash ∈ newHashes messages ↔ .proposal hash ∈ messages := by
  rw [newHashes, List.mem_filterMap]
  constructor
  · rintro ⟨message, member, same⟩
    cases message with
    | proposal other =>
      cases same
      exact member
    | ack other => cases same
  · intro member
    exact ⟨_, member, rfl⟩

/-- A vote for a proposal that was live before the block. -/
structure Votes (start : ElementsSlot24ReplayState) (hash : Hash32)
    (old new : PendingSlot24Proposal) : Prop where
  live : start.pendingProposals.lookup hash = some old
  hash : new.proposalHash = old.proposalHash
  height : new.proposalHeight = old.proposalHeight
  counted : new.votes.toNat = old.votes.toNat + 1

/-- Where a live proposal of a block comes from: it was created by a message of the block, was
live before, or was live and got the block's vote without reaching the threshold. -/
inductive Origin (start : ElementsSlot24ReplayState) (height : UInt32)
    (messages : List ParentMessage) (hash : Hash32) (proposal : PendingSlot24Proposal) : Prop
  | created : .proposal hash ∈ messages → proposal = ⟨hash, height, 0⟩ →
      Origin start height messages hash proposal
  | kept : start.pendingProposals.lookup hash = some proposal →
      Origin start height messages hash proposal
  | voted (old : PendingSlot24Proposal) : acks messages = [hash] →
      Votes start hash old proposal →
      proposal.votes.toNat ≤ start.config.activationThreshold start.activeProposalHash.isSome →
      Origin start height messages hash proposal

/-- The vote of a block that activates its proposal. -/
structure Activates (start : ElementsSlot24ReplayState) (height : UInt32) (blockHash : BlockHash)
    (messages : List ParentMessage) (hash : Hash32) (next : ElementsSlot24ReplayState) : Prop where
  only : acks messages = [hash]
  enough : ∃ old new, Votes start hash old new ∧
    start.config.activationThreshold start.activeProposalHash.isSome < new.votes.toNat
  active : next.activeProposalHash = some hash
  kept : start.requiredActivation.isSome → hash = start.config.requiredProposalHash
  required : next.requiredActivation =
    if start.requiredActivation = none ∧ hash = start.config.requiredProposalHash then
      some (height, blockHash)
    else start.requiredActivation

/-- What the messages of a block have done so far. -/
structure MessageInvariant (start : ElementsSlot24ReplayState) (height : UInt32)
    (blockHash : BlockHash) (processed : List ParentMessage) (progress : MessageProgress) :
    Prop where
  config : progress.state.config = start.config
  nextHeight : progress.state.nextHeight = start.nextHeight
  ctip : progress.state.ctip = start.ctip
  acked : (acks processed = [] ∧ progress.sawAck = false) ∨
    ∃ hash, acks processed = [hash] ∧ progress.sawAck = true
  created : ∀ hash ∈ progress.createdInBlock, .proposal hash ∈ processed
  untouched : progress.sawAck = false → ∀ hash, hash ∉ progress.createdInBlock →
    progress.state.pendingProposals.lookup hash = start.pendingProposals.lookup hash
  unvoted : progress.sawAck = false →
    progress.state.activeProposalHash = start.activeProposalHash ∧
    progress.state.requiredActivation = start.requiredActivation
  active : (progress.state.activeProposalHash = start.activeProposalHash ∧
      progress.state.requiredActivation = start.requiredActivation) ∨
    ∃ hash, Activates start height blockHash processed hash progress.state
  pending : ∀ hash proposal, progress.state.pendingProposals.lookup hash = some proposal →
    Origin start height processed hash proposal

section Steps

variable {start : ElementsSlot24ReplayState} {height : UInt32} {blockHash : BlockHash}
  {processed : List ParentMessage} {progress next : MessageProgress}

theorem acks_snoc_proposal (messages : List ParentMessage) (hash : Hash32) :
    acks (messages ++ [.proposal hash]) = acks messages := by
  simp [acks, List.filterMap_append, ParentMessage.ackHash]

theorem acks_snoc_ack (messages : List ParentMessage) (hash : Hash32) :
    acks (messages ++ [.ack hash]) = acks messages ++ [hash] := by
  simp [acks, List.filterMap_append, ParentMessage.ackHash]

/-- A proposal message keeps the origins of the proposals before it. -/
theorem Origin.snoc_proposal {hash other : Hash32} {proposal : PendingSlot24Proposal}
    (origin : Origin start height processed other proposal) :
    Origin start height (processed ++ [.proposal hash]) other proposal := by
  cases origin with
  | created member made => exact .created (List.mem_append_left _ member) made
  | kept live => exact .kept live
  | voted old only votes few => exact .voted old (by rw [acks_snoc_proposal, only]) votes few

theorem Activates.snoc_proposal (hash : Hash32) {other : Hash32} {state : ElementsSlot24ReplayState}
    (activates : Activates start height blockHash processed other state) :
    Activates start height blockHash (processed ++ [.proposal hash]) other state :=
  ⟨by rw [acks_snoc_proposal, activates.only], activates.enough, activates.active, activates.kept,
    activates.required⟩

/-- Before any ACK an origin does not depend on the ACKs, so one more message keeps it. -/
theorem Origin.snoc_ack {hash other : Hash32} {proposal : PendingSlot24Proposal}
    (origin : Origin start height processed other proposal) (unacked : acks processed = []) :
    Origin start height (processed ++ [.ack hash]) other proposal := by
  cases origin with
  | created member made => exact .created (List.mem_append_left _ member) made
  | kept live => exact .kept live
  | voted old only => simp [unacked] at only

/-- A proposal message keeps the invariant. -/
theorem applyProposal_invariant {hash : Hash32}
    (invariant : MessageInvariant start height blockHash processed progress)
    (applied : applyProposal height progress hash = .ok next) :
    MessageInvariant start height blockHash (processed ++ [.proposal hash]) next := by
  have active : ∀ {state : ElementsSlot24ReplayState},
      state.activeProposalHash = progress.state.activeProposalHash →
      state.requiredActivation = progress.state.requiredActivation →
      (state.activeProposalHash = start.activeProposalHash ∧
        state.requiredActivation = start.requiredActivation) ∨
      ∃ other, Activates start height blockHash (processed ++ [.proposal hash]) other state := by
    intro state sameActive sameRequired
    rcases invariant.active with same | ⟨other, activates⟩
    · rw [sameActive, sameRequired]
      exact .inl same
    · refine .inr ⟨other, ?_⟩
      have shown := activates.snoc_proposal hash
      exact ⟨shown.only, shown.enough, sameActive.trans shown.active, shown.kept,
        sameRequired.trans shown.required⟩
  simp only [applyProposal] at applied
  simp only [↓then_eq_ok, rejectIf_eq_ok] at applied
  obtain ⟨-, applied⟩ := applied
  split at applied
  · cases applied
    refine ⟨invariant.config, invariant.nextHeight, invariant.ctip, ?_, ?_, invariant.untouched,
      invariant.unvoted, active rfl rfl, ?_⟩
    · rw [acks_snoc_proposal]
      exact invariant.acked
    · intro other member
      exact List.mem_append_left _ (invariant.created other member)
    · intro other proposal live
      exact (invariant.pending other proposal live).snoc_proposal
  · simp only [↓then_eq_ok, rejectIf_eq_ok, pure_eq_ok] at applied
    obtain ⟨-, rfl⟩ := applied
    refine ⟨invariant.config, invariant.nextHeight, invariant.ctip, ?_, ?_, ?_, invariant.unvoted,
      active rfl rfl, ?_⟩
    · rw [acks_snoc_proposal]
      exact invariant.acked
    · intro other member
      rcases List.mem_cons.mp member with rfl | earlier
      · simp
      · exact List.mem_append_left _ (invariant.created other earlier)
    · intro unacked other absent
      have apart := not_or.mp (List.mem_cons.not.mp absent)
      rw [AList.lookup_insert_ne apart.1]
      exact invariant.untouched unacked other apart.2
    · intro other proposal live
      by_cases same : other = hash
      · subst same
        rw [AList.lookup_insert, Option.some.injEq] at live
        exact .created (by simp) live.symm
      · rw [AList.lookup_insert_ne same] at live
        exact (invariant.pending other proposal live).snoc_proposal

theorem checkedVote_eq_some {votes more : UInt16} :
    checkedVote votes = some more ↔ votes.toNat + 1 = more.toNat := by
  unfold checkedVote
  have fits := more.toNat_lt
  split
  · next room =>
    have sum : (votes + 1).toNat = votes.toNat + 1 := by
      rw [UInt16.toNat_add]
      exact Nat.mod_eq_of_lt room
    rw [Option.some.injEq, ← UInt16.toNat_inj, sum]
  · next room =>
    constructor
    · intro none
      cases none
    · intro same
      omega

/-- The proposals that were live keep their origin when a vote changes only its own entry. -/
theorem Origin.others {hash other : Hash32} {proposal : PendingSlot24Proposal}
    {pending : PendingProposals}
    (all : ∀ hash proposal, pending.lookup hash = some proposal →
      Origin start height processed hash proposal) (unacked : acks processed = [])
    (live : pending.lookup other = some proposal) :
    Origin start height (processed ++ [.ack hash]) other proposal :=
  (all other proposal live).snoc_ack unacked

/-- An ACK keeps the invariant. -/
theorem applyAck_invariant {hash : Hash32}
    (invariant : MessageInvariant start height blockHash processed progress)
    (applied : applyAck height blockHash progress hash = .ok next) :
    MessageInvariant start height blockHash (processed ++ [.ack hash]) next := by
  simp only [applyAck] at applied
  simp only [↓then_eq_ok, rejectIf_eq_ok, Bool.not_eq_true] at applied
  obtain ⟨first, applied⟩ := applied
  have unacked : acks processed = [] := by
    rcases invariant.acked with ⟨none, -⟩ | ⟨_, -, saw⟩
    · exact none
    · simp [first] at saw
  have only : acks (processed ++ [.ack hash]) = [hash] := by rw [acks_snoc_ack, unacked]; rfl
  obtain ⟨sameActive, sameRequired⟩ := invariant.unvoted first
  have created : ∀ other ∈ progress.createdInBlock,
      .proposal other ∈ processed ++ [.ack hash] := fun other member =>
    List.mem_append_left _ (invariant.created other member)
  have ignored : MessageInvariant start height blockHash (processed ++ [.ack hash])
      { progress with sawAck := true } :=
    ⟨invariant.config, invariant.nextHeight, invariant.ctip, .inr ⟨hash, only, rfl⟩, created,
      by simp, by simp, .inl ⟨sameActive, sameRequired⟩,
      fun other proposal live => Origin.others invariant.pending unacked live⟩
  split at applied
  · cases applied
    exact ignored
  · next old =>
    split at applied
    · cases applied
      exact ignored
    · next proposal found =>
      have live : start.pendingProposals.lookup hash = some proposal := by
        rw [← invariant.untouched first hash old]
        exact found
      simp only [bind_eq_ok, pure_eq_ok, applyVote, okOr_eq_ok, checkedVote_eq_some] at applied
      obtain ⟨state, ⟨votes, counted, voted⟩, rfl⟩ := applied
      have votes' : Votes start hash proposal { proposal with votes } :=
        ⟨live, rfl, rfl, counted.symm⟩
      rw [invariant.config, sameActive] at voted
      split at voted
      · next enough =>
        simp only [activate] at voted
        simp only [↓then_eq_ok, rejectIf_eq_ok, pure_eq_ok, not_and, not_not] at voted
        obtain ⟨kept, rfl⟩ := voted
        rw [sameRequired] at kept
        refine ⟨rfl, invariant.nextHeight, invariant.ctip, .inr ⟨hash, only, rfl⟩,
          created, by simp, by simp, .inr ⟨hash, only, ⟨proposal, _, votes', enough⟩, rfl, kept, ?_⟩,
          ?_⟩
        · simp only [sameRequired]
        · intro other proposal' found'
          by_cases same : other = hash
          · subst same
            simp only [AList.lookup_erase] at found'
            cases found'
          · simp only [AList.lookup_erase_ne same, AList.lookup_insert_ne same] at found'
            exact Origin.others invariant.pending unacked found'
      · next few =>
        cases voted
        refine ⟨rfl, invariant.nextHeight, invariant.ctip, .inr ⟨hash, only, rfl⟩,
          created, by simp, by simp, .inl ⟨rfl, sameRequired⟩, ?_⟩
        intro other proposal' found'
        by_cases same : other = hash
        · subst same
          simp only [AList.lookup_insert, Option.some.injEq] at found'
          subst found'
          exact .voted proposal only votes' (not_lt.mp few)
        · simp only [AList.lookup_insert_ne same] at found'
          exact Origin.others invariant.pending unacked found'

end Steps

section Runs

variable {start : ElementsSlot24ReplayState} {height : UInt32} {blockHash : BlockHash}

/-- Before any message the invariant holds. -/
theorem MessageInvariant.empty :
    MessageInvariant start height blockHash [] ⟨start, [], [], false⟩ :=
  ⟨rfl, rfl, rfl, .inl ⟨rfl, rfl⟩, by simp, fun _ _ _ => rfl, fun _ => ⟨rfl, rfl⟩,
    .inl ⟨rfl, rfl⟩, fun _ _ live => .kept live⟩

/-- The messages of a block keep the invariant. -/
theorem applyParentMessages_invariant {processed messages : List ParentMessage}
    {progress final : MessageProgress}
    (invariant : MessageInvariant start height blockHash processed progress)
    (applied : applyParentMessages height blockHash progress messages = .ok final) :
    MessageInvariant start height blockHash (processed ++ messages) final := by
  induction messages generalizing processed progress with
  | nil =>
    cases applied
    rw [List.append_nil]
    exact invariant
  | cons message messages ih =>
    simp only [applyParentMessages, bind_eq_ok] at applied
    obtain ⟨next, one, applied⟩ := applied
    rw [List.append_cons]
    cases message with
    | proposal hash => exact ih (applyProposal_invariant invariant one) applied
    | ack hash => exact ih (applyAck_invariant invariant one) applied

/-- The proposals found to have expired at a height are those that are no longer live. -/
theorem expiredProposals_ok {config : ElementsSlot24ReplayConfig} {slotIsUsed : Bool}
    {entries : List (Sigma fun _ : Hash32 => PendingSlot24Proposal)} {expired : List Hash32}
    (aged : expiredProposals config slotIsUsed height entries = .ok expired) :
    ∀ entry ∈ entries, entry.1 ∉ expired →
      entry.2.proposalHeight.toNat ≤ height.toNat ∧
      entry.2.votes.toNat ≤ height.toNat - entry.2.proposalHeight.toNat ∧
      ¬isExpired config slotIsUsed (height.toNat - entry.2.proposalHeight.toNat)
        (height.toNat - entry.2.proposalHeight.toNat - entry.2.votes.toNat) := by
  induction entries generalizing expired with
  | nil => simp
  | cons entry entries ih =>
    simp only [expiredProposals] at aged
    simp only [↓then_eq_ok, bind_eq_ok, rejectIf_eq_ok, pure_eq_ok, not_lt] at aged
    obtain ⟨past, few, others, rest, rfl⟩ := aged
    intro found member absent
    have absent' : found.1 ∉ others := by
      intro inside
      split at absent
      · exact absent (List.mem_cons_of_mem _ inside)
      · exact absent inside
    rcases List.mem_cons.mp member with rfl | later
    · refine ⟨UInt32.le_iff_toNat_le.mp (UInt32.not_lt.mp past), few, fun old => ?_⟩
      rw [if_pos old] at absent
      exact absent List.mem_cons_self
    · exact ih rest found later absent'

/-- Removing hashes one after another leaves the entries of the others. -/
theorem lookup_foldl_erase (hashes : List Hash32) (pending : PendingProposals) (hash : Hash32) :
    (hashes.foldl (fun pending hash => pending.erase hash) pending).lookup hash =
      if hash ∈ hashes then none else pending.lookup hash := by
  induction hashes generalizing pending with
  | nil => simp
  | cons first hashes ih =>
    rw [List.foldl_cons, ih]
    by_cases same : hash = first
    · subst same
      simp
    · simp only [List.mem_cons, same, false_or, AList.lookup_erase_ne same]

/-- What the messages and the aging of one block did, as the next block sees it. -/
structure Messaged (start : ElementsSlot24ReplayState) (height : UInt32) (blockHash : BlockHash)
    (messages : List ParentMessage) (next : ElementsSlot24ReplayState) : Prop where
  config : next.config = start.config
  nextHeight : next.nextHeight = start.nextHeight
  ctip : next.ctip = start.ctip
  active : (next.activeProposalHash = start.activeProposalHash ∧
      next.requiredActivation = start.requiredActivation) ∨
    ∃ hash, Activates start height blockHash messages hash next
  pending : ∀ hash proposal, next.pendingProposals.lookup hash = some proposal →
    Origin start height messages hash proposal ∧
    proposal.proposalHeight.toNat ≤ height.toNat ∧
    proposal.votes.toNat ≤ height.toNat - proposal.proposalHeight.toNat ∧
    ¬isExpired next.config next.activeProposalHash.isSome
      (height.toNat - proposal.proposalHeight.toNat)
      (height.toNat - proposal.proposalHeight.toNat - proposal.votes.toNat)

theorem applyCoinbaseMessages_ok [Hashing] {next : ElementsSlot24ReplayState}
    {parsed : ParsedBlock} (applied : applyCoinbaseMessages start parsed height = .ok next) :
    Messaged start height parsed.metadata.blockHash (coinbaseMessages parsed.coinbase.outputs)
      next := by
  simp only [applyCoinbaseMessages, bind_eq_ok, expireProposals, pure_eq_ok] at applied
  obtain ⟨progress, messages, expired, aged, rfl⟩ := applied
  have invariant := applyParentMessages_invariant .empty messages
  rw [List.nil_append] at invariant
  refine ⟨invariant.config, invariant.nextHeight, invariant.ctip, ?_, ?_⟩
  · rcases invariant.active with same | ⟨hash, activates⟩
    · exact .inl same
    · exact .inr ⟨hash, activates.only, activates.enough, activates.active, activates.kept,
        activates.required⟩
  · intro hash proposal live
    rw [lookup_foldl_erase] at live
    split at live
    · cases live
    · next absent =>
      have member : (⟨hash, proposal⟩ : Sigma fun _ => _) ∈ progress.state.pendingProposals.entries :=
        AList.mem_lookup_iff.mp live
      exact ⟨invariant.pending hash proposal live, expiredProposals_ok aged _ member absent⟩

end Runs

end Usdd.BitcoinBmm

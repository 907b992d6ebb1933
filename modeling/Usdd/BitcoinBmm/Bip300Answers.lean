import Usdd.BitcoinBmm.Bip300Validity
/-!
# Which errors a block may cause

Each part of a block fails only as a verdict about the block, never because a bound or an
invariant of the replay was hit: every vote fits its word, there is room for every proposal, and
a transaction that reaches the treasury spends the output once and has one to replace it.
-/
namespace Usdd.BitcoinBmm

open Usdd.Foundation Usdd.Core

/-- The errors that report a bound or an invariant of the replay, not a fault of the block. -/
def internalErrors : List ElementsSlot24ReplayError :=
  [.pendingProposalLimitExceeded, .proposalHeightAhead, .proposalVotesAhead, .voteOverflow,
    .malformedState, .outputIndexOverflow, .m8CountOverflow, .amountOverflow]

/-- A fault that is a verdict about the block. -/
def Verdict : Fault ElementsSlot24ReplayError → Prop
  | .error error => error ∉ internalErrors
  | .panic _ => False

/-- What `orError` passes on is a verdict when the error is none of the internal ones. -/
theorem failsWith_orError {α : Type} {computation : Except ElementsSlot24ReplayError α}
    (inner : FailsWith (· ∉ internalErrors) computation) :
    FailsWith Verdict (orError computation) :=
  .mapError inner

section Messages

variable {start : ElementsSlot24ReplayState} {height : UInt32} {blockHash : BlockHash}

/-- The votes of all live proposals are below the larger threshold. -/
def VotesBounded (state : ElementsSlot24ReplayState) : Prop :=
  ∀ hash proposal, state.pendingProposals.lookup hash = some proposal →
    proposal.votes.toNat ≤ state.config.anyThreshold

/-- A proposal of a block has votes below the larger threshold. -/
theorem Origin.votes_le {messages : List ParentMessage} {hash : Hash32}
    {proposal : PendingSlot24Proposal} (bounded : VotesBounded start)
    (origin : Origin start height messages hash proposal) :
    proposal.votes.toNat ≤ start.config.anyThreshold := by
  cases origin with
  | created _ made =>
    rw [made]
    exact Nat.zero_le _
  | kept live => exact bounded hash proposal live
  | voted old _ _ few => exact Nat.le_trans few (activationThreshold_le_anyThreshold _)

/-- A proposal of a block was created at its height or before, and has at most one vote for each
block since. -/
theorem Origin.aged {messages : List ParentMessage} {hash : Hash32}
    {proposal : PendingSlot24Proposal} (sound : SoundState start)
    (origin : Origin start start.nextHeight messages hash proposal) :
    proposal.proposalHeight.toNat ≤ start.nextHeight.toNat ∧
      proposal.votes.toNat ≤ start.nextHeight.toNat - proposal.proposalHeight.toNat := by
  cases origin with
  | created _ made =>
    rw [made]
    exact ⟨Nat.le_refl _, Nat.zero_le _⟩
  | kept live =>
    obtain ⟨-, live'⟩ := sound.proposals hash proposal live
    have past := live'.past
    have few := live'.few
    omega
  | voted old _ votes _ =>
    obtain ⟨later, live'⟩ := sound.proposals hash old votes.live
    have positive : start.nextHeight.toNat ≠ 0 := fun zero => later (UInt32.toNat_inj.mp zero)
    have past := live'.past
    have few := live'.few
    have counted := votes.counted
    rw [votes.height]
    omega

/-- There are at most as many live proposals as before the block and proposals in it. -/
theorem MessageInvariant.length_le {processed : List ParentMessage} {progress : MessageProgress}
    (invariant : MessageInvariant start height blockHash processed progress) :
    progress.state.pendingProposals.entries.length ≤
      start.pendingProposals.entries.length + (newHashes processed).length := by
  have inside : progress.state.pendingProposals.keys.toFinset ⊆
      start.pendingProposals.keys.toFinset ∪ (newHashes processed).toFinset := by
    intro hash member
    rw [List.mem_toFinset, ← AList.mem_keys, ← AList.lookup_isSome,
      Option.isSome_iff_exists] at member
    obtain ⟨proposal, live⟩ := member
    rw [Finset.mem_union, List.mem_toFinset, ← AList.mem_keys, ← AList.lookup_isSome,
      List.mem_toFinset, mem_newHashes]
    cases invariant.pending hash proposal live with
    | created member _ => exact .inr member
    | kept live => exact .inl (by rw [live]; rfl)
    | voted old _ votes _ => exact .inl (by rw [votes.live]; rfl)
  rw [← card_keys, ← card_keys]
  exact Nat.le_trans (Finset.card_le_card inside) (Nat.le_trans (Finset.card_union_le _ _)
    (Nat.add_le_add_left (List.toFinset_card_le _) _))

theorem checkedVote_of_le {votes : UInt16} (room : votes.toNat + 1 < 2 ^ 16) :
    ∃ more, checkedVote votes = some more :=
  ⟨_, if_pos room⟩

/-- A proposal message finds room. -/
theorem applyProposal_answers {processed : List ParentMessage} {progress : MessageProgress}
    {hash : Hash32} (invariant : MessageInvariant start height blockHash processed progress)
    (room : start.pendingProposals.entries.length + (newHashes processed).length <
      start.config.maximumPendingProposals) :
    FailsWith (· ∉ internalErrors) (applyProposal height progress hash) := by
  have few := invariant.length_le
  simp only [applyProposal]
  refine .bind (.rejectIf (by decide)) fun _ _ => ?_
  split
  · exact .ok _
  · refine .bind (.passed ?_) fun _ _ => .ok _
    rw [invariant.config]
    omega

/-- An ACK counts a vote that fits its word. -/
theorem applyAck_answers {processed : List ParentMessage} {progress : MessageProgress}
    {hash : Hash32} (invariant : MessageInvariant start height blockHash processed progress)
    (bounded : VotesBounded start) (fits : start.config.anyThreshold + 1 < 2 ^ 16) :
    FailsWith (· ∉ internalErrors) (applyAck height blockHash progress hash) := by
  simp only [applyAck]
  refine .bind (.rejectIf (by decide)) fun _ _ => ?_
  split
  · exact .ok _
  · split
    · exact .ok _
    · next proposal live =>
      have votes := (invariant.pending hash proposal live).votes_le bounded
      obtain ⟨more, counted⟩ := checkedVote_of_le
        (show proposal.votes.toNat + 1 < 2 ^ 16 by omega)
      refine .bind ?_ fun _ _ => .ok _
      simp only [applyVote, counted]
      refine .bind (.ok _) fun _ _ => ?_
      split
      · exact .bind (.rejectIf (by decide)) fun _ _ => .ok _
      · exact .ok _

/-- The messages of a block find room and count votes that fit. -/
theorem applyParentMessages_answers {processed messages : List ParentMessage}
    {progress : MessageProgress}
    (invariant : MessageInvariant start height blockHash processed progress)
    (bounded : VotesBounded start) (fits : start.config.anyThreshold + 1 < 2 ^ 16)
    (room : start.pendingProposals.entries.length + (newHashes (processed ++ messages)).length ≤
      start.config.maximumPendingProposals) :
    FailsWith (· ∉ internalErrors)
      (applyParentMessages height blockHash progress messages) := by
  induction messages generalizing processed progress with
  | nil => exact .ok _
  | cons message messages ih =>
    rw [List.append_cons] at room
    cases message with
    | proposal hash =>
      refine .bind (applyProposal_answers invariant ?_) fun next one =>
        ih (applyProposal_invariant invariant one) room
      simp only [newHashes, List.filterMap_append, List.length_append, ParentMessage.newHash,
        List.filterMap_cons, List.length_cons] at room ⊢
      omega
    | ack hash =>
      exact .bind (applyAck_answers invariant bounded fits) fun next one =>
        ih (applyAck_invariant invariant one) room

/-- Aging never meets a proposal that is ahead of the block. -/
theorem expiredProposals_answers {config : ElementsSlot24ReplayConfig} {slotIsUsed : Bool}
    {entries : List (Sigma fun _ : Hash32 => PendingSlot24Proposal)}
    (aged : ∀ entry ∈ entries, entry.2.proposalHeight.toNat ≤ height.toNat ∧
      entry.2.votes.toNat ≤ height.toNat - entry.2.proposalHeight.toNat) :
    FailsWith (· ∉ internalErrors) (expiredProposals config slotIsUsed height entries) := by
  induction entries with
  | nil => exact .ok _
  | cons entry entries ih =>
    obtain ⟨⟨past, few⟩, rest⟩ := List.forall_mem_cons.mp aged
    rw [expiredProposals]
    refine .bind (.passed ?_) fun _ _ => .bind (.passed (Nat.not_lt.mpr few)) fun _ _ =>
      .bind (ih rest) fun _ _ => .ok _
    exact UInt32.not_lt.mpr (UInt32.le_iff_toNat_le.mpr past)

variable [Hashing]

/-- The coinbase messages of a block cause no internal error. -/
theorem applyCoinbaseMessages_answers {parsed : ParsedBlock} (sound : SoundState start)
    (bounded : VotesBounded start)
    (room : start.pendingProposals.entries.length +
        (newHashes (coinbaseMessages parsed.coinbase.outputs)).length ≤
      start.config.maximumPendingProposals) :
    FailsWith (· ∉ internalErrors) (applyCoinbaseMessages start parsed start.nextHeight) := by
  have fits := (ElementsSlot24ReplayConfig.validate_bounds sound.config).2
  refine .bind (applyParentMessages_answers .empty bounded fits room) fun progress messages => ?_
  have invariant := applyParentMessages_invariant .empty messages
  rw [List.nil_append] at invariant
  refine .bind (expiredProposals_answers fun entry member => ?_) fun _ _ => .ok _
  exact (invariant.pending entry.1 entry.2 (AList.mem_lookup_iff.mpr member)).aged sound

end Messages

section Treasury

/-- What the treasury relies on in a transaction: no input twice, and outputs whose indices fit
their word. -/
structure Movable (transaction : ParsedTransaction) : Prop where
  distinct : transaction.inputs.Nodup
  indexed : transaction.outputs.length < 2 ^ 32

theorem inputSpends_iff {input : FixedBytes 36} {ctip : Slot24Ctip} :
    inputSpends input ctip ↔ input.bytes = ctip.txid.bytes ++ leBytes 4 ctip.vout.toNat := by
  have width := ctip.txid.length_eq
  rw [inputSpends, Bool.and_eq_true, beq_iff_eq, beq_iff_eq]
  constructor
  · rintro ⟨front, behind⟩
    rw [← front, ← behind, List.take_append_drop]
  · intro same
    rw [same, List.take_left' width, List.drop_left' width]
    exact ⟨rfl, rfl⟩

/-- Distinct inputs spend an output at most once. -/
theorem currentCtipInputs_le (ctip : Option Slot24Ctip) {inputs : List (FixedBytes 36)}
    (distinct : inputs.Nodup) : currentCtipInputs ctip inputs ≤ 1 := by
  cases ctip with
  | none => exact Nat.zero_le _
  | some ctip =>
    rw [currentCtipInputs, List.countP_eq_length_filter]
    have nodup := distinct.filter fun input => inputSpends input ctip
    rcases form : inputs.filter fun input => inputSpends input ctip with
      _ | ⟨first, _ | ⟨second, rest⟩⟩
    · exact Nat.zero_le _
    · exact Nat.le_refl _
    · have spends : ∀ input ∈ first :: second :: rest, inputSpends input ctip := by
        intro input member
        rw [← form] at member
        exact (List.mem_filter.mp member).2
      have one := inputSpends_iff.mp (spends first (by simp))
      have two := inputSpends_iff.mp (spends second (by simp))
      rw [form] at nodup
      exact absurd (FixedBytes.ext (one.trans two.symm)) (by simp at nodup; exact nodup.1.1)

/-- The treasury outputs are among the outputs, each with its value. -/
theorem mem_treasuryOutputs {outputs : List ParsedOutput} {index : Nat} {found : Nat × Nat}
    (member : found ∈ treasuryOutputs index outputs) :
    found.1 < index + outputs.length ∧ ∃ output ∈ outputs, output.satoshis = found.2 := by
  induction outputs generalizing index with
  | nil => cases member
  | cons output outputs ih =>
    rw [treasuryOutputs, List.mem_append] at member
    rcases member with here | later
    · split at here
      · rw [List.mem_singleton] at here
        subst here
        exact ⟨by simp, output, List.mem_cons_self, rfl⟩
      · cases here
    · obtain ⟨inside, other, there, value⟩ := ih later
      rw [List.length_cons]
      exact ⟨by omega, other, List.mem_cons_of_mem _ there, value⟩

theorem treasuryOutput_answers (outputs : List ParsedOutput) :
    FailsWith (· ∉ internalErrors) (treasuryOutput 0 none outputs) := by
  rw [treasuryOutput_eq]
  split
  · exact .ok _
  · exact .ok _
  · rintro error ⟨rfl⟩
    decide

/-- The treasury part of a transaction causes no internal error. -/
theorem moveCtip_answers {context : TransactionContext} {progress : TransactionProgress}
    {transaction : ParsedTransaction} (movable : Movable transaction) :
    FailsWith Verdict (moveCtip context progress transaction) := by
  have once := currentCtipInputs_le progress.ctip movable.distinct
  simp only [moveCtip]
  refine .bind (failsWith_orError (treasuryOutput_answers _)) fun treasury searched =>
    .bind (.rejectIf (by simp [Verdict, internalErrors])) fun _ _ =>
    .bind (.rejectIf (by simp [Verdict, internalErrors])) fun _ replaced => ?_
  rw [orError_eq_ok] at searched
  rw [rejectIf_eq_ok] at replaced
  split
  · exact .ok _
  · next moves =>
    refine .bind (.passed (by omega)) fun _ _ => ?_
    cases treasury with
    | none =>
      exfalso
      cases ctip : progress.ctip with
      | none => exact moves (.inr ⟨ctip, rfl⟩)
      | some old =>
        have some : progress.ctip.isSome := by rw [ctip]; rfl
        have spends : currentCtipInputs progress.ctip transaction.inputs ≠ 0 := fun zero =>
          moves (.inl ⟨some, zero⟩)
        exact replaced ⟨some, by omega, rfl⟩
    | some found =>
      obtain ⟨outputIndex, newValue⟩ := found
      have single := treasuryOutput_ok searched
      have member : (outputIndex, newValue) ∈ treasuryOutputs 0 transaction.outputs := by
        rw [single]
        exact List.mem_singleton_self _
      have inside := (mem_treasuryOutputs member).1
      have fits := movable.indexed
      have indexed : indexU32 outputIndex = some (UInt32.ofNat outputIndex) :=
        if_pos (by omega)
      refine .bind (.ok _) fun _ same => .bind (failsWith_orError ?_) fun _ _ => .ok _
      cases same
      simp only [raiseCtip]
      refine .bind (.rejectIf (by decide)) fun _ _ => .bind (.rejectIf (by decide)) fun _ grows =>
        .bind (.okOr (by decide)) fun _ _ => .bind (.passed ((rejectIf_eq_ok _ _ _).mp grows))
          fun _ _ => ?_
      rw [indexed]
      exact .bind (.ok _) fun _ _ => .ok _

/-- The transactions of a block cause no internal error. -/
theorem applyTransactions_answers {context : TransactionContext}
    {transactions : List ParsedTransaction} {progress : TransactionProgress}
    (movable : ∀ transaction ∈ transactions, Movable transaction)
    (room : progress.matchingM8Requests + transactions.length < 2 ^ 32) :
    FailsWith Verdict (applyTransactions context progress transactions) := by
  induction transactions generalizing progress with
  | nil => exact .ok _
  | cons transaction transactions ih =>
    obtain ⟨here, rest⟩ := List.forall_mem_cons.mp movable
    rw [List.length_cons] at room
    refine .bind (.bind (failsWith_orError ?_) fun _ _ => ?_) fun next one => ih rest ?_
    · unfold checkM8
      split
      · exact .ok _
      · exact .bind (.okOr (by decide)) fun _ _ => .bind (.rejectIf (by decide)) fun _ _ =>
          .bind (.rejectIf (by decide)) fun _ _ => .bind (.passed (by omega)) fun _ _ => .ok _
    · split
      · exact moveCtip_answers here
      · exact .ok _
    · have counted := (checkM8_ok (applyTransaction_ok one).1).1
      split at counted <;> omega

/-- An unused slot leaves the treasury output alone. -/
theorem applyTransactions_unused {context : TransactionContext}
    {transactions : List ParsedTransaction} {progress final : TransactionProgress}
    (unused : context.slotIsUsed = false)
    (applied : applyTransactions context progress transactions = .ok final) :
    final.ctip = progress.ctip := by
  induction transactions generalizing progress with
  | nil =>
    cases applied
    rfl
  | cons transaction transactions ih =>
    simp only [applyTransactions, applyTransaction, unused, Bool.false_eq_true, if_false,
      bind_eq_ok, pure_eq_ok] at applied
    obtain ⟨next, ⟨_, -, rfl⟩, applied⟩ := applied
    have rest := ih applied
    exact rest

end Treasury

end Usdd.BitcoinBmm

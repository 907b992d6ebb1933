import Usdd.BitcoinBmm.M7
import Mathlib.Data.List.AList
/-!
# Bounded slot-24 replay

One parent block after another is applied to the replay state: coinbase messages create, vote
for and activate proposals, the live proposals are aged, and the transactions move the treasury
output. Every error leaves the state as it was, so a block returns the next state or an error.
-/
namespace Usdd.BitcoinBmm

open Usdd.Foundation Usdd.Core

section Configuration

/-- `bip300::ElementsSlot24ReplayError`. -/
inductive ElementsSlot24ReplayError where
  | block (error : BlockStructureError)
  | invalidConfig
  | malformedState
  | brokenParentLink
  | heightOverflow
  | pendingProposalLimitExceeded
  | duplicateProposalMessage
  | multipleAckMessages
  | voteOverflow
  | proposalHeightAhead
  | proposalVotesAhead
  | requiredProposalReplaced
  | duplicateM7
  | outputIndexOverflow
  | m8WithoutM7
  | m8WrongChildHash
  | m8Expired
  | m8CountOverflow
  | multipleTreasuryOutputs
  | parallelTreasuryOutput
  | ctipSpentWithoutReplacement
  | zeroCtipDelta
  | ctipDecreaseUnsupported
  | missingDepositAddress
  | amountOverflow
deriving DecidableEq

/-- `bip300::ElementsSlot24ReplayConfig`. -/
structure ElementsSlot24ReplayConfig where
  requiredProposalHash : Hash32
  unusedProposalMaxAge : UInt16
  unusedActivationThreshold : UInt16
  usedProposalMaxAge : UInt16
  usedActivationThreshold : UInt16
deriving DecidableEq

namespace ElementsSlot24ReplayConfig

/-- `ElementsSlot24ReplayConfig::maximum_pending_proposals`; ages have 16 bits, so the product
fits a machine word. -/
def maximumPendingProposals (config : ElementsSlot24ReplayConfig) : Nat :=
  maxCoinbaseOutputs *
    (max config.unusedProposalMaxAge.toNat config.usedProposalMaxAge.toNat + 1)

/-- `ElementsSlot24ReplayConfig::validate`. -/
def validate (config : ElementsSlot24ReplayConfig) : Except ElementsSlot24ReplayError Unit :=
  rejectIf (config.requiredProposalHash = .zero ∨ config.unusedProposalMaxAge = 0 ∨
    config.unusedActivationThreshold = 0 ∨
    config.unusedActivationThreshold ≥ config.unusedProposalMaxAge ∨
    config.usedProposalMaxAge = 0 ∨ config.usedActivationThreshold = 0 ∨
    config.usedActivationThreshold ≥ config.usedProposalMaxAge) .invalidConfig

/-- `ElementsSlot24ReplayConfig::from_manifest_bound_identity`. -/
def fromManifestBoundIdentity (requiredProposalHash : Hash32)
    (unusedProposalMaxAge unusedActivationThreshold usedProposalMaxAge
      usedActivationThreshold : UInt16) :
    Except ElementsSlot24ReplayError ElementsSlot24ReplayConfig := do
  let config : ElementsSlot24ReplayConfig := ⟨requiredProposalHash, unusedProposalMaxAge,
    unusedActivationThreshold, usedProposalMaxAge, usedActivationThreshold⟩
  config.validate
  return config

/-- The largest age a proposal may have in the slot. -/
def maxAge (config : ElementsSlot24ReplayConfig) (slotIsUsed : Bool) : Nat :=
  (if slotIsUsed then config.usedProposalMaxAge else config.unusedProposalMaxAge).toNat

/-- The number of votes a proposal needs more than to become active in the slot. -/
def activationThreshold (config : ElementsSlot24ReplayConfig) (slotIsUsed : Bool) : Nat :=
  (if slotIsUsed then config.usedActivationThreshold else config.unusedActivationThreshold).toNat

/-- The number of blocks a proposal may miss in the slot. -/
def maxFails (config : ElementsSlot24ReplayConfig) (slotIsUsed : Bool) : Nat :=
  config.maxAge slotIsUsed - config.activationThreshold slotIsUsed

end ElementsSlot24ReplayConfig

end Configuration

section State

/-- `bip300::PendingSlot24Proposal`. -/
structure PendingSlot24Proposal where
  proposalHash : Hash32
  proposalHeight : UInt32
  votes : UInt16
deriving DecidableEq

/-- `bip300::Slot24Ctip`. -/
structure Slot24Ctip where
  txid : BlockHash
  vout : UInt32
  valueSat : Nat
deriving DecidableEq

/-- `bip300::MintableSlot24Deposit`. -/
structure MintableSlot24Deposit where
  outpoint : Slot24Ctip
  blockHash : BlockHash
  blockHeight : UInt32
  valueSat : Nat
  elementsAddress : List UInt8
deriving DecidableEq

/-- The live proposals by their hash. -/
abbrev PendingProposals := AList (fun _ : Hash32 => PendingSlot24Proposal)

/-- `bip300::ElementsSlot24ReplayState`. -/
structure ElementsSlot24ReplayState where
  config : ElementsSlot24ReplayConfig
  nextHeight : UInt32
  tipHash : BlockHash
  activeProposalHash : Option Hash32
  requiredActivation : Option (UInt32 × BlockHash)
  pendingProposals : PendingProposals
  ctip : Option Slot24Ctip

/-- A proposal of a given age and number of misses is no longer live. -/
def isExpired (config : ElementsSlot24ReplayConfig) (slotIsUsed : Bool) (age misses : Nat) :
    Prop :=
  age > config.maxAge slotIsUsed ∨
    (age > config.maxFails slotIsUsed ∧ misses ≥ config.maxFails slotIsUsed)

instance (config : ElementsSlot24ReplayConfig) (slotIsUsed : Bool) (age misses : Nat) :
    Decidable (isExpired config slotIsUsed age misses) := by
  unfold isExpired
  infer_instance

namespace ElementsSlot24ReplayState

/-- `ElementsSlot24ReplayState::before_parent_genesis`. -/
def beforeParentGenesis (config : ElementsSlot24ReplayConfig) :
    Except ElementsSlot24ReplayError ElementsSlot24ReplayState := do
  config.validate
  return {
    config
    nextHeight := 0
    tipHash := .zero 32
    activeProposalHash := none
    requiredActivation := none
    pendingProposals := ∅
    ctip := none }

/-- `ElementsSlot24ReplayState::required_proposal_is_active`. -/
def requiredProposalIsActive (state : ElementsSlot24ReplayState) : Bool :=
  state.requiredActivation.isSome &&
    decide (state.activeProposalHash = some state.config.requiredProposalHash)

/-- The check of one live proposal in `ElementsSlot24ReplayState::validate`. -/
def validateProposal (state : ElementsSlot24ReplayState) (tipHeight : Nat) (hash : Hash32)
    (proposal : PendingSlot24Proposal) : Except ElementsSlot24ReplayError Unit := do
  rejectIf (tipHeight < proposal.proposalHeight.toNat) .malformedState
  let age := tipHeight - proposal.proposalHeight.toNat
  rejectIf (age < proposal.votes.toNat) .malformedState
  let misses := age - proposal.votes.toNat
  rejectIf (hash = .zero ∨ hash ≠ proposal.proposalHash ∨
    proposal.proposalHeight.toNat > tipHeight ∨
    isExpired state.config state.activeProposalHash.isSome age misses) .malformedState

/-- The checks of all live proposals. -/
def validateProposals (state : ElementsSlot24ReplayState) (tipHeight : Nat) :
    List (Sigma fun _ : Hash32 => PendingSlot24Proposal) →
      Except ElementsSlot24ReplayError Unit
  | [] => .ok ()
  | entry :: entries => do
    state.validateProposal tipHeight entry.1 entry.2
    state.validateProposals tipHeight entries

/-- The activation `ElementsSlot24ReplayState::validate` admits. -/
def validateActivation (state : ElementsSlot24ReplayState) :
    Except ElementsSlot24ReplayError Unit :=
  match state.requiredActivation with
  | none => .ok ()
  | some (height, hash) =>
    rejectIf (state.activeProposalHash ≠ some state.config.requiredProposalHash ∨
      height ≥ state.nextHeight ∨ hash = .zero 32) .malformedState

/-- The treasury output `ElementsSlot24ReplayState::validate` admits. -/
def validateCtip (state : ElementsSlot24ReplayState) : Except ElementsSlot24ReplayError Unit :=
  match state.ctip with
  | none => .ok ()
  | some ctip =>
    rejectIf (ctip.txid = .zero 32 ∨ ctip.valueSat = 0 ∨ ctip.valueSat > maxMoneySatoshis)
      .malformedState

/-- `ElementsSlot24ReplayState::validate`. -/
def validate (state : ElementsSlot24ReplayState) : Except ElementsSlot24ReplayError Unit := do
  state.config.validate
  rejectIf (state.pendingProposals.entries.length > state.config.maximumPendingProposals)
    .pendingProposalLimitExceeded
  if state.nextHeight = 0 then
    rejectIf (state.tipHash ≠ .zero 32 ∨ state.activeProposalHash.isSome ∨
      state.requiredActivation.isSome ∨ state.pendingProposals.entries ≠ [] ∨
      state.ctip.isSome) .malformedState
  else
    rejectIf (state.tipHash = .zero 32) .malformedState
    rejectIf (state.activeProposalHash = none ∧ state.ctip.isSome) .malformedState
    rejectIf (decide (state.activeProposalHash = some state.config.requiredProposalHash) ≠
      state.requiredActivation.isSome) .malformedState
    state.validateActivation
    state.validateCtip
    state.validateProposals (state.nextHeight.toNat - 1) state.pendingProposals.entries

end ElementsSlot24ReplayState

end State

section Effects

/-- `bip300::ElementsSlot24BmmEdge`. -/
structure ElementsSlot24BmmEdge where
  parentBlockHash : BlockHash
  successorBlockHash : BlockHash
  successorHeight : UInt32
  coinbaseTxid : BlockHash
  m7OutputIndex : UInt32
  committedChildHash : BlockHash
deriving DecidableEq

/-- `bip300::ElementsSlot24BlockEffects`. -/
structure ElementsSlot24BlockEffects where
  deposits : List MintableSlot24Deposit
  bmmEdge : Option ElementsSlot24BmmEdge
  matchingM8Requests : Nat
  sawSlot24M7 : Bool
  requiredProposalActive : Bool
deriving DecidableEq

end Effects

section Messages

variable [Hashing]

/-- `bip300::M1_TAG`. -/
def m1Tag : List UInt8 := [0xd5, 0xe0, 0xc4, 0xaf]

/-- `bip300::M2_TAG`. -/
def m2Tag : List UInt8 := [0xd6, 0xe1, 0xc5, 0xdf]

/-- `bip300::ParentMessage`. -/
inductive ParentMessage where
  | proposal (hash : Hash32)
  | ack (hash : Hash32)
deriving DecidableEq

/-- `bip300::parse_slot24_parent_message`. -/
def parseSlot24ParentMessage (script : List UInt8) : Option ParentMessage :=
  match extractSingleOpReturnPush script with
  | none => none
  | some payload =>
    if payload.length < 5 ∨ payload[4]? ≠ some elementsDrivechainSlot then none
    else if payload.take 4 = m1Tag then some (.proposal (doubleSha256 (payload.drop 5)))
    else if payload.length = 4 + 1 + 32 ∧ payload.take 4 = m2Tag then
      some (.ack (copyHash payload))
    else none

/-- The messages of a coinbase, in the order of its outputs. -/
def coinbaseMessages (outputs : List ParsedOutput) : List ParentMessage :=
  outputs.filterMap fun output => parseSlot24ParentMessage output.script

/-- What the loop of `bip300::apply_coinbase_messages` keeps from message to message. -/
structure MessageProgress where
  state : ElementsSlot24ReplayState
  createdInBlock : List Hash32
  proposalMessagesInBlock : List Hash32
  sawAck : Bool

/-- A proposal message in `bip300::apply_coinbase_messages`. -/
def applyProposal (height : UInt32) (progress : MessageProgress) (proposalHash : Hash32) :
    Except ElementsSlot24ReplayError MessageProgress := do
  rejectIf (proposalHash ∈ progress.proposalMessagesInBlock) .duplicateProposalMessage
  let proposalMessagesInBlock := proposalHash :: progress.proposalMessagesInBlock
  let state := progress.state
  if proposalHash ∈ state.pendingProposals then
    return { progress with proposalMessagesInBlock }
  else
    rejectIf (state.pendingProposals.entries.length = state.config.maximumPendingProposals)
      .pendingProposalLimitExceeded
    return { progress with
      proposalMessagesInBlock
      state := { state with
        pendingProposals := state.pendingProposals.insert proposalHash
          { proposalHash, proposalHeight := height, votes := 0 } }
      createdInBlock := proposalHash :: progress.createdInBlock }

/-- `u16::checked_add` of one vote. -/
def checkedVote (votes : UInt16) : Option UInt16 :=
  if votes.toNat + 1 < 2 ^ 16 then some (votes + 1) else none

/-- A proposal that has enough votes becomes active. -/
def activate (height : UInt32) (blockHash : BlockHash) (state : ElementsSlot24ReplayState)
    (proposalHash : Hash32) : Except ElementsSlot24ReplayError ElementsSlot24ReplayState := do
  rejectIf (state.requiredActivation.isSome ∧ proposalHash ≠ state.config.requiredProposalHash)
    .requiredProposalReplaced
  return { state with
    activeProposalHash := some proposalHash
    pendingProposals := state.pendingProposals.erase proposalHash
    requiredActivation :=
      if state.requiredActivation = none ∧ proposalHash = state.config.requiredProposalHash then
        some (height, blockHash)
      else state.requiredActivation }

/-- A vote for a live proposal, which may activate it. -/
def applyVote (height : UInt32) (blockHash : BlockHash) (state : ElementsSlot24ReplayState)
    (proposalHash : Hash32) (proposal : PendingSlot24Proposal) :
    Except ElementsSlot24ReplayError ElementsSlot24ReplayState := do
  let votes ← okOr (checkedVote proposal.votes) .voteOverflow
  let voted := { state with
    pendingProposals := state.pendingProposals.insert proposalHash { proposal with votes } }
  if votes.toNat > state.config.activationThreshold state.activeProposalHash.isSome then
    activate height blockHash voted proposalHash
  else return voted

/-- An ACK message in `bip300::apply_coinbase_messages`. -/
def applyAck (height : UInt32) (blockHash : BlockHash) (progress : MessageProgress)
    (proposalHash : Hash32) : Except ElementsSlot24ReplayError MessageProgress := do
  rejectIf progress.sawAck .multipleAckMessages
  if proposalHash ∈ progress.createdInBlock then return { progress with sawAck := true }
  else
    match progress.state.pendingProposals.lookup proposalHash with
    | none => return { progress with sawAck := true }
    | some proposal =>
      let state ← applyVote height blockHash progress.state proposalHash proposal
      return { progress with state, sawAck := true }

/-- One message in `bip300::apply_coinbase_messages`. -/
def applyParentMessage (height : UInt32) (blockHash : BlockHash) (progress : MessageProgress) :
    ParentMessage → Except ElementsSlot24ReplayError MessageProgress
  | .proposal hash => applyProposal height progress hash
  | .ack hash => applyAck height blockHash progress hash

/-- The loop of `bip300::apply_coinbase_messages`. -/
def applyParentMessages (height : UInt32) (blockHash : BlockHash) :
    MessageProgress → List ParentMessage → Except ElementsSlot24ReplayError MessageProgress
  | progress, [] => .ok progress
  | progress, message :: messages => do
    let next ← applyParentMessage height blockHash progress message
    applyParentMessages height blockHash next messages

/-- The proposals that are no longer live at a height. -/
def expiredProposals (config : ElementsSlot24ReplayConfig) (slotIsUsed : Bool) (height : UInt32) :
    List (Sigma fun _ : Hash32 => PendingSlot24Proposal) →
      Except ElementsSlot24ReplayError (List Hash32)
  | [] => .ok []
  | entry :: entries => do
    rejectIf (height < entry.2.proposalHeight) .proposalHeightAhead
    let age := height.toNat - entry.2.proposalHeight.toNat
    rejectIf (entry.2.votes.toNat > age) .proposalVotesAhead
    let misses := age - entry.2.votes.toNat
    let expired ← expiredProposals config slotIsUsed height entries
    return if isExpired config slotIsUsed age misses then entry.1 :: expired else expired

/-- The end of `bip300::apply_coinbase_messages`: age the proposals by the settings that are now
live. -/
def expireProposals (state : ElementsSlot24ReplayState) (height : UInt32) :
    Except ElementsSlot24ReplayError ElementsSlot24ReplayState := do
  let expired ← expiredProposals state.config state.activeProposalHash.isSome height
    state.pendingProposals.entries
  return { state with
    pendingProposals := expired.foldl (fun pending hash => pending.erase hash)
      state.pendingProposals }

/-- `bip300::apply_coinbase_messages`. -/
def applyCoinbaseMessages (state : ElementsSlot24ReplayState) (parsed : ParsedBlock)
    (height : UInt32) : Except ElementsSlot24ReplayError ElementsSlot24ReplayState := do
  let progress ← applyParentMessages height parsed.metadata.blockHash ⟨state, [], [], false⟩
    (coinbaseMessages parsed.coinbase.outputs)
  expireProposals progress.state height

end Messages

section MergedMining

/-- `bip300::ObservedM7`. -/
structure ObservedM7 where
  outputIndex : UInt32
  childHash : BlockHash
  canonicalForElements : Bool
deriving DecidableEq

/-- The loop of `bip300::observe_slot24_m7`, from an index on. -/
def observeOutputs : Nat → Option ObservedM7 → List ParsedOutput →
    Except ElementsSlot24ReplayError (Option ObservedM7)
  | _, observed, [] => .ok observed
  | index, observed, output :: outputs =>
    match extractSingleOpReturnPush output.script with
    | some payload =>
      if isSlot24M7 payload then do
        rejectIf observed.isSome .duplicateM7
        let outputIndex ← okOr (indexU32 index) .outputIndexOverflow
        observeOutputs (index + 1)
          (some ⟨outputIndex, copyHash payload, isCanonicalM7Script output.script⟩) outputs
      else observeOutputs (index + 1) observed outputs
    | none => observeOutputs (index + 1) observed outputs

/-- `bip300::observe_slot24_m7`. -/
def observeSlot24M7 (parsed : ParsedBlock) :
    Except ElementsSlot24ReplayError (Option ObservedM7) :=
  observeOutputs 0 none parsed.coinbase.outputs

/-- `bip300::M8_TAG`. -/
def m8Tag : List UInt8 := [0x00, 0xbf, 0x00]

/-- `bip300::M8_PAYLOAD_LEN`. -/
def m8PayloadLen : Nat := 3 + 1 + 32 + 32

/-- `bip300::M8_CANONICAL_SCRIPT_LEN`. -/
def m8CanonicalScriptLen : Nat := 1 + 1 + m8PayloadLen

/-- `bip300::parse_slot24_m8`: the child hash and the previous hash of a minimal M8. -/
def parseSlot24M8 (transaction : ParsedTransaction) : Option (BlockHash × BlockHash) :=
  match transaction.outputs with
  | [] => none
  | output :: _ =>
    let script := output.script
    if width : script.length = m8CanonicalScriptLen then
      if script[0]? = some opReturn ∧ script[1]?.map UInt8.toNat = some m8PayloadLen ∧
          (script.drop 2).take 3 = m8Tag ∧ script[5]? = some elementsDrivechainSlot then
        let raw : FixedBytes 70 := ⟨script, width⟩
        some (FixedBytes.slice raw 6 32 (by decide), FixedBytes.slice raw 38 32 (by decide))
      else none
    else none

end MergedMining

section Treasury

/-- `bip300::is_slot24_treasury`. -/
def isSlot24Treasury (script : List UInt8) : Bool :=
  script == [0xb4, 0x01, elementsDrivechainSlot, 0x51]

/-- `bip300::input_spends`. -/
def inputSpends (input : FixedBytes 36) (ctip : Slot24Ctip) : Bool :=
  input.bytes.take 32 == ctip.txid.bytes && input.bytes.drop 32 == leBytes 4 ctip.vout.toNat

/-- The treasury output of a transaction and its index, counted from an index on. -/
def treasuryOutput : Nat → Option (Nat × Nat) → List ParsedOutput →
    Except ElementsSlot24ReplayError (Option (Nat × Nat))
  | _, found, [] => .ok found
  | index, found, output :: outputs =>
    if isSlot24Treasury output.script then do
      rejectIf found.isSome .multipleTreasuryOutputs
      treasuryOutput (index + 1) (some (index, leNat output.value.bytes)) outputs
    else treasuryOutput (index + 1) found outputs

/-- What the loop of `bip300::apply_transactions` keeps from transaction to transaction. -/
structure TransactionProgress where
  ctip : Option Slot24Ctip
  deposits : List MintableSlot24Deposit
  matchingM8Requests : Nat

/-- What a block means to its transactions. -/
structure TransactionContext where
  height : UInt32
  blockHash : BlockHash
  previousBlock : BlockHash
  slotIsUsed : Bool
  requiredActive : Bool
  observedM7 : Option ObservedM7

/-- An error of the source that is not a failed `expect`. -/
def orError {α : Type} (computation : Except ElementsSlot24ReplayError α) :
    Except (Fault ElementsSlot24ReplayError) α :=
  computation.mapError .error

/-- The merged-mining request of a transaction in `bip300::apply_transactions`. -/
def checkM8 (context : TransactionContext) (matchingM8Requests : Nat)
    (transaction : ParsedTransaction) : Except ElementsSlot24ReplayError Nat :=
  match parseSlot24M8 transaction with
  | none => .ok matchingM8Requests
  | some (childHash, previousHash) => do
    let m7 ← okOr context.observedM7 .m8WithoutM7
    rejectIf (childHash ≠ m7.childHash) .m8WrongChildHash
    rejectIf (previousHash ≠ context.previousBlock) .m8Expired
    rejectIf (matchingM8Requests + 1 ≥ 2 ^ 32) .m8CountOverflow
    return matchingM8Requests + 1

/-- The inputs of a transaction that spend the treasury output. -/
def currentCtipInputs (ctip : Option Slot24Ctip) (inputs : List (FixedBytes 36)) : Nat :=
  match ctip with
  | none => 0
  | some ctip => inputs.countP fun input => inputSpends input ctip

/-- A transaction that replaces the treasury output, in `bip300::apply_transactions`. -/
def raiseCtip (context : TransactionContext) (ctip : Option Slot24Ctip)
    (transaction : ParsedTransaction) (outputIndex newValue : Nat) :
    Except ElementsSlot24ReplayError (Slot24Ctip × List MintableSlot24Deposit) := do
  let oldValue := (ctip.map (·.valueSat)).getD 0
  rejectIf (newValue = oldValue) .zeroCtipDelta
  rejectIf (newValue < oldValue) .ctipDecreaseUnsupported
  let address ← okOr (transaction.outputs[outputIndex + 1]?.bind fun output =>
    extractSingleOpReturnPush output.script) .missingDepositAddress
  rejectIf (newValue < oldValue) .amountOverflow
  let vout ← okOr (indexU32 outputIndex) .outputIndexOverflow
  let next : Slot24Ctip := ⟨transaction.txid, vout, newValue⟩
  return (next,
    if context.requiredActive ∧ address ≠ [] ∧ address.length ≤ 128 then
      [⟨next, context.blockHash, context.height, newValue - oldValue, address⟩]
    else [])

/-- The treasury part of a transaction in `bip300::apply_transactions`. -/
def moveCtip (context : TransactionContext) (progress : TransactionProgress)
    (transaction : ParsedTransaction) :
    Except (Fault ElementsSlot24ReplayError) TransactionProgress := do
  let spends := currentCtipInputs progress.ctip transaction.inputs
  let treasury ← orError (treasuryOutput 0 none transaction.outputs)
  rejectIf (progress.ctip.isSome ∧ spends = 0 ∧ treasury.isSome) (.error .parallelTreasuryOutput)
  rejectIf (progress.ctip.isSome ∧ spends = 1 ∧ treasury = none)
    (.error .ctipSpentWithoutReplacement)
  if (progress.ctip.isSome ∧ spends = 0) ∨ (progress.ctip = none ∧ treasury = none) then
    return progress
  else
    rejectIf (spends > 1) (.error .malformedState)
    let (outputIndex, newValue) ← okOr treasury
      (.panic "a CTIP transition reaching this branch has one treasury output")
    let (ctip, deposits) ←
      orError (raiseCtip context progress.ctip transaction outputIndex newValue)
    return { progress with ctip := some ctip, deposits := progress.deposits ++ deposits }

/-- One transaction in `bip300::apply_transactions`. -/
def applyTransaction (context : TransactionContext) (progress : TransactionProgress)
    (transaction : ParsedTransaction) :
    Except (Fault ElementsSlot24ReplayError) TransactionProgress := do
  let matchingM8Requests ←
    orError (checkM8 context progress.matchingM8Requests transaction)
  let counted := { progress with matchingM8Requests }
  if context.slotIsUsed then moveCtip context counted transaction else return counted

/-- The loop of `bip300::apply_transactions`. -/
def applyTransactions (context : TransactionContext) :
    TransactionProgress → List ParsedTransaction →
      Except (Fault ElementsSlot24ReplayError) TransactionProgress
  | progress, [] => .ok progress
  | progress, transaction :: transactions => do
    let next ← applyTransaction context progress transaction
    applyTransactions context next transactions

end Treasury

section Blocks

variable [Hashing]

/-- What a block means to its transactions, once its coinbase messages are applied. -/
def transactionContext (state : ElementsSlot24ReplayState) (parsed : ParsedBlock)
    (height : UInt32) (observedM7 : Option ObservedM7) : TransactionContext where
  height
  blockHash := parsed.metadata.blockHash
  previousBlock := parsed.metadata.header.previousBlock
  slotIsUsed := state.activeProposalHash.isSome
  requiredActive := state.requiredProposalIsActive
  observedM7

/-- The edge of a block with a canonical M7 while the required proposal is active. -/
def bmmEdge (parsed : ParsedBlock) (height : UInt32) (requiredProposalActive : Bool)
    (observedM7 : Option ObservedM7) : Option ElementsSlot24BmmEdge :=
  (observedM7.filter fun m7 => requiredProposalActive && m7.canonicalForElements).map fun m7 => {
    parentBlockHash := parsed.metadata.header.previousBlock
    successorBlockHash := parsed.metadata.blockHash
    successorHeight := height
    coinbaseTxid := parsed.metadata.coinbaseTxid
    m7OutputIndex := m7.outputIndex
    committedChildHash := m7.childHash }

/-- The part of `bip300::apply_merkle_bound_elements_slot24_parent_block` behind the parser. -/
def applyParsedBlock (state : ElementsSlot24ReplayState) (parsed : ParsedBlock) :
    Except (Fault ElementsSlot24ReplayError)
      (ElementsSlot24ReplayState × ElementsSlot24BlockEffects) := do
  rejectIf (state.nextHeight ≠ 0 ∧ parsed.metadata.header.previousBlock ≠ state.tipHash)
    (.error .brokenParentLink)
  rejectIf (state.nextHeight = 0 ∧ parsed.metadata.header.previousBlock ≠ .zero 32)
    (.error .brokenParentLink)
  let height := state.nextHeight
  let next ← orError (applyCoinbaseMessages state parsed height)
  let observedM7 ← orError (observeSlot24M7 parsed)
  let progress ← applyTransactions (transactionContext next parsed height observedM7)
    ⟨next.ctip, [], 0⟩ (parsed.transactions.drop 1)
  rejectIf (next.requiredActivation.isSome ∧
    next.activeProposalHash ≠ some next.config.requiredProposalHash)
    (.error .requiredProposalReplaced)
  let requiredProposalActive := next.requiredProposalIsActive
  let nextHeight ← okOr (checkedSucc height) (.error .heightOverflow)
  let final := { next with
    ctip := progress.ctip
    tipHash := parsed.metadata.blockHash
    nextHeight }
  orError final.validate
  return (final, {
    deposits := progress.deposits
    bmmEdge := bmmEdge parsed height requiredProposalActive observedM7
    matchingM8Requests := progress.matchingM8Requests
    sawSlot24M7 := observedM7.isSome
    requiredProposalActive })

/-- `bip300::apply_merkle_bound_elements_slot24_parent_block`. -/
def applyMerkleBoundElementsSlot24ParentBlock (state : ElementsSlot24ReplayState)
    (serializedBlock : List UInt8) :
    Except (Fault ElementsSlot24ReplayError)
      (ElementsSlot24ReplayState × ElementsSlot24BlockEffects) := do
  orError state.validate
  let parsed ← (parseAndVerifyBlock serializedBlock).mapError fun error => .error (.block error)
  applyParsedBlock state parsed

end Blocks

end Usdd.BitcoinBmm

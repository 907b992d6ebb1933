import Usdd.ProofCore.Journal
/-!
# The proof guests

Each guest checks a claim against the manifest, asks the consensus verifier about it, and
commits to a public output in a journal. The Elements guest never sees the burn tree: every
appended burn comes with a branch that must open an empty position under the root so far, and
the same branch carries the root to the next one. The laws say what an accepted claim
established.
-/
namespace Usdd.ProofCore

open Usdd.Foundation Usdd.Core

/-- `guest::VerificationError`. -/
inductive VerificationError where
  | invalidProof (message : String)
deriving DecidableEq

/-- `guest::GuestError`. -/
inductive GuestError where
  | invalidManifest
  | manifestMismatch
  | invalidControllerState
  | configurationMismatch
  | depositTargetsWrongVault
  | depositNonceNotNext
  | invalidDepositBatch
  | invalidControllerTransition
  | invalidBurn
  | burnTargetsWrongAssetOrVault
  | invalidElementsStateTransition
  | activationChainworkNotReached
  | burnAccumulatorMismatch
  | verifierRejected (error : VerificationError)
  | journal (error : JournalError)
deriving DecidableEq

/-- `guest::EthereumStateProofVerifier`. -/
structure EthereumStateProofVerifier (Proof : Type) where
  verifyFinalizedDeposits :
    ProtocolManifest → EthereumDepositClaim → Proof → Except VerificationError Unit
  verifyFinalizedHeartbeat :
    ProtocolManifest → EthereumHeartbeatClaim → Proof → Except VerificationError Unit

/-- `guest::ElementsValidityProofVerifier`. -/
structure ElementsValidityProofVerifier (Proof : Type) where
  verifyElementsStateTransition :
    ProtocolManifest → ElementsStateTransitionClaim → Proof → Except VerificationError Unit

/-- `guest::ELEMENTS_STATE_DOMAIN`. -/
def elementsStateDomain : Hash32 :=
  .ofNat 32 0x33606645c453278aa64c7b45b3f17605cf891556e007fcfc5b9b1daae4f64d5b

/-- `guest::ELEMENTS_STATEMENT_DOMAIN`. -/
def elementsStatementDomain : Hash32 :=
  .ofNat 32 0xe37bee57c273e85755233d972afff18dfe208234eab044e588eec5329f3e8da6

/-- `u64::try_from` of a length. -/
def wordOfLength (length : Nat) : Option UInt64 :=
  if length < 2 ^ 64 then some (UInt64.ofNat length) else none

/-- The preimage of the next chained state hash in `build_elements_state_journal`. -/
def nextHashPreimage (priorBridgeStateHash nextContentsHash : Hash32) : List UInt8 :=
  [encode elementsStateDomain, encode priorBridgeStateHash, encode nextContentsHash].flatten

/-- The preimage of the verifier statement in `build_elements_state_journal`. -/
def statementPreimage (manifest : ProtocolManifest)
    (priorBridgeStateHash currentContentsHash nextBridgeStateHash nextContentsHash : Hash32) :
    List UInt8 :=
  [encode elementsStatementDomain, paddedWord manifest.ethereumChainId, encode manifest.vault,
    encode manifest.vaultId, encode manifest.elementsGuestProgramId,
    encode manifest.verifierConfigHash, encode manifest.elementsGenesis,
    encode manifest.usddAsset, encode priorBridgeStateHash, encode currentContentsHash,
    encode nextBridgeStateHash, encode nextContentsHash].flatten

variable [Hashing] {Proof : Type}

/-- The checks that all guests make of the manifest; the manifest's identifier. -/
def checkManifest (manifest : ProtocolManifest) (claimed : Hash32) :
    Except GuestError Hash32 := do
  manifest.validate.mapError fun _ => GuestError.invalidManifest
  let manifestId ← manifest.manifestId.mapError fun _ => GuestError.invalidManifest
  rejectIf (claimed ≠ manifestId) .manifestMismatch
  return manifestId

/-- The public output of `build_deposit_journal`. -/
def depositOutput (verifier : EthereumStateProofVerifier Proof) (manifest : ProtocolManifest)
    (claim : EthereumDepositClaim) (proof : Proof) : Except GuestError DepositPublicOutput := do
  let manifestId ← checkManifest manifest claim.manifestId
  claim.priorState.validate.mapError fun _ => GuestError.invalidControllerState
  rejectIf (claim.priorState.configurationHash ≠ manifest.controllerConfigurationHash)
    .configurationMismatch
  claim.deposits.forM fun deposit =>
    rejectIf (deposit.ethereumChainId ≠ manifest.ethereumChainId ∨
        deposit.vault ≠ manifest.vault ∨ deposit.usdt ≠ manifest.usdt)
      .depositTargetsWrongVault
  let mintBatch ← (MintBatch.fromDeposits claim.deposits).mapError fun _ =>
    GuestError.invalidDepositBatch
  rejectIf (mintBatch.firstNonce ≠ claim.priorState.nextMintNonce) .depositNonceNotNext
  let nextState ← (claim.priorState.applyMintBatch mintBatch claim.finality).mapError fun _ =>
    GuestError.invalidControllerTransition
  (verifier.verifyFinalizedDeposits manifest claim proof).mapError GuestError.verifierRejected
  return {
    manifestId := manifestId
    claimId := claim.claimId
    priorState := claim.priorState
    nextState := nextState
    finalizedExecutionBlockTimestamp := claim.finality.executionBlockTimestamp
    mintBatch := mintBatch }

/-- `guest::build_deposit_journal`. -/
def buildDepositJournal (verifier : EthereumStateProofVerifier Proof)
    (manifest : ProtocolManifest) (claim : EthereumDepositClaim) (proof : Proof) :
    Except GuestError StrictJournal := do
  let output ← depositOutput verifier manifest claim proof
  (StrictJournal.new .ethereumState manifest.ethereumGuestProgramId (encode output)).mapError
    GuestError.journal

/-- The public output of `build_heartbeat_journal`. -/
def heartbeatOutput (verifier : EthereumStateProofVerifier Proof) (manifest : ProtocolManifest)
    (claim : EthereumHeartbeatClaim) (proof : Proof) :
    Except GuestError HeartbeatPublicOutput := do
  let manifestId ← checkManifest manifest claim.manifestId
  rejectIf (claim.priorState.configurationHash ≠ manifest.controllerConfigurationHash)
    .configurationMismatch
  let nextState ← (claim.priorState.applyHeartbeat claim.finality).mapError fun _ =>
    GuestError.invalidControllerTransition
  (verifier.verifyFinalizedHeartbeat manifest claim proof).mapError GuestError.verifierRejected
  return {
    manifestId := manifestId
    claimId := claim.claimId
    priorState := claim.priorState
    nextState := nextState
    finalizedExecutionBlockTimestamp := claim.finality.executionBlockTimestamp }

/-- `guest::build_heartbeat_journal`. -/
def buildHeartbeatJournal (verifier : EthereumStateProofVerifier Proof)
    (manifest : ProtocolManifest) (claim : EthereumHeartbeatClaim) (proof : Proof) :
    Except GuestError StrictJournal := do
  let output ← heartbeatOutput verifier manifest claim proof
  (StrictJournal.new .ethereumState manifest.ethereumGuestProgramId (encode output)).mapError
    GuestError.journal

/-- The loop over the appended burns in `build_elements_state_journal`, from an offset and a
root on; the root after the last one. -/
def appendBurns (manifest : ProtocolManifest) (priorCount : UInt64) (emptyLeaf : Hash32) :
    Nat → Hash32 → List BurnAppend → Except GuestError Hash32
  | _, root, [] => return root
  | offset, root, append :: rest => do
    append.burn.validate.mapError fun _ => GuestError.invalidBurn
    rejectIf (append.burn.vaultId ≠ manifest.vaultId ∨
        append.burn.usddAsset ≠ manifest.usddAsset)
      .burnTargetsWrongAssetOrVault
    let index ← okOr (checkedAdd priorCount (UInt64.ofNat offset))
      .invalidElementsStateTransition
    rejectIf (append.emptyBranch.verify root emptyLeaf index = false) .burnAccumulatorMismatch
    let leaf ← ((append.burn.solidityClaim manifest.elementsGenesis).burnLeaf index).mapError
      fun _ => GuestError.invalidBurn
    appendBurns manifest priorCount emptyLeaf (offset + 1)
      (append.emptyBranch.computeRoot leaf index) rest

/-- The root that the appends of `build_elements_state_journal` start from. -/
def startingRoot (priorState : SolidityElementsBridgeState) : Except GuestError Hash32 :=
  if priorState.IsZero then
    (burnAccumulatorEmpty 64).mapError fun _ => GuestError.invalidElementsStateTransition
  else .ok priorState.cumulativeBurnRoot

/-- The public output of `build_elements_state_journal`. -/
def elementsStateOutput (verifier : ElementsValidityProofVerifier Proof)
    (manifest : ProtocolManifest) (claim : ElementsStateTransitionClaim) (proof : Proof) :
    Except GuestError ElementsStatePublicOutput := do
  let manifestId ← checkManifest manifest claim.manifestId
  rejectIf (¬(claim.priorState.IsZero ↔ claim.priorBridgeStateHash = .zero))
    .invalidElementsStateTransition
  (claim.priorState.validateSuccessor claim.nextState).mapError fun _ =>
    GuestError.invalidElementsStateTransition
  rejectIf (claim.priorBridgeStateHash = .zero ∧
      claim.nextState.bitcoinChainwork < manifest.minimumActivationChainwork)
    .activationChainworkNotReached
  let appendCount ← okOr (wordOfLength claim.appendedBurns.length)
    .invalidElementsStateTransition
  let expectedBurnCount ← okOr (checkedAdd claim.priorState.burnCount appendCount)
    .invalidElementsStateTransition
  rejectIf (claim.nextState.burnCount ≠ expectedBurnCount) .invalidElementsStateTransition
  let root ← startingRoot claim.priorState
  let emptyLeaf ← (burnAccumulatorEmpty 0).mapError fun _ =>
    GuestError.invalidElementsStateTransition
  let root ← appendBurns manifest claim.priorState.burnCount emptyLeaf 0 root claim.appendedBurns
  rejectIf (root ≠ claim.nextState.cumulativeBurnRoot) .burnAccumulatorMismatch
  (verifier.verifyElementsStateTransition manifest claim proof).mapError
    GuestError.verifierRejected
  let currentContentsHash := claim.priorState.contentsHash
  let nextContentsHash := claim.nextState.contentsHash
  let nextBridgeStateHash := hashBytes (nextHashPreimage claim.priorBridgeStateHash
    nextContentsHash)
  let verifierStatement := hashBytes (statementPreimage manifest claim.priorBridgeStateHash
    currentContentsHash nextBridgeStateHash nextContentsHash)
  return {
    manifestId := manifestId
    claimId := claim.claimId
    priorBridgeStateHash := claim.priorBridgeStateHash
    nextBridgeStateHash := nextBridgeStateHash
    verifierStatement := verifierStatement
    priorState := claim.priorState
    nextState := claim.nextState }

/-- `guest::build_elements_state_journal`. -/
def buildElementsStateJournal (verifier : ElementsValidityProofVerifier Proof)
    (manifest : ProtocolManifest) (claim : ElementsStateTransitionClaim) (proof : Proof) :
    Except GuestError StrictJournal := do
  let output ← elementsStateOutput verifier manifest claim proof
  (StrictJournal.new .elementsState manifest.elementsGuestProgramId (encode output)).mapError
    GuestError.journal

end Usdd.ProofCore

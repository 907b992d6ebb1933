import Usdd.Foundation.Keccak
import Usdd.Contracts.ExactSafeERC20
import Usdd.Contracts.Sha256SparseMerkle
/-!
# The vault contract

`USDDVaultV1` as programs over its storage and an arbitrary world. A world answers the static
calls the vault makes: token balances, code hashes and the proof verifier's three view
functions, where an answer that does not decode counts as a failed call. Token transfers are
open calls, during which anything may happen, the vault's own functions included. Functions
that only read are plain functions of immutables and storage; checked arithmetic reverts.
-/
namespace Usdd.Contracts

open Usdd.Foundation Usdd.Foundation.Reentrant Usdd.Core

/-- `USDDVaultV1.PROTOCOL_VERSION`. -/
def protocolVersion : UInt32 := 1

/-- `USDDVaultV1.MAX_BURNS_PER_STATE_TRANSITION`. -/
def maxBurnsPerStateTransition : UInt64 := 64

/-- `USDDVaultV1.MAX_ELEMENTS_SCRIPT_LENGTH`. -/
def maxElementsScriptLength : Nat := 128

/-- `USDDVaultV1.MAX_DEPOSIT_AMOUNT_USDT6`. -/
def maxDepositAmountUSDT6 : UInt64 := 20000000000000

/-- `USDDVaultV1.MAX_BURN_AMOUNT_USDT6`. -/
def maxBurnAmountUSDT6 : UInt64 := 20000000000000

/-- `USDDVaultV1.ACTIVE_LIABILITY_CAP_USDT6`. -/
def activeLiabilityCapUSDT6 : Uint256 := 1000000000000000

/-- `USDDVaultV1.EMPTY_BURN_ROOT`. -/
def emptyBurnRoot : Hash32 :=
  .ofNat 32 0xc13fcc5e95b202155d131894da01dff87c8ac722937c76415daab46e53ed40db

/-- `USDDVaultV1.VAULT_ID_DOMAIN`. -/
def vaultIdDomain : Hash32 := keccak256 (asciiBytes "USDD_VAULT_ID_V1")

/-- `USDDVaultV1.DEPOSIT_ID_DOMAIN`. -/
def depositIdDomain : Hash32 := keccak256 (asciiBytes "USDD_DEPOSIT_ID_V1")

/-- `USDDVaultV1.ELEMENTS_STATE_DOMAIN`. -/
def elementsStateDomain : Hash32 := keccak256 (asciiBytes "USDD_ELEMENTS_STATE_V1")

/-- `USDDVaultV1.ELEMENTS_STATEMENT_DOMAIN`. -/
def elementsStatementDomain : Hash32 := keccak256 (asciiBytes "USDD_ELEMENTS_STATEMENT_V1")

/-- `USDDVaultV1.BURN_LEAF_DOMAIN`. -/
def burnLeafDomain : Hash32 := keccak256 (asciiBytes "USDD_BURN_LEAF_V1")

/-- `USDDVaultV1.BURN_ID_DOMAIN`. -/
def burnIdDomain : Hash32 :=
  .ofNat 32 0x5811f3ff8b8f31fb49ffb91afab13197c3d72e926549ae29dbda46c6998a3e45

/-- `USDDVaultV1.ElementsBridgeState`. -/
@[ext]
structure ElementsBridgeState where
  sequence : UInt64
  burnCount : UInt64
  elementsTipHash : Hash32
  elementsConsensusStateDigest : Hash32
  cumulativeBurnRoot : Hash32
  finalizedBitcoinBlockHash : Hash32
  bitcoinHeight : UInt64
  elementsHeight : UInt64
  bitcoinMedianTimePast : UInt64
  bitcoinChainwork : Uint256
deriving DecidableEq

/-- The default value of the struct. -/
def ElementsBridgeState.zero : ElementsBridgeState :=
  ⟨0, 0, .zero, .zero, .zero, .zero, 0, 0, 0, 0⟩

/-- `USDDVaultV1.BurnClaim`. -/
@[ext]
structure BurnClaim where
  protocolVersion : UInt32
  elementsGenesisHash : Hash32
  usddAssetId : Hash32
  vaultId : Hash32
  burnTxid : Hash32
  burnVout : UInt32
  burnId : Hash32
  amountUSDT6 : UInt64
  recipient : EthAddress
deriving DecidableEq

/-- The custom errors of the vault, its library's errors, a failed external view call and the
panic of checked arithmetic. -/
inductive VaultError where
  | zeroAddress
  | addressHasNoCode (target : EthAddress)
  | zeroIdentifier
  | verifierProgramIdMismatch (expected reported : Hash32)
  | verifierConfigHashMismatch (expected reported : Hash32)
  | zeroAmount
  | depositAmountAboveMaximum (supplied maximum : UInt64)
  | invalidElementsScriptLength (supplied : Nat)
  | invalidDepositCommitment
  | liabilityCapExceeded (attempted cap : Uint256)
  | reentrantCall
  | wrongStateSequence (expected supplied : UInt64)
  | decreasingBurnCount (current proposed : UInt64)
  | burnCountGrowthAboveMaximum (growth maximum : UInt64)
  | nonCanonicalEmptyBurnRoot (supplied expected : Hash32)
  | burnRootChangedWithoutNewBurn (current proposed : Hash32)
  | elementsConsensusStateDidNotAdvance (current : Hash32)
  | invalidElementsState
  | nonIncreasingBitcoinHeight (current proposed : UInt64)
  | nonIncreasingElementsHeight (current proposed : UInt64)
  | decreasingBitcoinMedianTimePast (current proposed : UInt64)
  | nonIncreasingBitcoinChainwork (current proposed : Uint256)
  | activationChainworkNotReached (proposed minimum : Uint256)
  | stateProofRejected (statement : Hash32)
  | verifierCodeChanged (expected actual : Hash32)
  | bridgeNotActive
  | wrongProtocolVersion (supplied : UInt32)
  | wrongVaultId (supplied : Hash32)
  | wrongElementsGenesisHash (supplied : Hash32)
  | wrongUsddAssetId (supplied : Hash32)
  | wrongBurnId (expected supplied : Hash32)
  | invalidBurnClaim
  | burnIndexNotFinalized (burnIndex burnCount : UInt64)
  | burnAlreadySpent (burnId : Hash32)
  | invalidBurnProof (burnId : Hash32)
  | liabilityInsufficient (amount liability : Uint256)
  | reserveInsolvent (reserve liability : Uint256)
  | token (error : TokenError)
  | externalCallFailed
  | arithmeticPanic
deriving DecidableEq

/-- The events of the vault. -/
inductive VaultEvent where
  | depositAccepted (depositId : Hash32) (nonce : UInt64) (depositor : EthAddress)
      (amountUSDT6 : UInt64) (elementsScriptHash : Hash32) (elementsScript : List UInt8)
      (userSalt : Hash32)
  | elementsStateAdvanced (previousStateHash newStateHash cumulativeBurnRoot : Hash32)
      (sequence burnCount : UInt64) (submitter : EthAddress)
  | burnRedeemed (burnId : Hash32) (burnIndex : UInt64) (recipient : EthAddress)
      (amountUSDT6 : UInt64) (authorizingStateHash : Hash32) (submitter : EthAddress)

/-- The immutables of a deployed vault, with the chain and address it was deployed at. -/
structure Vault where
  chainId : Uint256
  self : EthAddress
  usdt : EthAddress
  proofVerifier : EthAddress
  proofVerifierCodehash : Hash32
  verifierProgramId : Hash32
  verifierConfigHash : Hash32
  elementsGenesisHash : Hash32
  usddAssetId : Hash32
  vaultId : Hash32
  minimumActivationChainwork : Uint256

/-- The storage of the vault, and the events it emitted. -/
structure VaultStorage where
  finalizedState : ElementsBridgeState
  bridgeStateHash : Hash32
  nextDepositNonce : UInt64
  principalLiabilityUSDT6 : Uint256
  totalDepositedUSDT6 : Uint256
  totalRedeemedUSDT6 : Uint256
  depositCommitmentByNonce : UInt64 → Hash32
  spentBurnIds : Hash32 → Bool
  reentrancyLock : Uint256
  events : List VaultEvent

/-- The storage after construction: every variable at its default, the lock at one. -/
def VaultStorage.fresh : VaultStorage where
  finalizedState := .zero
  bridgeStateHash := .zero
  nextDepositNonce := 0
  principalLiabilityUSDT6 := 0
  totalDepositedUSDT6 := 0
  totalRedeemedUSDT6 := 0
  depositCommitmentByNonce := fun _ => .zero
  spentBurnIds := fun _ => false
  reentrancyLock := 1
  events := []

/-- How a world answers the static calls of the vault; a failed or undecodable answer of the
verifier is `none`. -/
structure VaultView (World : Type) where
  balances : BalanceView World
  codeLength : World → EthAddress → Nat
  codehash : World → EthAddress → Hash32
  verifierProgramId : World → EthAddress → Option Hash32
  verifierConfigHash : World → EthAddress → Option Hash32
  verify : World → EthAddress → Hash32 → List UInt8 → Option Bool

/-- A program of the vault. -/
abbrev VaultProgram (World : Type) :=
  Program World VaultStorage TokenRequest CallResult VaultError

section Hashes

/-- The preimage of `VAULT_ID` in the constructor. -/
def vaultIdPreimage (chainId : Uint256) (self usdt proofVerifier : EthAddress)
    (verifierProgramId verifierConfigHash elementsGenesisHash usddAssetId : Hash32)
    (minimumActivationChainwork : Uint256) : List UInt8 :=
  [encode vaultIdDomain, encode chainId, encode self, encode usdt, encode proofVerifier,
    encode verifierProgramId, encode verifierConfigHash, encode elementsGenesisHash,
    encode usddAssetId, encode activeLiabilityCapUSDT6,
    encode minimumActivationChainwork].flatten

/-- The preimage of the deposit commitment in `deposit`. -/
def Vault.depositPreimage (vault : Vault) (nonce : UInt64) (depositor : EthAddress)
    (amountUSDT6 : UInt64) (scriptHash userSalt : Hash32) : List UInt8 :=
  [encode depositIdDomain, encode protocolVersion, encode vault.chainId, encode vault.self,
    encode vault.usdt, encode nonce, encode depositor, encode amountUSDT6, encode scriptHash,
    encode userSalt].flatten

/-- The preimage of `_hashStateContents`. -/
def ElementsBridgeState.packed (state : ElementsBridgeState) : List UInt8 :=
  [encode state.sequence, encode state.burnCount, encode state.elementsTipHash,
    encode state.elementsConsensusStateDigest, encode state.cumulativeBurnRoot,
    encode state.finalizedBitcoinBlockHash, encode state.bitcoinHeight,
    encode state.elementsHeight, encode state.bitcoinMedianTimePast,
    encode state.bitcoinChainwork].flatten

/-- The preimage of the chained state hash in `elementsStateStatement`. -/
def stateHashPreimage (bridgeStateHash nextStateContentsHash : Hash32) : List UInt8 :=
  [encode elementsStateDomain, encode bridgeStateHash, encode nextStateContentsHash].flatten

/-- The preimage of the statement in `elementsStateStatement`. -/
def Vault.statementPreimage (vault : Vault)
    (bridgeStateHash currentStateContentsHash nextStateHash nextStateContentsHash : Hash32) :
    List UInt8 :=
  [encode elementsStatementDomain, encode vault.chainId, encode vault.self, encode vault.vaultId,
    encode vault.verifierProgramId, encode vault.verifierConfigHash,
    encode vault.elementsGenesisHash, encode vault.usddAssetId, encode bridgeStateHash,
    encode currentStateContentsHash, encode nextStateHash, encode nextStateContentsHash].flatten

/-- The preimage of `computeBurnId`. -/
def Vault.burnIdPreimage (vault : Vault) (burnTxid : Hash32) (burnVout : UInt32) : List UInt8 :=
  [encode burnIdDomain, encode vault.elementsGenesisHash, encode burnTxid,
    encode burnVout].flatten

variable [Hashing]

/-- `USDDVaultV1._hashStateContents`. -/
def hashStateContents (state : ElementsBridgeState) : Hash32 := Hashing.sha256 state.packed

/-- `USDDVaultV1.elementsStateStatement`. -/
def Vault.elementsStateStatement (vault : Vault) (storage : VaultStorage)
    (next : ElementsBridgeState) : Hash32 × Hash32 :=
  let currentStateContentsHash := hashStateContents storage.finalizedState
  let nextStateContentsHash := hashStateContents next
  let nextStateHash :=
    Hashing.sha256 (stateHashPreimage storage.bridgeStateHash nextStateContentsHash)
  let statement := Hashing.sha256 (vault.statementPreimage storage.bridgeStateHash
    currentStateContentsHash nextStateHash nextStateContentsHash)
  (nextStateHash, statement)

/-- `USDDVaultV1.computeBurnId`. -/
def Vault.computeBurnId (vault : Vault) (burnTxid : Hash32) (burnVout : UInt32) : Hash32 :=
  Hashing.sha256 (vault.burnIdPreimage burnTxid burnVout)

/-- `USDDVaultV1.hashBurnLeaf`. -/
def hashBurnLeaf (claim : BurnClaim) (burnIndex : UInt64) : Hash32 :=
  Sha256SparseMerkle.hashLeaf burnLeafDomain claim.protocolVersion claim.vaultId
    claim.elementsGenesisHash claim.usddAssetId claim.burnId burnIndex claim.amountUSDT6
    claim.recipient

end Hashes

/-- A checked result, or the panic of checked arithmetic. -/
def orPanic {α : Type} (result : Option α) : Except VaultError α := okOr result .arithmeticPanic

section Functions

variable [Hashing] {World : Type} (view : VaultView World) (vault : Vault)

/-- The constructor, from the world it runs in. -/
def construct (world : World) (chainId : Uint256) (self usdt proofVerifier : EthAddress)
    (verifierProgramId verifierConfigHash elementsGenesisHash usddAssetId : Hash32)
    (minimumActivationChainwork : Uint256) : Except VaultError Vault := do
  rejectIf (usdt = .zero ∨ proofVerifier = .zero) .zeroAddress
  rejectIf (view.codeLength world usdt = 0) (.addressHasNoCode usdt)
  rejectIf (view.codeLength world proofVerifier = 0) (.addressHasNoCode proofVerifier)
  rejectIf (verifierProgramId = .zero ∨ verifierConfigHash = .zero ∨
      elementsGenesisHash = .zero ∨ usddAssetId = .zero ∨ minimumActivationChainwork = 0)
    .zeroIdentifier
  let reportedProgramId ← okOr (view.verifierProgramId world proofVerifier) .externalCallFailed
  rejectIf (reportedProgramId ≠ verifierProgramId)
    (.verifierProgramIdMismatch verifierProgramId reportedProgramId)
  let reportedConfigHash ← okOr (view.verifierConfigHash world proofVerifier) .externalCallFailed
  rejectIf (reportedConfigHash ≠ verifierConfigHash)
    (.verifierConfigHashMismatch verifierConfigHash reportedConfigHash)
  return {
    chainId := chainId
    self := self
    usdt := usdt
    proofVerifier := proofVerifier
    proofVerifierCodehash := view.codehash world proofVerifier
    verifierProgramId := verifierProgramId
    verifierConfigHash := verifierConfigHash
    elementsGenesisHash := elementsGenesisHash
    usddAssetId := usddAssetId
    vaultId := Hashing.sha256 (vaultIdPreimage chainId self usdt proofVerifier verifierProgramId
      verifierConfigHash elementsGenesisHash usddAssetId minimumActivationChainwork)
    minimumActivationChainwork := minimumActivationChainwork }

/-- The modifier `nonReentrant`. -/
def nonReentrant {α : Type} (body : VaultProgram World α) : VaultProgram World α := do
  let storage ← Program.load
  Program.revertIf (storage.reentrancyLock ≠ 1) .reentrantCall
  Program.update fun storage => { storage with reentrancyLock := 2 }
  let result ← body
  Program.update fun storage => { storage with reentrancyLock := 1 }
  return result

/-- Append an event. -/
def emit (event : VaultEvent) : VaultProgram World Unit :=
  Program.update fun storage => { storage with events := storage.events ++ [event] }

/-- `USDDVaultV1._requireSolvent`. -/
def requireSolvent (liability : Uint256) : VaultProgram World Unit := do
  let reserve ← balanceOf view.balances VaultError.token vault.usdt vault.self
  Program.revertIf (reserve < liability) (.reserveInsolvent reserve liability)

/-- `USDDVaultV1.deposit`. -/
def deposit (sender : EthAddress) (amountUSDT6 : UInt64) (elementsScript : List UInt8)
    (userSalt : Hash32) : VaultProgram World (UInt64 × Hash32) := nonReentrant do
  Program.revertIf (amountUSDT6 = 0) .zeroAmount
  Program.revertIf (amountUSDT6 > maxDepositAmountUSDT6)
    (.depositAmountAboveMaximum amountUSDT6 maxDepositAmountUSDT6)
  Program.revertIf (elementsScript.length = 0 ∨ elementsScript.length > maxElementsScriptLength)
    (.invalidElementsScriptLength elementsScript.length)
  let storage ← Program.load
  let newLiability ← Program.ofExcept
    (orPanic (checkedAdd256 storage.principalLiabilityUSDT6 (widen amountUSDT6)))
  Program.revertIf (newLiability > activeLiabilityCapUSDT6)
    (.liabilityCapExceeded newLiability activeLiabilityCapUSDT6)
  let nonce := storage.nextDepositNonce
  let nextNonce ← Program.ofExcept (orPanic (checkedAdd nonce 1))
  Program.update fun storage => { storage with nextDepositNonce := nextNonce }
  let scriptHash := Hashing.sha256 elementsScript
  let depositId := Hashing.sha256
    (vault.depositPreimage nonce sender amountUSDT6 scriptHash userSalt)
  Program.revertIf (depositId = .zero) .invalidDepositCommitment
  pullExact view.balances VaultError.token vault.self vault.usdt sender (widen amountUSDT6)
  Program.update fun storage => { storage with
    depositCommitmentByNonce := Function.update storage.depositCommitmentByNonce nonce depositId }
  Program.update fun storage => { storage with principalLiabilityUSDT6 := newLiability }
  let storage ← Program.load
  let totalDeposited ← Program.ofExcept
    (orPanic (checkedAdd256 storage.totalDepositedUSDT6 (widen amountUSDT6)))
  Program.update fun storage => { storage with totalDepositedUSDT6 := totalDeposited }
  requireSolvent view vault newLiability
  emit (.depositAccepted depositId nonce sender amountUSDT6 scriptHash elementsScript userSalt)
  return (nonce, depositId)

/-- `USDDVaultV1._validateNextState`. -/
def validateNextState (storage : VaultStorage) (next : ElementsBridgeState) :
    Except VaultError Unit := do
  let finalized := storage.finalizedState
  let expectedSequence ← orPanic (checkedAdd finalized.sequence 1)
  rejectIf (next.sequence ≠ expectedSequence)
    (VaultError.wrongStateSequence expectedSequence next.sequence)
  rejectIf (next.burnCount < finalized.burnCount)
    (VaultError.decreasingBurnCount finalized.burnCount next.burnCount)
  let burnCountGrowth ← orPanic (checkedSub next.burnCount finalized.burnCount)
  rejectIf (burnCountGrowth > maxBurnsPerStateTransition)
    (VaultError.burnCountGrowthAboveMaximum burnCountGrowth maxBurnsPerStateTransition)
  rejectIf (next.burnCount = 0 ∧ next.cumulativeBurnRoot ≠ emptyBurnRoot)
    (VaultError.nonCanonicalEmptyBurnRoot next.cumulativeBurnRoot emptyBurnRoot)
  rejectIf (finalized.sequence ≠ 0 ∧ next.burnCount = finalized.burnCount ∧
      next.cumulativeBurnRoot ≠ finalized.cumulativeBurnRoot)
    (VaultError.burnRootChangedWithoutNewBurn finalized.cumulativeBurnRoot
      next.cumulativeBurnRoot)
  rejectIf (finalized.sequence ≠ 0 ∧
      next.elementsConsensusStateDigest = finalized.elementsConsensusStateDigest)
    (VaultError.elementsConsensusStateDidNotAdvance finalized.elementsConsensusStateDigest)
  rejectIf (next.elementsTipHash = .zero ∨ next.elementsConsensusStateDigest = .zero ∨
      next.cumulativeBurnRoot = .zero ∨ next.finalizedBitcoinBlockHash = .zero)
    VaultError.invalidElementsState
  rejectIf (next.bitcoinHeight ≤ finalized.bitcoinHeight)
    (VaultError.nonIncreasingBitcoinHeight finalized.bitcoinHeight next.bitcoinHeight)
  rejectIf (next.elementsHeight ≤ finalized.elementsHeight)
    (VaultError.nonIncreasingElementsHeight finalized.elementsHeight next.elementsHeight)
  rejectIf (next.bitcoinMedianTimePast < finalized.bitcoinMedianTimePast)
    (VaultError.decreasingBitcoinMedianTimePast finalized.bitcoinMedianTimePast
      next.bitcoinMedianTimePast)
  rejectIf (next.bitcoinChainwork ≤ finalized.bitcoinChainwork)
    (VaultError.nonIncreasingBitcoinChainwork finalized.bitcoinChainwork next.bitcoinChainwork)
  rejectIf (storage.bridgeStateHash = .zero ∧
      next.bitcoinChainwork < vault.minimumActivationChainwork)
    (VaultError.activationChainworkNotReached next.bitcoinChainwork
      vault.minimumActivationChainwork)

/-- `USDDVaultV1.advanceElementsState`. -/
def advanceElementsState (sender : EthAddress) (next : ElementsBridgeState)
    (proof : List UInt8) : VaultProgram World Unit := nonReentrant do
  let storage ← Program.load
  Program.ofExcept (validateNextState vault storage next)
  let (nextStateHash, statement) := vault.elementsStateStatement storage next
  let currentVerifierCodehash ← Program.inspect fun world =>
    view.codehash world vault.proofVerifier
  Program.revertIf (currentVerifierCodehash ≠ vault.proofVerifierCodehash)
    (.verifierCodeChanged vault.proofVerifierCodehash currentVerifierCodehash)
  let programId ← Program.inspect fun world => view.verifierProgramId world vault.proofVerifier
  let reportedProgramId ← Program.ofExcept (okOr programId .externalCallFailed)
  Program.revertIf (reportedProgramId ≠ vault.verifierProgramId)
    (.verifierProgramIdMismatch vault.verifierProgramId reportedProgramId)
  let configHash ← Program.inspect fun world => view.verifierConfigHash world vault.proofVerifier
  let reportedConfigHash ← Program.ofExcept (okOr configHash .externalCallFailed)
  Program.revertIf (reportedConfigHash ≠ vault.verifierConfigHash)
    (.verifierConfigHashMismatch vault.verifierConfigHash reportedConfigHash)
  let verdict ← Program.inspect fun world => view.verify world vault.proofVerifier statement proof
  let accepted ← Program.ofExcept (okOr verdict .externalCallFailed)
  Program.revertIf (accepted = false) (.stateProofRejected statement)
  let previousStateHash := storage.bridgeStateHash
  Program.update fun storage => { storage with finalizedState := next }
  Program.update fun storage => { storage with bridgeStateHash := nextStateHash }
  emit (.elementsStateAdvanced previousStateHash nextStateHash next.cumulativeBurnRoot
    next.sequence next.burnCount sender)

/-- The checks of `USDDVaultV1.redeem` that precede its first external call. -/
def checkRedeem (storage : VaultStorage) (claim : BurnClaim) (burnIndex : UInt64)
    (merkleBranch : Vector Hash32 64) : Except VaultError Unit := do
  rejectIf (storage.bridgeStateHash = .zero) VaultError.bridgeNotActive
  rejectIf (claim.protocolVersion ≠ protocolVersion)
    (VaultError.wrongProtocolVersion claim.protocolVersion)
  rejectIf (claim.elementsGenesisHash ≠ vault.elementsGenesisHash)
    (VaultError.wrongElementsGenesisHash claim.elementsGenesisHash)
  rejectIf (claim.usddAssetId ≠ vault.usddAssetId) (VaultError.wrongUsddAssetId claim.usddAssetId)
  rejectIf (claim.vaultId ≠ vault.vaultId) (VaultError.wrongVaultId claim.vaultId)
  let expectedBurnId := vault.computeBurnId claim.burnTxid claim.burnVout
  rejectIf (claim.burnId ≠ expectedBurnId) (VaultError.wrongBurnId expectedBurnId claim.burnId)
  rejectIf (claim.burnId = .zero ∨ claim.amountUSDT6 = 0 ∨
      claim.amountUSDT6 > maxBurnAmountUSDT6 ∨ claim.recipient = .zero ∨
      claim.recipient = vault.self)
    VaultError.invalidBurnClaim
  rejectIf (burnIndex ≥ storage.finalizedState.burnCount)
    (VaultError.burnIndexNotFinalized burnIndex storage.finalizedState.burnCount)
  rejectIf (storage.spentBurnIds claim.burnId = true) (VaultError.burnAlreadySpent claim.burnId)
  rejectIf (widen claim.amountUSDT6 > storage.principalLiabilityUSDT6)
    (VaultError.liabilityInsufficient (widen claim.amountUSDT6) storage.principalLiabilityUSDT6)
  let leaf := hashBurnLeaf claim burnIndex
  rejectIf (Sha256SparseMerkle.verify storage.finalizedState.cumulativeBurnRoot leaf burnIndex
      merkleBranch = false)
    (VaultError.invalidBurnProof claim.burnId)

/-- `USDDVaultV1.redeem`. -/
def redeem (sender : EthAddress) (claim : BurnClaim) (burnIndex : UInt64)
    (merkleBranch : Vector Hash32 64) : VaultProgram World Unit := nonReentrant do
  let storage ← Program.load
  Program.ofExcept (checkRedeem vault storage claim burnIndex merkleBranch)
  requireSolvent view vault storage.principalLiabilityUSDT6
  Program.update fun storage => { storage with
    spentBurnIds := Function.update storage.spentBurnIds claim.burnId true }
  let storage ← Program.load
  let liability ← Program.ofExcept
    (orPanic (checkedSub256 storage.principalLiabilityUSDT6 (widen claim.amountUSDT6)))
  Program.update fun storage => { storage with principalLiabilityUSDT6 := liability }
  let totalRedeemed ← Program.ofExcept
    (orPanic (checkedAdd256 storage.totalRedeemedUSDT6 (widen claim.amountUSDT6)))
  Program.update fun storage => { storage with totalRedeemedUSDT6 := totalRedeemed }
  pushExact view.balances VaultError.token vault.self vault.usdt claim.recipient
    (widen claim.amountUSDT6)
  let storage ← Program.load
  requireSolvent view vault storage.principalLiabilityUSDT6
  emit (.burnRedeemed claim.burnId burnIndex claim.recipient claim.amountUSDT6
    storage.bridgeStateHash sender)

/-- A call of one of the vault's entry points. -/
inductive VaultCall where
  | deposit (sender : EthAddress) (amountUSDT6 : UInt64) (elementsScript : List UInt8)
      (userSalt : Hash32)
  | advanceElementsState (sender : EthAddress) (next : ElementsBridgeState) (proof : List UInt8)
  | redeem (sender : EthAddress) (claim : BurnClaim) (burnIndex : UInt64)
      (merkleBranch : Vector Hash32 64)

/-- What a returned call gives back. -/
inductive VaultResult where
  | deposited (nonce : UInt64) (depositId : Hash32)
  | advanced
  | redeemed

/-- The entry points of the vault. -/
def vaultContract : VaultCall → VaultProgram World VaultResult
  | .deposit sender amountUSDT6 elementsScript userSalt => do
    let (nonce, depositId) ← deposit view vault sender amountUSDT6 elementsScript userSalt
    return .deposited nonce depositId
  | .advanceElementsState sender next proof => do
    advanceElementsState view vault sender next proof
    return .advanced
  | .redeem sender claim burnIndex merkleBranch => do
    redeem view vault sender claim burnIndex merkleBranch
    return .redeemed

end Functions

end Usdd.Contracts

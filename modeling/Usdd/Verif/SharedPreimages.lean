import Usdd.ProofCore.Guest
import Usdd.Verif.ElementsSuccessor
/-!
# Preimages that both sides of the bridge hash

Contract and crate build each commitment from their own fields, with a `uint256` on one side
where the other pads a `u64`, and with domains that one side computes and the other writes out.
Here the byte strings are shown to be the same, for a manifest that matches the vault.
-/
namespace Usdd.Verif

open Usdd.Foundation Usdd.Core Usdd.Contracts

/-- A manifest whose commitments are the immutables of a vault. -/
structure Matches (manifest : ProtocolManifest) (vault : Vault) : Prop where
  chainId : vault.chainId = widen manifest.ethereumChainId
  self : vault.self = manifest.vault
  vaultId : vault.vaultId = manifest.vaultId
  programId : vault.verifierProgramId = manifest.elementsGuestProgramId
  configHash : vault.verifierConfigHash = manifest.verifierConfigHash
  genesis : vault.elementsGenesisHash = manifest.elementsGenesis
  asset : vault.usddAssetId = manifest.usddAsset
  work : vault.minimumActivationChainwork.toNat = manifest.minimumActivationChainwork.toNat

/-- The vault that a manifest describes matches it. -/
theorem matches_vaultFor (manifest : ProtocolManifest) : Matches manifest (vaultFor manifest) := by
  refine ⟨rfl, rfl, rfl, rfl, rfl, rfl, rfl, ?_⟩
  change (BitVec.ofNat 256 _).toNat = _
  rw [BitVec.toNat_ofNat, Nat.mod_eq_of_lt]
  exact Nat.lt_of_lt_of_eq manifest.minimumActivationChainwork.toNat_lt (by norm_num)

/-- The contract's word for a `u64` is the padded word of the crate. -/
@[simp]
theorem encode_widen (value : UInt64) : encode (widen value) = paddedWord value := by
  have fits : value.toNat < 256 ^ 8 := Nat.lt_of_lt_of_eq value.toNat_lt (by decide)
  have padded : beBytes (24 + 8) value.toNat = List.replicate 24 0 ++ beBytes 8 value.toNat :=
    beBytes_add 24 8 fits
  change beBytes 32 (widen value).toNat = _
  rw [widen_toNat]
  exact padded

/-- The domains the contract hashes out of their names are those the crate writes out. -/
theorem depositIdDomain_eq : depositIdDomain = solidityDepositIdDomain := by decide +kernel

theorem vaultIdDomain_eq : vaultIdDomain = solidityVaultIdDomain := by decide +kernel

theorem elementsStateDomain_eq : elementsStateDomain = ProofCore.elementsStateDomain := by
  decide +kernel

theorem elementsStatementDomain_eq :
    elementsStatementDomain = ProofCore.elementsStatementDomain := by
  decide +kernel

theorem burnLeafDomain_eq : burnLeafDomain = solidityBurnLeafDomain := by decide +kernel

/-- The preimage of the chained state hash. -/
theorem stateHashPreimage_eq (bridgeStateHash nextStateContentsHash : Hash32) :
    stateHashPreimage bridgeStateHash nextStateContentsHash =
      ProofCore.nextHashPreimage bridgeStateHash nextStateContentsHash := by
  rw [stateHashPreimage, elementsStateDomain_eq]
  rfl

/-- The preimage of the verifier statement. -/
theorem statementPreimage_eq {manifest : ProtocolManifest} {vault : Vault}
    (matching : Matches manifest vault)
    (bridgeStateHash currentContentsHash nextStateHash nextContentsHash : Hash32) :
    vault.statementPreimage bridgeStateHash currentContentsHash nextStateHash nextContentsHash =
      ProofCore.statementPreimage manifest bridgeStateHash currentContentsHash nextStateHash
        nextContentsHash := by
  rw [Vault.statementPreimage, ProofCore.statementPreimage, elementsStatementDomain_eq,
    matching.chainId, matching.self, matching.vaultId, matching.programId, matching.configHash,
    matching.genesis, matching.asset, encode_widen]

/-- The state of the vault whose value in the crate is given. -/
def ofCore (state : SolidityElementsBridgeState) : ElementsBridgeState where
  sequence := state.sequence
  burnCount := state.burnCount
  elementsTipHash := state.elementsTipHash
  elementsConsensusStateDigest := state.elementsConsensusStateDigest
  cumulativeBurnRoot := state.cumulativeBurnRoot
  finalizedBitcoinBlockHash := state.finalizedBitcoinBlockHash
  bitcoinHeight := state.bitcoinHeight
  elementsHeight := state.elementsHeight
  bitcoinMedianTimePast := state.bitcoinMedianTimePast
  bitcoinChainwork := BitVec.ofNat 256 state.bitcoinChainwork.toNat

@[simp]
theorem ofCore_work (state : SolidityElementsBridgeState) :
    (ofCore state).bitcoinChainwork.toNat = state.bitcoinChainwork.toNat := by
  change (BitVec.ofNat 256 _).toNat = _
  rw [BitVec.toNat_ofNat, Nat.mod_eq_of_lt]
  exact Nat.lt_of_lt_of_eq state.bitcoinChainwork.toNat_lt (by norm_num)

@[simp]
theorem toCore_ofCore (state : SolidityElementsBridgeState) : toCore (ofCore state) = state := by
  have work : (toCore (ofCore state)).bitcoinChainwork = state.bitcoinChainwork := by
    rw [← FixedBytes.toNat_inj, toCore_work, ofCore_work]
  exact SolidityElementsBridgeState.ext rfl rfl rfl rfl rfl rfl rfl rfl rfl work

/-- The crate's value of a claim made to the vault. -/
def toCoreClaim (claim : BurnClaim) : SolidityBurnClaim where
  protocolVersion := claim.protocolVersion
  elementsGenesisHash := claim.elementsGenesisHash
  usddAssetId := claim.usddAssetId
  vaultId := claim.vaultId
  burnTxidDisplay := claim.burnTxid
  burnVout := claim.burnVout
  burnId := claim.burnId
  amountUsdtMicro := claim.amountUSDT6
  recipient := claim.recipient

/-- The leaf of a claim. -/
theorem hashBurnLeaf_eq [Hashing] (claim : BurnClaim) (burnIndex : UInt64) :
    hashBurnLeaf claim burnIndex = hashBytes ((toCoreClaim claim).burnLeafPreimage burnIndex) := by
  rw [hashBurnLeaf, burnLeafDomain_eq]
  rfl

/-- The node function of the tree. -/
theorem hashNode_eq [Hashing] : Sha256SparseMerkle.hashNode = burnAccumulatorNode := rfl

/-- The identifier of a burn. -/
theorem computeBurnId_eq [Hashing] (vault : Vault) (burnTxid : Hash32) (burnVout : UInt32) :
    vault.computeBurnId burnTxid burnVout =
      hashBytes (burnIdPreimage vault.elementsGenesisHash burnTxid burnVout) := rfl

/-- The bytes of a node determine its children. -/
theorem burnNodePreimage_inj {left right left' right' : Hash32}
    (same : burnNodePreimage left right = burnNodePreimage left' right') :
    left = left' ∧ right = right' := by
  have segments := flatten_inj (by simp) same
  simpa using segments

/-- The bytes of a burn identifier determine the outpoint. -/
theorem burnIdPreimage_inj {genesis txid genesis' txid' : Hash32} {vout vout' : UInt32}
    (same : burnIdPreimage genesis txid vout = burnIdPreimage genesis' txid' vout') :
    genesis = genesis' ∧ txid = txid' ∧ vout = vout' := by
  have segments := flatten_inj (by simp) same
  simpa using segments

/-- The bytes of a leaf determine what the vault pays. -/
theorem burnLeafPreimage_inj {left right : SolidityBurnClaim} {leftIndex rightIndex : UInt64}
    (same : left.burnLeafPreimage leftIndex = right.burnLeafPreimage rightIndex) :
    left.usddAssetId = right.usddAssetId ∧ left.vaultId = right.vaultId ∧
      left.burnId = right.burnId ∧ left.amountUsdtMicro = right.amountUsdtMicro ∧
      left.recipient = right.recipient := by
  have segments := flatten_inj (by simp) same
  simp only [List.cons.injEq, encode_fixed_inj, encode_u64_inj, true_and, and_true] at segments
  obtain ⟨_, _, asset, vaultId, burnId, _, amount, recipient⟩ := segments
  exact ⟨asset, vaultId, burnId, amount, recipient⟩

/-- The bytes of a statement determine the contents it is about. -/
theorem statementPreimage_inj {left right : ProtocolManifest}
    {leftPrior leftCurrent leftNext leftContents rightPrior rightCurrent rightNext rightContents :
      Hash32}
    (same : ProofCore.statementPreimage left leftPrior leftCurrent leftNext leftContents =
      ProofCore.statementPreimage right rightPrior rightCurrent rightNext rightContents) :
    leftPrior = rightPrior ∧ leftCurrent = rightCurrent ∧ leftNext = rightNext ∧
      leftContents = rightContents := by
  have segments := flatten_inj (by simp) same
  simp only [List.cons.injEq, encode_fixed_inj, true_and, and_true] at segments
  obtain ⟨_, _, _, _, _, _, _, prior, current, next, contents⟩ := segments
  exact ⟨prior, current, next, contents⟩

end Usdd.Verif

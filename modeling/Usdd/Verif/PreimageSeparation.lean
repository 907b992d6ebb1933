import Usdd.Verif.SharedPreimages
/-!
# The packed preimages, all of them

Seven packed layouts are hashed on both sides of the bridge. `Preimage` names their fields; its
bytes are the bytes of the crates and of the contract, they determine the layout and every
field, and layouts differ already in their length.
-/
namespace Usdd.Verif

open Usdd.Foundation Usdd.Core Usdd.Contracts Usdd.ProofCore

/-- The layouts. -/
inductive PreimageKind where
  | vaultId
  | depositId
  | burnId
  | burnLeaf
  | stateContents
  | nextState
  | statement
deriving DecidableEq

/-- The length of a layout. -/
def PreimageKind.size : PreimageKind → Nat
  | vaultId => 316
  | depositId => 208
  | burnId => 100
  | burnLeaf => 201
  | stateContents => 200
  | nextState => 96
  | statement => 372

theorem PreimageKind.size_inj {left right : PreimageKind} (same : left.size = right.size) :
    left = right := by
  revert same
  cases left <;> cases right <;> decide

/-- A layout with its fields. -/
inductive Preimage where
  | vaultId (chainId : UInt64) (vault usdt proofVerifier : EthAddress)
    (programId configHash genesis asset : Hash32) (liabilityCap : UInt64) (minimumWork : Hash32)
  | depositId (version : UInt32) (chainId : UInt64) (vault usdt : EthAddress)
    (nonce : UInt64) (depositor : EthAddress) (amount : UInt64) (scriptHash userSalt : Hash32)
  | burnId (genesis txid : Hash32) (vout : UInt32)
  | burnLeaf (version : UInt32) (genesis asset vaultId burnId : Hash32)
    (burnIndex amount : UInt64) (recipient : EthAddress)
  | stateContents (state : SolidityElementsBridgeState)
  | nextState (priorStateHash nextContentsHash : Hash32)
  | statement (chainId : UInt64) (vault : EthAddress)
    (vaultId programId configHash genesis asset priorStateHash currentContentsHash nextStateHash
      nextContentsHash : Hash32)

namespace Preimage

/-- The layout of a preimage. -/
def kind : Preimage → PreimageKind
  | vaultId .. => .vaultId
  | depositId .. => .depositId
  | burnId .. => .burnId
  | burnLeaf .. => .burnLeaf
  | stateContents .. => .stateContents
  | nextState .. => .nextState
  | statement .. => .statement

/-- The fields in the order in which they are packed. -/
def segments : Preimage → List (List UInt8)
  | vaultId chainId vault usdt proofVerifier programId configHash genesis asset liabilityCap
      minimumWork =>
    [encode solidityVaultIdDomain, paddedWord chainId, encode vault, encode usdt,
      encode proofVerifier, encode programId, encode configHash, encode genesis, encode asset,
      paddedWord liabilityCap, encode minimumWork]
  | depositId version chainId vault usdt nonce depositor amount scriptHash userSalt =>
    [encode solidityDepositIdDomain, encode version, paddedWord chainId, encode vault,
      encode usdt, encode nonce, encode depositor, encode amount, encode scriptHash,
      encode userSalt]
  | burnId genesis txid vout =>
    [encode Core.burnIdDomain, encode genesis, encode txid, encode vout]
  | burnLeaf version genesis asset vault burn burnIndex amount recipient =>
    [encode (0 : UInt8), encode solidityBurnLeafDomain, encode version, encode genesis,
      encode asset, encode vault, encode burn, encode burnIndex, encode amount,
      encode recipient]
  | stateContents state => state.packedSegments
  | nextState priorStateHash nextContentsHash =>
    [encode ProofCore.elementsStateDomain, encode priorStateHash, encode nextContentsHash]
  | statement chainId vault identity programId configHash genesis asset priorStateHash
      currentContentsHash nextStateHash nextContentsHash =>
    [encode ProofCore.elementsStatementDomain, paddedWord chainId, encode vault, encode identity,
      encode programId, encode configHash, encode genesis, encode asset, encode priorStateHash,
      encode currentContentsHash, encode nextStateHash, encode nextContentsHash]

/-- The packed bytes. -/
def bytes (preimage : Preimage) : List UInt8 := preimage.segments.flatten

theorem bytes_length (preimage : Preimage) : preimage.bytes.length = preimage.kind.size := by
  cases preimage <;>
    simp [bytes, segments, kind, PreimageKind.size, SolidityElementsBridgeState.packedSegments]

theorem paddedWord_inj {left right : UInt64} :
    paddedWord left = paddedWord right ↔ left = right := by
  rw [paddedWord, paddedWord, List.append_cancel_left_eq, encode_u64_inj]

/-- The bytes determine the layout and its fields: the length tells the layouts apart, and the
fields of a layout have fixed widths. -/
theorem bytes_inj {left right : Preimage} (same : left.bytes = right.bytes) : left = right := by
  have kinds : left.kind = right.kind := by
    apply PreimageKind.size_inj
    rw [← bytes_length, ← bytes_length, same]
  have lengths : left.segments.map List.length = right.segments.map List.length := by
    cases left <;> cases right <;>
      first
      | simp only [kind, reduceCtorEq] at kinds; done
      | simp [segments, SolidityElementsBridgeState.packedSegments]
  have fields := flatten_inj lengths same
  cases left with
  | stateContents state =>
    cases right with
    | stateContents other =>
      rw [SolidityElementsBridgeState.packedContents_inj (congrArg List.flatten fields)]
    | _ => exact absurd kinds (by simp [kind])
  | vaultId =>
    cases right with
    | vaultId =>
      simp only [segments, List.cons.injEq, encode_fixed_inj, paddedWord_inj] at fields
      simp only [fields]
    | _ => exact absurd kinds (by simp [kind])
  | depositId =>
    cases right with
    | depositId =>
      simp only [segments, List.cons.injEq, encode_fixed_inj, encode_u32_inj, encode_u64_inj,
        paddedWord_inj] at fields
      simp only [fields]
    | _ => exact absurd kinds (by simp [kind])
  | burnId =>
    cases right with
    | burnId =>
      simp only [segments, List.cons.injEq, encode_fixed_inj, encode_u32_inj] at fields
      simp only [fields]
    | _ => exact absurd kinds (by simp [kind])
  | burnLeaf =>
    cases right with
    | burnLeaf =>
      simp only [segments, List.cons.injEq, encode_fixed_inj, encode_u32_inj, encode_u64_inj]
        at fields
      simp only [fields]
    | _ => exact absurd kinds (by simp [kind])
  | nextState =>
    cases right with
    | nextState =>
      simp only [segments, List.cons.injEq, encode_fixed_inj] at fields
      simp only [fields]
    | _ => exact absurd kinds (by simp [kind])
  | statement =>
    cases right with
    | statement =>
      simp only [segments, List.cons.injEq, encode_fixed_inj, paddedWord_inj] at fields
      simp only [fields]
    | _ => exact absurd kinds (by simp [kind])

end Preimage

section Sides

/-- The preimages of the Rust crates, by their fields. -/
structure CratePreimages [Hashing] : Prop where
  vaultId : ∀ manifest : ProtocolManifest, manifest.vaultIdPreimage =
    (Preimage.vaultId manifest.ethereumChainId manifest.vault manifest.usdt
      manifest.proofVerifier manifest.elementsGuestProgramId manifest.verifierConfigHash
      manifest.elementsGenesis manifest.usddAsset manifest.activeLiabilityCapUsdtMicro
      manifest.minimumActivationChainwork).bytes
  depositId : ∀ deposit : VaultDeposit, deposit.depositPreimage =
    (Preimage.depositId Core.protocolVersion deposit.ethereumChainId deposit.vault deposit.usdt
      deposit.nonce deposit.depositor deposit.usdtAmountMicro deposit.elementsScriptHash
      deposit.userSalt).bytes
  burnId : ∀ (genesis txid : Hash32) (vout : UInt32),
    Core.burnIdPreimage genesis txid vout = (Preimage.burnId genesis txid vout).bytes
  burnLeaf : ∀ (claim : SolidityBurnClaim) (burnIndex : UInt64),
    claim.burnLeafPreimage burnIndex =
      (Preimage.burnLeaf claim.protocolVersion claim.elementsGenesisHash claim.usddAssetId
        claim.vaultId claim.burnId burnIndex claim.amountUsdtMicro claim.recipient).bytes
  stateContents : ∀ state : SolidityElementsBridgeState,
    state.packedContents = (Preimage.stateContents state).bytes
  nextState : ∀ prior contents : Hash32,
    nextHashPreimage prior contents = (Preimage.nextState prior contents).bytes
  statement : ∀ (manifest : ProtocolManifest) (prior current next contents : Hash32),
    ProofCore.statementPreimage manifest prior current next contents =
      (Preimage.statement manifest.ethereumChainId manifest.vault manifest.vaultId
        manifest.elementsGuestProgramId manifest.verifierConfigHash manifest.elementsGenesis
        manifest.usddAsset prior current next contents).bytes

/-- The preimages of the contract, by their fields. A number of the chain's own width is given by
the word it fits. -/
structure ContractPreimages : Prop where
  vaultId : ∀ (chainId : UInt64) (self usdt proofVerifier : EthAddress)
    (programId configHash genesis asset minimumWork : Hash32),
    Contracts.vaultIdPreimage (widen chainId) self usdt proofVerifier programId configHash genesis
      asset (BitVec.ofNat 256 minimumWork.toNat) =
      (Preimage.vaultId chainId self usdt proofVerifier programId configHash genesis asset
        activeLiabilityCapUsdtMicro minimumWork).bytes
  depositId : ∀ (vault : Vault) (chainId nonce amount : UInt64) (depositor : EthAddress)
    (scriptHash userSalt : Hash32), vault.chainId = widen chainId →
    vault.depositPreimage nonce depositor amount scriptHash userSalt =
      (Preimage.depositId Core.protocolVersion chainId vault.self vault.usdt nonce depositor amount
        scriptHash userSalt).bytes
  burnId : ∀ (vault : Vault) (txid : Hash32) (vout : UInt32),
    vault.burnIdPreimage txid vout = (Preimage.burnId vault.elementsGenesisHash txid vout).bytes
  burnLeaf : ∀ (version : UInt32) (vaultId genesis asset burnId : Hash32)
    (burnIndex amount : UInt64) (recipient : EthAddress),
    Sha256SparseMerkle.leafPreimage burnLeafDomain version vaultId genesis asset burnId
      burnIndex amount recipient =
      (Preimage.burnLeaf version genesis asset vaultId burnId burnIndex amount
        recipient).bytes
  stateContents : ∀ state : ElementsBridgeState,
    state.packed = (Preimage.stateContents (toCore state)).bytes
  nextState : ∀ prior contents : Hash32,
    stateHashPreimage prior contents = (Preimage.nextState prior contents).bytes
  statement : ∀ (vault : Vault) (chainId : UInt64) (prior current next contents : Hash32),
    vault.chainId = widen chainId →
    vault.statementPreimage prior current next contents =
      (Preimage.statement chainId vault.self vault.vaultId vault.verifierProgramId
        vault.verifierConfigHash vault.elementsGenesisHash vault.usddAssetId prior current next
        contents).bytes

theorem encode_work (work : Hash32) : encode (BitVec.ofNat 256 work.toNat) = encode work := by
  have fits : (BitVec.ofNat 256 work.toNat).toNat = work.toNat := by
    rw [BitVec.toNat_ofNat, Nat.mod_eq_of_lt]
    exact Nat.lt_of_lt_of_eq work.toNat_lt (by norm_num)
  change beBytes 32 _ = work.bytes
  rw [fits]
  exact congrArg FixedBytes.bytes (FixedBytes.ofNat_toNat work)

theorem crate_preimages [Hashing] : CratePreimages where
  vaultId _ := rfl
  depositId _ := rfl
  burnId _ _ _ := rfl
  burnLeaf _ _ := rfl
  stateContents _ := rfl
  nextState _ _ := rfl
  statement _ _ _ _ _ := rfl

theorem contract_preimages : ContractPreimages where
  vaultId chainId self usdt proofVerifier programId configHash genesis asset minimumWork := by
    have cap : encode activeLiabilityCapUSDT6 = paddedWord activeLiabilityCapUsdtMicro := by
      decide
    rw [Contracts.vaultIdPreimage, vaultIdDomain_eq, encode_widen, encode_work, cap]
    rfl
  depositId vault chainId nonce amount depositor scriptHash userSalt same := by
    rw [Vault.depositPreimage, depositIdDomain_eq, same, encode_widen]
    rfl
  burnId _ _ _ := rfl
  burnLeaf _ _ _ _ _ _ _ _ := by
    rw [Sha256SparseMerkle.leafPreimage, burnLeafDomain_eq]
    rfl
  stateContents _ := rfl
  nextState prior contents := by
    rw [stateHashPreimage, elementsStateDomain_eq]
    rfl
  statement vault chainId prior current next contents same := by
    rw [Vault.statementPreimage, elementsStatementDomain_eq, same, encode_widen]
    rfl

end Sides

/-- The guest and the vault hash the same bytes, and no two layouts or field values share them. -/
theorem preimages_shared [Hashing] :
    CratePreimages ∧ ContractPreimages ∧ Function.Injective Preimage.bytes :=
  ⟨crate_preimages, contract_preimages, fun _ _ same => Preimage.bytes_inj same⟩

end Usdd.Verif

import Usdd.Verif.CommandRoundTrips
import Usdd.Verif.Redeemability
/-!
# Redemptions from printed material

What the commands print for a finalized burn is what the vault wants of a redemption: the claim and
its leaf from the burn's record, and the proof and its root from the leaves of all burns. Read back
from the printed texts and submitted, they are never refused, unless the burn pays the vault itself.
-/
namespace Usdd.Verif

open Usdd.Foundation Usdd.Foundation.Reentrant Usdd.Foundation.SparseTree Usdd.Core
  Usdd.Contracts Usdd.ProofCore Usdd.Spec Usdd.Cli

/-- The claim that is submitted to the vault for a printed record. -/
def submitted (claim : SolidityBurnClaim) : BurnClaim where
  protocolVersion := claim.protocolVersion
  elementsGenesisHash := claim.elementsGenesisHash
  usddAssetId := claim.usddAssetId
  vaultId := claim.vaultId
  burnTxid := claim.burnTxidDisplay
  burnVout := claim.burnVout
  burnId := claim.burnId
  amountUSDT6 := claim.amountUsdtMicro
  recipient := claim.recipient

variable [Hashing] {World : Type} {view : VaultView World} {vault : Vault}
  {past env : Environment World TokenRequest CallResult} {first world : World}
  {storage : VaultStorage} {log : List VaultEntry} {chain : List AcceptedTransition}
  {index : UInt64} {burn : Burn}

section Finalized

variable
  (finalized : FinalizedBurn view vault past env first log world storage chain index burn)
include finalized

/-- The claim of a finalized burn is valid, and so is its record. -/
theorem FinalizedBurn.admitted :
    burn.Valid ∧ (burn.solidityClaim vault.elementsGenesisHash).Valid := by
  obtain ⟨transition, member, admitted⟩ :=
    burnsOf_admitted (List.mem_of_getElem? finalized.appended)
  have claim := admitted.claim
  rw [(finalized.names transition member).genesis] at claim
  exact ⟨admitted.valid, claim⟩

/-- The root that the vault finalized is that of the leaves of all burns. -/
theorem FinalizedBurn.root : storage.finalizedState.cumulativeBurnRoot =
    rootForLeaves (leavesFor vault.elementsGenesisHash (burnsOf chain)) := by
  have tree := BurnTreeInvariant.run finalized.linked finalized.free
  have nonempty : chain ≠ [] := by
    rintro rfl
    exact absurd finalized.appended (by simp [burnsOf, appendsOf])
  rw [tree.root, startRoot_of_canonical (tree.active nonempty), ← finalized.state]
  rfl

/-- The leaf of a finalized burn among those of all burns. -/
theorem FinalizedBurn.leaf : (leavesFor vault.elementsGenesisHash (burnsOf chain))[index.toNat]? =
    some (hashBytes ((burn.solidityClaim vault.elementsGenesisHash).burnLeafPreimage index)) := by
  have leaf : burn.leafAt vault.elementsGenesisHash index.toNat =
      hashBytes ((burn.solidityClaim vault.elementsGenesisHash).burnLeafPreimage index) := by
    rw [Burn.leafAt, UInt64.ofNat_toNat]
  simp [leavesFor, finalized.appended, leaf]

/-- A redemption with a branch that proves a finalized burn is never refused. -/
theorem FinalizedBurn.neverReverts (other : burn.ethereumDestination ≠ vault.self)
    {branch : Vector Hash32 64}
    (proven : Sha256SparseMerkle.verify storage.finalizedState.cumulativeBurnRoot
      (hashBurnLeaf (claimFor burn vault.elementsGenesisHash) index) index branch = true)
    (submitter : EthAddress) :
    NeverReverts view vault env
      (.redeem submitter (claimFor burn vault.elementsGenesisHash) index branch) world storage := by
  have invariant : VaultInvariant vault log storage := VaultInvariant.fresh.run finalized.run
  have recorded := invariant.recorded
  have counted : storage.totalRedeemedUSDT6.toNat + burn.usdtAmountMicro.toNat < 2 ^ 256 := by
    have redeemed := recorded.redeemed
    have deposited := recorded.deposited
    have liability := recorded.liability
    have covered := finalized.covered
    have bound := storage.totalDepositedUSDT6.isLt
    omega
  exact redeem_neverReverts recorded.unlocked (finalized.redeemable other proven)
    finalized.solvent counted (finalized.token other)

end Finalized

/-- What the commands print for a burn, from words that spell it, redeems it: the claim and the
proof are read back from their texts, the leaf verifies under the printed root, which is the one
the vault finalized, and submitting them is never refused. -/
def RedeemsAsPrinted (view : VaultView World) (vault : Vault)
    (env : Environment World TokenRequest CallResult) (world : World) (storage : VaultStorage)
    (genesisText burnText indexText : List Char) (leafTexts : List (List Char)) : Prop :=
  ∃ claimText burnIdText leafText rootText proofText,
    redeemClaim genesisText burnText indexText =
      .ok ("claim=".toList ++ claimText ++ "\nburn_id=".toList ++ burnIdText ++
        "\nburn_leaf=".toList ++ leafText) ∧
    burnTreeProve indexText leafTexts =
      .ok ("root=".toList ++ rootText ++ "\nproof=".toList ++ proofText) ∧
    burnTreeVerify rootText leafText indexText proofText = .ok "VALID".toList ∧
    ∃ index claim proof, parseU64 indexText = some index ∧
      decodeRecord SolidityBurnClaim claimText "claim" = .ok claim ∧
      decodeRecord BurnProof proofText "proof" = .ok proof ∧
      hashFromStr burnIdText = .ok claim.burnId ∧
      hashFromStr rootText = .ok storage.finalizedState.cumulativeBurnRoot ∧
      ∀ submitter, NeverReverts view vault env
        (.redeem submitter (submitted claim) index proof.siblings) world storage

/-- A finalized burn that pays another account is redeemed with what the commands print. -/
theorem printed_redemption_accepted
    (finalized : FinalizedBurn view vault past env first log world storage chain index burn)
    (other : burn.ethereumDestination ≠ vault.self)
    {genesisText burnText indexText : List Char} {leafTexts : List (List Char)}
    (genesisSpelt : Spells genesisText vault.elementsGenesisHash.bytes)
    (burnSpelt : Spells burnText (encode burn)) (indexRead : parseU64 indexText = some index)
    (leavesSpelt : SpellHashes leafTexts
      (leavesFor vault.elementsGenesisHash (burnsOf chain))) :
    RedeemsAsPrinted view vault env world storage genesisText burnText indexText leafTexts := by
  obtain ⟨burnValid, claimValid⟩ := finalized.admitted
  obtain ⟨accumulator, proof, built, collected, proven⟩ := finalized.proven
  obtain ⟨fits, rfl⟩ := fromLeaves_eq_ok.mp built
  have root := finalized.root
  have leaf := finalized.leaf
  obtain ⟨inside, verified⟩ := BurnAccumulator.proof_verifies collected
  rw [List.getElem?_eq_getElem inside, Option.some.injEq] at leaf
  let claim := burn.solidityClaim vault.elementsGenesisHash
  let leafHash := hashBytes (claim.burnLeafPreimage index)
  refine ⟨encodeHex (encode claim), hashToHex claim.burnId, hashToHex leafHash,
    hashToHex storage.finalizedState.cumulativeBurnRoot, encodeHex (encode proof), ?_, ?_, ?_,
    index, claim, proof, indexRead, ?_, ?_, hashFromStr_toHex _, hashFromStr_toHex _, ?_⟩
  · simp only [redeemClaim, readU64, bind_eq_ok, mapError_eq_ok, hashFromStr, fixedFromStr_eq_ok,
      okOr_eq_ok, decodeRecord_eq_ok, pure_eq_ok, SolidityBurnClaim.burnLeaf_eq_ok]
    exact ⟨_, genesisSpelt, burn, ⟨Burn.validate_eq_ok.mpr burnValid, burnSpelt⟩, index, indexRead,
      leafHash, ⟨claimValid, rfl⟩, rfl⟩
  · rw [root]
    exact burnTreeProve_eq_ok.mpr ⟨index, _, proof, indexRead, leavesSpelt, fits, collected, rfl⟩
  · refine burnTreeVerify_eq_valid.mpr ⟨storage.finalizedState.cumulativeBurnRoot, leafHash, index,
      proof, spells_lowerHex _, spells_lowerHex _, indexRead, spells_lowerHex _, ?_⟩
    have checked : proof.verify (rootForLeaves
        (leavesFor vault.elementsGenesisHash (burnsOf chain)))
        (leavesFor vault.elementsGenesisHash (burnsOf chain))[index.toNat] index = true := verified
    rwa [leaf, ← root] at checked
  · exact decodeRecord_eq_ok.mpr
      ⟨SolidityBurnClaim.validate_eq_ok.mpr claimValid, spells_lowerHex _⟩
  · exact decodeRecord_eq_ok.mpr ⟨trivial, spells_lowerHex _⟩
  · exact finalized.neverReverts other proven

omit [Hashing] in
/-- The sample burn is redeemed with what the commands print for it. -/
theorem printed_redemption_accepted_sample : letI := nonzeroSha256Hashing
    let played := finalizedVault sampleClaim
    RedeemsAsPrinted (sampleView fun _ => true) sampleVault
      (exactToken sampleVault.self played.2.1) played.2.1 played.2.2
      (hashToHex sampleVault.elementsGenesisHash) (encodeHex (encode sampleBurn)) ['0']
      ((leavesFor sampleVault.elementsGenesisHash (burnsOf [sampleTransition])).map hashToHex) := by
  let hashing := nonzeroSha256Hashing
  have finalized := @finalizedBurn_first _ sampleTransition sampleBurn emptyBurnNode_apart rfl rfl
    rfl rfl paidFor_sampleBurn
  have other : sampleBurn.ethereumDestination ≠ sampleVault.self := by decide
  have printed : ∀ hashes : List Hash32, SpellHashes (hashes.map hashToHex) hashes := by
    intro hashes
    rw [SpellHashes, List.forall₂_map_left_iff, List.forall₂_same]
    exact fun hash _ => spells_lowerHex hash.bytes
  exact printed_redemption_accepted finalized other (spells_lowerHex _) (spells_lowerHex _)
    (by decide) (printed _)

end Usdd.Verif

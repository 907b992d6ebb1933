import Usdd.TypeScript.EnvelopeLaws
/-!
# The client accepts the bytes the crate accepts

Record by record, the client's decoder accepts the byte strings that the crate's decoder
accepts, with the fields the crate decodes, and the client's encoder writes them again.
-/
namespace Usdd.Verif

open Usdd.Foundation Usdd.Core Usdd.ProofCore

section Agreement

variable [Hashing]

/-- The codecs of the client and of the crate agree on every record that both have. -/
structure ClientCodecsAgree : Prop where
  vaultDeposit : TypeScript.Agrees TypeScript.VaultDeposit.ofCore (decodeExact VaultDeposit)
    TypeScript.decodeVaultDeposit TypeScript.encodeVaultDeposit
  ethereumFinalityWitness : TypeScript.Agrees TypeScript.EthereumFinalityWitness.ofCore
    (decodeExact EthereumFinalityWitness) TypeScript.decodeEthereumFinalityWitness
    TypeScript.encodeEthereumFinalityWitness
  mintControllerState : TypeScript.Agrees TypeScript.MintControllerState.ofCore
    (decodeExact MintControllerState) TypeScript.decodeMintControllerState
    TypeScript.encodeMintControllerState
  mintOutput : TypeScript.Agrees TypeScript.MintOutput.ofCore (decodeExact MintOutput)
    TypeScript.decodeMintOutput TypeScript.encodeMintOutput
  mintBatch : TypeScript.Agrees TypeScript.MintBatch.ofCore (decodeExact MintBatch)
    TypeScript.decodeMintBatch TypeScript.encodeMintBatch
  burn : TypeScript.Agrees TypeScript.Burn.ofCore (decodeExact Burn) TypeScript.decodeBurn
    TypeScript.encodeBurn
  burnPayload : TypeScript.Agrees TypeScript.BurnPayload.ofCore (decodeExact BurnPayload)
    TypeScript.decodeBurnPayload TypeScript.encodeBurnPayload
  burnProof : TypeScript.Agrees TypeScript.BurnProof.ofCore (decodeExact BurnProof)
    TypeScript.decodeBurnProof TypeScript.encodeBurnProof
  burnAppend : TypeScript.Agrees TypeScript.BurnAppend.ofCore (decodeExact BurnAppend)
    TypeScript.decodeBurnAppend TypeScript.encodeBurnAppend
  solidityElementsBridgeState : TypeScript.Agrees TypeScript.ofCore
    (decodeExact SolidityElementsBridgeState) TypeScript.decodeSolidityElementsBridgeState
    TypeScript.encodeSolidityElementsBridgeState
  ethereumDepositClaim : TypeScript.Agrees TypeScript.EthereumDepositClaim.ofCore
    (decodeExact EthereumDepositClaim) TypeScript.decodeEthereumDepositClaim
    TypeScript.encodeEthereumDepositClaim
  ethereumHeartbeatClaim : TypeScript.Agrees TypeScript.EthereumHeartbeatClaim.ofCore
    (decodeExact EthereumHeartbeatClaim) TypeScript.decodeEthereumHeartbeatClaim
    TypeScript.encodeEthereumHeartbeatClaim
  elementsStateTransitionClaim : TypeScript.Agrees TypeScript.ElementsStateTransitionClaim.ofCore
    (decodeExact ElementsStateTransitionClaim) TypeScript.decodeElementsStateTransitionClaim
    TypeScript.encodeElementsStateTransitionClaim
  depositPublicOutput : TypeScript.Agrees TypeScript.DepositPublicOutput.ofCore
    (decodeExact DepositPublicOutput) TypeScript.decodeDepositPublicOutput
    TypeScript.encodeDepositPublicOutput
  heartbeatPublicOutput : TypeScript.Agrees TypeScript.HeartbeatPublicOutput.ofCore
    (decodeExact HeartbeatPublicOutput) TypeScript.decodeHeartbeatPublicOutput
    TypeScript.encodeHeartbeatPublicOutput
  elementsStatePublicOutput : TypeScript.Agrees TypeScript.ElementsStatePublicOutput.ofCore
    (decodeExact ElementsStatePublicOutput) TypeScript.decodeElementsStatePublicOutput
    TypeScript.encodeElementsStatePublicOutput
  strictJournal : TypeScript.Agrees TypeScript.StrictJournal.ofCore StrictJournal.decodeStrict
    TypeScript.decodeStrictJournal TypeScript.encodeStrictJournal

open TypeScript in
/-- The codecs agree when the root that the client holds as a constant is that of the empty
tree. -/
theorem codecsAgree_of_root (canonical : (emptyBurnNode 64).bytes = emptyBurnRoot) :
    ClientCodecsAgree where
  vaultDeposit := agrees_of_mirrors mirrors_vaultDeposit fun _ => encodeVaultDeposit_ofCore
  ethereumFinalityWitness := agrees_of_mirrors mirrors_ethereumFinalityWitness
    fun _ => encodeEthereumFinalityWitness_ofCore
  mintControllerState := agrees_mintControllerState
  mintOutput := agrees_of_mirrors mirrors_mintOutput fun _ => encodeMintOutput_ofCore
  mintBatch := agrees_of_mirrors mirrors_mintBatch fun _ => encodeMintBatch_ofCore
  burn := agrees_of_mirrors mirrors_burn fun _ => encodeBurn_ofCore
  burnPayload := agrees_burnPayload
  burnProof := agrees_of_mirrors mirrors_burnProof fun proof _ => encodeBurnProof_ofCore proof
  burnAppend := agrees_of_mirrors mirrors_burnAppend
    fun _ valid => encodeBurnAppend_eq_ok.mpr ⟨valid, rfl⟩
  solidityElementsBridgeState := agrees_of_mirrors (mirrors_solidityElementsBridgeState canonical)
    fun _ => encodeSolidityElementsBridgeState_ofCore canonical
  ethereumDepositClaim := agrees_of_mirrors mirrors_ethereumDepositClaim
    fun _ => encodeEthereumDepositClaim_ofCore
  ethereumHeartbeatClaim := agrees_of_mirrors mirrors_ethereumHeartbeatClaim
    fun _ => encodeEthereumHeartbeatClaim_ofCore
  elementsStateTransitionClaim :=
    agrees_of_mirrors (mirrors_elementsStateTransitionClaim canonical)
      fun _ => encodeElementsStateTransitionClaim_ofCore canonical
  depositPublicOutput := agrees_depositPublicOutput
  heartbeatPublicOutput := agrees_heartbeatPublicOutput
  elementsStatePublicOutput := agrees_elementsStatePublicOutput canonical
  strictJournal := agrees_strictJournal canonical

end Agreement

/-- The client's constant is the root of the empty tree. -/
theorem emptyBurnNode_sha256 :
    (@emptyBurnNode sha256Hashing 64).bytes = TypeScript.emptyBurnRoot := by
  decide +kernel

/-- Client and crate accept the same bytes of every record they share. -/
theorem client_codecs_agree : @ClientCodecsAgree sha256Hashing :=
  @codecsAgree_of_root sha256Hashing emptyBurnNode_sha256

end Usdd.Verif

import Usdd.Verif.BurnTree
import Usdd.Verif.SharedPreimages
/-!
# One Elements statement on both sides

A claim that the guest accepts from the state a vault holds is a transition that vault allows,
and the chained hash and the statement in the guest's public output are the ones the vault
computes.
-/
namespace Usdd.Verif

open Usdd.Foundation Usdd.Core Usdd.Contracts Usdd.ProofCore

section Agreement

variable [Hashing] {Proof : Type} {verifier : ElementsValidityProofVerifier Proof}
  {manifest : ProtocolManifest} {claim : ElementsStateTransitionClaim} {proof : Proof}
  {vault : Vault} {storage : VaultStorage}

/-- The contents hash is the same on both sides. -/
theorem hashStateContents_eq (state : ElementsBridgeState) :
    hashStateContents state = (toCore state).contentsHash := rfl

/-- The pair the vault computes for a transition is the pair of the guest's public output. -/
theorem TransitionStep.statement {output : ElementsStatePublicOutput}
    (step : TransitionStep manifest claim output) (matching : Matches manifest vault)
    (prior : claim.priorState = toCore storage.finalizedState)
    (hash : claim.priorBridgeStateHash = storage.bridgeStateHash) :
    vault.elementsStateStatement storage (ofCore claim.nextState) =
      (output.nextBridgeStateHash, output.verifierStatement) := by
  have next : output.nextBridgeStateHash = Hashing.sha256
      (stateHashPreimage storage.bridgeStateHash (hashStateContents (ofCore claim.nextState))) := by
    rw [step.nextHash_eq, stateHashPreimage_eq, hashStateContents_eq, toCore_ofCore, hash]
    rfl
  have statement : output.verifierStatement = Hashing.sha256 (vault.statementPreimage
      storage.bridgeStateHash (hashStateContents storage.finalizedState)
      output.nextBridgeStateHash (hashStateContents (ofCore claim.nextState))) := by
    rw [step.statement_eq, statementPreimage_eq matching, hashStateContents_eq,
      hashStateContents_eq, toCore_ofCore, hash, prior]
    rfl
  rw [statement, next]
  rfl

/-- A claim that the guest accepts from the state and the state hash of a vault, for a manifest
that matches it, passes the vault's own rules, and both compute one statement for it. -/
theorem elements_statement_agreement (emptyRoot : emptyBurnNode 64 = emptyBurnRoot)
    {journal : StrictJournal} (matching : Matches manifest vault)
    (prior : claim.priorState = toCore storage.finalizedState)
    (hash : claim.priorBridgeStateHash = storage.bridgeStateHash)
    (built : buildElementsStateJournal verifier manifest claim proof = .ok journal) :
    validateNextState vault storage (ofCore claim.nextState) = .ok () ∧
    ∃ output, elementsStateOutput verifier manifest claim proof = .ok output ∧
      journal.payload = encode output ∧
      vault.elementsStateStatement storage (ofCore claim.nextState) =
        (output.nextBridgeStateHash, output.verifierStatement) := by
  obtain ⟨output, accepted, payload, _⟩ := buildElementsStateJournal_eq_ok built
  obtain ⟨step, _⟩ := elementsStateOutput_eq_ok accepted
  refine ⟨validateNextState_eq_ok.mpr ⟨?_, ?_⟩, output, accepted, payload,
    TransitionStep.statement step matching prior hash⟩
  · rw [follows_toCore emptyRoot, toCore_ofCore, ← prior]
    exact step.follows
  · intro inactive
    rw [ofCore_work, matching.work]
    exact step.activated (hash.trans inactive)

end Agreement

/-- The first claim of a fresh vault. -/
theorem elements_statement_agreement_sample : letI := nonzeroSha256Hashing
    validateNextState sampleVault .fresh (ofCore sampleClaim.nextState) = .ok () ∧
    ∃ output, elementsStateOutput satisfiedVerifier sampleManifest sampleClaim () = .ok output ∧
      sampleVault.elementsStateStatement .fresh (ofCore sampleClaim.nextState) =
        (output.nextBridgeStateHash, output.verifierStatement) := by
  let := nonzeroSha256Hashing
  obtain ⟨journal, built⟩ := sampleClaim_accepted
  have prior : sampleClaim.priorState = toCore VaultStorage.fresh.finalizedState := rfl
  obtain ⟨allowed, output, accepted, _, statement⟩ := elements_statement_agreement
    emptyBurnNode_nonzeroSha256 (matches_vaultFor sampleManifest) prior rfl built
  exact ⟨allowed, output, accepted, statement⟩

end Usdd.Verif

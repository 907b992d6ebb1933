import Usdd.Core.CodecLaws
import Usdd.ProofCore.ClaimCodecs
/-!
# The claim and output decoders read what the encoders write
-/
namespace Usdd.ProofCore

open Usdd.Foundation Usdd.Core

theorem reads_decodeProofHeader (tag : UInt16) :
    Reads (decodeProofHeader tag) (fun _ => encodeHeader tag) fun _ => True :=
  .header reads_u16 reads_u16 (fun _ => rejectIf_ne_eq_ok) fun _ => rejectIf_ne_eq_ok

instance : CanonicalRecord BurnAppend where
  DecodeValid append := append.burn.validate = .ok ()
  reads := by
    refine .constant (reads_decodeProofHeader _) ?_
    refine .field CanonicalRecord.reads (fun _ valid => valid) fun burn valid => ?_
    refine .field CanonicalRecord.reads (fun _ _ => trivial) fun _ _ => ?_
    refine .pure (fun value => ?_) fun _ _ => rfl
    cases value
    simp only [BurnAppend.mk.injEq, and_assoc]
    refine and_iff_right_of_imp fun same => ?_
    rw [same.1]
    exact valid

section Claims

variable [Hashing]

/-- What a validated deposit claim satisfies. -/
theorem EthereumDepositClaim.validate_eq_ok {claim : EthereumDepositClaim} :
    claim.validate = .ok () ↔ claim.manifestId ≠ .zero ∧ claim.priorState.validate = .ok () ∧
      claim.finality.validate = .ok () ∧
      ∃ batch, MintBatch.fromDeposits claim.deposits = .ok batch := by
  simp only [validate]
  simp only [↓then_eq_ok, bind_eq_ok, rejectIf_eq_ok, pure_eq_ok, and_true]

instance : CanonicalRecord EthereumDepositClaim where
  DecodeValid claim := claim.validate = .ok ()
  reads := by
    refine .constant (reads_decodeProofHeader _) ?_
    refine .plain (reads_fixed 32) fun _ => ?_
    refine .field CanonicalRecord.reads ?_ fun _ _ => ?_
    · rintro value ⟨valid, _⟩
      exact (EthereumDepositClaim.validate_eq_ok.mp valid).2.1
    refine .field CanonicalRecord.reads ?_ fun _ _ => ?_
    · rintro value ⟨⟨valid, _⟩, _⟩
      exact (EthereumDepositClaim.validate_eq_ok.mp valid).2.2.1
    refine reads_counted ?_ ?_ fun deposits _ _ _ => ?_
    · rintro value ⟨⟨⟨valid, _⟩, _⟩, _⟩
      obtain ⟨_, _, _, batch, made⟩ := EthereumDepositClaim.validate_eq_ok.mp valid
      have built := MintBatch.fromDeposits_eq_ok.mp made
      exact batchSize_eq_ok (List.length_pos_iff.mpr built.nonempty) built.size_le
    · rintro value ⟨⟨⟨valid, _⟩, _⟩, _⟩ deposit member
      obtain ⟨_, _, _, batch, made⟩ := EthereumDepositClaim.validate_eq_ok.mp valid
      exact VaultDeposit.validate_eq_ok.mpr
        ((MintBatch.fromDeposits_eq_ok.mp made).each deposit member)
    · refine .validated (fun value => ?_) fun _ _ => rfl
      cases value
      simp only [EthereumDepositClaim.mk.injEq, and_assoc]

omit [Hashing] in
theorem EthereumHeartbeatClaim.validate_eq_ok {claim : EthereumHeartbeatClaim} :
    claim.validate = .ok () ↔ claim.manifestId ≠ .zero ∧ claim.priorState.validate = .ok () ∧
      claim.finality.validate = .ok () := by
  simp only [validate]
  simp only [↓then_eq_ok, rejectIf_eq_ok]

instance : CanonicalRecord EthereumHeartbeatClaim where
  DecodeValid claim := claim.validate = .ok ()
  reads := by
    refine .constant (reads_decodeProofHeader _) ?_
    refine .plain (reads_fixed 32) fun _ => ?_
    refine .field CanonicalRecord.reads ?_ fun _ _ => ?_
    · rintro value ⟨valid, _⟩
      exact (EthereumHeartbeatClaim.validate_eq_ok.mp valid).2.1
    refine .field CanonicalRecord.reads ?_ fun _ _ => ?_
    · rintro value ⟨⟨valid, _⟩, _⟩
      exact (EthereumHeartbeatClaim.validate_eq_ok.mp valid).2.2
    refine .validated (fun value => ?_) fun _ _ => rfl
    cases value
    simp only [EthereumHeartbeatClaim.mk.injEq, and_assoc]

/-- What the decoder checks of an Elements claim: its states, the number of its burns, and the
burns. -/
structure ElementsStateTransitionClaim.DecodeChecks (claim : ElementsStateTransitionClaim) :
    Prop where
  prior : claim.priorState.validate = .ok ()
  next : claim.nextState.validate = .ok ()
  count : claim.appendedBurns.length ≤ maxBurnAppendsPerStateTransition
  burns : ∀ append ∈ claim.appendedBurns, append.burn.validate = .ok ()

instance : CanonicalRecord ElementsStateTransitionClaim where
  DecodeValid claim := claim.DecodeChecks
  reads := by
    refine .constant (reads_decodeProofHeader _) ?_
    refine .plain (reads_fixed 32) fun _ => .plain (reads_fixed 32) fun _ => ?_
    refine .field CanonicalRecord.reads (fun _ holds => holds.1.1.prior) fun prior priorValid => ?_
    refine .field CanonicalRecord.reads (fun _ holds => holds.1.1.1.next) fun next nextValid => ?_
    refine reads_counted (fun value holds => ?_) (fun _ holds => holds.1.1.1.1.burns)
      fun burns small passed valid => ?_
    · have count := holds.1.1.1.1.count
      have fits : value.appendedBurns.length < 256 := lt_of_le_of_lt count (by decide)
      refine ⟨fits, (rejectIf_eq_ok _ _ _).mpr ?_⟩
      rw [UInt8.toNat_ofNat_of_lt' fits]
      exact Nat.not_lt.mpr count
    · have count := (rejectIf_eq_ok _ _ _).mp passed
      rw [UInt8.toNat_ofNat_of_lt' small] at count
      refine .pure (fun value => ?_) fun _ _ => rfl
      cases value
      simp only [ElementsStateTransitionClaim.mk.injEq, and_assoc]
      refine and_iff_right_of_imp ?_
      rintro ⟨_, _, rfl, rfl, rfl⟩
      exact ⟨priorValid, nextValid, Nat.not_lt.mp count, valid⟩

end Claims

section Outputs

/-- The records in a valid deposit output are valid. -/
theorem DepositPublicOutput.parts_valid {output : DepositPublicOutput}
    (valid : output.validate = .ok ()) : output.priorState.validate = .ok () ∧
      output.nextState.validate = .ok () ∧ output.mintBatch.validate = .ok () := by
  simp only [validate] at valid
  simp only [↓then_eq_ok] at valid
  exact ⟨valid.2.1, valid.2.2.1, valid.2.2.2.1⟩

instance : CanonicalRecord DepositPublicOutput where
  DecodeValid output := output.validate = .ok ()
  reads := by
    refine .constant (reads_decodeProofHeader _) ?_
    refine .plain (reads_fixed 32) fun _ => .plain (reads_fixed 32) fun _ => ?_
    refine .field CanonicalRecord.reads
      (fun _ holds => (DepositPublicOutput.parts_valid holds.1.1).1) fun _ _ => ?_
    refine .field CanonicalRecord.reads
      (fun _ holds => (DepositPublicOutput.parts_valid holds.1.1.1).2.1) fun _ _ => ?_
    refine .plain reads_u64 fun _ => .field CanonicalRecord.reads
      (fun _ holds => (DepositPublicOutput.parts_valid holds.1.1.1.1.1).2.2) fun _ _ => ?_
    refine .validated (fun value => ?_) fun _ _ => rfl
    cases value
    simp only [DepositPublicOutput.mk.injEq, and_assoc]

/-- The states in a valid heartbeat output are valid. -/
theorem HeartbeatPublicOutput.parts_valid {output : HeartbeatPublicOutput}
    (valid : output.validate = .ok ()) :
    output.priorState.validate = .ok () ∧ output.nextState.validate = .ok () := by
  simp only [validate] at valid
  simp only [↓then_eq_ok] at valid
  exact ⟨valid.2.1, valid.2.2.1⟩

instance : CanonicalRecord HeartbeatPublicOutput where
  DecodeValid output := output.validate = .ok ()
  reads := by
    refine .constant (reads_decodeProofHeader _) ?_
    refine .plain (reads_fixed 32) fun _ => .plain (reads_fixed 32) fun _ => ?_
    refine .field CanonicalRecord.reads
      (fun _ holds => (HeartbeatPublicOutput.parts_valid holds.1.1).1) fun _ _ => ?_
    refine .field CanonicalRecord.reads
      (fun _ holds => (HeartbeatPublicOutput.parts_valid holds.1.1.1).2) fun _ _ => ?_
    refine .plain reads_u64 fun _ => .validated (fun value => ?_) fun _ _ => rfl
    cases value
    simp only [HeartbeatPublicOutput.mk.injEq, and_assoc]

variable [Hashing]

/-- The states in a valid Elements output are valid. -/
theorem ElementsStatePublicOutput.parts_valid {output : ElementsStatePublicOutput}
    (valid : output.validate = .ok ()) :
    output.priorState.validate = .ok () ∧ output.nextState.validate = .ok () := by
  simp only [validate, SolidityElementsBridgeState.validateSuccessor] at valid
  simp only [↓then_eq_ok] at valid
  exact ⟨valid.2.1, valid.2.2.1⟩

instance : CanonicalRecord ElementsStatePublicOutput where
  DecodeValid output := output.validate = .ok ()
  reads := by
    refine .constant (reads_decodeProofHeader _) ?_
    refine .plain (reads_fixed 32) fun _ => .plain (reads_fixed 32) fun _ => ?_
    refine .plain (reads_fixed 32) fun _ => .plain (reads_fixed 32) fun _ => ?_
    refine .plain (reads_fixed 32) fun _ => .field CanonicalRecord.reads
      (fun _ holds => (ElementsStatePublicOutput.parts_valid holds.1.1.1.1.1).1) fun _ _ => ?_
    refine .field CanonicalRecord.reads
      (fun _ holds => (ElementsStatePublicOutput.parts_valid holds.1.1.1.1.1.1).2) fun _ _ => ?_
    refine .validated (fun value => ?_) fun _ _ => rfl
    cases value
    simp only [ElementsStatePublicOutput.mk.injEq, and_assoc]

end Outputs

end Usdd.ProofCore

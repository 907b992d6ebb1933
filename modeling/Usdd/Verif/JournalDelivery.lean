import Usdd.Verif.AnnexDecoders
import Usdd.Verif.ControllerTraces
import Usdd.Verif.DepositJournals
import Usdd.Verif.ProgramIds
/-!
# From the guest to the controller

The guest returns the bytes of a journal, a prover makes a raw proof for them, and an annex carries
both to the controller. Nothing on the way refuses what the guest returned: every writer makes the
same annex, every reader finds the same journal in it, and the step that the journal states is one
that the crate makes and that the tools follow, from each journal to the next.
-/
namespace Usdd.Verif

open Usdd.Foundation Usdd.Foundation.Attempts Usdd.Core Usdd.ProofCore Usdd.Guests
open Usdd.EthereumInbound (SepoliaFinalityError)
open Usdd.Sp1Verifier (ProofSystem committedByte verifyRawCompressedSha256 rawVkeyHashFromProgramId)

section Writers

/-- The header that the tools pack and the parts behind it are an annex of the crate. -/
theorem packHeader_written {annex : Sp1ProofAnnex} (valid : annex.Valid) :
    Simplicity.packHeader annex.publicValues.length annex.proof.length annex.guestProgramId.bytes ++
      annex.publicValues ++ annex.proof = annex.written := by
  have size := valid.size
  have values : (UInt32.ofNat annex.publicValues.length).toNat = annex.publicValues.length :=
    UInt32.toNat_ofNat_of_lt' (by change _ < 2 ^ 32; omega)
  have proof : (UInt32.ofNat annex.proof.length).toNat = annex.proof.length :=
    UInt32.toNat_ofNat_of_lt' (by change _ < 2 ^ 32; omega)
  have magic : Simplicity.sp1Magic = encode sp1AnnexMagic := by decide
  have fixed : [1, 1, UInt8.ofNat Simplicity.ethStateV1, 1] ++ beBytes 2 0 =
      encode (1 : UInt8) ++ encode (1 : UInt8) ++ encode StatementKind.ethereumState.tag ++
        encode (1 : UInt8) ++ encode (0 : UInt16) := by decide
  rw [Sp1ProofAnnex.written, Sp1ProofAnnex.Header.written, valid.kind, List.append_assoc]
  congr 1
  simp only [Simplicity.packHeader, List.flatten_cons, List.flatten_nil, List.append_nil, magic]
  rw [← List.append_assoc [1, 1, UInt8.ofNat Simplicity.ethStateV1, 1], fixed]
  simp only [encode, values, proof, List.append_assoc]
  rfl

/-- The tools write the annexes that the crate reads. -/
theorem encodePython_eq_ok {programId publicValues proof bytes : List UInt8} :
    Simplicity.encodeSp1Annex programId publicValues proof = .ok bytes ↔
      ∃ core, Sp1ProofAnnex.decodeStrict bytes = .ok core ∧
        pythonAnnex core = ⟨programId, publicValues, proof⟩ := by
  have plain : ∀ (name : String) (value : List UInt8),
      Simplicity.checkBytes name value none false = .ok () := fun _ _ => rfl
  simp only [Simplicity.encodeSp1Annex, plain]
  simp only [↓then_eq_ok, rejectIf_eq_ok, pure_eq_ok, Simplicity.checkBytes_eq_ok, not_or,
    Nat.not_lt, gt_iff_lt, Simplicity.sp1HeaderSize, Simplicity.sp1MaxSize,
    Simplicity.sp1PublicValuesMaxSize, List.length_eq_zero_iff]
  constructor
  · rintro ⟨⟨program, rfl, nonzero⟩, _, _, ⟨valuesNe, valuesLe⟩, proofNe, size, _, rfl⟩
    have valid : Sp1ProofAnnex.Valid ⟨.ethereumState, program, publicValues, proof⟩ :=
      ⟨rfl, nonzero trivial, valuesNe, valuesLe, proofNe, size⟩
    have written := packHeader_written valid
    exact ⟨⟨.ethereumState, program, publicValues, proof⟩,
      Sp1ProofAnnex.decodeStrict_eq_ok.mpr ⟨valid, written⟩, rfl⟩
  · rintro ⟨core, accepted, same⟩
    obtain ⟨valid, rfl⟩ := Sp1ProofAnnex.decodeStrict_eq_ok.mp accepted
    obtain ⟨rfl, rfl, rfl⟩ := (Simplicity.Sp1Annex.mk.injEq ..).mp same
    have header : (Simplicity.packHeader core.publicValues.length core.proof.length
        core.guestProgramId.bytes).length = 55 := by
      simp [Simplicity.packHeader, Simplicity.sp1Magic, FixedBytes.length_eq]
    exact ⟨⟨core.guestProgramId, rfl, fun _ => valid.program⟩, trivial, trivial,
      ⟨valid.values_ne, valid.values_le⟩, valid.proof_ne, valid.size,
      (rejectIf_eq_ok _ _ _).mpr (not_not.mpr header),
      packHeader_written valid⟩

end Writers

section Proofs

variable [Hashing] {CompressedError : Type} {system : ProofSystem CompressedError}
  {publicValues rawVkeyHash rawProof : List UInt8}

/-- A raw proof of public values under a key: the decoder reads it, as it was, as a compressed
proof that commits to their digest, and the verifier accepts it. -/
structure ProvedUnder (system : ProofSystem CompressedError)
    (publicValues rawVkeyHash rawProof : List UInt8) : Prop where
  long : 4 ≤ rawProof.length
  tag : leNat (rawProof.take 4) = 1
  compressed : ∃ proof recursionValues, system.deserialize rawProof = .ok proof ∧
    system.serialize proof = .ok rawProof ∧ system.compressed proof = some recursionValues ∧
    recursionValues.length = system.proofMaxNumPvs ∧
    system.committedValueDigest recursionValues =
      (hashBytes publicValues).bytes.map UInt8.toUInt32
  accepted : system.verifyRaw rawProof rawVkeyHash = .ok ()

omit [Hashing] in
/-- Limbs that are bytes are read as those bytes. -/
theorem committedBytes (index : Nat) (read digest : List UInt8) :
    (foldIndexed committedByte index read (digest.map UInt8.toUInt32) :
      Except (Sp1Verifier.VerificationError CompressedError) (List UInt8)) =
      .ok (read ++ digest) := by
  induction digest generalizing index read with
  | nil =>
    rw [List.append_nil]
    rfl
  | cons byte rest ih =>
    have bound := byte.toNat_lt
    have small : ¬byte.toUInt32 > 255 := by
      rw [gt_iff_lt, UInt32.lt_iff_toNat_lt, UInt8.toNat_toUInt32]
      change ¬255 < byte.toNat
      omega
    have step : (committedByte index read byte.toUInt32 :
        Except (Sp1Verifier.VerificationError CompressedError) (List UInt8)) =
        .ok (read ++ [byte]) := by
      simp only [committedByte, then_eq_ok, rejectIf_eq_ok, pure_eq_ok, UInt8.toUInt8_toUInt32]
      exact ⟨small, trivial⟩
    rw [List.map_cons, foldIndexed, step]
    have later := ih (index + 1) (read ++ [byte])
    rw [List.append_assoc, List.singleton_append] at later
    exact later

/-- The adapter accepts a proof that the proof system made. -/
theorem verifyProof_of_proved (proved : ProvedUnder system publicValues rawVkeyHash rawProof) :
    Sp1Verifier.verifyProof system rawProof publicValues rawVkeyHash = .ok () := by
  obtain ⟨proof, recursionValues, deserialized, serialized, compressed, count, committed⟩ :=
    proved.compressed
  have tagged : (Sp1Verifier.rejectNoncompressedTag rawProof :
      Except (Sp1Verifier.VerificationError CompressedError) Unit) = .ok () := by
    rw [Sp1Verifier.rejectNoncompressedTag, then_eq_ok, rejectIf_eq_ok, proved.tag]
    exact ⟨Nat.not_lt.mpr proved.long, rfl⟩
  have canonical : Sp1Verifier.deserializeCanonicalProof system rawProof = .ok proof := by
    simp only [Sp1Verifier.deserializeCanonicalProof]
    simp only [↓then_eq_ok, bind_eq_ok, mapError_eq_ok, rejectIf_eq_ok, pure_eq_ok, ne_eq, not_not]
    exact ⟨proof, deserialized, rawProof, serialized, rfl, rfl⟩
  have limbs := @committedBytes CompressedError 0 [] (hashBytes publicValues).bytes
  rw [List.nil_append, ← committed] at limbs
  have digest : (Sp1Verifier.requireSha256PublicValuesDigest (hashBytes publicValues).bytes
      publicValues : Except (Sp1Verifier.VerificationError CompressedError) Unit) = .ok () := by
    rw [Sp1Verifier.requireSha256PublicValuesDigest, rejectIf_eq_ok, ne_eq, not_not]
  simp only [Sp1Verifier.verifyProof]
  simp only [↓then_eq_ok, bind_eq_ok, mapError_eq_ok, okOr_eq_ok, rejectIf_eq_ok, ne_eq, not_not]
  exact ⟨tagged, proof, canonical, recursionValues, compressed, count, _, limbs, digest,
    proved.accepted⟩

/-- With the raw key of a program, the adapter returns the journal of a proof of it. -/
theorem verifyRaw_of_proved {programId : Hash32} {rawVkeyHash : FixedBytes 32}
    {journal : StrictJournal}
    (derived : (rawVkeyHashFromProgramId programId :
      Except (Sp1Verifier.VerificationError CompressedError) (FixedBytes 32)) = .ok rawVkeyHash)
    (sizes : SizesAdmitted rawProof publicValues)
    (expected : StrictJournal.verifyExpected publicValues programId .ethereumState = .ok journal)
    (proved : ProvedUnder system publicValues rawVkeyHash.bytes rawProof) :
    verifyRawCompressedSha256 system rawProof publicValues rawVkeyHash.bytes programId
      .ethereumState = .ok journal := by
  have converted := programId_of_rawVkeyHash derived
  have checked := checkSizesAndKey_eq_ok.mpr ⟨sizes, converted⟩
  have passed := verifyProof_of_proved proved
  simp only [verifyRawCompressedSha256, mapError_eq_ok, Sp1Verifier.verifyInner]
  simp only [↓then_eq_ok, bind_eq_ok, mapError_eq_ok, pure_eq_ok]
  exact ⟨checked, journal, expected, passed, rfl⟩

end Proofs

section Guest

variable [Hashing] {Proof : Type}

/-- What the guest reads. -/
structure GuestInput where
  statementTag : List UInt8
  manifest : List UInt8
  claim : List UInt8
  finality : List UInt8
  vaultWitness : List UInt8

/-- The guest's answer to an input. -/
def GuestInput.execute (input : GuestInput)
    (decodeFinality : List UInt8 → Except SepoliaFinalityError Proof)
    (verifier : EthereumStateProofVerifier (EthereumInboundProof Proof)) :
    Except (Fault GuestInputError) (List UInt8) :=
  executeGuestInput decodeFinality verifier input.statementTag input.manifest input.claim
    input.finality input.vaultWitness

/-- The two states that public values are about. -/
def states : TypedPublicValues → Option (MintControllerState × MintControllerState)
  | .deposit output => some (output.priorState, output.nextState)
  | .heartbeat output => some (output.priorState, output.nextState)
  | .elementsState _ => none

/-- The two states that a journal is about. -/
def statesOf (publicValues : List UInt8) : Option (MintControllerState × MintControllerState) := do
  let journal ← (StrictJournal.decodeStrict publicValues).toOption
  let typed ← journal.typedPayload.toOption
  states typed

/-- A journal about two states decodes to public values about them. -/
theorem statesOf_eq_some {publicValues : List UInt8}
    {pair : MintControllerState × MintControllerState}
    (about : statesOf publicValues = some pair) :
    ∃ journal typed, StrictJournal.decodeStrict publicValues = .ok journal ∧
      journal.typedPayload = .ok typed ∧ states typed = some pair := by
  unfold statesOf at about
  cases strict : StrictJournal.decodeStrict publicValues with
  | error fault =>
    rw [strict] at about
    cases about
  | ok journal =>
    cases payload : journal.typedPayload with
    | error fault =>
      rw [strict] at about
      change (journal.typedPayload.toOption >>= states) = some pair at about
      rw [payload] at about
      cases about
    | ok typed =>
      rw [strict] at about
      change (journal.typedPayload.toOption >>= states) = some pair at about
      rw [payload] at about
      exact ⟨journal, typed, rfl, payload, about⟩

/-- The attempt on the controller that a claim asks for, with the public values that state it. A
mint has the outputs of the claim's deposits. -/
inductive Claimed (input : GuestInput) : TypedPublicValues → ControllerAttempt → Prop
  | deposit {claim : EthereumDepositClaim} {output : DepositPublicOutput} :
    decodeExact EthereumDepositClaim input.claim = .ok claim →
    output.priorState = claim.priorState →
    MintBatch.fromDeposits claim.deposits = .ok output.mintBatch →
    Claimed input (.deposit output) (.mint output.mintBatch claim.finality)
  | heartbeat {claim : EthereumHeartbeatClaim} {output : HeartbeatPublicOutput} :
    decodeExact EthereumHeartbeatClaim input.claim = .ok claim →
    output.priorState = claim.priorState →
    Claimed input (.heartbeat output) (.heartbeat claim.finality)

/-- What the guest returned: a journal of its program, short enough for an annex, whose public
values state the step that the claim asks for, and the crate makes that step. -/
structure Returned (manifest : ProtocolManifest) (input : GuestInput) (publicValues : List UInt8)
    (journal : StrictJournal) (typed : TypedPublicValues) (attempt : ControllerAttempt) : Prop where
  verified : StrictJournal.verifyExpected publicValues manifest.ethereumGuestProgramId
    .ethereumState = .ok journal
  typedPayload : journal.typedPayload = .ok typed
  nonempty : publicValues ≠ []
  fits : publicValues.length ≤ sp1PublicValuesMaxSize
  claimed : Claimed input typed attempt
  applied : ∃ prior next, states typed = some (prior, next) ∧ attempt.apply prior = .ok next

/-- Public values about Ethereum fit the journal of an annex. -/
theorem encode_typed_length_le {typed : TypedPublicValues} (valid : typed.DecodeValid)
    (kind : typed.kind = .ethereumState) : typed.encode.length ≤ 12729 := by
  cases typed with
  | deposit output =>
    have batch := MintBatch.validate_eq_ok.mp (DepositPublicOutput.parts_valid valid).2.2
    have bound := encode_mintBatch_length_le batch
    have length : (TypedPublicValues.deposit output).encode.length = _ :=
      encode_depositOutput_length output
    omega
  | heartbeat output =>
    change [encodeHeader tagHeartbeatPublicOutput, encode output.manifestId, encode output.claimId,
      encode output.priorState, encode output.nextState,
      encode output.finalizedExecutionBlockTimestamp].flatten.length ≤ _
    simp
  | elementsState output => cases kind

/-- A journal that was made and written is read back, and is short enough. -/
theorem journal_returned {programId : Hash32} {payload bytes : List UInt8} {journal : StrictJournal}
    (made : StrictJournal.new .ethereumState programId payload = .ok journal)
    (written : (journal.encode : Except (Fault GuestInputError) _) = .ok bytes) :
    ∃ typed, TypedPublicValues.decode .ethereumState payload = .ok typed ∧
      StrictJournal.verifyExpected bytes programId .ethereumState = .ok journal ∧
      journal.typedPayload = .ok typed ∧ bytes ≠ [] ∧ bytes.length ≤ sp1PublicValuesMaxSize := by
  obtain ⟨program, nonempty, ⟨typed, decoded⟩, rfl⟩ := StrictJournal.new_eq_ok.mp made
  obtain ⟨short, rfl⟩ := StrictJournal.encode_eq_ok.mp written
  obtain ⟨valid, kind, same⟩ := TypedPublicValues.decode_eq_ok.mp decoded
  have length := written_length ⟨.ethereumState, programId, hashBytes payload, payload⟩
  have bound := encode_typed_length_le valid kind
  rw [← same] at bound
  refine ⟨typed, decoded, ?_, ?_, ?_, ?_⟩
  · simp only [StrictJournal.verifyExpected]
    simp only [bind_eq_ok, ↓then_eq_ok, StrictJournal.refuse_eq_ok, pure_eq_ok, ne_eq, not_not]
    exact ⟨_, StrictJournal.decodeStrict_eq_ok.mpr
      ⟨rfl, program, nonempty, short, rfl, typed, decoded⟩, rfl, rfl, rfl⟩
  · rw [StrictJournal.typedPayload, decoded]
    rfl
  · apply List.length_pos_iff.mp
    omega
  · rw [length]
    change 88 + payload.length ≤ 16384
    omega

omit [Hashing] in
/-- The fields that both public outputs start with, followed by anything. -/
theorem outputFields_inj {manifestId manifestId' claimId claimId' : Hash32}
    {prior prior' next next' : MintControllerState} {timestamp timestamp' : UInt64}
    {after after' : List UInt8} (priorValid : prior.Valid) (priorValid' : prior'.Valid)
    (nextValid : next.Valid) (nextValid' : next'.Valid)
    (same : encode manifestId ++ (encode claimId ++ (encode prior ++ (encode next ++
        (encode timestamp ++ after)))) =
      encode manifestId' ++ (encode claimId' ++ (encode prior' ++ (encode next' ++
        (encode timestamp' ++ after'))))) :
    manifestId = manifestId' ∧ claimId = claimId' ∧ prior = prior' ∧ next = next' ∧
      timestamp = timestamp' ∧ after = after' := by
  have state : ∀ {left right : MintControllerState} {rest rest' : List UInt8}, left.Valid →
      right.Valid → encode left ++ rest = encode right ++ rest' → left = right ∧ rest = rest' :=
    fun leftValid rightValid => (CanonicalRecord.reads (α := MintControllerState)).write_inj
      (MintControllerState.validate_eq_ok.mpr leftValid)
      (MintControllerState.validate_eq_ok.mpr rightValid)
  obtain ⟨manifests, same⟩ := (reads_fixed 32).write_inj trivial trivial same
  obtain ⟨claims, same⟩ := (reads_fixed 32).write_inj trivial trivial same
  obtain ⟨priors, same⟩ := state priorValid priorValid' same
  obtain ⟨nexts, same⟩ := state nextValid nextValid' same
  obtain ⟨timestamps, same⟩ := reads_u64.write_inj trivial trivial same
  exact ⟨manifests, claims, priors, nexts, timestamps, same⟩

/-- Public values that are written as a deposit output are that output. -/
theorem typed_deposit {typed : TypedPublicValues} {output : DepositPublicOutput}
    (decoded : TypedPublicValues.decode .ethereumState (encode output) = .ok typed)
    (priorValid : output.priorState.Valid) (nextValid : output.nextState.Valid)
    (batchValid : output.mintBatch.Valid) : typed = .deposit output := by
  obtain ⟨valid, kind, same⟩ := TypedPublicValues.decode_eq_ok.mp decoded
  cases typed with
  | heartbeat other => exact absurd same (deposit_ne_heartbeat output other)
  | elementsState other => cases kind
  | deposit other =>
    have split : ∀ output : DepositPublicOutput, encode output =
        encodeHeader tagDepositPublicOutput ++ (encode output.manifestId ++
          (encode output.claimId ++ (encode output.priorState ++ (encode output.nextState ++
            (encode output.finalizedExecutionBlockTimestamp ++ encode output.mintBatch))))) := by
      intro output
      change [encodeHeader tagDepositPublicOutput, encode output.manifestId, encode output.claimId,
        encode output.priorState, encode output.nextState,
        encode output.finalizedExecutionBlockTimestamp, encode output.mintBatch].flatten = _
      simp
    have parts := DepositPublicOutput.parts_valid valid
    change encode output = encode other at same
    rw [split, split] at same
    obtain ⟨manifests, claims, priors, nexts, timestamps, batches⟩ := outputFields_inj priorValid
      (MintControllerState.validate_eq_ok.mp parts.1) nextValid
      (MintControllerState.validate_eq_ok.mp parts.2.1) (List.append_cancel_left same)
    have first := decodeExact_eq_ok.mpr
      ⟨MintBatch.validate_eq_ok.mpr batchValid, (rfl : encode output.mintBatch = _)⟩
    rw [batches, decodeExact_eq_ok.mpr ⟨parts.2.2, (rfl : encode other.mintBatch = _)⟩] at first
    cases output
    cases other
    cases manifests
    cases claims
    cases priors
    cases nexts
    cases timestamps
    cases first
    rfl

/-- Public values that are written as a heartbeat output are that output. -/
theorem typed_heartbeat {typed : TypedPublicValues} {output : HeartbeatPublicOutput}
    (decoded : TypedPublicValues.decode .ethereumState (encode output) = .ok typed)
    (priorValid : output.priorState.Valid) (nextValid : output.nextState.Valid) :
    typed = .heartbeat output := by
  obtain ⟨valid, kind, same⟩ := TypedPublicValues.decode_eq_ok.mp decoded
  cases typed with
  | deposit other => exact absurd same.symm (deposit_ne_heartbeat other output)
  | elementsState other => cases kind
  | heartbeat other =>
    have split : ∀ output : HeartbeatPublicOutput, encode output =
        encodeHeader tagHeartbeatPublicOutput ++ (encode output.manifestId ++
          (encode output.claimId ++ (encode output.priorState ++ (encode output.nextState ++
            (encode output.finalizedExecutionBlockTimestamp ++ []))))) := by
      intro output
      change [encodeHeader tagHeartbeatPublicOutput, encode output.manifestId,
        encode output.claimId, encode output.priorState, encode output.nextState,
        encode output.finalizedExecutionBlockTimestamp].flatten = _
      simp
    have parts := HeartbeatPublicOutput.parts_valid valid
    change encode output = encode other at same
    rw [split, split] at same
    obtain ⟨manifests, claims, priors, nexts, timestamps, -⟩ := outputFields_inj priorValid
      (MintControllerState.validate_eq_ok.mp parts.1) nextValid
      (MintControllerState.validate_eq_ok.mp parts.2) (List.append_cancel_left same)
    cases output
    cases other
    cases manifests
    cases claims
    cases priors
    cases nexts
    cases timestamps
    rfl

variable {decodeFinality : List UInt8 → Except SepoliaFinalityError Proof}
  {verifier : EthereumStateProofVerifier (EthereumInboundProof Proof)}
  {manifest : ProtocolManifest} {input : GuestInput} {publicValues : List UInt8}

/-- The output of a heartbeat keeps the claim's state. -/
theorem heartbeatOutput_prior {State : Type} {stateVerifier : EthereumStateProofVerifier State}
    {claim : EthereumHeartbeatClaim} {proof : State} {output : HeartbeatPublicOutput}
    (built : heartbeatOutput stateVerifier manifest claim proof = .ok output) :
    output.priorState = claim.priorState := by
  simp only [heartbeatOutput] at built
  simp only [↓then_eq_ok, bind_eq_ok, pure_eq_ok] at built
  obtain ⟨_, _, _, _, _, _, rfl⟩ := built
  rfl

/-- What the guest establishes of the bytes that it returns. -/
theorem execute_returned (read : decodeExact ProtocolManifest input.manifest = .ok manifest)
    (executed : input.execute decodeFinality verifier = .ok publicValues) :
    ∃ journal typed attempt, Returned manifest input publicValues journal typed attempt := by
  simp only [GuestInput.execute, executeGuestInput, orReject] at executed
  simp only [↓then_eq_ok, bind_eq_ok, mapError_eq_ok, read, Except.ok.injEq, exists_eq_left']
    at executed
  obtain ⟨-, -, -, -, -, finality, -, journal, made, written⟩ := executed
  unfold statementJournal at made
  split at made
  · simp only [depositJournal, orReject, bind_eq_ok, mapError_eq_ok] at made
    obtain ⟨claim, claimRead, storage, -, built⟩ := made
    simp only [buildDepositJournal, bind_eq_ok, mapError_eq_ok] at built
    obtain ⟨output, accepted, made⟩ := built
    obtain ⟨step, -⟩ := depositOutput_eq_ok.mp accepted
    have prior : output.priorState = claim.priorState :=
      congrArg DepositPublicOutput.priorState step.output_eq
    obtain ⟨typed, decoded, verified, typedPayload, nonempty, fits⟩ := journal_returned made written
    obtain rfl := typed_deposit decoded (prior ▸ step.step.valid) step.step.next_valid
      step.step.batchValid
    refine ⟨journal, _, .mint output.mintBatch claim.finality, verified, typedPayload, nonempty,
      fits, .deposit claimRead prior step.batch, output.priorState, output.nextState, rfl, ?_⟩
    rw [prior]
    exact MintControllerState.applyMintBatch_eq_ok.mpr step.step
  · simp only [heartbeatJournal, orReject, bind_eq_ok, mapError_eq_ok] at made
    obtain ⟨claim, claimRead, built⟩ := made
    simp only [buildHeartbeatJournal, bind_eq_ok, mapError_eq_ok] at built
    obtain ⟨output, accepted, made⟩ := built
    obtain ⟨step, -⟩ := heartbeatOutput_eq_ok accepted
    have prior := heartbeatOutput_prior accepted
    obtain ⟨typed, decoded, verified, typedPayload, nonempty, fits⟩ := journal_returned made written
    obtain rfl := typed_heartbeat decoded (prior ▸ step.valid) step.next_valid
    refine ⟨journal, _, .heartbeat claim.finality, verified, typedPayload, nonempty, fits,
      .heartbeat claimRead prior, output.priorState, output.nextState, rfl, ?_⟩
    rw [prior]
    exact MintControllerState.applyHeartbeat_eq_ok.mpr step

end Guest

section Delivery

variable [Hashing] {CompressedError : Type}

/-- A journal and a raw proof of it on their way to the controller. The adapter verifies them; the
crate, the tools and the client write them into one annex; and each reads there what was written,
the client also the public values. -/
structure Delivered (system : ProofSystem CompressedError) (programId : Hash32)
    (rawVkeyHash publicValues rawProof : List UInt8) (journal : StrictJournal)
    (typed : TypedPublicValues) (annex : List UInt8) : Prop where
  verified : verifyRawCompressedSha256 system rawProof publicValues rawVkeyHash programId
    .ethereumState = .ok journal
  crateWrites : ∃ made, Sp1ProofAnnex.new .ethereumState programId publicValues rawProof =
    .ok made ∧ (made.encode : Except (Fault AnnexError) (List UInt8)) = .ok annex
  toolsWrite : Simplicity.encodeSp1Annex programId.bytes publicValues rawProof = .ok annex
  clientWrites : TypeScript.encodeSp1Annex ⟨1, programId.bytes, publicValues, rawProof⟩ = .ok annex
  crateReads : Sp1ProofAnnex.verifyStrictJournal annex programId .ethereumState =
    .ok (⟨.ethereumState, programId, publicValues, rawProof⟩, journal)
  toolsRead : Simplicity.decodeSp1Annex annex = .ok ⟨programId.bytes, publicValues, rawProof⟩
  clientReads : TypeScript.decodeSp1Annex annex =
    .ok ⟨1, programId.bytes, publicValues, rawProof⟩
  clientJournal : TypeScript.decodeStrictJournal publicValues =
    .ok ⟨1, programId.bytes, journal.payload⟩
  clientTyped : TypeScript.decodeTypedPublicValues 1 journal.payload =
    .ok (TypeScript.TypedPublicValues.ofCore typed)

/-- What a proof of a journal comes with is delivered. -/
theorem delivered_of_root (canonical : (emptyBurnNode 64).bytes = TypeScript.emptyBurnRoot)
    {system : ProofSystem CompressedError} {programId : Hash32} {rawVkeyHash : FixedBytes 32}
    {publicValues rawProof : List UInt8} {journal : StrictJournal} {typed : TypedPublicValues}
    (derived : (rawVkeyHashFromProgramId programId :
      Except (Sp1Verifier.VerificationError CompressedError) (FixedBytes 32)) = .ok rawVkeyHash)
    (expected : StrictJournal.verifyExpected publicValues programId .ethereumState = .ok journal)
    (typedPayload : journal.typedPayload = .ok typed) (nonempty : publicValues ≠ [])
    (fits : publicValues.length ≤ sp1PublicValuesMaxSize)
    (proved : ProvedUnder system publicValues rawVkeyHash.bytes rawProof)
    (size : sp1AnnexHeaderSize + publicValues.length + rawProof.length ≤ sp1AnnexMaxSize) :
    ∃ annex, Delivered system programId rawVkeyHash.bytes publicValues rawProof journal typed
      annex := by
  have proofNe : rawProof ≠ [] := by
    have long := proved.long
    apply List.length_pos_iff.mp
    omega
  obtain ⟨nonzero, -, -⟩ := rawVkeyHashFromProgramId_eq_ok.mp derived
  have read := expected
  simp only [StrictJournal.verifyExpected] at read
  simp only [bind_eq_ok, ↓then_eq_ok, StrictJournal.refuse_eq_ok, pure_eq_ok, ne_eq, not_not] at read
  obtain ⟨journal, strict, program, kind, rfl⟩ := read
  let core : Sp1ProofAnnex := ⟨.ethereumState, programId, publicValues, rawProof⟩
  have valid : core.Valid := ⟨rfl, nonzero, nonempty, fits, proofNe, size⟩
  have accepted : Sp1ProofAnnex.decodeStrict core.written = .ok core :=
    Sp1ProofAnnex.decodeStrict_eq_ok.mpr ⟨valid, rfl⟩
  have typedDecoded : TypedPublicValues.decode .ethereumState journal.payload = .ok typed := by
    rw [StrictJournal.typedPayload, mapError_eq_ok, kind] at typedPayload
    exact typedPayload
  refine ⟨core.written, ?_, ?_, ?_, ?_, ?_, ?_, ?_, ?_, ?_⟩
  · have sizes : SizesAdmitted rawProof publicValues := by
      have room : 55 + publicValues.length + rawProof.length ≤ 524288 := size
      refine ⟨proofNe, ?_, fits, size⟩
      change _ ≤ 524288
      omega
    exact verifyRaw_of_proved derived sizes expected proved
  · refine ⟨core, Sp1ProofAnnex.new_eq_ok.mpr ⟨valid, rfl⟩, Sp1ProofAnnex.encode_eq_ok.mpr ?_⟩
    have values : core.publicValues.length ≤ 16384 := valid.values_le
    have total : 55 + core.publicValues.length + core.proof.length ≤ 524288 := valid.size
    exact ⟨by omega, by omega, rfl⟩
  · exact encodePython_eq_ok.mpr ⟨core, accepted, rfl⟩
  · exact TypeScript.encodeSp1Annex_eq_ok.mpr ⟨core, accepted, rfl⟩
  · exact verifyStrictJournal_eq_ok.mpr ⟨accepted, strict, kind, program⟩
  · exact decodePython_eq_ok.mpr ⟨core, accepted, rfl⟩
  · exact (TypeScript.decodeSp1Annex_eq_ok canonical).mpr
      ⟨core, journal, accepted, rfl, strict, kind, program⟩
  · refine ((TypeScript.agrees_strictJournal canonical).accepts _ _).mpr ⟨journal, strict, ?_⟩
    rw [TypeScript.StrictJournal.ofCore, kind, program]
    rfl
  · exact (@TypeScript.decodeTypedPublicValues_ofCore _ canonical .ethereumState _ _).mpr
      ⟨typed, typedDecoded, rfl⟩

end Delivery

section Histories

variable [Hashing] {Proof CompressedError : Type}

/-- An input of the guest and what it returned. -/
structure Publication where
  input : GuestInput
  publicValues : List UInt8

/-- Executions of the guest for one manifest, each about the state that the journal before it
left. -/
inductive GuestHistory (decodeFinality : List UInt8 → Except SepoliaFinalityError Proof)
    (verifier : EthereumStateProofVerifier (EthereumInboundProof Proof))
    (manifest : ProtocolManifest) (initial : MintControllerState) :
    List Publication → MintControllerState → Prop
  | start : GuestHistory decodeFinality verifier manifest initial [] initial
  | publish {published : List Publication} {prior next : MintControllerState}
    {publication : Publication} :
    GuestHistory decodeFinality verifier manifest initial published prior →
    decodeExact ProtocolManifest publication.input.manifest = .ok manifest →
    publication.input.execute decodeFinality verifier = .ok publication.publicValues →
    statesOf publication.publicValues = some (prior, next) →
    GuestHistory decodeFinality verifier manifest initial (published ++ [publication]) next

/-- A publication asks for the step of the controller that its journal states, and every proof of
it that leaves room in an annex delivers that journal. -/
def Carried (system : ProofSystem CompressedError) (manifest : ProtocolManifest)
    (rawVkeyHash : FixedBytes 32) (publication : Publication)
    (step : ControllerAttempt × MintControllerState) : Prop :=
  ∃ journal typed prior, states typed = some (prior, step.2) ∧ step.1.apply prior = .ok step.2 ∧
    Claimed publication.input typed step.1 ∧
    ∀ rawProof, ProvedUnder system publication.publicValues rawVkeyHash.bytes rawProof →
      sp1AnnexHeaderSize + publication.publicValues.length + rawProof.length ≤ sp1AnnexMaxSize →
      ∃ annex, Delivered system manifest.ethereumGuestProgramId rawVkeyHash.bytes
        publication.publicValues rawProof journal typed annex

/-- What a run minted since its initial state: consecutive nonces, and one hundred units of supply
for each unit deposited. -/
structure MintedSince (initial : MintControllerState)
    (log : List (ControllerAttempt × MintControllerState)) (state : MintControllerState) :
    Prop where
  nonces : MintBatch.nonces (minted log) =
    List.range' initial.nextMintNonce.toNat (minted log).length
  nextNonce : state.nextMintNonce.toNat = initial.nextMintNonce.toNat + (minted log).length
  total : state.totalMintedUsddBase.toNat =
    initial.totalMintedUsddBase.toNat + 100 * MintBatch.usdtSum (minted log)

omit [Hashing] in
/-- An accepted attempt keeps these accounts. -/
theorem MintedSince.step {initial state next : MintControllerState} {attempt : ControllerAttempt}
    {log : List (ControllerAttempt × MintControllerState)} (accounts : MintedSince initial log state)
    (accepted : attempt.apply state = .ok next) :
    MintedSince initial (log ++ [(attempt, next)]) next := by
  have step := attempt.step accepted
  refine ⟨?_, ?_, ?_⟩
  · have nonces := step.nonces
    have known := accounts.nonces
    rw [accounts.nextNonce] at nonces
    simp only [MintBatch.nonces] at nonces known ⊢
    rw [minted_concat, List.map_append, known, nonces, List.length_append, List.range'_append_1]
  · rw [step.nextNonce, accounts.nextNonce, minted_concat, List.length_append, Nat.add_assoc]
  · rw [step.total, accounts.total, minted_concat, usdtSum_append, Nat.mul_add, Nat.add_assoc]

/-- A history of the guest is carried step by step through a run of the controller that the tools
follow. -/
structure HistoryCarried (system : ProofSystem CompressedError) (manifest : ProtocolManifest)
    (rawVkeyHash : FixedBytes 32) (initial last : MintControllerState)
    (published : List Publication) (log : List (ControllerAttempt × MintControllerState)) :
    Prop where
  run : Reaches ControllerAttempt.apply initial log last
  followed : ToolTrace (encode initial) (log.map observe) (encode last)
  accounts : MintedSince initial log last
  carried : List.Forall₂ (Carried system manifest rawVkeyHash) published log

variable {decodeFinality : List UInt8 → Except SepoliaFinalityError Proof}
  {verifier : EthereumStateProofVerifier (EthereumInboundProof Proof)}
  {manifest : ProtocolManifest} {initial last : MintControllerState} {published : List Publication}

theorem historyCarried_of_root (canonical : (emptyBurnNode 64).bytes = TypeScript.emptyBurnRoot)
    (system : ProofSystem CompressedError) {rawVkeyHash : FixedBytes 32}
    (derived : (rawVkeyHashFromProgramId manifest.ethereumGuestProgramId :
      Except (Sp1Verifier.VerificationError CompressedError) (FixedBytes 32)) = .ok rawVkeyHash)
    (history : GuestHistory decodeFinality verifier manifest initial published last) :
    ∃ log, HistoryCarried system manifest rawVkeyHash initial last published log := by
  induction history with
  | start => exact ⟨[], .start, .start, ⟨rfl, rfl, rfl⟩, .nil⟩
  | @publish published prior next publication _ read executed about ih =>
    obtain ⟨log, run, followed, accounts, carried⟩ := ih
    obtain ⟨returned, found, attempt, law⟩ := execute_returned read executed
    obtain ⟨journal, typed, strict, typedPayload, between⟩ := statesOf_eq_some about
    -- the journal that the guest returned is the one that states the two states
    obtain rfl : returned = journal := by
      have accepted := law.verified
      simp only [StrictJournal.verifyExpected] at accepted
      simp only [bind_eq_ok, ↓then_eq_ok, pure_eq_ok] at accepted
      obtain ⟨_, again, -, -, rfl⟩ := accepted
      exact Except.ok.inj (again.symm.trans strict)
    obtain rfl : found = typed := Except.ok.inj (law.typedPayload.symm.trans typedPayload)
    obtain ⟨_, _, same, applied⟩ := law.applied
    rw [between, Option.some.injEq, Prod.mk.injEq] at same
    obtain ⟨rfl, rfl⟩ := same
    refine ⟨log ++ [(attempt, next)], .accept run applied, ?_, accounts.step applied, ?_⟩
    · rw [List.map_append]
      exact followed.of_apply applied
    · refine List.rel_append carried (.cons ?_ .nil)
      refine ⟨returned, found, prior, between, applied, law.claimed, ?_⟩
      intro rawProof proved size
      exact delivered_of_root canonical derived law.verified typedPayload law.nonempty law.fits
        proved size

end Histories

/-- Every history of the guest is carried by every proof system whose proofs of it verify. -/
theorem guest_history_carried {Proof CompressedError : Type} (system : ProofSystem CompressedError)
    {decodeFinality : List UInt8 → Except SepoliaFinalityError Proof}
    {verifier : EthereumStateProofVerifier (EthereumInboundProof Proof)}
    {manifest : ProtocolManifest} {initial last : MintControllerState}
    {published : List Publication} {rawVkeyHash : FixedBytes 32}
    (derived : (rawVkeyHashFromProgramId manifest.ethereumGuestProgramId :
      Except (Sp1Verifier.VerificationError CompressedError) (FixedBytes 32)) = .ok rawVkeyHash)
    (history : @GuestHistory sha256Hashing Proof decodeFinality verifier manifest initial published
      last) :
    ∃ log, @HistoryCarried sha256Hashing CompressedError system manifest rawVkeyHash initial last
      published log :=
  let := sha256Hashing
  historyCarried_of_root emptyBurnNode_sha256 system derived history

section Sample

/-- A proof system whose proofs are a tag and the digest that they commit to. -/
def sampleProofSystem : ProofSystem Unit where
  Proof := List UInt8
  deserialize rawProof := .ok rawProof
  serialize proof := .ok proof
  compressed proof := some ((proof.drop 4).map UInt8.toUInt32)
  proofMaxNumPvs := 32
  committedValueDigest recursionValues := recursionValues
  verifyRaw _ _ := .ok ()

/-- A heartbeat to the sample witness. -/
def sampleHeartbeatInput [Hashing] : GuestInput where
  statementTag := [2]
  manifest := encode sampleManifest
  claim := encode (⟨domainHash .manifest (encode sampleManifest), settledState, laterWitness⟩ :
    EthereumHeartbeatClaim)
  finality := [0]
  vaultWitness := []

/-- A verifier of heartbeats to the sample witness. -/
def sampleHeartbeatVerifier : EthereumStateProofVerifier (EthereumInboundProof Unit) where
  verifyFinalizedDeposits _ _ _ := .error (.invalidProof "vault deposit storage proof rejected")
  verifyFinalizedHeartbeat _ claim _ :=
    if claim.finality = laterWitness then .ok ()
    else .error (.invalidProof "invalid Ethereum inbound proof witness")

/-- The controller after that heartbeat. -/
def sampleHeartbeatState : MintControllerState :=
  { settledState with
    sequence := 2
    ethereumLightClientDigest := .ofNat 32 0xd4
    finalizedBeaconSlot := 64
    finalizedBeaconRoot := .ofNat 32 0xd5
    finalizedExecutionStateRoot := .ofNat 32 0xd7 }

/-- The heartbeat of the sample is delivered. -/
theorem guest_history_carried_sample : letI := sha256Hashing
    ∃ publicValues rawProof journal typed annex,
      sampleHeartbeatInput.execute (fun _ => .ok ()) sampleHeartbeatVerifier = .ok publicValues ∧
      Delivered sampleProofSystem sampleManifest.ethereumGuestProgramId
        (FixedBytes.ofNat 32 0xe6000000).bytes publicValues rawProof journal typed annex := by
  let hashing := sha256Hashing
  have derived : (rawVkeyHashFromProgramId sampleManifest.ethereumGuestProgramId :
      Except (Sp1Verifier.VerificationError Unit) (FixedBytes 32)) =
      .ok (.ofNat 32 0xe6000000) := by decide
  have read : decodeExact ProtocolManifest sampleHeartbeatInput.manifest = .ok sampleManifest := by
    decide +kernel
  have about : (sampleHeartbeatInput.execute (fun _ => .ok ()) sampleHeartbeatVerifier).toOption.bind
      statesOf = some (settledState, sampleHeartbeatState) := by decide +kernel
  cases executed : sampleHeartbeatInput.execute (fun _ => .ok ()) sampleHeartbeatVerifier with
  | error fault =>
    rw [executed] at about
    cases about
  | ok publicValues =>
    rw [executed] at about
    have history : GuestHistory (fun _ => .ok ()) sampleHeartbeatVerifier sampleManifest
        settledState ([] ++ [⟨sampleHeartbeatInput, publicValues⟩]) sampleHeartbeatState :=
      .publish .start read executed about
    obtain ⟨log, law⟩ := guest_history_carried sampleProofSystem derived history
    obtain ⟨step, _, carried, _, _⟩ := List.forall₂_cons_left_iff.mp law.carried
    obtain ⟨journal, typed, _, _, _, _, delivery⟩ := carried
    have proved : ProvedUnder sampleProofSystem publicValues (FixedBytes.ofNat 32 0xe6000000).bytes
        ([1, 0, 0, 0] ++ (hashBytes publicValues).bytes) := by
      refine ⟨by simp, by simp [leNat], ⟨_, _, rfl, rfl, rfl, ?_, rfl⟩, rfl⟩
      change ((hashBytes publicValues).bytes.map UInt8.toUInt32).length = 32
      rw [List.length_map, FixedBytes.length_eq]
    have room : sp1AnnexHeaderSize + publicValues.length +
        ([1, 0, 0, 0] ++ (hashBytes publicValues).bytes).length ≤ sp1AnnexMaxSize := by
      obtain ⟨_, _, _, returned⟩ := execute_returned read executed
      have fits : publicValues.length ≤ 16384 := returned.fits
      rw [List.length_append, FixedBytes.length_eq]
      change 55 + publicValues.length + (4 + 32) ≤ 524288
      omega
    obtain ⟨annex, delivered⟩ := delivery _ proved room
    exact ⟨publicValues, _, journal, typed, annex, rfl, delivered⟩

end Sample

end Usdd.Verif

import Usdd.TypeScript.Claims
import Usdd.TypeScript.SlicedRecords
/-!
# The client's claims and outputs are the crate's

The validators of claims and outputs accept on views what the crate's do, and the decoders and
encoders follow as they do for the records inside them.
-/
namespace Usdd.TypeScript

open Usdd.Foundation Usdd.Core Usdd.ProofCore

section Encoders

/-- An encoder that validates first, and then writes the bytes of the record. -/
theorem encoded_iff {β : Type} {result : Except String β} {valid : Prop} {made written : β}
    (passes : ∀ found, result = .ok found → valid) (makes : valid → result = .ok made) :
    result = .ok written ↔ valid ∧ written = made := by
  constructor
  · intro encoded
    have holds := passes _ encoded
    exact ⟨holds, Except.ok.inj (encoded.symm.trans (makes holds))⟩
  · rintro ⟨holds, rfl⟩
    exact makes holds

theorem encodeVaultDeposit_eq_ok [Hashing] {deposit : Core.VaultDeposit} {bytes : List UInt8} :
    encodeVaultDeposit (.ofCore deposit) = .ok bytes ↔
      deposit.validate = .ok () ∧ bytes = encode deposit := by
  refine encoded_iff (fun found encoded => ?_) encodeVaultDeposit_ofCore
  simp only [encodeVaultDeposit] at encoded
  simp only [↓then_eq_ok] at encoded
  exact validateVaultDeposit_ofCore.mp encoded.1

theorem encodeSolidityElementsBridgeState_eq_ok [Hashing]
    (canonical : (emptyBurnNode 64).bytes = emptyBurnRoot)
    {state : Core.SolidityElementsBridgeState} {bytes : List UInt8} :
    encodeSolidityElementsBridgeState (ofCore state) = .ok bytes ↔
      state.validate = .ok () ∧ bytes = encode state := by
  refine encoded_iff (fun found encoded => ?_) (encodeSolidityElementsBridgeState_ofCore canonical)
  simp only [encodeSolidityElementsBridgeState] at encoded
  simp only [↓then_eq_ok] at encoded
  exact (validateSolidityElementsBridgeState_ofCore canonical).mp encoded.1

/-- A burn append of the crate in the client. -/
def BurnAppend.ofCore (append : ProofCore.BurnAppend) : BurnAppend :=
  ⟨.ofCore append.burn, .ofCore append.emptyBranch⟩

theorem encodeBurnAppend_eq_ok {append : ProofCore.BurnAppend} {bytes : List UInt8} :
    encodeBurnAppend (.ofCore append) = .ok bytes ↔
      append.burn.validate = .ok () ∧ bytes = encode append := by
  refine encoded_iff (fun found encoded => ?_) fun valid => ?_
  · simp only [encodeBurnAppend, BurnAppend.ofCore, concat, bind_eq_ok] at encoded
    obtain ⟨_, -, _, ⟨written, burn, -⟩, -⟩ := encoded
    simp only [encodeBurn] at burn
    simp only [↓then_eq_ok] at burn
    exact validateBurn_ofCore.mp burn.1
  · exact concat_eq (.cons (header_eq rfl) (.cons (encodeBurn_ofCore valid)
      (.cons (encodeBurnProof_ofCore _) .nil)))

theorem mirrors_proofHeader {tag : UInt16} {number : Int} (same : (tag.toNat : Int) = number) :
    Mirrors id (decodeProofHeader tag) (decodeRecordHeader number) := by
  intro input part rest
  rw [mirrors_header same]
  simp only [reads_decodeHeader tag input _ rest, reads_decodeProofHeader tag input _ rest]

theorem mirrors_burnAppend : Mirrors BurnAppend.ofCore
    (CanonicalDecode.decodeFrom : Decoder ProofCore.BurnAppend) decodeBurnAppendFrom := by
  refine .field (mirrors_proofHeader rfl) fun _ => .field mirrors_burn fun _ => ?_
  exact .field mirrors_burnProof fun _ => .pure rfl

end Encoders

section Outputs

/-- Words are compared as their numbers. -/
theorem word_ne {left right : UInt64} : (left.toNat : Int) ≠ right.toNat ↔ left ≠ right := by
  rw [ne_eq, ne_eq, Int.natCast_inj, UInt64.toNat_inj]

theorem word_eq {left right : UInt64} : (left.toNat : Int) = right.toNat ↔ left = right := by
  rw [Int.natCast_inj, UInt64.toNat_inj]

theorem word_lt {left right : UInt64} : (left.toNat : Int) < right.toNat ↔ left < right := by
  rw [Int.ofNat_lt, UInt64.lt_iff_toNat_lt]

theorem bytesEqual_fixed {width : Nat} {left right : FixedBytes width} :
    bytesEqual left.bytes right.bytes = true ↔ left = right := by
  rw [bytesEqual_iff, FixedBytes.ext_iff]

theorem bytesEqual_fixed_false {width : Nat} {left right : FixedBytes width} :
    bytesEqual left.bytes right.bytes = false ↔ left ≠ right := by
  rw [← Bool.not_eq_true, bytesEqual_fixed]

/-- The client's difference of ordered slots is the crate's. -/
theorem slotGap_iff {prior next : UInt64} (ordered : ¬next < prior) :
    (next.toNat : Int) - prior.toNat > maxEthereumFinalitySlotGap ↔
      saturatingSub next prior > Core.maxEthereumFinalitySlotGap := by
  have numbers := Nat.not_lt.mp (UInt64.lt_iff_toNat_lt.not.mp ordered)
  have gap : (next - prior).toNat = next.toNat - prior.toNat :=
    UInt64.toNat_sub_of_le _ _ (UInt64.le_iff_toNat_le.mpr numbers)
  rw [saturatingSub, if_neg ordered, gt_iff_lt, gt_iff_lt, UInt64.lt_iff_toNat_lt, gap,
    maxEthereumFinalitySlotGap_toNat, maxEthereumFinalitySlotGap]
  omega

/-- Slots out of order are refused by both, so the difference matters only for the others. -/
theorem slotGap_ofCore {prior next : UInt64} {others : Prop} :
    (next < prior ∨ (next.toNat : Int) - prior.toNat > maxEthereumFinalitySlotGap ∨ others) ↔
      (next < prior ∨ saturatingSub next prior > Core.maxEthereumFinalitySlotGap ∨ others) := by
  by_cases regressed : next < prior
  · simp only [regressed, true_or]
  · rw [slotGap_iff regressed]

theorem checkedAddU64_one {left : UInt64} {sum : Int} {name : String} :
    checkedAddU64 left.toNat 1 name = .ok sum ↔
      ∃ word, checkedAdd left 1 = some word ∧ sum = word.toNat :=
  @checkedAddU64_words left 1 sum name

theorem version_ne {left right : UInt32} : (left.toNat : Int) ≠ right.toNat ↔ left ≠ right := by
  rw [ne_eq, ne_eq, Int.natCast_inj, UInt32.toNat_inj]

/-- An output of a deposit of the crate in the client. -/
def DepositPublicOutput.ofCore (output : ProofCore.DepositPublicOutput) :
    DepositPublicOutput where
  manifestId := output.manifestId.bytes
  claimId := output.claimId.bytes
  priorState := .ofCore output.priorState
  nextState := .ofCore output.nextState
  finalizedExecutionBlockTimestamp := output.finalizedExecutionBlockTimestamp.toNat
  mintBatch := .ofCore output.mintBatch

theorem validateDepositPublicOutput_ofCore {output : ProofCore.DepositPublicOutput} :
    validateDepositPublicOutput (.ofCore output) = .ok () ↔ output.validate = .ok () := by
  simp only [validateDepositPublicOutput, ProofCore.DepositPublicOutput.validate]
  simp only [↓then_eq_ok, bind_eq_ok, rejectIf_eq_ok, okOr_eq_ok]
  simp only [DepositPublicOutput.ofCore, encodeMintControllerState_ofCore,
    validateMintBatch_ofCore, assertRequiredHash_fixed, assertPositiveU64_word]
  simp only [MintControllerState.ofCore, MintBatch.ofCore, checkedAddU64_words, checkedAddU64_one]
  constructor
  · rintro ⟨manifest, claim, time, _, ⟨prior, -⟩, _, ⟨next, -⟩, batch, _, ⟨total, totalAdded, rfl⟩,
      _, ⟨sequence, sequenceAdded, rfl⟩, bound⟩
    simp only [version_ne, word_ne, word_eq, word_lt, gt_iff_lt, bytesEqual_fixed,
      bytesEqual_fixed_false] at bound
    rw [not_or] at bound
    refine ⟨?_, prior, next, batch, total, totalAdded, bound.1, sequence, sequenceAdded, ?_⟩
    · simp only [manifest, claim, time, not_false_eq_true, or_self]
    · simpa only [slotGap_ofCore] using bound.2
  · rintro ⟨set, prior, next, batch, total, totalAdded, version, sequence, sequenceAdded, bound⟩
    simp only [not_or] at set
    refine ⟨set.1, set.2.1, set.2.2, _, ⟨prior, rfl⟩, _, ⟨next, rfl⟩, batch, _,
      ⟨total, totalAdded, rfl⟩, _, ⟨sequence, sequenceAdded, rfl⟩, ?_⟩
    simp only [version_ne, word_ne, word_eq, word_lt, gt_iff_lt, bytesEqual_fixed,
      bytesEqual_fixed_false]
    rw [not_or]
    exact ⟨version, by simpa only [slotGap_ofCore] using bound⟩

theorem encodeDepositPublicOutput_ofCore {output : ProofCore.DepositPublicOutput}
    (valid : output.validate = .ok ()) :
    encodeDepositPublicOutput (.ofCore output) = .ok (encode output) := by
  obtain ⟨prior, next, batch⟩ := DepositPublicOutput.parts_valid valid
  rw [encodeDepositPublicOutput, validateDepositPublicOutput_ofCore.mpr valid]
  exact concat_eq (.cons (header_eq rfl) (.cons rfl (.cons rfl
    (.cons (encodeMintControllerState_ofCore.mpr ⟨prior, rfl⟩)
      (.cons (encodeMintControllerState_ofCore.mpr ⟨next, rfl⟩) (.cons (u64be_word _)
        (.cons (encodeMintBatch_ofCore batch) .nil)))))))

theorem mirrors_depositPublicOutput : Mirrors DepositPublicOutput.ofCore
    (CanonicalDecode.decodeFrom : Decoder ProofCore.DepositPublicOutput)
    decodeDepositPublicOutputFrom := by
  refine .field (mirrors_proofHeader rfl) fun _ => .field (mirrors_fixed 32 _) fun _ => ?_
  refine .field (mirrors_fixed 32 _) fun _ => .field mirrors_mintControllerState fun _ => ?_
  refine .field mirrors_mintControllerState fun _ => .field (mirrors_u64 _) fun _ => ?_
  refine .field mirrors_mintBatch fun _ => ?_
  exact .validated rfl validateDepositPublicOutput_ofCore

theorem agrees_depositPublicOutput : Agrees DepositPublicOutput.ofCore
    (Core.decodeExact ProofCore.DepositPublicOutput) decodeDepositPublicOutput
    encodeDepositPublicOutput :=
  agrees_of_mirrors mirrors_depositPublicOutput fun _ => encodeDepositPublicOutput_ofCore

/-- An output of a heartbeat of the crate in the client. -/
def HeartbeatPublicOutput.ofCore (output : ProofCore.HeartbeatPublicOutput) :
    HeartbeatPublicOutput where
  manifestId := output.manifestId.bytes
  claimId := output.claimId.bytes
  priorState := .ofCore output.priorState
  nextState := .ofCore output.nextState
  finalizedExecutionBlockTimestamp := output.finalizedExecutionBlockTimestamp.toNat

theorem validateHeartbeatPublicOutput_ofCore {output : ProofCore.HeartbeatPublicOutput} :
    validateHeartbeatPublicOutput (.ofCore output) = .ok () ↔ output.validate = .ok () := by
  have later {left right : UInt64} : (left.toNat : Int) ≤ right.toNat ↔ left ≤ right := by
    rw [Int.ofNat_le, UInt64.le_iff_toNat_le]
  simp only [validateHeartbeatPublicOutput, ProofCore.HeartbeatPublicOutput.validate]
  simp only [↓then_eq_ok, bind_eq_ok, rejectIf_eq_ok, okOr_eq_ok]
  simp only [HeartbeatPublicOutput.ofCore, encodeMintControllerState_ofCore,
    assertRequiredHash_fixed, assertPositiveU64_word]
  simp only [MintControllerState.ofCore, checkedAddU64_one]
  constructor
  · rintro ⟨manifest, claim, time, _, ⟨prior, -⟩, _, ⟨next, -⟩, _, ⟨sequence, added, rfl⟩, bound⟩
    simp only [version_ne, word_ne, bytesEqual_fixed, bytesEqual_fixed_false, later,
      not_or] at bound
    obtain ⟨version, same, nonce, total, configuration, advanced, digest, gap⟩ := bound
    refine ⟨?_, prior, next, version, sequence, added, ?_⟩
    · simp only [manifest, claim, time, not_false_eq_true, or_self]
    · rw [slotGap_iff fun wrong => advanced (UInt64.le_of_lt wrong)] at gap
      simp only [not_or]
      exact ⟨same, nonce, total, configuration, advanced, digest, gap⟩
  · rintro ⟨set, prior, next, version, sequence, added, bound⟩
    simp only [not_or] at set bound
    obtain ⟨same, nonce, total, configuration, advanced, digest, gap⟩ := bound
    refine ⟨set.1, set.2.1, set.2.2, _, ⟨prior, rfl⟩, _, ⟨next, rfl⟩, _, ⟨sequence, added, rfl⟩, ?_⟩
    rw [← slotGap_iff fun wrong => advanced (UInt64.le_of_lt wrong)] at gap
    simp only [version_ne, word_ne, bytesEqual_fixed, bytesEqual_fixed_false, later, not_or]
    exact ⟨version, same, nonce, total, configuration, advanced, digest, gap⟩

theorem encodeHeartbeatPublicOutput_ofCore {output : ProofCore.HeartbeatPublicOutput}
    (valid : output.validate = .ok ()) :
    encodeHeartbeatPublicOutput (.ofCore output) = .ok (encode output) := by
  obtain ⟨prior, next⟩ := HeartbeatPublicOutput.parts_valid valid
  rw [encodeHeartbeatPublicOutput, validateHeartbeatPublicOutput_ofCore.mpr valid]
  exact concat_eq (.cons (header_eq rfl) (.cons rfl (.cons rfl
    (.cons (encodeMintControllerState_ofCore.mpr ⟨prior, rfl⟩)
      (.cons (encodeMintControllerState_ofCore.mpr ⟨next, rfl⟩) (.cons (u64be_word _) .nil))))))

theorem mirrors_heartbeatPublicOutput : Mirrors HeartbeatPublicOutput.ofCore
    (CanonicalDecode.decodeFrom : Decoder ProofCore.HeartbeatPublicOutput)
    decodeHeartbeatPublicOutputFrom := by
  refine .field (mirrors_proofHeader rfl) fun _ => .field (mirrors_fixed 32 _) fun _ => ?_
  refine .field (mirrors_fixed 32 _) fun _ => .field mirrors_mintControllerState fun _ => ?_
  refine .field mirrors_mintControllerState fun _ => .field (mirrors_u64 _) fun _ => ?_
  exact .validated rfl validateHeartbeatPublicOutput_ofCore

theorem agrees_heartbeatPublicOutput : Agrees HeartbeatPublicOutput.ofCore
    (Core.decodeExact ProofCore.HeartbeatPublicOutput) decodeHeartbeatPublicOutput
    encodeHeartbeatPublicOutput :=
  agrees_of_mirrors mirrors_heartbeatPublicOutput fun _ => encodeHeartbeatPublicOutput_ofCore

/-- An output about Elements of the crate in the client. -/
def ElementsStatePublicOutput.ofCore (output : ProofCore.ElementsStatePublicOutput) :
    ElementsStatePublicOutput where
  manifestId := output.manifestId.bytes
  claimId := output.claimId.bytes
  priorBridgeStateHash := output.priorBridgeStateHash.bytes
  nextBridgeStateHash := output.nextBridgeStateHash.bytes
  verifierStatement := output.verifierStatement.bytes
  priorState := TypeScript.ofCore output.priorState
  nextState := TypeScript.ofCore output.nextState

section Elements

variable [Hashing] (canonical : (emptyBurnNode 64).bytes = emptyBurnRoot)
include canonical

theorem validateElementsStatePublicOutput_ofCore {output : ProofCore.ElementsStatePublicOutput} :
    validateElementsStatePublicOutput (.ofCore output) = .ok () ↔ output.validate = .ok () := by
  have mismatch : isZeroSolidityElementsBridgeState (TypeScript.ofCore output.priorState) ≠
      isZero output.priorBridgeStateHash.bytes ↔
      ¬(output.priorState.IsZero ↔ output.priorBridgeStateHash = .zero) := by
    rw [ne_eq, Bool.eq_iff_iff, isZero_ofCore, isZero_fixed,
      SolidityElementsBridgeState.isZero_iff]
  simp only [validateElementsStatePublicOutput, ProofCore.ElementsStatePublicOutput.validate]
  simp only [↓then_eq_ok, rejectIf_eq_ok]
  simp only [ElementsStatePublicOutput.ofCore, assertRequiredHash_fixed, assertLength_fixed,
    validateElementsStateSuccessor_ofCore canonical, mismatch, true_and, not_or, not_not, ne_eq]
  constructor
  · rintro ⟨manifest, claim, next, statement, follows, bound⟩
    exact ⟨⟨manifest, claim, next, statement, bound⟩, follows⟩
  · rintro ⟨⟨manifest, claim, next, statement, bound⟩, follows⟩
    exact ⟨manifest, claim, next, statement, follows, bound⟩

theorem encodeElementsStatePublicOutput_ofCore {output : ProofCore.ElementsStatePublicOutput}
    (valid : output.validate = .ok ()) :
    encodeElementsStatePublicOutput (.ofCore output) = .ok (encode output) := by
  obtain ⟨prior, next⟩ := ElementsStatePublicOutput.parts_valid valid
  rw [encodeElementsStatePublicOutput,
    (validateElementsStatePublicOutput_ofCore canonical).mpr valid]
  exact concat_eq (.cons (header_eq rfl) (.cons rfl (.cons rfl (.cons rfl (.cons rfl (.cons rfl
    (.cons (encodeSolidityElementsBridgeState_ofCore canonical prior)
      (.cons (encodeSolidityElementsBridgeState_ofCore canonical next) .nil))))))))

theorem mirrors_elementsStatePublicOutput : Mirrors ElementsStatePublicOutput.ofCore
    (CanonicalDecode.decodeFrom : Decoder ProofCore.ElementsStatePublicOutput)
    decodeElementsStatePublicOutputFrom := by
  refine .field (mirrors_proofHeader rfl) fun _ => .field (mirrors_fixed 32 _) fun _ => ?_
  refine .field (mirrors_fixed 32 _) fun _ => .field (mirrors_fixed 32 _) fun _ => ?_
  refine .field (mirrors_fixed 32 _) fun _ => .field (mirrors_fixed 32 _) fun _ => ?_
  refine .field (mirrors_solidityElementsBridgeState canonical) fun _ => ?_
  refine .field (mirrors_solidityElementsBridgeState canonical) fun _ => ?_
  exact .validated rfl (validateElementsStatePublicOutput_ofCore canonical)

theorem agrees_elementsStatePublicOutput : Agrees ElementsStatePublicOutput.ofCore
    (Core.decodeExact ProofCore.ElementsStatePublicOutput) decodeElementsStatePublicOutput
    encodeElementsStatePublicOutput :=
  agrees_of_mirrors (mirrors_elementsStatePublicOutput canonical)
    fun _ => encodeElementsStatePublicOutput_ofCore canonical

end Elements

end Outputs

section Claims

/-- A heartbeat claim of the crate in the client. -/
def EthereumHeartbeatClaim.ofCore (claim : ProofCore.EthereumHeartbeatClaim) :
    EthereumHeartbeatClaim where
  manifestId := claim.manifestId.bytes
  priorState := .ofCore claim.priorState
  finality := .ofCore claim.finality

theorem validateEthereumHeartbeatClaim_ofCore {claim : ProofCore.EthereumHeartbeatClaim} :
    validateEthereumHeartbeatClaim (.ofCore claim) = .ok () ↔ claim.validate = .ok () := by
  rw [ProofCore.EthereumHeartbeatClaim.validate_eq_ok]
  simp only [validateEthereumHeartbeatClaim]
  simp only [↓then_eq_ok, bind_eq_ok]
  simp only [EthereumHeartbeatClaim.ofCore, encodeMintControllerState_ofCore,
    assertRequiredHash_fixed, validateEthereumFinalityWitness_ofCore, and_assoc,
    exists_and_left, exists_eq_left]

theorem encodeEthereumHeartbeatClaim_ofCore {claim : ProofCore.EthereumHeartbeatClaim}
    (valid : claim.validate = .ok ()) :
    encodeEthereumHeartbeatClaim (.ofCore claim) = .ok (encode claim) := by
  obtain ⟨-, prior, finality⟩ := ProofCore.EthereumHeartbeatClaim.validate_eq_ok.mp valid
  rw [encodeEthereumHeartbeatClaim, validateEthereumHeartbeatClaim_ofCore.mpr valid]
  exact concat_eq (.cons (header_eq rfl) (.cons rfl
    (.cons (encodeMintControllerState_ofCore.mpr ⟨prior, rfl⟩)
      (.cons (encodeEthereumFinalityWitness_ofCore finality) .nil))))

theorem mirrors_ethereumHeartbeatClaim : Mirrors EthereumHeartbeatClaim.ofCore
    (CanonicalDecode.decodeFrom : Decoder ProofCore.EthereumHeartbeatClaim)
    decodeEthereumHeartbeatClaimFrom := by
  refine .field (mirrors_proofHeader rfl) fun _ => .field (mirrors_fixed 32 _) fun _ => ?_
  refine .field mirrors_mintControllerState fun _ => ?_
  refine .field mirrors_ethereumFinalityWitness fun _ => ?_
  exact .validated rfl validateEthereumHeartbeatClaim_ofCore

/-- An Elements claim of the crate in the client. -/
def ElementsStateTransitionClaim.ofCore (claim : ProofCore.ElementsStateTransitionClaim) :
    ElementsStateTransitionClaim where
  manifestId := claim.manifestId.bytes
  priorBridgeStateHash := claim.priorBridgeStateHash.bytes
  priorState := TypeScript.ofCore claim.priorState
  nextState := TypeScript.ofCore claim.nextState
  appendedBurns := claim.appendedBurns.map .ofCore

section Elements

variable [Hashing] (canonical : (emptyBurnNode 64).bytes = emptyBurnRoot)
include canonical

theorem validateElementsStateTransitionClaim_ofCore
    {claim : ProofCore.ElementsStateTransitionClaim} (valid : claim.DecodeChecks) :
    validateElementsStateTransitionClaim (.ofCore claim) = .ok () := by
  simp only [validateElementsStateTransitionClaim]
  simp only [↓then_eq_ok, bind_eq_ok, rejectIf_eq_ok, forM_eq_ok, pure_eq_ok, and_true]
  simp only [ElementsStateTransitionClaim.ofCore, assertLength_fixed, List.length_map,
    encodeSolidityElementsBridgeState_eq_ok canonical, true_and]
  refine ⟨_, ⟨valid.prior, rfl⟩, _, ⟨valid.next, rfl⟩, Nat.not_lt.mpr valid.count, ?_⟩
  intro append member
  obtain ⟨burned, present, rfl⟩ := List.mem_map.mp member
  exact ⟨_, encodeBurnAppend_eq_ok.mpr ⟨valid.burns burned present, rfl⟩⟩

theorem encodeElementsStateTransitionClaim_ofCore
    {claim : ProofCore.ElementsStateTransitionClaim} (valid : claim.DecodeChecks) :
    encodeElementsStateTransitionClaim (.ofCore claim) = .ok (encode claim) := by
  have burns : concat ((claim.appendedBurns.map BurnAppend.ofCore).map encodeBurnAppend) =
      .ok (claim.appendedBurns.map encode).flatten :=
    concat_map_eq fun append member =>
      encodeBurnAppend_eq_ok.mpr ⟨valid.burns append member, rfl⟩
  have count : (ElementsStateTransitionClaim.ofCore claim).appendedBurns.length =
      claim.appendedBurns.length := List.length_map _
  rw [encodeElementsStateTransitionClaim,
    validateElementsStateTransitionClaim_ofCore canonical valid, count]
  exact concat_eq (.cons (header_eq rfl) (.cons rfl (.cons rfl
    (.cons (encodeSolidityElementsBridgeState_ofCore canonical valid.prior)
      (.cons (encodeSolidityElementsBridgeState_ofCore canonical valid.next) (.cons rfl
        (.cons burns .nil)))))))

/-- The crate's decoder makes no check of the whole claim, and the client's check of it repeats
what was checked of its parts. -/
theorem mirrors_elementsStateTransitionClaim : Mirrors ElementsStateTransitionClaim.ofCore
    (CanonicalDecode.decodeFrom : Decoder ProofCore.ElementsStateTransitionClaim)
    decodeElementsStateTransitionClaimFrom := by
  refine .field (mirrors_proofHeader rfl) fun _ => .field (mirrors_fixed 32 _) fun manifest => ?_
  refine .field (mirrors_fixed 32 _) fun hash => ?_
  refine .known (mirrors_solidityElementsBridgeState canonical) CanonicalRecord.reads.returns
    fun prior priorValid => ?_
  refine .known (mirrors_solidityElementsBridgeState canonical) CanonicalRecord.reads.returns
    fun next nextValid => ?_
  refine .field (mirrors_u8 _) fun count => .checked ?_ fun small => ?_
  · rw [rejectIf_eq_ok, rejectIf_eq_ok]
    exact Iff.rfl
  · refine .known (mirrors_times mirrors_burnAppend count.toNat)
      (reads_times CanonicalRecord.reads count.toNat).returns fun burns burnsValid => ?_
    have bounded : burns.length ≤ maxBurnAppendsPerStateTransition := by
      rw [burnsValid.1]
      exact Nat.not_lt.mp ((rejectIf_eq_ok _ _ _).mp small)
    have checks : ProofCore.ElementsStateTransitionClaim.DecodeChecks
        ⟨manifest, hash, prior, next, burns⟩ := ⟨priorValid, nextValid, bounded, burnsValid.2⟩
    exact .accepted rfl (validateElementsStateTransitionClaim_ofCore canonical checks)

end Elements

section Deposits

variable [Hashing]

omit [Hashing] in
/-- What the client adds up of a deposit in USDD is its converted amount. -/
theorem converted_ofCore {deposit : Core.VaultDeposit} (valid : deposit.Valid) :
    (deposit.usdtAmountMicro.toNat : Int) * usddUnitsPerUsdtMicro =
      deposit.usddAmountBase.toNat := by
  have exact := VaultDeposit.usddAmountBase_toNat valid
  rw [usddUnitsPerUsdtMicro]
  omega

/-- The client's loop over the deposits of a claim passes when they are valid, consecutive and
of one target, and returns their sums. -/
theorem checkClaimDeposits_eq_ok {first : Core.VaultDeposit} {deposits : List Core.VaultDeposit}
    {usdtStart usddStart : UInt64} {offset : Nat} {totals : Int × Int}
    (small : offset + deposits.length < 2 ^ 64) :
    checkClaimDeposits (.ofCore first) offset usdtStart.toNat usddStart.toNat
        (deposits.map .ofCore) = .ok totals ↔
      (∀ deposit ∈ deposits, deposit.Valid ∧ deposit.SameTarget first) ∧
        deposits.map (fun deposit => deposit.nonce.toNat) =
          List.range' (first.nonce.toNat + offset) deposits.length ∧
        ∃ usdt usdd : UInt64, totals = ((usdt.toNat : Int), (usdd.toNat : Int)) ∧
          usdt.toNat = usdtStart.toNat + MintBatch.usdtSum (deposits.map .ofDeposit) ∧
          usdd.toNat = usddStart.toNat + MintBatch.usddSum (deposits.map .ofDeposit) := by
  induction deposits generalizing offset usdtStart usddStart with
  | nil =>
    simp only [List.map_nil, checkClaimDeposits, pure_eq_ok, MintBatch.usdtSum, MintBatch.usddSum,
      List.sum_nil, Nat.add_zero, UInt64.toNat_inj, List.length_nil, List.range'_zero,
      List.not_mem_nil, false_implies, implies_true, true_and]
    constructor
    · rintro rfl
      exact ⟨usdtStart, usddStart, rfl, rfl, rfl⟩
    · rintro ⟨_, _, rfl, rfl, rfl⟩
      rfl
  | cons deposit deposits ih =>
    rw [List.length_cons] at small
    have offsets : (UInt64.ofNat offset).toNat = offset :=
      UInt64.toNat_ofNat_of_lt' (show offset < 2 ^ 64 by omega)
    have target : ¬((deposit.ethereumChainId.toNat : Int) ≠ first.ethereumChainId.toNat ∨
        bytesEqual deposit.vault.bytes first.vault.bytes = false ∨
        bytesEqual deposit.usdt.bytes first.usdt.bytes = false) ↔ deposit.SameTarget first := by
      simp only [word_ne, bytesEqual_fixed_false, not_or, ne_eq, not_not]
      exact Iff.rfl
    have rest (usdt usdd : UInt64) := @ih usdt usdd (offset + 1)
      (show offset + 1 + deposits.length < 2 ^ 64 by omega)
    simp only [List.map_cons, checkClaimDeposits]
    simp only [↓then_eq_ok, bind_eq_ok, rejectIf_eq_ok, encodeVaultDeposit_eq_ok]
    simp only [VaultDeposit.ofCore, checkedAddU64_words, target,
      checkedAddU64_count (show offset < 2 ^ 64 by omega), VaultDeposit.validate_eq_ok]
    simp only [MintBatch.usdtSum, MintBatch.usddSum, List.map_cons, List.sum_cons,
      List.forall_mem_cons, List.length_cons, List.range'_succ, List.cons.injEq] at rest ⊢
    constructor
    · rintro ⟨_, ⟨valid, -⟩, _, ⟨expected, added, rfl⟩, nonce, same, _, ⟨usdt, usdtAdded, rfl⟩, _,
        usddAdded, later⟩
      rw [converted_ofCore valid, checkedAddU64_words] at usddAdded
      obtain ⟨usdd, usddAdded, rfl⟩ := usddAdded
      obtain ⟨valids, nonces, usdtTotal, usddTotal, rfl, usdtSum, usddSum⟩ :=
        (rest usdt usdd).mp later
      have exactNonce := checkedAdd_eq_some.mp added
      have exactUsdt := checkedAdd_eq_some.mp usdtAdded
      have exactUsdd := checkedAdd_eq_some.mp usddAdded
      have same' : deposit.nonce.toNat = expected.toNat := Int.natCast_inj.mp (not_not.mp nonce)
      refine ⟨⟨⟨valid, same⟩, valids⟩, ⟨by omega, nonces⟩, usdtTotal, usddTotal, rfl, ?_, ?_⟩
      · change usdtTotal.toNat = usdtStart.toNat + (deposit.usdtAmountMicro.toNat + _)
        omega
      · change usddTotal.toNat = usddStart.toNat + (deposit.usddAmountBase.toNat + _)
        omega
    · rintro ⟨⟨⟨valid, same⟩, valids⟩, ⟨nonce, nonces⟩, usdtTotal, usddTotal, rfl, usdtSum, usddSum⟩
      change usdtTotal.toNat = usdtStart.toNat + (deposit.usdtAmountMicro.toNat + _) at usdtSum
      change usddTotal.toNat = usddStart.toNat + (deposit.usddAmountBase.toNat + _) at usddSum
      have usdtBound := usdtTotal.toNat_lt
      have usddBound := usddTotal.toNat_lt
      obtain ⟨usdt, usdtAdded, usdtExact⟩ :=
        checkedAdd_of_lt (show usdtStart.toNat + deposit.usdtAmountMicro.toNat < 2 ^ 64 by omega)
      obtain ⟨usdd, usddAdded, usddExact⟩ :=
        checkedAdd_of_lt (show usddStart.toNat + deposit.usddAmountBase.toNat < 2 ^ 64 by omega)
      have added : checkedAdd first.nonce (UInt64.ofNat offset) = some deposit.nonce :=
        checkedAdd_eq_some.mpr (by omega)
      refine ⟨_, ⟨valid, rfl⟩, _, ⟨deposit.nonce, added, rfl⟩, not_not.mpr rfl, same, _,
        ⟨usdt, usdtAdded, rfl⟩, usdd.toNat, ?_, ?_⟩
      · rw [converted_ofCore valid, checkedAddU64_words]
        exact ⟨usdd, usddAdded, rfl⟩
      · exact (rest usdt usdd).mpr
          ⟨valids, nonces, usdtTotal, usddTotal, rfl, by omega, by omega⟩

/-- The client accepts the deposits of which the crate makes a batch. -/
theorem validateClaimDepositBatch_ofCore {deposits : List Core.VaultDeposit} :
    validateClaimDepositBatch (deposits.map .ofCore) = .ok () ↔
      ∃ batch, MintBatch.fromDeposits deposits = .ok batch := by
  simp only [MintBatch.fromDeposits_eq_ok]
  cases deposits with
  | nil =>
    constructor
    · intro refused
      cases refused
    · rintro ⟨batch, built⟩
      exact absurd rfl built.nonempty
  | cons first rest =>
    have size : ((first :: rest).map VaultDeposit.ofCore).length = (first :: rest).length :=
      List.length_map _
    simp only [List.map_cons] at size
    simp only [List.map_cons, validateClaimDepositBatch]
    simp only [↓then_eq_ok, bind_eq_ok, rejectIf_eq_ok, encodeVaultDeposit_eq_ok, pure_eq_ok,
      and_true, size]
    constructor
    · rintro ⟨short, _, ⟨-, -⟩, totals, looped, budget, sum, next⟩
      have small : (first :: rest).length ≤ 64 := Nat.not_lt.mp short
      obtain ⟨each, nonces, usdt, usdd, rfl, usdtSum, usddSum⟩ :=
        (@checkClaimDeposits_eq_ok _ first (first :: rest) 0 0 0 totals (by omega)).mp looped
      obtain ⟨word, added, -⟩ := (checkedAddU64_count (by omega)).mp next
      have exactNext := checkedAdd_eq_some.mp added
      rw [UInt64.toNat_ofNat_of_lt' (show (first :: rest).length < 2 ^ 64 by omega)] at exactNext
      simp only [maxMintBatchUSDT6, maxMintBatchUSDD8, usddUnitsPerUsdtMicro] at budget
      exact ⟨⟨first.nonce, word, (first :: rest).map .ofDeposit, usdt, usdd⟩, {
        nonempty := List.cons_ne_nil _ _
        size_le := small
        each := fun deposit member => (each deposit member).1
        consecutive := nonces
        outputs := rfl
        next := exactNext
        usdt := usdtSum.trans (Nat.zero_add _)
        usdd := usddSum.trans (Nat.zero_add _)
        usdt_le := show usdt.toNat ≤ 20000000000000 by omega
        usdd_le := show usdd.toNat ≤ 2000000000000000 by omega
        first := rfl
        target := fun left memberLeft right memberRight =>
          have ⟨chain, vault, token⟩ := (each left memberLeft).2
          have ⟨chain', vault', token'⟩ := (each right memberRight).2
          ⟨chain.trans chain'.symm, vault.trans vault'.symm, token.trans token'.symm⟩ }⟩
    · rintro ⟨batch, built⟩
      have small := built.size_le
      have usdt := built.usdt_le
      have usdd := built.usdd_le
      have nonce : first.nonce = batch.firstNonce := by simpa using built.first
      have looped := (@checkClaimDeposits_eq_ok _ first (first :: rest) 0 0 0
        ((batch.totalUsdtAmountMicro.toNat : Int), (batch.totalUsddAmountBase.toNat : Int))
        (by omega)).mpr ⟨fun deposit member => ⟨built.each deposit member,
          built.target deposit member first List.mem_cons_self⟩, nonce ▸ built.consecutive,
          batch.totalUsdtAmountMicro, batch.totalUsddAmountBase, rfl,
          by rw [built.usdt, built.outputs]; exact (Nat.zero_add _).symm,
          by rw [built.usdd, built.outputs]; exact (Nat.zero_add _).symm⟩
      have lengths : (UInt64.ofNat (first :: rest).length).toNat = (first :: rest).length :=
        UInt64.toNat_ofNat_of_lt' (show (first :: rest).length < 2 ^ 64 by omega)
      have added : checkedAdd first.nonce (UInt64.ofNat (first :: rest).length) =
          some batch.nextNonce := by
        rw [checkedAdd_eq_some, lengths, nonce]
        exact built.next
      refine ⟨Nat.not_lt.mpr small, _, ⟨VaultDeposit.validate_eq_ok.mpr
        (built.each first List.mem_cons_self), rfl⟩, _, looped, ?_, _,
        (checkedAddU64_count (by omega)).mpr ⟨_, added, rfl⟩⟩
      simp only [maxMintBatchUSDT6, maxMintBatchUSDD8, usddUnitsPerUsdtMicro]
      omega

/-- A deposit claim of the crate in the client. -/
def EthereumDepositClaim.ofCore (claim : ProofCore.EthereumDepositClaim) :
    EthereumDepositClaim where
  manifestId := claim.manifestId.bytes
  priorState := .ofCore claim.priorState
  finality := .ofCore claim.finality
  deposits := claim.deposits.map .ofCore

theorem validateEthereumDepositClaim_ofCore {claim : ProofCore.EthereumDepositClaim} :
    validateEthereumDepositClaim (.ofCore claim) = .ok () ↔ claim.validate = .ok () := by
  rw [ProofCore.EthereumDepositClaim.validate_eq_ok]
  simp only [validateEthereumDepositClaim]
  simp only [↓then_eq_ok, bind_eq_ok]
  simp only [EthereumDepositClaim.ofCore, encodeMintControllerState_ofCore,
    assertRequiredHash_fixed, validateEthereumFinalityWitness_ofCore,
    validateClaimDepositBatch_ofCore, and_assoc, exists_and_left, exists_eq_left]

theorem encodeEthereumDepositClaim_ofCore {claim : ProofCore.EthereumDepositClaim}
    (valid : claim.validate = .ok ()) :
    encodeEthereumDepositClaim (.ofCore claim) = .ok (encode claim) := by
  obtain ⟨-, prior, finality, batch, made⟩ :=
    ProofCore.EthereumDepositClaim.validate_eq_ok.mp valid
  have built := MintBatch.fromDeposits_eq_ok.mp made
  have deposits : concat ((claim.deposits.map VaultDeposit.ofCore).map encodeVaultDeposit) =
      .ok (claim.deposits.map encode).flatten :=
    concat_map_eq fun deposit member =>
      encodeVaultDeposit_ofCore (VaultDeposit.validate_eq_ok.mpr (built.each deposit member))
  have count : (EthereumDepositClaim.ofCore claim).deposits.length = claim.deposits.length :=
    List.length_map _
  rw [encodeEthereumDepositClaim, validateEthereumDepositClaim_ofCore.mpr valid, count]
  exact concat_eq (.cons (header_eq rfl) (.cons rfl
    (.cons (encodeMintControllerState_ofCore.mpr ⟨prior, rfl⟩)
      (.cons (encodeEthereumFinalityWitness_ofCore finality) (.cons rfl
        (.cons deposits .nil))))))

theorem mirrors_ethereumDepositClaim : Mirrors EthereumDepositClaim.ofCore
    (CanonicalDecode.decodeFrom : Decoder ProofCore.EthereumDepositClaim)
    decodeEthereumDepositClaimFrom := by
  refine .field (mirrors_proofHeader rfl) fun _ => .field (mirrors_fixed 32 _) fun _ => ?_
  refine .field mirrors_mintControllerState fun _ => ?_
  refine .field mirrors_ethereumFinalityWitness fun _ => .field (mirrors_u8 _) fun count => ?_
  refine .checked ?_ fun _ => .field (mirrors_times mirrors_vaultDeposit count.toNat) fun _ => ?_
  · rw [rejectIf_eq_ok, rejectIf_eq_ok, ← UInt8.toNat_inj]
    exact Iff.rfl
  · exact .validated rfl validateEthereumDepositClaim_ofCore

end Deposits

end Claims

end Usdd.TypeScript

import Usdd.TypeScript.Records
/-!
# The client's records are the crate's

The view of a record of the Rust crate in the client's types. On views the client's validators
accept what the crate's do, its decoders mirror the crate's, and its encoders write the same
bytes.
-/
namespace Usdd.TypeScript

open Usdd.Foundation Usdd.Core

section Agreement

variable {α β : Type}

/-- The client's decoder accepts the strings that the crate's decoder accepts, with the same
value, and its encoder writes the string again. -/
structure Agrees {ε : Type} (view : α → β) (decodeCore : List UInt8 → Except ε α)
    (decode : List UInt8 → Except String β) (encode : β → Except String (List UInt8)) : Prop where
  accepts : ∀ bytes value, decode bytes = .ok value ↔
    ∃ core, decodeCore bytes = .ok core ∧ value = view core
  rewrites : ∀ bytes value, decode bytes = .ok value → encode value = .ok bytes

/-- A record agrees when its decoder mirrors the crate's and its encoder writes the crate's
bytes of a valid record. -/
theorem agrees_of_mirrors [CanonicalEncode α] [CanonicalDecode α] [CanonicalRecord α]
    {view : α → β} {decode : CanonicalDecoder β} {name : String}
    {encode' : β → Except String (List UInt8)}
    (mirrors : Mirrors view (CanonicalDecode.decodeFrom : Decoder α) decode)
    (encodes : ∀ core : α, DecodeValid core → encode' (view core) = .ok (encode core)) :
    Agrees view (Core.decodeExact α) (fun bytes => decodeExact bytes decode name) encode' where
  accepts _ _ := mirrors.exact_eq_ok
  rewrites bytes value decoded := by
    obtain ⟨core, accepted, rfl⟩ := mirrors.exact_eq_ok.mp decoded
    obtain ⟨valid, rfl⟩ := Core.decodeExact_eq_ok.mp
      (show Core.decodeExact α bytes = .ok core from accepted)
    exact encodes core valid

/-- Parts that are all made are joined in order. -/
theorem concat_eq {parts : List (Except String (List UInt8))} {pieces : List (List UInt8)}
    (made : List.Forall₂ (fun part piece => part = .ok piece) parts pieces) :
    concat parts = .ok pieces.flatten := by
  have same : parts = pieces.map .ok := by
    induction made with
    | nil => rfl
    | cons head _ ih => rw [head, ih, List.map_cons]
  rw [same, concat_ok]

theorem header_eq {tag : UInt16} {number : Int} (same : (tag.toNat : Int) = number) :
    encodeRecordHeader number = .ok (encodeHeader tag) :=
  same ▸ encodeRecordHeader_tag tag

theorem mirrors_header {tag : UInt16} {number : Int} (same : (tag.toNat : Int) = number) :
    Mirrors id (decodeHeader tag) (decodeRecordHeader number) :=
  same ▸ mirrors_decodeHeader tag

end Agreement

section Deposits

variable [Hashing]

/-- A deposit of the crate in the client. -/
def VaultDeposit.ofCore (deposit : Core.VaultDeposit) : VaultDeposit where
  chainId := deposit.ethereumChainId.toNat
  vault := deposit.vault.bytes
  usdt := deposit.usdt.bytes
  nonce := deposit.nonce.toNat
  depositor := deposit.depositor.bytes
  amountUSDT6 := deposit.usdtAmountMicro.toNat
  elementsScript := deposit.elementsScript
  userSalt := deposit.userSalt.bytes

theorem validateVaultDeposit_ofCore {deposit : Core.VaultDeposit} :
    validateVaultDeposit (.ofCore deposit) = .ok () ↔ deposit.validate = .ok () := by
  have chainFits := deposit.ethereumChainId.toNat_lt
  have chain : deposit.ethereumChainId ≠ 0 ↔ deposit.ethereumChainId.toNat ≠ 0 := by
    rw [ne_eq, ← UInt64.toNat_inj]
    exact Iff.rfl
  have wide : uintBe deposit.ethereumChainId.toNat 32 =
      .ok (beBytes 32 deposit.ethereumChainId.toNat) :=
    uintBe_natCast (Nat.lt_trans chainFits (by decide))
  have one : u32be 1 = .ok (encode (1 : UInt32)) := u32be_word 1
  have joined := concat_ok [depositIdDomain, encode (1 : UInt32),
    beBytes 32 deposit.ethereumChainId.toNat, deposit.vault.bytes, deposit.usdt.bytes,
    encode deposit.nonce, deposit.depositor.bytes, encode deposit.usdtAmountMicro,
    sha256 deposit.elementsScript, deposit.userSalt.bytes]
  simp only [List.map_cons, List.map_nil] at joined
  rw [Core.VaultDeposit.validate_eq_ok]
  simp only [validateVaultDeposit, depositPreimage]
  simp only [↓then_eq_ok, bind_eq_ok, rejectIf_eq_ok, pure_eq_ok]
  simp only [VaultDeposit.ofCore, wide, one, u64be_word, joined, assertLength_fixed,
    assertNonzero_fixed, assertU64_word, true_and, u64Limit, maxDepositAmountUSDT6,
    maxMintBatchUSDT6, maxMintBatchUSDD8, usddUnitsPerUsdtMicro, u64Max]
  constructor
  · rintro ⟨_, ⟨vault, usdt, depositor, chainId, amount, script, -⟩, -⟩
    refine ⟨chain.mpr (by omega), vault, usdt, depositor, by omega, by omega, ?_, by omega⟩
    exact fun empty => script (.inl (List.length_eq_zero_iff.mpr empty))
  · intro valid
    have positive := chain.mp valid.chain
    have amount := valid.amount_pos
    have bound := valid.amount_le
    have some := List.length_pos_iff.mpr valid.script_ne
    have short := valid.script_le
    exact ⟨_, ⟨valid.vault, valid.usdt, valid.depositor, by omega, by omega, by omega, rfl⟩,
      trivial⟩

theorem encodeVaultDeposit_ofCore {deposit : Core.VaultDeposit}
    (valid : deposit.validate = .ok ()) :
    encodeVaultDeposit (.ofCore deposit) = .ok (encode deposit) := by
  have script := encodeByteString_eq (Nat.lt_of_le_of_lt
    (Core.VaultDeposit.validate_eq_ok.mp valid).script_le (by decide : 128 < 2 ^ 32))
  rw [encodeVaultDeposit, validateVaultDeposit_ofCore.mpr valid]
  exact concat_eq (.cons (header_eq rfl) (.cons (u64be_word _) (.cons rfl (.cons rfl
    (.cons (u64be_word _) (.cons rfl (.cons (u64be_word _) (.cons script (.cons rfl .nil)))))))))

theorem mirrors_vaultDeposit : Mirrors VaultDeposit.ofCore
    (CanonicalDecode.decodeFrom : Decoder Core.VaultDeposit) decodeVaultDepositFrom := by
  refine .field (mirrors_header rfl) fun _ => .field (mirrors_u64 _) fun _ => ?_
  refine .field (mirrors_fixed 20 _) fun _ => .field (mirrors_fixed 20 _) fun _ => ?_
  refine .field (mirrors_u64 _) fun _ => .field (mirrors_fixed 20 _) fun _ => ?_
  refine .field (mirrors_u64 _) fun _ => .field (mirrors_byteString _) fun _ => ?_
  refine .field (mirrors_fixed 32 _) fun _ => ?_
  exact .validated rfl validateVaultDeposit_ofCore

/-- A finality witness of the crate in the client. -/
def EthereumFinalityWitness.ofCore (witness : Core.EthereumFinalityWitness) :
    EthereumFinalityWitness where
  ethereumLightClientDigest := witness.ethereumLightClientDigest.bytes
  finalizedBeaconSlot := witness.finalizedBeaconSlot.toNat
  finalizedBeaconRoot := witness.finalizedBeaconRoot.bytes
  finalizedExecutionBlock := witness.finalizedExecutionBlock.bytes
  finalizedExecutionStateRoot := witness.finalizedExecutionStateRoot.bytes
  executionBlockNumber := witness.executionBlockNumber.toNat
  executionBlockTimestamp := witness.executionBlockTimestamp.toNat

omit [Hashing] in
theorem validateEthereumFinalityWitness_ofCore {witness : Core.EthereumFinalityWitness} :
    validateEthereumFinalityWitness (.ofCore witness) = .ok () ↔ witness.validate = .ok () := by
  rw [Core.EthereumFinalityWitness.validate_eq_ok]
  simp only [validateEthereumFinalityWitness, EthereumFinalityWitness.ofCore]
  simp only [↓then_eq_ok, assertRequiredHash_fixed, assertPositiveU64_word, assertU64_word,
    and_true]
  constructor
  · rintro ⟨digest, slot, root, block, stateRoot⟩
    exact ⟨slot, digest, root, block, stateRoot⟩
  · intro valid
    exact ⟨valid.digest, valid.slot, valid.beaconRoot, valid.block, valid.stateRoot⟩

omit [Hashing] in
theorem encodeEthereumFinalityWitness_ofCore {witness : Core.EthereumFinalityWitness}
    (valid : witness.validate = .ok ()) :
    encodeEthereumFinalityWitness (.ofCore witness) = .ok (encode witness) := by
  rw [encodeEthereumFinalityWitness, validateEthereumFinalityWitness_ofCore.mpr valid]
  exact concat_eq (.cons (header_eq rfl) (.cons rfl (.cons (u64be_word _) (.cons rfl (.cons rfl
    (.cons rfl (.cons (u64be_word _) (.cons (u64be_word _) .nil))))))))

omit [Hashing] in
theorem mirrors_ethereumFinalityWitness : Mirrors EthereumFinalityWitness.ofCore
    (CanonicalDecode.decodeFrom : Decoder Core.EthereumFinalityWitness)
    decodeEthereumFinalityWitnessFrom := by
  refine .field (mirrors_header rfl) fun _ => .field (mirrors_fixed 32 _) fun _ => ?_
  refine .field (mirrors_u64 _) fun _ => .field (mirrors_fixed 32 _) fun _ => ?_
  refine .field (mirrors_fixed 32 _) fun _ => .field (mirrors_fixed 32 _) fun _ => ?_
  refine .field (mirrors_u64 _) fun _ => .field (mirrors_u64 _) fun _ => ?_
  exact .validated rfl validateEthereumFinalityWitness_ofCore

end Deposits

section Burns

/-- A burn of the crate in the client. -/
def Burn.ofCore (burn : Core.Burn) : Burn where
  vaultId := burn.vaultId.bytes
  usddAsset := burn.usddAsset.bytes
  amountUSDD8 := burn.usddAmountBase.toNat
  amountUSDT6 := burn.usdtAmountMicro.toNat
  burnOutpoint := ⟨burn.burnOutpoint.txid.bytes, burn.burnOutpoint.vout.toNat⟩
  ethereumDestination := burn.ethereumDestination.bytes

theorem validateBurn_ofCore {burn : Core.Burn} :
    validateBurn (.ofCore burn) = .ok () ↔ burn.validate = .ok () := by
  rw [Core.Burn.validate_eq_ok]
  simp only [validateBurn]
  simp only [↓then_eq_ok, rejectIf_eq_ok]
  simp only [Burn.ofCore, assertRequiredHash_fixed, assertPositiveU64_word, assertU64_word,
    assertU32Number_word, assertLength_fixed, assertNonzero_fixed, true_and, maxBurnAmountUSDT6,
    maxMintBatchUSDT6, maxMintBatchUSDD8, usddUnitsPerUsdtMicro]
  constructor
  · rintro ⟨vault, asset, amount, txid, destination, converted⟩
    exact ⟨vault, destination, asset, txid, amount, by omega, by omega⟩
  · intro valid
    have converted := valid.converted
    have bound := valid.amount_le
    exact ⟨valid.vault, valid.asset, valid.amount_ne, valid.txid, valid.destination, by omega⟩

theorem encodeBurn_ofCore {burn : Core.Burn} (valid : burn.validate = .ok ()) :
    encodeBurn (.ofCore burn) = .ok (encode burn) := by
  have made : encodeBurn (.ofCore burn) = .ok [encodeHeader tagBurn, encode burn.vaultId,
      encode burn.usddAsset, encode burn.usddAmountBase, encode burn.usdtAmountMicro,
      encode burn.burnOutpoint.txid, encode burn.burnOutpoint.vout,
      encode burn.ethereumDestination].flatten := by
    rw [encodeBurn, validateBurn_ofCore.mpr valid]
    exact concat_eq (.cons (header_eq rfl) (.cons rfl (.cons rfl (.cons (u64be_word _)
      (.cons (u64be_word _) (.cons rfl (.cons (u32be_word _) (.cons rfl .nil))))))))
  rw [made]
  simp [encode]

theorem mirrors_burn : Mirrors Burn.ofCore (CanonicalDecode.decodeFrom : Decoder Core.Burn)
    decodeBurnFrom := by
  refine .field (mirrors_header rfl) fun _ => .field (mirrors_fixed 32 _) fun _ => ?_
  refine .field (mirrors_fixed 32 _) fun _ => .field (mirrors_u64 _) fun _ => ?_
  refine .field (mirrors_u64 _) fun _ => .nested (.field (mirrors_fixed 32 _) fun _ => ?_)
  refine .nested (.field (mirrors_u32 _) fun _ => ?_)
  rw [pure_bind]
  exact .field (mirrors_fixed 20 _) fun _ => .validated rfl validateBurn_ofCore

/-- A burn proof of the crate in the client. -/
def BurnProof.ofCore (proof : Core.BurnProof) : BurnProof :=
  ⟨proof.siblings.toList.map FixedBytes.bytes⟩

theorem encodeBurnProof_ofCore (proof : Core.BurnProof) :
    encodeBurnProof (.ofCore proof) = .ok (encode proof) := by
  have valid : validateBurnProof (.ofCore proof) = .ok () := by
    rw [validateBurnProof, then_eq_ok, rejectIf_eq_ok, forM_eq_ok]
    simp only [BurnProof.ofCore, List.length_map, Vector.length_toList]
    refine ⟨fun wrong => wrong rfl, fun sibling member => ?_⟩
    obtain ⟨hash, -, rfl⟩ := List.mem_map.mp member
    exact assertLength_fixed hash _
  rw [encodeBurnProof, valid]
  exact concat_ok _

theorem mirrors_burnProof : Mirrors BurnProof.ofCore
    (CanonicalDecode.decodeFrom : Decoder Core.BurnProof) decodeBurnProofFrom := by
  refine .map (mirrors_times (mirrors_fixed 32 _) 64) (reads_times (reads_fixed 32) 64).returns
    fun siblings holds => ?_
  rw [BurnProof.ofCore, BurnProof.toList_ofList holds.1]

end Burns

section Batches

/-- A mint output of the crate in the client. -/
def MintOutput.ofCore (output : Core.MintOutput) : MintOutput where
  depositId := output.depositId.bytes
  nonce := output.nonce.toNat
  amountUSDT6 := output.usdtAmountMicro.toNat
  amountUSDD8 := output.usddAmountBase.toNat
  elementsScript := output.elementsScript

theorem validateMintOutput_ofCore {output : Core.MintOutput} :
    validateMintOutput (.ofCore output) = .ok () ↔ output.validate = .ok () := by
  have usdt : output.usdtAmountMicro ≠ 0 ↔ output.usdtAmountMicro.toNat ≠ 0 := by
    rw [ne_eq, ← UInt64.toNat_inj]
    exact Iff.rfl
  have usdd : output.usddAmountBase ≠ 0 ↔ output.usddAmountBase.toNat ≠ 0 := by
    rw [ne_eq, ← UInt64.toNat_inj]
    exact Iff.rfl
  rw [Core.MintOutput.validate_eq_ok]
  simp only [validateMintOutput]
  simp only [↓then_eq_ok, rejectIf_eq_ok]
  simp only [MintOutput.ofCore, assertLength_fixed, assertNonzero_fixed, assertPositiveU64_word,
    assertU64_word, true_and, usdt, usdd, maxDepositAmountUSDT6, maxMintBatchUSDT6,
    maxMintBatchUSDD8, usddUnitsPerUsdtMicro, u64Max, u64Limit]
  constructor
  · rintro ⟨id, usdtPos, usddPos, amount, script⟩
    refine ⟨id, by omega, by omega, by omega, ?_, by omega⟩
    exact fun empty => script (.inl (List.length_eq_zero_iff.mpr empty))
  · intro valid
    have positive := valid.amount_pos
    have bound := valid.amount_le
    have converted := valid.converted
    have some := List.length_pos_iff.mpr valid.script_ne
    have short := valid.script_le
    exact ⟨valid.id_ne, by omega, by omega, by omega, by omega⟩

theorem encodeMintOutput_ofCore {output : Core.MintOutput} (valid : output.validate = .ok ()) :
    encodeMintOutput (.ofCore output) = .ok (encode output) := by
  have script := encodeByteString_eq (Nat.lt_of_le_of_lt
    (Core.MintOutput.validate_eq_ok.mp valid).script_le (by decide : 128 < 2 ^ 32))
  rw [encodeMintOutput, validateMintOutput_ofCore.mpr valid]
  exact concat_eq (.cons (header_eq rfl) (.cons rfl (.cons (u64be_word _) (.cons (u64be_word _)
    (.cons (u64be_word _) (.cons script .nil))))))

theorem mirrors_mintOutput : Mirrors MintOutput.ofCore
    (CanonicalDecode.decodeFrom : Decoder Core.MintOutput) decodeMintOutputFrom := by
  refine .field (mirrors_header rfl) fun _ => .field (mirrors_fixed 32 _) fun _ => ?_
  refine .field (mirrors_u64 _) fun _ => .field (mirrors_u64 _) fun _ => ?_
  refine .field (mirrors_u64 _) fun _ => .field (mirrors_byteString _) fun _ => ?_
  exact .validated rfl validateMintOutput_ofCore

/-- The checked sum of two words is the crate's. -/
theorem checkedAddU64_words {left right : UInt64} {sum : Int} {name : String} :
    checkedAddU64 left.toNat right.toNat name = .ok sum ↔
      ∃ word, checkedAdd left right = some word ∧ sum = word.toNat := by
  simp only [checkedAddU64]
  simp only [↓then_eq_ok, rejectIf_eq_ok, pure_eq_ok]
  simp only [assertU64_word, true_and, u64Limit, checkedAdd_eq_some]
  constructor
  · rintro ⟨fits, rfl⟩
    have small : left.toNat + right.toNat < 2 ^ 64 := by omega
    refine ⟨UInt64.ofNat (left.toNat + right.toNat), UInt64.toNat_ofNat_of_lt' small, ?_⟩
    rw [UInt64.toNat_ofNat_of_lt' small, Int.natCast_add]
  · rintro ⟨word, exact, rfl⟩
    have bound := word.toNat_lt
    omega

/-- The count of a list is a word when the list is short. -/
theorem checkedAddU64_count {left : UInt64} {count : Nat} (small : count < 2 ^ 64) {sum : Int}
    {name : String} : checkedAddU64 left.toNat count name = .ok sum ↔
      ∃ word, checkedAdd left (UInt64.ofNat count) = some word ∧ sum = word.toNat := by
  have words := @checkedAddU64_words left (UInt64.ofNat count) sum name
  rwa [UInt64.toNat_ofNat_of_lt' small] at words

/-- The client's loop over the outputs is the crate's. -/
theorem checkBatchOutputs_ofCore {firstNonce usdtTotal usddTotal : UInt64} {offset : Nat}
    {outputs : List Core.MintOutput} {totals : Int × Int}
    (small : offset + outputs.length < 2 ^ 64) :
    checkBatchOutputs firstNonce.toNat offset usdtTotal.toNat usddTotal.toNat
        (outputs.map .ofCore) = .ok totals ↔
      ∃ found, Core.MintBatch.checkOutputs firstNonce offset usdtTotal usddTotal outputs =
        .ok found ∧ totals = ((found.1.toNat : Int), (found.2.toNat : Int)) := by
  induction outputs generalizing offset usdtTotal usddTotal with
  | nil =>
    simp only [List.map_nil, checkBatchOutputs, Core.MintBatch.checkOutputs, pure_eq_ok,
      exists_eq_left']
    exact eq_comm
  | cons output outputs ih =>
    rw [List.length_cons] at small
    have rest (usdt usdd : UInt64) := @ih usdt usdd (offset + 1)
      (show offset + 1 + outputs.length < 2 ^ 64 by omega)
    simp only [List.map_cons, checkBatchOutputs, Core.MintBatch.checkOutputs]
    simp only [↓then_eq_ok, bind_eq_ok, rejectIf_eq_ok, okOr_eq_ok, validateMintOutput_ofCore,
      not_not, ne_eq, checkedAddU64_count (show offset < 2 ^ 64 by omega)]
    simp only [MintOutput.ofCore, checkedAddU64_words]
    constructor
    · rintro ⟨valid, _, ⟨expected, added, rfl⟩, nonce, _, ⟨usdt, usdtAdded, rfl⟩, _,
        ⟨usdd, usddAdded, rfl⟩, later⟩
      obtain ⟨found, walked, rfl⟩ := (rest usdt usdd).mp later
      have same : output.nonce = expected := UInt64.toNat_inj.mp (Int.natCast_inj.mp nonce)
      exact ⟨found, ⟨valid, expected, added, same, usdt, usdtAdded, usdd, usddAdded, walked⟩, rfl⟩
    · rintro ⟨found, ⟨valid, expected, added, rfl, usdt, usdtAdded, usdd, usddAdded, walked⟩, rfl⟩
      exact ⟨valid, _, ⟨_, added, rfl⟩, rfl, _, ⟨usdt, usdtAdded, rfl⟩, _, ⟨usdd, usddAdded, rfl⟩,
        (rest usdt usdd).mpr ⟨found, walked, rfl⟩⟩

/-- A batch of the crate in the client. -/
def MintBatch.ofCore (batch : Core.MintBatch) : MintBatch where
  firstNonce := batch.firstNonce.toNat
  nextNonce := batch.nextNonce.toNat
  outputs := batch.outputs.map .ofCore
  totalAmountUSDT6 := batch.totalUsdtAmountMicro.toNat
  totalAmountUSDD8 := batch.totalUsddAmountBase.toNat

theorem batchSize_iff {α : Type} {items : List α} :
    (items.length = 0 ∨ items.length > 64) ↔ (items = [] ∨ items.length > maxMintBatchSize) := by
  rw [List.length_eq_zero_iff]
  exact Iff.rfl

/-- Totals that the client accepts are those that the crate accepts. -/
theorem totals_ofCore {usdt usdd : UInt64} {batch : Core.MintBatch} :
    ((usdt.toNat : Int) ≠ batch.totalUsdtAmountMicro.toNat ∨
        (usdd.toNat : Int) ≠ batch.totalUsddAmountBase.toNat ∨
        (usdt.toNat : Int) > u64Max / usddUnitsPerUsdtMicro ∨
        usdt.toNat * usddUnitsPerUsdtMicro ≠ usdd.toNat) ↔
      (usdt ≠ batch.totalUsdtAmountMicro ∨ usdd ≠ batch.totalUsddAmountBase ∨
        usdtMicroToUsddBase usdt ≠ some usdd) := by
  have bound := usdd.toNat_lt
  rw [ne_eq (usdtMicroToUsddBase usdt), usdtMicroToUsddBase_eq_some, ne_eq usdt,
    ne_eq usdd, ← UInt64.toNat_inj, ← UInt64.toNat_inj, u64Max, u64Limit, usddUnitsPerUsdtMicro]
  omega

theorem validateMintBatch_ofCore {batch : Core.MintBatch} :
    validateMintBatch (.ofCore batch) = .ok () ↔ batch.validate = .ok () := by
  have budget (usdt usdd : UInt64) : ((usdt.toNat : Int) > maxMintBatchUSDT6 ∨
      (usdd.toNat : Int) > maxMintBatchUSDD8) ↔
      (usdt > maxMintBatchUsdtMicro ∨ usdd > maxMintBatchUsddBase) := by
    simp only [gt_iff_lt, UInt64.lt_iff_toNat_lt, maxMintBatchUsdtMicro_toNat,
      maxMintBatchUsddBase_toNat, maxMintBatchUSDT6, maxMintBatchUSDD8, usddUnitsPerUsdtMicro]
    omega
  simp only [validateMintBatch, Core.MintBatch.validate]
  simp only [↓then_eq_ok, bind_eq_ok, rejectIf_eq_ok, okOr_eq_ok]
  simp only [MintBatch.ofCore, List.length_map, assertU64_word, true_and, batchSize_iff]
  refine and_congr_right fun size => ?_
  have small : batch.outputs.length < 2 ^ 64 := by
    simp only [not_or, maxMintBatchSize] at size
    omega
  have walk {totals : Int × Int} : checkBatchOutputs batch.firstNonce.toNat 0 0 0
      (batch.outputs.map .ofCore) = .ok totals ↔ _ :=
    @checkBatchOutputs_ofCore batch.firstNonce 0 0 0 batch.outputs totals (by omega)
  simp only [checkedAddU64_count small]
  constructor
  · rintro ⟨_, ⟨next, added, rfl⟩, same, _, looped, totals, within⟩
    obtain ⟨found, walked, rfl⟩ := walk.mp looped
    refine ⟨next, added, ?_, found, walked, totals_ofCore.not.mp totals,
      (budget _ _).not.mp within⟩
    rwa [ne_eq, Int.natCast_inj, UInt64.toNat_inj] at same
  · rintro ⟨next, added, same, found, walked, totals, within⟩
    refine ⟨_, ⟨next, added, rfl⟩, ?_, _, walk.mpr ⟨found, walked, rfl⟩,
      totals_ofCore.not.mpr totals, (budget _ _).not.mpr within⟩
    rwa [ne_eq, Int.natCast_inj, UInt64.toNat_inj]

/-- The encoder of a list of parts is made part by part. -/
theorem concat_map_eq {α β : Type} [CanonicalEncode α] {view : α → β}
    {encode' : β → Except String (List UInt8)} {values : List α}
    (made : ∀ value ∈ values, encode' (view value) = .ok (encode value)) :
    concat ((values.map view).map encode') = .ok (values.map encode).flatten := by
  rw [← concat_ok, List.map_map, List.map_map]
  exact congrArg concat (List.map_congr_left made)

theorem encodeMintBatch_ofCore {batch : Core.MintBatch} (valid : batch.validate = .ok ()) :
    encodeMintBatch (.ofCore batch) = .ok (encode batch) := by
  have outputs : concat ((batch.outputs.map MintOutput.ofCore).map encodeMintOutput) =
      .ok (batch.outputs.map encode).flatten :=
    concat_map_eq fun output member => encodeMintOutput_ofCore
      (Core.MintOutput.validate_eq_ok.mpr
        ((Core.MintBatch.validate_eq_ok.mp valid).outputs output member))
  have count : (MintBatch.ofCore batch).outputs.length = batch.outputs.length :=
    List.length_map _
  rw [encodeMintBatch, validateMintBatch_ofCore.mpr valid, count]
  exact concat_eq (.cons (header_eq rfl) (.cons (u64be_word _) (.cons (u64be_word _) (.cons rfl
    (.cons outputs (.cons (u64be_word _) (.cons (u64be_word _) .nil)))))))

theorem mirrors_mintBatch : Mirrors MintBatch.ofCore
    (CanonicalDecode.decodeFrom : Decoder Core.MintBatch) decodeMintBatchFrom := by
  refine .field (mirrors_header rfl) fun _ => .field (mirrors_u64 _) fun _ => ?_
  refine .field (mirrors_u64 _) fun _ => .field (mirrors_u8 _) fun count => ?_
  refine .checked ?_ fun _ => .field (mirrors_times mirrors_mintOutput count.toNat) fun _ => ?_
  · rw [rejectIf_eq_ok, rejectIf_eq_ok, ← UInt8.toNat_inj]
    exact Iff.rfl
  · refine .field (mirrors_u64 _) fun _ => .field (mirrors_u64 _) fun _ => ?_
    exact .validated rfl validateMintBatch_ofCore


end Batches

section Elements

variable [Hashing] (canonical : (emptyBurnNode 64).bytes = emptyBurnRoot)
include canonical

theorem validateSolidityElementsBridgeState_ofCore {state : Core.SolidityElementsBridgeState} :
    validateSolidityElementsBridgeState (ofCore state) = .ok () ↔ state.validate = .ok () :=
  (validate_ofCore canonical).trans SolidityElementsBridgeState.validate_eq_ok.symm

theorem encodeSolidityElementsBridgeState_ofCore {state : Core.SolidityElementsBridgeState}
    (valid : state.validate = .ok ()) :
    encodeSolidityElementsBridgeState (ofCore state) = .ok (encode state) := by
  have made : encodeSolidityElementsBridgeState (ofCore state) =
      .ok (encodeHeader tagSolidityElementsState :: state.packedSegments).flatten := by
    rw [encodeSolidityElementsBridgeState,
      (validateSolidityElementsBridgeState_ofCore canonical).mpr valid]
    exact concat_eq (.cons (header_eq rfl) (.cons (u64be_word _) (.cons (u64be_word _) (.cons rfl
      (.cons rfl (.cons rfl (.cons rfl (.cons (u64be_word _) (.cons (u64be_word _)
        (.cons (u64be_word _) (.cons rfl .nil)))))))))))
  exact made

theorem mirrors_solidityElementsBridgeState : Mirrors ofCore
    (CanonicalDecode.decodeFrom : Decoder Core.SolidityElementsBridgeState)
    decodeSolidityElementsBridgeStateFrom := by
  refine .field (mirrors_header rfl) fun _ => .field (mirrors_u64 _) fun _ => ?_
  refine .field (mirrors_u64 _) fun _ => .field (mirrors_fixed 32 _) fun _ => ?_
  refine .field (mirrors_fixed 32 _) fun _ => .field (mirrors_fixed 32 _) fun _ => ?_
  refine .field (mirrors_fixed 32 _) fun _ => .field (mirrors_u64 _) fun _ => ?_
  refine .field (mirrors_u64 _) fun _ => .field (mirrors_u64 _) fun _ => ?_
  refine .field (mirrors_fixed 32 _) fun _ => ?_
  exact .validated rfl (validateSolidityElementsBridgeState_ofCore canonical)

end Elements

end Usdd.TypeScript

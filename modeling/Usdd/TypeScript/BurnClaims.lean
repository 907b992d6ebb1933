import Usdd.TypeScript.SlicedRecords
/-!
# The claim of a burn in TypeScript

The client builds the leaf of a claim from byte arrays and unbounded integers. Its record has no
protocol version, which is one in the leaf. The checks pass exactly on the crate's valid claims of
that version, and the leaf is then the crate's.
-/
namespace Usdd.TypeScript

open Usdd.Foundation Usdd.Core

/-- The interface `SolidityBurnClaim`. -/
structure SolidityBurnClaim where
  elementsGenesis : List UInt8
  usddAssetId : List UInt8
  vaultId : List UInt8
  burnTxidDisplay : List UInt8
  burnVout : Int
  burnId : List UInt8
  burnIndex : Int
  amountUSDT6 : Int
  recipient : List UInt8

/-- `BURN_ID_DOMAIN`. -/
def burnIdDomain : List UInt8 :=
  beBytes 32 0x5811f3ff8b8f31fb49ffb91afab13197c3d72e926549ae29dbda46c6998a3e45

/-- `BURN_LEAF_DOMAIN`. -/
def burnLeafDomain : List UInt8 :=
  beBytes 32 0xb15e96910e56013406f4167f79c8b6e369c3abf0b409d50a63e99e095b25fb94

variable [Hashing]

/-- `burnId`. -/
def burnId (elementsGenesis txidDisplayBytes : List UInt8) (vout : Int) :
    Except String (List UInt8) := do
  assertLength elementsGenesis 32 "Elements genesis"
  assertLength txidDisplayBytes 32 "transaction ID"
  assertNonzero elementsGenesis "Elements genesis"
  assertNonzero txidDisplayBytes "transaction ID"
  assertU32Number vout "output index"
  let preimage ← concat [.ok burnIdDomain, .ok elementsGenesis, .ok txidDisplayBytes, u32be vout]
  return sha256 preimage

/-- `solidityBurnLeaf`. -/
def solidityBurnLeaf (value : SolidityBurnClaim) : Except String (List UInt8) := do
  [("Elements genesis", value.elementsGenesis), ("USDD asset", value.usddAssetId),
    ("vault ID", value.vaultId), ("burn ID", value.burnId)].forM fun field => do
      assertLength field.2 32 field.1
      assertNonzero field.2 field.1
  assertLength value.burnTxidDisplay 32 "burn txid display bytes"
  assertNonzero value.burnTxidDisplay "burn txid display bytes"
  assertU32Number value.burnVout "burn output index"
  assertU64 value.burnIndex "burn index"
  assertPositiveU64 value.amountUSDT6 "amount"
  let expected ← burnId value.elementsGenesis value.burnTxidDisplay value.burnVout
  rejectIf (bytesToHex expected ≠ bytesToHex value.burnId) "burn ID does not bind outpoint"
  assertLength value.recipient 20 "recipient"
  assertNonzero value.recipient "recipient"
  let preimage ← concat [.ok [0], .ok burnLeafDomain, u32be 1, .ok value.elementsGenesis,
    .ok value.usddAssetId, .ok value.vaultId, .ok value.burnId, u64be value.burnIndex,
    u64be value.amountUSDT6, .ok value.recipient]
  return sha256 preimage

section Laws

/-- A claim of the crate at an index, in the client. -/
def SolidityBurnClaim.ofCore (claim : Core.SolidityBurnClaim) (burnIndex : UInt64) :
    SolidityBurnClaim where
  elementsGenesis := claim.elementsGenesisHash.bytes
  usddAssetId := claim.usddAssetId.bytes
  vaultId := claim.vaultId.bytes
  burnTxidDisplay := claim.burnTxidDisplay.bytes
  burnVout := claim.burnVout.toNat
  burnId := claim.burnId.bytes
  burnIndex := burnIndex.toNat
  amountUSDT6 := claim.amountUsdtMicro.toNat
  recipient := claim.recipient.bytes

omit [Hashing] in
/-- A number in range is a 64-bit word. -/
theorem exists_word64 {value : Int} (range : 0 ≤ value ∧ value < 2 ^ 64) :
    ∃ word : UInt64, value = word.toNat := by
  have fits : value.toNat < 2 ^ 64 := by omega
  refine ⟨UInt64.ofNat value.toNat, ?_⟩
  rw [UInt64.toNat_ofNat_of_lt' fits]
  omega

omit [Hashing] in
/-- A number in range is a 32-bit word. -/
theorem exists_word32 {value : Int} (range : 0 ≤ value ∧ value < 2 ^ 32) :
    ∃ word : UInt32, value = word.toNat := by
  have fits : value.toNat < 2 ^ 32 := by omega
  refine ⟨UInt32.ofNat value.toNat, ?_⟩
  rw [UInt32.toNat_ofNat_of_lt' fits]
  omega

/-- The identifier of an outpoint is the crate's. -/
theorem burnId_fixed {genesis txid : Hash32} {vout : UInt32} {bytes : List UInt8} :
    burnId genesis.bytes txid.bytes vout.toNat = .ok bytes ↔
      genesis ≠ .zero ∧ txid ≠ .zero ∧
        bytes = (hashBytes (Core.burnIdPreimage genesis txid vout)).bytes := by
  have joined : concat [.ok burnIdDomain, .ok genesis.bytes, .ok txid.bytes, u32be vout.toNat] =
      .ok (Core.burnIdPreimage genesis txid vout) := by
    rw [u32be_word]
    exact concat_ok [burnIdDomain, genesis.bytes, txid.bytes, encode vout]
  simp only [burnId]
  simp only [↓then_eq_ok, bind_eq_ok, assertLength_fixed, assertNonzero_fixed,
    assertU32Number_word, joined, Except.ok.injEq, exists_eq_left', pure_eq_ok, true_and]
  exact and_congr_right fun _ => and_congr_right fun _ => eq_comm

omit [Hashing] in
/-- The preimage of a leaf is the crate's at version one. -/
theorem leafPreimage_ofCore {claim : Core.SolidityBurnClaim}
    (version : claim.protocolVersion = Core.protocolVersion) (burnIndex : UInt64) :
    concat [.ok [0], .ok burnLeafDomain, u32be 1, .ok claim.elementsGenesisHash.bytes,
      .ok claim.usddAssetId.bytes, .ok claim.vaultId.bytes, .ok claim.burnId.bytes,
      u64be burnIndex.toNat, u64be claim.amountUsdtMicro.toNat, .ok claim.recipient.bytes] =
      .ok (claim.burnLeafPreimage burnIndex) := by
  have one : u32be 1 = .ok (encode claim.protocolVersion) := by
    rw [version]
    exact u32be_word Core.protocolVersion
  rw [u64be_word, u64be_word, one]
  exact concat_ok [[0], burnLeafDomain, encode claim.protocolVersion,
    claim.elementsGenesisHash.bytes, claim.usddAssetId.bytes, claim.vaultId.bytes,
    claim.burnId.bytes, encode burnIndex, encode claim.amountUsdtMicro, claim.recipient.bytes]

/-- A leaf is made of a claim of version one exactly when the crate's checks pass. -/
theorem solidityBurnLeaf_ofCore {claim : Core.SolidityBurnClaim}
    (version : claim.protocolVersion = Core.protocolVersion) {burnIndex : UInt64}
    {bytes : List UInt8} :
    solidityBurnLeaf (.ofCore claim burnIndex) = .ok bytes ↔
      claim.Valid ∧ bytes = (hashBytes (claim.burnLeafPreimage burnIndex)).bytes := by
  simp only [solidityBurnLeaf, SolidityBurnClaim.ofCore]
  simp only [↓then_eq_ok, bind_eq_ok, forM_eq_ok, List.forall_mem_cons, assertLength_fixed,
    assertNonzero_fixed, assertU32Number_word, assertU64_word, assertPositiveU64_word,
    burnId_fixed, leafPreimage_ofCore version, pure_eq_ok, Except.ok.injEq, exists_eq_left',
    true_and]
  simp only [rejectIf_eq_ok, bytesToHex_inj, ne_eq, not_not, List.not_mem_nil, false_implies,
    implies_true, and_true]
  constructor
  · rintro ⟨⟨genesis, asset, vault, id⟩, txid, amount, _, ⟨_, _, rfl⟩, binds, recipient, made⟩
    exact ⟨⟨version, genesis, asset, vault, txid, id, amount, recipient,
      FixedBytes.ext binds⟩, made.symm⟩
  · rintro ⟨valid, rfl⟩
    exact ⟨⟨valid.genesis, valid.asset, valid.vault, valid.id_ne⟩, valid.txid, valid.amount_ne, _,
      ⟨valid.genesis, valid.txid, rfl⟩, congrArg FixedBytes.bytes valid.binds, valid.recipient, rfl⟩

/-- A record that a leaf is made of is a claim of the crate at some index. -/
theorem exists_ofCore {value : SolidityBurnClaim} {bytes : List UInt8}
    (made : solidityBurnLeaf value = .ok bytes) :
    ∃ (claim : Core.SolidityBurnClaim) (burnIndex : UInt64),
      claim.protocolVersion = Core.protocolVersion ∧ value = .ofCore claim burnIndex := by
  simp only [solidityBurnLeaf] at made
  simp only [↓then_eq_ok, bind_eq_ok, forM_eq_ok, List.forall_mem_cons, assertLength,
    assertU32Number, assertU64_eq_ok, assertPositiveU64, rejectIf_eq_ok] at made
  simp only [ne_eq, not_not] at made
  obtain ⟨⟨⟨genesis, _⟩, ⟨asset, _⟩, ⟨vault, _⟩, ⟨id, _⟩, _⟩, txid, _, vout, index, amount, _, _, _,
    recipient, _⟩ := made
  obtain ⟨vout, voutEq⟩ := exists_word32 (show 0 ≤ value.burnVout ∧ value.burnVout < 2 ^ 32 by omega)
  obtain ⟨index, indexEq⟩ := exists_word64 index
  obtain ⟨amount, amountEq⟩ := exists_word64
    (show 0 ≤ value.amountUSDT6 ∧ value.amountUSDT6 < 2 ^ 64 by rw [u64Limit] at amount; omega)
  refine ⟨⟨Core.protocolVersion, ⟨_, genesis⟩, ⟨_, asset⟩, ⟨_, vault⟩, ⟨_, txid⟩, vout, ⟨_, id⟩,
    amount, ⟨_, recipient⟩⟩, index, rfl, ?_⟩
  cases value
  simp only [SolidityBurnClaim.ofCore, SolidityBurnClaim.mk.injEq, true_and]
  exact ⟨voutEq, indexEq, amountEq, trivial⟩

end Laws

end Usdd.TypeScript

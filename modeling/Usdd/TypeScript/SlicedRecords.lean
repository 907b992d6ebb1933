import Usdd.ProofCore.TypedPayload
import Usdd.TypeScript.RecordLaws
/-!
# Records read by slices

The client reads records of fixed width by slices at fixed positions. A byte string of the width
is cut into the encodings of its fields in one way, so the slices are the fields.
-/
namespace Usdd.TypeScript

open Usdd.Foundation Usdd.Core

section Pieces

variable {α : Type}

/-- The consecutive pieces of a list that have given lengths. -/
def pieces : List Nat → List α → List (List α)
  | [], _ => []
  | width :: widths, items => items.take width :: pieces widths (items.drop width)

/-- The parts of a joined list are its pieces of their lengths. -/
theorem pieces_flatten (parts : List (List α)) :
    pieces (parts.map List.length) parts.flatten = parts := by
  induction parts with
  | nil => rfl
  | cons part parts ih =>
    rw [List.map_cons, List.flatten_cons, pieces, List.take_left, List.drop_left, ih]

/-- The pieces of all of a list make the list. -/
theorem flatten_pieces {widths : List Nat} {items : List α} (complete : items.length = widths.sum) :
    (pieces widths items).flatten = items := by
  induction widths generalizing items with
  | nil => exact (List.length_eq_zero_iff.mp complete).symm
  | cons width widths ih =>
    rw [List.sum_cons] at complete
    rw [pieces, List.flatten_cons, ih (by rw [List.length_drop]; omega),
      List.take_append_drop]

/-- A slice inside a byte string has its length. -/
theorem slice_length {bytes : List UInt8} {start stop : Nat} (inside : stop ≤ bytes.length) :
    (slice bytes start stop).length = stop - start := by
  rw [slice, List.length_take, List.length_drop]
  omega

/-- A byte is the slice of its position. -/
theorem slice_byte {bytes : List UInt8} {position : Nat} {byte : UInt8} :
    bytes[position]? = some byte ↔ slice bytes position (position + 1) = [byte] := by
  rw [slice, Nat.add_sub_cancel_left, ← List.head?_drop]
  cases bytes.drop position with
  | nil => simp
  | cons head rest => simp

end Pieces

section Hex

theorem digitChar_inj {left right : Nat} (leftFits : left < 16) (rightFits : right < 16)
    (same : Nat.digitChar left = Nat.digitChar right) : left = right := by
  have table : ∀ left < 16, ∀ right < 16, Nat.digitChar left = Nat.digitChar right →
      left = right := by decide
  exact table left leftFits right rightFits same

/-- Different byte strings have different digits. -/
theorem bytesToHex_inj {left right : List UInt8} :
    bytesToHex left = bytesToHex right ↔ left = right := by
  refine ⟨fun same => ?_, congrArg bytesToHex⟩
  induction left generalizing right with
  | nil =>
    cases right with
    | nil => rfl
    | cons b right => cases same
  | cons a left ih =>
    cases right with
    | nil => cases same
    | cons b right =>
      simp only [bytesToHex, List.map_cons, List.flatten_cons, List.cons_append, List.nil_append,
        List.cons.injEq] at same
      have bound := a.toNat_lt
      have bound' := b.toNat_lt
      have high := digitChar_inj (by omega) (by omega) same.1
      have low := digitChar_inj (by omega) (by omega) same.2.1
      rw [ih same.2.2, UInt8.toNat_inj.mp (show a.toNat = b.toNat by omega)]

end Hex

section Fields

/-- A slice of the width of a byte field is one. -/
theorem exists_fixed {width : Nat} {bytes : List UInt8} (length : bytes.length = width) :
    ∃ value : FixedBytes width, bytes = value.bytes :=
  ⟨⟨bytes, length⟩, rfl⟩

/-- Eight bytes are a word. -/
theorem exists_u64 {bytes : List UInt8} (length : bytes.length = 8) :
    ∃ value : UInt64, bytes = encode value := by
  have fits := beNat_lt bytes
  rw [length] at fits
  refine ⟨UInt64.ofNat (beNat bytes), ?_⟩
  change bytes = beBytes 8 (UInt64.ofNat (beNat bytes)).toNat
  rw [UInt64.toNat_ofNat_of_lt' fits, ← length, beBytes_beNat]

/-- Four bytes are a word. -/
theorem exists_u32 {bytes : List UInt8} (length : bytes.length = 4) :
    ∃ value : UInt32, bytes = encode value := by
  have fits := beNat_lt bytes
  rw [length] at fits
  refine ⟨UInt32.ofNat (beNat bytes), ?_⟩
  change bytes = beBytes 4 (UInt32.ofNat (beNat bytes)).toNat
  rw [UInt32.toNat_ofNat_of_lt' fits, ← length, beBytes_beNat]

@[simp]
theorem readUintBe_u64 (value : UInt64) : readUintBe (encode value) = value.toNat := by
  rw [readUintBe_eq]
  exact congrArg Nat.cast (beNat_beBytes_of_lt value.toNat_lt)

@[simp]
theorem readUintBe_u32 (value : UInt32) : readUintBe (encode value) = value.toNat := by
  rw [readUintBe_eq]
  exact congrArg Nat.cast (beNat_beBytes_of_lt value.toNat_lt)

end Fields

section BurnPayloads

/-- A burn payload of the crate in the client. -/
def BurnPayload.ofCore (payload : Core.BurnPayload) : BurnPayload where
  vaultId := payload.vaultId.bytes
  ethereumRecipient := payload.ethereumRecipient.bytes
  amountUSDT6 := payload.amountUsdtMicro.toNat

/-- The client's encoder writes the payloads that the crate accepts. -/
theorem encodeBurnPayload_ofCore {payload : Core.BurnPayload} {bytes : List UInt8} :
    encodeBurnPayload (.ofCore payload) = .ok bytes ↔
      payload.validate = .ok () ∧ bytes = encode payload := by
  have joined : concat [.ok [0x55, 0x53, 0x44, 0x44], .ok [1], .ok payload.vaultId.bytes,
      .ok payload.ethereumRecipient.bytes, u64be payload.amountUsdtMicro.toNat] =
      .ok (encode payload) :=
    concat_eq (.cons rfl (.cons rfl (.cons rfl (.cons rfl (.cons (u64be_word _) .nil)))))
  have length : (encode payload).length = 65 := by simp [encode, FixedBytes.length_eq]
  have convertible (small : payload.amountUsdtMicro.toNat ≤ 20000000000000) :
      usdtMicroToUsddBase payload.amountUsdtMicro ≠ none := by
    obtain ⟨base, converted, -⟩ := usdtMicroToUsddBase_of_le small
    rw [converted]
    exact Option.some_ne_none base
  have limit : maxBurnAmountUsdtMicro.toNat = 20000000000000 := maxMintBatchUsdtMicro_toNat
  simp only [encodeBurnPayload, Core.BurnPayload.validate]
  simp only [↓then_eq_ok, bind_eq_ok, rejectIf_eq_ok, pure_eq_ok]
  simp only [BurnPayload.ofCore, joined, assertLength_fixed, assertNonzero_fixed,
    assertPositiveU64_word, true_and, Except.ok.injEq, exists_eq_left', length, not_or,
    maxBurnAmountUSDT6, maxMintBatchUSDT6, maxMintBatchUSDD8, usddUnitsPerUsdtMicro,
    UInt64.lt_iff_toNat_lt, limit, ne_eq, not_true_eq_false, not_false_eq_true, gt_iff_lt]
  constructor
  · rintro ⟨vault, recipient, amount, bound, rfl⟩
    exact ⟨⟨vault, recipient, amount, by omega, convertible (by omega)⟩, rfl⟩
  · rintro ⟨⟨vault, recipient, amount, bound, -⟩, rfl⟩
    exact ⟨vault, recipient, amount, by omega, rfl⟩

/-- Bytes with the width and the header of a payload are those of one. -/
theorem exists_burnPayload {bytes : List UInt8} (length : bytes.length = 65)
    (magic : slice bytes 0 4 = burnPayloadMagic.bytes) (version : slice bytes 4 5 = [1]) :
    ∃ payload : Core.BurnPayload, bytes = encode payload := by
  obtain ⟨vault, vaultEq⟩ : ∃ value : Hash32, slice bytes 5 37 = value.bytes :=
    exists_fixed (slice_length (by omega))
  obtain ⟨recipient, recipientEq⟩ : ∃ value : EthAddress, slice bytes 37 57 = value.bytes :=
    exists_fixed (slice_length (by omega))
  obtain ⟨amount, amountEq⟩ : ∃ value : UInt64, slice bytes 57 65 = encode value :=
    exists_u64 (slice_length (by omega))
  refine ⟨⟨vault, recipient, amount⟩, ?_⟩
  have whole : (pieces [4, 1, 32, 20, 8] bytes).flatten = bytes := flatten_pieces length
  have cut : pieces [4, 1, 32, 20, 8] bytes = [slice bytes 0 4, slice bytes 4 5,
      slice bytes 5 37, slice bytes 37 57, slice bytes 57 65] := by simp [pieces, slice]
  rw [← whole, cut, magic, version, vaultEq, recipientEq, amountEq]
  rfl

/-- The slices of a payload are its fields. -/
theorem slices_burnPayload (payload : Core.BurnPayload) :
    slice (encode payload) 0 4 = burnPayloadMagic.bytes ∧ slice (encode payload) 4 5 = [1] ∧
      slice (encode payload) 5 37 = payload.vaultId.bytes ∧
      slice (encode payload) 37 57 = payload.ethereumRecipient.bytes ∧
      slice (encode payload) 57 65 = encode payload.amountUsdtMicro := by
  have cut := pieces_flatten [encode burnPayloadMagic, encode (1 : UInt8), encode payload.vaultId,
    encode payload.ethereumRecipient, encode payload.amountUsdtMicro]
  simp only [List.map_cons, List.map_nil, encode_fixed_length, encode_u64_length, pieces,
    List.cons.injEq, List.drop_drop] at cut
  exact ⟨cut.1, cut.2.1, cut.2.2.1, cut.2.2.2.1, cut.2.2.2.2.1⟩

theorem decodeBurnPayload_eq_ok {bytes : List UInt8} {value : BurnPayload} :
    decodeBurnPayload bytes = .ok value ↔ ∃ payload : Core.BurnPayload,
      payload.validate = .ok () ∧ bytes = encode payload ∧ value = .ofCore payload := by
  have digits : bytesToHex burnPayloadMagic.bytes = "55534444".toList := by decide
  simp only [decodeBurnPayload]
  simp only [↓then_eq_ok, bind_eq_ok, rejectIf_eq_ok, pure_eq_ok, not_or, not_not, ne_eq,
    ← digits, bytesToHex_inj, slice_byte]
  constructor
  · rintro ⟨⟨length, magic, version⟩, written, encoded, rfl⟩
    obtain ⟨payload, rfl⟩ := exists_burnPayload length magic version
    obtain ⟨-, -, vault, recipient, amount⟩ := slices_burnPayload payload
    rw [vault, recipient, amount, readUintBe_u64] at encoded ⊢
    exact ⟨payload, (encodeBurnPayload_ofCore.mp encoded).1, rfl, rfl⟩
  · rintro ⟨payload, valid, rfl, rfl⟩
    obtain ⟨magic, version, vault, recipient, amount⟩ := slices_burnPayload payload
    have length : (encode payload).length = 65 := by simp [encode, FixedBytes.length_eq]
    refine ⟨⟨length, magic, version⟩, encode payload, ?_⟩
    rw [vault, recipient, amount, readUintBe_u64]
    exact ⟨encodeBurnPayload_ofCore.mpr ⟨valid, rfl⟩, rfl⟩

theorem agrees_burnPayload : Agrees BurnPayload.ofCore (Core.decodeExact Core.BurnPayload)
    decodeBurnPayload encodeBurnPayload where
  accepts bytes value := by
    simp only [decodeBurnPayload_eq_ok, Core.decodeExact_eq_ok, and_assoc]
    exact Iff.rfl
  rewrites bytes value decoded := by
    obtain ⟨payload, valid, rfl, rfl⟩ := decodeBurnPayload_eq_ok.mp decoded
    exact encodeBurnPayload_ofCore.mpr ⟨valid, rfl⟩

end BurnPayloads

section Controllers

/-- A controller state of the crate in the client. -/
def MintControllerState.ofCore (state : Core.MintControllerState) : MintControllerState where
  version := state.version.toNat
  sequence := state.sequence.toNat
  nextMintNonce := state.nextMintNonce.toNat
  ethereumLightClientDigest := state.ethereumLightClientDigest.bytes
  finalizedBeaconSlot := state.finalizedBeaconSlot.toNat
  finalizedBeaconRoot := state.finalizedBeaconRoot.bytes
  finalizedExecutionStateRoot := state.finalizedExecutionStateRoot.bytes
  totalMintedUSDDBase := state.totalMintedUsddBase.toNat
  configurationHash := state.configurationHash.bytes

theorem validateMintControllerState_ofCore {state : Core.MintControllerState} :
    validateMintControllerState (.ofCore state) = .ok () ↔ state.validate = .ok () := by
  have word (value : UInt64) : (value.toNat : Int) = 0 ↔ value = 0 := by
    rw [← UInt64.toNat_inj]
    exact Int.natCast_eq_zero
  have version : (state.version.toNat : Int) = 1 ↔ state.version = protocolVersion := by
    rw [← UInt32.toNat_inj]
    exact Int.natCast_inj (n := 1)
  have remainder : (state.totalMintedUsddBase.toNat : Int) % 100 = 0 ↔
      state.totalMintedUsddBase.toNat % 100 = 0 := by omega
  have zero (value : Hash32) : isZero value.bytes = false ↔ value ≠ .zero := by
    rw [← Bool.not_eq_true, isZero_fixed]
  rw [Core.MintControllerState.validate_eq_ok]
  simp only [validateMintControllerState]
  by_cases fresh : state.finalizedBeaconSlot = 0
  · have fresh' : (MintControllerState.ofCore state).finalizedBeaconSlot = 0 := (word _).mpr fresh
    simp only [↓then_eq_ok, fresh', ↓reduceIte, rejectIf_eq_ok, not_or, not_not, ne_eq]
    simp only [MintControllerState.ofCore, assertLength_fixed, assertU64_word,
      assertNonzero_fixed, true_and, version, word, zero, usddUnitsPerUsdtMicro, remainder,
      not_not, ne_eq]
    have slot : assertU64 0 "finalized beacon slot" = .ok () := by decide
    constructor
    · rintro ⟨version, -, digest, configuration, blank, convertible⟩
      exact ⟨version, configuration, digest, fun _ => blank, fun wrong => (wrong fresh).elim,
        convertible⟩
    · intro valid
      exact ⟨valid.version, slot, valid.digest, valid.configuration, valid.fresh fresh,
        valid.convertible⟩
  · have set : ¬(MintControllerState.ofCore state).finalizedBeaconSlot = 0 :=
      (word _).not.mpr fresh
    simp only [↓then_eq_ok, set, ↓reduceIte, rejectIf_eq_ok, not_or, not_not, ne_eq]
    simp only [MintControllerState.ofCore, assertLength_fixed, assertU64_word,
      assertNonzero_fixed, true_and, version, isZero_fixed, usddUnitsPerUsdtMicro, remainder,
      ne_eq]
    constructor
    · rintro ⟨version, digest, configuration, roots, convertible⟩
      exact ⟨version, configuration, digest, fun wrong => (fresh wrong).elim, fun _ => roots,
        convertible⟩
    · intro valid
      exact ⟨valid.version, valid.digest, valid.configuration, valid.finalized fresh,
        valid.convertible⟩

/-- The client's encoder writes the controller states that the crate accepts. -/
theorem encodeMintControllerState_ofCore {state : Core.MintControllerState}
    {bytes : List UInt8} : encodeMintControllerState (.ofCore state) = .ok bytes ↔
      state.validate = .ok () ∧ bytes = encode state := by
  have joined : concat [u32be (MintControllerState.ofCore state).version,
      u64be (MintControllerState.ofCore state).sequence,
      u64be (MintControllerState.ofCore state).nextMintNonce,
      .ok (MintControllerState.ofCore state).ethereumLightClientDigest,
      u64be (MintControllerState.ofCore state).finalizedBeaconSlot,
      .ok (MintControllerState.ofCore state).finalizedBeaconRoot,
      .ok (MintControllerState.ofCore state).finalizedExecutionStateRoot,
      u64be (MintControllerState.ofCore state).totalMintedUSDDBase,
      .ok (MintControllerState.ofCore state).configurationHash] = .ok (encode state) :=
    concat_eq (.cons (u32be_word _) (.cons (u64be_word _) (.cons (u64be_word _) (.cons rfl
      (.cons (u64be_word _) (.cons rfl (.cons rfl (.cons (u64be_word _) (.cons rfl .nil)))))))))
  simp only [encodeMintControllerState]
  simp only [↓then_eq_ok, bind_eq_ok, rejectIf_eq_ok, pure_eq_ok,
    validateMintControllerState_ofCore]
  simp only [joined, Except.ok.injEq, exists_eq_left', ProofCore.encode_controllerState_length,
    ne_eq, not_true_eq_false, not_false_eq_true, true_and]
  exact and_congr_right fun _ => eq_comm

/-- Bytes of the width of a controller state are those of one. -/
theorem exists_controllerState {bytes : List UInt8} (length : bytes.length = 164) :
    ∃ state : Core.MintControllerState, bytes = encode state := by
  obtain ⟨version, versionEq⟩ : ∃ value : UInt32, slice bytes 0 4 = encode value :=
    exists_u32 (slice_length (by omega))
  obtain ⟨sequence, sequenceEq⟩ : ∃ value : UInt64, slice bytes 4 12 = encode value :=
    exists_u64 (slice_length (by omega))
  obtain ⟨nonce, nonceEq⟩ : ∃ value : UInt64, slice bytes 12 20 = encode value :=
    exists_u64 (slice_length (by omega))
  obtain ⟨digest, digestEq⟩ : ∃ value : Hash32, slice bytes 20 52 = value.bytes :=
    exists_fixed (slice_length (by omega))
  obtain ⟨slot, slotEq⟩ : ∃ value : UInt64, slice bytes 52 60 = encode value :=
    exists_u64 (slice_length (by omega))
  obtain ⟨root, rootEq⟩ : ∃ value : Hash32, slice bytes 60 92 = value.bytes :=
    exists_fixed (slice_length (by omega))
  obtain ⟨stateRoot, stateRootEq⟩ : ∃ value : Hash32, slice bytes 92 124 = value.bytes :=
    exists_fixed (slice_length (by omega))
  obtain ⟨total, totalEq⟩ : ∃ value : UInt64, slice bytes 124 132 = encode value :=
    exists_u64 (slice_length (by omega))
  obtain ⟨hash, hashEq⟩ : ∃ value : Hash32, slice bytes 132 164 = value.bytes :=
    exists_fixed (slice_length (by omega))
  refine ⟨⟨version, sequence, nonce, digest, slot, root, stateRoot, total, hash⟩, ?_⟩
  have whole : (pieces [4, 8, 8, 32, 8, 32, 32, 8, 32] bytes).flatten = bytes :=
    flatten_pieces length
  have cut : pieces [4, 8, 8, 32, 8, 32, 32, 8, 32] bytes = [slice bytes 0 4, slice bytes 4 12,
      slice bytes 12 20, slice bytes 20 52, slice bytes 52 60, slice bytes 60 92,
      slice bytes 92 124, slice bytes 124 132, slice bytes 132 164] := by simp [pieces, slice]
  rw [← whole, cut, versionEq, sequenceEq, nonceEq, digestEq, slotEq, rootEq, stateRootEq,
    totalEq, hashEq]
  rfl

/-- The slices of a controller state are its fields. -/
theorem slices_controllerState (state : Core.MintControllerState) :
    (⟨readUintBe (slice (encode state) 0 4), readUintBe (slice (encode state) 4 12),
      readUintBe (slice (encode state) 12 20), slice (encode state) 20 52,
      readUintBe (slice (encode state) 52 60), slice (encode state) 60 92,
      slice (encode state) 92 124, readUintBe (slice (encode state) 124 132),
      slice (encode state) 132 164⟩ : MintControllerState) = .ofCore state := by
  have cut := pieces_flatten [encode state.version, encode state.sequence,
    encode state.nextMintNonce, encode state.ethereumLightClientDigest,
    encode state.finalizedBeaconSlot, encode state.finalizedBeaconRoot,
    encode state.finalizedExecutionStateRoot, encode state.totalMintedUsddBase,
    encode state.configurationHash]
  simp only [List.map_cons, List.map_nil, encode_fixed_length, encode_u64_length,
    encode_u32_length, pieces, List.cons.injEq, List.drop_drop] at cut
  obtain ⟨version, sequence, nonce, digest, slot, root, stateRoot, total, hash, -⟩ := cut
  have fields : slice (encode state) 0 4 = encode state.version ∧
      slice (encode state) 4 12 = encode state.sequence ∧
      slice (encode state) 12 20 = encode state.nextMintNonce ∧
      slice (encode state) 20 52 = state.ethereumLightClientDigest.bytes ∧
      slice (encode state) 52 60 = encode state.finalizedBeaconSlot ∧
      slice (encode state) 60 92 = state.finalizedBeaconRoot.bytes ∧
      slice (encode state) 92 124 = state.finalizedExecutionStateRoot.bytes ∧
      slice (encode state) 124 132 = encode state.totalMintedUsddBase ∧
      slice (encode state) 132 164 = state.configurationHash.bytes :=
    ⟨version, sequence, nonce, digest, slot, root, stateRoot, total, hash⟩
  simp only [fields, readUintBe_u32, readUintBe_u64]
  rfl

theorem decodeMintControllerState_eq_ok {bytes : List UInt8} {value : MintControllerState} :
    decodeMintControllerState bytes = .ok value ↔ ∃ state : Core.MintControllerState,
      state.validate = .ok () ∧ bytes = encode state ∧ value = .ofCore state := by
  simp only [decodeMintControllerState]
  simp only [↓then_eq_ok, bind_eq_ok, rejectIf_eq_ok, pure_eq_ok, not_not, ne_eq, bytesToHex_inj]
  constructor
  · rintro ⟨length, written, encoded, rfl, rfl⟩
    obtain ⟨state, rfl⟩ := exists_controllerState length
    rw [slices_controllerState] at encoded ⊢
    exact ⟨state, (encodeMintControllerState_ofCore.mp encoded).1, rfl, rfl⟩
  · rintro ⟨state, valid, rfl, rfl⟩
    refine ⟨ProofCore.encode_controllerState_length state, encode state, ?_⟩
    rw [slices_controllerState]
    exact ⟨encodeMintControllerState_ofCore.mpr ⟨valid, rfl⟩, rfl, rfl⟩

theorem agrees_mintControllerState : Agrees MintControllerState.ofCore
    (Core.decodeExact Core.MintControllerState) decodeMintControllerState
    encodeMintControllerState where
  accepts bytes value := by
    simp only [decodeMintControllerState_eq_ok, Core.decodeExact_eq_ok, and_assoc]
    exact Iff.rfl
  rewrites bytes value decoded := by
    obtain ⟨state, valid, rfl, rfl⟩ := decodeMintControllerState_eq_ok.mp decoded
    exact encodeMintControllerState_ofCore.mpr ⟨valid, rfl⟩

/-- Inside a record, the client takes the width of a controller state and reads it by itself. -/
theorem mirrors_mintControllerState : Mirrors MintControllerState.ofCore
    (CanonicalDecode.decodeFrom : Decoder Core.MintControllerState)
    decodeMintControllerStateFrom := by
  intro input part rest
  simp only [decodeMintControllerStateFrom, Reader.bind_eq_ok, take_eq_ok, Reader.lift_eq_ok,
    decodeMintControllerState_eq_ok, CanonicalRecord.reads input _ rest]
  constructor
  · rintro ⟨_, _, ⟨-, rfl⟩, ⟨state, valid, rfl, rfl⟩, rfl⟩
    exact ⟨state, ⟨valid, rfl⟩, rfl⟩
  · rintro ⟨state, ⟨valid, rfl⟩, rfl⟩
    exact ⟨_, _, ⟨ProofCore.encode_controllerState_length state, rfl⟩, ⟨state, valid, rfl, rfl⟩,
      rfl⟩

end Controllers

end Usdd.TypeScript

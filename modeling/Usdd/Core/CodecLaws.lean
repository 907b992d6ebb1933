import Usdd.Foundation.Readers
import Usdd.Core.Payloads
/-!
# The record decoders read what the encoders write

Each decoder returns exactly the records that satisfy its decode-time conditions, each from its
own bytes.
-/
namespace Usdd.Core

open Usdd.Foundation

/-- A record type whose decoder reads what its encoder writes of the valid records. -/
class CanonicalRecord (α : Type) [CanonicalEncode α] [CanonicalDecode α] where
  /-- The decode-time conditions. -/
  DecodeValid : α → Prop
  /-- The decoder returns the valid records, each from its own bytes. -/
  reads : Reads (CanonicalDecode.decodeFrom : Decoder α) encode DecodeValid

export CanonicalRecord (DecodeValid)

section Exact

variable {α : Type} [CanonicalEncode α] [CanonicalDecode α] [CanonicalRecord α]

/-- A byte string decodes to a record when the record is valid and the bytes are its own. -/
theorem decodeExact_eq_ok {bytes : List UInt8} {value : α} :
    decodeExact α bytes = .ok value ↔ DecodeValid value ∧ bytes = encode value :=
  (CanonicalRecord.reads : Reads (CanonicalDecode.decodeFrom : Decoder α) encode
    DecodeValid).exact_eq_ok

/-- Valid records with the same bytes are the same. -/
theorem encode_injOn {left right : α} (leftValid : DecodeValid left)
    (rightValid : DecodeValid right) (same : encode left = encode right) : left = right :=
  (CanonicalRecord.reads.write_inj leftValid rightValid (congrArg (· ++ []) same)).1

end Exact

section Primitives

theorem reads_take (length : Nat) :
    Reads (Decoder.take length) id fun bytes => bytes.length = length := by
  intro input value rest
  simp only [Decoder.take]
  simp only [↓then_eq_ok, rejectIf_eq_ok, pure_eq_ok, Prod.mk.injEq, Nat.not_lt, id]
  exact front_iff

/-- A number read from a fixed width of bytes. -/
theorem reads_number {α : Type} (width : Nat) {make : Nat → α} {number : α → Nat}
    (fits : ∀ value, number value < 256 ^ width) (made : ∀ value, make (number value) = value)
    (unmade : ∀ value, value < 256 ^ width → number (make value) = value) :
    Reads (do return make (beNat (← Decoder.take width)) : Decoder α)
      (fun value => beBytes width (number value)) fun _ => True := by
  have law := (reads_take width).map (f := fun bytes => make (beNat bytes))
    (g := fun value => beBytes width (number value)) (p := fun _ => True)
    (fun value _ => ⟨beBytes_length _ _, by
      rw [beNat_beBytes_of_lt (fits value), made]⟩)
    (fun bytes length => ⟨trivial, by
      rw [unmade _ (length ▸ beNat_lt bytes), ← length, beBytes_beNat]⟩)
  exact law

theorem reads_u8 : Reads Decoder.u8 encode fun _ => True :=
  (reads_number 1 (fun value : UInt8 => value.toNat_lt) (fun _ => UInt8.ofNat_toNat)
    fun value fits => UInt8.toNat_ofNat_of_lt' fits).congr (fun _ => Iff.rfl) fun value _ => by
      simp [beBytes, encode]

theorem reads_u16 : Reads Decoder.u16 encode fun _ => True :=
  reads_number 2 (fun value : UInt16 => value.toNat_lt) (fun _ => UInt16.ofNat_toNat)
    fun _ fits => UInt16.toNat_ofNat_of_lt' fits

theorem reads_u32 : Reads Decoder.u32 encode fun _ => True :=
  reads_number 4 (fun value : UInt32 => value.toNat_lt) (fun _ => UInt32.ofNat_toNat)
    fun _ fits => UInt32.toNat_ofNat_of_lt' fits

theorem reads_u64 : Reads Decoder.u64 encode fun _ => True :=
  reads_number 8 (fun value : UInt64 => value.toNat_lt) (fun _ => UInt64.ofNat_toNat)
    fun _ fits => UInt64.toNat_ofNat_of_lt' fits

theorem reads_fixed (width : Nat) :
    Reads (Decoder.fixed width) encode fun _ => True :=
  (reads_number width FixedBytes.toNat_lt (fun _ => FixedBytes.ofNat_toNat _)
    fun _ fits => FixedBytes.toNat_ofNat fits).congr (fun _ => Iff.rfl) fun value _ =>
      congrArg FixedBytes.bytes (FixedBytes.ofNat_toNat value)

/-- A byte string whose length fits its prefix. -/
theorem reads_bytes : Reads Decoder.bytes encode fun bytes : List UInt8 =>
    bytes.length < 2 ^ 32 := by
  have law : Reads Decoder.bytes (fun bytes => [encode (UInt32.ofNat bytes.length), bytes].flatten)
      fun bytes => bytes.length < 2 ^ 32 := by
    refine .plain reads_u32 fun length => ?_
    refine (reads_take length.toNat).congr (fun bytes => ?_) fun bytes _ => by simp
    constructor
    · rintro same
      rw [same]
      exact ⟨length.toNat_lt, UInt32.ofNat_toNat⟩
    · rintro ⟨fits, rfl⟩
      exact (UInt32.toNat_ofNat_of_lt' fits).symm
  exact law.congr (fun _ => Iff.rfl) fun bytes fits => by
    simp [encode, UInt32.toNat_ofNat_of_lt' fits]

theorem times_eq {α : Type} (count : Nat) (read : Decoder α) :
    Decoder.times count read = Reader.times count read := by
  induction count with
  | zero => rfl
  | succ count ih => rw [Decoder.times, Reader.times, ih]

/-- A record read a number of times in a row. -/
theorem reads_times {α : Type} {read : Decoder α} {write : α → List UInt8} {valid : α → Prop}
    (law : Reads read write valid) (count : Nat) :
    Reads (Decoder.times count read) (fun values => (values.map write).flatten)
      fun values => values.length = count ∧ ∀ value ∈ values, valid value :=
  times_eq count read ▸ law.times count

/-- A field that is refused unless it has one value. -/
theorem rejectIf_ne_eq_ok {α : Type} [DecidableEq α] {found expected : α} {error : DecodeError} :
    rejectIf (found ≠ expected) error = .ok () ↔ found = expected := by
  rw [rejectIf_eq_ok, ne_eq, not_not]

theorem reads_decodeHeader (tag : UInt16) :
    Reads (decodeHeader tag) (fun _ => encodeHeader tag) fun _ => True :=
  .header reads_u16 reads_u16 (fun _ => rejectIf_ne_eq_ok) fun _ => rejectIf_ne_eq_ok

theorem reads_decodeManifestHeader :
    Reads decodeManifestHeader (fun _ => encode encodingSchema ++ encode tagManifest)
      fun _ => True :=
  .header reads_u16 reads_u16 (fun _ => rejectIf_ne_eq_ok) fun _ => rejectIf_ne_eq_ok

theorem reads_decodeBurnPayloadHeader :
    Reads decodeBurnPayloadHeader (fun _ => encode burnPayloadMagic ++ encode (1 : UInt8))
      fun _ => True :=
  .header (reads_fixed 4) reads_u8 (fun _ => rejectIf_ne_eq_ok) fun _ => rejectIf_ne_eq_ok

end Primitives

section Records

instance : CanonicalRecord OutPoint where
  DecodeValid _ := True
  reads := by
    have law : Reads (CanonicalDecode.decodeFrom : Decoder OutPoint)
        (fun value => [encode value.txid, encode value.vout].flatten) fun _ => True := by
      refine .plain (reads_fixed 32) fun _ => .plain reads_u32 fun _ => ?_
      exact .pure (fun value => by cases value; simp only [OutPoint.mk.injEq, true_and])
        fun _ _ => rfl
    exact law.congr (fun _ => Iff.rfl) fun value _ => by simp [encode]

instance : CanonicalRecord VaultDeposit where
  DecodeValid deposit := deposit.validate = .ok ()
  reads := by
    refine .constant (reads_decodeHeader _) ?_
    refine .plain reads_u64 fun _ => .plain (reads_fixed 20) fun _ => ?_
    refine .plain (reads_fixed 20) fun _ => .plain reads_u64 fun _ => ?_
    refine .plain (reads_fixed 20) fun _ => .plain reads_u64 fun _ => ?_
    refine .field reads_bytes ?_ fun _ _ => .plain (reads_fixed 32) fun _ => ?_
    · rintro value ⟨⟨⟨⟨⟨⟨valid, _⟩, _⟩, _⟩, _⟩, _⟩, _⟩
      exact lt_of_le_of_lt (VaultDeposit.validate_eq_ok.mp valid).script_le (by decide)
    · refine .validated (fun value => ?_) fun _ _ => rfl
      cases value
      simp only [VaultDeposit.mk.injEq, and_assoc]

instance : CanonicalRecord EthereumFinalityWitness where
  DecodeValid witness := witness.validate = .ok ()
  reads := by
    refine .constant (reads_decodeHeader _) ?_
    refine .plain (reads_fixed 32) fun _ => .plain reads_u64 fun _ => ?_
    refine .plain (reads_fixed 32) fun _ => .plain (reads_fixed 32) fun _ => ?_
    refine .plain (reads_fixed 32) fun _ => .plain reads_u64 fun _ => ?_
    refine .plain reads_u64 fun _ => .validated (fun value => ?_) fun _ _ => rfl
    cases value
    simp only [EthereumFinalityWitness.mk.injEq, and_assoc]

instance : CanonicalRecord MintOutput where
  DecodeValid output := output.validate = .ok ()
  reads := by
    refine .constant (reads_decodeHeader _) ?_
    refine .plain (reads_fixed 32) fun _ => .plain reads_u64 fun _ => ?_
    refine .plain reads_u64 fun _ => .plain reads_u64 fun _ => ?_
    refine .field reads_bytes ?_ fun _ _ => ?_
    · rintro value ⟨⟨⟨⟨valid, _⟩, _⟩, _⟩, _⟩
      exact lt_of_le_of_lt (MintOutput.validate_eq_ok.mp valid).script_le (by decide)
    · refine .validated (fun value => ?_) fun _ _ => rfl
      cases value
      simp only [MintOutput.mk.injEq, and_assoc]

/-- A list of records after its count, which is checked, and then the rest of a record. -/
theorem reads_counted {α β : Type} [CanonicalEncode α] [CanonicalDecode α] [CanonicalRecord α]
    {refuse : UInt8 → Except DecodeError Unit} {next : List α → Decoder β} {items : β → List α}
    {remaining : β → List (List UInt8)} {ok : β → Prop}
    (bounded : ∀ value, ok value → (items value).length < 256 ∧
      refuse (UInt8.ofNat (items value).length) = .ok ())
    (valid : ∀ value, ok value → ∀ item ∈ items value, DecodeValid item)
    (later : ∀ found, found.length < 256 → refuse (UInt8.ofNat found.length) = .ok () →
      (∀ item ∈ found, DecodeValid item) →
      Reads (next found) (fun value => (remaining value).flatten)
        fun value => ok value ∧ items value = found) :
    Reads (do
      let count ← Decoder.u8
      Decoder.check (refuse count)
      let found ← Decoder.times count.toNat (CanonicalDecode.decodeFrom : Decoder α)
      next found)
      (fun value => (encodeCount (items value).length :: ((items value).map encode).flatten ::
        remaining value).flatten) ok := by
  refine .plain (f := fun value => UInt8.ofNat (items value).length) reads_u8 fun count => ?_
  refine .checked ?_ fun passed => .field (reads_times CanonicalRecord.reads count.toNat) ?_
    fun found sound => ?_
  · rintro value ⟨good, rfl⟩
    exact (bounded value good).2
  · rintro value ⟨good, rfl⟩
    exact ⟨(UInt8.toNat_ofNat_of_lt' (bounded value good).1).symm, valid value good⟩
  · obtain ⟨length, sound⟩ := sound
    have small : found.length < 256 := length ▸ count.toNat_lt
    have same : UInt8.ofNat found.length = count := by rw [length, UInt8.ofNat_toNat]
    refine (later found small (same ▸ passed) sound).congr (fun value => ?_) fun _ _ => rfl
    constructor
    · rintro ⟨good, rfl⟩
      exact ⟨⟨good, same⟩, rfl⟩
    · rintro ⟨⟨good, _⟩, rfl⟩
      exact ⟨good, rfl⟩

/-- The count of a list that is neither empty nor longer than a batch is accepted. -/
theorem batchSize_eq_ok {count : Nat} {error : DecodeError} (positive : 0 < count)
    (small : count ≤ 64) : count < 256 ∧
      rejectIf (UInt8.ofNat count = 0 ∨ (UInt8.ofNat count).toNat > maxMintBatchSize) error =
        .ok () := by
  have fits : count < 256 := lt_of_le_of_lt small (by decide)
  refine ⟨fits, (rejectIf_eq_ok _ _ _).mpr ?_⟩
  rw [← UInt8.toNat_inj, UInt8.toNat_ofNat_of_lt' fits]
  rintro (zero | large)
  · exact positive.ne' zero
  · exact absurd small (Nat.not_le.mpr large)

instance : CanonicalRecord MintBatch where
  DecodeValid batch := batch.validate = .ok ()
  reads := by
    refine .constant (reads_decodeHeader _) ?_
    refine .plain reads_u64 fun _ => .plain reads_u64 fun _ => ?_
    refine reads_counted ?_ ?_ fun outputs _ _ _ => ?_
    · rintro value ⟨⟨valid, _⟩, _⟩
      have bounds := MintBatch.validate_eq_ok.mp valid
      exact batchSize_eq_ok (List.length_pos_iff.mpr bounds.nonempty) bounds.size_le
    · rintro value ⟨⟨valid, _⟩, _⟩ output member
      exact MintOutput.validate_eq_ok.mpr
        ((MintBatch.validate_eq_ok.mp valid).outputs output member)
    · refine .plain reads_u64 fun _ => .plain reads_u64 fun _ => ?_
      refine .validated (fun value => ?_) fun _ _ => rfl
      cases value
      simp only [MintBatch.mk.injEq, and_assoc]

instance : CanonicalRecord Burn where
  DecodeValid burn := burn.validate = .ok ()
  reads := by
    refine .constant (reads_decodeHeader _) ?_
    refine .plain (reads_fixed 32) fun _ => .plain (reads_fixed 32) fun _ => ?_
    refine .plain reads_u64 fun _ => .plain reads_u64 fun _ => ?_
    refine .field CanonicalRecord.reads (fun _ _ => trivial) fun _ _ => ?_
    refine .plain (reads_fixed 20) fun _ => .validated (fun value => ?_) fun _ _ => rfl
    cases value
    simp only [Burn.mk.injEq, and_assoc]

instance [Hashing] : CanonicalRecord SolidityElementsBridgeState where
  DecodeValid state := state.validate = .ok ()
  reads := by
    change Reads _ (fun value : SolidityElementsBridgeState =>
      (encodeHeader tagSolidityElementsState :: value.packedSegments).flatten) _
    refine .constant (reads_decodeHeader _) ?_
    refine .plain reads_u64 fun _ => .plain reads_u64 fun _ => ?_
    refine .plain (reads_fixed 32) fun _ => .plain (reads_fixed 32) fun _ => ?_
    refine .plain (reads_fixed 32) fun _ => .plain (reads_fixed 32) fun _ => ?_
    refine .plain reads_u64 fun _ => .plain reads_u64 fun _ => ?_
    refine .plain reads_u64 fun _ => .plain (reads_fixed 32) fun _ => ?_
    refine .validated (fun value => ?_) fun _ _ => rfl
    cases value
    simp only [SolidityElementsBridgeState.mk.injEq, and_assoc]

instance : CanonicalRecord MintControllerState where
  DecodeValid state := state.validate = .ok ()
  reads := by
    refine .plain reads_u32 fun _ => .plain reads_u64 fun _ => ?_
    refine .plain reads_u64 fun _ => .plain (reads_fixed 32) fun _ => ?_
    refine .plain reads_u64 fun _ => .plain (reads_fixed 32) fun _ => ?_
    refine .plain (reads_fixed 32) fun _ => .plain reads_u64 fun _ => ?_
    refine .plain (reads_fixed 32) fun _ => .validated (fun value => ?_) fun _ _ => rfl
    cases value
    simp only [MintControllerState.mk.injEq, and_assoc]

/-- A proof keeps the siblings it is made from. -/
theorem BurnProof.toList_ofList {siblings : List Hash32}
    (complete : siblings.length = burnAccumulatorDepth) :
    (BurnProof.ofList siblings).siblings.toList = siblings := by
  refine List.ext_getElem ?_ fun level _ inside => ?_
  · rw [complete, Vector.length_toList]
    rfl
  · simp [BurnProof.ofList, List.getElem?_eq_getElem inside]

instance : CanonicalRecord BurnProof where
  DecodeValid _ := True
  reads := by
    refine ((reads_times (reads_fixed 32) burnAccumulatorDepth).map (f := BurnProof.ofList)
      (g := fun proof => proof.siblings.toList) (p := fun _ => True) (fun proof _ => ?_)
      fun siblings holds => ⟨trivial, BurnProof.toList_ofList holds.1⟩).congr
        (fun _ => Iff.rfl) fun _ _ => rfl
    refine ⟨⟨Vector.length_toList, fun _ _ => trivial⟩, ?_⟩
    obtain ⟨siblings⟩ := proof
    simp only [BurnProof.ofList, BurnProof.mk.injEq]
    ext level
    simp

instance : CanonicalRecord BurnPayload where
  DecodeValid payload := payload.validate = .ok ()
  reads := by
    refine .constants reads_decodeBurnPayloadHeader ?_
    refine .plain (reads_fixed 32) fun _ => .plain (reads_fixed 20) fun _ => ?_
    refine .plain reads_u64 fun _ => .validated (fun value => ?_) fun _ _ => rfl
    cases value
    simp only [BurnPayload.mk.injEq, and_assoc]

instance [Hashing] : CanonicalRecord SolidityBurnClaim where
  DecodeValid claim := claim.validate = .ok ()
  reads := by
    refine .constant (reads_decodeHeader _) ?_
    refine .plain reads_u32 fun _ => .plain (reads_fixed 32) fun _ => ?_
    refine .plain (reads_fixed 32) fun _ => .plain (reads_fixed 32) fun _ => ?_
    refine .plain (reads_fixed 32) fun _ => .plain reads_u32 fun _ => ?_
    refine .plain (reads_fixed 32) fun _ => .plain reads_u64 fun _ => ?_
    refine .plain (reads_fixed 20) fun _ => .validated (fun value => ?_) fun _ _ => rfl
    cases value
    simp only [SolidityBurnClaim.mk.injEq, and_assoc]

theorem ElementsEventKind.ofTag_eq_ok {tag : UInt8} {kind : ElementsEventKind} :
    ElementsEventKind.ofTag tag = .ok kind ↔ tag = kind.tag := by
  simp only [ElementsEventKind.ofTag]
  by_cases mint : tag = 1
  · subst mint
    cases kind <;> decide
  · by_cases burn : tag = 2
    · subst burn
      cases kind <;> decide
    · cases kind <;> simp [mint, burn, ElementsEventKind.tag]

instance : CanonicalRecord ElementsEventKind where
  DecodeValid _ := True
  reads := reads_u8.convert (g := ElementsEventKind.tag) fun tag kind => by
    rw [ElementsEventKind.ofTag_eq_ok]

instance : CanonicalRecord ElementsEvent where
  DecodeValid event := event.validate = .ok ()
  reads := by
    refine .constant (reads_decodeHeader _) ?_
    refine .field CanonicalRecord.reads (fun _ _ => trivial) fun _ _ => ?_
    refine .plain (reads_fixed 32) fun _ => ?_
    refine .field CanonicalRecord.reads (fun _ _ => trivial) fun _ _ => ?_
    refine .plain reads_u64 fun _ => .plain (reads_fixed 32) fun _ => ?_
    refine .plain (reads_fixed 32) fun _ => .plain reads_u64 fun _ => ?_
    refine .plain (reads_fixed 32) fun _ => .plain reads_u64 fun _ => ?_
    refine .plain reads_u32 fun _ => .validated (fun value => ?_) fun _ _ => rfl
    cases value
    simp only [ElementsEvent.mk.injEq, and_assoc]

instance : CanonicalRecord MerkleProof where
  DecodeValid proof := proof.siblings.length ≤ 64
  reads := by
    refine .plain reads_u64 fun _ => .plain reads_u64 fun _ => ?_
    refine .plain (f := fun value : MerkleProof => UInt32.ofNat value.siblings.length) reads_u32
      fun count => ?_
    have counted {proof : MerkleProof} (small : proof.siblings.length ≤ 64)
        (same : UInt32.ofNat proof.siblings.length = count) :
        proof.siblings.length = count.toNat := by
      rw [← same, UInt32.toNat_ofNat_of_lt' (lt_of_le_of_lt small (by decide))]
    refine .checked ?_ fun passed => .field (reads_times (reads_fixed 32) count.toNat) ?_
      fun siblings sound => ?_
    · rintro value ⟨⟨⟨small, _⟩, _⟩, same⟩
      rw [rejectIf_eq_ok, ← counted small same]
      exact Nat.not_lt.mpr small
    · rintro value ⟨⟨⟨small, _⟩, _⟩, same⟩
      exact ⟨counted small same, fun _ _ => trivial⟩
    · have small := Nat.not_lt.mp ((rejectIf_eq_ok _ _ _).mp passed)
      refine .pure (fun value => ?_) fun _ _ => rfl
      cases value
      simp only [MerkleProof.mk.injEq, and_assoc]
      constructor
      · rintro ⟨_, first, second, _, rest⟩
        exact ⟨first, second, rest⟩
      · rintro ⟨first, second, rfl⟩
        rw [sound.1, UInt32.ofNat_toNat]
        exact ⟨small, first, second, rfl, rfl⟩

instance [Hashing] : CanonicalRecord ProtocolManifest where
  DecodeValid manifest := manifest.validate = .ok ()
  reads := by
    refine .constants reads_decodeManifestHeader ?_
    refine .plain reads_u64 fun _ => .plain (reads_fixed 32) fun _ => ?_
    refine .plain (reads_fixed 32) fun _ => .plain (reads_fixed 32) fun _ => ?_
    refine .plain reads_u8 fun _ => .plain (reads_fixed 20) fun _ => ?_
    refine .plain (reads_fixed 32) fun _ => .plain (reads_fixed 32) fun _ => ?_
    refine .plain (reads_fixed 32) fun _ => .plain (reads_fixed 20) fun _ => ?_
    refine .plain (reads_fixed 32) fun _ => .plain (reads_fixed 32) fun _ => ?_
    refine .plain (reads_fixed 20) fun _ => .plain (reads_fixed 32) fun _ => ?_
    refine .plain (reads_fixed 32) fun _ => .plain (reads_fixed 32) fun _ => ?_
    refine .plain (reads_fixed 32) fun _ => .plain reads_u16 fun _ => ?_
    refine .plain reads_u16 fun _ => .plain reads_u16 fun _ => ?_
    refine .plain (reads_fixed 20) fun _ => .plain reads_u16 fun _ => ?_
    refine .plain reads_u16 fun _ => .plain (reads_fixed 32) fun _ => ?_
    refine .plain reads_u8 fun _ => .plain reads_u64 fun _ => ?_
    refine .plain (reads_fixed 32) fun _ => .plain (reads_fixed 32) fun _ => ?_
    refine .plain (reads_fixed 32) fun _ => .plain (reads_fixed 32) fun _ => ?_
    refine .plain (reads_fixed 32) fun _ => .plain (reads_fixed 32) fun _ => ?_
    refine .plain (reads_fixed 32) fun _ => .plain reads_u32 fun _ => ?_
    refine .plain (reads_fixed 32) fun _ => .plain (reads_fixed 32) fun _ => ?_
    refine .plain reads_u64 fun _ => .plain (reads_fixed 32) fun _ => ?_
    refine .plain reads_u64 fun _ => .plain reads_u64 fun _ => ?_
    refine .plain reads_u32 fun _ => .plain reads_u64 fun _ => ?_
    refine .plain reads_u8 fun _ => .plain reads_u8 fun _ => ?_
    refine .plain reads_u64 fun _ => ?_
    refine .validated (fun value => ?_) fun _ _ => rfl
    rw [ProtocolManifest.validateDecoded, mapError_eq_ok]
    cases value
    simp only [ProtocolManifest.mk.injEq, and_assoc]

end Records

end Usdd.Core

import Usdd.Foundation.Mirrors
import Usdd.Core.CodecLaws
import Usdd.TypeScript.ElementsState
/-!
# Reading and writing bytes in TypeScript

The client's decoder takes slices off the front of its bytes and reads numbers from them; its
encoders check the range of a number before they write it. On the values of the Rust crate both
do what the crate does.
-/
namespace Usdd.TypeScript

open Usdd.Foundation Usdd.Core

section Writing

/-- `ENCODING_SCHEMA`. -/
def encodingSchema : Int := 2

/-- `assertPositiveU64`. -/
def assertPositiveU64 (value : Int) (name : String) : Except String Unit :=
  rejectIf (value ≤ 0 ∨ value ≥ u64Limit) (name ++ " must be a positive u64")

/-- `assertU32Number`. -/
def assertU32Number (value : Int) (name : String) : Except String Unit :=
  rejectIf (value < 0 ∨ value > 0xffffffff) (name ++ " must fit u32")

/-- `assertRequiredHash`. -/
def assertRequiredHash (bytes : List UInt8) (name : String) : Except String Unit := do
  assertLength bytes 32 name
  assertNonzero bytes name

/-- `uintBe`. -/
def uintBe (value : Int) (width : Nat) : Except String (List UInt8) := do
  rejectIf (value < 0 ∨ value ≥ 256 ^ width) "integer overflow"
  return beBytes width value.toNat

/-- `u16be`. -/
def u16be (value : Int) : Except String (List UInt8) := uintBe value 2

/-- `u32be`. -/
def u32be (value : Int) : Except String (List UInt8) := do
  assertU32Number value "u32"
  uintBe value 4

/-- `u64be`. -/
def u64be (value : Int) : Except String (List UInt8) := uintBe value 8

/-- `concat`, of parts that are made one after another. -/
def concat : List (Except String (List UInt8)) → Except String (List UInt8)
  | [] => .ok []
  | part :: parts => do
    let bytes ← part
    let rest ← concat parts
    return bytes ++ rest

/-- `encodeRecordHeader`. -/
def encodeRecordHeader (tag : Int) : Except String (List UInt8) :=
  concat [u16be encodingSchema, u16be tag]

/-- `encodeByteString`. -/
def encodeByteString (value : List UInt8) : Except String (List UInt8) := do
  rejectIf (value.length > 0xffffffff) "byte string exceeds u32"
  concat [u32be value.length, .ok value]

end Writing

section Reading

/-- `readUintBe`. -/
def readUintBe (bytes : List UInt8) : Int :=
  bytes.foldl (fun value byte => value * 256 + byte.toNat) 0

/-- The class `CanonicalDecoder`: what is left of its bytes. -/
abbrev CanonicalDecoder := Reader String

namespace CanonicalDecoder

/-- `CanonicalDecoder.take`. -/
def take (length : Nat) (name : String) : CanonicalDecoder (List UInt8) := fun bytes => do
  rejectIf (bytes.length < length) ("truncated " ++ name)
  return (bytes.take length, bytes.drop length)

/-- `CanonicalDecoder.fixed`. -/
def fixed (length : Nat) (name : String) : CanonicalDecoder (List UInt8) := take length name

/-- `CanonicalDecoder.u8`. -/
def u8 (name : String) : CanonicalDecoder Nat := do return ((← take 1 name).headD 0).toNat

/-- `CanonicalDecoder.u16`. -/
def u16 (name : String) : CanonicalDecoder Int := do return readUintBe (← take 2 name)

/-- `CanonicalDecoder.u32`. -/
def u32 (name : String) : CanonicalDecoder Int := do return readUintBe (← take 4 name)

/-- `CanonicalDecoder.u64`. -/
def u64 (name : String) : CanonicalDecoder Int := do return readUintBe (← take 8 name)

/-- `CanonicalDecoder.byteString`. -/
def byteString (name : String) : CanonicalDecoder (List UInt8) := do
  let length ← u32 (name ++ " length")
  take length.toNat name

end CanonicalDecoder

/-- `decodeExact`. -/
def decodeExact {α : Type} (bytes : List UInt8) (decode : CanonicalDecoder α) (name : String) :
    Except String α :=
  decode.exact (fun remaining => name ++ " has " ++ toString remaining ++ " trailing bytes") bytes

/-- `decodeRecordHeader`. -/
def decodeRecordHeader (expectedTag : Int) : CanonicalDecoder Unit := do
  let schema ← CanonicalDecoder.u16 "record schema"
  Reader.check (rejectIf (schema ≠ encodingSchema) "unsupported schema")
  let tag ← CanonicalDecoder.u16 "record tag"
  Reader.check (rejectIf (tag ≠ expectedTag) "wrong record tag")

end Reading

section Numbers

@[simp]
theorem assertPositiveU64_word (value : UInt64) (name : String) :
    assertPositiveU64 value.toNat name = .ok () ↔ value ≠ 0 := by
  have bound := value.toNat_lt
  have zero : value = 0 ↔ value.toNat = 0 := by rw [← UInt64.toNat_inj]; rfl
  rw [assertPositiveU64, rejectIf_eq_ok, u64Limit, ne_eq, zero]
  omega

theorem assertU32Number_word (value : UInt32) (name : String) :
    assertU32Number value.toNat name = .ok () := by
  have bound := value.toNat_lt
  rw [assertU32Number, rejectIf_eq_ok]
  omega

@[simp]
theorem assertRequiredHash_fixed (value : Hash32) (name : String) :
    assertRequiredHash value.bytes name = .ok () ↔ value ≠ .zero := by
  rw [assertRequiredHash, then_eq_ok, assertLength_fixed, assertNonzero_fixed]
  exact and_iff_right rfl

theorem uintBe_natCast {value width : Nat} (fits : value < 256 ^ width) :
    uintBe value width = .ok (beBytes width value) := by
  have inside : ¬((value : Int) < 0 ∨ (value : Int) ≥ 256 ^ width) := by
    have cast : ((256 ^ width : Nat) : Int) = 256 ^ width := by push_cast; rfl
    omega
  rw [uintBe, rejectIf, if_neg inside, Int.toNat_natCast]
  rfl

@[simp]
theorem u16be_word (value : UInt16) : u16be value.toNat = .ok (encode value) :=
  uintBe_natCast value.toNat_lt

@[simp]
theorem u32be_word (value : UInt32) : u32be value.toNat = .ok (encode value) := by
  rw [u32be, assertU32Number_word]
  exact uintBe_natCast value.toNat_lt

@[simp]
theorem u64be_word (value : UInt64) : u64be value.toNat = .ok (encode value) :=
  uintBe_natCast value.toNat_lt

/-- Parts that are all made are joined. -/
@[simp]
theorem concat_ok (parts : List (List UInt8)) :
    concat (parts.map .ok) = .ok parts.flatten := by
  induction parts with
  | nil => rfl
  | cons part parts ih =>
    rw [List.map_cons, concat, ih]
    rfl

theorem encodeRecordHeader_tag (tag : UInt16) :
    encodeRecordHeader tag.toNat = .ok (encodeHeader tag) := by
  have schema : u16be encodingSchema = .ok (encode Core.encodingSchema) :=
    u16be_word Core.encodingSchema
  rw [encodeRecordHeader, schema, u16be_word]
  have joined := concat_ok [encode Core.encodingSchema, encode tag]
  rw [List.flatten_cons, List.flatten_cons, List.flatten_nil, List.append_nil] at joined
  exact joined

theorem encodeByteString_eq {value : List UInt8} (fits : value.length < 2 ^ 32) :
    encodeByteString value = .ok (encode value) := by
  have length : u32be value.length = .ok (beBytes 4 value.length) := by
    have inside : ¬((value.length : Int) < 0 ∨ (value.length : Int) > 0xffffffff) := by omega
    rw [u32be, assertU32Number, rejectIf, if_neg inside]
    exact uintBe_natCast (by simpa using fits)
  have joined := concat_ok [beBytes 4 value.length, value]
  rw [List.flatten_cons, List.flatten_cons, List.flatten_nil, List.append_nil] at joined
  rw [encodeByteString, rejectIf, if_neg (by omega), length]
  exact joined

end Numbers

section Mirroring

theorem readUintBe_eq (bytes : List UInt8) : readUintBe bytes = beNat bytes := by
  have general : ∀ (bytes : List UInt8) (start : Int),
      bytes.foldl (fun (value : Int) (byte : UInt8) => value * 256 + (byte.toNat : Int)) start =
        start * 256 ^ bytes.length + beNat bytes := by
    intro bytes
    induction bytes with
    | nil => simp [beNat_nil]
    | cons byte bytes ih =>
      intro start
      rw [List.foldl_cons, ih, beNat_cons, List.length_cons]
      push_cast
      ring
  rw [readUintBe, general, Int.zero_mul, Int.zero_add]

theorem take_eq_ok {length : Nat} {name : String} {input part rest : List UInt8} :
    CanonicalDecoder.take length name input = .ok (part, rest) ↔
      part.length = length ∧ input = part ++ rest := by
  simp only [CanonicalDecoder.take]
  simp only [↓then_eq_ok, rejectIf_eq_ok, pure_eq_ok, Prod.mk.injEq, Nat.not_lt]
  exact front_iff

/-- Both read what they make of the next bytes. -/
theorem mirrors_take {α β : Type} {view : α → β} {length : Nat} {name : String}
    {make : List UInt8 → α} {make' : List UInt8 → β}
    (same : ∀ bytes : List UInt8, bytes.length = length → make' bytes = view (make bytes)) :
    Mirrors view (do return make (← Decoder.take length))
      (do return make' (← CanonicalDecoder.take length name)) := by
  intro input part rest
  simp only [Reader.bind_eq_ok, Reader.pure_eq_ok, take_eq_ok, reads_take length input _ _, id]
  constructor
  · rintro ⟨bytes, middle, ⟨width, rfl⟩, rfl, rfl⟩
    exact ⟨make bytes, ⟨bytes, middle, ⟨width, rfl⟩, rfl, rfl⟩, same bytes width⟩
  · rintro ⟨value, ⟨bytes, middle, ⟨width, rfl⟩, rfl, rfl⟩, rfl⟩
    exact ⟨bytes, middle, ⟨width, rfl⟩, same bytes width, rfl⟩

theorem mirrors_u8 (name : String) :
    Mirrors UInt8.toNat Decoder.u8 (CanonicalDecoder.u8 name) := by
  refine mirrors_take fun bytes width => ?_
  match bytes, width with
  | [byte], _ => simp [beNat]

theorem mirrors_u16 (name : String) :
    Mirrors (fun value : UInt16 => (value.toNat : Int)) Decoder.u16
      (CanonicalDecoder.u16 name) := by
  refine mirrors_take fun bytes width => ?_
  have fits := beNat_lt bytes
  rw [width] at fits
  rw [readUintBe_eq, UInt16.toNat_ofNat_of_lt' fits]

theorem mirrors_u32 (name : String) :
    Mirrors (fun value : UInt32 => (value.toNat : Int)) Decoder.u32
      (CanonicalDecoder.u32 name) := by
  refine mirrors_take fun bytes width => ?_
  have fits := beNat_lt bytes
  rw [width] at fits
  rw [readUintBe_eq, UInt32.toNat_ofNat_of_lt' fits]

theorem mirrors_u64 (name : String) :
    Mirrors (fun value : UInt64 => (value.toNat : Int)) Decoder.u64
      (CanonicalDecoder.u64 name) := by
  refine mirrors_take fun bytes width => ?_
  have fits := beNat_lt bytes
  rw [width] at fits
  rw [readUintBe_eq, UInt64.toNat_ofNat_of_lt' fits]

theorem mirrors_fixed (width : Nat) (name : String) :
    Mirrors FixedBytes.bytes (Decoder.fixed width) (CanonicalDecoder.fixed width name) := by
  have law : Mirrors FixedBytes.bytes (Decoder.fixed width)
      (do return id (← CanonicalDecoder.take width name)) := by
    refine mirrors_take fun bytes length => ?_
    have value : (FixedBytes.ofNat width (beNat bytes)).bytes = beBytes width (beNat bytes) := rfl
    rw [value, ← length, beBytes_beNat]
    rfl
  intro input part rest
  rw [← law, CanonicalDecoder.fixed, Reader.bind_eq_ok]
  simp only [Reader.pure_eq_ok, id]
  constructor
  · intro taken
    exact ⟨part, rest, taken, rfl, rfl⟩
  · rintro ⟨_, _, taken, rfl, rfl⟩
    exact taken

theorem mirrors_byteString (name : String) :
    Mirrors id Decoder.bytes (CanonicalDecoder.byteString name) := by
  refine .field (mirrors_u32 (name ++ " length")) fun length => ?_
  intro input part rest
  rw [Int.toNat_natCast, take_eq_ok]
  simp only [reads_take length.toNat input _ _, id, exists_eq_right']

theorem mirrors_times {α β : Type} {view : α → β} {read : Decoder α}
    {read' : CanonicalDecoder β} (law : Mirrors view read read') (count : Nat) :
    Mirrors (List.map view) (Decoder.times count read) (Reader.times count read') :=
  times_eq count read ▸ law.times count

theorem mirrors_decodeHeader (tag : UInt16) :
    Mirrors id (decodeHeader tag) (decodeRecordHeader tag.toNat) := by
  refine .field (mirrors_u16 _) fun schema => .checked ?_ fun _ => ?_
  · have same : (Core.encodingSchema.toNat : Int) = encodingSchema := rfl
    rw [rejectIf_eq_ok, rejectIf_eq_ok, not_not, not_not, ← same, Int.natCast_inj,
      UInt16.toNat_inj]
  · refine .field (mirrors_u16 _) fun found => .check ?_
    rw [rejectIf_eq_ok, rejectIf_eq_ok, not_not, not_not, Int.natCast_inj, UInt16.toNat_inj]

end Mirroring

end Usdd.TypeScript

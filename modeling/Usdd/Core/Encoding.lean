import Usdd.Foundation.Checks
import Usdd.Core.Hash
/-!
# Canonical encoding

Integers are big-endian and of fixed width, variable byte strings carry a `u32` length, and a
record is the concatenation of its fields. A decoder consumes bytes from the front and either
returns a value with the bytes it left or names the reason it stopped; a record decoder also
validates the value it read.
-/
namespace Usdd.Core

open Usdd.Foundation

/-- `encoding::DecodeError`. -/
inductive DecodeError where
  | unexpectedEof (needed remaining : Nat)
  | trailingBytes (count : Nat)
  | invalidTag (typeName : String) (tag : UInt64)
  | invalidLength (expected actual : Nat)
  | lengthOverflow
  | invalidValue (message : String)
deriving DecidableEq

/-- `encoding::CanonicalEncode`, as the bytes a value appends. The encoders of counts and
lengths abort the Rust program on a value that does not fit; here such a value is written
modulo the width. -/
class CanonicalEncode (α : Type) where
  /-- The bytes of a value. -/
  encode : α → List UInt8

export CanonicalEncode (encode)

/-- `encoding::Decoder`: the bytes that remain, and the reason decoding stopped. -/
abbrev Decoder := StateT (List UInt8) (Except DecodeError)

/-- `encoding::CanonicalDecode`. -/
class CanonicalDecode (α : Type) where
  /-- Read a value from the front of the bytes. -/
  decodeFrom : Decoder α

/-- `CanonicalDecode::decode_exact`: all bytes must be consumed. -/
def decodeExact (α : Type) [CanonicalDecode α] (bytes : List UInt8) : Except DecodeError α := do
  let (value, remaining) ← (CanonicalDecode.decodeFrom : Decoder α).run bytes
  rejectIf (remaining.length ≠ 0) (DecodeError.trailingBytes remaining.length)
  return value

namespace Decoder

/-- `Decoder::take`. -/
def take (length : Nat) : Decoder (List UInt8) := fun bytes => do
  rejectIf (bytes.length < length) (DecodeError.unexpectedEof length bytes.length)
  return (bytes.take length, bytes.drop length)

/-- `Decoder::u8`. -/
def u8 : Decoder UInt8 := do return UInt8.ofNat (beNat (← take 1))

/-- `Decoder::u16`. -/
def u16 : Decoder UInt16 := do return UInt16.ofNat (beNat (← take 2))

/-- `Decoder::u32`. -/
def u32 : Decoder UInt32 := do return UInt32.ofNat (beNat (← take 4))

/-- `Decoder::u64`. -/
def u64 : Decoder UInt64 := do return UInt64.ofNat (beNat (← take 8))

/-- `Decoder::fixed`. -/
def fixed (width : Nat) : Decoder (FixedBytes width) := do
  return FixedBytes.ofNat width (beNat (← take width))

/-- `Decoder::bytes`. -/
def bytes : Decoder (List UInt8) := do take (← u32).toNat

/-- Stop with an error when a check of a decoded value fails. -/
def check (computation : Except DecodeError Unit) : Decoder Unit := StateT.lift computation

/-- The value read `count` times in a row. -/
def times {α : Type} (count : Nat) (one : Decoder α) : Decoder (List α) :=
  match count with
  | 0 => return []
  | count + 1 => do
    let head ← one
    let tail ← times count one
    return head :: tail

end Decoder

instance : CanonicalEncode UInt8 := ⟨fun value => [value]⟩
instance : CanonicalEncode UInt16 := ⟨fun value => beBytes 2 value.toNat⟩
instance : CanonicalEncode UInt32 := ⟨fun value => beBytes 4 value.toNat⟩
instance : CanonicalEncode UInt64 := ⟨fun value => beBytes 8 value.toNat⟩
instance {width : Nat} : CanonicalEncode (FixedBytes width) := ⟨FixedBytes.bytes⟩

/-- `Vec<u8>::encode_to`: a `u32` length and the bytes. -/
instance : CanonicalEncode (List UInt8) :=
  ⟨fun bytes => beBytes 4 bytes.length ++ bytes⟩

instance {width : Nat} : CanonicalDecode (FixedBytes width) := ⟨Decoder.fixed width⟩

/-- `types::encode_header`. -/
def encodeHeader (tag : UInt16) : List UInt8 := encode encodingSchema ++ encode tag

/-- `types::decode_header`. -/
def decodeHeader (expectedTag : UInt16) : Decoder Unit := do
  let schema ← Decoder.u16
  Decoder.check (rejectIf (schema ≠ encodingSchema)
    (.invalidValue "unsupported encoding schema"))
  let tag ← Decoder.u16
  Decoder.check (rejectIf (tag ≠ expectedTag) (.invalidTag "record" tag.toUInt64))

section Widths

@[simp]
theorem encode_u8_length (value : UInt8) : (encode value).length = 1 := rfl

@[simp]
theorem encode_u16_length (value : UInt16) : (encode value).length = 2 := beBytes_length _ _

@[simp]
theorem encode_u32_length (value : UInt32) : (encode value).length = 4 := beBytes_length _ _

@[simp]
theorem encode_u64_length (value : UInt64) : (encode value).length = 8 := beBytes_length _ _

@[simp]
theorem encode_fixed_length {width : Nat} (value : FixedBytes width) :
    (encode value).length = width := value.length_eq

@[simp]
theorem encode_u32_inj {left right : UInt32} : encode left = encode right ↔ left = right := by
  refine ⟨fun same => UInt32.toNat_inj.mp ?_, fun same => same ▸ rfl⟩
  exact beBytes_inj left.toNat_lt right.toNat_lt same

@[simp]
theorem encode_u64_inj {left right : UInt64} : encode left = encode right ↔ left = right := by
  refine ⟨fun same => UInt64.toNat_inj.mp ?_, fun same => same ▸ rfl⟩
  exact beBytes_inj left.toNat_lt right.toNat_lt same

@[simp]
theorem encode_fixed_inj {width : Nat} {left right : FixedBytes width} :
    encode left = encode right ↔ left = right :=
  ⟨fun same => FixedBytes.ext same, fun same => same ▸ rfl⟩

end Widths

end Usdd.Core

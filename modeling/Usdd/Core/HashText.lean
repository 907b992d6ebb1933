import Usdd.Core.Encoding
import Usdd.Foundation.HexText
import Usdd.Foundation.Text
/-!
# Hashes and addresses as text

A text is read as the bytes of its UTF-8 encoding, two digits a byte, behind an optional prefix.
Hashes are written without the prefix and addresses with it.
-/
namespace Usdd.Core

open Usdd.Foundation

/-- `hash::HexError`. -/
inductive HexError where
  | oddLength
  | invalidDigit (index : Nat)
  | wrongLength (expected actual : Nat)
deriving DecidableEq

/-- `hash::hex_digit`. -/
def hexByteDigit (value : UInt8) : Option UInt8 :=
  if 48 ≤ value ∧ value ≤ 57 then some (value - 48)
  else if 97 ≤ value ∧ value ≤ 102 then some (value - 97 + 10)
  else if 65 ≤ value ∧ value ≤ 70 then some (value - 65 + 10)
  else none

/-- The bytes of a text in UTF-8. -/
def utf8 (text : List Char) : List UInt8 := text.flatMap String.utf8EncodeChar

/-- The loop of `hash::decode_hex`, from a byte on. -/
def decodePairs : Nat → List UInt8 → Except HexError (List UInt8)
  | index, first :: second :: rest => do
    let high ← okOr (hexByteDigit first) (.invalidDigit index)
    let low ← okOr (hexByteDigit second) (.invalidDigit (index + 1))
    let output ← decodePairs (index + 2) rest
    return ((high <<< 4) ||| low) :: output
  | _, _ => .ok []

/-- `hash::decode_hex`. -/
def decodeHex (value : List Char) : Except HexError (List UInt8) := do
  let bytes := utf8 ((stripStart "0x".toList value).getD value)
  rejectIf (bytes.length % 2 ≠ 0) .oddLength
  decodePairs 0 bytes

/-- `hash::encode_hex`. -/
def encodeHex (value : List UInt8) : List Char := lowerHex value

/-- `Hash32::from_str` and `EthAddress::from_str`, by their width. -/
def fixedFromStr (width : Nat) (value : List Char) : Except HexError (FixedBytes width) := do
  let bytes ← decodeHex value
  if length : bytes.length = width then return ⟨bytes, length⟩
  else .error (.wrongLength width bytes.length)

/-- `Hash32::from_str`. -/
def hashFromStr (value : List Char) : Except HexError Hash32 := fixedFromStr 32 value

/-- `EthAddress::from_str`. -/
def addressFromStr (value : List Char) : Except HexError EthAddress := fixedFromStr 20 value

/-- `Hash32::to_hex`, which displays the hash. -/
def hashToHex (hash : Hash32) : List Char := encodeHex hash.bytes

section Laws

/-- A text, with or without its prefix, stands for bytes. -/
def Spells (text : List Char) (bytes : List UInt8) : Prop :=
  parseHex ((stripStart "0x".toList text).getD text) = some bytes

/-- A character below 128 is one byte of UTF-8, another one begins with a byte from 128 on. -/
theorem utf8EncodeChar_cases (char : Char) :
    (char.toNat < 128 ∧ String.utf8EncodeChar char = [UInt8.ofNat char.toNat]) ∨
      128 ≤ char.toNat ∧ ∃ first rest, String.utf8EncodeChar char = first :: rest ∧
        128 ≤ first.toNat := by
  have fits : char.val.toNat < 0x110000 := by
    have valid : Nat.isValidChar char.val.toNat := char.valid
    unfold Nat.isValidChar at valid
    omega
  unfold String.utf8EncodeChar
  change (char.val.toNat < 128 ∧ _) ∨ 128 ≤ char.val.toNat ∧ _
  by_cases one : char.val.toNat ≤ 0x7f
  · refine Or.inl ⟨by omega, ?_⟩
    rw [if_pos one]
    rfl
  · refine Or.inr ⟨by omega, ?_⟩
    rw [if_neg one]
    split
    · refine ⟨_, _, rfl, ?_⟩
      rw [UInt8.toNat_ofNat_of_lt' (by change _ < 256; omega)]
      omega
    · split
      · refine ⟨_, _, rfl, ?_⟩
        rw [UInt8.toNat_ofNat_of_lt' (by change _ < 256; omega)]
        omega
      · refine ⟨_, _, rfl, ?_⟩
        rw [UInt8.toNat_ofNat_of_lt' (by change _ < 256; omega)]
        omega

/-- The value of a digit is the same by its character and by its byte. -/
theorem hexByteDigit_ascii {char : Char} (ascii : char.toNat < 128) :
    (hexByteDigit (UInt8.ofNat char.toNat)).map UInt8.toNat = hexDigit char := by
  have table : ∀ number < 128,
      (hexByteDigit (UInt8.ofNat number)).map UInt8.toNat = hexDigit (Char.ofNat number) := by
    decide +kernel
  have entry := table char.toNat ascii
  rwa [Char.ofNat_toNat] at entry

theorem hexByteDigit_high {value : UInt8} (high : 128 ≤ value.toNat) : hexByteDigit value = none := by
  have beyond : ∀ last : UInt8, last.toNat < 128 → ¬value ≤ last := by
    intro last small below
    rw [UInt8.le_iff_toNat_le] at below
    omega
  unfold hexByteDigit
  rw [if_neg fun range => beyond 57 (by decide) range.2,
    if_neg fun range => beyond 102 (by decide) range.2,
    if_neg fun range => beyond 70 (by decide) range.2]

/-- A character beyond 127 is no digit. -/
theorem hexDigit_high {char : Char} (high : 128 ≤ char.toNat) : hexDigit char = none := by
  cases found : hexDigit char with
  | none => rfl
  | some value =>
    obtain ⟨small, lower⟩ := hexDigit_eq_some.mp found
    have known : ∀ value < 16, (Nat.digitChar value).toNat < 128 := by decide
    have unchanged : char.toLower = char := by
      unfold Char.toLower
      refine dif_neg fun range => ?_
      have order : char.toNat ≤ 'Z'.toNat := range.2
      have last : 'Z'.toNat = 90 := rfl
      omega
    have below := known value small
    rw [← lower, unchanged] at below
    omega

theorem joined_digits {high low : UInt8} (highFits : high.toNat < 16) (lowFits : low.toNat < 16) :
    (high <<< 4) ||| low = UInt8.ofNat (16 * high.toNat + low.toNat) := by
  have table : ∀ one < 16, ∀ other < 16,
      (UInt8.ofNat one <<< 4) ||| UInt8.ofNat other = UInt8.ofNat (16 * one + other) := by
    decide +kernel
  have entry := table high.toNat highFits low.toNat lowFits
  rwa [UInt8.ofNat_toNat, UInt8.ofNat_toNat] at entry

/-- A byte from 128 on ends the loop with an error wherever it stands in its pair. -/
theorem decodePairs_high {index : Nat} {first second : UInt8} {rest bytes : List UInt8}
    (high : 128 ≤ first.toNat ∨ 128 ≤ second.toNat) :
    decodePairs index (first :: second :: rest) ≠ .ok bytes := by
  intro decoded
  simp only [decodePairs, bind_eq_ok, okOr_eq_ok] at decoded
  obtain ⟨one, firstFound, other, secondFound, _⟩ := decoded
  cases high with
  | inl high =>
    rw [hexByteDigit_high high] at firstFound
    cases firstFound
  | inr high =>
    rw [hexByteDigit_high high] at secondFound
    cases secondFound

/-- A digit of a text is the digit of its byte, and fits in half a byte. -/
theorem hexByteDigit_eq_some {char : Char} (ascii : char.toNat < 128) {value : Nat} :
    hexDigit char = some value ↔
      ∃ byte, hexByteDigit (UInt8.ofNat char.toNat) = some byte ∧ byte.toNat = value := by
  rw [← hexByteDigit_ascii ascii, Option.map_eq_some_iff]

theorem utf8_cons (char : Char) (rest : List Char) :
    utf8 (char :: rest) = String.utf8EncodeChar char ++ utf8 rest := List.flatMap_cons

/-- Decoding the bytes of a text pair by pair is parsing its digits: a character of several bytes
is a digit for neither. -/
theorem decodePairs_eq_ok {index : Nat} {text : List Char} {bytes : List UInt8}
    (even : (utf8 text).length % 2 = 0) :
    decodePairs index (utf8 text) = .ok bytes ↔ parseHex text = some bytes := by
  induction text using parseHex.induct generalizing index bytes with
  | case1 =>
    change Except.ok [] = Except.ok bytes ↔ some [] = some bytes
    rw [Except.ok.injEq, Option.some.injEq]
  | case2 digit =>
    have nothing : parseHex [digit] ≠ some bytes := by
      intro wrong
      cases wrong
    refine iff_of_false ?_ nothing
    rw [utf8_cons] at even ⊢
    rcases utf8EncodeChar_cases digit with ⟨_, single⟩ | ⟨_, first, rest, several, high⟩
    · rw [single] at even
      cases even
    · rw [several] at even ⊢
      cases rest with
      | nil => cases even
      | cons second rest => exact decodePairs_high (.inl high)
  | case3 high low rest ih =>
    rw [utf8_cons] at even ⊢
    rcases utf8EncodeChar_cases high with ⟨highAscii, single⟩ | ⟨beyond, first, more, several, large⟩
    · rw [single, utf8_cons] at even ⊢
      rcases utf8EncodeChar_cases low with ⟨lowAscii, single'⟩ | ⟨beyond, first, more, several, large⟩
      · rw [single'] at even ⊢
        have evenRest : (utf8 rest).length % 2 = 0 := by
          simp only [List.length_append, List.length_singleton] at even
          omega
        simp only [List.singleton_append, decodePairs, bind_eq_ok, okOr_eq_ok, pure_eq_ok,
          ih evenRest, parseHex, Option.bind_eq_bind, Option.bind_eq_some_iff, Option.pure_def,
          Option.some.injEq, hexByteDigit_eq_some highAscii, hexByteDigit_eq_some lowAscii]
        constructor
        · rintro ⟨one, highFound, other, lowFound, output, parsed, rfl⟩
          have oneFits := (hexDigit_eq_some.mp
            ((hexByteDigit_eq_some highAscii).mpr ⟨one, highFound, rfl⟩)).1
          have otherFits := (hexDigit_eq_some.mp
            ((hexByteDigit_eq_some lowAscii).mpr ⟨other, lowFound, rfl⟩)).1
          refine ⟨_, ⟨one, highFound, rfl⟩, _, ⟨other, lowFound, rfl⟩, output, parsed, ?_⟩
          rw [joined_digits oneFits otherFits]
        · rintro ⟨_, ⟨one, highFound, rfl⟩, _, ⟨other, lowFound, rfl⟩, output, parsed, rfl⟩
          have oneFits := (hexDigit_eq_some.mp
            ((hexByteDigit_eq_some highAscii).mpr ⟨one, highFound, rfl⟩)).1
          have otherFits := (hexDigit_eq_some.mp
            ((hexByteDigit_eq_some lowAscii).mpr ⟨other, lowFound, rfl⟩)).1
          refine ⟨one, highFound, other, lowFound, output, parsed, ?_⟩
          rw [joined_digits oneFits otherFits]
      · have nothing : parseHex (high :: low :: rest) ≠ some bytes := by
          simp [parseHex, hexDigit_high beyond]
        refine iff_of_false ?_ nothing
        rw [several]
        exact decodePairs_high (.inr large)
    · have nothing : parseHex (high :: low :: rest) ≠ some bytes := by
        simp [parseHex, hexDigit_high beyond]
      refine iff_of_false ?_ nothing
      rw [several] at even ⊢
      rw [List.cons_append] at even ⊢
      cases tail : more ++ utf8 (low :: rest) with
      | nil =>
        rw [tail] at even
        cases even
      | cons second others => exact decodePairs_high (.inl large)

theorem parseHex_length {text : List Char} {bytes : List UInt8}
    (parsed : parseHex text = some bytes) :
    (utf8 text).length = 2 * bytes.length := by
  induction text using parseHex.induct generalizing bytes with
  | case1 =>
    cases parsed
    rfl
  | case2 digit => cases parsed
  | case3 high low rest ih =>
    simp only [parseHex, Option.bind_eq_bind, Option.bind_eq_some_iff, Option.pure_def,
      Option.some.injEq] at parsed
    obtain ⟨_, highFound, _, lowFound, others, restParsed, rfl⟩ := parsed
    have single : ∀ {digit : Char} {value : Nat}, hexDigit digit = some value →
        (String.utf8EncodeChar digit).length = 1 := by
      intro digit value found
      rcases utf8EncodeChar_cases digit with ⟨_, one⟩ | ⟨beyond, _⟩
      · rw [one, List.length_singleton]
      · rw [hexDigit_high beyond] at found
        cases found
    rw [utf8_cons, utf8_cons, List.length_append, List.length_append, single highFound,
      single lowFound, ih restParsed, List.length_cons]
    omega

/-- A text decodes to the bytes it stands for. -/
theorem decodeHex_eq_ok {text : List Char} {bytes : List UInt8} :
    decodeHex text = .ok bytes ↔ Spells text bytes := by
  unfold decodeHex Spells
  simp only [↓then_eq_ok, rejectIf_eq_ok, ne_eq, not_not]
  constructor
  · rintro ⟨even, decoded⟩
    exact (decodePairs_eq_ok even).mp decoded
  · intro parsed
    have even : (utf8 ((stripStart "0x".toList text).getD text)).length % 2 = 0 := by
      rw [parseHex_length parsed]
      omega
    exact ⟨even, (decodePairs_eq_ok even).mpr parsed⟩

/-- A text of an address or a hash names the bytes it stands for, if they are as many. -/
theorem fixedFromStr_eq_ok {width : Nat} {text : List Char} {value : FixedBytes width} :
    fixedFromStr width text = .ok value ↔ Spells text value.bytes := by
  unfold fixedFromStr
  simp only [bind_eq_ok, decodeHex_eq_ok]
  constructor
  · rintro ⟨bytes, spells, made⟩
    split at made
    · cases made
      exact spells
    · cases made
  · intro spells
    refine ⟨_, spells, ?_⟩
    rw [dif_pos value.length_eq]
    rfl

/-- No written text starts with the prefix. -/
theorem stripStart_lowerHex (bytes : List UInt8) :
    stripStart "0x".toList (lowerHex bytes) = none := by
  have digits : ∀ value < 16, Nat.digitChar value ≠ 'x' := by decide
  cases bytes with
  | nil => rfl
  | cons byte bytes =>
    have bound := byte.toNat_lt
    have apart := digits (byte.toNat % 16) (by omega)
    have start : "0x".toList = ['0', 'x'] := rfl
    rw [lowerHex, List.flatMap_cons, start]
    refine if_neg fun leads => ?_
    simp only [List.isPrefixOf, List.cons_append, Bool.and_eq_true, beq_iff_eq] at leads
    exact apart leads.2.1.symm

/-- Written bytes are spelt by their text, also behind the prefix. -/
theorem spells_lowerHex (bytes : List UInt8) : Spells (lowerHex bytes) bytes := by
  unfold Spells
  rw [stripStart_lowerHex]
  exact parseHex_eq_some.mpr (lowerHex_toLower bytes)

/-- A hash that is printed is read back. -/
theorem hashFromStr_toHex (hash : Hash32) : hashFromStr (hashToHex hash) = .ok hash :=
  fixedFromStr_eq_ok.mpr (spells_lowerHex hash.bytes)

end Laws

end Usdd.Core

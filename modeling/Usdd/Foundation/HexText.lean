import Mathlib.Data.List.Basic
/-!
# Hexadecimal text

Two digits stand for a byte, in lower or upper case, and a byte is written in lower case. A text
that is written bytes up to the case of its letters parses as these bytes, and no other does.
-/
namespace Usdd.Foundation

/-- The value of a hexadecimal digit. -/
def hexDigit (digit : Char) : Option Nat :=
  if '0' ≤ digit ∧ digit ≤ '9' then some (digit.toNat - 48)
  else if 'a' ≤ digit ∧ digit ≤ 'f' then some (digit.toNat - 87)
  else if 'A' ≤ digit ∧ digit ≤ 'F' then some (digit.toNat - 55)
  else none

/-- The bytes of a text of digits. -/
def parseHex : List Char → Option (List UInt8)
  | [] => some []
  | [_] => none
  | high :: low :: rest => do
    let highValue ← hexDigit high
    let lowValue ← hexDigit low
    let bytes ← parseHex rest
    return UInt8.ofNat (16 * highValue + lowValue) :: bytes

/-- The text of bytes. -/
def lowerHex (bytes : List UInt8) : List Char :=
  bytes.flatMap fun byte =>
    [Nat.digitChar (byte.toNat / 16), Nat.digitChar (byte.toNat % 16)]

section Laws

/-- The digits of a value are its lower-case digit and what becomes it in lower case. -/
theorem hexDigit_eq_some {digit : Char} {value : Nat} :
    hexDigit digit = some value ↔ value < 16 ∧ digit.toLower = Nat.digitChar value := by
  have table : ∀ number < 128, hexDigit (Char.ofNat number) = none ∧
        (∀ value < 16, (Char.ofNat number).toLower ≠ Nat.digitChar value) ∨
      ∃ value < 16, hexDigit (Char.ofNat number) = some value ∧
        ∀ other < 16, (Char.ofNat number).toLower = Nat.digitChar other ↔ other = value := by
    decide +kernel
  by_cases ascii : digit.toNat < 128
  · have entry := table digit.toNat ascii
    rw [Char.ofNat_toNat] at entry
    rcases entry with ⟨missing, other⟩ | ⟨found, bound, seen, single⟩
    · rw [missing]
      constructor
      · intro wrong
        cases wrong
      · rintro ⟨small, same⟩
        exact absurd same (other value small)
    · rw [seen, Option.some.injEq]
      constructor
      · rintro rfl
        exact ⟨bound, (single found bound).mpr rfl⟩
      · rintro ⟨small, same⟩
        exact ((single value small).mp same).symm
  · have beyond : ∀ last : Char, last.toNat < 128 → ¬digit ≤ last := fun last small below => by
      have order : digit.toNat ≤ last.toNat := below
      omega
    have missing : hexDigit digit = none := by
      unfold hexDigit
      rw [if_neg fun range => beyond '9' (by decide) range.2,
        if_neg fun range => beyond 'f' (by decide) range.2,
        if_neg fun range => beyond 'F' (by decide) range.2]
    have unchanged : digit.toLower = digit := by
      unfold Char.toLower
      exact dif_neg fun range => beyond 'Z' (by decide) range.2
    rw [missing, unchanged]
    constructor
    · intro wrong
      cases wrong
    · rintro ⟨small, rfl⟩
      have known : ∀ value < 16, (Nat.digitChar value).toNat < 128 := by decide
      exact absurd (known value small) ascii

/-- A text parses as the bytes whose text it is in lower case. -/
theorem parseHex_eq_some {text : List Char} {bytes : List UInt8} :
    parseHex text = some bytes ↔ text.map Char.toLower = lowerHex bytes := by
  induction text using parseHex.induct generalizing bytes with
  | case1 =>
    cases bytes with
    | nil => simp [parseHex, lowerHex]
    | cons byte bytes => simp [parseHex, lowerHex]
  | case2 digit =>
    cases bytes with
    | nil => simp [parseHex, lowerHex]
    | cons byte bytes => simp [parseHex, lowerHex]
  | case3 high low rest ih =>
    simp only [parseHex, Option.bind_eq_bind, Option.bind_eq_some_iff, hexDigit_eq_some, ih,
      Option.pure_def, Option.some.injEq, List.map_cons]
    constructor
    · rintro ⟨highValue, ⟨highFits, highSame⟩, lowValue, ⟨lowFits, lowSame⟩, others, same, rfl⟩
      have value : (UInt8.ofNat (16 * highValue + lowValue)).toNat = 16 * highValue + lowValue :=
        UInt8.toNat_ofNat_of_lt' (by change _ < 256; omega)
      have quotient : (16 * highValue + lowValue) / 16 = highValue := by omega
      have remainder : (16 * highValue + lowValue) % 16 = lowValue := by omega
      rw [lowerHex, List.flatMap_cons, value, quotient, remainder, highSame, lowSame, same]
      rfl
    · intro same
      cases bytes with
      | nil => cases same
      | cons byte bytes =>
        have pieces : high.toLower :: low.toLower :: rest.map Char.toLower =
            Nat.digitChar (byte.toNat / 16) :: Nat.digitChar (byte.toNat % 16) ::
              lowerHex bytes := same
        simp only [List.cons.injEq] at pieces
        have bound := byte.toNat_lt
        refine ⟨_, ⟨by omega, pieces.1⟩, _, ⟨by omega, pieces.2.1⟩, bytes, pieces.2.2, ?_⟩
        rw [Nat.div_add_mod, UInt8.ofNat_toNat]

/-- An even number of digits parses. -/
theorem parseHex_isSome {text : List Char} (even : text.length % 2 = 0)
    (digits : ∀ digit ∈ text, (hexDigit digit).isSome = true) : (parseHex text).isSome = true := by
  induction text using parseHex.induct with
  | case1 => rfl
  | case2 digit => cases even
  | case3 high low rest ih =>
    simp only [List.forall_mem_cons, List.length_cons] at even digits
    obtain ⟨highValue, highFound⟩ := Option.isSome_iff_exists.mp digits.1
    obtain ⟨lowValue, lowFound⟩ := Option.isSome_iff_exists.mp digits.2.1
    obtain ⟨bytes, parsed⟩ := Option.isSome_iff_exists.mp (ih (by omega) digits.2.2)
    simp [parseHex, highFound, lowFound, parsed]

/-- Written bytes are in lower case. -/
theorem lowerHex_toLower (bytes : List UInt8) :
    (lowerHex bytes).map Char.toLower = lowerHex bytes := by
  have table : ∀ value < 16, (Nat.digitChar value).toLower = Nat.digitChar value := by decide
  induction bytes with
  | nil => rfl
  | cons byte bytes ih =>
    have bound := byte.toNat_lt
    rw [lowerHex, List.flatMap_cons, List.map_append]
    refine congrArg₂ (· ++ ·) ?_ ih
    rw [List.map_cons, List.map_singleton, table _ (by omega), table _ (by omega)]

end Laws

end Usdd.Foundation

import Usdd.BitcoinBmm.Signet
/-!
# Strict DER signatures

The test of a signature indexes at offsets it takes from the signature itself. Every read is in
bounds, and the signatures that pass are those of the BIP66 grammar: a header and a total
length, two counted minimal integers, and a hash type.
-/
namespace Usdd.Verif

open Usdd.Foundation Usdd.BitcoinBmm

/-- A minimal nonnegative big-endian integer: the top bit is clear, and a leading zero byte stands
only before a byte whose top bit is set. -/
structure MinimalInteger (bytes : List UInt8) : Prop where
  nonempty : bytes ≠ []
  nonnegative : ∀ first, bytes[0]? = some first → first.toNat < 0x80
  shortest : ∀ next, bytes[0]? = some 0 → bytes[1]? = some next → 0x80 ≤ next.toNat

/-- The BIP66 grammar of a signature with its hash type. -/
def StrictDer (bytes : List UInt8) : Prop :=
  ∃ (total lengthR lengthS hashType : UInt8) (integerR integerS : List UInt8),
    bytes = [0x30, total, 0x02, lengthR] ++ integerR ++ [0x02, lengthS] ++ integerS ++ [hashType] ∧
    total.toNat = bytes.length - 3 ∧
    lengthR.toNat = integerR.length ∧ 1 ≤ integerR.length ∧
    lengthS.toNat = integerS.length ∧ 1 ≤ integerS.length ∧
    9 ≤ bytes.length ∧ bytes.length ≤ 73 ∧
    MinimalInteger integerR ∧ MinimalInteger integerS

/-- The top bit of a byte is set from 0x80 on. -/
theorem topBit_ne_zero (byte : UInt8) : byte &&& 0x80 ≠ 0 ↔ 0x80 ≤ byte.toNat := by
  have all : ∀ number : Fin 256, number.val &&& 128 ≠ 0 ↔ 128 ≤ number.val := by
    decide +kernel
  have one := all ⟨byte.toNat, byte.toNat_lt⟩
  rw [Ne, ← UInt8.toNat_inj, UInt8.toNat_and]
  exact one

/-- An integer that stands in a signature is read in bounds and tested for minimality. -/
theorem misencodedInteger_eq (before integer after : List UInt8) (nonempty : integer ≠ []) :
    ∃ wrong, misencodedInteger (before ++ (integer ++ after)) before.length integer.length =
      some wrong ∧ (wrong = false ↔ MinimalInteger integer) := by
  have reads : ∀ offset, offset < integer.length →
      (before ++ (integer ++ after))[before.length + offset]? = integer[offset]? := by
    intro offset inside
    rw [List.getElem?_append_right (Nat.le_add_right ..), Nat.add_sub_cancel_left,
      List.getElem?_append_left inside]
  have positive := List.length_pos_iff.mpr nonempty
  have start := reads 0 positive
  rw [Nat.add_zero] at start
  unfold misencodedInteger
  rw [start]
  cases integer with
  | nil => exact absurd rfl nonempty
  | cons first rest =>
    simp only [List.getElem?_cons_zero, Option.bind_eq_bind, Option.bind_some]
    by_cases negative : first &&& 0x80 ≠ 0
    · rw [if_pos negative]
      refine ⟨true, rfl, ?_⟩
      have large := (topBit_ne_zero first).mp negative
      constructor
      · intro absurdity
        cases absurdity
      · intro minimal
        have small := minimal.nonnegative first rfl
        omega
    · rw [if_neg negative]
      have small : first.toNat < 0x80 := by
        rw [topBit_ne_zero] at negative
        omega
      by_cases zero : (first :: rest).length > 1 ∧ first = 0
      · rw [if_pos zero, reads 1 zero.1]
        cases rest with
        | nil => simp at zero
        | cons second more =>
          refine ⟨_, rfl, ?_⟩
          rw [decide_eq_false_iff_not, ← Ne, topBit_ne_zero]
          constructor
          · intro large
            refine ⟨List.cons_ne_nil _ _, ?_, ?_⟩
            · intro found same
              cases same
              exact small
            · intro next _ same
              cases same
              exact large
          · intro minimal
            exact minimal.shortest second (by rw [zero.2]; rfl) rfl
      · rw [if_neg zero]
        refine ⟨false, rfl, iff_of_true rfl ⟨List.cons_ne_nil _ _, ?_, ?_⟩⟩
        · intro found same
          cases same
          exact small
        · intro next isZero second
          cases rest with
          | nil => cases second
          | cons found more =>
            exact absurd ⟨by simp, Option.some.inj isZero⟩ zero

/-- A signature whose first counted integer fits: the reads that follow are in bounds. -/
theorem strictDerEncoding_parts {total lengthR markerS lengthS : UInt8}
    {header markerR : UInt8} {integerR rest bytes : List UInt8}
    (parts : bytes = [header, total, markerR, lengthR] ++ (integerR ++ markerS :: lengthS :: rest))
    (counted : lengthR.toNat = integerR.length) (atLeast : 9 ≤ bytes.length)
    (atMost : bytes.length ≤ 73) :
    ∃ accepted, strictDerEncoding bytes = some accepted ∧
      (accepted = true ↔ header = 0x30 ∧ total.toNat = bytes.length - 3 ∧ markerR = 0x02 ∧
        integerR ≠ [] ∧ markerS = 0x02 ∧ rest.length = lengthS.toNat + 1 ∧
        lengthS.toNat ≠ 0 ∧ MinimalInteger integerR ∧
        MinimalInteger (rest.take lengthS.toNat)) := by
  have size : bytes.length = 4 + integerR.length + 2 + rest.length := by
    rw [parts]
    simp only [List.length_append, List.length_cons, List.length_nil]
    omega
  have byte0 : bytes[0]? = some header := by rw [parts]; rfl
  have byte1 : bytes[1]? = some total := by rw [parts]; rfl
  have byte2 : bytes[2]? = some markerR := by rw [parts]; rfl
  have byte3 : bytes[3]? = some lengthR := by rw [parts]; rfl
  have after : ∀ offset, bytes[4 + integerR.length + offset]? =
      (markerS :: lengthS :: rest)[offset]? := by
    intro offset
    rw [parts, List.getElem?_append_right (by simp; omega),
      List.getElem?_append_right (by simp; omega)]
    congr 1
    simp only [List.length_cons, List.length_nil]
    omega
  have byteS : bytes[4 + integerR.length]? = some markerS := after 0
  have byteS' : bytes[4 + integerR.length + 1]? = some lengthS := after 1
  have passed : ¬¬(9 ≤ bytes.length ∧ bytes.length ≤ 73) := not_not.mpr ⟨atLeast, atMost⟩
  simp only [strictDerEncoding, passed, ↓reduceIte, byte0, byte1, byte2, byte3, byteS, byteS',
    counted, Option.bind_eq_bind, Option.bind_some]
  have rejected : ∀ {grammar : Prop}, ¬grammar →
      ∃ accepted, some false = some accepted ∧ (accepted = true ↔ grammar) := by
    intro grammar fails
    exact ⟨false, rfl, iff_of_false Bool.false_ne_true fails⟩
  by_cases isHeader : header ≠ 0x30
  · rw [if_pos isHeader]
    exact rejected fun grammar => isHeader grammar.1
  rw [if_neg isHeader]
  by_cases isTotal : total.toNat ≠ bytes.length - 3
  · rw [if_pos isTotal]
    exact rejected fun grammar => isTotal grammar.2.1
  rw [if_neg isTotal]
  by_cases isMarkerR : markerR ≠ 0x02
  · rw [if_pos isMarkerR]
    exact rejected fun grammar => isMarkerR grammar.2.2.1
  rw [if_neg isMarkerR]
  by_cases outside : integerR.length = 0 ∨ 5 + integerR.length ≥ bytes.length
  · rw [if_pos outside]
    refine rejected fun grammar => ?_
    have positive := List.length_pos_iff.mpr grammar.2.2.2.1
    omega
  rw [if_neg outside]
  by_cases isMarkerS : markerS ≠ 0x02
  · rw [if_pos isMarkerS]
    exact rejected fun grammar => isMarkerS grammar.2.2.2.2.1
  rw [if_neg isMarkerS]
  by_cases lengths : integerR.length + lengthS.toNat + 7 ≠ bytes.length ∨ lengthS.toNat = 0
  · rw [if_pos lengths]
    refine rejected fun grammar => ?_
    obtain ⟨-, -, -, -, -, counts, positive, -⟩ := grammar
    omega
  rw [if_neg lengths]
  have nonemptyR : integerR ≠ [] := by
    intro empty
    rw [empty] at outside
    simp at outside
  have restSize : rest.length = lengthS.toNat + 1 := by omega
  have nonemptyS : rest.take lengthS.toNat ≠ [] := by
    rw [← List.length_pos_iff, List.length_take]
    omega
  obtain ⟨wrongR, testedR, minimalR⟩ := misencodedInteger_eq [header, total, markerR, lengthR]
    integerR (markerS :: lengthS :: rest) nonemptyR
  obtain ⟨wrongS, testedS, minimalS⟩ := misencodedInteger_eq
    ([header, total, markerR, lengthR] ++ (integerR ++ [markerS, lengthS]))
    (rest.take lengthS.toNat) (rest.drop lengthS.toNat) nonemptyS
  have offsetS : ([header, total, markerR, lengthR] ++ (integerR ++ [markerS, lengthS])).length =
      4 + integerR.length + 2 := by
    simp only [List.length_append, List.length_cons, List.length_nil]
    omega
  have taken : (rest.take lengthS.toNat).length = lengthS.toNat := by
    rw [List.length_take]
    omega
  have whole : [header, total, markerR, lengthR] ++ (integerR ++ [markerS, lengthS]) ++
      (rest.take lengthS.toNat ++ rest.drop lengthS.toNat) = bytes := by
    rw [List.take_append_drop, parts]
    simp
  rw [← parts] at testedR
  rw [whole, offsetS, taken] at testedS
  have startR : [header, total, markerR, lengthR].length = 4 := rfl
  rw [startR] at testedR
  rw [testedR, testedS]
  cases wrongR with
  | true =>
    refine rejected fun grammar => ?_
    have same := minimalR.mpr grammar.2.2.2.2.2.2.2.1
    cases same
  | false =>
    cases wrongS with
    | true =>
      refine rejected fun grammar => ?_
      have same := minimalS.mpr grammar.2.2.2.2.2.2.2.2
      cases same
    | false =>
      exact ⟨true, rfl, iff_of_true rfl ⟨not_not.mp isHeader, not_not.mp isTotal,
        not_not.mp isMarkerR, nonemptyR, not_not.mp isMarkerS, restSize, by omega,
        minimalR.mp rfl, minimalS.mp rfl⟩⟩

/-- A signature with room for the header splits at its first counted integer, unless the count
leaves no room for what must follow. -/
theorem strictDerEncoding_split {bytes : List UInt8} (atLeast : 9 ≤ bytes.length) :
    ∃ header total markerR lengthR tail,
      bytes = [header, total, markerR, lengthR] ++ tail ∧
      (5 + lengthR.toNat < bytes.length → ∃ integerR markerS lengthS rest,
        tail = integerR ++ markerS :: lengthS :: rest ∧ integerR.length = lengthR.toNat) := by
  obtain ⟨header, total, markerR, lengthR, tail, rfl⟩ : ∃ header total markerR lengthR tail,
      bytes = [header, total, markerR, lengthR] ++ tail := by
    rcases bytes with - | ⟨header, - | ⟨total, - | ⟨markerR, - | ⟨lengthR, tail⟩⟩⟩⟩
    · simp at atLeast
    · simp at atLeast
    · simp at atLeast
    · simp at atLeast
    · exact ⟨header, total, markerR, lengthR, tail, rfl⟩
  refine ⟨header, total, markerR, lengthR, tail, rfl, fun room => ?_⟩
  rw [List.length_append] at room
  simp only [List.length_cons, List.length_nil] at room
  have remaining : 2 ≤ (tail.drop lengthR.toNat).length := by
    rw [List.length_drop]
    omega
  have front : (tail.take lengthR.toNat).length = lengthR.toNat := by
    rw [List.length_take]
    omega
  have whole := List.take_append_drop lengthR.toNat tail
  rcases split : tail.drop lengthR.toNat with - | ⟨markerS, - | ⟨lengthS, rest⟩⟩
  · simp [split] at remaining
  · simp [split] at remaining
  · rw [split] at whole
    exact ⟨tail.take lengthR.toNat, markerS, lengthS, rest, whole.symm, front⟩

/-- The grammar, for a signature split at its counted integers. -/
theorem strictDer_parts {total lengthR markerS lengthS : UInt8}
    {header markerR : UInt8} {integerR rest bytes : List UInt8}
    (parts : bytes = [header, total, markerR, lengthR] ++ (integerR ++ markerS :: lengthS :: rest))
    (counted : lengthR.toNat = integerR.length) (atLeast : 9 ≤ bytes.length)
    (atMost : bytes.length ≤ 73) :
    StrictDer bytes ↔ header = 0x30 ∧ total.toNat = bytes.length - 3 ∧ markerR = 0x02 ∧
      integerR ≠ [] ∧ markerS = 0x02 ∧ rest.length = lengthS.toNat + 1 ∧ lengthS.toNat ≠ 0 ∧
      MinimalInteger integerR ∧ MinimalInteger (rest.take lengthS.toNat) := by
  constructor
  · intro grammar
    obtain ⟨total', lengthR', lengthS', hashType, integerR', integerS, shape, totals, countR,
      someR, countS, someS, -, -, minimalR, minimalS⟩ := grammar
    rw [parts] at shape totals
    simp only [List.cons_append, List.nil_append, List.append_assoc, List.cons.injEq] at shape
    obtain ⟨rfl, rfl, rfl, rfl, tails⟩ := shape
    obtain ⟨rfl, ends⟩ := List.append_inj tails (by omega)
    simp only [List.cons.injEq] at ends
    obtain ⟨rfl, rfl, rfl⟩ := ends
    rw [countS, List.take_left]
    rw [← parts] at totals
    exact ⟨rfl, totals, rfl, minimalR.nonempty, rfl, by simp, by omega, minimalR, minimalS⟩
  · intro fields
    obtain ⟨rfl, totals, rfl, someR, rfl, counts, someS, minimalR, minimalS⟩ := fields
    have taken : (rest.take lengthS.toNat).length = lengthS.toNat := by
      rw [List.length_take]
      omega
    obtain ⟨hashType, last⟩ : ∃ hashType, rest.drop lengthS.toNat = [hashType] := by
      rw [← List.length_eq_one_iff, List.length_drop]
      omega
    refine ⟨total, lengthR, lengthS, hashType, integerR, rest.take lengthS.toNat, ?_, totals,
      counted, List.length_pos_iff.mpr someR, taken.symm, by omega, atLeast, atMost, minimalR,
      minimalS⟩
    rw [List.append_assoc _ (rest.take _), ← last, List.take_append_drop, parts]
    simp

/-- The test reads within the signature only and accepts the BIP66 grammar. -/
theorem strictDerEncoding_grammar (bytes : List UInt8) :
    ∃ accepted, strictDerEncoding bytes = some accepted ∧
      (accepted = true ↔ StrictDer bytes) := by
  by_cases sized : 9 ≤ bytes.length ∧ bytes.length ≤ 73
  · obtain ⟨atLeast, atMost⟩ := id sized
    obtain ⟨header, total, markerR, lengthR, tail, front, splits⟩ :=
      strictDerEncoding_split atLeast
    by_cases room : 5 + lengthR.toNat < bytes.length
    · obtain ⟨integerR, markerS, lengthS, rest, rfl, counted⟩ := splits room
      rw [strictDer_parts front counted.symm atLeast atMost]
      exact strictDerEncoding_parts front counted.symm atLeast atMost
    · -- The first count leaves no room for the second integer.
      have byte0 : bytes[0]? = some header := by rw [front]; rfl
      have byte1 : bytes[1]? = some total := by rw [front]; rfl
      have byte2 : bytes[2]? = some markerR := by rw [front]; rfl
      have byte3 : bytes[3]? = some lengthR := by rw [front]; rfl
      have full : lengthR.toNat = 0 ∨ 5 + lengthR.toNat ≥ bytes.length := .inr (not_lt.mp room)
      refine ⟨false, ?_, iff_of_false Bool.false_ne_true fun grammar => ?_⟩
      · simp only [strictDerEncoding, not_not.mpr sized, ↓reduceIte, byte0, byte1, byte2, byte3,
          full, Option.bind_eq_bind, Option.bind_some, ite_self]
        rfl
      · obtain ⟨total', lengthR', lengthS, hashType, integerR, integerS, shape, -, countR, -, -,
          someS, -⟩ := grammar
        have size := congrArg List.length shape
        rw [front] at shape
        simp only [List.cons_append, List.nil_append, List.append_assoc, List.cons.injEq] at shape
        obtain ⟨-, -, -, rfl, -⟩ := shape
        simp only [List.length_append, List.length_cons, List.length_nil] at size
        omega
  · refine ⟨false, ?_, iff_of_false Bool.false_ne_true fun grammar => ?_⟩
    · rw [strictDerEncoding, if_pos sized]
      rfl
    · obtain ⟨_, _, _, _, _, _, _, _, _, _, _, _, atLeast, atMost, _⟩ := grammar
      exact sized ⟨atLeast, atMost⟩

end Usdd.Verif

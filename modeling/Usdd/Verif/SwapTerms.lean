import Usdd.Core.HashText
import Usdd.Verif.AtomicSwap
/-!
# The terms of a swap, checked three times

The renderer reads the terms of a swap as text, the Python validator reads them as bytes, and the
constructor of the contract as words. They accept the same terms, and the program that comes out has
them as its constants.
-/
namespace Usdd.Verif

open Usdd.Foundation Usdd.Core Usdd.Contracts Usdd.Simplicity

section Texts

theorem hexNumber_append (number : Nat) (bytes : List UInt8) :
    (lowerHex bytes).foldl (fun value digit => 16 * value + (hexDigit digit).getD 0) number =
      number * 256 ^ bytes.length + beNat bytes := by
  have digits : ∀ value < 16, (hexDigit (Nat.digitChar value)).getD 0 = value := by decide
  induction bytes generalizing number with
  | nil => simp [lowerHex, beNat_nil]
  | cons byte bytes ih =>
    have bound := byte.toNat_lt
    have whole : 16 * (16 * number + byte.toNat / 16) + byte.toNat % 16 =
        number * 256 + byte.toNat := by omega
    rw [lowerHex, List.flatMap_cons, List.foldl_append]
    simp only [List.foldl_cons, List.foldl_nil, digits _ (show byte.toNat / 16 < 16 by omega),
      digits _ (show byte.toNat % 16 < 16 by omega)]
    have rest := ih (number * 256 + byte.toNat)
    rw [lowerHex] at rest
    rw [whole, rest, beNat_cons, List.length_cons, Nat.pow_succ]
    ring

/-- The number of a text is that of the bytes it writes. -/
theorem hexNumber_lowerHex (bytes : List UInt8) : hexNumber (lowerHex bytes) = beNat bytes := by
  have exact := hexNumber_append 0 bytes
  rw [Nat.zero_mul, Nat.zero_add] at exact
  exact exact

theorem lowerHex_length (bytes : List UInt8) : (lowerHex bytes).length = 2 * bytes.length := by
  induction bytes with
  | nil => rfl
  | cons byte bytes ih =>
    rw [lowerHex, List.flatMap_cons, List.length_append, List.length_cons]
    rw [lowerHex] at ih
    rw [ih]
    simp only [List.length_cons, List.length_nil]
    omega

theorem lowerHex_inj {left right : List UInt8} (same : lowerHex left = lowerHex right) :
    left = right := by
  have first := parseHex_eq_some.mpr (lowerHex_toLower left)
  have second := parseHex_eq_some.mpr (lowerHex_toLower right)
  rw [same, second, Option.some.injEq] at first
  exact first.symm

/-- The digits of a text that parses. -/
theorem parseHex_digits {text : List Char} {bytes : List UInt8}
    (parsed : parseHex text = some bytes) :
    text.all (fun digit => (hexDigit digit).isSome) = true := by
  induction text using parseHex.induct generalizing bytes with
  | case1 => rfl
  | case2 digit => cases parsed
  | case3 high low rest ih =>
    simp only [parseHex, Option.bind_eq_bind, Option.bind_eq_some_iff] at parsed
    obtain ⟨_, highFound, _, lowFound, _, restParsed, _⟩ := parsed
    simp [highFound, lowFound, ih restParsed]

variable {name : String} {text canonical : List Char} {bytes : List UInt8}

/-- The renderer accepts a text of 32 bytes that are not all zero, and writes it in lower case. -/
theorem parseBytes32_eq_ok (spells : Spells text bytes) :
    parseBytes32 name text = .ok canonical ↔
      (bytes.length = 32 ∧ beNat bytes ≠ 0) ∧ canonical = lowerHex bytes := by
  have digits := parseHex_digits spells
  have lower := parseHex_eq_some.mp spells
  have length : ((stripStart "0x".toList text).getD text).length = 2 * bytes.length := by
    rw [← lowerHex_length, ← lower, List.length_map]
  simp only [parseBytes32]
  simp only [↓then_eq_ok, rejectIf_eq_ok, pure_eq_ok]
  rw [length, digits, lower, hexNumber_lowerHex]
  constructor
  · rintro ⟨sized, nonzero, rfl⟩
    exact ⟨⟨by omega, nonzero⟩, rfl⟩
  · rintro ⟨⟨sized, nonzero⟩, rfl⟩
    exact ⟨by simp [sized], nonzero, rfl⟩

/-- Bytes that name a point of the curve. -/
def NamesPoint (bytes : List UInt8) : Prop :=
  bytes.length = 32 ∧ beNat bytes ≠ 0 ∧ beNat bytes < secp256k1FieldPrime ∧
    liftsToCurve (beNat bytes) = true

theorem parseXonlyPubkey_eq_ok (spells : Spells text bytes) :
    parseXonlyPubkey name text = .ok canonical ↔
      NamesPoint bytes ∧ canonical = lowerHex bytes := by
  simp only [parseXonlyPubkey]
  simp only [↓then_eq_ok, bind_eq_ok, rejectIf_eq_ok, pure_eq_ok, parseBytes32_eq_ok spells]
  constructor
  · rintro ⟨_, ⟨⟨sized, nonzero⟩, rfl⟩, small, lifts, rfl⟩
    rw [hexNumber_lowerHex] at small lifts
    exact ⟨⟨sized, nonzero, by omega, by simpa using lifts⟩, rfl⟩
  · rintro ⟨⟨sized, nonzero, small, lifts⟩, rfl⟩
    refine ⟨_, ⟨⟨sized, nonzero⟩, rfl⟩, ?_, ?_, rfl⟩
    · rw [hexNumber_lowerHex]
      omega
    · rw [hexNumber_lowerHex, lifts]
      simp

end Texts

section Bytes

variable {name : String} {value : List UInt8}

theorem checkBytes32_eq_ok :
    checkBytes name value (some 32) true = .ok () ↔ value.length = 32 ∧ beNat value ≠ 0 := by
  rw [checkBytes_eq_ok]
  constructor
  · rintro ⟨fixed, rfl, nonzero⟩
    refine ⟨fixed.length_eq, fun zero => nonzero rfl ?_⟩
    apply FixedBytes.toNat_inj.mp
    rw [FixedBytes.toNat_zero]
    exact zero
  · rintro ⟨length, nonzero⟩
    refine ⟨⟨value, length⟩, rfl, fun _ zero => nonzero ?_⟩
    have number := congrArg FixedBytes.toNat zero
    rwa [FixedBytes.toNat_zero] at number

theorem checkXonlyPubkey_eq_ok : checkXonlyPubkey name value = .ok () ↔ NamesPoint value := by
  simp only [checkXonlyPubkey]
  simp only [↓then_eq_ok, rejectIf_eq_ok, checkBytes32_eq_ok, NamesPoint, ge_iff_le, not_le,
    Bool.not_eq_false, and_assoc]

end Bytes

/-- The terms of a swap that all three accept. -/
structure TermsHold (secretHash claimant refund : List UInt8) (elementsRefund externalRefund : Int) :
    Prop where
  hash : secretHash.length = 32 ∧ beNat secretHash ≠ 0
  claimantPoint : NamesPoint claimant
  refundPoint : NamesPoint refund
  distinct : claimant ≠ refund
  timestamp : 500000000 ≤ elementsRefund ∧ elementsRefund < 2 ^ 32
  gap : elementsRefund + 86400 ≤ externalRefund
  word : externalRefund < 2 ^ 64

theorem validateInventoryHtlc_eq_ok {params : InventoryHtlcParameters} :
    validateInventoryHtlc params = .ok () ↔
      TermsHold params.secretHash params.claimantXonlyPubkey params.refundXonlyPubkey
          params.elementsRefundTimestamp params.externalRefundTimestamp ∧
        (params.assetId.length = 32 ∧ beNat params.assetId ≠ 0) ∧
        0 < params.amount ∧ params.amount < 2 ^ 64 := by
  simp only [validateInventoryHtlc]
  simp only [↓then_eq_ok, rejectIf_eq_ok, checkBytes32_eq_ok, checkXonlyPubkey_eq_ok,
    checkUint_eq_ok, ↓reduceIte, not_lt]
  have threshold : locktimeTimestampThreshold = 500000000 := rfl
  have day : minimumDeadlineGapSeconds = 86400 := rfl
  rw [threshold, day]
  constructor
  · rintro ⟨secret, claimant, refund, distinct, asset, amount, word32, timestamp, word64, gap⟩
    exact ⟨⟨secret, claimant, refund, distinct, by omega, gap, word64.2⟩, asset, by omega,
      amount.2⟩
  · rintro ⟨⟨secret, claimant, refund, distinct, timestamp, gap, word⟩, asset, amount⟩
    exact ⟨secret, claimant, refund, distinct, asset, by omega, by omega, by omega, by omega, gap⟩

/-- The constants that bytes and a timestamp make. -/
def constantsOf (secretHash claimant refund : List UInt8) (elementsRefund : Int) : InventoryHtlc where
  secretHash := .ofNat 32 (beNat secretHash)
  claimantXonlyPubkey := .ofNat 32 (beNat claimant)
  refundXonlyPubkey := .ofNat 32 (beNat refund)
  elementsRefundTimestamp := UInt32.ofNat elementsRefund.toNat

theorem render_eq_ok {secretText claimantText refundText : List Char}
    {secretHash claimant refund : List UInt8} {elementsRefund externalRefund : Int}
    {program : InventoryHtlc} (secret : Spells secretText secretHash)
    (claimantSpelt : Spells claimantText claimant) (refundSpelt : Spells refundText refund) :
    render secretText claimantText refundText elementsRefund externalRefund = .ok program ↔
      TermsHold secretHash claimant refund elementsRefund externalRefund ∧
        program = constantsOf secretHash claimant refund elementsRefund := by
  simp only [render]
  simp only [↓then_eq_ok, bind_eq_ok, rejectIf_eq_ok, pure_eq_ok, parseBytes32_eq_ok secret,
    parseXonlyPubkey_eq_ok claimantSpelt, parseXonlyPubkey_eq_ok refundSpelt, not_not, not_le,
    not_lt]
  have threshold : locktimeTimestampThreshold = 500000000 := rfl
  have day : minimumDeadlineGapSeconds = 86400 := rfl
  rw [threshold, day]
  constructor
  · rintro ⟨_, ⟨hash, rfl⟩, _, ⟨claimantPoint, rfl⟩, _, ⟨refundPoint, rfl⟩, distinct, window, word, _,
      gap, rfl⟩
    simp only [hexNumber_lowerHex]
    exact ⟨⟨hash, claimantPoint, refundPoint, fun same => distinct (congrArg lowerHex same),
      by omega, by omega, by omega⟩, rfl⟩
  · rintro ⟨⟨hash, claimantPoint, refundPoint, distinct, timestamp, gap, word⟩, rfl⟩
    refine ⟨_, ⟨hash, rfl⟩, _, ⟨claimantPoint, rfl⟩, _, ⟨refundPoint, rfl⟩,
      fun same => distinct (lowerHex_inj same), by omega, by omega, by omega, by omega, ?_⟩
    simp only [hexNumber_lowerHex]
    rfl

section Constructor

/-- The errors of the constructor for the hash and the order of the deadlines. -/
def IsTermError : HtlcError → Prop
  | .invalidSecretHash => True
  | .unsafeRefundOrder _ _ _ => True
  | .arithmeticPanic => True
  | _ => False

/-- The constructor objects neither to a nonzero hash nor to deadlines a day apart. -/
theorem construct_terms {codeLength : EthAddress → Nat} {self usdt funder claimRecipient
    refundRecipient : EthAddress} {blockTimestamp amount : Uint256} {secretHash : Hash32}
    {elementsRefundTimestamp : UInt32} {refundTimestamp : UInt64} {error : HtlcError}
    (nonzero : secretHash ≠ .zero)
    (gap : elementsRefundTimestamp.toNat + 86400 ≤ refundTimestamp.toNat)
    (failed : Htlc.construct codeLength self blockTimestamp usdt funder claimRecipient
      refundRecipient amount secretHash elementsRefundTimestamp refundTimestamp = .error error) :
    ¬IsTermError error := by
  have widened : elementsRefundTimestamp.toUInt64.toNat = elementsRefundTimestamp.toNat :=
    UInt32.toNat_toUInt64 _
  have day : minimumRefundGap.toNat = 86400 := rfl
  have bound := refundTimestamp.toNat_lt
  have small : elementsRefundTimestamp.toUInt64.toNat + minimumRefundGap.toNat < 2 ^ 64 := by
    omega
  obtain ⟨earliest, sum, exact⟩ := checkedAdd_of_lt small
  have ordered : ¬refundTimestamp < earliest := by
    rw [UInt64.lt_iff_toNat_lt]
    omega
  simp only [Htlc.construct] at failed
  simp only [bind_eq_error, rejectIf_eq_error, okOr_eq_error, sum, reduceCtorEq, false_and,
    false_or, okOr_eq_ok, Option.some.injEq] at failed
  rcases failed with ⟨_, rfl⟩ | ⟨_, _, failed⟩
  · exact not_false
  rcases failed with ⟨_, rfl⟩ | ⟨_, _, failed⟩
  · exact not_false
  rcases failed with ⟨_, rfl⟩ | ⟨_, _, failed⟩
  · exact not_false
  rcases failed with ⟨_, rfl⟩ | ⟨_, _, failed⟩
  · exact not_false
  rcases failed with ⟨_, rfl⟩ | ⟨_, _, failed⟩
  · exact not_false
  rcases failed with ⟨_, rfl⟩ | ⟨_, _, failed⟩
  · exact not_false
  rcases failed with ⟨_, rfl⟩ | ⟨_, _, failed⟩
  · exact not_false
  rcases failed with ⟨zero, _⟩ | ⟨_, _, failed⟩
  · exact absurd zero nonzero
  rcases failed with ⟨_, rfl⟩ | ⟨_, _, failed⟩
  · exact not_false
  rcases failed with ⟨_, rfl⟩ | ⟨_, _, failed⟩
  · exact not_false
  obtain ⟨_, rfl, ⟨early, _⟩ | ⟨_, _, wrong⟩⟩ := failed
  · exact absurd early ordered
  · cases wrong

end Constructor

/-- The renderer, the validator and the constructor agree on terms that texts spell out. -/
structure TermsAgree (params : InventoryHtlcParameters)
    (secretText claimantText refundText : List Char) : Prop where
  /-- The validator accepts what the renderer renders, for an asset and an amount. -/
  same : Succeeds (validateInventoryHtlc params) ↔
    Succeeds (render secretText claimantText refundText params.elementsRefundTimestamp
        params.externalRefundTimestamp) ∧
      (params.assetId.length = 32 ∧ beNat params.assetId ≠ 0) ∧
      0 < params.amount ∧ params.amount < 2 ^ 64
  /-- The program that is rendered has the terms as its constants. -/
  constants : ∀ program, render secretText claimantText refundText params.elementsRefundTimestamp
      params.externalRefundTimestamp = .ok program →
    program.secretHash.bytes = params.secretHash ∧
      program.claimantXonlyPubkey.bytes = params.claimantXonlyPubkey ∧
      program.refundXonlyPubkey.bytes = params.refundXonlyPubkey ∧
      (program.elementsRefundTimestamp.toNat : Int) = params.elementsRefundTimestamp
  /-- The constructor of the contract takes them too. -/
  constructed : ∀ program, render secretText claimantText refundText
      params.elementsRefundTimestamp params.externalRefundTimestamp = .ok program →
    ∀ codeLength self blockTimestamp usdt funder claimRecipient refundRecipient amount
      refundTimestamp error, (refundTimestamp.toNat : Int) = params.externalRefundTimestamp →
      Htlc.construct codeLength self blockTimestamp usdt funder claimRecipient refundRecipient
        amount program.secretHash program.elementsRefundTimestamp refundTimestamp =
          .error error → ¬IsTermError error

theorem ofNat_beNat_bytes {width : Nat} {bytes : List UInt8} (length : bytes.length = width) :
    (FixedBytes.ofNat width (beNat bytes)).bytes = bytes := by
  have same := FixedBytes.ofNat_toNat ⟨bytes, length⟩
  exact congrArg FixedBytes.bytes same

/-- The three checks of the terms of a swap agree, whatever the terms are. -/
theorem swap_terms_agree (params : InventoryHtlcParameters)
    (secretText claimantText refundText : List Char)
    (secret : Spells secretText params.secretHash)
    (claimant : Spells claimantText params.claimantXonlyPubkey)
    (refund : Spells refundText params.refundXonlyPubkey) :
    TermsAgree params secretText claimantText refundText := by
  have rendered : ∀ program, render secretText claimantText refundText
      params.elementsRefundTimestamp params.externalRefundTimestamp = .ok program ↔
      TermsHold params.secretHash params.claimantXonlyPubkey params.refundXonlyPubkey
          params.elementsRefundTimestamp params.externalRefundTimestamp ∧
        program = constantsOf params.secretHash params.claimantXonlyPubkey
          params.refundXonlyPubkey params.elementsRefundTimestamp :=
    fun _ => render_eq_ok secret claimant refund
  constructor
  · simp only [Succeeds, rendered]
    constructor
    · rintro ⟨_, validated⟩
      obtain ⟨hold, asset, amount⟩ := validateInventoryHtlc_eq_ok.mp validated
      exact ⟨⟨_, hold, rfl⟩, asset, amount⟩
    · rintro ⟨⟨_, hold, _⟩, asset, amount⟩
      exact ⟨(), validateInventoryHtlc_eq_ok.mpr ⟨hold, asset, amount⟩⟩
  · intro program made
    obtain ⟨hold, rfl⟩ := (rendered program).mp made
    refine ⟨ofNat_beNat_bytes hold.hash.1, ofNat_beNat_bytes hold.claimantPoint.1,
      ofNat_beNat_bytes hold.refundPoint.1, ?_⟩
    exact (render_deadlines made).1
  · intro program made codeLength self blockTimestamp usdt funder claimRecipient refundRecipient
      amount refundTimestamp error external failed
    obtain ⟨deadline, _, gap⟩ := render_deadlines made
    obtain ⟨hold, rfl⟩ := (rendered program).mp made
    refine construct_terms ?_ (by omega) failed
    intro zero
    have bytes := congrArg FixedBytes.toNat zero
    rw [FixedBytes.toNat_zero] at bytes
    have read : beNat (FixedBytes.ofNat 32 (beNat params.secretHash)).bytes = 0 := bytes
    rw [ofNat_beNat_bytes hold.hash.1] at read
    exact hold.hash.2 read

/-- The terms of the sample swap. -/
theorem swap_terms_agree_sample :
    let params : InventoryHtlcParameters := ⟨sampleProgram.secretHash.bytes,
      sampleProgram.claimantXonlyPubkey.bytes, sampleProgram.refundXonlyPubkey.bytes,
      List.replicate 32 1, 5, 2000000000, 2000086400⟩
    TermsAgree params ("0x".toList ++ lowerHex params.secretHash)
        (lowerHex params.claimantXonlyPubkey) (lowerHex params.refundXonlyPubkey) ∧
      Succeeds (validateInventoryHtlc params) := by
  intro params
  refine ⟨swap_terms_agree params _ _ _ ?_ ?_ ?_, ?_⟩
  · exact parseHex_eq_some.mpr (lowerHex_toLower _)
  · exact parseHex_eq_some.mpr (lowerHex_toLower _)
  · exact parseHex_eq_some.mpr (lowerHex_toLower _)
  · decide +kernel

end Usdd.Verif

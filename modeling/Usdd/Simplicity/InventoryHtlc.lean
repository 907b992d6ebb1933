import Usdd.Foundation.HexText
import Usdd.Foundation.Text
import Usdd.Simplicity.Formats
/-!
# The inventory escrow of the Elements side

`inventory_htlc_v1.simf.in` is a SimplicityHL program with four constants: it lets one key spend
an output with the preimage of a hash, and another key after a timestamp. The renderer fills the
constants in after it checked them, and `validate_inventory_htlc` checks the same terms as bytes.
What the program reads of its transaction comes from jets.
-/
namespace Usdd.Simplicity

open Usdd.Foundation Usdd.Core

section Checks

/-- `SECP256K1_FIELD_PRIME`. -/
def secp256k1FieldPrime : Nat := 0xFFFFFFFFFFFFFFFFFFFFFFFFFFFFFFFFFFFFFFFFFFFFFFFFFFFFFFFEFFFFFC2F

/-- `LOCKTIME_TIMESTAMP_THRESHOLD`. -/
def locktimeTimestampThreshold : Nat := 500000000

/-- `MINIMUM_DEADLINE_GAP_SECONDS`, which is `MIN_HTLC_DEADLINE_GAP` too. -/
def minimumDeadlineGapSeconds : Int := 86400

/-- `pow` with a modulus, by the binary digits of the exponent. -/
def powMod (modulus : Nat) : Nat → Nat → Nat → Nat
  | 0, _, _ => 1 % modulus
  | digits + 1, base, exponent =>
    let squared := powMod modulus digits (base * base % modulus) (exponent / 2)
    if exponent % 2 = 1 then base * squared % modulus else squared

/-- Whether `x ^ 3 + 7` is the square that its candidate root claims. -/
def liftsToCurve (x : Nat) : Bool :=
  let ySquared := (powMod secp256k1FieldPrime 2 x 3 + 7) % secp256k1FieldPrime
  let y := powMod secp256k1FieldPrime 256 ySquared ((secp256k1FieldPrime + 1) / 4)
  powMod secp256k1FieldPrime 2 y 2 == ySquared

/-- `_xonly_pubkey`. -/
def checkXonlyPubkey (name : String) (value : List UInt8) : Except String Unit := do
  checkBytes name value (some 32) true
  rejectIf (beNat value ≥ secp256k1FieldPrime) (name ++ " is outside the secp256k1 field")
  rejectIf (liftsToCurve (beNat value) = false)
    (name ++ " is not a valid secp256k1 x-only public key")

/-- The class `InventoryHtlcParameters`. -/
structure InventoryHtlcParameters where
  secretHash : List UInt8
  claimantXonlyPubkey : List UInt8
  refundXonlyPubkey : List UInt8
  assetId : List UInt8
  amount : Int
  elementsRefundTimestamp : Int
  externalRefundTimestamp : Int

/-- `validate_inventory_htlc`. -/
def validateInventoryHtlc (params : InventoryHtlcParameters) : Except String Unit := do
  checkBytes "secret_hash" params.secretHash (some 32) true
  checkXonlyPubkey "claimant_xonly_pubkey" params.claimantXonlyPubkey
  checkXonlyPubkey "refund_xonly_pubkey" params.refundXonlyPubkey
  rejectIf (params.claimantXonlyPubkey = params.refundXonlyPubkey)
    "claimant and refund public keys must differ"
  checkBytes "asset_id" params.assetId (some 32) true
  checkUint "amount" params.amount 64 true
  checkUint "elements_refund_timestamp" params.elementsRefundTimestamp 32 true
  rejectIf (params.elementsRefundTimestamp < locktimeTimestampThreshold)
    "Elements refund deadline must use timestamp locktime"
  checkUint "external_refund_timestamp" params.externalRefundTimestamp 64 true
  rejectIf (params.externalRefundTimestamp <
      params.elementsRefundTimestamp + minimumDeadlineGapSeconds)
    "external refund deadline must be at least 24 hours later"

end Checks

section Renderer

/-- `int(text, 16)`. -/
def hexNumber (text : List Char) : Nat :=
  text.foldl (fun value digit => 16 * value + (hexDigit digit).getD 0) 0

/-- `parse_bytes32`, for a value that must not be zero. -/
def parseBytes32 (name : String) (value : List Char) : Except String (List Char) := do
  let value := (stripStart "0x".toList value).getD value
  rejectIf (value.length ≠ 64 ∨ value.all (fun digit => (hexDigit digit).isSome) = false)
    (name ++ " must be exactly 32 hexadecimal bytes")
  let canonical := value.map Char.toLower
  rejectIf (hexNumber canonical = 0) (name ++ " must be nonzero")
  return canonical

/-- `parse_xonly_pubkey`. -/
def parseXonlyPubkey (name : String) (value : List Char) : Except String (List Char) := do
  let canonical ← parseBytes32 name value
  rejectIf (hexNumber canonical ≥ secp256k1FieldPrime)
    (name ++ " is outside the secp256k1 field")
  rejectIf (liftsToCurve (hexNumber canonical) = false)
    (name ++ " is not a valid secp256k1 x-only public key")
  return canonical

/-- The constants of a rendered program. -/
structure InventoryHtlc where
  secretHash : Hash32
  claimantXonlyPubkey : Hash32
  refundXonlyPubkey : Hash32
  elementsRefundTimestamp : UInt32
deriving DecidableEq

/-- `render`, as the program that it writes: the constants that replace the four tokens of the
template. -/
def render (secretHash claimantXonlyPubkey refundXonlyPubkey : List Char)
    (elementsRefundTimestamp externalRefundTimestamp : Int) : Except String InventoryHtlc := do
  let secretHash ← parseBytes32 "secret hash" secretHash
  let claimantXonlyPubkey ← parseXonlyPubkey "claimant x-only public key" claimantXonlyPubkey
  let refundXonlyPubkey ← parseXonlyPubkey "refund x-only public key" refundXonlyPubkey
  rejectIf (claimantXonlyPubkey = refundXonlyPubkey)
    "claimant and refund x-only public keys must be distinct"
  rejectIf (¬(locktimeTimestampThreshold ≤ elementsRefundTimestamp ∧
      elementsRefundTimestamp ≤ 0xFFFFFFFF))
    "Elements refund timestamp must be a u32 absolute timestamp"
  rejectIf (¬(0 ≤ externalRefundTimestamp ∧ externalRefundTimestamp ≤ 0xFFFFFFFFFFFFFFFF))
    "external refund timestamp must be a u64"
  rejectIf (externalRefundTimestamp ≤ elementsRefundTimestamp)
    "Elements refund timestamp must be strictly before external refund"
  rejectIf (externalRefundTimestamp - elementsRefundTimestamp < minimumDeadlineGapSeconds)
    "external refund must be at least 86,400 seconds later"
  return {
    secretHash := .ofNat 32 (hexNumber secretHash)
    claimantXonlyPubkey := .ofNat 32 (hexNumber claimantXonlyPubkey)
    refundXonlyPubkey := .ofNat 32 (hexNumber refundXonlyPubkey)
    elementsRefundTimestamp := UInt32.ofNat elementsRefundTimestamp.toNat }

/-- A rendered program has a timestamp for its deadline, and the external refund is a day later. -/
theorem render_deadlines {secretHash claimantXonlyPubkey refundXonlyPubkey : List Char}
    {elementsRefundTimestamp externalRefundTimestamp : Int} {program : InventoryHtlc}
    (rendered : render secretHash claimantXonlyPubkey refundXonlyPubkey elementsRefundTimestamp
      externalRefundTimestamp = .ok program) :
    (program.elementsRefundTimestamp.toNat : Int) = elementsRefundTimestamp ∧
      (500000000 : Int) ≤ elementsRefundTimestamp ∧
      elementsRefundTimestamp + 86400 ≤ externalRefundTimestamp := by
  simp only [render] at rendered
  simp only [↓then_eq_ok, bind_eq_ok, rejectIf_eq_ok, pure_eq_ok, not_not, not_le, not_lt]
    at rendered
  obtain ⟨_, _, _, _, _, _, _, window, _, _, gap, rfl⟩ := rendered
  unfold locktimeTimestampThreshold at window
  unfold minimumDeadlineGapSeconds at gap
  have fits : elementsRefundTimestamp.toNat < UInt32.size := by
    change _ < 4294967296
    omega
  refine ⟨?_, window.1, by omega⟩
  rw [UInt32.toNat_ofNat_of_lt' fits]
  omega

end Renderer

section Program

/-- A BIP340 signature. -/
abbrev Signature := FixedBytes 64

/-- What a program learns of the transaction that spends its output. -/
structure Spend where
  /-- What `sig_all_hash` returns. -/
  sigAllHash : Hash32
  lockTime : UInt32
  /-- Every input has the final sequence, which disables the lock time. -/
  isFinal : Bool

/-- The lock time of a transaction where it is an enabled timestamp. -/
def Spend.txLockTime (spend : Spend) : Nat :=
  if spend.isFinal = false ∧ locktimeTimestampThreshold ≤ spend.lockTime.toNat then
    spend.lockTime.toNat
  else 0

/-- The lock time lets a block of a median time include the transaction. Lock times that are heights
are left open. -/
def Spend.Mature (spend : Spend) (medianTime : Nat) : Prop :=
  spend.isFinal = true ∨ spend.lockTime.toNat < locktimeTimestampThreshold ∨
    spend.lockTime.toNat < medianTime

instance (spend : Spend) (medianTime : Nat) : Decidable (spend.Mature medianTime) :=
  inferInstanceAs (Decidable (_ ∨ _ ∨ _))

/-- `witness::CLAIM_OR_REFUND`. -/
inductive ClaimOrRefund where
  | left (preimage : Hash32) (claimantSignature : Signature)
  | right (refundSignature : Signature)

namespace InventoryHtlc

variable [Hashing] (verify : Hash32 → Hash32 → Signature → Bool) (program : InventoryHtlc)
  (spend : Spend)

/-- `jet::check_lock_time`. -/
def checkLockTime (timestamp : UInt32) : Option Unit :=
  guard (timestamp.toNat ≤ spend.txLockTime)

/-- `verify_all_signature`, where `verify` is BIP340 verification. -/
def verifyAllSignature (pubkey : Hash32) (signature : Signature) : Option Unit :=
  guard (verify pubkey spend.sigAllHash signature = true)

/-- `claim`. -/
def claim (preimage : Hash32) (claimantSignature : Signature) : Option Unit := do
  guard (Hashing.sha256 (encode preimage) = program.secretHash)
  verifyAllSignature verify spend program.claimantXonlyPubkey claimantSignature

/-- `refund`. -/
def refund (refundSignature : Signature) : Option Unit := do
  checkLockTime spend program.elementsRefundTimestamp
  verifyAllSignature verify spend program.refundXonlyPubkey refundSignature

/-- `main`. -/
def main : ClaimOrRefund → Option Unit
  | .left preimage claimantSignature => claim verify program spend preimage claimantSignature
  | .right refundSignature => refund verify program spend refundSignature

variable {verify program spend}

/-- The claim branch takes the preimage and the claimant's signature of the transaction. -/
theorem main_left {preimage : Hash32} {claimantSignature : Signature} :
    main verify program spend (.left preimage claimantSignature) = some () ↔
      Hashing.sha256 (encode preimage) = program.secretHash ∧
        verify program.claimantXonlyPubkey spend.sigAllHash claimantSignature = true := by
  simp only [main, claim, verifyAllSignature, Option.bind_eq_bind, Option.bind_eq_some_iff,
    Option.guard_eq_some', exists_const]

omit [Hashing] in
/-- The lock time check passes on enabled timestamps from the given one on. -/
theorem checkLockTime_eq_some {timestamp : UInt32} (positive : 0 < timestamp.toNat) :
    checkLockTime spend timestamp = some () ↔
      spend.isFinal = false ∧ locktimeTimestampThreshold ≤ spend.lockTime.toNat ∧
        timestamp.toNat ≤ spend.lockTime.toNat := by
  unfold checkLockTime Spend.txLockTime
  split
  · rename_i enabled
    simp [enabled.1, enabled.2]
  · rename_i disabled
    constructor
    · intro passed
      simp only [Option.guard_eq_some', Nat.le_zero] at passed
      omega
    · rintro ⟨sequence, form, _⟩
      exact absurd ⟨sequence, form⟩ disabled

/-- The refund branch takes a lock time that only a block after the timestamp accepts, and the
refunding party's signature of the transaction. -/
theorem main_right_dated {refundSignature : Signature} {medianTime : Nat}
    (positive : 0 < program.elementsRefundTimestamp.toNat)
    (accepted : main verify program spend (.right refundSignature) = some ())
    (mature : spend.Mature medianTime) :
    program.elementsRefundTimestamp.toNat < medianTime ∧
      verify program.refundXonlyPubkey spend.sigAllHash refundSignature = true := by
  simp only [main, refund, verifyAllSignature, Option.bind_eq_bind, Option.bind_eq_some_iff,
    Option.guard_eq_some', checkLockTime_eq_some positive] at accepted
  obtain ⟨_, ⟨sequence, form, reached⟩, signed⟩ := accepted
  rcases mature with final | height | later
  · rw [sequence] at final
    cases final
  · omega
  · exact ⟨by omega, signed⟩

/-- After the timestamp a refund is accepted with the timestamp as its lock time. -/
theorem main_right_accepts {refundSignature : Signature} {medianTime : Nat}
    (timestamped : locktimeTimestampThreshold ≤ program.elementsRefundTimestamp.toNat)
    (later : program.elementsRefundTimestamp.toNat < medianTime) {sigAllHash : Hash32}
    (signed : verify program.refundXonlyPubkey sigAllHash refundSignature = true) :
    let spend : Spend := ⟨sigAllHash, program.elementsRefundTimestamp, false⟩
    spend.Mature medianTime ∧ main verify program spend (.right refundSignature) = some () := by
  intro spend
  refine ⟨Or.inr (Or.inr later), ?_⟩
  have positive : 0 < program.elementsRefundTimestamp.toNat :=
    Nat.lt_of_lt_of_le (by decide) timestamped
  simp only [main, refund, verifyAllSignature, Option.bind_eq_bind, Option.bind_eq_some_iff,
    Option.guard_eq_some', checkLockTime_eq_some positive]
  exact ⟨(), ⟨rfl, timestamped, Nat.le_refl _⟩, signed⟩

end InventoryHtlc

end Program

end Usdd.Simplicity

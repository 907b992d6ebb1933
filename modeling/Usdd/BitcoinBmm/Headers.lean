import Usdd.BitcoinBmm.Uint256
import Usdd.Foundation.Checks
/-!
# Headers and the parent header chain

An 80-byte header is decoded, its difficulty bits are checked against the value the chain state
determines, its proof of work against the target they encode, and the state moves on: one more
block, more work, and the start time of the difficulty interval.
-/
namespace Usdd.BitcoinBmm

open Usdd.Foundation Usdd.Core

/-- `lib::BlockHash`: a hash in internal byte order. -/
abbrev BlockHash := FixedBytes 32

/-- `BlockHash::as_number`. -/
def BlockHash.asNumber (hash : BlockHash) : Uint256 := .fromLeBytes hash

/-- `lib::BitcoinHeader`, with the bytes it was decoded from. -/
structure BitcoinHeader where
  version : Int32
  previousBlock : BlockHash
  merkleRoot : BlockHash
  time : UInt32
  bits : UInt32
  nonce : UInt32
  raw : FixedBytes 80
deriving DecidableEq

/-- `lib::CompactTargetError`. -/
inductive CompactTargetError where
  | negative
  | zero
  | overflow
  | abovePowLimit
deriving DecidableEq

/-- `lib::HeaderError`. -/
inductive HeaderError where
  | invalidLength
  | invalidTarget (error : CompactTargetError)
  | unexpectedDifficultyBits
  | insufficientProofOfWork
  | brokenParentLink
  | invalidCheckpointChainwork
  | heightOverflow
  | chainworkOverflow
  | invalidDifficultyParameters
  | unsupportedMinDifficultyRule
  | retargetArithmeticOverflow
deriving DecidableEq

/-- `u32::from_le_bytes` of four bytes. -/
def u32FromLe (bytes : List UInt8) : UInt32 := UInt32.ofNat (leNat bytes)

/-- The bytes of a range, as an array of its width. -/
def FixedBytes.slice {total : Nat} (bytes : FixedBytes total) (start width : Nat)
    (fits : start + width ≤ total) : FixedBytes width :=
  ⟨(bytes.bytes.drop start).take width, by
    rw [List.length_take, List.length_drop, bytes.length_eq]; omega⟩

/-- The fields of an 80-byte header. -/
def BitcoinHeader.ofRaw (raw : FixedBytes 80) : BitcoinHeader where
  version := Int32.ofUInt32 (u32FromLe (FixedBytes.slice raw 0 4 (by decide)).bytes)
  previousBlock := FixedBytes.slice raw 4 32 (by decide)
  merkleRoot := FixedBytes.slice raw 36 32 (by decide)
  time := u32FromLe (FixedBytes.slice raw 68 4 (by decide)).bytes
  bits := u32FromLe (FixedBytes.slice raw 72 4 (by decide)).bytes
  nonce := u32FromLe (FixedBytes.slice raw 76 4 (by decide)).bytes
  raw

/-- `BitcoinHeader::decode_exact`. -/
def BitcoinHeader.decodeExact (bytes : List UInt8) : Except HeaderError BitcoinHeader :=
  if length : bytes.length = 80 then .ok (.ofRaw ⟨bytes, length⟩) else .error .invalidLength

/-- `lib::double_sha256`. -/
def doubleSha256 [Hashing] (bytes : List UInt8) : Hash32 :=
  Hashing.sha256 (Hashing.sha256 bytes).bytes

/-- `BitcoinHeader::block_hash`. -/
def BitcoinHeader.blockHash [Hashing] (header : BitcoinHeader) : BlockHash :=
  doubleSha256 header.raw.bytes

/-- `lib::decode_and_validate_target`. -/
def decodeAndValidateTarget (bits : UInt32) (powLimit : Uint256) :
    Except CompactTargetError Uint256 := do
  let size := bits >>> 24
  let word := if size ≤ 3 then (bits &&& 0x007fffff) >>> (8 * (3 - size)) else bits &&& 0x007fffff
  let negative := word ≠ 0 ∧ bits &&& 0x00800000 ≠ 0
  let overflow := word ≠ 0 ∧ (size > 34 ∨ (word > 0xff ∧ size > 33) ∨ (word > 0xffff ∧ size > 32))
  rejectIf negative .negative
  rejectIf overflow .overflow
  let base := Uint256.fromLimbsLe word.toUInt64 0 0 0
  let target ← if size ≤ 3 then pure base
    else okOr (base.checkedShl (8 * (size.toNat - 3))) .overflow
  rejectIf target.isZero .zero
  rejectIf (powLimit < target) .abovePowLimit
  return target

/-- `lib::block_work`. -/
def blockWork (target : Uint256) : Except HeaderError Uint256 := do
  let denominator ← okOr target.checkedAddOne .retargetArithmeticOverflow
  okOr ((target.wrappingNot.div denominator).bind Uint256.checkedAddOne)
    .retargetArithmeticOverflow

/-- `lib::PowParameters`. -/
structure PowParameters where
  powLimit : Uint256
  targetTimespan : UInt32
  targetSpacing : UInt32
  allowMinDifficultyBlocks : Bool
  noRetargeting : Bool
deriving DecidableEq

/-- `PowParameters::LAYER_TWO_SIGNET`. -/
def PowParameters.layerTwoSignet : PowParameters where
  powLimit := .fromLimbsLe 0 0 0 0x00000377ae000000
  targetTimespan := 14 * 24 * 60 * 60
  targetSpacing := 10 * 60
  allowMinDifficultyBlocks := false
  noRetargeting := false

/-- `PowParameters::interval`. -/
def PowParameters.interval (params : PowParameters) : Except HeaderError UInt32 := do
  rejectIf (params.targetSpacing = 0 ∨ params.targetTimespan = 0 ∨
    params.targetTimespan % params.targetSpacing ≠ 0) .invalidDifficultyParameters
  let interval := params.targetTimespan / params.targetSpacing
  rejectIf (interval = 0) .invalidDifficultyParameters
  return interval

/-- `lib::PowVerifiedHeader`. -/
structure PowVerifiedHeader where
  header : BitcoinHeader
  hash : BlockHash
  target : Uint256
  work : Uint256
deriving DecidableEq

/-- `lib::verify_header_pow_against_caller_supplied_bits`. -/
def verifyHeaderPowAgainstCallerSuppliedBits [Hashing] (bytes : List UInt8)
    (callerSuppliedBits : UInt32) (params : PowParameters) :
    Except HeaderError PowVerifiedHeader := do
  let header ← BitcoinHeader.decodeExact bytes
  rejectIf (header.bits ≠ callerSuppliedBits) .unexpectedDifficultyBits
  let target ← (decodeAndValidateTarget header.bits params.powLimit).mapError .invalidTarget
  let hash := header.blockHash
  rejectIf (target < hash.asNumber) .insufficientProofOfWork
  let work ← blockWork target
  return { header, hash, target, work }

/-- `lib::HeaderChainState`. -/
structure HeaderChainState where
  height : UInt32
  tip : PowVerifiedHeader
  cumulativeWork : Uint256
  /-- Timestamp of the first block in the interval of `height`. -/
  intervalStartTime : UInt32
deriving DecidableEq

/-- `u32::checked_add` of one. -/
def checkedSucc (value : UInt32) : Option UInt32 :=
  if value.toNat + 1 < 2 ^ 32 then some (value + 1) else none

/-- The difficulty at a boundary of `lib::next_work_required`: the old target scaled by the
clamped time the last interval took. -/
def retarget (params : PowParameters) (oldBits tipTime startTime : UInt32) :
    Except HeaderError UInt32 := do
  let oldTarget ← (decodeAndValidateTarget oldBits params.powLimit).mapError .invalidTarget
  let targetTimespan : Int := params.targetTimespan.toNat
  let actualTimespan := Max.max (targetTimespan / 4)
    (Min.min ((tipTime.toNat : Int) - startTime.toNat) (targetTimespan * 4))
  let nextTarget ← okOr
    ((oldTarget.checkedMulU64 (UInt64.ofInt actualTimespan)).bind
      (Uint256.divU64 · params.targetTimespan.toUInt64)) .retargetArithmeticOverflow
  return (if params.powLimit < nextTarget then params.powLimit else nextTarget).toCompact

/-- `lib::next_work_required`. -/
def nextWorkRequired (state : HeaderChainState) (params : PowParameters) :
    Except HeaderError UInt32 := do
  let nextHeight ← okOr (checkedSucc state.height) .heightOverflow
  let interval ← params.interval
  if nextHeight % interval ≠ 0 then
    rejectIf params.allowMinDifficultyBlocks .unsupportedMinDifficultyRule
    return state.tip.header.bits
  else if params.noRetargeting then return state.tip.header.bits
  else retarget params state.tip.header.bits state.tip.header.time state.intervalStartTime

/-- `lib::verify_successor`. -/
def verifySuccessor [Hashing] (state : HeaderChainState) (bytes : List UInt8)
    (params : PowParameters) : Except HeaderError HeaderChainState := do
  let expectedBits ← nextWorkRequired state params
  let successor ← verifyHeaderPowAgainstCallerSuppliedBits bytes expectedBits params
  rejectIf (successor.header.previousBlock ≠ state.tip.hash) .brokenParentLink
  let height ← okOr (checkedSucc state.height) .heightOverflow
  let cumulativeWork ← okOr (state.cumulativeWork.checkedAdd successor.work) .chainworkOverflow
  let interval ← params.interval
  let intervalStartTime :=
    if height % interval = 0 then successor.header.time else state.intervalStartTime
  return { height, tip := successor, cumulativeWork, intervalStartTime }

theorem checkedSucc_eq_some {value next : UInt32} :
    checkedSucc value = some next ↔ value.toNat + 1 = next.toNat := by
  unfold checkedSucc
  have fits := next.toNat_lt
  split
  · next room =>
    have sum : (value + 1).toNat = value.toNat + 1 := by
      rw [UInt32.toNat_add]
      exact Nat.mod_eq_of_lt room
    rw [Option.some.injEq, ← UInt32.toNat_inj, sum]
  · next room =>
    constructor
    · intro none
      cases none
    · intro same
      omega

/-- A header is decoded from its 80 bytes and from nothing else. -/
theorem BitcoinHeader.decodeExact_eq_ok {bytes : List UInt8} {header : BitcoinHeader} :
    BitcoinHeader.decodeExact bytes = .ok header ↔
      ∃ raw : FixedBytes 80, raw.bytes = bytes ∧ header = .ofRaw raw := by
  unfold BitcoinHeader.decodeExact
  split
  · next length =>
    rw [Except.ok.injEq]
    constructor
    · rintro rfl
      exact ⟨⟨bytes, length⟩, rfl, rfl⟩
    · rintro ⟨raw, rfl, rfl⟩
      rfl
  · next length =>
    constructor
    · intro failed
      cases failed
    · rintro ⟨raw, rfl, -⟩
      exact absurd raw.length_eq length

/-- The work of a block is positive. -/
theorem blockWork_pos {target work : Uint256} (worked : blockWork target = .ok work) :
    0 < work.toNat := by
  simp only [blockWork, bind_eq_ok, okOr_eq_ok, Option.bind_eq_some_iff] at worked
  obtain ⟨_, -, quotient, -, added⟩ := worked
  have sum := Uint256.toNat_of_checkedAddOne added
  omega

/-- An accepted header, and what the checks established about it. -/
theorem verifyHeaderPow_eq_ok [Hashing] {bytes : List UInt8} {bits : UInt32}
    {params : PowParameters} {verified : PowVerifiedHeader} :
    verifyHeaderPowAgainstCallerSuppliedBits bytes bits params = .ok verified ↔
      BitcoinHeader.decodeExact bytes = .ok verified.header ∧ verified.header.bits = bits ∧
      decodeAndValidateTarget bits params.powLimit = .ok verified.target ∧
      verified.hash = verified.header.blockHash ∧
      verified.hash.asNumber.toNat ≤ verified.target.toNat ∧
      blockWork verified.target = .ok verified.work := by
  simp only [verifyHeaderPowAgainstCallerSuppliedBits, ↓then_eq_ok, bind_eq_ok, rejectIf_eq_ok,
    pure_eq_ok, mapError_eq_ok, Uint256.lt_iff_toNat_lt, not_lt, not_not]
  constructor
  · rintro ⟨header, decoded, rfl, target, decodedTarget, enough, work, worked, rfl⟩
    exact ⟨decoded, rfl, decodedTarget, rfl, enough, worked⟩
  · rintro ⟨decoded, rfl, decodedTarget, hashed, enough, worked⟩
    refine ⟨_, decoded, rfl, _, decodedTarget, hashed ▸ enough, _, worked, ?_⟩
    rw [← hashed]

/-- What one accepted successor says about the two states. -/
theorem verifySuccessor_ok [Hashing] {state next : HeaderChainState} {bytes : List UInt8}
    {params : PowParameters} (accepted : verifySuccessor state bytes params = .ok next) :
    ∃ interval, params.interval = .ok interval ∧
      nextWorkRequired state params = .ok next.tip.header.bits ∧
      verifyHeaderPowAgainstCallerSuppliedBits bytes next.tip.header.bits params = .ok next.tip ∧
      next.tip.header.previousBlock = state.tip.hash ∧
      next.height.toNat = state.height.toNat + 1 ∧
      next.cumulativeWork.toNat = state.cumulativeWork.toNat + next.tip.work.toNat ∧
      next.intervalStartTime =
        (if next.height % interval = 0 then next.tip.header.time else state.intervalStartTime) := by
  simp only [verifySuccessor, ↓then_eq_ok, bind_eq_ok, rejectIf_eq_ok, okOr_eq_ok, pure_eq_ok,
    not_not] at accepted
  obtain ⟨bits, required, successor, verified, linked, height, counted, work, summed, interval,
    sized, rfl⟩ := accepted
  have sameBits := (verifyHeaderPow_eq_ok.mp verified).2.1
  refine ⟨interval, sized, sameBits ▸ required, sameBits ▸ verified, linked, ?_, ?_, rfl⟩
  · exact (checkedSucc_eq_some.mp counted).symm
  · exact Uint256.toNat_of_checkedAdd summed

end Usdd.BitcoinBmm

import Usdd.Core.BurnAccumulator
import Usdd.Core.Limits
/-!
# The finalized Elements state

The ten fields the vault finalizes about Elements and its Bitcoin parent, their packed bytes,
and the rule by which one state follows another. The all-zero state stands for a vault that
has finalized nothing; it is exempt from the checks that only make sense after activation.
-/
namespace Usdd.Core

open Usdd.Foundation

/-- `types::SolidityElementsBridgeState`; the chainwork is a big-endian `uint256`. -/
@[ext]
structure SolidityElementsBridgeState where
  sequence : UInt64
  burnCount : UInt64
  elementsTipHash : Hash32
  elementsConsensusStateDigest : Hash32
  cumulativeBurnRoot : Hash32
  finalizedBitcoinBlockHash : Hash32
  bitcoinHeight : UInt64
  elementsHeight : UInt64
  bitcoinMedianTimePast : UInt64
  bitcoinChainwork : Hash32
deriving DecidableEq

namespace SolidityElementsBridgeState

/-- `SolidityElementsBridgeState::is_zero`. -/
def IsZero (state : SolidityElementsBridgeState) : Prop :=
  state.sequence = 0 ∧ state.burnCount = 0 ∧ state.elementsTipHash = .zero ∧
    state.elementsConsensusStateDigest = .zero ∧ state.cumulativeBurnRoot = .zero ∧
    state.finalizedBitcoinBlockHash = .zero ∧ state.bitcoinHeight = 0 ∧
    state.elementsHeight = 0 ∧ state.bitcoinMedianTimePast = 0 ∧ state.bitcoinChainwork = .zero

instance (state : SolidityElementsBridgeState) : Decidable state.IsZero := by
  unfold IsZero
  infer_instance

/-- The state of a vault that has finalized nothing. -/
def zero : SolidityElementsBridgeState :=
  ⟨0, 0, .zero, .zero, .zero, .zero, 0, 0, 0, .zero⟩

theorem isZero_iff {state : SolidityElementsBridgeState} : state.IsZero ↔ state = zero := by
  rw [SolidityElementsBridgeState.ext_iff]
  rfl

section Checks

variable [Hashing]

/-- `SolidityElementsBridgeState::validate`. -/
def validate (state : SolidityElementsBridgeState) : Except DecodeError Unit :=
  if state.IsZero then .ok ()
  else do
    rejectIf (state.elementsTipHash = .zero ∨ state.elementsConsensusStateDigest = .zero ∨
        state.cumulativeBurnRoot = .zero ∨ state.finalizedBitcoinBlockHash = .zero ∨
        state.bitcoinChainwork = .zero)
      (.invalidValue "invalid Solidity Elements state")
    rejectIf (state.burnCount = 0 ∧ state.cumulativeBurnRoot ≠ emptyBurnNode 64)
      (.invalidValue "noncanonical empty burn accumulator root")

/-- `SolidityElementsBridgeState::validate_successor`. -/
def validateSuccessor (state next : SolidityElementsBridgeState) : Except DecodeError Unit := do
  state.validate
  next.validate
  rejectIf next.IsZero (.invalidValue "zero successor Elements state")
  let expected ← okOr (checkedAdd state.sequence 1)
    (.invalidValue "Elements state sequence overflow")
  rejectIf (next.sequence ≠ expected) (.invalidValue "wrong Elements state sequence")
  rejectIf (next.burnCount < state.burnCount) (.invalidValue "burn count decreased")
  rejectIf (next.burnCount - state.burnCount > UInt64.ofNat maxBurnAppendsPerStateTransition)
    (.invalidValue "too many burns in one Elements state transition")
  rejectIf (state.sequence ≠ 0 ∧ next.burnCount = state.burnCount ∧
      next.cumulativeBurnRoot ≠ state.cumulativeBurnRoot)
    (.invalidValue "burn root changed without a burn")
  rejectIf (state.sequence ≠ 0 ∧
      next.elementsConsensusStateDigest = state.elementsConsensusStateDigest)
    (.invalidValue "Elements consensus state digest did not advance")
  rejectIf (next.bitcoinHeight ≤ state.bitcoinHeight ∨
      next.elementsHeight ≤ state.elementsHeight ∨
      next.bitcoinMedianTimePast < state.bitcoinMedianTimePast ∨
      ¬state.bitcoinChainwork < next.bitcoinChainwork)
    (.invalidValue "Elements/Bitcoin finalized context did not advance")

/-- What a validated state satisfies when it is not the zero state. -/
structure Canonical (state : SolidityElementsBridgeState) : Prop where
  tip : state.elementsTipHash ≠ .zero
  digest : state.elementsConsensusStateDigest ≠ .zero
  root : state.cumulativeBurnRoot ≠ .zero
  block : state.finalizedBitcoinBlockHash ≠ .zero
  work : state.bitcoinChainwork ≠ .zero
  empty : state.burnCount = 0 → state.cumulativeBurnRoot = emptyBurnNode 64

theorem validate_eq_ok {state : SolidityElementsBridgeState} :
    state.validate = .ok () ↔ state = zero ∨ state.Canonical := by
  unfold validate
  split
  · rename_i blank
    simp [isZero_iff.mp blank]
  · rename_i nonzero
    rw [isZero_iff] at nonzero
    simp only [↓then_eq_ok, rejectIf_eq_ok, not_or, not_and, ne_eq, not_not, nonzero, false_or]
    constructor
    · rintro ⟨⟨tip, digest, root, block, work⟩, empty⟩
      exact ⟨tip, digest, root, block, work, empty⟩
    · intro valid
      exact ⟨⟨valid.tip, valid.digest, valid.root, valid.block, valid.work⟩, valid.empty⟩

/-- The rule by which one finalized state follows another. -/
structure Follows (state next : SolidityElementsBridgeState) : Prop where
  canonical : next.Canonical
  sequence : next.sequence.toNat = state.sequence.toNat + 1
  count_le : state.burnCount.toNat ≤ next.burnCount.toNat
  growth_le : next.burnCount.toNat ≤ state.burnCount.toNat + 64
  root : state.sequence ≠ 0 → next.burnCount = state.burnCount →
    next.cumulativeBurnRoot = state.cumulativeBurnRoot
  digest : state.sequence ≠ 0 →
    next.elementsConsensusStateDigest ≠ state.elementsConsensusStateDigest
  bitcoinHeight : state.bitcoinHeight.toNat < next.bitcoinHeight.toNat
  elementsHeight : state.elementsHeight.toNat < next.elementsHeight.toNat
  medianTime : state.bitcoinMedianTimePast.toNat ≤ next.bitcoinMedianTimePast.toNat
  work : state.bitcoinChainwork.toNat < next.bitcoinChainwork.toNat

/-- The successor check succeeds exactly on a valid state and a state that follows it. -/
theorem validateSuccessor_eq_ok {state next : SolidityElementsBridgeState} :
    state.validateSuccessor next = .ok () ↔
      (state = zero ∨ state.Canonical) ∧ state.Follows next := by
  have growth : state.burnCount.toNat ≤ next.burnCount.toNat →
      (next.burnCount - state.burnCount).toNat =
        next.burnCount.toNat - state.burnCount.toNat := fun ordered =>
    UInt64.toNat_sub_of_le _ _ (UInt64.le_iff_toNat_le.mpr ordered)
  simp only [validateSuccessor]
  simp only [↓then_eq_ok, bind_eq_ok, rejectIf_eq_ok, okOr_eq_ok, checkedAdd_eq_some,
    validate_eq_ok, isZero_iff, not_or, not_and, ne_eq, not_not, gt_iff_lt,
    UInt64.lt_iff_toNat_lt, UInt64.le_iff_toNat_le, FixedBytes.lt_iff_toNat_lt, Nat.not_lt,
    Nat.not_le]
  rw [show (UInt64.ofNat maxBurnAppendsPerStateTransition).toNat = 64 from rfl]
  constructor
  · rintro ⟨prior, checked, nonzero, expected, value, sequence, count, grown, root, digest,
      bitcoin, elements, median, work⟩
    rw [growth count] at grown
    refine ⟨prior, checked.resolve_left nonzero, ?_, count, by omega, root, digest, bitcoin,
      elements, median, work⟩
    rw [sequence, value]
    rfl
  · rintro ⟨prior, follows⟩
    have grown := follows.growth_le
    refine ⟨prior, Or.inr follows.canonical, ?_, next.sequence, follows.sequence, rfl,
      follows.count_le, ?_, follows.root, follows.digest, follows.bitcoinHeight,
      follows.elementsHeight, follows.medianTime, follows.work⟩
    · rintro rfl
      exact follows.canonical.tip rfl
    · rw [growth follows.count_le]
      omega

end Checks

/-- `SolidityElementsBridgeState::packed_contents`, as its segments. -/
def packedSegments (state : SolidityElementsBridgeState) : List (List UInt8) :=
  [encode state.sequence, encode state.burnCount, encode state.elementsTipHash,
    encode state.elementsConsensusStateDigest, encode state.cumulativeBurnRoot,
    encode state.finalizedBitcoinBlockHash, encode state.bitcoinHeight,
    encode state.elementsHeight, encode state.bitcoinMedianTimePast,
    encode state.bitcoinChainwork]

/-- `SolidityElementsBridgeState::packed_contents`. -/
def packedContents (state : SolidityElementsBridgeState) : List UInt8 :=
  state.packedSegments.flatten

/-- `SolidityElementsBridgeState::contents_hash`. -/
def contentsHash [Hashing] (state : SolidityElementsBridgeState) : Hash32 :=
  hashBytes state.packedContents

/-- The packed bytes determine the state. -/
theorem packedContents_inj {left right : SolidityElementsBridgeState}
    (same : left.packedContents = right.packedContents) : left = right := by
  have segments := flatten_inj (by simp [packedSegments]) same
  simp only [packedSegments, List.cons.injEq, encode_u64_inj, encode_fixed_inj, and_true]
    at segments
  obtain ⟨sequence, count, tip, digest, root, block, bitcoin, elements, median, work⟩ := segments
  exact SolidityElementsBridgeState.ext sequence count tip digest root block bitcoin elements
    median work

end SolidityElementsBridgeState

end Usdd.Core

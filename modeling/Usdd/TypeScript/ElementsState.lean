import Usdd.Core.ElementsState
/-!
# The Elements state in TypeScript

The TypeScript client checks Elements states on its own. Its integers are unbounded and its
hashes are byte arrays of any length, so each check starts with the ranges and lengths the
other implementations have in their types. On values that come from those types the client
decides as the Rust crate does.
-/
namespace Usdd.TypeScript

open Usdd.Foundation Usdd.Core

/-- The interface `SolidityElementsBridgeState`. -/
structure SolidityElementsBridgeState where
  sequence : Int
  burnCount : Int
  elementsTipHash : List UInt8
  elementsConsensusStateDigest : List UInt8
  cumulativeBurnRoot : List UInt8
  finalizedBitcoinBlockHash : List UInt8
  bitcoinHeight : Int
  elementsHeight : Int
  bitcoinMedianTimePast : Int
  bitcoinChainwork : List UInt8

/-- `U64_LIMIT`. -/
def u64Limit : Int := 2 ^ 64

/-- `EMPTY_BURN_ROOT`. -/
def emptyBurnRoot : List UInt8 :=
  beBytes 32 0xc13fcc5e95b202155d131894da01dff87c8ac722937c76415daab46e53ed40db

/-- `assertU64`. -/
def assertU64 (value : Int) (name : String) : Except String Unit :=
  rejectIf (value < 0 ∨ value ≥ u64Limit) (name ++ " must fit u64")

/-- `assertLength`. -/
def assertLength (bytes : List UInt8) (length : Nat) (name : String) : Except String Unit :=
  rejectIf (bytes.length ≠ length) (name ++ " must be " ++ toString length ++ " bytes")

/-- `isZero`. -/
def isZero (bytes : List UInt8) : Bool := bytes.all (· == 0)

/-- `assertNonzero`. -/
def assertNonzero (bytes : List UInt8) (name : String) : Except String Unit :=
  rejectIf (isZero bytes = true) (name ++ " must be nonzero")

/-- `bytesEqual`: equal lengths, and every byte of the left one stands at its index on the
right. -/
def bytesEqual (left right : List UInt8) : Bool :=
  left.length == right.length && (left.zip right).all fun pair => pair.1 == pair.2

/-- The loop of `compareBigEndian`. -/
def compareFrom : List UInt8 → List UInt8 → Int
  | a :: left, b :: right => if a < b then -1 else if a > b then 1 else compareFrom left right
  | _, _ => 0

/-- `compareBigEndian`. -/
def compareBigEndian (left right : List UInt8) : Except String Int := do
  assertLength left 32 "left uint256"
  assertLength right 32 "right uint256"
  return compareFrom left right

/-- `checkedAddU64`. -/
def checkedAddU64 (left right : Int) (name : String) : Except String Int := do
  assertU64 left name
  assertU64 right name
  rejectIf (left + right ≥ u64Limit) (name ++ " overflow")
  return left + right

/-- `isZeroSolidityElementsBridgeState`. -/
def isZeroSolidityElementsBridgeState (value : SolidityElementsBridgeState) : Bool :=
  value.sequence == 0 && value.burnCount == 0 && isZero value.elementsTipHash &&
    isZero value.elementsConsensusStateDigest && isZero value.cumulativeBurnRoot &&
    isZero value.finalizedBitcoinBlockHash && value.bitcoinHeight == 0 &&
    value.elementsHeight == 0 && value.bitcoinMedianTimePast == 0 &&
    isZero value.bitcoinChainwork

/-- The byte fields of a state with the names its errors use. -/
def SolidityElementsBridgeState.byteFields (value : SolidityElementsBridgeState) :
    List (String × List UInt8) :=
  [("Elements tip hash", value.elementsTipHash),
    ("Elements consensus state digest", value.elementsConsensusStateDigest),
    ("cumulative burn root", value.cumulativeBurnRoot),
    ("finalized Bitcoin block hash", value.finalizedBitcoinBlockHash),
    ("Bitcoin chainwork", value.bitcoinChainwork)]

/-- `validateSolidityElementsBridgeState`. -/
def validateSolidityElementsBridgeState (value : SolidityElementsBridgeState) :
    Except String Unit := do
  assertU64 value.sequence "Elements state sequence"
  assertU64 value.burnCount "burn count"
  assertU64 value.bitcoinHeight "Bitcoin height"
  assertU64 value.elementsHeight "Elements height"
  assertU64 value.bitcoinMedianTimePast "Bitcoin median time past"
  value.byteFields.forM fun (name, bytes) => assertLength bytes 32 name
  if isZeroSolidityElementsBridgeState value then return
  else
    value.byteFields.forM fun (name, bytes) => assertNonzero bytes name
    rejectIf (value.burnCount = 0 ∧ bytesEqual value.cumulativeBurnRoot emptyBurnRoot = false)
      "noncanonical empty burn root"

/-- `validateElementsStateSuccessor`. -/
def validateElementsStateSuccessor (prior next : SolidityElementsBridgeState) :
    Except String Unit := do
  validateSolidityElementsBridgeState prior
  validateSolidityElementsBridgeState next
  rejectIf (isZeroSolidityElementsBridgeState next = true) "zero successor Elements state"
  let expected ← checkedAddU64 prior.sequence 1 "Elements state sequence"
  rejectIf (next.sequence ≠ expected) "wrong Elements state sequence"
  rejectIf (next.burnCount < prior.burnCount) "burn count decreased"
  rejectIf (next.burnCount - prior.burnCount > 64) "burn count growth exceeds 64"
  rejectIf (prior.sequence ≠ 0 ∧ next.burnCount = prior.burnCount ∧
      bytesEqual next.cumulativeBurnRoot prior.cumulativeBurnRoot = false)
    "burn root changed without a burn"
  rejectIf (prior.sequence ≠ 0 ∧
      bytesEqual next.elementsConsensusStateDigest prior.elementsConsensusStateDigest = true)
    "Elements consensus state digest did not advance"
  let stalled := "Elements/Bitcoin finalized context did not advance"
  rejectIf (next.bitcoinHeight ≤ prior.bitcoinHeight ∨ next.elementsHeight ≤ prior.elementsHeight ∨
      next.bitcoinMedianTimePast < prior.bitcoinMedianTimePast) stalled
  let work ← compareBigEndian next.bitcoinChainwork prior.bitcoinChainwork
  rejectIf (work ≤ 0) stalled

section Values

@[simp]
theorem assertU64_eq_ok {value : Int} {name : String} :
    assertU64 value name = .ok () ↔ 0 ≤ value ∧ value < 2 ^ 64 := by
  rw [assertU64, rejectIf_eq_ok, not_or, not_lt, not_le, u64Limit]

/-- A 64-bit word is in range. -/
theorem assertU64_word (value : UInt64) (name : String) :
    assertU64 value.toNat name = .ok () := by
  rw [assertU64_eq_ok]
  have bound := value.toNat_lt
  omega

/-- A fixed-width string has its width. -/
theorem assertLength_fixed {width : Nat} (value : FixedBytes width) (name : String) :
    assertLength value.bytes width name = .ok () := by
  rw [assertLength, rejectIf_eq_ok, not_not, value.length_eq]

/-- A string is zero exactly when all its bytes are. -/
@[simp]
theorem isZero_fixed {width : Nat} (value : FixedBytes width) :
    isZero value.bytes = true ↔ value = .zero width := by
  rw [isZero, List.all_eq_true, FixedBytes.ext_iff, FixedBytes.zero]
  simp only [beq_iff_eq, List.eq_replicate_iff, value.length_eq, true_and]

/-- A string is not zero exactly when it differs from the zero string. -/
theorem assertNonzero_fixed {width : Nat} (value : FixedBytes width) (name : String) :
    assertNonzero value.bytes name = .ok () ↔ value ≠ .zero width := by
  rw [assertNonzero, rejectIf_eq_ok, isZero_fixed]

/-- Byte comparison is equality. -/
theorem bytesEqual_iff {left right : List UInt8} :
    bytesEqual left right = true ↔ left = right := by
  induction left generalizing right with
  | nil => cases right <;> simp [bytesEqual]
  | cons a left ih =>
    cases right with
    | nil => simp [bytesEqual]
    | cons b right =>
      have rest : bytesEqual left right = true ↔ left = right := ih
      simp only [bytesEqual, Bool.and_eq_true, beq_iff_eq] at rest
      simp only [bytesEqual, List.length_cons, List.zip_cons_cons, List.all_cons,
        Bool.and_eq_true, beq_iff_eq, Nat.add_right_cancel_iff, List.cons.injEq, ← rest]
      tauto

/-- The comparison loop is positive exactly when the right string comes first. -/
theorem compareFrom_le {left right : List UInt8} (lengths : left.length = right.length) :
    compareFrom left right ≤ 0 ↔ ¬right < left := by
  induction left, right, lengths using sameLength_induction with
  | nil => simp [compareFrom]
  | cons a left b right shorter ih =>
    rw [compareFrom, List.cons_lt_cons_iff]
    simp only [gt_iff_lt, UInt8.lt_iff_toNat_lt, ← UInt8.toNat_inj]
    rcases Nat.lt_trichotomy a.toNat b.toNat with below | same | above
    · rw [if_pos below]
      simp only [Int.reduceNeg, Int.reduceLE, true_iff]
      omega
    · rw [if_neg (by omega), if_neg (by omega), ih]
      simp [same]
    · rw [if_neg (by omega), if_pos above]
      simp [above]

/-- On 256-bit strings the comparison is that of the numbers. -/
theorem compareBigEndian_pos {left right : Hash32} :
    (∃ sign, compareBigEndian left.bytes right.bytes = .ok sign ∧ 0 < sign) ↔
      right.toNat < left.toNat := by
  have lengths : left.bytes.length = right.bytes.length := by
    rw [left.length_eq, right.length_eq]
  have positive : 0 < compareFrom left.bytes right.bytes ↔ right.bytes < left.bytes := by
    rw [← not_le, compareFrom_le lengths, not_not]
  simp only [compareBigEndian]
  simp only [↓then_eq_ok, assertLength_fixed, true_and, pure_eq_ok, exists_eq_left',
    positive]
  exact lt_iff_beNat_lt lengths.symm

/-- The checked sum of words is the exact sum, where it is one. -/
theorem checkedAddU64_eq_ok {left : UInt64} {sum : Int} {name : String} :
    checkedAddU64 left.toNat 1 name = .ok sum ↔ sum = left.toNat + 1 ∧ sum < 2 ^ 64 := by
  have one : assertU64 1 name = .ok () := assertU64_eq_ok.mpr (by omega)
  simp only [checkedAddU64]
  simp only [↓then_eq_ok, assertU64_word, one, true_and, rejectIf_eq_ok, pure_eq_ok, not_le,
    ge_iff_le]
  rw [show u64Limit = 2 ^ 64 from rfl]
  constructor
  · rintro ⟨fits, rfl⟩
    exact ⟨rfl, fits⟩
  · rintro ⟨rfl, fits⟩
    exact ⟨fits, rfl⟩

end Values

/-- The TypeScript value of a state. -/
def ofCore (state : Core.SolidityElementsBridgeState) : SolidityElementsBridgeState where
  sequence := state.sequence.toNat
  burnCount := state.burnCount.toNat
  elementsTipHash := state.elementsTipHash.bytes
  elementsConsensusStateDigest := state.elementsConsensusStateDigest.bytes
  cumulativeBurnRoot := state.cumulativeBurnRoot.bytes
  finalizedBitcoinBlockHash := state.finalizedBitcoinBlockHash.bytes
  bitcoinHeight := state.bitcoinHeight.toNat
  elementsHeight := state.elementsHeight.toNat
  bitcoinMedianTimePast := state.bitcoinMedianTimePast.toNat
  bitcoinChainwork := state.bitcoinChainwork.bytes

section Agreement

variable {state prior next : Core.SolidityElementsBridgeState}

private theorem word_eq_zero (value : UInt64) : (value.toNat : Int) = 0 ↔ value = 0 := by
  rw [← UInt64.toNat_inj]
  exact Int.natCast_eq_zero

/-- The zero state is the same state. -/
theorem isZero_ofCore : isZeroSolidityElementsBridgeState (ofCore state) = true ↔
    state = .zero := by
  simp only [isZeroSolidityElementsBridgeState, ofCore, Bool.and_eq_true, beq_iff_eq,
    word_eq_zero, isZero_fixed, ← SolidityElementsBridgeState.isZero_iff,
    SolidityElementsBridgeState.IsZero, and_assoc]

variable [Hashing] (canonical : (emptyBurnNode 64).bytes = emptyBurnRoot)
include canonical

/-- The client accepts the states the crate accepts. -/
theorem validate_ofCore : validateSolidityElementsBridgeState (ofCore state) = .ok () ↔
    state = .zero ∨ state.Canonical := by
  have lengths : ((ofCore state).byteFields.forM
      fun field => assertLength field.2 32 field.1) = .ok () := by
    rw [forM_eq_ok]
    simp [SolidityElementsBridgeState.byteFields, ofCore, assertLength_fixed]
  have nonzero : ((ofCore state).byteFields.forM
      fun field => assertNonzero field.2 field.1) = .ok () ↔
      state.elementsTipHash ≠ .zero ∧ state.elementsConsensusStateDigest ≠ .zero ∧
        state.cumulativeBurnRoot ≠ .zero ∧ state.finalizedBitcoinBlockHash ≠ .zero ∧
        state.bitcoinChainwork ≠ .zero := by
    rw [forM_eq_ok]
    simp [SolidityElementsBridgeState.byteFields, ofCore, assertNonzero_fixed]
  have empty : bytesEqual state.cumulativeBurnRoot.bytes emptyBurnRoot = false ↔
      ¬state.cumulativeBurnRoot = emptyBurnNode 64 := by
    rw [← Bool.not_eq_true, bytesEqual_iff, ← canonical, FixedBytes.ext_iff]
  have words : ∀ (value : UInt64) name, assertU64 value.toNat name = .ok () := assertU64_word
  simp only [validateSolidityElementsBridgeState]
  simp only [↓then_eq_ok, lengths, true_and]
  split
  · rename_i blank
    rw [isZero_ofCore] at blank
    simp only [blank, true_or, iff_true]
    exact ⟨words _ _, words _ _, words _ _, words _ _, words _ _, rfl⟩
  · rename_i set
    rw [isZero_ofCore] at set
    simp only [↓then_eq_ok, nonzero, rejectIf_eq_ok, set, false_or]
    constructor
    · rintro ⟨_, _, _, _, _, ⟨tip, digest, root, block, work⟩, exempt⟩
      refine ⟨tip, digest, root, block, work, fun none => ?_⟩
      by_contra different
      exact exempt ⟨(word_eq_zero _).mpr none, empty.mpr different⟩
    · rintro ⟨tip, digest, root, block, work, rooted⟩
      refine ⟨words _ _, words _ _, words _ _, words _ _, words _ _,
        ⟨tip, digest, root, block, work⟩, ?_⟩
      rintro ⟨none, different⟩
      exact empty.mp different (rooted ((word_eq_zero _).mp none))

/-- The client accepts the successors the crate accepts. -/
theorem validateElementsStateSuccessor_ofCore :
    validateElementsStateSuccessor (ofCore prior) (ofCore next) = .ok () ↔
      prior.validateSuccessor next = .ok () := by
  rw [SolidityElementsBridgeState.validateSuccessor_eq_ok]
  simp only [validateElementsStateSuccessor]
  simp only [↓then_eq_ok, validate_ofCore canonical, bind_eq_ok, rejectIf_eq_ok, isZero_ofCore]
  simp only [ofCore, compareBigEndian_pos, checkedAddU64_eq_ok, bytesEqual_iff, word_eq_zero,
    ← Bool.not_eq_true, not_or, not_and, not_not, not_lt, not_le, ne_eq, gt_iff_lt, Int.natCast_inj,
    UInt64.toNat_inj, ← FixedBytes.ext_iff]
  constructor
  · rintro ⟨valid, checked, nonzero, expected, ⟨value, bound⟩, sequence, count, growth, root, digest,
      ⟨bitcoin, elements, median⟩, work⟩
    exact ⟨valid, checked.resolve_left nonzero, by omega, by omega, by omega, root, digest,
      by omega, by omega, by omega, work⟩
  · rintro ⟨valid, follows⟩
    have sequence := follows.sequence
    have count := follows.count_le
    have growth := follows.growth_le
    have bitcoin := follows.bitcoinHeight
    have elements := follows.elementsHeight
    have median := follows.medianTime
    have bound := next.sequence.toNat_lt
    refine ⟨valid, Or.inr follows.canonical, ?_, next.sequence.toNat, ⟨by omega, by omega⟩, rfl,
      by omega, by omega, follows.root, follows.digest, ⟨by omega, by omega, by omega⟩,
      follows.work⟩
    rintro rfl
    exact follows.canonical.tip rfl

end Agreement

end Usdd.TypeScript

import Usdd.Simplicity.Formats
/-!
# Controller transitions of the Simplicity tools

The tools keep a second controller as a reference for the Simplicity program. Its states are
unbounded integers and byte strings that every transition checks on entry, so an accepted state
is one of the crate's.
-/
namespace Usdd.Simplicity

open Usdd.Foundation Usdd.TypeScript

/-- `MAX_MINT_BATCH`. -/
def maxMintBatch : Nat := 64

/-- `MAX_MINT_BATCH_USDT_MICRO`. -/
def maxMintBatchUsdtMicro : Int := maxMintBatchUsddBase / usddUnitsPerUsdtMicro

/-- `MAX_DEPOSIT_AMOUNT_USDT_MICRO`. -/
def maxDepositAmountUsdtMicro : Int := maxMintBatchUsdtMicro

/-- `MAX_ETHEREUM_FINALITY_SLOT_GAP`. -/
def maxEthereumFinalitySlotGap : Int := 4096

/-- The class `ControllerState`. -/
@[ext]
structure ControllerState where
  version : Int
  sequence : Int
  nextMintNonce : Int
  ethLightClientDigest : List UInt8
  finalizedBeaconSlot : Int
  finalizedBeaconRoot : List UInt8
  executionRoot : List UInt8
  totalMinted : Int
  configHash : List UInt8

/-- `validate_controller_state`. -/
def validateControllerState (state : ControllerState) : Except String Unit := do
  rejectIf (state.version ≠ 1) "controller version must be 1"
  checkUint "sequence" state.sequence 64 false
  checkUint "next_mint_nonce" state.nextMintNonce 64 false
  checkBytes "eth_light_client_digest" state.ethLightClientDigest (some 32) true
  checkUint "finalized_beacon_slot" state.finalizedBeaconSlot 64 false
  checkBytes "finalized_beacon_root" state.finalizedBeaconRoot (some 32) false
  checkBytes "execution_root" state.executionRoot (some 32) false
  checkUint "total_minted" state.totalMinted 64 false
  checkBytes "config_hash" state.configHash (some 32) true
  if state.finalizedBeaconSlot = 0 then
    rejectIf (state.sequence ≠ 0 ∨ state.totalMinted ≠ 0 ∨
        state.finalizedBeaconRoot.any (· != 0) = true ∨ state.executionRoot.any (· != 0) = true)
      "invalid bootstrap controller state"
  else
    rejectIf (state.finalizedBeaconRoot.any (· != 0) = false ∨
        state.executionRoot.any (· != 0) = false)
      "zero finalized state commitment"
  rejectIf (state.totalMinted % usddUnitsPerUsdtMicro ≠ 0)
    "total_minted is not exactly convertible to USDT micro-units"

/-- `CONTROLLER_STATE_SIZE`. -/
def controllerStateSize : Nat := 164

/-- `_CONTROLLER_STRUCT.pack`, with the format `>IQQ32sQ32s32sQ32s`. -/
def packControllerState (state : ControllerState) : List UInt8 :=
  [beBytes 4 state.version.toNat, beBytes 8 state.sequence.toNat,
    beBytes 8 state.nextMintNonce.toNat, state.ethLightClientDigest,
    beBytes 8 state.finalizedBeaconSlot.toNat, state.finalizedBeaconRoot, state.executionRoot,
    beBytes 8 state.totalMinted.toNat, state.configHash].flatten

/-- `encode_controller_state`. -/
def encodeControllerState (state : ControllerState) : Except String (List UInt8) := do
  validateControllerState state
  let encoded := packControllerState state
  rejectIf (encoded.length ≠ controllerStateSize) "AssertionError"
  return encoded

/-- `_CONTROLLER_STRUCT.unpack`. -/
def unpackControllerState (data : List UInt8) : ControllerState where
  version := beNat (slice data 0 4)
  sequence := beNat (slice data 4 12)
  nextMintNonce := beNat (slice data 12 20)
  ethLightClientDigest := slice data 20 52
  finalizedBeaconSlot := beNat (slice data 52 60)
  finalizedBeaconRoot := slice data 60 92
  executionRoot := slice data 92 124
  totalMinted := beNat (slice data 124 132)
  configHash := slice data 132 164

/-- `decode_controller_state`. -/
def decodeControllerState (data : List UInt8) : Except String ControllerState := do
  checkBytes "controller state" data (some controllerStateSize) false
  let state := unpackControllerState data
  validateControllerState state
  return state

/-- The loop of `validate_mint_batch`, from a position of the batch on. -/
def convertPairs (expectedNonce : Int) :
    Nat → Int → List (Int × Int) → Except String (List Int × Int)
  | _, total, [] => return ([], total)
  | index, total, (nonce, amount) :: rest => do
    checkUint "nonce" nonce 64 false
    let expected := expectedNonce + index
    rejectIf (expected > u64Max ∨ nonce ≠ expected)
      "mint nonces must be consecutive from nextMintNonce"
    rejectIf (amount > maxDepositAmountUsdtMicro)
      "deposit exceeds the immutable per-deposit limit"
    let convertedAmount ← usdt6ToUsdd8 amount
    rejectIf (total + convertedAmount > u64Max) "mint batch sum overflows u64"
    let (converted, sum) ← convertPairs expectedNonce (index + 1) (total + convertedAmount) rest
    return (convertedAmount :: converted, sum)

/-- `validate_mint_batch`. -/
def validateMintBatch (expectedNonce : Int) (nonces amountsUsdt6 : List Int) :
    Except String (List Int × Int) := do
  checkUint "expected_nonce" expectedNonce 64 false
  rejectIf (nonces.length ≠ amountsUsdt6.length ∨
      ¬(1 ≤ nonces.length ∧ nonces.length ≤ maxMintBatch))
    "mint batch must contain 1..64 nonce/amount pairs"
  let (converted, total) ← convertPairs expectedNonce 0 0 (nonces.zip amountsUsdt6)
  rejectIf (total > maxMintBatchUsddBase)
    "mint batch exceeds the Elements explicit-output budget"
  return (converted, total)

/-- `validate_controller_transition`. -/
def validateControllerTransition (current proposed : ControllerState)
    (nonces amountsUsdt6 : List Int) : Except String Int := do
  validateControllerState current
  validateControllerState proposed
  let (_, batchTotal) ← validateMintBatch current.nextMintNonce nonces amountsUsdt6
  rejectIf (current.sequence = u64Max ∨ proposed.sequence ≠ current.sequence + 1)
    "controller sequence must advance exactly once"
  let nextNonce := current.nextMintNonce + nonces.length
  rejectIf (nextNonce > u64Max ∨ proposed.nextMintNonce ≠ nextNonce)
    "nextMintNonce does not match batch"
  let nextTotal := current.totalMinted + batchTotal
  rejectIf (nextTotal > u64Max ∨ proposed.totalMinted ≠ nextTotal)
    "totalMinted does not match batch"
  rejectIf (proposed.version ≠ current.version ∨ proposed.configHash ≠ current.configHash)
    "immutable controller field changed"
  rejectIf (proposed.finalizedBeaconSlot < current.finalizedBeaconSlot)
    "finalized beacon slot decreased"
  rejectIf (proposed.finalizedBeaconSlot - current.finalizedBeaconSlot >
      maxEthereumFinalitySlotGap)
    "finalized beacon slot gap exceeds 4096"
  return batchTotal

/-- `validate_heartbeat_transition`. -/
def validateHeartbeatTransition (current proposed : ControllerState) : Except String Unit := do
  validateControllerState current
  validateControllerState proposed
  rejectIf (current.sequence = u64Max ∨ proposed.sequence ≠ current.sequence + 1)
    "heartbeat sequence must advance exactly once"
  rejectIf (proposed.nextMintNonce ≠ current.nextMintNonce ∨
      proposed.totalMinted ≠ current.totalMinted)
    "heartbeat cannot consume a nonce or change totalMinted"
  rejectIf (proposed.version ≠ current.version ∨ proposed.configHash ≠ current.configHash)
    "heartbeat changed an immutable controller field"
  rejectIf (proposed.finalizedBeaconSlot ≤ current.finalizedBeaconSlot)
    "heartbeat must prove a strictly newer finalized beacon slot"
  rejectIf (proposed.finalizedBeaconSlot - current.finalizedBeaconSlot >
      maxEthereumFinalitySlotGap)
    "heartbeat finalized beacon slot gap exceeds 4096"
  rejectIf (proposed.ethLightClientDigest = current.ethLightClientDigest)
    "heartbeat must update the Ethereum light-client digest"

section States

/-- A controller state of the crate in the tools. -/
def ControllerState.ofCore (state : Core.MintControllerState) : ControllerState where
  version := state.version.toNat
  sequence := state.sequence.toNat
  nextMintNonce := state.nextMintNonce.toNat
  ethLightClientDigest := state.ethereumLightClientDigest.bytes
  finalizedBeaconSlot := state.finalizedBeaconSlot.toNat
  finalizedBeaconRoot := state.finalizedBeaconRoot.bytes
  executionRoot := state.finalizedExecutionStateRoot.bytes
  totalMinted := state.totalMintedUsddBase.toNat
  configHash := state.configurationHash.bytes

/-- An integer in the range of a word is one. -/
theorem exists_word {value : Int} (lower : 0 ≤ value) (upper : value < 2 ^ 64) :
    ∃ word : UInt64, value = word.toNat := by
  refine ⟨.ofNat value.toNat, ?_⟩
  have fits : value.toNat < 2 ^ 64 := by omega
  rw [UInt64.toNat_ofNat_of_lt' fits]
  omega

theorem any_zero_iff {width : Nat} (value : FixedBytes width) :
    (value.bytes.any (· != 0)) = true ↔ value ≠ .zero width := by
  rw [← Bool.not_eq_false, ne_eq, any_ne_zero]

/-- The rules of a state whose fields are words and strings of their widths. -/
theorem validateControllerState_ofCore {core : Core.MintControllerState} :
    validateControllerState (.ofCore core) = .ok () ↔ core.Valid := by
  have words : ∀ (name : String) (value : UInt64),
      checkUint name value.toNat 64 false = .ok () := by
    intro name value
    have bound := value.toNat_lt
    simp only [checkUint_eq_ok, Bool.false_eq_true, if_false]
    omega
  have strings : ∀ (name : String) (value : Core.Hash32) (nonzero : Bool),
      checkBytes name value.bytes (some 32) nonzero = .ok () ↔
        (nonzero = true → value ≠ .zero) := by
    intro name value nonzero
    rw [checkBytes_eq_ok]
    constructor
    · rintro ⟨fixed, same, checked⟩
      rw [FixedBytes.ext same]
      exact checked
    · intro checked
      exact ⟨value, rfl, checked⟩
  have zeros : ∀ value : UInt64, (value.toNat : Int) = 0 ↔ value = 0 := by
    intro value
    rw [← UInt64.toNat_inj, UInt64.toNat_zero]
    omega
  have version : (core.version.toNat : Int) = 1 ↔ core.version = Core.protocolVersion := by
    rw [← UInt32.toNat_inj, show Core.protocolVersion.toNat = 1 from rfl]
    omega
  have remainder : (core.totalMintedUsddBase.toNat : Int) % 100 = 0 ↔
      core.totalMintedUsddBase.toNat % 100 = 0 := by omega
  simp only [validateControllerState]
  by_cases fresh : core.finalizedBeaconSlot = 0
  · have slot : (ControllerState.ofCore core).finalizedBeaconSlot = 0 := (zeros _).mpr fresh
    rw [if_pos slot]
    simp only [↓then_eq_ok, rejectIf_eq_ok]
    simp only [ControllerState.ofCore, usddUnitsPerUsdtMicro, version, remainder, words, strings,
      zeros, any_zero_iff, true_and, not_not, not_or, ne_eq, forall_const, Bool.false_eq_true,
      false_implies]
    constructor
    · rintro ⟨versionOk, digest, config, blank, convertible⟩
      exact ⟨versionOk, config, digest, fun _ => blank, fun wrong => (wrong fresh).elim,
        convertible⟩
    · intro valid
      exact ⟨valid.version, valid.digest, valid.configuration, valid.fresh fresh,
        valid.convertible⟩
  · have slot : (ControllerState.ofCore core).finalizedBeaconSlot ≠ 0 :=
      fun zero => fresh ((zeros _).mp zero)
    rw [if_neg slot]
    simp only [↓then_eq_ok, rejectIf_eq_ok]
    simp only [ControllerState.ofCore, usddUnitsPerUsdtMicro, version, remainder, words, strings,
      any_ne_zero, true_and, not_not, not_or, ne_eq, forall_const, Bool.false_eq_true, false_implies]
    constructor
    · rintro ⟨versionOk, digest, config, roots, convertible⟩
      exact ⟨versionOk, config, digest, fun wrong => (fresh wrong).elim, fun _ => roots,
        convertible⟩
    · intro valid
      exact ⟨valid.version, valid.digest, valid.configuration, valid.finalized fresh,
        valid.convertible⟩

/-- The states that the tools accept are the crate's valid states. -/
theorem validateControllerState_eq_ok {state : ControllerState} :
    validateControllerState state = .ok () ↔
      ∃ core : Core.MintControllerState, core.Valid ∧ state = .ofCore core := by
  constructor
  · intro accepted
    have checks := accepted
    simp only [validateControllerState] at checks
    simp only [↓then_eq_ok, rejectIf_eq_ok, checkUint_eq_ok, checkBytes_eq_ok, not_not, ne_eq,
      Bool.false_eq_true, if_false] at checks
    obtain ⟨version, ⟨sequenceLow, sequenceHigh⟩, ⟨nonceLow, nonceHigh⟩, ⟨digest, digestEq, -⟩,
      ⟨slotLow, slotHigh⟩, ⟨root, rootEq, -⟩, ⟨stateRoot, stateRootEq, -⟩,
      ⟨totalLow, totalHigh⟩, ⟨config, configEq, -⟩, -⟩ := checks
    obtain ⟨sequence, sequenceEq⟩ := exists_word sequenceLow sequenceHigh
    obtain ⟨nonce, nonceEq⟩ := exists_word nonceLow nonceHigh
    obtain ⟨slot, slotEq⟩ := exists_word slotLow slotHigh
    obtain ⟨total, totalEq⟩ := exists_word totalLow totalHigh
    have same : state = .ofCore
        ⟨1, sequence, nonce, digest, slot, root, stateRoot, total, config⟩ := by
      ext1 <;> assumption
    rw [same] at accepted
    exact ⟨_, validateControllerState_ofCore.mp accepted, same⟩
  · rintro ⟨core, valid, rfl⟩
    exact validateControllerState_ofCore.mpr valid

end States

section Batches

/-- The rules of a batch that starts at a nonce. -/
structure BatchRules (first : Nat) (nonces amounts : List Int) : Prop where
  sizes : nonces.length = amounts.length
  nonempty : 1 ≤ nonces.length
  size_le : nonces.length ≤ 64
  consecutive : nonces = (List.range' first nonces.length).map Nat.cast
  nonces_lt : ∀ nonce ∈ nonces, nonce < 2 ^ 64
  each : ∀ amount ∈ amounts, 1 ≤ amount ∧ amount ≤ 20000000000000
  budget : amounts.sum ≤ 20000000000000

/-- What the loop accepts from a position on, and the totals that it returns. The running total
only rises, so its last value bounds it. -/
theorem convertPairs_eq_ok {first index : Nat} {start : Int} {pairs : List (Int × Int)}
    {result : List Int × Int} (fits : start ≤ u64Max) :
    convertPairs first index start pairs = .ok result ↔
      pairs.map Prod.fst = (List.range' (first + index) pairs.length).map Nat.cast ∧
        (∀ nonce ∈ pairs.map Prod.fst, nonce < 2 ^ 64) ∧
        (∀ amount ∈ pairs.map Prod.snd, 1 ≤ amount ∧ amount ≤ 20000000000000) ∧
        start + 100 * (pairs.map Prod.snd).sum ≤ u64Max ∧
        result = ((pairs.map Prod.snd).map (· * 100),
          start + 100 * (pairs.map Prod.snd).sum) := by
  induction pairs generalizing index start result with
  | nil =>
    simp only [convertPairs, pure_eq_ok]
    simp [fits, eq_comm]
  | cons pair rest ih =>
    obtain ⟨nonce, amount⟩ := pair
    simp only [convertPairs]
    simp only [↓then_eq_ok, bind_eq_ok, rejectIf_eq_ok, pure_eq_ok, checkUint_eq_ok]
    simp only [List.map_cons, List.forall_mem_cons, List.sum_cons, List.length_cons,
      List.range'_succ, List.cons.injEq, not_or, not_not, ne_eq]
    constructor
    · rintro ⟨⟨-, nonceLt⟩, ⟨-, named⟩, amountLe, converted, convertible, sumLe, tail, walked, rfl⟩
      obtain ⟨positive, -, rfl⟩ := usdt6ToUsdd8_eq_ok.mp convertible
      have limit : maxDepositAmountUsdtMicro = 20000000000000 := by decide
      rw [limit] at amountLe
      obtain ⟨restNonces, restLt, restAmounts, restTotal, rfl⟩ := (ih (by omega)).mp walked
      refine ⟨⟨?_, restNonces⟩, ⟨nonceLt, restLt⟩, ⟨⟨positive, by omega⟩, restAmounts⟩, by omega,
        ?_⟩
      · rw [named, Nat.cast_add]
      · rw [Prod.mk.injEq]
        exact ⟨rfl, by ring⟩
    · rintro ⟨⟨named, restNonces⟩, ⟨nonceLt, restLt⟩, ⟨⟨positive, amountLe⟩, restAmounts⟩, bound,
        rfl⟩
      have limit : maxDepositAmountUsdtMicro = 20000000000000 := by decide
      have later : 0 ≤ (rest.map Prod.snd).sum := by
        refine List.sum_nonneg ?_
        intro value member
        have range := restAmounts value member
        omega
      rw [Nat.cast_add] at named
      have small : start + amount * 100 ≤ u64Max := by omega
      refine ⟨⟨by simp only [Bool.false_eq_true, if_false]; omega, nonceLt⟩,
        ⟨by simp only [u64Max]; omega, named⟩, by rw [limit]; omega, amount * 100,
        usdt6ToUsdd8_eq_ok.mpr ⟨positive, by simp only [u64Max]; omega, rfl⟩, by omega, _,
        (ih small).mpr ⟨restNonces, restLt, restAmounts, by omega, rfl⟩, ?_⟩
      rw [Prod.mk.injEq]
      exact ⟨rfl, by ring⟩

theorem validateMintBatch_eq_ok {first : Nat} {nonces amounts converted : List Int}
    {total : Int} :
    validateMintBatch first nonces amounts = .ok (converted, total) ↔
      first < 2 ^ 64 ∧ BatchRules first nonces amounts ∧
        converted = amounts.map (· * 100) ∧ total = 100 * amounts.sum := by
  simp only [validateMintBatch]
  simp only [↓then_eq_ok, bind_eq_ok, rejectIf_eq_ok, pure_eq_ok, checkUint_eq_ok, not_or,
    not_not, ne_eq]
  constructor
  · rintro ⟨⟨-, firstLt⟩, ⟨sizes, nonempty, size⟩, ⟨_, sum⟩, walked, budget, same⟩
    have fsts : (nonces.zip amounts).map Prod.fst = nonces := List.map_fst_zip sizes.le
    have snds : (nonces.zip amounts).map Prod.snd = amounts := List.map_snd_zip sizes.ge
    have zipped : (nonces.zip amounts).length = nonces.length := by
      rw [List.length_zip, ← sizes, Nat.min_self]
    rw [convertPairs_eq_ok (by decide), fsts, snds, zipped, Nat.add_zero] at walked
    obtain ⟨consecutive, noncesLt, each, -, totals⟩ := walked
    simp only [Prod.mk.injEq] at totals same
    obtain ⟨rfl, rfl⟩ := totals
    obtain ⟨rfl, rfl⟩ := same
    simp only [maxMintBatchUsddBase] at budget
    exact ⟨by omega, ⟨sizes, nonempty, size, consecutive, noncesLt, each, by omega⟩, rfl,
      by omega⟩
  · rintro ⟨firstLt, rules, rfl, rfl⟩
    have fsts : (nonces.zip amounts).map Prod.fst = nonces := List.map_fst_zip rules.sizes.le
    have snds : (nonces.zip amounts).map Prod.snd = amounts := List.map_snd_zip rules.sizes.ge
    have zipped : (nonces.zip amounts).length = nonces.length := by
      rw [List.length_zip, ← rules.sizes, Nat.min_self]
    have budget := rules.budget
    refine ⟨⟨by simp only [Bool.false_eq_true, if_false]; omega, by omega⟩,
      ⟨rules.sizes, rules.nonempty, rules.size_le⟩,
      (amounts.map (· * 100), 0 + 100 * amounts.sum), ?_,
      by simp only [maxMintBatchUsddBase]; omega, by simp⟩
    rw [convertPairs_eq_ok (by decide), fsts, snds, zipped, Nat.add_zero]
    exact ⟨rules.consecutive, rules.nonces_lt, rules.each, by simp only [u64Max]; omega, rfl⟩

end Batches

end Usdd.Simplicity

import Usdd.Core.Deposit
/-!
# Mint batches

One controller transition mints one to sixty-four consecutive deposits. A batch is built from
deposits or checked as it stands; both walks carry the expected nonce and both totals. A valid
batch names its nonces as an interval and its totals as exact sums.
-/
namespace Usdd.Core

open Usdd.Foundation

/-- `types::MintBatch`. -/
@[ext]
structure MintBatch where
  firstNonce : UInt64
  nextNonce : UInt64
  outputs : List MintOutput
  totalUsdtAmountMicro : UInt64
  totalUsddAmountBase : UInt64
deriving DecidableEq

/-- The output that mints a deposit, field by field. -/
def MintOutput.ofDeposit [Hashing] (deposit : VaultDeposit) : MintOutput :=
  ⟨deposit.depositId, deposit.nonce, deposit.usdtAmountMicro, deposit.usddAmountBase,
    deposit.elementsScript⟩

/-- A deposit names the same chain, vault and token as another. -/
def VaultDeposit.SameTarget (deposit first : VaultDeposit) : Prop :=
  deposit.ethereumChainId = first.ethereumChainId ∧ deposit.vault = first.vault ∧
    deposit.usdt = first.usdt

namespace MintBatch

/-- The loop of `MintBatch::from_deposits`, from a position of the batch on. -/
def collectOutputs [Hashing] (first : VaultDeposit) :
    Nat → List VaultDeposit → Except DecodeError (List MintOutput)
  | _, [] => return []
  | offset, deposit :: rest => do
    deposit.validate
    let expectedNonce ← okOr (checkedAdd first.nonce (UInt64.ofNat offset))
      (.invalidValue "batch nonce overflow")
    rejectIf (deposit.nonce ≠ expectedNonce)
      (.invalidValue "mint batch deposit nonces are not consecutive")
    rejectIf (deposit.ethereumChainId ≠ first.ethereumChainId ∨ deposit.vault ≠ first.vault ∨
        deposit.usdt ≠ first.usdt)
      (.invalidValue "mint batch mixes chains, vaults, or tokens")
    let output ← MintOutput.fromDeposit deposit
    let outputs ← collectOutputs first (offset + 1) rest
    return output :: outputs

/-- `MintBatch::from_deposits`. -/
def fromDeposits [Hashing] (deposits : List VaultDeposit) : Except DecodeError MintBatch := do
  rejectIf (deposits = [] ∨ deposits.length > maxMintBatchSize)
    (.invalidValue "mint batch size must be 1..64")
  let first ← okOr deposits.head? (.invalidValue "mint batch size must be 1..64")
  first.validate
  let outputs ← collectOutputs first 0 deposits
  let nextNonce ← okOr (checkedAdd first.nonce (UInt64.ofNat deposits.length))
    (.invalidValue "batch next nonce overflow")
  let totalUsdtAmountMicro ← checkedSum (.invalidValue "batch USDT total overflow") 0
    (outputs.map (·.usdtAmountMicro))
  let totalUsddAmountBase ← checkedSum (.invalidValue "batch USDD total overflow") 0
    (outputs.map (·.usddAmountBase))
  rejectIf (totalUsdtAmountMicro > maxMintBatchUsdtMicro ∨
      totalUsddAmountBase > maxMintBatchUsddBase)
    (.invalidValue "mint batch exceeds Elements explicit-output budget")
  return {
    firstNonce := first.nonce
    nextNonce := nextNonce
    outputs := outputs
    totalUsdtAmountMicro := totalUsdtAmountMicro
    totalUsddAmountBase := totalUsddAmountBase }

/-- The loop of `MintBatch::validate`, from a position of the batch on. -/
def checkOutputs (firstNonce : UInt64) :
    Nat → UInt64 → UInt64 → List MintOutput → Except DecodeError (UInt64 × UInt64)
  | _, usdtTotal, usddTotal, [] => return (usdtTotal, usddTotal)
  | offset, usdtTotal, usddTotal, output :: rest => do
    output.validate
    let expectedNonce ← okOr (checkedAdd firstNonce (UInt64.ofNat offset))
      (.invalidValue "batch nonce overflow")
    rejectIf (output.nonce ≠ expectedNonce)
      (.invalidValue "mint output nonces are not consecutive")
    let usdtTotal ← okOr (checkedAdd usdtTotal output.usdtAmountMicro)
      (.invalidValue "batch USDT total overflow")
    let usddTotal ← okOr (checkedAdd usddTotal output.usddAmountBase)
      (.invalidValue "batch USDD total overflow")
    checkOutputs firstNonce (offset + 1) usdtTotal usddTotal rest

/-- `MintBatch::validate`. -/
def validate (batch : MintBatch) : Except DecodeError Unit := do
  rejectIf (batch.outputs = [] ∨ batch.outputs.length > maxMintBatchSize)
    (.invalidValue "mint batch size must be 1..64")
  let expectedNext ← okOr (checkedAdd batch.firstNonce (UInt64.ofNat batch.outputs.length))
    (.invalidValue "batch next nonce overflow")
  rejectIf (batch.nextNonce ≠ expectedNext) (.invalidValue "wrong batch next nonce")
  let (usdtTotal, usddTotal) ← checkOutputs batch.firstNonce 0 0 0 batch.outputs
  rejectIf (usdtTotal ≠ batch.totalUsdtAmountMicro ∨ usddTotal ≠ batch.totalUsddAmountBase ∨
      usdtMicroToUsddBase usdtTotal ≠ some usddTotal)
    (.invalidValue "wrong mint batch totals")
  rejectIf (usdtTotal > maxMintBatchUsdtMicro ∨ usddTotal > maxMintBatchUsddBase)
    (.invalidValue "mint batch exceeds Elements explicit-output budget")

/-- The micro-USDT amounts of a list of outputs, summed exactly. -/
def usdtSum (outputs : List MintOutput) : Nat :=
  (outputs.map fun output => output.usdtAmountMicro.toNat).sum

/-- The USDD base amounts of a list of outputs, summed exactly. -/
def usddSum (outputs : List MintOutput) : Nat :=
  (outputs.map fun output => output.usddAmountBase.toNat).sum

/-- The nonces of a list of outputs. -/
def nonces (outputs : List MintOutput) : List Nat :=
  outputs.map fun output => output.nonce.toNat

/-- What a validated batch satisfies. -/
structure Valid (batch : MintBatch) : Prop where
  nonempty : batch.outputs ≠ []
  size_le : batch.outputs.length ≤ 64
  next : batch.nextNonce.toNat = batch.firstNonce.toNat + batch.outputs.length
  outputs : ∀ output ∈ batch.outputs, output.Valid
  consecutive : nonces batch.outputs = List.range' batch.firstNonce.toNat batch.outputs.length
  usdt : batch.totalUsdtAmountMicro.toNat = usdtSum batch.outputs
  usdd : batch.totalUsddAmountBase.toNat = usddSum batch.outputs
  usdt_le : batch.totalUsdtAmountMicro.toNat ≤ 20000000000000

theorem usddSum_of_valid {outputs : List MintOutput} (valid : ∀ output ∈ outputs, output.Valid) :
    usddSum outputs = 100 * usdtSum outputs := by
  induction outputs with
  | nil => rfl
  | cons output outputs ih =>
    have rest := ih fun later member => valid later (List.mem_cons_of_mem _ member)
    have head := (valid output List.mem_cons_self).converted
    simp only [usddSum, usdtSum, List.map_cons, List.sum_cons] at rest ⊢
    omega

/-- The totals of a valid batch are converted exactly. -/
theorem Valid.converted {batch : MintBatch} (valid : batch.Valid) :
    batch.totalUsddAmountBase.toNat = 100 * batch.totalUsdtAmountMicro.toNat := by
  rw [valid.usdt, valid.usdd, usddSum_of_valid valid.outputs]

/-- The size of a batch is a word. -/
theorem batchSize_toNat {size : Nat} (small : size ≤ 64) : (UInt64.ofNat size).toNat = size :=
  UInt64.toNat_ofNat_of_lt' (Nat.lt_of_le_of_lt small (by decide))

/-- A nonce is the one expected at an offset exactly if it is the sum. -/
theorem offset_nonce {firstNonce nonce : UInt64} {offset : Nat} (small : offset < 2 ^ 64) :
    (∃ expected, checkedAdd firstNonce (UInt64.ofNat offset) = some expected ∧ nonce = expected) ↔
      nonce.toNat = firstNonce.toNat + offset := by
  have offsets : (UInt64.ofNat offset).toNat = offset := UInt64.toNat_ofNat_of_lt' small
  constructor
  · rintro ⟨expected, added, rfl⟩
    rw [checkedAdd_eq_some.mp added, offsets]
  · intro exact
    exact ⟨nonce, checkedAdd_eq_some.mpr (by rw [exact, offsets]), rfl⟩

/-- The checking loop succeeds exactly on valid, consecutive outputs whose sums fit, and returns
those sums. -/
theorem checkOutputs_eq_ok {firstNonce usdtStart usddStart : UInt64} {outputs : List MintOutput}
    {offset : Nat} {totals : UInt64 × UInt64} (small : offset + outputs.length < 2 ^ 64) :
    checkOutputs firstNonce offset usdtStart usddStart outputs = .ok totals ↔
      (∀ output ∈ outputs, output.Valid) ∧
        nonces outputs = List.range' (firstNonce.toNat + offset) outputs.length ∧
        totals.1.toNat = usdtStart.toNat + usdtSum outputs ∧
        totals.2.toNat = usddStart.toNat + usddSum outputs := by
  induction outputs generalizing offset usdtStart usddStart with
  | nil =>
    obtain ⟨usdtTotal, usddTotal⟩ := totals
    simp only [checkOutputs, pure_eq_ok, Prod.mk.injEq, nonces, usdtSum, usddSum]
    simp [← UInt64.toNat_inj, eq_comm]
  | cons output outputs ih =>
    simp only [List.length_cons] at small
    simp only [checkOutputs]
    simp only [bind_eq_ok, okOr_eq_ok, ↓then_eq_ok, rejectIf_eq_ok, not_not,
      MintOutput.validate_eq_ok, ih (by omega : offset + 1 + outputs.length < 2 ^ 64),
      List.forall_mem_cons, nonces, usdtSum, usddSum, List.map_cons, List.length_cons,
      List.range'_succ, List.cons.injEq, List.sum_cons, Nat.add_assoc]
    constructor
    · rintro ⟨valid, expected, added, nonce, usdt, usdtAdded, usdd, usddAdded, rest, tail,
        usdtTotal, usddTotal⟩
      have head := (offset_nonce (by omega)).mp ⟨expected, added, nonce⟩
      refine ⟨⟨valid, rest⟩, ⟨head, tail⟩, ?_, ?_⟩
      · rw [usdtTotal, checkedAdd_eq_some.mp usdtAdded, Nat.add_assoc]
      · rw [usddTotal, checkedAdd_eq_some.mp usddAdded, Nat.add_assoc]
    · rintro ⟨⟨valid, rest⟩, ⟨head, tail⟩, usdtTotal, usddTotal⟩
      obtain ⟨expected, added, nonce⟩ := (offset_nonce (by omega)).mpr head
      have usdtBound := totals.1.toNat_lt
      have usddBound := totals.2.toNat_lt
      obtain ⟨usdt, usdtAdded, usdtValue⟩ :=
        checkedAdd_of_lt (show usdtStart.toNat + output.usdtAmountMicro.toNat < 2 ^ 64 by omega)
      obtain ⟨usdd, usddAdded, usddValue⟩ :=
        checkedAdd_of_lt (show usddStart.toNat + output.usddAmountBase.toNat < 2 ^ 64 by omega)
      exact ⟨valid, expected, added, nonce, usdt, usdtAdded, usdd, usddAdded, rest, tail,
        by omega, by omega⟩

/-- Validation succeeds exactly on valid batches: the conversion check and the USDD budget
follow from the outputs' own conversions. -/
theorem validate_eq_ok {batch : MintBatch} : batch.validate = .ok () ↔ batch.Valid := by
  have count : ∀ {next : UInt64}, batch.outputs.length ≤ 64 →
      (checkedAdd batch.firstNonce (UInt64.ofNat batch.outputs.length) = some next ↔
        next.toNat = batch.firstNonce.toNat + batch.outputs.length) := by
    intro next small
    rw [checkedAdd_eq_some, batchSize_toNat small]
  simp only [validate]
  simp only [↓then_eq_ok, rejectIf_eq_ok, bind_eq_ok, okOr_eq_ok, not_or,
    not_not, gt_iff_lt, UInt64.not_lt, UInt64.le_iff_toNat_le, maxMintBatchUsdtMicro_toNat,
    maxMintBatchUsddBase_toNat, usdtMicroToUsddBase_eq_some, Nat.not_lt, ne_eq]
  constructor
  · rintro ⟨⟨nonempty, size⟩, expected, added, next, totals, walked, ⟨usdt, usdd, converted⟩,
      usdtLe, usddLe⟩
    obtain ⟨valid, consecutive, usdtTotal, usddTotal⟩ :=
      (checkOutputs_eq_ok (by simp only [maxMintBatchSize] at size; omega)).mp walked
    refine ⟨nonempty, size, ?_, valid, consecutive, ?_, ?_, usdt ▸ usdtLe⟩
    · rw [next, (count size).mp added]
    · rw [← usdt, usdtTotal]
      exact Nat.zero_add _
    · rw [← usdd, usddTotal]
      exact Nat.zero_add _
  · intro valid
    have size := valid.size_le
    refine ⟨⟨valid.nonempty, size⟩, batch.nextNonce, (count size).mpr valid.next, rfl,
      (batch.totalUsdtAmountMicro, batch.totalUsddAmountBase), ?_, ⟨rfl, rfl, valid.converted⟩,
      valid.usdt_le, ?_⟩
    · refine (checkOutputs_eq_ok (by omega)).mpr ⟨valid.outputs, valid.consecutive, ?_, ?_⟩
      · rw [valid.usdt]
        exact (Nat.zero_add _).symm
      · rw [valid.usdd]
        exact (Nat.zero_add _).symm
    · have exact := valid.converted
      have bound := valid.usdt_le
      simp only
      omega

section FromDeposits

variable [Hashing]

/-- The building loop succeeds exactly on valid, consecutive deposits of one target, and
returns their outputs. -/
theorem collectOutputs_eq_ok {first : VaultDeposit} {deposits : List VaultDeposit} {offset : Nat}
    {outputs : List MintOutput} (small : offset + deposits.length < 2 ^ 64) :
    collectOutputs first offset deposits = .ok outputs ↔
      (∀ deposit ∈ deposits, deposit.Valid ∧ deposit.SameTarget first) ∧
        deposits.map (fun deposit => deposit.nonce.toNat) =
          List.range' (first.nonce.toNat + offset) deposits.length ∧
        outputs = deposits.map MintOutput.ofDeposit := by
  induction deposits generalizing offset outputs with
  | nil =>
    simp only [collectOutputs, pure_eq_ok]
    simp [eq_comm]
  | cons deposit deposits ih =>
    simp only [List.length_cons] at small
    simp only [collectOutputs]
    simp only [bind_eq_ok, okOr_eq_ok, ↓then_eq_ok, rejectIf_eq_ok, not_not, not_or,
      VaultDeposit.validate_eq_ok, MintOutput.fromDeposit_eq_ok, pure_eq_ok, ne_eq,
      ih (by omega : offset + 1 + deposits.length < 2 ^ 64), List.forall_mem_cons, List.map_cons,
      List.length_cons, List.range'_succ, List.cons.injEq, Nat.add_assoc]
    constructor
    · rintro ⟨valid, expected, added, nonce, target, _, ⟨_, rfl⟩, _, ⟨rest, tail, rfl⟩, rfl⟩
      exact ⟨⟨⟨valid, target⟩, rest⟩, ⟨(offset_nonce (by omega)).mp ⟨expected, added, nonce⟩,
        tail⟩, rfl⟩
    · rintro ⟨⟨⟨valid, target⟩, rest⟩, ⟨head, tail⟩, rfl⟩
      obtain ⟨expected, added, nonce⟩ := (offset_nonce (by omega)).mpr head
      exact ⟨valid, expected, added, nonce, target, _, ⟨valid, rfl⟩, _, ⟨rest, tail, rfl⟩,
        rfl⟩

/-- What a successful `from_deposits` says about the deposits and the batch. -/
structure BuiltFrom (deposits : List VaultDeposit) (batch : MintBatch) : Prop where
  nonempty : deposits ≠ []
  size_le : deposits.length ≤ 64
  each : ∀ deposit ∈ deposits, deposit.Valid
  consecutive : deposits.map (fun deposit => deposit.nonce.toNat) =
    List.range' batch.firstNonce.toNat deposits.length
  outputs : batch.outputs = deposits.map MintOutput.ofDeposit
  next : batch.nextNonce.toNat = batch.firstNonce.toNat + deposits.length
  usdt : batch.totalUsdtAmountMicro.toNat = usdtSum batch.outputs
  usdd : batch.totalUsddAmountBase.toNat = usddSum batch.outputs
  usdt_le : batch.totalUsdtAmountMicro.toNat ≤ 20000000000000
  usdd_le : batch.totalUsddAmountBase.toNat ≤ 2000000000000000
  first : deposits.head?.map (·.nonce) = some batch.firstNonce
  target : ∀ left ∈ deposits, ∀ right ∈ deposits, left.SameTarget right

/-- The facts behind a batch that `from_deposits` returned. -/
theorem fromDeposits_eq_ok {deposits : List VaultDeposit} {batch : MintBatch} :
    fromDeposits deposits = .ok batch ↔ BuiltFrom deposits batch := by
  cases deposits with
  | nil =>
    simp only [fromDeposits, ↓then_eq_ok, rejectIf_eq_ok, true_or, not_true_eq_false, false_and,
      false_iff]
    exact fun built => built.nonempty rfl
  | cons first rest =>
    simp only [fromDeposits]
    simp only [↓then_eq_ok, rejectIf_eq_ok, bind_eq_ok, okOr_eq_ok, List.head?_cons,
      Option.some.injEq, pure_eq_ok, VaultDeposit.validate_eq_ok, not_or, reduceCtorEq,
      not_false_eq_true, true_and, gt_iff_lt, UInt64.not_lt, UInt64.le_iff_toNat_le,
      maxMintBatchUsdtMicro_toNat, maxMintBatchUsddBase_toNat, checkedSum_eq_ok, Nat.not_lt,
      checkedAdd_eq_some, exists_eq_left', List.map_map]
    constructor
    · rintro ⟨size, valid, outputs, collected, next, added, usdt, usdtTotal, usdd, usddTotal,
        ⟨usdtLe, usddLe⟩, rfl⟩
      have size' : (first :: rest).length ≤ 64 := size
      obtain ⟨each, consecutive, rfl⟩ := (collectOutputs_eq_ok (by omega)).mp collected
      rw [batchSize_toNat size'] at added
      refine ⟨List.cons_ne_nil _ _, size', fun deposit member => (each deposit member).1,
        consecutive, rfl, added, ?_, ?_, usdtLe, usddLe, rfl, ?_⟩
      · simpa [usdtSum, Function.comp_def] using usdtTotal
      · simpa [usddSum, Function.comp_def] using usddTotal
      · intro left memberLeft right memberRight
        obtain ⟨chainLeft, vaultLeft, usdtLeft⟩ := (each left memberLeft).2
        obtain ⟨chainRight, vaultRight, usdtRight⟩ := (each right memberRight).2
        exact ⟨chainLeft.trans chainRight.symm, vaultLeft.trans vaultRight.symm,
          usdtLeft.trans usdtRight.symm⟩
    · intro built
      have size := built.size_le
      have nonce : first.nonce = batch.firstNonce := by simpa using built.first
      refine ⟨size, built.each first List.mem_cons_self, batch.outputs, ?_,
        batch.nextNonce, ?_, batch.totalUsdtAmountMicro, ?_, batch.totalUsddAmountBase, ?_,
        ⟨built.usdt_le, built.usdd_le⟩, ?_⟩
      · refine (collectOutputs_eq_ok (by omega)).mpr ⟨fun deposit member =>
          ⟨built.each deposit member, built.target deposit member first List.mem_cons_self⟩,
          ?_, built.outputs⟩
        rw [nonce]
        exact built.consecutive
      · rw [batchSize_toNat size, nonce]
        exact built.next
      · simpa [usdtSum, Function.comp_def] using built.usdt
      · simpa [usddSum, Function.comp_def] using built.usdd
      · rw [nonce]

/-- A built batch is valid once its deposit identifiers are not zero. -/
theorem BuiltFrom.valid {deposits : List VaultDeposit} {batch : MintBatch}
    (built : BuiltFrom deposits batch) (ids : ∀ deposit ∈ deposits, deposit.depositId ≠ .zero) :
    batch.Valid := by
  have lengths : batch.outputs.length = deposits.length := by rw [built.outputs, List.length_map]
  refine ⟨?_, lengths ▸ built.size_le, lengths ▸ built.next, ?_, ?_, built.usdt, built.usdd,
    built.usdt_le⟩
  · rw [built.outputs, ne_eq, List.map_eq_nil_iff]
    exact built.nonempty
  · intro output member
    rw [built.outputs] at member
    obtain ⟨deposit, source, rfl⟩ := List.mem_map.mp member
    have valid := built.each deposit source
    exact ⟨ids deposit source, valid.amount_pos, valid.amount_le,
      VaultDeposit.usddAmountBase_toNat valid, valid.script_ne, valid.script_le⟩
  · rw [nonces, lengths, ← built.consecutive, built.outputs, List.map_map]
    rfl

end FromDeposits

end MintBatch

end Usdd.Core

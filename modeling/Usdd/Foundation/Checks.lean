import Mathlib.Tactic
/-!
# Guarded computations and checked machine words

A validator is a sequence of guards, each naming the error it returns, followed by a value.
`rejectIf` is one guard; the laws here turn a guarded computation that returned a value into
the facts its guards established, so that no proof has to replay the sequence. Checked
arithmetic of 64- and 256-bit words is the exact sum where it fits and nothing elsewhere.
-/
namespace Usdd.Foundation

/-- How a computation of the source stops: with an error, or by a failed `expect`. -/
inductive Fault (ε : Type) where
  | error (error : ε)
  | panic (message : String)
deriving DecidableEq

section Guards

variable {ε α β : Type}

/-- Fail with `error` when the condition holds. -/
def rejectIf (condition : Prop) [Decidable condition] (error : ε) : Except ε Unit :=
  if condition then .error error else .ok ()

/-- The value of an option, or an error where there is none. -/
def okOr (value : Option α) (error : ε) : Except ε α :=
  match value with
  | some value => .ok value
  | none => .error error

/-- A computation returned a value, whatever it is. -/
def Succeeds (computation : Except ε α) : Prop := ∃ value, computation = .ok value

instance (computation : Except ε α) : Decidable (Succeeds computation) :=
  match computation with
  | .ok value => .isTrue ⟨value, rfl⟩
  | .error _ => .isFalse fun ⟨_, wrong⟩ => nomatch wrong

@[simp]
theorem rejectIf_eq_ok (condition : Prop) [Decidable condition] (error : ε) (value : Unit) :
    rejectIf condition error = .ok value ↔ ¬condition := by
  unfold rejectIf
  split <;> simp_all

@[simp]
theorem okOr_eq_ok (value : Option α) (error : ε) (result : α) :
    okOr value error = .ok result ↔ value = some result := by
  cases value <;> simp [okOr]

@[simp]
theorem bind_eq_ok (computation : Except ε α) (next : α → Except ε β) (result : β) :
    (computation >>= next) = .ok result ↔
      ∃ value, computation = .ok value ∧ next value = .ok result := by
  cases computation <;> simp [bind, Except.bind]

/-- A guard before the rest: it passed, and the rest returned the value. -/
@[simp high]
theorem then_eq_ok (guard : Except ε Unit) (next : Unit → Except ε β) (result : β) :
    (guard >>= next) = .ok result ↔ guard = .ok () ∧ next () = .ok result := by
  cases guard <;> simp [bind, Except.bind]

@[simp]
theorem pure_eq_ok (value result : α) :
    (pure value : Except ε α) = .ok result ↔ value = result := by
  simp [pure, Except.pure]

@[simp]
theorem mapError_eq_ok {ε' : Type} (computation : Except ε α) (convert : ε → ε') (result : α) :
    computation.mapError convert = .ok result ↔ computation = .ok result := by
  cases computation <;> simp [Except.mapError]

/-- A loop of guards passes when every guard does. -/
@[simp]
theorem forM_eq_ok (items : List α) (guard : α → Except ε PUnit) :
    items.forM guard = .ok () ↔ ∀ item ∈ items, guard item = .ok () := by
  induction items with
  | nil => simp
  | cons item items ih =>
    simp only [List.forall_mem_cons, ← ih]
    exact then_eq_ok _ _ _

/-- A guard before the rest: it stops with its error or the rest runs. -/
theorem rejectIf_bind (condition : Prop) [Decidable condition] (error : ε)
    (next : Unit → Except ε β) :
    (rejectIf condition error >>= next) = if condition then .error error else next () := by
  unfold rejectIf
  split <;> rfl

/-- A value that must exist before the rest. -/
theorem okOr_bind (value : Option α) (error : ε) (next : α → Except ε β) :
    (okOr value error >>= next) = value.elim (.error error) next := by
  cases value <;> rfl

/-- A sequence fails where a step of it does. -/
theorem bind_eq_error (computation : Except ε α) (next : α → Except ε β) (error : ε) :
    (computation >>= next) = .error error ↔
      computation = .error error ∨ ∃ value, computation = .ok value ∧ next value = .error error := by
  cases computation <;> simp [bind, Except.bind]

theorem rejectIf_eq_error (condition : Prop) [Decidable condition] (given error : ε) :
    rejectIf condition given = .error error ↔ condition ∧ given = error := by
  unfold rejectIf
  split <;> simp_all

theorem okOr_eq_error (value : Option α) (given error : ε) :
    okOr value given = .error error ↔ value = none ∧ given = error := by
  cases value <;> simp [okOr]

theorem mapError_eq_error {ε' : Type} (computation : Except ε α) (convert : ε → ε') (error : ε') :
    computation.mapError convert = .error error ↔
      ∃ cause, computation = .error cause ∧ convert cause = error := by
  cases computation <;> simp [Except.mapError]

theorem succeeds_ok (value : α) : Succeeds (.ok value : Except ε α) := ⟨value, rfl⟩

/-- A sequence succeeds when its first step does and the rest succeeds on its value. -/
theorem succeeds_bind (computation : Except ε α) (next : α → Except ε β) :
    Succeeds (computation >>= next) ↔ ∃ value, computation = .ok value ∧ Succeeds (next value) := by
  simp only [Succeeds, bind_eq_ok]
  exact ⟨fun ⟨result, value, first, rest⟩ => ⟨value, first, result, rest⟩,
    fun ⟨value, first, result, rest⟩ => ⟨result, value, first, rest⟩⟩

end Guards

/-- The unsigned 256-bit word of the EVM. -/
abbrev Uint256 := BitVec 256

section Words

/-- `u64::checked_add`. -/
def checkedAdd (left right : UInt64) : Option UInt64 :=
  if left.toNat + right.toNat < 2 ^ 64 then some (left + right) else none

/-- `u64::checked_sub`. -/
def checkedSub (left right : UInt64) : Option UInt64 :=
  if right.toNat ≤ left.toNat then some (left - right) else none

/-- `u64::checked_mul`. -/
def checkedMul (left right : UInt64) : Option UInt64 :=
  if left.toNat * right.toNat < 2 ^ 64 then some (left * right) else none

/-- Checked addition of 256-bit words. -/
def checkedAdd256 (left right : Uint256) : Option Uint256 :=
  if left.toNat + right.toNat < 2 ^ 256 then some (left + right) else none

/-- Checked subtraction of 256-bit words. -/
def checkedSub256 (left right : Uint256) : Option Uint256 :=
  if right.toNat ≤ left.toNat then some (left - right) else none

/-- A checked sum is the exact sum. -/
theorem checkedAdd_eq_some {left right sum : UInt64} :
    checkedAdd left right = some sum ↔ sum.toNat = left.toNat + right.toNat := by
  unfold checkedAdd
  split
  · rename_i fits
    rw [Option.some.injEq, ← UInt64.toNat_inj, UInt64.toNat_add, Nat.mod_eq_of_lt fits]
    exact eq_comm
  · have bound := sum.toNat_lt
    simp only [reduceCtorEq, false_iff]
    omega

/-- A checked difference is the exact difference. -/
theorem checkedSub_eq_some {left right difference : UInt64} :
    checkedSub left right = some difference ↔
      left.toNat = difference.toNat + right.toNat := by
  unfold checkedSub
  split
  · rename_i ordered
    rw [Option.some.injEq, ← UInt64.toNat_inj,
      UInt64.toNat_sub_of_le _ _ (UInt64.le_iff_toNat_le.mpr ordered)]
    omega
  · simp only [reduceCtorEq, false_iff]
    omega

/-- A checked product is the exact product. -/
theorem checkedMul_eq_some {left right product : UInt64} :
    checkedMul left right = some product ↔ product.toNat = left.toNat * right.toNat := by
  unfold checkedMul
  split
  · rename_i fits
    rw [Option.some.injEq, ← UInt64.toNat_inj, UInt64.toNat_mul, Nat.mod_eq_of_lt fits]
    exact eq_comm
  · have bound := product.toNat_lt
    simp only [reduceCtorEq, false_iff]
    omega

/-- A checked 256-bit sum is the exact sum. -/
theorem checkedAdd256_eq_some {left right sum : Uint256} :
    checkedAdd256 left right = some sum ↔ sum.toNat = left.toNat + right.toNat := by
  unfold checkedAdd256
  split
  · rename_i fits
    rw [Option.some.injEq, ← BitVec.toNat_inj, BitVec.toNat_add, Nat.mod_eq_of_lt fits]
    exact eq_comm
  · have bound := sum.isLt
    simp only [reduceCtorEq, false_iff]
    omega

/-- A checked 256-bit difference is the exact difference. -/
theorem checkedSub256_eq_some {left right difference : Uint256} :
    checkedSub256 left right = some difference ↔
      left.toNat = difference.toNat + right.toNat := by
  unfold checkedSub256
  split
  · rename_i ordered
    rw [Option.some.injEq, ← BitVec.toNat_inj,
      BitVec.toNat_sub_of_le (BitVec.le_def.mpr ordered)]
    omega
  · simp only [reduceCtorEq, false_iff]
    omega

/-- A word that fits the exact sum of two words exists when the sum fits. -/
theorem checkedAdd_of_lt {left right : UInt64} (fits : left.toNat + right.toNat < 2 ^ 64) :
    ∃ sum, checkedAdd left right = some sum ∧ sum.toNat = left.toNat + right.toNat := by
  have computed : checkedAdd left right = some (left + right) := if_pos fits
  exact ⟨_, computed, checkedAdd_eq_some.mp computed⟩

/-- The 64-bit difference exists when the subtrahend is not larger. -/
theorem checkedSub_of_le {left right : UInt64} (ordered : right.toNat ≤ left.toNat) :
    ∃ difference, checkedSub left right = some difference ∧
      left.toNat = difference.toNat + right.toNat := by
  have computed : checkedSub left right = some (left - right) := if_pos ordered
  exact ⟨_, computed, checkedSub_eq_some.mp computed⟩

/-- The 256-bit sum exists when it fits. -/
theorem checkedAdd256_of_lt {left right : Uint256} (fits : left.toNat + right.toNat < 2 ^ 256) :
    ∃ sum, checkedAdd256 left right = some sum ∧ sum.toNat = left.toNat + right.toNat := by
  have computed : checkedAdd256 left right = some (left + right) := if_pos fits
  exact ⟨_, computed, checkedAdd256_eq_some.mp computed⟩

/-- The 256-bit difference exists when the subtrahend is not larger. -/
theorem checkedSub256_of_le {left right : Uint256} (ordered : right.toNat ≤ left.toNat) :
    ∃ difference, checkedSub256 left right = some difference ∧
      left.toNat = difference.toNat + right.toNat := by
  have computed : checkedSub256 left right = some (left - right) := if_pos ordered
  exact ⟨_, computed, checkedSub256_eq_some.mp computed⟩

/-- The 64-bit sum exists exactly when it fits. -/
theorem checkedAdd_isSome {left right : UInt64} :
    (∃ sum, checkedAdd left right = some sum) ↔ left.toNat + right.toNat < 2 ^ 64 := by
  refine ⟨fun ⟨sum, computed⟩ => ?_, fun fits => ⟨_, if_pos fits⟩⟩
  have bound := sum.toNat_lt
  rwa [checkedAdd_eq_some.mp computed] at bound

/-- Add words in order, failing at the first overflow. -/
def checkedSum {ε : Type} (error : ε) (start : UInt64) (words : List UInt64) : Except ε UInt64 :=
  words.foldlM (fun total word => okOr (checkedAdd total word) error) start

/-- A checked sum is the exact sum, and it exists exactly when that sum fits. -/
theorem checkedSum_eq_ok {ε : Type} {error : ε} {start total : UInt64} {words : List UInt64} :
    checkedSum error start words = .ok total ↔
      total.toNat = start.toNat + (words.map UInt64.toNat).sum := by
  induction words generalizing start with
  | nil =>
    simp only [checkedSum, List.foldlM_nil, pure_eq_ok, List.map_nil, List.sum_nil, Nat.add_zero]
    rw [eq_comm, UInt64.toNat_inj]
  | cons word words ih =>
    unfold checkedSum at ih ⊢
    simp only [List.foldlM_cons, bind_eq_ok, okOr_eq_ok, List.map_cons, List.sum_cons, ih]
    constructor
    · rintro ⟨next, added, exact⟩
      rw [exact, checkedAdd_eq_some.mp added, Nat.add_assoc]
    · intro exact
      have bound := total.toNat_lt
      obtain ⟨next, added, value⟩ := checkedAdd_of_lt
        (show start.toNat + word.toNat < 2 ^ 64 by omega)
      exact ⟨next, added, by omega⟩

/-- A 64-bit word widened to 256 bits keeps its value. -/
def widen (word : UInt64) : Uint256 := BitVec.ofNat 256 word.toNat

@[simp]
theorem widen_toNat (word : UInt64) : (widen word).toNat = word.toNat := by
  rw [widen, BitVec.toNat_ofNat]
  exact Nat.mod_eq_of_lt (Nat.lt_trans word.toNat_lt (by decide))

end Words

end Usdd.Foundation
